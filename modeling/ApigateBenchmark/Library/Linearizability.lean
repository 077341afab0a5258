import ApigateBenchmark.Library.Transition
import Mathlib.Data.List.Nodup

/-!
# Linearizability by linearization points

A concurrent object is observed through its history, the invocations and answers of its calls in the
order they happen. The history is linearizable if the calls that took effect can be put in one order
that a sequential object allows, that gives every answered call the result it was answered with, and
that keeps a call before every call invoked after its answer.

The proof rule asks for one move at each step of the system: nothing visible, an invocation, an
answer, or the point at which one pending call takes effect on the sequential object. The order of
those points is then the order sought.
-/

namespace Linearizability

variable {σ ω ρ : Type}

/-- A sequential object: its first state, and what a call may return and leave behind. -/
structure Spec (σ ω ρ : Type) where
  init : σ
  allows : σ → ω → ρ → σ → Prop

inductive Event (ω ρ : Type) where
  | invoke (call : Nat) (op : ω)
  | answer (call : Nat) (result : ρ)
  deriving DecidableEq

structure Entry (ω ρ : Type) where
  call : Nat
  op : ω
  result : ρ

def Spec.Legal (spec : Spec σ ω ρ) : σ → List (Entry ω ρ) → σ → Prop
  | s, [], t => s = t
  | s, entry :: order, t => ∃ m, spec.allows s entry.op entry.result m ∧ Legal spec m order t

structure Linearizes (spec : Spec σ ω ρ) (order : List (Entry ω ρ)) (history : List (Event ω ρ)) :
    Prop where
  legal : ∃ t, spec.Legal spec.init order t
  once : (order.map Entry.call).Nodup
  invoked : ∀ entry ∈ order, ∀ op, Event.invoke entry.call op ∈ history ↔ op = entry.op
  answered : ∀ call result, Event.answer call result ∈ history → ∃ op, ⟨call, op, result⟩ ∈ order
  realTime : ∀ first ∈ order, ∀ second ∈ order,
    [Event.answer first.call first.result, Event.invoke second.call second.op].Sublist history →
      [first, second].Sublist order

def Linearizable (spec : Spec σ ω ρ) (history : List (Event ω ρ)) : Prop :=
  ∃ order, Linearizes spec order history

theorem Spec.Legal.snoc {spec : Spec σ ω ρ} {s t u : σ} {order : List (Entry ω ρ)} {entry : Entry ω ρ}
    (h : spec.Legal s order t) (hallows : spec.allows t entry.op entry.result u) :
    spec.Legal s (order ++ [entry]) u := by
  induction order generalizing s with
  | nil =>
      obtain rfl := h
      exact ⟨u, hallows, rfl⟩
  | cons first order ih =>
      obtain ⟨m, hfirst, hrest⟩ := h
      exact ⟨m, hfirst, ih hrest⟩

/-- What any allowed call gives, the calls of an order give. -/
theorem Spec.Legal.result {spec : Spec σ ω ρ} {P : ω → ρ → Prop}
    (hallows : ∀ s op result t, spec.allows s op result t → P op result) {s t : σ}
    {order : List (Entry ω ρ)} (h : spec.Legal s order t) {entry : Entry ω ρ} (hentry : entry ∈ order) :
    P entry.op entry.result := by
  induction order generalizing s with
  | nil => cases hentry
  | cons first order ih =>
      obtain ⟨m, hfirst, hrest⟩ := h
      obtain rfl | htail := List.mem_cons.mp hentry
      · exact hallows _ _ _ _ hfirst
      · exact ih hrest htail

/-- Once `P` holds it stays, and no call of the kind `Q` is allowed. -/
theorem Spec.Legal.excludes {spec : Spec σ ω ρ} {P : σ → Prop} {Q : ω → ρ → Prop}
    (hkeeps : ∀ s op result t, spec.allows s op result t → P s → P t ∧ ¬ Q op result) {s t : σ}
    {order : List (Entry ω ρ)} (h : spec.Legal s order t) (hP : P s) {entry : Entry ω ρ}
    (hentry : entry ∈ order) : ¬ Q entry.op entry.result := by
  induction order generalizing s with
  | nil => cases hentry
  | cons first order ih =>
      obtain ⟨m, hfirst, hrest⟩ := h
      obtain rfl | htail := List.mem_cons.mp hentry
      · exact (hkeeps _ _ _ _ hfirst hP).2
      · exact ih hrest (hkeeps _ _ _ _ hfirst hP).1 htail

/-- If a call of the kind `Q` makes `P` hold, an order has at most one of the kind. -/
theorem Spec.Legal.at_most_one {spec : Spec σ ω ρ} {P : σ → Prop} {Q : ω → ρ → Prop}
    (hkeeps : ∀ s op result t, spec.allows s op result t → P s → P t ∧ ¬ Q op result)
    (hsets : ∀ s op result t, spec.allows s op result t → Q op result → P t) {s t : σ}
    {order : List (Entry ω ρ)} (h : spec.Legal s order t) {first second : Entry ω ρ}
    (hfirst : first ∈ order) (hsecond : second ∈ order) (hQ : Q first.op first.result)
    (hQ' : Q second.op second.result) : first = second := by
  induction order generalizing s with
  | nil => cases hfirst
  | cons head order ih =>
      obtain ⟨m, hhead, hrest⟩ := h
      have hafter (hheadQ : Q head.op head.result) {entry : Entry ω ρ} (hentry : entry ∈ order) :
          ¬ Q entry.op entry.result :=
        hrest.excludes hkeeps (hsets _ _ _ _ hhead hheadQ) hentry
      obtain rfl | hfirstTail := List.mem_cons.mp hfirst
      · obtain rfl | hsecondTail := List.mem_cons.mp hsecond
        · rfl
        · exact absurd hQ' (hafter hQ hsecondTail)
      · obtain rfl | hsecondTail := List.mem_cons.mp hsecond
        · exact absurd hQ (hafter hQ' hfirstTail)
        · exact ih hrest hfirstTail hsecondTail

/-- The entry of an answered call, with the operation it was invoked with. -/
theorem Linearizes.entry {spec : Spec σ ω ρ} {order : List (Entry ω ρ)} {history : List (Event ω ρ)}
    (h : Linearizes spec order history) {call : Nat} {op : ω} {result : ρ}
    (hinvoke : Event.invoke call op ∈ history) (hanswer : Event.answer call result ∈ history) :
    ⟨call, op, result⟩ ∈ order := by
  obtain ⟨op', hmem⟩ := h.answered call result hanswer
  have hop : op = op' := (h.invoked _ hmem op).mp hinvoke
  rw [hop]
  exact hmem

/-! ### Moves -/

/-- How far a call has come. -/
inductive Phase (ω ρ : Type) where
  | idle
  | pending (op : ω)
  | decided (op : ω) (result : ρ)
  | returned (op : ω) (result : ρ)

/-- The operation of a call that was invoked. -/
def Phase.invocation : Phase ω ρ → Option ω
  | .idle => none
  | .pending op => some op
  | .decided op _ => some op
  | .returned op _ => some op

/-- The operation and result of a call that took effect. -/
def Phase.effect : Phase ω ρ → Option (ω × ρ)
  | .decided op result => some (op, result)
  | .returned op result => some (op, result)
  | _ => none

/-- The result of a call that was answered. -/
def Phase.reply : Phase ω ρ → Option ρ
  | .returned _ result => some result
  | _ => none

/-- What the proof sees of a state of the system: the sequential object it stands for, the phase of
each call, and the history up to here. -/
structure View (σ ω ρ : Type) where
  abs : σ
  phase : Nat → Phase ω ρ
  history : List (Event ω ρ)

def View.start (spec : Spec σ ω ρ) : View σ ω ρ := ⟨spec.init, fun _ => .idle, []⟩

def View.setPhase (v : View σ ω ρ) (call : Nat) (phase : Phase ω ρ) : Nat → Phase ω ρ :=
  Function.update v.phase call phase

theorem View.setPhase_self (v : View σ ω ρ) (call : Nat) : v.setPhase call (v.phase call) = v.phase :=
  Function.update_eq_self call v.phase

inductive Move (spec : Spec σ ω ρ) (v : View σ ω ρ) : View σ ω ρ → Prop where
  | stay : Move spec v v
  | invoke (call : Nat) (op : ω) (hidle : v.phase call = .idle) :
      Move spec v ⟨v.abs, v.setPhase call (.pending op), v.history ++ [.invoke call op]⟩
  | decide (call : Nat) (op : ω) (result : ρ) (t : σ) (hpending : v.phase call = .pending op)
      (hallows : spec.allows v.abs op result t) :
      Move spec v ⟨t, v.setPhase call (.decided op result), v.history⟩
  | answer (call : Nat) (op : ω) (result : ρ) (hdecided : v.phase call = .decided op result) :
      Move spec v ⟨v.abs, v.setPhase call (.returned op result), v.history ++ [.answer call result]⟩

/-! ### The order of the linearization points -/

/-- The order agrees with what is seen of the state. -/
structure Orders (spec : Spec σ ω ρ) (v : View σ ω ρ) (order : List (Entry ω ρ)) : Prop where
  legal : spec.Legal spec.init order v.abs
  once : (order.map Entry.call).Nodup
  invoked : ∀ call op, Event.invoke call op ∈ v.history ↔ (v.phase call).invocation = some op
  answered : ∀ call result, Event.answer call result ∈ v.history ↔ (v.phase call).reply = some result
  decided : ∀ entry, entry ∈ order ↔ (v.phase entry.call).effect = some (entry.op, entry.result)
  realTime : ∀ first ∈ order, ∀ second ∈ order,
    [Event.answer first.call first.result, Event.invoke second.call second.op].Sublist v.history →
      [first, second].Sublist order

theorem Orders.start (spec : Spec σ ω ρ) : Orders spec (View.start spec) [] where
  legal := rfl
  once := List.nodup_nil
  invoked call op := by simp [View.start, Phase.invocation]
  answered call result := by simp [View.start, Phase.reply]
  decided entry := by simp [View.start, Phase.effect]
  realTime first hfirst := absurd hfirst List.not_mem_nil

theorem Phase.invocation_of_effect {phase : Phase ω ρ} {op : ω} {result : ρ}
    (h : phase.effect = some (op, result)) : phase.invocation = some op := by
  cases phase <;> simp_all [Phase.effect, Phase.invocation]

theorem Phase.effect_of_reply {phase : Phase ω ρ} {result : ρ} (h : phase.reply = some result) :
    ∃ op, phase.effect = some (op, result) := by
  cases phase <;> simp_all [Phase.effect, Phase.reply]

theorem Orders.linearizes {spec : Spec σ ω ρ} {v : View σ ω ρ} {order : List (Entry ω ρ)}
    (h : Orders spec v order) : Linearizes spec order v.history where
  legal := ⟨v.abs, h.legal⟩
  once := h.once
  invoked entry hentry op := by
    rw [h.invoked, Phase.invocation_of_effect ((h.decided entry).mp hentry), Option.some.injEq]
    exact eq_comm
  answered call result hanswer := by
    obtain ⟨op, heffect⟩ := Phase.effect_of_reply ((h.answered call result).mp hanswer)
    exact ⟨op, (h.decided ⟨call, op, result⟩).mpr heffect⟩
  realTime := h.realTime

/-- Two events in order, where one event was added at the end. -/
private theorem pair_sublist_snoc {α : Type} {a b c : α} {l : List α} (h : [a, b].Sublist (l ++ [c])) :
    [a, b].Sublist l ∨ b = c := by
  have hreverse : [b, a].Sublist (c :: l.reverse) := by simpa using h.reverse
  obtain hinside | ⟨rest, heq, -⟩ := List.sublist_cons_iff.mp hreverse
  · exact .inl (by simpa using hinside.reverse)
  · exact .inr (List.cons.inj heq).1

/-- What is tracked of each call's phase stays right when one call changes its phase. -/
private theorem tracks_setPhase {β : Type} {v : View σ ω ρ} {read : Phase ω ρ → Option β}
    {A A' : Nat → β → Prop} {call : Nat} {phase : Phase ω ρ}
    (h : ∀ c b, A c b ↔ read (v.phase c) = some b) (hothers : ∀ c b, c ≠ call → (A' c b ↔ A c b))
    (hcall : ∀ b, A' call b ↔ read phase = some b) (c : Nat) (b : β) :
    A' c b ↔ read (v.setPhase call phase c) = some b := by
  by_cases hc : c = call
  · rw [hc, View.setPhase, Function.update_self]
    exact hcall b
  · rw [View.setPhase, Function.update_of_ne hc, hothers c b hc]
    exact h c b

/-- A phase in which the same has taken effect leaves the order as it is. -/
private theorem Orders.decided_setPhase {spec : Spec σ ω ρ} {v : View σ ω ρ} {order : List (Entry ω ρ)}
    (h : Orders spec v order) {call : Nat} {phase : Phase ω ρ} (hsame : (v.phase call).effect = phase.effect)
    (entry : Entry ω ρ) :
    entry ∈ order ↔ (v.setPhase call phase entry.call).effect = some (entry.op, entry.result) := by
  rw [h.decided]
  by_cases hcall : entry.call = call
  · rw [hcall, hsame, View.setPhase, Function.update_self]
  · rw [View.setPhase, Function.update_of_ne hcall]

theorem Orders.invoke {spec : Spec σ ω ρ} {v : View σ ω ρ} {order : List (Entry ω ρ)}
    (h : Orders spec v order) {call : Nat} {op : ω} (hidle : v.phase call = .idle) :
    Orders spec ⟨v.abs, v.setPhase call (.pending op), v.history ++ [.invoke call op]⟩ order where
  legal := h.legal
  once := h.once
  invoked := tracks_setPhase h.invoked (fun c op' hc => by simp [hc]) fun op' => by
    have hbefore := h.invoked call op'
    rw [hidle] at hbefore
    simp [hbefore, Phase.invocation, eq_comm]
  answered := tracks_setPhase h.answered (fun c result hc => by simp) fun result => by
    have hbefore := h.answered call result
    simp_all [Phase.reply]
  decided := h.decided_setPhase (by rw [hidle]; rfl)
  realTime first hfirst second hsecond hbefore := by
    obtain hbefore | hnew := pair_sublist_snoc hbefore
    · exact h.realTime first hfirst second hsecond hbefore
    · -- a call in the order took effect, so it is not the one invoked now
      have heffect := (h.decided second).mp hsecond
      rw [(Event.invoke.inj hnew).1, hidle] at heffect
      cases heffect

theorem Orders.answer {spec : Spec σ ω ρ} {v : View σ ω ρ} {order : List (Entry ω ρ)}
    (h : Orders spec v order) {call : Nat} {op : ω} {result : ρ}
    (hdecided : v.phase call = .decided op result) :
    Orders spec ⟨v.abs, v.setPhase call (.returned op result), v.history ++ [.answer call result]⟩
      order where
  legal := h.legal
  once := h.once
  invoked := tracks_setPhase h.invoked (fun c op' hc => by simp) fun op' => by
    have hbefore := h.invoked call op'
    simp_all [Phase.invocation]
  answered := tracks_setPhase h.answered (fun c result' hc => by simp [hc]) fun result' => by
    have hbefore := h.answered call result'
    rw [hdecided] at hbefore
    simp [hbefore, Phase.reply, eq_comm]
  decided := h.decided_setPhase (by rw [hdecided]; rfl)
  realTime first hfirst second hsecond hbefore := by
    obtain hbefore | hnew := pair_sublist_snoc hbefore
    · exact h.realTime first hfirst second hsecond hbefore
    · cases hnew

theorem Orders.decide {spec : Spec σ ω ρ} {v : View σ ω ρ} {order : List (Entry ω ρ)}
    (h : Orders spec v order) {call : Nat} {op : ω} {result : ρ} {t : σ}
    (hpending : v.phase call = .pending op) (hallows : spec.allows v.abs op result t) :
    Orders spec ⟨t, v.setPhase call (.decided op result), v.history⟩
      (order ++ [⟨call, op, result⟩]) where
  legal := h.legal.snoc hallows
  once := by
    have hnew : call ∉ order.map Entry.call := fun hmem => by
      obtain ⟨entry, hentry, rfl⟩ := List.mem_map.mp hmem
      have heffect := (h.decided entry).mp hentry
      rw [hpending] at heffect
      cases heffect
    rw [List.map_append, List.nodup_append]
    refine ⟨h.once, List.nodup_singleton _, fun a ha b hb => ?_⟩
    obtain rfl := List.mem_singleton.mp hb
    exact fun heq => hnew (heq ▸ ha)
  invoked := tracks_setPhase h.invoked (fun c op' hc => Iff.rfl) fun op' => by
    have hbefore := h.invoked call op'
    simp_all [Phase.invocation]
  answered := tracks_setPhase h.answered (fun c result' hc => Iff.rfl) fun result' => by
    have hbefore := h.answered call result'
    simp_all [Phase.reply]
  decided entry := by
    have hbefore := h.decided entry
    obtain ⟨call', op', result'⟩ := entry
    by_cases hcall : call' = call
    · subst hcall
      simp_all [View.setPhase, Phase.effect, eq_comm]
    · simp_all [View.setPhase]
  realTime first hfirst second hsecond hbefore := by
    obtain hfirst | rfl := (List.mem_append.mp hfirst).imp id List.mem_singleton.mp
    · obtain hsecond | rfl := (List.mem_append.mp hsecond).imp id List.mem_singleton.mp
      · exact (h.realTime first hfirst second hsecond hbefore).trans (List.sublist_append_left _ _)
      · exact (List.singleton_sublist.mpr hfirst).append (List.Sublist.refl _)
    · -- a pending call has not been answered
      have hreply := (h.answered call result).mp (hbefore.subset List.mem_cons_self)
      rw [hpending] at hreply
      cases hreply

theorem Orders.move {spec : Spec σ ω ρ} {v w : View σ ω ρ} {order : List (Entry ω ρ)}
    (h : Orders spec v order) (hmove : Move spec v w) : ∃ order', Orders spec w order' := by
  cases hmove with
  | stay => exact ⟨order, h⟩
  | invoke call op hidle => exact ⟨order, h.invoke hidle⟩
  | decide call op result t hpending hallows => exact ⟨_, h.decide hpending hallows⟩
  | answer call op result hdecided => exact ⟨order, h.answer hdecided⟩

/-- A system each step of which is one move has linearizable histories. -/
theorem linearizable_of_moves {C ℓ : Type} (step : C → ℓ → Option C) (spec : Spec σ ω ρ)
    (view : C → View σ ω ρ) {I : C → Prop}
    (hstep : ∀ s l s', I s → step s l = some s' → I s' ∧ Move spec (view s) (view s')) {s s' : C}
    {labels : List ℓ} (hI : I s) (hstart : view s = View.start spec)
    (hrun : Transition.run step s labels = some s') : Linearizable spec (view s').history := by
  have hinv : I s' ∧ ∃ order, Orders spec (view s') order := by
    refine Transition.run_invariant step (I := fun s => I s ∧ ∃ order, Orders spec (view s) order)
      (fun t l t' ht hl => ?_) ⟨hI, [], hstart ▸ Orders.start spec⟩ hrun
    obtain ⟨hIt, order, horder⟩ := ht
    obtain ⟨hIt', hmove⟩ := hstep t l t' hIt hl
    exact ⟨hIt', horder.move hmove⟩
  obtain ⟨-, order, horder⟩ := hinv
  exact ⟨order, horder.linearizes⟩

end Linearizability
