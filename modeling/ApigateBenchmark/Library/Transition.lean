import Mathlib.Data.List.Forall2
import Mathlib.Data.Option.Basic

/-!
# Labelled transition systems

A system is a partial step function: a label says what happens, together with every choice left
open, and the step is undefined where the label is not enabled. A run is a list of labels. The rules
below carry what one step preserves to whole runs.
-/

namespace Transition

variable {σ ℓ : Type} (step : σ → ℓ → Option σ)

/-- The state after the labels, if each was enabled in its turn. -/
def run (s : σ) : List ℓ → Option σ
  | [] => some s
  | l :: ls => (step s l).bind fun s' => run s' ls

def Reachable (s s' : σ) : Prop := ∃ ls, run step s ls = some s'

@[simp] theorem run_nil (s : σ) : run step s [] = some s := rfl

theorem run_cons (s : σ) (l : ℓ) (ls : List ℓ) :
    run step s (l :: ls) = (step s l).bind fun s' => run step s' ls := rfl

theorem run_cons_eq_some {s s' : σ} {l : ℓ} {ls : List ℓ} (h : run step s (l :: ls) = some s') :
    ∃ t, step s l = some t ∧ run step t ls = some s' :=
  Option.bind_eq_some_iff.mp h

theorem run_append (s : σ) (ls ms : List ℓ) :
    run step s (ls ++ ms) = (run step s ls).bind fun s' => run step s' ms := by
  induction ls generalizing s with
  | nil => rfl
  | cons l ls ih =>
      rw [List.cons_append, run_cons, run_cons, Option.bind_assoc]
      exact congrArg _ (funext fun s' => ih s')

theorem run_trans {s t u : σ} {ls ms : List ℓ} (hls : run step s ls = some t)
    (hms : run step t ms = some u) : run step s (ls ++ ms) = some u := by
  rw [run_append, hls, Option.bind_some]
  exact hms

theorem run_snoc {s t u : σ} {l : ℓ} (h : ∃ ls, run step s ls = some t) (hstep : step t l = some u) :
    ∃ ls, run step s ls = some u := by
  obtain ⟨ls, hrun⟩ := h
  refine ⟨ls ++ [l], run_trans step hrun ?_⟩
  rw [run_cons, hstep]
  rfl

/-- What every step with an admitted label preserves, every run with admitted labels preserves. -/
theorem run_invariant_on {P : ℓ → Prop} {I : σ → Prop}
    (hstep : ∀ s l s', P l → I s → step s l = some s' → I s') {s s' : σ} {ls : List ℓ}
    (hP : ∀ l ∈ ls, P l) (hs : I s) (hrun : run step s ls = some s') : I s' := by
  induction ls generalizing s with
  | nil =>
      cases hrun
      exact hs
  | cons l ls ih =>
      obtain ⟨t, hl, hls⟩ := run_cons_eq_some step hrun
      have ht : I t := hstep s l t (hP l List.mem_cons_self) hs hl
      exact ih (fun m hm => hP m (List.mem_cons_of_mem l hm)) ht hls

theorem run_invariant {I : σ → Prop} (hstep : ∀ s l s', I s → step s l = some s' → I s') {s s' : σ}
    {ls : List ℓ} (hs : I s) (hrun : run step s ls = some s') : I s' :=
  run_invariant_on step (P := fun _ => True) (fun s l s' _ => hstep s l s') (fun _ _ => trivial) hs hrun

/-- What holds of no labels and the start, and goes on from each label to the next, holds of the labels of
a run and its end. -/
theorem run_invariant_history {I : List ℓ → σ → Prop}
    (hstep : ∀ ls s l s', I ls s → step s l = some s' → I (ls ++ [l]) s') {before ls : List ℓ} {s s' : σ}
    (hs : I before s) (hrun : run step s ls = some s') : I (before ++ ls) s' := by
  induction ls generalizing before s with
  | nil =>
      cases hrun
      rw [List.append_nil]
      exact hs
  | cons l ls ih =>
      obtain ⟨t, hl, hls⟩ := run_cons_eq_some step hrun
      have hrest := ih (hstep before s l t hs hl) hls
      rwa [List.append_assoc] at hrest

/-- A measure that never grows, and that the counted labels lower, bounds how often they occur. -/
theorem run_countP_le {I : σ → Prop} {measure : σ → Nat} {counted : ℓ → Bool}
    (hstep : ∀ s l s', I s → step s l = some s' →
      I s' ∧ measure s' + (if counted l then 1 else 0) ≤ measure s) {s s' : σ} {ls : List ℓ} (hs : I s)
    (hrun : run step s ls = some s') : measure s' + ls.countP counted ≤ measure s := by
  induction ls generalizing s with
  | nil =>
      cases hrun
      exact Nat.le_refl _
  | cons l ls ih =>
      obtain ⟨t, hl, hls⟩ := run_cons_eq_some step hrun
      obtain ⟨ht, hless⟩ := hstep s l t hs hl
      have hrest := ih ht hls
      rw [List.countP_cons]
      omega

/-- If from every state that is not yet done a label of the kind leads nearer, labels of the kind lead all
the way. -/
theorem run_of_progress {P : ℓ → Prop} {I done : σ → Prop} {measure : σ → Nat}
    (hprogress : ∀ s, I s → ¬ done s → ∃ l s', P l ∧ step s l = some s' ∧ I s' ∧ measure s' < measure s)
    {s : σ} (hs : I s) : ∃ ls s', (∀ l ∈ ls, P l) ∧ ls.length ≤ measure s ∧ run step s ls = some s' ∧
      I s' ∧ done s' := by
  induction hn : measure s using Nat.strongRecOn generalizing s with
  | ind n ih =>
      subst hn
      by_cases hdone : done s
      · exact ⟨[], s, fun l hl => absurd hl List.not_mem_nil, Nat.zero_le _, rfl, hs, hdone⟩
      · obtain ⟨l, t, hl, hstep, ht, hless⟩ := hprogress s hs hdone
        obtain ⟨ls, s', hls, hlength, hrun, hs', hdone'⟩ := ih (measure t) hless ht rfl
        refine ⟨l :: ls, s', List.forall_mem_cons.mpr ⟨hl, hls⟩, ?_, ?_, hs', hdone'⟩
        · rw [List.length_cons]
          omega
        · rw [run_cons, hstep, Option.bind_some, hrun]

/-- Two systems in step: related states take related labels to related states, so a run of the one is
answered by a run of the other, label for label. -/
theorem run_lockstep {σ' ℓ' : Type} {step' : σ' → ℓ' → Option σ'} {R : ℓ → ℓ' → Prop} {S : σ → σ' → Prop}
    (hstep : ∀ s s' l l' t, S s s' → R l l' → step s l = some t → ∃ t', step' s' l' = some t' ∧ S t t')
    {ls : List ℓ} {ls' : List ℓ'} (hls : List.Forall₂ R ls ls') {s t : σ} {s' : σ'} (hs : S s s')
    (hrun : run step s ls = some t) : ∃ t', run step' s' ls' = some t' ∧ S t t' := by
  induction hls generalizing s s' with
  | nil =>
      cases hrun
      exact ⟨s', rfl, hs⟩
  | @cons l l' ls ls' hl hls ih =>
      obtain ⟨u, hu, hrest⟩ := run_cons_eq_some step hrun
      obtain ⟨u', hu', hrel⟩ := hstep s s' l l' u hs hl hu
      obtain ⟨t', ht', hend⟩ := ih hrel hrest
      exact ⟨t', by rw [run_cons, hu', Option.bind_some, ht'], hend⟩

/-! ### Systems that keep their tasks in a list -/

/-- An index that is not the new one reads the old list. -/
theorem getElem?_snoc_of_ne {α : Type} {l : List α} {a : α} {i : Nat} (h : i ≠ l.length) :
    (l ++ [a])[i]? = l[i]? := by
  by_cases hlt : i < l.length
  · exact List.getElem?_append_left hlt
  · have hold : l.length ≤ i := by omega
    have hnew : (l ++ [a]).length ≤ i := by
      rw [List.length_append, List.length_singleton]
      omega
    rw [List.getElem?_eq_none hnew, List.getElem?_eq_none hold]

theorem forall₂_getElem? {α β : Type} {R : α → β → Prop} {l : List α} {l' : List β}
    (h : List.Forall₂ R l l') {i : Nat} {a : α} (ha : l[i]? = some a) : ∃ b, l'[i]? = some b ∧ R a b := by
  obtain ⟨hi, rfl⟩ := List.getElem?_eq_some_iff.mp ha
  have hi' : i < l'.length := h.length_eq ▸ hi
  exact ⟨l'[i], List.getElem?_eq_getElem hi', h.get hi hi'⟩

theorem forall₂_set {α β : Type} {R : α → β → Prop} {l : List α} {l' : List β} (h : List.Forall₂ R l l')
    {a : α} {b : β} (hab : R a b) (i : Nat) : List.Forall₂ R (l.set i a) (l'.set i b) := by
  induction h generalizing i with
  | nil => exact .nil
  | cons hhead htail ih =>
      cases i with
      | zero => exact .cons hab htail
      | succ i => exact .cons hhead (ih i)

/-! ### The tasks of one kind -/

/-- The place of a task among the tasks of its kind. -/
def rank {α : Type} (p : α → Bool) (l : List α) (i : Nat) : Nat := (l.take i).countP p

section

variable {α : Type} {p : α → Bool} {l : List α} {a b : α} {i : Nat}

theorem rank_length (p : α → Bool) (l : List α) : rank p l l.length = (l.filter p).length := by
  rw [rank, List.take_length, List.countP_eq_length_filter]

theorem rank_append (h : i ≤ l.length) (m : List α) : rank p (l ++ m) i = rank p l i := by
  rw [rank, rank, List.take_append_of_le_length h]

theorem getElem?_filter_rank (h : l[i]? = some a) (ha : p a = true) :
    (l.filter p)[rank p l i]? = some a := by
  induction l generalizing i with
  | nil => cases h
  | cons c l ih =>
      cases i with
      | zero =>
          obtain rfl := Option.some.inj h
          rw [List.filter_cons_of_pos ha]
          rfl
      | succ i =>
          have hrest := ih (i := i) h
          by_cases hc : p c = true
          · rw [List.filter_cons_of_pos hc, rank, List.take_succ_cons, List.countP_cons_of_pos hc]
            exact hrest
          · rw [List.filter_cons_of_neg hc, rank, List.take_succ_cons, List.countP_cons_of_neg hc]
            exact hrest

theorem filter_set_rank (h : l[i]? = some a) (ha : p a = true) (hb : p b = true) :
    (l.set i b).filter p = (l.filter p).set (rank p l i) b := by
  induction l generalizing i with
  | nil => cases h
  | cons c l ih =>
      cases i with
      | zero =>
          obtain rfl := Option.some.inj h
          rw [List.set_cons_zero, List.filter_cons_of_pos hb, List.filter_cons_of_pos ha]
          rfl
      | succ i =>
          have hrest := ih (i := i) h
          rw [List.set_cons_succ, rank, List.take_succ_cons]
          by_cases hc : p c = true
          · rw [List.filter_cons_of_pos hc, List.filter_cons_of_pos hc, List.countP_cons_of_pos hc, hrest]
            rfl
          · rw [List.filter_cons_of_neg hc, List.filter_cons_of_neg hc, List.countP_cons_of_neg hc, hrest]
            rfl

theorem filter_set_of_neg (h : l[i]? = some a) (ha : p a = false) (hb : p b = false) :
    (l.set i b).filter p = l.filter p := by
  induction l generalizing i with
  | nil => rfl
  | cons c l ih =>
      cases i with
      | zero =>
          obtain rfl := Option.some.inj h
          rw [List.set_cons_zero, List.filter_cons_of_neg (by rw [hb]; decide),
            List.filter_cons_of_neg (by rw [ha]; decide)]
      | succ i => rw [List.set_cons_succ, List.filter_cons, List.filter_cons, ih h]

/-- A task that stays of its kind leaves the others their places. -/
theorem rank_set (h : l[i]? = some a) (hsame : p b = p a) (j : Nat) : rank p (l.set i b) j = rank p l j := by
  induction l generalizing i j with
  | nil => rfl
  | cons c l ih =>
      cases j with
      | zero => rfl
      | succ j =>
          cases i with
          | zero =>
              obtain rfl := Option.some.inj h
              simp only [rank, List.set_cons_zero, List.take_succ_cons, List.countP_cons, hsame]
          | succ i =>
              have hrest := ih h j
              simp only [rank] at hrest
              simp only [rank, List.set_cons_succ, List.take_succ_cons, List.countP_cons, hrest]

end

end Transition
