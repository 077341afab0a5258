import Mathlib.Init

/-!
# Coroutines observed from outside

A coroutine that performs actions, raises exceptions and waits for its environment, as an observer
sees it at one moment: the actions performed so far, and whether it has returned, raised, or is
suspended on a question nobody has answered yet. The environment's answers are ordinary arguments of
the functions that build coroutines, so a loop over a stream of answers is a recursion over the list
of those received so far, and a missing answer suspends.
-/

namespace Coroutine

inductive Status (κ ε α : Type) where
  | returned (value : α)
  | raised (exc : ε)
  | suspended (question : κ)
  deriving DecidableEq

end Coroutine

/-- The actions `ω` a coroutine has performed, and where it stands: it answers in `α`, raises in `ε`
and waits on questions in `κ`. -/
@[ext] structure Coroutine (ω κ ε α : Type) where
  log : List ω
  status : Coroutine.Status κ ε α

namespace Coroutine

variable {ω κ ε α β γ : Type}

/-- The coroutine that performs the actions `l` and then goes on as `x`. -/
def prepend (l : List ω) (x : Coroutine ω κ ε α) : Coroutine ω κ ε α := ⟨l ++ x.log, x.status⟩

def andThen (x : Coroutine ω κ ε α) (f : α → Coroutine ω κ ε β) : Coroutine ω κ ε β :=
  match x.status with
  | .returned a => (f a).prepend x.log
  | .raised e => ⟨x.log, .raised e⟩
  | .suspended q => ⟨x.log, .suspended q⟩

instance : Monad (Coroutine ω κ ε) where
  pure a := ⟨[], .returned a⟩
  bind := andThen

def perform (w : ω) : Coroutine ω κ ε Unit := ⟨[w], .returned ()⟩

def raise (e : ε) : Coroutine ω κ ε α := ⟨[], .raised e⟩

def suspend (q : κ) : Coroutine ω κ ε α := ⟨[], .suspended q⟩

/-- Run `x`; should it raise, go on as the handler says. -/
def handle (x : Coroutine ω κ ε α) (h : ε → Coroutine ω κ ε α) : Coroutine ω κ ε α :=
  match x.status with
  | .raised e => (h e).prepend x.log
  | _ => x

/-- Go on with the answer to `q`, once there is one. -/
def await (q : κ) : Option (Except ε α) → Coroutine ω κ ε α
  | none => suspend q
  | some (.error e) => raise e
  | some (.ok a) => pure a

@[simp] theorem prepend_log (l : List ω) (x : Coroutine ω κ ε α) : (x.prepend l).log = l ++ x.log := rfl

@[simp] theorem prepend_status (l : List ω) (x : Coroutine ω κ ε α) : (x.prepend l).status = x.status := rfl

@[simp] theorem prepend_nil (x : Coroutine ω κ ε α) : x.prepend [] = x := rfl

@[simp] theorem prepend_prepend (l m : List ω) (x : Coroutine ω κ ε α) :
    (x.prepend m).prepend l = x.prepend (l ++ m) := by
  simp only [prepend, List.append_assoc]

@[simp] theorem pure_log (a : α) : (pure a : Coroutine ω κ ε α).log = [] := rfl
@[simp] theorem pure_status (a : α) : (pure a : Coroutine ω κ ε α).status = .returned a := rfl
@[simp] theorem raise_log (e : ε) : (raise e : Coroutine ω κ ε α).log = [] := rfl
@[simp] theorem raise_status (e : ε) : (raise e : Coroutine ω κ ε α).status = .raised e := rfl
@[simp] theorem suspend_log (q : κ) : (suspend q : Coroutine ω κ ε α).log = [] := rfl
@[simp] theorem suspend_status (q : κ) : (suspend q : Coroutine ω κ ε α).status = .suspended q := rfl

theorem bind_def (x : Coroutine ω κ ε α) (f : α → Coroutine ω κ ε β) : x >>= f = andThen x f := rfl

@[simp] theorem raise_bind (e : ε) (f : α → Coroutine ω κ ε β) : raise e >>= f = raise e := rfl

@[simp] theorem suspend_bind (q : κ) (f : α → Coroutine ω κ ε β) : suspend q >>= f = suspend q := rfl

@[simp] theorem perform_bind (w : ω) (f : Unit → Coroutine ω κ ε β) :
    perform w >>= f = (f ()).prepend [w] := rfl

@[simp] theorem prepend_bind (l : List ω) (x : Coroutine ω κ ε α) (f : α → Coroutine ω κ ε β) :
    x.prepend l >>= f = (x >>= f).prepend l := by
  rcases x with ⟨log, status⟩
  cases status <;> simp [bind_def, andThen, prepend]

instance : LawfulMonad (Coroutine ω κ ε) :=
  LawfulMonad.mk' _
    (by
      rintro α ⟨log, status⟩
      cases status <;> simp [Functor.map, andThen, prepend])
    (fun _ _ => rfl)
    (by
      rintro α β γ ⟨log, status⟩ f g
      cases status with
      | returned a =>
          change (f a).prepend log >>= g = (f a >>= g).prepend log
          rw [prepend_bind]
      | raised e => rfl
      | suspended q => rfl)

@[simp] theorem pure_handle (a : α) (h : ε → Coroutine ω κ ε α) : (pure a : Coroutine ω κ ε α).handle h = pure a := rfl

@[simp] theorem raise_handle (e : ε) (h : ε → Coroutine ω κ ε α) : (raise e).handle h = h e := rfl

@[simp] theorem suspend_handle (q : κ) (h : ε → Coroutine ω κ ε α) :
    (suspend q : Coroutine ω κ ε α).handle h = suspend q := rfl

@[simp] theorem prepend_handle (l : List ω) (x : Coroutine ω κ ε α) (h : ε → Coroutine ω κ ε α) :
    (x.prepend l).handle h = (x.handle h).prepend l := by
  rcases x with ⟨log, status⟩
  cases status <;> simp [handle, prepend]

@[simp] theorem await_none (q : κ) : (await q none : Coroutine ω κ ε α) = suspend q := rfl
@[simp] theorem await_error (q : κ) (e : ε) : (await q (some (.error e)) : Coroutine ω κ ε α) = raise e := rfl
@[simp] theorem await_ok (q : κ) (a : α) : (await q (some (.ok a)) : Coroutine ω κ ε α) = pure a := rfl

end Coroutine
