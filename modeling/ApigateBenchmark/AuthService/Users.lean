import ApigateBenchmark.AuthService.Bcrypt
import Mathlib.Data.Option.Basic

/-!
# The user store of auth-service

`users/store.go`. The map holds pointers, so a store is a heap of `User` values and a map from emails
to places in it; that every pointer of the map leads to a user of its email is part of the store.

A call of `Create` or `Authenticate` is a small state machine, one step for each stretch that runs
without another goroutine seeing its middle: the hashing and the comparison touch nothing shared, and
the map is read and written under the lock only. What a call draws at random is fixed with its
arguments, and every statement about calls is for all draws.
-/

namespace ApigateBenchmark.AuthService

abbrev GoString := Bytes

structure User where
  id : GoString
  email : GoString
  passwordHash : Bytes
  deriving DecidableEq

structure Store where
  heap : List User
  byEmail : GoString → Option Nat
  valid : ∀ email ptr, byEmail email = some ptr → ∃ user, heap[ptr]? = some user ∧ user.email = email

inductive StoreError where
  /-- The error of `GenerateFromPassword`, passed on. -/
  | hashFailed
  | emailTaken
  | invalidCredentials
  deriving DecidableEq

def newStore : Store := ⟨[], fun _ => none, fun _ _ h => nomatch h⟩

/-- The user the map leads to. -/
def Store.user (store : Store) (email : GoString) : Option User :=
  (store.byEmail email).bind fun ptr => store.heap[ptr]?

/-- A new object, and the entry of its email. -/
def Store.insert (store : Store) (user : User) : Store where
  heap := store.heap ++ [user]
  byEmail := Function.update store.byEmail user.email (some store.heap.length)
  valid email ptr h := by
    by_cases hemail : email = user.email
    · subst hemail
      rw [Function.update_self, Option.some.injEq] at h
      exact ⟨user, by rw [← h, List.getElem?_concat_length], rfl⟩
    · rw [Function.update_of_ne hemail] at h
      obtain ⟨old, hold, hname⟩ := store.valid email ptr h
      exact ⟨old, by rw [List.getElem?_append_left (List.getElem?_eq_some_iff.mp hold).1, hold], hname⟩

@[simp] theorem Store.insert_heap (store : Store) (user : User) :
    (store.insert user).heap = store.heap ++ [user] := rfl

@[simp] theorem Store.insert_byEmail (store : Store) (user : User) :
    (store.insert user).byEmail =
      Function.update store.byEmail user.email (some store.heap.length) := rfl

/-! ### The calls -/

/-- What `Create` takes from the random source: the salt of the hash and the new ID. -/
structure Draw where
  salt : Bytes
  id : GoString
  deriving DecidableEq

inductive Op where
  | create (email password : GoString) (draw : Draw)
  | authenticate (email password : GoString)
  deriving DecidableEq

inductive CallState where
  | called
  /-- `Create` has its hash, and asks for the lock. -/
  | hashed (hash : Bytes)
  /-- `Authenticate` has its pointer, and gave the lock back. -/
  | found (ptr : Nat)
  | returned (result : Except StoreError Nat)
  deriving DecidableEq

/-- The part of `Create` under the lock. -/
def Store.insertLocked (store : Store) (user : User) : Store × Except StoreError Nat :=
  match store.byEmail user.email with
  | some _ => (store, .error .emailTaken)
  | none => (store.insert user, .ok store.heap.length)

def Store.create (bcrypt : Bcrypt) (store : Store) (email password : GoString) (draw : Draw) :
    CallState → Option (Store × CallState)
  | .called =>
      match bcrypt.generateFromPassword draw.salt password with
      | none => some (store, .returned (.error .hashFailed))
      | some hash => some (store, .hashed hash)
  | .hashed hash =>
      let (store', result) := store.insertLocked ⟨draw.id, email, hash⟩
      some (store', .returned result)
  | _ => none

def Store.authenticate (bcrypt : Bcrypt) (store : Store) (email password : GoString) :
    CallState → Option (Store × CallState)
  | .called =>
      match store.byEmail email with
      | none => some (store, .returned (.error .invalidCredentials))
      | some ptr => some (store, .found ptr)
  | .found ptr =>
      -- the hash is read through the pointer, after the lock was released
      (store.heap[ptr]?).map fun user =>
        if bcrypt.compareHashAndPassword user.passwordHash password then (store, .returned (.ok ptr))
        else (store, .returned (.error .invalidCredentials))
  | _ => none

def Op.step (bcrypt : Bcrypt) (store : Store) (op : Op) (state : CallState) :
    Option (Store × CallState) :=
  match op with
  | .create email password draw => store.create bcrypt email password draw state
  | .authenticate email password => store.authenticate bcrypt email password state

/-- All that a step of a call can do. -/
inductive Op.Steps (bcrypt : Bcrypt) (store : Store) : Op → CallState → Store → CallState → Prop where
  | hashFails {email password : GoString} {draw : Draw}
      (hhash : bcrypt.generateFromPassword draw.salt password = none) :
      Steps bcrypt store (.create email password draw) .called store (.returned (.error .hashFailed))
  | hashes {email password : GoString} {draw : Draw} {hash : Bytes}
      (hhash : bcrypt.generateFromPassword draw.salt password = some hash) :
      Steps bcrypt store (.create email password draw) .called store (.hashed hash)
  | taken {email password : GoString} {draw : Draw} {hash : Bytes} {ptr : Nat}
      (hptr : store.byEmail email = some ptr) :
      Steps bcrypt store (.create email password draw) (.hashed hash) store
        (.returned (.error .emailTaken))
  | inserts {email password : GoString} {draw : Draw} {hash : Bytes}
      (hptr : store.byEmail email = none) :
      Steps bcrypt store (.create email password draw) (.hashed hash)
        (store.insert ⟨draw.id, email, hash⟩) (.returned (.ok store.heap.length))
  | unknown {email password : GoString} (hptr : store.byEmail email = none) :
      Steps bcrypt store (.authenticate email password) .called store
        (.returned (.error .invalidCredentials))
  | finds {email password : GoString} {ptr : Nat} (hptr : store.byEmail email = some ptr) :
      Steps bcrypt store (.authenticate email password) .called store (.found ptr)
  | accepts {email password : GoString} {ptr : Nat} {user : User} (huser : store.heap[ptr]? = some user)
      (haccept : bcrypt.compareHashAndPassword user.passwordHash password = true) :
      Steps bcrypt store (.authenticate email password) (.found ptr) store (.returned (.ok ptr))
  | rejects {email password : GoString} {ptr : Nat} {user : User} (huser : store.heap[ptr]? = some user)
      (hreject : bcrypt.compareHashAndPassword user.passwordHash password = false) :
      Steps bcrypt store (.authenticate email password) (.found ptr) store
        (.returned (.error .invalidCredentials))

theorem Op.step_spec {bcrypt : Bcrypt} {store store' : Store} {op : Op} {state state' : CallState}
    (h : op.step bcrypt store state = some (store', state')) :
    op.Steps bcrypt store state store' state' := by
  cases op with
  | create email password draw =>
      cases state with
      | called =>
          simp only [Op.step, Store.create] at h
          split at h <;> cases h
          · exact .hashFails ‹_›
          · exact .hashes ‹_›
      | hashed hash =>
          simp only [Op.step, Store.create, Store.insertLocked] at h
          split at h <;> cases h
          · exact .taken ‹_›
          · exact .inserts ‹_›
      | found ptr => cases h
      | returned result => cases h
  | authenticate email password =>
      cases state with
      | called =>
          simp only [Op.step, Store.authenticate] at h
          split at h <;> cases h
          · exact .unknown ‹_›
          · exact .finds ‹_›
      | hashed hash => cases h
      | found ptr =>
          obtain ⟨user, huser, heq⟩ := Option.map_eq_some_iff.mp h
          split at heq <;> cases heq
          · exact .accepts huser ‹_›
          · exact .rejects huser (Bool.eq_false_iff.mpr ‹_›)
      | returned result => cases h

/-! ### Users of a store -/

theorem Store.user_eq_some_iff (store : Store) (email : GoString) (user : User) :
    store.user email = some user ↔ ∃ ptr, store.byEmail email = some ptr ∧ store.heap[ptr]? = some user :=
  Option.bind_eq_some_iff

theorem Store.user_eq_none_iff (store : Store) (email : GoString) :
    store.user email = none ↔ store.byEmail email = none := by
  cases hptr : store.byEmail email with
  | none => simp [Store.user, hptr]
  | some ptr =>
      obtain ⟨user, huser, -⟩ := store.valid email ptr hptr
      simp [Store.user, hptr, huser]

theorem Store.user_of_byEmail {store : Store} {email : GoString} {ptr : Nat}
    (h : store.byEmail email = some ptr) :
    ∃ user, store.user email = some user ∧ store.heap[ptr]? = some user := by
  obtain ⟨user, huser, -⟩ := store.valid email ptr h
  exact ⟨user, (store.user_eq_some_iff email user).mpr ⟨ptr, h, huser⟩, huser⟩

theorem Store.user_email {store : Store} {email : GoString} {user : User}
    (h : store.user email = some user) : user.email = email := by
  obtain ⟨ptr, hptr, huser⟩ := (store.user_eq_some_iff email user).mp h
  obtain ⟨user', huser', hname⟩ := store.valid email ptr hptr
  rw [huser, Option.some.injEq] at huser'
  rw [huser']
  exact hname

theorem Store.user_insert (store : Store) (user : User) :
    (store.insert user).user = Function.update store.user user.email (some user) := by
  funext email
  by_cases hemail : email = user.email
  · subst hemail
    simp [Store.user]
  · rw [Function.update_of_ne hemail, Store.user, Store.user, Store.insert_byEmail,
      Function.update_of_ne hemail]
    cases hptr : store.byEmail email with
    | none => rfl
    | some ptr =>
        obtain ⟨old, hold, -⟩ := store.valid email ptr hptr
        exact List.getElem?_append_left (List.getElem?_eq_some_iff.mp hold).1

/-- Nothing that was in the old store has changed in the new one. -/
structure Store.Extends (old new : Store) : Prop where
  heap : ∀ (ptr : Nat) (user : User), old.heap[ptr]? = some user → new.heap[ptr]? = some user
  byEmail : ∀ email ptr, old.byEmail email = some ptr → new.byEmail email = some ptr

theorem Store.Extends.refl (store : Store) : store.Extends store :=
  ⟨fun _ _ h => h, fun _ _ h => h⟩

theorem Store.Extends.trans {first second third : Store} (h : first.Extends second)
    (h' : second.Extends third) : first.Extends third where
  heap ptr user huser := h'.heap ptr user (h.heap ptr user huser)
  byEmail email ptr hptr := h'.byEmail email ptr (h.byEmail email ptr hptr)

theorem Store.extends_insert {store : Store} {user : User} (h : store.byEmail user.email = none) :
    store.Extends (store.insert user) where
  heap ptr old hold := by
    rw [Store.insert_heap, List.getElem?_append_left (List.getElem?_eq_some_iff.mp hold).1]
    exact hold
  byEmail email ptr hptr := by
    have hne : email ≠ user.email := fun heq => by
      rw [heq, h] at hptr
      cases hptr
    rw [Store.insert_byEmail, Function.update_of_ne hne]
    exact hptr

theorem Store.Extends.user {old new : Store} (h : old.Extends new) {email : GoString} {user : User}
    (huser : old.user email = some user) : new.user email = some user := by
  obtain ⟨ptr, hptr, hheap⟩ := (old.user_eq_some_iff email user).mp huser
  exact (new.user_eq_some_iff email user).mpr ⟨ptr, h.byEmail email ptr hptr, h.heap ptr user hheap⟩

/-- There is no delete path, and an object of the heap is never written again. -/
theorem Op.Steps.extends {bcrypt : Bcrypt} {store store' : Store} {op : Op} {state state' : CallState}
    (h : op.Steps bcrypt store state store' state') : store.Extends store' := by
  cases h with
  | inserts hptr => exact Store.extends_insert hptr
  | _ => exact Store.Extends.refl store

/-! ### What a call knows -/

/-- What the state of a call says about the store and about the hashing it did. -/
def Op.Knows (bcrypt : Bcrypt) (store : Store) : Op → CallState → Prop
  | _, .called => True
  | .create _ password draw, .hashed hash =>
      bcrypt.generateFromPassword draw.salt password = some hash
  | .create email password draw, .returned (.ok ptr) =>
      ∃ hash, bcrypt.generateFromPassword draw.salt password = some hash ∧
        store.byEmail email = some ptr ∧ store.heap[ptr]? = some ⟨draw.id, email, hash⟩
  | .create _ password draw, .returned (.error .hashFailed) =>
      bcrypt.generateFromPassword draw.salt password = none
  | .create email password draw, .returned (.error .emailTaken) =>
      (∃ hash, bcrypt.generateFromPassword draw.salt password = some hash) ∧
        ∃ ptr, store.byEmail email = some ptr
  | .authenticate email _, .found ptr => store.byEmail email = some ptr
  | .authenticate email password, .returned (.ok ptr) =>
      ∃ user, store.byEmail email = some ptr ∧ store.heap[ptr]? = some user ∧
        bcrypt.compareHashAndPassword user.passwordHash password = true
  | .authenticate _ _, .returned (.error .invalidCredentials) => True
  | _, _ => False

theorem Op.Knows.extends {bcrypt : Bcrypt} {store store' : Store} {op : Op} {state : CallState}
    (h : op.Knows bcrypt store state) (hext : store.Extends store') : op.Knows bcrypt store' state := by
  cases op with
  | create email password draw =>
      match state with
      | .called | .hashed _ | .returned (.error .hashFailed) => exact h
      | .returned (.ok ptr) =>
          obtain ⟨hash, hhash, hptr, huser⟩ := h
          exact ⟨hash, hhash, hext.byEmail _ _ hptr, hext.heap _ _ huser⟩
      | .returned (.error .emailTaken) =>
          obtain ⟨hhash, ptr, hptr⟩ := h
          exact ⟨hhash, ptr, hext.byEmail _ _ hptr⟩
  | authenticate email password =>
      match state with
      | .called | .returned (.error .invalidCredentials) => exact h
      | .found ptr => exact hext.byEmail _ _ h
      | .returned (.ok ptr) =>
          obtain ⟨user, hptr, huser, haccept⟩ := h
          exact ⟨user, hext.byEmail _ _ hptr, hext.heap _ _ huser, haccept⟩

theorem Op.Steps.knows {bcrypt : Bcrypt} {store store' : Store} {op : Op} {state state' : CallState}
    (h : op.Steps bcrypt store state store' state') (hknows : op.Knows bcrypt store state) :
    op.Knows bcrypt store' state' := by
  cases h with
  | hashFails hhash => exact hhash
  | hashes hhash => exact hhash
  | taken hptr => exact ⟨⟨_, hknows⟩, _, hptr⟩
  | inserts hptr => exact ⟨_, hknows, by simp, by simp⟩
  | unknown hptr => exact trivial
  | finds hptr => exact hptr
  | accepts huser haccept => exact ⟨_, hknows, huser, haccept⟩
  | rejects huser hreject => exact trivial

/-- A call that returned a pointer can follow it. -/
theorem Op.Knows.heap {bcrypt : Bcrypt} {store : Store} {op : Op} {ptr : Nat}
    (h : op.Knows bcrypt store (.returned (.ok ptr))) : ∃ user, store.heap[ptr]? = some user := by
  cases op with
  | create email password draw =>
      obtain ⟨hash, -, -, huser⟩ := h
      exact ⟨_, huser⟩
  | authenticate email password =>
      obtain ⟨user, -, huser, -⟩ := h
      exact ⟨user, huser⟩

/-- The steps a call still has to take. -/
def CallState.remaining : CallState → Nat
  | .called => 2
  | .hashed _ => 1
  | .found _ => 1
  | .returned _ => 0

/-- A call that has not returned is never stuck. -/
theorem Op.Knows.step {bcrypt : Bcrypt} {store : Store} {op : Op} {state : CallState}
    (h : op.Knows bcrypt store state) (hrunning : 0 < state.remaining) :
    ∃ store' state', op.step bcrypt store state = some (store', state') ∧
      state'.remaining < state.remaining := by
  cases op with
  | create email password draw =>
      cases state with
      | called =>
          cases hhash : bcrypt.generateFromPassword draw.salt password with
          | none =>
              exact ⟨store, .returned (.error .hashFailed), by simp only [Op.step, Store.create, hhash],
                Nat.zero_lt_two⟩
          | some hash =>
              exact ⟨store, .hashed hash, by simp only [Op.step, Store.create, hhash], Nat.one_lt_two⟩
      | hashed hash => exact ⟨_, _, rfl, Nat.zero_lt_one⟩
      | found ptr => exact h.elim
      | returned result => exact absurd hrunning (Nat.lt_irrefl 0)
  | authenticate email password =>
      cases state with
      | called =>
          cases hptr : store.byEmail email with
          | none =>
              exact ⟨store, .returned (.error .invalidCredentials),
                by simp only [Op.step, Store.authenticate, hptr], Nat.zero_lt_two⟩
          | some ptr =>
              exact ⟨store, .found ptr, by simp only [Op.step, Store.authenticate, hptr], Nat.one_lt_two⟩
      | hashed hash => exact h.elim
      | found ptr =>
          obtain ⟨user, -, huser⟩ := Store.user_of_byEmail h
          cases haccept : bcrypt.compareHashAndPassword user.passwordHash password with
          | true =>
              exact ⟨store, .returned (.ok ptr), by simp [Op.step, Store.authenticate, huser, haccept],
                Nat.zero_lt_one⟩
          | false =>
              exact ⟨store, .returned (.error .invalidCredentials),
                by simp [Op.step, Store.authenticate, huser, haccept], Nat.zero_lt_one⟩
      | returned result => exact absurd hrunning (Nat.lt_irrefl 0)

end ApigateBenchmark.AuthService
