import Mathlib.Data.List.Basic

/-!
# Go slices as values

A slice is `nil` or has elements, if only none; its capacity is left out. `nil` has no elements either
and behaves like an empty slice, but `json.Marshal` and a comparison with `nil` tell the two apart. An
index or a bound out of range panics, which is `none` here.
-/

inductive GoSlice (α : Type) where
  | nil
  | of (items : List α)
  deriving DecidableEq

namespace GoSlice

variable {α : Type}

instance : Coe (List α) (GoSlice α) := ⟨.of⟩

def items : GoSlice α → List α
  | .nil => []
  | .of items => items

/-- `len(s)` -/
def len (s : GoSlice α) : Nat := s.items.length

/-- `append(s, x)` -/
def append (s : GoSlice α) (x : α) : GoSlice α := .of (s.items ++ [x])

/-- `s[i]` -/
def index (s : GoSlice α) (i : Nat) : Option α := s.items[i]?

/-- `s[:n]`, as far as the elements go. -/
def upTo (s : GoSlice α) (n : Int) : Option (GoSlice α) :=
  if 0 ≤ n ∧ n ≤ s.len then
    some (match s with
      | .nil => .nil
      | .of items => .of (items.take n.toNat))
  else none

@[simp] theorem items_of (items : List α) : (of items).items = items := rfl

@[simp] theorem items_append (s : GoSlice α) (x : α) : (s.append x).items = s.items ++ [x] := rfl

@[simp] theorem len_append (s : GoSlice α) (x : α) : (s.append x).len = s.len + 1 := List.length_append

theorem upTo_of {items : List α} {n : Int} (hlow : 0 ≤ n) (hhigh : n ≤ items.length) :
    (of items).upTo n = some (.of (items.take n.toNat)) := if_pos ⟨hlow, hhigh⟩

end GoSlice
