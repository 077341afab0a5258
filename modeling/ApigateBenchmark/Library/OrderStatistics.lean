import Mathlib.Algebra.Order.BigOperators.Group.List
import Mathlib.Algebra.Order.Floor.Semiring
import Mathlib.Algebra.Order.Ring.Defs
import Mathlib.Data.List.GetD
import Mathlib.Data.List.Pairwise
import Mathlib.Data.List.Sort
import Mathlib.Tactic.Linarith
import Mathlib.Tactic.Ring

/-!
# Order statistics

Sorting a list keeps what holds between two lists entry by entry, so the entry at a rank grows with the
values. Between two ranks the values are joined by straight lines. The broken line over an increasing
sequence is increasing, within a segment because its slope is not negative, and from one segment to a
later one because the end of the first is below the start of the second.
-/

namespace OrderStatistics

/-! ### Sorting -/

section

variable {α : Type*} [LinearOrder α]

theorem insertionSort_ne_nil {l : List α} (hne : l ≠ []) : l.insertionSort (· ≤ ·) ≠ [] := by
  intro hnil
  have hlength := List.length_insertionSort (· ≤ ·) l
  rw [hnil] at hlength
  exact hne (List.length_eq_zero_iff.mp hlength.symm)

theorem orderedInsert_eq_cons {x : α} {l : List α} (h : (x :: l).Pairwise (· ≤ ·)) :
    l.orderedInsert (· ≤ ·) x = x :: l := by
  cases l with
  | nil => rfl
  | cons y rest =>
      have hle : x ≤ y := (List.pairwise_cons.mp h).1 y List.mem_cons_self
      exact List.orderedInsert_cons_of_le (· ≤ ·) rest hle

/-- Insertion is monotone in the new element and in the sorted list. -/
theorem forall₂_orderedInsert {l m : List α} (hlm : List.Forall₂ (· ≤ ·) l m) (hl : l.Pairwise (· ≤ ·))
    (hm : m.Pairwise (· ≤ ·)) {a b : α} (hab : a ≤ b) :
    List.Forall₂ (· ≤ ·) (l.orderedInsert (· ≤ ·) a) (m.orderedInsert (· ≤ ·) b) := by
  induction hlm generalizing a b with
  | nil => exact List.Forall₂.cons hab List.Forall₂.nil
  | @cons x y l m hxy hlm ih =>
      have hl' := (List.pairwise_cons.mp hl).2
      have hm' := (List.pairwise_cons.mp hm).2
      simp only [List.orderedInsert_cons]
      by_cases hax : a ≤ x
      · by_cases hby : b ≤ y
        · rw [if_pos hax, if_pos hby]
          exact List.Forall₂.cons hab (List.Forall₂.cons hxy hlm)
        · -- `x` moves on against `b`
          have hxb : x ≤ b := hxy.trans (not_le.mp hby).le
          have hrest := ih hl' hm' hxb
          rw [orderedInsert_eq_cons hl] at hrest
          rw [if_pos hax, if_neg hby]
          exact List.Forall₂.cons (hax.trans hxy) hrest
      · have hxa : x ≤ a := (not_le.mp hax).le
        by_cases hby : b ≤ y
        · have hrest := ih hl' hm' (hab.trans hby)
          rw [orderedInsert_eq_cons hm] at hrest
          rw [if_neg hax, if_pos hby]
          exact List.Forall₂.cons (hxa.trans hab) hrest
        · rw [if_neg hax, if_neg hby]
          exact List.Forall₂.cons hxy (ih hl' hm' hab)

theorem forall₂_insertionSort {l m : List α} (h : List.Forall₂ (· ≤ ·) l m) :
    List.Forall₂ (· ≤ ·) (l.insertionSort (· ≤ ·)) (m.insertionSort (· ≤ ·)) := by
  induction h with
  | nil => exact List.Forall₂.nil
  | cons hab _ ih =>
      exact forall₂_orderedInsert ih (List.pairwise_insertionSort (· ≤ ·) _)
        (List.pairwise_insertionSort (· ≤ ·) _) hab

theorem insertionSort_eq_of_perm {l m : List α} (h : l.Perm m) :
    l.insertionSort (· ≤ ·) = m.insertionSort (· ≤ ·) := by
  have hperm := (List.perm_insertionSort (· ≤ ·) l).trans (h.trans (List.perm_insertionSort (· ≤ ·) m).symm)
  exact hperm.eq_of_pairwise' (List.pairwise_insertionSort (· ≤ ·) l) (List.pairwise_insertionSort (· ≤ ·) m)

end

/-! ### The ranks of a list -/

section

variable {α : Type*} [Zero α]

/-- The entry at a rank; past the end it is the last one. -/
def atRank (l : List α) (n : ℕ) : α := l.getD (min n (l.length - 1)) 0

theorem atRank_eq {l : List α} (hne : l ≠ []) (n : ℕ) :
    ∃ h : min n (l.length - 1) < l.length, atRank l n = l[min n (l.length - 1)] := by
  have hpos := List.length_pos_iff.mpr hne
  have hlt : min n (l.length - 1) < l.length := by omega
  exact ⟨hlt, List.getD_eq_getElem l 0 hlt⟩

variable [LinearOrder α]

theorem atRank_mono {l : List α} (hsorted : l.Pairwise (· ≤ ·)) : Monotone (atRank l) := by
  intro m n hmn
  by_cases hne : l = []
  · rw [hne]
    exact le_rfl
  · obtain ⟨hm, hm'⟩ := atRank_eq hne m
    obtain ⟨hn, hn'⟩ := atRank_eq hne n
    rw [hm', hn']
    exact hsorted.rel_get_of_le (a := ⟨_, hm⟩) (b := ⟨_, hn⟩) (min_le_min_right _ hmn)

theorem atRank_le_atRank {l m : List α} (h : List.Forall₂ (· ≤ ·) l m) (n : ℕ) : atRank l n ≤ atRank m n := by
  by_cases hne : l = []
  · subst hne
    cases h
    exact le_rfl
  · have hne' : m ≠ [] := by
      rintro rfl
      exact hne (List.forall₂_nil_right_iff.mp h)
    obtain ⟨hl, hl'⟩ := atRank_eq hne n
    obtain ⟨hm, hm'⟩ := atRank_eq hne' n
    have hlength := h.length_eq
    rw [hl', hm']
    simpa only [List.get_eq_getElem, hlength] using h.get hl (by omega)

end

/-! ### Broken lines -/

variable {α : Type*} [Field α] [LinearOrder α] [IsStrictOrderedRing α] [FloorSemiring α]

/-- The point at `x` of the line through the values of the sequence. -/
def interpolate (f : ℕ → α) (x : α) : α :=
  f ⌊x⌋₊ * (1 - (x - ⌊x⌋₊)) + f (⌊x⌋₊ + 1) * (x - ⌊x⌋₊)

theorem interpolate_natCast (f : ℕ → α) (n : ℕ) : interpolate f n = f n := by
  rw [interpolate, Nat.floor_natCast, sub_self, sub_zero, mul_one, mul_zero, add_zero]

omit [IsStrictOrderedRing α] in
theorem interpolate_eq (f : ℕ → α) (x : α) :
    interpolate f x = f ⌊x⌋₊ + (f (⌊x⌋₊ + 1) - f ⌊x⌋₊) * (x - ⌊x⌋₊) := by
  rw [interpolate]
  ring

section

variable {f g : ℕ → α} {x y : α}

theorem le_interpolate (hf : Monotone f) (hx : 0 ≤ x) : f ⌊x⌋₊ ≤ interpolate f x := by
  have hstep : 0 ≤ f (⌊x⌋₊ + 1) - f ⌊x⌋₊ := sub_nonneg.mpr (hf (Nat.le_succ _))
  have hpart : 0 ≤ x - ⌊x⌋₊ := sub_nonneg.mpr (Nat.floor_le hx)
  rw [interpolate_eq]
  exact le_add_of_nonneg_right (mul_nonneg hstep hpart)

theorem interpolate_le (hf : Monotone f) : interpolate f x ≤ f (⌊x⌋₊ + 1) := by
  have hstep : 0 ≤ f (⌊x⌋₊ + 1) - f ⌊x⌋₊ := sub_nonneg.mpr (hf (Nat.le_succ _))
  have hpart : x - ⌊x⌋₊ ≤ 1 := by
    rw [sub_le_iff_le_add']
    exact (Nat.lt_floor_add_one x).le
  have hbound := mul_le_mul_of_nonneg_left hpart hstep
  rw [interpolate_eq]
  linarith

/-- The line through an increasing sequence is increasing. -/
theorem interpolate_mono (hf : Monotone f) (hx : 0 ≤ x) (hxy : x ≤ y) :
    interpolate f x ≤ interpolate f y := by
  obtain hsame | hlater := (Nat.floor_mono hxy).eq_or_lt
  · have hstep : 0 ≤ f (⌊y⌋₊ + 1) - f ⌊y⌋₊ := sub_nonneg.mpr (hf (Nat.le_succ _))
    have hslope := mul_le_mul_of_nonneg_left (sub_le_sub_right hxy (⌊y⌋₊ : α)) hstep
    rw [interpolate_eq, interpolate_eq, hsame]
    linarith
  · calc interpolate f x ≤ f (⌊x⌋₊ + 1) := interpolate_le hf
      _ ≤ f ⌊y⌋₊ := hf hlater
      _ ≤ interpolate f y := le_interpolate hf (hx.trans hxy)

theorem interpolate_le_interpolate (h : ∀ n, f n ≤ g n) (hx : 0 ≤ x) :
    interpolate f x ≤ interpolate g x := by
  have hpart : 0 ≤ x - ⌊x⌋₊ := sub_nonneg.mpr (Nat.floor_le hx)
  have hrest : 0 ≤ 1 - (x - ⌊x⌋₊) := by
    have hlt := Nat.lt_floor_add_one x
    linarith
  exact add_le_add (mul_le_mul_of_nonneg_right (h _) hrest) (mul_le_mul_of_nonneg_right (h _) hpart)

end

end OrderStatistics
