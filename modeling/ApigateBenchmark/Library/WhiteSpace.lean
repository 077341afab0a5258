import ApigateBenchmark.Library.Bytes
import Mathlib.Data.List.DropRight

/-!
# Trimming

What is left of a list when the elements of a kind are taken off both ends. A list is trimmed by
splitting it: whatever split leaves a middle that no longer begins or ends with that kind is the one
that trimming finds. Trimming by a kind and then by a wider one is trimming by the wider one, and
trimming the bytes of a text by ASCII white space is trimming the text.
-/

namespace WhiteSpace

variable {α β : Type*}

def trim (p : α → Bool) (l : List α) : List α := (l.dropWhile p).rdropWhile p

/-- Neither the first element nor the last is of that kind. -/
def Bare (p : α → Bool) (l : List α) : Prop :=
  (∀ x ∈ l.head?, p x = false) ∧ ∀ x ∈ l.getLast?, p x = false

theorem trim_append (p : α → Bool) (middle : List α) {front back : List α}
    (hfront : ∀ x ∈ front, p x = true) (hback : ∀ x ∈ back, p x = true) :
    trim p (front ++ middle ++ back) = trim p middle := by
  have hcut : ∀ l : List α, (l ++ back).rdropWhile p = l.rdropWhile p := by
    intro l
    rw [List.rdropWhile, List.reverse_append, List.dropWhile_append_of_pos, ← List.rdropWhile]
    intro x hx
    exact hback x (List.mem_reverse.mp hx)
  rw [trim, List.append_assoc, List.dropWhile_append_of_pos hfront, List.dropWhile_append]
  split
  · rename_i hempty
    have hnone : middle.dropWhile p = [] := List.isEmpty_iff.mp hempty
    have hwhole : back.dropWhile p = [] := List.dropWhile_eq_nil_iff.mpr hback
    rw [trim, hnone, hwhole]
  · rw [hcut, trim]

theorem exists_split (p : α → Bool) (l : List α) :
    ∃ front back, l = front ++ trim p l ++ back ∧ (∀ x ∈ front, p x = true) ∧ ∀ x ∈ back, p x = true := by
  refine ⟨l.takeWhile p, (l.dropWhile p).rtakeWhile p, ?_, fun x hx => List.mem_takeWhile_imp hx, ?_⟩
  · rw [trim, List.append_assoc, List.rdropWhile_append_rtakeWhile, List.takeWhile_append_dropWhile]
  · exact fun x hx => List.mem_rtakeWhile_imp hx

theorem bare_trim (p : α → Bool) (l : List α) : Bare p (trim p l) := by
  constructor
  · intro x hx
    obtain ⟨rest, hrest⟩ := List.rdropWhile_prefix (p := p) (l := l.dropWhile p)
    have hhead : (l.dropWhile p).head? = some x := by
      rw [← hrest, List.head?_append, show ((l.dropWhile p).rdropWhile p).head? = some x from hx]
      rfl
    have hnot := List.head?_dropWhile_not p l
    rw [hhead] at hnot
    simpa using hnot
  · intro x hx
    have hne : trim p l ≠ [] := by
      intro hnil
      rw [hnil] at hx
      exact absurd hx (by simp)
    have hlast := List.rdropWhile_last_not (p := p) (l := l.dropWhile p) hne
    rw [List.getLast?_eq_getLast_of_ne_nil hne] at hx
    obtain rfl := Option.some.inj hx
    simpa [trim] using hlast

theorem trim_eq_self_of_bare {p : α → Bool} {l : List α} (h : Bare p l) : trim p l = l := by
  have hfront : l.dropWhile p = l := by
    cases l with
    | nil => rfl
    | cons x l => exact List.dropWhile_cons_of_neg (by simpa using h.1 x rfl)
  rw [trim, hfront, List.rdropWhile_eq_self_iff]
  intro hne hlast
  have hbare := h.2 _ (List.getLast?_eq_getLast_of_ne_nil hne)
  rw [hlast] at hbare
  exact absurd hbare (by simp)

theorem trim_eq_self_iff (p : α → Bool) (l : List α) : trim p l = l ↔ Bare p l := by
  constructor
  · intro h
    rw [← h]
    exact bare_trim p l
  · exact trim_eq_self_of_bare

/-- The middle that neither begins nor ends with the kind is what trimming leaves. -/
theorem trim_eq_of_split {p : α → Bool} {middle front back : List α} (hfront : ∀ x ∈ front, p x = true)
    (hback : ∀ x ∈ back, p x = true) (hbare : Bare p middle) :
    trim p (front ++ middle ++ back) = middle := by
  rw [trim_append p middle hfront hback, trim_eq_self_of_bare hbare]

theorem Bare.of_le {p wide : α → Bool} (hle : ∀ x, p x = true → wide x = true) {l : List α}
    (h : Bare wide l) : Bare p l := by
  have hnot : ∀ x, wide x = false → p x = false := by
    intro x hx
    by_contra hp
    rw [hle x (by simpa using hp)] at hx
    exact absurd hx (by simp)
  exact ⟨fun x hx => hnot x (h.1 x hx), fun x hx => hnot x (h.2 x hx)⟩

theorem trim_trim_of_le {p wide : α → Bool} (hle : ∀ x, p x = true → wide x = true) (l : List α) :
    trim wide (trim p l) = trim wide l := by
  obtain ⟨front, back, hsplit, hfront, hback⟩ := exists_split p l
  conv_rhs => rw [hsplit]
  exact (trim_append wide (trim p l) (fun x hx => hle x (hfront x hx)) fun x hx => hle x (hback x hx)).symm

/-- Two kinds of white space, one within the other, leave the same of a list exactly if what the
narrower leaves is bare of the wider. -/
theorem trim_eq_trim_iff {p wide : α → Bool} (hle : ∀ x, p x = true → wide x = true) (l : List α) :
    trim wide l = trim p l ↔ Bare wide (trim p l) := by
  rw [← trim_trim_of_le hle l, trim_eq_self_iff]

/-- Trimming commutes with an encoding that keeps the kind apart. -/
theorem trim_flatMap {p : α → Bool} {q : β → Bool} {encode : α → List β} (hne : ∀ x, encode x ≠ [])
    (hkind : ∀ x, ∀ y ∈ encode x, q y = p x) (l : List α) :
    trim q (l.flatMap encode) = (trim p l).flatMap encode := by
  obtain ⟨front, back, hsplit, hfront, hback⟩ := exists_split p l
  have hall : ∀ part : List α, (∀ x ∈ part, p x = true) → ∀ y ∈ part.flatMap encode, q y = true := by
    intro part hpart y hy
    obtain ⟨x, hx, hxy⟩ := List.mem_flatMap.mp hy
    rw [hkind x y hxy]
    exact hpart x hx
  have hbare : Bare q ((trim p l).flatMap encode) := by
    obtain ⟨hhead, hlast⟩ := bare_trim p l
    constructor
    · intro y hy
      cases hmiddle : trim p l with
      | nil =>
          rw [hmiddle] at hy
          exact absurd hy (by simp)
      | cons x rest =>
          rw [hmiddle] at hy hhead
          rw [List.flatMap_cons, List.head?_append_of_ne_nil _ (hne x)] at hy
          rw [hkind x y (List.mem_of_mem_head? hy)]
          exact hhead x rfl
    · intro y hy
      obtain hnil | ⟨rest, x, hmiddle⟩ := List.eq_nil_or_concat (trim p l)
      · rw [hnil] at hy
        exact absurd hy (by simp)
      · rw [List.concat_eq_append] at hmiddle
        rw [hmiddle] at hy hlast
        rw [List.flatMap_append, List.flatMap_singleton, List.getLast?_append_of_ne_nil _ (hne x)] at hy
        rw [hkind x y (List.mem_of_getLast? hy)]
        exact hlast x List.getLast?_concat
  conv_lhs => rw [hsplit, List.flatMap_append, List.flatMap_append]
  exact trim_eq_of_split (hall front hfront) (hall back hback) hbare

/-! ### ASCII -/

/-- `isspace` of the C locale. -/
def isAsciiSpace (b : UInt8) : Bool := b == 0x20 || (0x09 ≤ b && b ≤ 0x0d)

def isAsciiSpaceChar (c : Char) : Bool := c.toNat == 0x20 || (0x09 ≤ c.toNat && c.toNat ≤ 0x0d)

theorem isAsciiSpace_of_mem_utf8EncodeChar (c : Char) {b : UInt8} (hb : b ∈ String.utf8EncodeChar c) :
    isAsciiSpace b = isAsciiSpaceChar c := by
  by_cases hascii : c.toNat < 0x80
  · rw [Bytes.utf8EncodeChar_ascii hascii, List.mem_singleton] at hb
    have hnat : b.toNat = c.toNat := by
      rw [hb, UInt8.toNat_ofNat', Nat.mod_eq_of_lt (by omega)]
    rw [Bool.eq_iff_iff]
    simp only [isAsciiSpace, isAsciiSpaceChar, Bool.or_eq_true, Bool.and_eq_true, beq_iff_eq,
      decide_eq_true_eq, UInt8.le_iff_toNat_le, ← UInt8.toNat_inj, hnat]
    rfl
  · have hbyte := UInt8.le_iff_toNat_le.mp (Bytes.le_of_mem_utf8EncodeChar (by omega) hb)
    have hnone : ¬ isAsciiSpace b = true := by
      simp only [isAsciiSpace, Bool.or_eq_true, Bool.and_eq_true, beq_iff_eq, decide_eq_true_eq,
        UInt8.le_iff_toNat_le, ← UInt8.toNat_inj]
      simp at hbyte ⊢
      omega
    have hchar : ¬ isAsciiSpaceChar c = true := by
      simp only [isAsciiSpaceChar, Bool.or_eq_true, Bool.and_eq_true, beq_iff_eq, decide_eq_true_eq]
      omega
    rw [Bool.eq_false_iff.mpr hnone, Bool.eq_false_iff.mpr hchar]

/-- The bytes of a text are trimmed to the bytes of the trimmed text. -/
theorem trim_utf8 (s : String) :
    trim isAsciiSpace (Bytes.utf8 s) = Bytes.utf8 (String.ofList (trim isAsciiSpaceChar s.toList)) := by
  rw [Bytes.utf8_ofList, Bytes.utf8]
  exact trim_flatMap (fun c => String.utf8EncodeChar_ne_nil)
    (fun c b hb => isAsciiSpace_of_mem_utf8EncodeChar c hb) s.toList

end WhiteSpace
