import Mathlib.Data.List.Basic
import Mathlib.Logic.Function.Basic

/-!
# Byte strings and the two text encodings of HTTP

Header blocks and bodies are lists of bytes. Text enters and leaves them through two encodings:
latin-1, which maps each byte to the code point of the same number, and UTF-8. What the rest of the
development needs of them is that neither loses anything, and that both commute with lowering the
case of ASCII letters, so a name can be compared before or after it is encoded.
-/

abbrev Bytes := List UInt8

namespace Bytes

def utf8 (s : String) : Bytes := s.toList.flatMap String.utf8EncodeChar

def latin1 (b : Bytes) : String := String.ofList (b.map fun x => Char.ofNat x.toNat)

def lowerByte (x : UInt8) : UInt8 := if 0x41 ≤ x ∧ x ≤ 0x5A then x + 0x20 else x

def lower (b : Bytes) : Bytes := b.map lowerByte

def lowerText (s : String) : String := String.ofList (s.toList.map Char.toLower)

theorem utf8_toByteArray (s : String) : (utf8 s).toByteArray = s.toByteArray := by
  rw [← String.utf8Encode_toList]
  rfl

theorem utf8_injective : Function.Injective utf8 := by
  intro s t h
  have hbytes : s.toByteArray = t.toByteArray := by
    rw [← utf8_toByteArray s, h, utf8_toByteArray t]
  exact String.toByteArray_inj.mp hbytes

theorem utf8_append (s t : String) : utf8 (s ++ t) = utf8 s ++ utf8 t := by
  rw [utf8, String.toList_append, List.flatMap_append]
  rfl

theorem utf8_ofList (l : List Char) : utf8 (String.ofList l) = l.flatMap String.utf8EncodeChar := by
  rw [utf8, String.toList_ofList]

set_option maxRecDepth 4000 in
/-- The code point of a byte determines it, and lowering either gives the same character. -/
private theorem charOfByte_facts (n : Fin 256) :
    (Char.ofNat n.val).toNat = n.val ∧
      (Char.ofNat n.val).toLower = Char.ofNat (lowerByte (UInt8.ofNat n.val)).toNat := by
  revert n
  decide

private theorem toNat_charOfByte (x : UInt8) : (Char.ofNat x.toNat).toNat = x.toNat :=
  (charOfByte_facts ⟨x.toNat, x.toNat_lt⟩).1

private theorem toLower_charOfByte (x : UInt8) :
    (Char.ofNat x.toNat).toLower = Char.ofNat (lowerByte x).toNat := by
  have hx := (charOfByte_facts ⟨x.toNat, x.toNat_lt⟩).2
  rwa [UInt8.ofNat_toNat] at hx

theorem latin1_injective : Function.Injective latin1 := by
  intro a b h
  have hchars : a.map (fun x => Char.ofNat x.toNat) = b.map fun x => Char.ofNat x.toNat := by
    simpa only [latin1, String.toList_ofList] using congrArg String.toList h
  refine List.map_injective_iff.mpr (fun x y hxy => ?_) hchars
  have hval := congrArg Char.toNat hxy
  rw [toNat_charOfByte, toNat_charOfByte] at hval
  exact UInt8.toNat_inj.mp hval

theorem lowerText_latin1 (b : Bytes) : lowerText (latin1 b) = latin1 (lower b) := by
  simp only [lowerText, latin1, lower, String.toList_ofList, List.map_map]
  exact congrArg String.ofList (List.map_congr_left fun x _ => toLower_charOfByte x)

/-- A byte of a multi-byte UTF-8 sequence is no ASCII letter. -/
private theorem lowerByte_of_le {x : UInt8} (h : 0x80 ≤ x) : lowerByte x = x := by
  have hcap : ¬ (0x41 ≤ x ∧ x ≤ 0x5A) := fun hx => by
    have := hx.2
    rw [UInt8.le_iff_toNat_le] at h this
    simp at h this
    omega
  rw [lowerByte, if_neg hcap]

private theorem toLower_of_lt {c : Char} (h : 0x7f < c.toNat) : c.toLower = c := by
  have hcap : ¬ (c.val ≥ 'A'.val ∧ c.val ≤ 'Z'.val) := fun hc => by
    have hle : c.toNat ≤ 90 := UInt32.le_iff_toNat_le.mp hc.2
    omega
  exact dif_neg hcap

private theorem le_ofNat {n : Nat} (hlow : 0x80 ≤ n) (hhigh : n < 0x100) :
    (0x80 : UInt8) ≤ UInt8.ofNat n := by
  rw [UInt8.le_iff_toNat_le, UInt8.toNat_ofNat', Nat.mod_eq_of_lt hhigh]
  exact hlow

theorem utf8EncodeChar_ascii {c : Char} (h : c.toNat < 0x80) :
    String.utf8EncodeChar c = [UInt8.ofNat c.toNat] := by
  have hascii : c.val.toNat ≤ 0x7f := by
    change c.toNat ≤ 0x7f
    omega
  simp only [String.utf8EncodeChar, if_pos hascii]
  rfl

theorem le_of_mem_utf8EncodeChar {c : Char} (h : 0x7f < c.toNat) {x : UInt8}
    (hx : x ∈ String.utf8EncodeChar c) : 0x80 ≤ x := by
  have hascii : ¬ c.val.toNat ≤ 0x7f := by
    change ¬ c.toNat ≤ 0x7f
    omega
  simp only [String.utf8EncodeChar, if_neg hascii] at hx
  split at hx
  · simp only [List.mem_cons, List.not_mem_nil, or_false] at hx
    rcases hx with rfl | rfl <;> exact le_ofNat (by omega) (by omega)
  · split at hx
    · simp only [List.mem_cons, List.not_mem_nil, or_false] at hx
      rcases hx with rfl | rfl | rfl <;> exact le_ofNat (by omega) (by omega)
    · simp only [List.mem_cons, List.not_mem_nil, or_false] at hx
      rcases hx with rfl | rfl | rfl | rfl <;> exact le_ofNat (by omega) (by omega)

set_option maxRecDepth 2000 in
private theorem lower_utf8EncodeChar_ascii (n : Fin 128) :
    lower (String.utf8EncodeChar (Char.ofNat n.val)) =
      String.utf8EncodeChar (Char.ofNat n.val).toLower := by
  revert n
  decide

private theorem lower_utf8EncodeChar (c : Char) :
    lower (String.utf8EncodeChar c) = String.utf8EncodeChar c.toLower := by
  by_cases hascii : c.toNat < 128
  · have h := lower_utf8EncodeChar_ascii ⟨c.toNat, hascii⟩
    rwa [Char.ofNat_toNat] at h
  · rw [toLower_of_lt (by omega), lower]
    refine (List.map_congr_left fun x hx => ?_).trans (List.map_id _)
    exact lowerByte_of_le (le_of_mem_utf8EncodeChar (by omega) hx)

/-- A name can be lowered before or after it is encoded. -/
theorem lower_utf8 (s : String) : lower (utf8 s) = utf8 (lowerText s) := by
  rw [lowerText, utf8_ofList, utf8, lower, List.map_flatMap, List.flatMap_map]
  exact List.flatMap_congr fun c _ => lower_utf8EncodeChar c

/-! ### Latin-1 in, UTF-8 out -/

def IsAscii (b : Bytes) : Prop := ∀ x ∈ b, x < 0x80

instance (b : Bytes) : Decidable (IsAscii b) := List.decidableBAll (fun x => x < 0x80) b

set_option maxRecDepth 4000 in
private theorem utf8_charOfByte_facts (n : Fin 256) :
    (UInt8.ofNat n.val < 0x80 →
        String.utf8EncodeChar (Char.ofNat n.val) = [UInt8.ofNat n.val]) ∧
      (¬ UInt8.ofNat n.val < 0x80 → (String.utf8EncodeChar (Char.ofNat n.val)).length = 2) := by
  revert n
  decide

theorem utf8_charOfByte {x : UInt8} (h : x < 0x80) :
    String.utf8EncodeChar (Char.ofNat x.toNat) = [x] := by
  have hx := (utf8_charOfByte_facts ⟨x.toNat, x.toNat_lt⟩).1
  rw [UInt8.ofNat_toNat] at hx
  exact hx h

private theorem length_utf8_charOfByte {x : UInt8} (h : ¬ x < 0x80) :
    (String.utf8EncodeChar (Char.ofNat x.toNat)).length = 2 := by
  have hx := (utf8_charOfByte_facts ⟨x.toNat, x.toNat_lt⟩).2
  rw [UInt8.ofNat_toNat] at hx
  exact hx h

theorem utf8_latin1_cons (x : UInt8) (b : Bytes) :
    utf8 (latin1 (x :: b)) = String.utf8EncodeChar (Char.ofNat x.toNat) ++ utf8 (latin1 b) := by
  simp only [latin1, utf8_ofList, List.map_cons, List.flatMap_cons]

/-- Each byte above ASCII becomes two. -/
theorem length_utf8_latin1 (b : Bytes) :
    (utf8 (latin1 b)).length = b.length + b.countP fun x => !decide (x < 0x80) := by
  induction b with
  | nil => rfl
  | cons x b ih =>
      rw [utf8_latin1_cons, List.length_append, ih, List.length_cons]
      by_cases hx : x < 0x80
      · rw [utf8_charOfByte hx, List.countP_cons_of_neg (by simpa using hx), List.length_singleton]
        omega
      · rw [length_utf8_charOfByte hx, List.countP_cons_of_pos (by simpa using hx)]
        omega

/-- Bytes decoded as latin-1 and encoded as UTF-8 come out as they went in exactly if they are ASCII. -/
theorem utf8_latin1_eq_iff (b : Bytes) : utf8 (latin1 b) = b ↔ IsAscii b := by
  constructor
  · intro h x hx
    have hlength := length_utf8_latin1 b
    rw [h] at hlength
    have hnone : b.countP (fun x => !decide (x < 0x80)) = 0 := by omega
    simpa using List.countP_eq_zero.mp hnone x hx
  · intro h
    induction b with
    | nil => rfl
    | cons x b ih =>
        obtain ⟨hx, hrest⟩ := List.forall_mem_cons.mp h
        rw [utf8_latin1_cons, utf8_charOfByte hx, ih hrest]
        rfl

theorem mem_latin1_iff (x : UInt8) (b : Bytes) : Char.ofNat x.toNat ∈ (latin1 b).toList ↔ x ∈ b := by
  have hinjective : Function.Injective fun x : UInt8 => Char.ofNat x.toNat := by
    intro x y hxy
    have hval := congrArg Char.toNat hxy
    simp only [toNat_charOfByte] at hval
    exact UInt8.toNat_inj.mp hval
  rw [latin1, String.toList_ofList]
  exact List.mem_map_of_injective hinjective

/-! ### Visible text -/

/-- At least one character, and each a visible one of ASCII. -/
structure IsVisible (b : Bytes) : Prop where
  ne_nil : b ≠ []
  visible : ∀ x ∈ b, 0x20 < x ∧ x < 0x7f

instance (b : Bytes) : Decidable (IsVisible b) :=
  have : Decidable (∀ x ∈ b, 0x20 < x ∧ x < 0x7f) :=
    List.decidableBAll (fun x => 0x20 < x ∧ x < 0x7f) b
  decidable_of_iff (b ≠ [] ∧ ∀ x ∈ b, 0x20 < x ∧ x < 0x7f) ⟨fun h => ⟨h.1, h.2⟩, fun h => ⟨h.1, h.2⟩⟩

theorem IsVisible.isAscii {b : Bytes} (h : IsVisible b) : IsAscii b := by
  intro x hx
  have hlow := UInt8.lt_iff_toNat_lt.mp (h.visible x hx).2
  exact UInt8.lt_iff_toNat_lt.mpr (Nat.lt_trans hlow (by decide))

theorem IsVisible.utf8_latin1 {b : Bytes} (h : IsVisible b) : utf8 (latin1 b) = b :=
  (utf8_latin1_eq_iff b).mpr h.isAscii

end Bytes
