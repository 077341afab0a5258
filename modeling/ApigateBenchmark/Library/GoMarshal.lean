import ApigateBenchmark.Library.JsonValue
import ApigateBenchmark.Library.JsonWriting

/-!
# `json.Marshal`

What `encoding/json` writes for strings, integers, slices and flat structs. A string goes character by
character: what JSON does not let stand in a string is escaped, and so are `<`, `>`, `&` and the two
line separators of Unicode; a byte that is no UTF-8 is written as U+FFFD.
-/

namespace GoJson

open Json

/-- `appendString` at one place of the string; `none` is a byte that is no UTF-8. -/
def appendRune : Option Char → Bytes
  | none => unicodeEscape 0xfffd
  | some c =>
      if c = '\\' then [ascii '\\', ascii '\\']
      else if c = '"' then [ascii '\\', ascii '"']
      else if c = Char.ofNat 8 then [ascii '\\', ascii 'b']
      else if c = Char.ofNat 12 then [ascii '\\', ascii 'f']
      else if c = '\n' then [ascii '\\', ascii 'n']
      else if c = '\r' then [ascii '\\', ascii 'r']
      else if c = '\t' then [ascii '\\', ascii 't']
      else if c.toNat < 0x20 ∨ c = '<' ∨ c = '>' ∨ c = '&' then unicodeEscape c.toNat
      else if c = Char.ofNat 0x2028 ∨ c = Char.ofNat 0x2029 then unicodeEscape c.toNat
      else String.utf8EncodeChar c

/-- The characters of a Go string, as `DecodeRune` finds them. -/
def runes (s : Bytes) : List (Option Char) := charsFrom [] (s.map .raw)

def marshalString (s : Bytes) : Bytes := ascii '"' :: (runes s).flatMap appendRune ++ [ascii '"']

def marshalInt (n : Int) : Bytes := Bytes.utf8 (toString n)

def marshalArray (elements : List Bytes) : Bytes :=
  ascii '[' :: [ascii ','].intercalate elements ++ [ascii ']']

/-- A struct, given the names and the written values of its fields. -/
def marshalStruct (fields : List (String × Bytes)) : Bytes :=
  objectText (fields.map fun field => marshalString (Bytes.utf8 field.1) ++ ascii ':' :: field.2)

/-! ### What is written is read back -/

theorem runes_utf8 (text : String) : runes (Bytes.utf8 text) = text.toList.map some := by
  rw [runes, Bytes.utf8]
  induction text.toList with
  | nil => rfl
  | cons c chars ih => rw [List.flatMap_cons, List.map_append, charsFrom_utf8EncodeChar, ih, List.map_cons]

theorem spellsChar_escape {b : UInt8} {c : Char} (hunicode : b ≠ ascii 'u')
    (hchar : escapeChar b = some c) : SpellsChar [ascii '\\', b] c :=
  ⟨[.escape c], spells_escape hunicode hchar, reads_escape c⟩

theorem spellsChar_unicodeEscape {c : Char} (hcode : c.toNat < 0xd800) :
    SpellsChar (unicodeEscape c.toNat) c := by
  have hplain : isSurrogate c.toNat = false := by
    simp only [isSurrogate, Bool.and_eq_false_iff, decide_eq_false_iff_not]
    omega
  have hreads := reads_unicode hplain
  rw [Char.ofNat_toNat] at hreads
  exact ⟨[.unicode c.toNat], spells_unicodeEscape (by omega), hreads⟩

/-- A character that may stand as it is: its bytes neither end the string nor begin an escape. -/
theorem spellsChar_utf8 {c : Char} (hescape : c ≠ '\\') (hquote : c ≠ '"') (hcontrol : ¬ c.toNat < 0x20) :
    SpellsChar (String.utf8EncodeChar c) c := by
  refine ⟨_, ?_, charsFrom_utf8EncodeChar c⟩
  by_cases hascii : c.toNat < 0x80
  · refine spells_raws fun b hb => ?_
    rw [Bytes.utf8EncodeChar_ascii hascii, List.mem_singleton] at hb
    subst hb
    have hcode := toNat_ofNat_of_lt (show c.toNat < 256 by omega)
    have hne : ∀ other : Char, other.toNat < 0x80 → c ≠ other → UInt8.ofNat c.toNat ≠ ascii other := by
      intro other hother hdiffers hsame
      have hnat := congrArg UInt8.toNat hsame
      rw [hcode, ascii, toNat_ofNat_of_lt (by omega)] at hnat
      exact hdiffers (Char.toNat_inj.mp hnat)
    refine ⟨hne _ (by decide) hquote, hne _ (by decide) hescape, ?_⟩
    rw [UInt8.lt_iff_toNat_lt, hcode]
    exact hcontrol
  · exact spells_high fun b hb => Bytes.le_of_mem_utf8EncodeChar (show 0x7f < c.toNat by omega) hb

theorem spellsChar_appendRune (c : Char) : SpellsChar (appendRune (some c)) c := by
  rw [appendRune]
  split
  · subst c
    exact spellsChar_escape (by decide) rfl
  rename_i hescape
  split
  · subst c
    exact spellsChar_escape (by decide) rfl
  rename_i hquote
  split
  · subst c
    exact spellsChar_escape (by decide) rfl
  split
  · subst c
    exact spellsChar_escape (by decide) rfl
  split
  · subst c
    exact spellsChar_escape (by decide) rfl
  split
  · subst c
    exact spellsChar_escape (by decide) rfl
  split
  · subst c
    exact spellsChar_escape (by decide) rfl
  split
  · rename_i hhtml
    apply spellsChar_unicodeEscape
    obtain hcontrol | rfl | rfl | rfl := hhtml
    · omega
    · decide
    · decide
    · decide
  rename_i hplain
  split
  · rename_i hseparator
    apply spellsChar_unicodeEscape
    obtain rfl | rfl := hseparator <;> decide
  · exact spellsChar_utf8 hescape hquote fun hcontrol => hplain (.inl hcontrol)

example : marshalStruct [("q", marshalString (Bytes.utf8 "a<\"\n")), ("n", marshalInt (-3))] =
    Bytes.utf8 "\x7b\"q\":\"a\\u003c\\\"\\n\",\"n\":-3\x7d" := by decide +kernel

end GoJson
