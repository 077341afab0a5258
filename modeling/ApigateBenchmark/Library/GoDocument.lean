import ApigateBenchmark.Library.GoJson
import ApigateBenchmark.Library.GoMarshal
import ApigateBenchmark.Library.JsonDocument

/-!
# What `json.Marshal` writes denotes, and what `json.Unmarshal` makes of it

Structs and slices of any content. A Go string that is UTF-8 is denoted by its characters, any other one
by its characters with U+FFFD in place of the bytes that are none. A field is read by what its member
denotes, and the order of the members does not matter where each field has one.
-/

namespace GoJson

open Json

/-- The characters of a Go string, with U+FFFD for what is no UTF-8. -/
def goText (s : Bytes) : String := String.ofList ((runes s).map fun c => c.getD replacement)

theorem goText_utf8 (text : String) : goText (Bytes.utf8 text) = text := by
  rw [goText, runes_utf8, List.map_map]
  change String.ofList (text.toList.map id) = text
  rw [List.map_id, String.ofList_toList]

/-- The string is UTF-8. -/
def IsUtf8 (s : Bytes) : Prop := Bytes.utf8 (goText s) = s

/-- UTF-8 strings of the same characters are the same. -/
theorem IsUtf8.eq_of_goText {s t : Bytes} (hs : IsUtf8 s) (ht : IsUtf8 t) (h : goText s = goText t) :
    s = t := by
  rw [← hs, ← ht, h]

theorem spellsChar_rune (c : Option Char) : SpellsChar (appendRune c) (c.getD replacement) := by
  cases c with
  | none =>
      exact ⟨[.unicode 0xfffd], spells_unicodeEscape (by decide), reads_unicode (by decide)⟩
  | some c => exact spellsChar_appendRune c

theorem spells_runes (chars : List (Option Char)) :
    ∃ units, Spells (chars.flatMap appendRune) units ∧
      Reads units (chars.map fun c => c.getD replacement) := by
  induction chars with
  | nil => exact ⟨[], Spells.nil, Reads.nil⟩
  | cons c chars ih =>
      obtain ⟨first, hspells, hreads⟩ := spellsChar_rune c
      obtain ⟨units, hspells', hreads'⟩ := ih
      exact ⟨first ++ units, hspells.append hspells', hreads.append hreads'⟩

theorem marshalString_decoded (s : Bytes) :
    ∃ lit : StrLit, Writes (marshalString s) [.str lit] ∧ lit.decoded = some (goText s) := by
  obtain ⟨lit, hspells, hreads⟩ := spells_runes (runes s)
  exact ⟨lit, writes_string hspells, hreads.decoded⟩

theorem marshalString_denotes (s : Bytes) : WritesDenoted (marshalString s) (.str (goText s)) := by
  obtain ⟨lit, hwrites, hdecoded⟩ := marshalString_decoded s
  exact writesDenoted_str hwrites hdecoded

theorem marshalInt_denotes (n : Int) : WritesDenoted (marshalInt n) (.num (integerLit n)) :=
  writesDenoted_int n

theorem marshalArray_denotes {texts : List Bytes} {elements : List Denoted}
    (h : List.Forall₂ WritesDenoted texts elements) :
    WritesDenoted (marshalArray texts) (.arr elements) := writesDenoted_array h

theorem marshalNil_denotes : WritesDenoted (Bytes.utf8 "null") .null :=
  writesDenoted_word (by decide +kernel) (by decide +kernel) (by rw [wordToken, if_pos rfl]) rfl

theorem marshalStruct_denotes {texts : List (String × Bytes)} {fields : List (String × Denoted)}
    (h : List.Forall₂ (fun text field => text.1 = field.1 ∧ WritesDenoted text.2 field.2) texts fields) :
    WritesDenoted (marshalStruct texts) (.obj fields) := by
  have hfields : List.Forall₂ WritesField
      (texts.map fun text => (marshalString (Bytes.utf8 text.1), text.2)) fields := by
    rw [List.forall₂_map_left_iff]
    refine h.imp fun text field hfield => ⟨?_, hfield.2⟩
    have hkey := marshalString_decoded (Bytes.utf8 text.1)
    rw [goText_utf8, hfield.1] at hkey
    rw [← hfield.1] at hkey ⊢
    exact hkey
  have hobject := writesDenoted_object hfields
  rw [List.map_map] at hobject
  exact hobject

theorem integerLit_injective {m n : Int} (h : integerLit m = integerLit n) : m = n := by
  rw [← toInt_integerLit m, h, toInt_integerLit]

/-- Documents that denote different values are different. -/
theorem eq_of_writesDenoted {text : Bytes} {d e : Denoted} (hd : WritesDenoted text d)
    (he : WritesDenoted text e) : d = e :=
  Option.some.inj (hd.parse_eq.symm.trans he.parse_eq)

end GoJson

namespace Json

open GoJson

/-- Whether a member is taken for a field depends on what its key stands for. -/
theorem Denotes.isField_iff {member : Member} {entry : String × Denoted} (h : Denotes member entry)
    (name : String) : isField name member.1 = true ↔ (foldName entry.1 == foldName name) = true := by
  rw [isField, StrLit.coerced_of_decoded h.name]

end Json

namespace GoJson

open Json

/-! ### Reading a field -/

theorem readString_of_denotes {member : Member} {name text : String}
    (h : Denotes member (name, .str text)) (value : Bytes) :
    readString value member.2 = some (Bytes.utf8 text) := by
  obtain ⟨lit, hvalue, hdecoded⟩ := eq_str_of_denoted h.value
  rw [hvalue, readString, goString, StrLit.coerced_of_decoded hdecoded]

theorem readInteger_of_denotes {member : Member} {name : String} {n : Int}
    (h : Denotes member (name, .num (integerLit n))) (hrange : isInt64 n = true) (value : Int) :
    readInteger value member.2 = some n := by
  rw [eq_num_of_denoted h.value, readInteger, isInteger_integerLit, toInt_integerLit, hrange]
  rfl

/-- A field sees its own members only. -/
theorem readField_eq_filter {α : Type} (isKey : StrLit → Bool) (read : α → Value → Option α) (initial : α)
    (members : List Member) : readField isKey read initial members =
      (members.filter fun member => isKey member.1).foldlM (fun value member => read value member.2)
        initial := by
  rw [readField]
  induction members generalizing initial with
  | nil => rfl
  | cons member members ih =>
      rw [List.foldlM_cons, List.filter_cons]
      by_cases hkey : isKey member.1 = true
      · rw [if_pos hkey, if_pos hkey, List.foldlM_cons]
        exact congrArg _ (funext fun value => ih value)
      · rw [if_neg hkey, if_neg hkey]
        exact ih initial

/-- A field that one entry is for reads that entry, wherever among the members it stands. -/
theorem readField_of_perm {α : Type} {name : String} {read : α → Value → Option α} {initial result : α}
    {members : List Member} {entries fields : List (String × Denoted)} {entry : String × Denoted}
    (hmembers : List.Forall₂ Denotes members entries) (hperm : entries.Perm fields)
    (hentry : fields.filter (fun other => foldName other.1 == foldName name) = [entry])
    (hread : ∀ member, Denotes member entry → read initial member.2 = some result) :
    readField (isField name) read initial members = some result := by
  have hone : entries.filter (fun other => foldName other.1 == foldName name) = [entry] := by
    apply List.perm_singleton.mp
    rw [← hentry]
    exact hperm.filter _
  have hpicked : List.Forall₂ Denotes (members.filter fun member => isField name member.1)
      (entries.filter fun other => foldName other.1 == foldName name) :=
    List.rel_filter (fun _ _ hsame => hsame.isField_iff name) hmembers
  rw [hone] at hpicked
  obtain ⟨member, rest, hmember, hrest, hfilter⟩ := List.forall₂_cons_right_iff.mp hpicked
  rw [List.forall₂_nil_right_iff.mp hrest] at hfilter
  rw [readField_eq_filter, hfilter, List.foldlM_cons, hread member hmember]
  rfl

end GoJson
