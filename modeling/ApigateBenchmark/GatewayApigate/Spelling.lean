import ApigateBenchmark.GatewayApigate.Routes
import ApigateBenchmark.Library.JsonValue

/-!
# How a body is spelled and what the Rust gateway makes of it

`searchValue` and `lookupValue` read the two schemas off the value a body denotes. The decoders of
`Routes.lean` see the text: where the value fits the schema they give the same input, unless the text
has an escape in the string they would borrow. So two spellings of one value are treated alike exactly
if neither has one.
-/

namespace ApigateBenchmark.GatewayApigate

open Json

/-! ### The schemas on values -/

def textOrNull : Denoted → Option (Option Bytes)
  | .null => some none
  | .str text => some (some (Bytes.utf8 text))
  | _ => none

def i64OrNull : Denoted → Option (Option Int)
  | .null => some none
  | .num lit => readI64 (.num lit)
  | _ => none

def textValue : Denoted → Option (Option String)
  | .str text => some (some text)
  | _ => none

/-- The field under a name, which may be there once. -/
def onceValue {α : Type} (name : String) (read : Denoted → Option (Option α))
    (entries : List (String × Denoted)) : Option (Option α) :=
  match entries.filter fun entry => entry.1 == name with
  | [] => some none
  | [entry] => read entry.2
  | _ => none

/-- The search input a value stands for. -/
def searchValue : Denoted → Option SearchInput
  | .obj entries => do
      let category ← onceValue "category" textOrNull entries
      let maxPrice ← onceValue "max_price" i64OrNull entries
      some ⟨category, maxPrice⟩
  | .arr [first, second] => do
      let category ← textOrNull first
      let maxPrice ← i64OrNull second
      some ⟨category, maxPrice⟩
  | _ => none

/-- The lookup input a value stands for. -/
def lookupValue : Denoted → Option LookupInput
  | .obj entries => do
      let q ← onceValue "q" textValue entries
      q.map LookupInput.mk
  | .arr [first] => do
      let q ← textValue first
      q.map LookupInput.mk
  | _ => none

/-! ### Spelling -/

def EscapedStr (value : Value) : Prop := ∃ lit, value = .str lit ∧ lit.isPlain = false

/-- The values in the place of the first field of a struct, whose name is given. -/
def firstField (name : String) : Value → List Value
  | .obj members => (members.filter fun member => isKey name member.1).map Prod.snd
  | .arr (first :: _) => [first]
  | _ => []

/-- The text of the tree spells that field with an escape. -/
def Escaped (name : String) (tree : Value) : Prop := ∃ value ∈ firstField name tree, EscapedStr value

theorem not_escaped_obj_iff (name : String) (members : List Member) :
    ¬ Escaped name (.obj members) ↔
      ∀ member ∈ members.filter (fun member => isKey name member.1), ¬ EscapedStr member.2 := by
  simp only [Escaped, firstField, not_exists, not_and, List.forall_mem_map]

theorem not_escaped_arr_iff (name : String) (first : Value) (rest : List Value) :
    ¬ Escaped name (.arr (first :: rest)) ↔ ¬ EscapedStr first := by
  simp only [Escaped, firstField, List.mem_singleton, exists_eq_left]

/-! ### The readers -/

theorem escapedStr_str_iff (lit : StrLit) : EscapedStr (.str lit) ↔ lit.isPlain = false := by
  simp [EscapedStr]

theorem readBorrowedStr_iff {value : Value} {denoted : Denoted} (h : value.denoted = some denoted)
    (result : Option Bytes) :
    readBorrowedStr value = some result ↔ textOrNull denoted = some result ∧ ¬ EscapedStr value := by
  cases value with
  | str lit =>
      obtain ⟨text, htext, rfl⟩ := Option.map_eq_some_iff.mp h
      rw [readBorrowedStr, escapedStr_str_iff, htext]
      cases lit.isPlain <;> simp [textOrNull]
  | null =>
      obtain rfl := Option.some.inj h
      simp [readBorrowedStr, textOrNull, EscapedStr]
  | bool value =>
      obtain rfl := Option.some.inj h
      simp [readBorrowedStr, textOrNull]
  | num lit =>
      obtain rfl := Option.some.inj h
      simp [readBorrowedStr, textOrNull]
  | arr elements =>
      obtain ⟨denoted, -, rfl⟩ := Option.map_eq_some_iff.mp h
      simp [readBorrowedStr, textOrNull]
  | obj members =>
      obtain ⟨denoted, -, rfl⟩ := Option.map_eq_some_iff.mp h
      simp [readBorrowedStr, textOrNull]

theorem readStrRef_iff {value : Value} {denoted : Denoted} (h : value.denoted = some denoted)
    (result : Option String) :
    readStrRef value = some result ↔ textValue denoted = some result ∧ ¬ EscapedStr value := by
  cases value with
  | str lit =>
      obtain ⟨text, htext, rfl⟩ := Option.map_eq_some_iff.mp h
      rw [readStrRef, escapedStr_str_iff, htext]
      cases lit.isPlain <;> simp [textValue]
  | null =>
      obtain rfl := Option.some.inj h
      simp [readStrRef, textValue]
  | bool value =>
      obtain rfl := Option.some.inj h
      simp [readStrRef, textValue]
  | num lit =>
      obtain rfl := Option.some.inj h
      simp [readStrRef, textValue]
  | arr elements =>
      obtain ⟨denoted, -, rfl⟩ := Option.map_eq_some_iff.mp h
      simp [readStrRef, textValue]
  | obj members =>
      obtain ⟨denoted, -, rfl⟩ := Option.map_eq_some_iff.mp h
      simp [readStrRef, textValue]

theorem readI64_eq {value : Value} {denoted : Denoted} (h : value.denoted = some denoted) :
    readI64 value = i64OrNull denoted := by
  cases value with
  | null =>
      obtain rfl := Option.some.inj h
      rfl
  | num lit =>
      obtain rfl := Option.some.inj h
      rfl
  | bool value =>
      obtain rfl := Option.some.inj h
      rfl
  | str lit =>
      obtain ⟨text, -, rfl⟩ := Option.map_eq_some_iff.mp h
      rfl
  | arr elements =>
      obtain ⟨denoted, -, rfl⟩ := Option.map_eq_some_iff.mp h
      rfl
  | obj members =>
      obtain ⟨denoted, -, rfl⟩ := Option.map_eq_some_iff.mp h
      rfl

/-- A number has one spelling. -/
theorem readI64_iff {value : Value} {denoted : Denoted} (h : value.denoted = some denoted)
    (result : Option Int) :
    readI64 value = some result ↔ i64OrNull denoted = some result ∧ ¬ (fun _ : Value => False) value := by
  rw [readI64_eq h, not_false_iff, and_true]

/-- A field is read off the members as it is off the entries, as long as no spelling is in the way. -/
theorem readOnce_iff {α : Type} (name : String) {read : Value → Option (Option α)}
    {readDenoted : Denoted → Option (Option α)} {Bad : Value → Prop}
    (hread : ∀ value denoted, value.denoted = some denoted → ∀ result,
      read value = some result ↔ readDenoted denoted = some result ∧ ¬ Bad value)
    {members : List Member} {entries : List (String × Denoted)}
    (h : membersDenoted members = some entries) (result : Option α) :
    readOnce name read members = some result ↔
      onceValue name readDenoted entries = some result ∧
        ∀ member ∈ members.filter (fun member => isKey name member.1), ¬ Bad member.2 := by
  have hfilter := forall₂_filter h name
  rw [readOnce, onceValue]
  generalize members.filter (fun member => isKey name member.1) = picked at hfilter ⊢
  generalize entries.filter (fun entry => entry.1 == name) = named at hfilter ⊢
  cases hfilter with
  | nil => simp
  | cons hfirst hrest =>
      cases hrest with
      | nil =>
          rw [List.forall_mem_singleton]
          exact hread _ _ hfirst.value result
      | cons hsecond hmore => simp

/-! ### The decoders -/

section

variable {body : Bytes} {tree : Value} {denoted : Denoted}

/-- How the field is spelled is apart from what is made of its value. -/
theorem exists_plain_iff {α : Type} {read rest : α → Prop} {plain : Prop} :
    (∃ value, (read value ∧ plain) ∧ rest value) ↔ (∃ value, read value ∧ rest value) ∧ plain := by
  constructor
  · rintro ⟨value, ⟨hread, hplain⟩, hrest⟩
    exact ⟨⟨value, hread, hrest⟩, hplain⟩
  · rintro ⟨⟨value, hread, hrest⟩, hplain⟩
    exact ⟨value, ⟨hread, hplain⟩, hrest⟩

/-- The keys of an object that denotes a value are strings. -/
theorem readsKeys_of_denotes {members : List Member} {entries : List (String × Denoted)}
    (h : List.Forall₂ Denotes members entries) : readsKeys members = true := by
  induction h with
  | nil => rfl
  | cons hfirst hrest ih =>
      rw [readsKeys, List.all_cons, Bool.and_eq_true]
      exact ⟨hfirst.wellFormed, ih⟩

theorem decodeSearchInput_iff (hparse : parse body = some tree) (hdenoted : tree.denoted = some denoted)
    (input : SearchInput) :
    decodeSearchInput body = some input ↔ searchValue denoted = some input ∧ ¬ Escaped "category" tree := by
  rw [decodeSearchInput, hparse]
  cases tree with
  | obj members =>
      obtain ⟨entries, hentries, rfl⟩ := Option.map_eq_some_iff.mp hdenoted
      have hcategory := readOnce_iff "category" (fun _ _ h => readBorrowedStr_iff h) hentries
      have hprice := readOnce_iff "max_price" (fun _ _ h => readI64_iff h) hentries
      simp only [not_false_eq_true, implies_true, and_true] at hprice
      simp only [readsKeys_of_denotes (forall₂_of_membersDenoted hentries), if_true, searchValue,
        Option.bind_eq_bind, Option.bind_eq_some_iff, hcategory, hprice, not_escaped_obj_iff]
      exact exists_plain_iff
  | arr elements =>
      obtain ⟨values, hvalues, rfl⟩ := Option.map_eq_some_iff.mp hdenoted
      cases forall₂_of_elementsDenoted hvalues with
      | nil => simp [searchValue]
      | cons hfirst hrest => cases hrest with
        | nil => simp [searchValue]
        | cons hsecond hmore => cases hmore with
          | cons _ _ => simp [searchValue]
          | nil =>
              simp only [searchValue, Option.bind_eq_bind, Option.bind_eq_some_iff,
                readBorrowedStr_iff hfirst, readI64_eq hsecond, not_escaped_arr_iff]
              exact exists_plain_iff
  | str lit =>
      obtain ⟨text, -, rfl⟩ := Option.map_eq_some_iff.mp hdenoted
      simp [searchValue]
  | _ =>
      obtain rfl := Option.some.inj hdenoted
      simp [searchValue]

theorem decodeLookupInput_iff (hparse : parse body = some tree) (hdenoted : tree.denoted = some denoted)
    (input : LookupInput) :
    decodeLookupInput body = some input ↔ lookupValue denoted = some input ∧ ¬ Escaped "q" tree := by
  rw [decodeLookupInput, hparse]
  cases tree with
  | obj members =>
      obtain ⟨entries, hentries, rfl⟩ := Option.map_eq_some_iff.mp hdenoted
      have hq := readOnce_iff "q" (fun _ _ h => readStrRef_iff h) hentries
      simp only [readsKeys_of_denotes (forall₂_of_membersDenoted hentries), if_true, lookupValue,
        Option.bind_eq_bind, Option.bind_eq_some_iff, hq, not_escaped_obj_iff]
      exact exists_plain_iff
  | arr elements =>
      obtain ⟨values, hvalues, rfl⟩ := Option.map_eq_some_iff.mp hdenoted
      cases forall₂_of_elementsDenoted hvalues with
      | nil => simp [lookupValue]
      | cons hfirst hrest => cases hrest with
        | cons _ _ => simp [lookupValue]
        | nil =>
            simp only [lookupValue, Option.bind_eq_bind, Option.bind_eq_some_iff, readStrRef_iff hfirst,
              not_escaped_arr_iff]
            exact exists_plain_iff
  | str lit =>
      obtain ⟨text, -, rfl⟩ := Option.map_eq_some_iff.mp hdenoted
      simp [lookupValue]
  | _ =>
      obtain rfl := Option.some.inj hdenoted
      simp [lookupValue]

end

/-! ### Two spellings -/

/-- Both routes treat the two texts of a value alike, and take every text of a value that fits. -/
structure ByValue (denoted : Denoted) (first second : Bytes) : Prop where
  search : (decodeSearchInput first).isSome = (decodeSearchInput second).isSome
  lookup : (decodeLookupInput first).isSome = (decodeLookupInput second).isSome
  query : ∀ input ∈ decodeLookupInput first, ∀ other ∈ decodeLookupInput second,
    remapLookup input = remapLookup other
  searchFits : (searchValue denoted).isSome = true →
    (decodeSearchInput first).isSome = true ∧ (decodeSearchInput second).isSome = true
  lookupFits : (lookupValue denoted).isSome = true →
    (decodeLookupInput first).isSome = true ∧ (decodeLookupInput second).isSome = true

/-- Where the value fits a schema, the text spells the string of it without escapes. -/
structure SpelledPlain (denoted : Denoted) (tree : Value) : Prop where
  category : (searchValue denoted).isSome = true → ¬ Escaped "category" tree
  q : (lookupValue denoted).isSome = true → ¬ Escaped "q" tree

theorem search_isSome_iff {body : Bytes} {tree : Value} {denoted : Denoted}
    (hparse : parse body = some tree) (hdenoted : tree.denoted = some denoted) :
    (decodeSearchInput body).isSome = true ↔
      (searchValue denoted).isSome = true ∧ ¬ Escaped "category" tree := by
  simp only [Option.isSome_iff_exists, decodeSearchInput_iff hparse hdenoted, exists_and_right]

theorem lookup_isSome_iff {body : Bytes} {tree : Value} {denoted : Denoted}
    (hparse : parse body = some tree) (hdenoted : tree.denoted = some denoted) :
    (decodeLookupInput body).isSome = true ↔
      (lookupValue denoted).isSome = true ∧ ¬ Escaped "q" tree := by
  simp only [Option.isSome_iff_exists, decodeLookupInput_iff hparse hdenoted, exists_and_right]

/-- The Rust gateway goes by the value of a body exactly if neither of its two texts escapes a character
of the string the gateway borrows. -/
theorem body_by_value_iff {first second : Bytes} {tree other : Value} {denoted : Denoted}
    (hfirst : parse first = some tree) (hsecond : parse second = some other)
    (htree : tree.denoted = some denoted) (hother : other.denoted = some denoted) :
    ByValue denoted first second ↔ SpelledPlain denoted tree ∧ SpelledPlain denoted other := by
  have hsearch := search_isSome_iff hfirst htree
  have hsearch' := search_isSome_iff hsecond hother
  have hlookup := lookup_isSome_iff hfirst htree
  have hlookup' := lookup_isSome_iff hsecond hother
  constructor
  · intro h
    constructor
    · exact ⟨fun hfits => (hsearch.mp (h.searchFits hfits).1).2, fun hfits => (hlookup.mp (h.lookupFits hfits).1).2⟩
    · exact ⟨fun hfits => (hsearch'.mp (h.searchFits hfits).2).2, fun hfits => (hlookup'.mp (h.lookupFits hfits).2).2⟩
  · rintro ⟨hplain, hplain'⟩
    have hsearchTree : (decodeSearchInput first).isSome = true ↔ (searchValue denoted).isSome = true :=
      hsearch.trans (and_iff_left_of_imp hplain.category)
    have hsearchOther : (decodeSearchInput second).isSome = true ↔ (searchValue denoted).isSome = true :=
      hsearch'.trans (and_iff_left_of_imp hplain'.category)
    have hlookupTree : (decodeLookupInput first).isSome = true ↔ (lookupValue denoted).isSome = true :=
      hlookup.trans (and_iff_left_of_imp hplain.q)
    have hlookupOther : (decodeLookupInput second).isSome = true ↔ (lookupValue denoted).isSome = true :=
      hlookup'.trans (and_iff_left_of_imp hplain'.q)
    constructor
    · exact Bool.eq_iff_iff.mpr (hsearchTree.trans hsearchOther.symm)
    · exact Bool.eq_iff_iff.mpr (hlookupTree.trans hlookupOther.symm)
    · intro input hinput input' hinput'
      have hvalue := ((decodeLookupInput_iff hfirst htree input).mp hinput).1
      have hvalue' := ((decodeLookupInput_iff hsecond hother input').mp hinput').1
      rw [hvalue, Option.some.injEq] at hvalue'
      rw [hvalue']
    · exact fun hfits => ⟨hsearchTree.mpr hfits, hsearchOther.mpr hfits⟩
    · exact fun hfits => ⟨hlookupTree.mpr hfits, hlookupOther.mpr hfits⟩

def penText : Bytes := Bytes.utf8 "\x7b\"q\":\"pen\"\x7d"

def penSpacedText : Bytes := Bytes.utf8 "\x7b \"\\u0071\" : \"pen\" \x7d"

def penTree : Value := .obj [([.raw 0x71], .str ((Bytes.utf8 "pen").map .raw))]

def penSpacedTree : Value := .obj [([.unicode 0x71], .str ((Bytes.utf8 "pen").map .raw))]

theorem body_by_value_pen :
    ByValue (.obj [("q", .str "pen")]) penText penSpacedText ↔
      SpelledPlain (.obj [("q", .str "pen")]) penTree ∧
        SpelledPlain (.obj [("q", .str "pen")]) penSpacedTree := by
  have hfirst : parse penText = some penTree := rfl
  have hsecond : parse penSpacedText = some penSpacedTree := rfl
  exact body_by_value_iff hfirst hsecond rfl rfl

/-- `café`, as an encoder spells it that keeps to ASCII. -/
def escapedText : Bytes := Bytes.utf8 "\x7b\"q\":\"caf\\u00e9\"\x7d"

def rawText : Bytes := Bytes.utf8 "\x7b\"q\":\"caf\u00e9\"\x7d"

def escapedTree : Value := .obj [([.raw 0x71], .str ((Bytes.utf8 "caf").map .raw ++ [.unicode 0xe9]))]

def rawTree : Value := .obj [([.raw 0x71], .str ((Bytes.utf8 "caf\u00e9").map .raw))]

/-- Of two spellings of one lookup the gateway takes one. -/
theorem body_by_value_escaped :
    ¬ ∀ (first second : Bytes) (tree other : Value) (denoted : Denoted),
      parse first = some tree → parse second = some other → tree.denoted = some denoted →
      other.denoted = some denoted → ByValue denoted first second := by
  intro h
  have hfirst : parse escapedText = some escapedTree := rfl
  have hsecond : parse rawText = some rawTree := rfl
  have hvalue := h escapedText rawText escapedTree rawTree (.obj [("q", .str "caf\u00e9")]) hfirst hsecond
    rfl rfl
  have hrefused : (decodeLookupInput escapedText).isSome ≠ (decodeLookupInput rawText).isSome := by
    decide +kernel
  exact hrefused hvalue.lookup

end ApigateBenchmark.GatewayApigate
