import ApigateBenchmark.GatewayApigate.Routes
import ApigateBenchmark.GatewayLua.Transforms
import ApigateBenchmark.GatewayPython.Schemas
import ApigateBenchmark.Library.JsonText

/-!
# Which search bodies the four gateways accept

On the text of an object each gateway's decision comes down to its members: those named `category` and
`max_price`, and what a decoder asks of the others. The Rust gateway is the strictest about spelling and
repetition and reads nothing of the other members but their keys, the Python gateway the most lenient
about everything but types, and the two Lua gateways look at the last member of each name only, but take
no `null`.
-/

namespace ApigateBenchmark.Contract

open Json GatewayLua

variable (msgspec : GatewayPython.Msgspec) (doubles : Doubles) (cjson : Cjson doubles)

/-- All four gateways accept the body, or all four reject it. -/
def Agree (body : Bytes) : Prop :=
  let python := (GatewayPython.decodeSearchInput msgspec body).isSome = true
  let rust := (GatewayApigate.decodeSearchInput body).isSome = true
  let kong := kongValidate doubles cjson body = none
  let apisix := apisixValidate doubles cjson (some body) = none
  (python ∧ rust ∧ kong ∧ apisix) ∨ (¬ python ∧ ¬ rust ∧ ¬ kong ∧ ¬ apisix)

/-! ### Python -/

/-- The value is `null`, or a string without half of a surrogate pair. -/
def IsTextOrNull (value : Value) : Prop := value = .null ∨ ∃ lit, value = .str lit ∧ lit.paired = true

/-- The value is `null`, an integer literal that fits 64 bits, or one msgspec reads as an integer. -/
def IsIntOrNull (value : Value) : Prop :=
  value = .null ∨ ∃ lit, value = .num lit ∧
    (lit.isInteger = true ∧ GatewayPython.fitsInt64 lit.toInt = true ∨ (msgspec.asInt lit).isSome = true)

/-- Each `category` is a string or `null`, each `max_price` an integer or `null`, and msgspec can pass over
the other members. -/
structure FitsPython (members : List Member) : Prop where
  category : ∀ member ∈ members, isKey "category" member.1 = true → IsTextOrNull member.2
  maxPrice : ∀ member ∈ members, isKey "max_price" member.1 = true → IsIntOrNull msgspec member.2
  others : msgspec.readsMembers ["category", "max_price"] members = true

theorem readStr_isSome_iff {value : Value} (h : ∀ lit, value = .str lit → lit.wellFormed = lit.paired) :
    (GatewayPython.readStr value).isSome = true ↔ IsTextOrNull value := by
  cases value with
  | str lit =>
      rw [GatewayPython.readStr, Option.isSome_map, StrLit.decoded_isSome, h lit rfl]
      simp [IsTextOrNull]
  | _ => simp [GatewayPython.readStr, IsTextOrNull]

theorem readInt_isSome_iff (value : Value) :
    (GatewayPython.readInt msgspec value).isSome = true ↔ IsIntOrNull msgspec value := by
  cases value with
  | num lit =>
      simp only [GatewayPython.readInt, IsIntOrNull]
      split <;> simp_all
  | _ => simp [GatewayPython.readInt, IsIntOrNull]

theorem readField_isSome_iff {α : Type} (isKey : StrLit → Bool) (read : Value → Option α) (initial : α)
    (members : List Member) :
    (readField isKey (fun _ => read) initial members).isSome = true ↔
      ∀ member ∈ members, isKey member.1 = true → (read member.2).isSome = true := by
  rw [Option.isSome_iff_exists]
  constructor
  · intro h
    obtain ⟨value, hvalue⟩ := h
    exact ((readField_eq_some_iff isKey read initial members value).mp hvalue).1
  · intro h
    exact ⟨_, (readField_eq_some_iff isKey read initial members _).mpr ⟨h, rfl⟩⟩

theorem python_accepts_iff {text : String} {members : List Member}
    (hparse : parse (Bytes.utf8 text) = some (.obj members)) :
    (GatewayPython.decodeSearchInput msgspec (Bytes.utf8 text)).isSome = true ↔
      FitsPython msgspec members := by
  have hcategory := readField_isSome_iff (isKey "category") GatewayPython.readStr none members
  have hprice := readField_isSome_iff (isKey "max_price") (GatewayPython.readInt msgspec) none members
  have hboth : (GatewayPython.decodeSearchInput msgspec (Bytes.utf8 text)).isSome = true ↔
      msgspec.readsMembers ["category", "max_price"] members = true ∧
        (readField (isKey "category") (fun _ => GatewayPython.readStr) none members).isSome = true ∧
        (readField (isKey "max_price") (fun _ => GatewayPython.readInt msgspec) none members).isSome =
          true := by
    simp only [GatewayPython.decodeSearchInput, hparse]
    cases msgspec.readsMembers ["category", "max_price"] members <;>
      cases readField (isKey "category") (fun _ => GatewayPython.readStr) none members <;>
      cases readField (isKey "max_price") (fun _ => GatewayPython.readInt msgspec) none members <;> simp
  have htext : ∀ member ∈ members, (GatewayPython.readStr member.2).isSome = true ↔ IsTextOrNull member.2 :=
    fun member hmember => readStr_isSome_iff (wellFormed_members hparse hmember).2
  rw [hboth, hcategory, hprice]
  constructor
  · intro h
    obtain ⟨hothers, hstr, hint⟩ := h
    refine ⟨fun member hmember hkey => ?_, fun member hmember hkey => ?_, hothers⟩
    · exact (htext member hmember).mp (hstr member hmember hkey)
    · exact (readInt_isSome_iff msgspec member.2).mp (hint member hmember hkey)
  · intro h
    refine ⟨h.others, fun member hmember hkey => ?_, fun member hmember hkey => ?_⟩
    · exact (htext member hmember).mpr (h.category member hmember hkey)
    · exact (readInt_isSome_iff msgspec member.2).mpr (h.maxPrice member hmember hkey)

/-! ### Rust -/

/-- The value is a string spelled without escapes. -/
def IsPlainStr (value : Value) : Prop := ∃ lit, value = .str lit ∧ lit.isPlain = true

/-- The value is an integer literal that fits 64 bits, and not `-0`. -/
def IsI64 (value : Value) : Prop :=
  ∃ lit, value = .num lit ∧ lit.isInteger = true ∧ GatewayApigate.isI64 lit.toInt = true ∧
    (lit.negative && lit.toInt == 0) = false

/-- There is at most one member of that name, and its value, if not `null`, is of that kind. -/
def OnceOrNull (name : String) (P : Value → Prop) (members : List Member) : Prop :=
  (members.filter fun member => isKey name member.1).length ≤ 1 ∧
    ∀ member ∈ members, isKey name member.1 = true → member.2 = .null ∨ P member.2

theorem readOnce_isSome_iff {α : Type} (name : String) (read : Value → Option (Option α)) (P : Value → Prop)
    (members : List Member)
    (hread : ∀ member ∈ members, (read member.2).isSome = true ↔ member.2 = .null ∨ P member.2) :
    (GatewayApigate.readOnce name read members).isSome = true ↔ OnceOrNull name P members := by
  rw [GatewayApigate.readOnce, OnceOrNull]
  have hmem : ∀ member, member ∈ members.filter (fun member => isKey name member.1) ↔
      member ∈ members ∧ isKey name member.1 = true := fun member => List.mem_filter
  split
  · rename_i hnone
    have hempty : ∀ member ∈ members, ¬ isKey name member.1 = true := by
      intro member hmember hkey
      have hin := (hmem member).mpr ⟨hmember, hkey⟩
      rw [hnone] at hin
      exact List.not_mem_nil hin
    refine iff_of_true rfl ⟨by rw [hnone]; simp, fun member hmember hkey => ?_⟩
    exact absurd hkey (hempty member hmember)
  · rename_i only hone
    have hin := (hmem only).mp (by rw [hone]; exact List.mem_singleton_self _)
    have hunique : ∀ member ∈ members, isKey name member.1 = true → member = only := by
      intro member hmember hkey
      have hmine := (hmem member).mpr ⟨hmember, hkey⟩
      rw [hone] at hmine
      exact List.mem_singleton.mp hmine
    rw [hread only hin.1, hone]
    constructor
    · intro h
      refine ⟨Nat.le_refl _, fun member hmember hkey => ?_⟩
      rw [hunique member hmember hkey]
      exact h
    · intro h
      exact h.2 only hin.1 hin.2
  · rename_i hnone hone
    refine iff_of_false (by simp) fun h => ?_
    have hlength := h.1
    cases hfilter : members.filter fun member => isKey name member.1 with
    | nil => exact hnone hfilter
    | cons first rest => cases rest with
      | nil => exact hone first hfilter
      | cons second rest =>
          rw [hfilter, List.length_cons, List.length_cons] at hlength
          omega

theorem readBorrowedStr_isSome_iff {value : Value}
    (h : ∀ lit, value = .str lit → lit.wellFormed = lit.paired) :
    (GatewayApigate.readBorrowedStr value).isSome = true ↔ value = .null ∨ IsPlainStr value := by
  cases value with
  | str lit =>
      rw [GatewayApigate.readBorrowedStr]
      by_cases hplain : lit.isPlain = true
      · have hwell : lit.wellFormed = true := (h lit rfl).trans (StrLit.paired_of_isPlain hplain)
        simp [IsPlainStr, hplain, StrLit.decoded_of_wellFormed hwell]
      · simp [IsPlainStr, hplain]
  | _ => simp [GatewayApigate.readBorrowedStr, IsPlainStr]

theorem readI64_isSome_iff (value : Value) :
    (GatewayApigate.readI64 value).isSome = true ↔ value = .null ∨ IsI64 value := by
  cases value with
  | num lit =>
      by_cases h : (lit.isInteger && GatewayApigate.isI64 lit.toInt &&
          !(lit.negative && lit.toInt == 0)) = true
      · rw [GatewayApigate.readI64, if_pos h]
        simp only [Bool.and_eq_true, Bool.not_eq_true'] at h
        exact iff_of_true rfl (Or.inr ⟨lit, rfl, h.1.1, h.1.2, h.2⟩)
      · rw [GatewayApigate.readI64, if_neg h]
        refine iff_of_false (by simp) fun hread => ?_
        obtain hnull | ⟨other, hsame, hinteger, hrange, hzero⟩ := hread
        · exact absurd hnull (by simp)
        · obtain rfl := Value.num.inj hsame
          exact h (by rw [hinteger, hrange, hzero]; rfl)
  | _ => simp [GatewayApigate.readI64, IsI64]

/-- Each name occurs at most once, with a string to borrow, an integer or `null`, and every key denotes a
string. -/
structure FitsRust (members : List Member) : Prop where
  category : OnceOrNull "category" IsPlainStr members
  maxPrice : OnceOrNull "max_price" IsI64 members
  keys : ∀ member ∈ members, member.1.paired = true

theorem rust_accepts_iff {text : String} {members : List Member}
    (hparse : parse (Bytes.utf8 text) = some (.obj members)) :
    (GatewayApigate.decodeSearchInput (Bytes.utf8 text)).isSome = true ↔ FitsRust members := by
  have hcategory := readOnce_isSome_iff "category" GatewayApigate.readBorrowedStr IsPlainStr members
    fun member hmember => readBorrowedStr_isSome_iff (wellFormed_members hparse hmember).2
  have hprice := readOnce_isSome_iff "max_price" GatewayApigate.readI64 IsI64 members
    fun member _ => readI64_isSome_iff member.2
  have hkeys : GatewayApigate.readsKeys members = true ↔ ∀ member ∈ members, member.1.paired = true := by
    rw [GatewayApigate.readsKeys, List.all_eq_true]
    exact forall₂_congr fun member hmember => by rw [(wellFormed_members hparse hmember).1]
  have hboth : (GatewayApigate.decodeSearchInput (Bytes.utf8 text)).isSome = true ↔
      GatewayApigate.readsKeys members = true ∧
        (GatewayApigate.readOnce "category" GatewayApigate.readBorrowedStr members).isSome = true ∧
        (GatewayApigate.readOnce "max_price" GatewayApigate.readI64 members).isSome = true := by
    simp only [GatewayApigate.decodeSearchInput, hparse]
    cases GatewayApigate.readsKeys members <;>
      cases GatewayApigate.readOnce "category" GatewayApigate.readBorrowedStr members <;>
      cases GatewayApigate.readOnce "max_price" GatewayApigate.readI64 members <;> simp
  rw [hboth, hkeys, hcategory, hprice]
  constructor
  · intro h
    exact ⟨h.2.1, h.2.2, h.1⟩
  · intro h
    exact ⟨h.keys, h.category, h.maxPrice⟩

/-! ### Kong and APISIX -/

/-- cjson decodes the object, and `M.validate` takes the last member of each name. -/
structure FitsLua (members : List Member) : Prop where
  paired : (Value.obj members).paired = true
  depth : (Value.obj members).depth ≤ decodeMaxDepth
  validates : Validates doubles members

theorem lua_accepts_iff (hcjson : DecodesJson doubles cjson) {text : String} {members : List Member}
    (hparse : parse (Bytes.utf8 text) = some (.obj members)) :
    (kongValidate doubles cjson (Bytes.utf8 text) = none ↔ FitsLua doubles members) ∧
      (apisixValidate doubles cjson (some (Bytes.utf8 text)) = none ↔ FitsLua doubles members) := by
  by_cases hdecodes : (Value.obj members).paired = true ∧ (Value.obj members).depth ≤ decodeMaxDepth
  · have hwell : membersWellFormed members = true := (wellFormed_eq_paired hparse).trans hdecodes.1
    obtain ⟨hkong, hapisix⟩ := validate_obj doubles cjson hcjson hparse hwell hdecodes.2
    have hfits : Validates doubles members ↔ FitsLua doubles members :=
      ⟨fun hvalidates => ⟨hdecodes.1, hdecodes.2, hvalidates⟩, fun h => h.validates⟩
    exact ⟨hkong.trans hfits, hapisix.trans hfits⟩
  · obtain ⟨hkong, hapisix⟩ := validate_undecoded doubles cjson (hcjson.refuses _ _ hparse hdecodes)
    have hfits : ¬ FitsLua doubles members := fun h => hdecodes ⟨h.paired, h.depth⟩
    exact ⟨iff_of_false hkong hfits, iff_of_false hapisix hfits⟩

/-! ### All four -/

/-- There is at most one member of that name, and its value is of that kind. -/
def Once (name : String) (P : Value → Prop) (members : List Member) : Prop :=
  (members.filter fun member => isKey name member.1).length ≤ 1 ∧
    ∀ member ∈ members, isKey name member.1 = true → P member.2

/-- The one member of a name is the last. -/
theorem lastValue_of_once {name : String} {members : List Member}
    (honce : (members.filter fun member => isKey name member.1).length ≤ 1) {member : Member}
    (hmember : member ∈ members) (hkey : isKey name member.1 = true) :
    lastValue (isKey name) members = some member.2 := by
  have hin : member ∈ members.filter fun member => isKey name member.1 :=
    List.mem_filter.mpr ⟨hmember, hkey⟩
  have hone : members.filter (fun member => isKey name member.1) = [member] := by
    cases hfilter : members.filter fun member => isKey name member.1 with
    | nil =>
        rw [hfilter] at hin
        exact absurd hin List.not_mem_nil
    | cons first rest =>
        rw [hfilter, List.length_cons] at honce
        have hrest : rest = [] := List.eq_nil_of_length_eq_zero (by omega)
        rw [hfilter, hrest] at hin
        rw [hrest, List.mem_singleton.mp hin]
  rw [lastValue, hone]
  rfl

/-- A name that `M.validate` takes and that occurs once at most is not `null`. -/
theorem once_iff (name : String) (P Q : Value → Prop) (members : List Member) (hnull : ¬ Q .null)
    (hQ : ∀ value, P value → Q value) :
    Once name P members ↔
      OnceOrNull name P members ∧ ∀ value ∈ lastValue (isKey name) members, Q value := by
  constructor
  · intro h
    refine ⟨⟨h.1, fun member hmember hkey => Or.inr (h.2 member hmember hkey)⟩, ?_⟩
    exact lastValue_property Q fun member hmember hkey => hQ _ (h.2 member hmember hkey)
  · intro h
    obtain ⟨⟨honce, hkind⟩, hlast⟩ := h
    refine ⟨honce, fun member hmember hkey => ?_⟩
    have hvalue := hlast member.2 (lastValue_of_once honce hmember hkey)
    apply (hkind member hmember hkey).resolve_left
    intro hmemberNull
    rw [hmemberNull] at hvalue
    exact hnull hvalue

/-- Each name occurs at most once and with a value all four take, and all four can read the rest: no
string has half of a surrogate pair, nothing is nested too deeply for cjson, and msgspec can pass over
the members of other names. -/
structure FitsAll (members : List Member) : Prop where
  category : Once "category" IsPlainStr members
  maxPrice : Once "max_price" IsI64 members
  paired : (Value.obj members).paired = true
  depth : (Value.obj members).depth ≤ decodeMaxDepth
  others : msgspec.readsMembers ["category", "max_price"] members = true

theorem fitsPython_of_fitsAll {members : List Member} (h : FitsAll msgspec members) :
    FitsPython msgspec members := by
  refine ⟨fun member hmember hkey => ?_, fun member hmember hkey => ?_, h.others⟩
  · obtain ⟨lit, hlit, hplain⟩ := h.category.2 member hmember hkey
    exact Or.inr ⟨lit, hlit, StrLit.paired_of_isPlain hplain⟩
  · obtain ⟨lit, hlit, hinteger, hrange, -⟩ := h.maxPrice.2 member hmember hkey
    exact Or.inr ⟨lit, hlit, Or.inl ⟨hinteger, hrange⟩⟩

theorem fitsAll_iff (hdoubles : IntegersAreIntegral doubles) (members : List Member) :
    FitsPython msgspec members ∧ FitsRust members ∧ FitsLua doubles members ↔ FitsAll msgspec members := by
  have hcategory := once_iff "category" IsPlainStr (fun value => ∃ lit, value = .str lit) members
    (by simp) fun value h => ⟨h.choose, h.choose_spec.1⟩
  have hprice := once_iff "max_price" IsI64 (IsIntegralNumber doubles) members
    (by simp [IsIntegralNumber]) fun value h => by
      obtain ⟨lit, rfl, hinteger, -⟩ := h
      exact ⟨lit, rfl, hdoubles lit hinteger⟩
  constructor
  · rintro ⟨hpython, hrust, hlua⟩
    exact ⟨hcategory.mpr ⟨hrust.category, hlua.validates.category⟩,
      hprice.mpr ⟨hrust.maxPrice, hlua.validates.maxPrice⟩, hlua.paired, hlua.depth, hpython.others⟩
  · intro h
    obtain ⟨honce, hstring⟩ := hcategory.mp h.category
    obtain ⟨honce', hnumber⟩ := hprice.mp h.maxPrice
    have hkeys : ∀ member ∈ members, member.1.paired = true := fun _ hmember =>
      (paired_of_mem h.paired hmember).1
    exact ⟨fitsPython_of_fitsAll msgspec h, ⟨honce, honce', hkeys⟩, h.paired, h.depth, hstring, hnumber⟩

/-- The four gateways agree on the text of an object exactly when it is one all of them take, or one that
none takes: not msgspec for the type of a member, not serde for the spelling or the repetition of one,
and not `M.validate` for the last member of a name. -/
theorem search_agreement_iff (hcjson : DecodesJson doubles cjson) (hdoubles : IntegersAreIntegral doubles)
    {text : String} {members : List Member} (hparse : parse (Bytes.utf8 text) = some (.obj members)) :
    Agree msgspec doubles cjson (Bytes.utf8 text) ↔
      FitsAll msgspec members ∨
        (¬ FitsPython msgspec members ∧ ¬ FitsRust members ∧ ¬ FitsLua doubles members) := by
  obtain ⟨hkong, hapisix⟩ := lua_accepts_iff doubles cjson hcjson hparse
  rw [Agree, python_accepts_iff msgspec hparse, rust_accepts_iff hparse, hkong, hapisix,
    ← fitsAll_iff msgspec doubles hdoubles members, and_self_iff, and_self_iff]

def pricedText : String := "\x7b\"max_price\":300,\"x\":[-1]\x7d"

def pricedMembers : List Member :=
  [((Bytes.utf8 "max_price").map .raw, .num ⟨false, Bytes.utf8 "300", none, none⟩),
    ((Bytes.utf8 "x").map .raw, .arr [.num ⟨true, Bytes.utf8 "1", none, none⟩])]

theorem search_agreement_priced :
    Agree GatewayPython.plainMsgspec decimals strictCjson (Bytes.utf8 pricedText) ↔
      FitsAll GatewayPython.plainMsgspec pricedMembers ∨
        (¬ FitsPython GatewayPython.plainMsgspec pricedMembers ∧ ¬ FitsRust pricedMembers ∧
          ¬ FitsLua decimals pricedMembers) := by
  have hparse : parse (Bytes.utf8 pricedText) = some (.obj pricedMembers) := rfl
  exact search_agreement_iff GatewayPython.plainMsgspec decimals strictCjson strictCjson_decodes
    decimals_integral hparse

def nullText : String := "\x7b\"category\":null\x7d"

def nullMembers : List Member := [((Bytes.utf8 "category").map .raw, .null)]

/-- A `null` category is absent to the Python gateway and a mistake to Kong. -/
theorem search_null_category :
    ¬ ∀ (msgspec : GatewayPython.Msgspec) (doubles : Doubles) (cjson : Cjson doubles) (text : String)
        (members : List Member),
      DecodesJson doubles cjson → IntegersAreIntegral doubles →
      parse (Bytes.utf8 text) = some (.obj members) → Agree msgspec doubles cjson (Bytes.utf8 text) := by
  intro h
  have hparse : parse (Bytes.utf8 nullText) = some (.obj nullMembers) := rfl
  have hagree := h GatewayPython.plainMsgspec decimals strictCjson nullText nullMembers strictCjson_decodes
    decimals_integral hparse
  have hpython : (GatewayPython.decodeSearchInput GatewayPython.plainMsgspec
      (Bytes.utf8 nullText)).isSome = true := by decide +kernel
  have hkong : kongValidate decimals strictCjson (Bytes.utf8 nullText) ≠ none := by decide +kernel
  obtain ⟨-, -, hpassed, -⟩ | ⟨hrefused, -⟩ := hagree
  · exact hkong hpassed
  · exact hrefused hpython

end ApigateBenchmark.Contract
