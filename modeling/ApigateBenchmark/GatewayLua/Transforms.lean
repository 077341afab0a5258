import ApigateBenchmark.Library.JsonText
import Mathlib.Algebra.Ring.Int.Defs

/-!
# The search validators of Kong and APISIX

`M.validate` of the two `transforms.lua`. A number is whatever the interpreter's doubles are: `Doubles`
says how a literal is read, what `math.floor` does and when two are equal. The validators see what
`cjson.decode` makes of the body; for a text of the JSON grammar that is `toLua`, with JSON's `null` as
a sentinel of type `userdata` and the last of several members under one key. An escape for half of a
surrogate pair and a text nested too deeply are errors. Of texts outside the grammar, some of which
cjson takes too, nothing is said. The two gateways differ in how the body reaches the decoder and in how
the error leaves.
-/

namespace ApigateBenchmark.GatewayLua

open Json

structure Doubles where
  Number : Type
  ofLiteral : NumLit → Number
  floor : Number → Number
  eq : Number → Number → Bool

variable (doubles : Doubles)

inductive LuaValue where
  | nil
  | userdata
  | boolean (value : Bool)
  | number (value : doubles.Number)
  | string (value : Bytes)
  | table (array : List LuaValue) (fields : List (Bytes × LuaValue))

/-- The type name `type` returns. -/
def LuaValue.type : LuaValue doubles → String
  | .nil => "nil"
  | .userdata => "userdata"
  | .boolean _ => "boolean"
  | .number _ => "number"
  | .string _ => "string"
  | .table _ _ => "table"

/-- `body.name` of a table; of entries under one key the last is the one that was kept. -/
def LuaValue.get (name : String) : LuaValue doubles → LuaValue doubles
  | .table _ fields =>
      (((fields.filter fun field => field.1 == Bytes.utf8 name).getLast?).map Prod.snd).getD .nil
  | _ => .nil

mutual

/-- What cjson makes of a JSON tree whose strings all denote one. -/
def toLua : Value → Option (LuaValue doubles)
  | .null => some .userdata
  | .bool value => some (.boolean value)
  | .num lit => some (.number (doubles.ofLiteral lit))
  | .str lit => lit.decoded.map fun text => .string (Bytes.utf8 text)
  | .arr elements => do
      let array ← elementsToLua elements
      some (.table array [])
  | .obj members => do
      let fields ← membersToLua members
      some (.table [] fields)

def elementsToLua : List Value → Option (List (LuaValue doubles))
  | [] => some []
  | element :: rest => do
      let first ← toLua element
      let others ← elementsToLua rest
      some (first :: others)

def membersToLua : List (StrLit × Value) → Option (List (Bytes × LuaValue doubles))
  | [] => some []
  | (key, value) :: rest => do
      let name ← key.decoded
      let first ← toLua value
      let others ← membersToLua rest
      some ((Bytes.utf8 name, first) :: others)

end

/-- `type(value) == "number" and value == math.floor(value)` -/
def isInteger : LuaValue doubles → Bool
  | .number value => doubles.eq value (doubles.floor value)
  | _ => false

/-- The tests of `M.validate` on the decoded body: the text of the error, if there is one. -/
def validateBody (body : LuaValue doubles) : Option String :=
  if body.type ≠ "table" then some "invalid json body"
  else if (body.get doubles "category").type ≠ "nil" ∧ (body.get doubles "category").type ≠ "string" then
    some "category must be a string"
  else if (body.get doubles "max_price").type ≠ "nil" ∧ isInteger doubles (body.get doubles "max_price") = false
    then some "max_price must be an integer"
  else none

/-- `cjson.decode` of `cjson.safe`, which returns `nil` for what it does not take. -/
abbrev Cjson := Bytes → Option (LuaValue doubles)

variable (cjson : Cjson doubles)

/-- `kong.request.get_body("application/json")`: a table, or `nil`. -/
def kongGetBody (raw : Bytes) : LuaValue doubles :=
  match cjson raw with
  | some (.table array fields) => .table array fields
  | _ => .nil

/-- `M.validate` of Kong: the status and the error it ends the request with. -/
def kongValidate (raw : Bytes) : Option (Nat × String) :=
  (validateBody doubles (kongGetBody doubles cjson raw)).map fun error => (400, error)

/-- `read_json_body` of APISIX; there are no body data if the body is empty. -/
def readJsonBody (raw : Option Bytes) : LuaValue doubles :=
  match raw with
  | none => .nil
  | some raw => (cjson raw).getD .nil

/-- `M.validate` of APISIX: the status and the message it ends the request with. -/
def apisixValidate (raw : Option Bytes) : Option (Nat × String) :=
  (validateBody doubles (readJsonBody doubles cjson raw)).map fun message => (400, message)

/-! ### What is assumed of the interpreter -/

/-- The limit of `cjson.decode_max_depth`, where nothing sets another. -/
def decodeMaxDepth : Nat := 1000

/-- cjson decodes the texts of the JSON grammar, as far as their strings denote strings and their
nesting allows. -/
structure DecodesJson : Prop where
  decodes : ∀ text tree value, parse text = some tree → tree.depth ≤ decodeMaxDepth →
    toLua doubles tree = some value → cjson text = some value
  refuses : ∀ text tree, parse text = some tree → ¬ (tree.paired = true ∧ tree.depth ≤ decodeMaxDepth) →
    cjson text = none

/-- The double read from an integer literal is its own floor. -/
def IntegersAreIntegral : Prop :=
  ∀ lit : NumLit, lit.isInteger = true →
    doubles.eq (doubles.ofLiteral lit) (doubles.floor (doubles.ofLiteral lit)) = true

/-! ### What the validators let through -/

mutual

/-- cjson has a value for the trees whose strings all denote one. -/
theorem toLua_isSome (tree : Value) : (toLua doubles tree).isSome = tree.wellFormed := by
  cases tree with
  | str lit =>
      rw [toLua, Option.isSome_map, StrLit.decoded, Value.wellFormed]
      cases lit.wellFormed <;> rfl
  | arr elements =>
      rw [toLua, Value.wellFormed, ← elementsToLua_isSome elements]
      cases elementsToLua doubles elements <;> rfl
  | obj members =>
      rw [toLua, Value.wellFormed, ← membersToLua_isSome members]
      cases membersToLua doubles members <;> rfl
  | _ => rfl

theorem elementsToLua_isSome (elements : List Value) :
    (elementsToLua doubles elements).isSome = elementsWellFormed elements := by
  cases elements with
  | nil => rfl
  | cons element rest =>
      rw [elementsToLua, elementsWellFormed, ← toLua_isSome element, ← elementsToLua_isSome rest]
      cases toLua doubles element <;> cases elementsToLua doubles rest <;> rfl

theorem membersToLua_isSome (members : List (StrLit × Value)) :
    (membersToLua doubles members).isSome = membersWellFormed members := by
  cases members with
  | nil => rfl
  | cons member rest =>
      obtain ⟨key, value⟩ := member
      rw [membersToLua, membersWellFormed, ← toLua_isSome value, ← membersToLua_isSome rest,
        StrLit.decoded]
      cases key.wellFormed <;> cases toLua doubles value <;> cases membersToLua doubles rest <;> rfl

end

/-- A member of a table that was converted has a value that was. -/
theorem lastValue_toLua {members : List Member} {fields : List (Bytes × LuaValue doubles)}
    (h : membersToLua doubles members = some fields) {name : String} {value : Value}
    (hvalue : lastValue (isKey name) members = some value) :
    ∃ converted, toLua doubles value = some converted := by
  have hall : ∀ member ∈ members, ∃ converted, toLua doubles member.2 = some converted := by
    clear hvalue
    induction members generalizing fields with
    | nil => exact fun member hmember => absurd hmember List.not_mem_nil
    | cons member rest ih =>
        obtain ⟨key, first⟩ := member
        simp only [membersToLua, Option.bind_eq_bind, Option.bind_eq_some_iff] at h
        obtain ⟨text, -, converted, hconverted, others, hothers, -⟩ := h
        exact List.forall_mem_cons.mpr ⟨⟨converted, hconverted⟩, ih hothers⟩
  exact lastValue_property (fun value => ∃ converted, toLua doubles value = some converted)
    (fun member hmember _ => hall member hmember) value hvalue

/-- The field a table ends up with comes from the last member under its key. -/
theorem lastField_toLua {members : List Member} {fields : List (Bytes × LuaValue doubles)}
    (h : membersToLua doubles members = some fields) (name : String) :
    ((fields.filter fun field => field.1 == Bytes.utf8 name).getLast?).map Prod.snd =
      (lastValue (isKey name) members).bind (toLua doubles) := by
  induction members generalizing fields with
  | nil =>
      obtain rfl := Option.some.inj h
      rfl
  | cons member rest ih =>
      obtain ⟨key, value⟩ := member
      simp only [membersToLua, Option.bind_eq_bind, Option.bind_eq_some_iff, Option.some.injEq] at h
      obtain ⟨text, hkey, first, hfirst, others, hothers, rfl⟩ := h
      have hlast := ih hothers
      have hsame : (Bytes.utf8 text == Bytes.utf8 name) = isKey name key := by
        rw [isKey, hkey, Bool.eq_iff_iff, beq_iff_eq, beq_iff_eq, Bytes.utf8_injective.eq_iff,
          Option.some.injEq]
      by_cases hname : isKey name key = true
      · rw [lastValue_cons_pos hname]
        have hfilter : ((Bytes.utf8 text, first) :: others).filter
            (fun field => field.1 == Bytes.utf8 name) =
            (Bytes.utf8 text, first) :: others.filter fun field => field.1 == Bytes.utf8 name := by
          simp [hsame, hname]
        rw [hfilter, List.getLast?_cons, Option.map_some, Option.bind_some]
        cases hvalue : lastValue (isKey name) rest with
        | none =>
            rw [hvalue, Option.bind_none, Option.map_eq_none_iff] at hlast
            rw [hlast, Option.getD_none, Option.getD_none, hfirst]
        | some last =>
            obtain ⟨converted, hconverted⟩ := lastValue_toLua doubles hothers hvalue
            rw [hvalue, Option.bind_some, hconverted, Option.map_eq_some_iff] at hlast
            obtain ⟨field, hfield, rfl⟩ := hlast
            rw [hfield, Option.getD_some, Option.getD_some, hconverted]
      · rw [lastValue_cons_neg hname, ← hlast]
        have hfilter : ((Bytes.utf8 text, first) :: others).filter
            (fun field => field.1 == Bytes.utf8 name) =
            others.filter fun field => field.1 == Bytes.utf8 name := by
          simp [hsame, hname]
        rw [hfilter]

/-- The number of a literal passes `is_integer`. -/
def IsIntegralNumber (value : Value) : Prop :=
  ∃ lit, value = .num lit ∧
    doubles.eq (doubles.ofLiteral lit) (doubles.floor (doubles.ofLiteral lit)) = true

/-- How the type tests see the value of a member. -/
theorem type_toLua {value : Value} {converted : LuaValue doubles}
    (h : toLua doubles value = some converted) :
    converted.type ≠ "nil" ∧ (converted.type = "string" ↔ ∃ lit, value = .str lit) ∧
      (isInteger doubles converted = true ↔ IsIntegralNumber doubles value) := by
  cases value with
  | null =>
      obtain rfl := Option.some.inj h
      simp [LuaValue.type, isInteger, IsIntegralNumber]
  | bool value =>
      obtain rfl := Option.some.inj h
      simp [LuaValue.type, isInteger, IsIntegralNumber]
  | num lit =>
      obtain rfl := Option.some.inj h
      simp [LuaValue.type, isInteger, IsIntegralNumber]
  | str lit =>
      rw [toLua, Option.map_eq_some_iff] at h
      obtain ⟨text, -, rfl⟩ := h
      simp [LuaValue.type, isInteger, IsIntegralNumber]
  | arr elements =>
      simp only [toLua, Option.bind_eq_bind, Option.bind_eq_some_iff, Option.some.injEq] at h
      obtain ⟨array, -, rfl⟩ := h
      simp [LuaValue.type, isInteger, IsIntegralNumber]
  | obj members =>
      simp only [toLua, Option.bind_eq_bind, Option.bind_eq_some_iff, Option.some.injEq] at h
      obtain ⟨fields, -, rfl⟩ := h
      simp [LuaValue.type, isInteger, IsIntegralNumber]

/-- The last `category` is a string and the last `max_price` an integral number, as far as there are
any. -/
structure Validates (members : List Member) : Prop where
  category : ∀ value ∈ lastValue (isKey "category") members, ∃ lit, value = .str lit
  maxPrice : ∀ value ∈ lastValue (isKey "max_price") members, IsIntegralNumber doubles value

theorem get_toLua {members : List Member} {fields : List (Bytes × LuaValue doubles)}
    (h : membersToLua doubles members = some fields) (name : String) :
    (lastValue (isKey name) members = none ∧ (LuaValue.table [] fields).get doubles name = .nil) ∨
      ∃ value converted, lastValue (isKey name) members = some value ∧
        toLua doubles value = some converted ∧ (LuaValue.table [] fields).get doubles name = converted := by
  rw [LuaValue.get, lastField_toLua doubles h name]
  cases hvalue : lastValue (isKey name) members with
  | none => exact Or.inl ⟨rfl, rfl⟩
  | some value =>
      obtain ⟨converted, hconverted⟩ := lastValue_toLua doubles h hvalue
      refine Or.inr ⟨value, converted, rfl, hconverted, ?_⟩
      rw [Option.bind_some, hconverted, Option.getD_some]

theorem validateBody_table {members : List Member} {fields : List (Bytes × LuaValue doubles)}
    (h : membersToLua doubles members = some fields) :
    validateBody doubles (.table [] fields) = none ↔ Validates doubles members := by
  have hcategory : ((LuaValue.table [] fields).get doubles "category").type ≠ "nil" ∧
      ((LuaValue.table [] fields).get doubles "category").type ≠ "string" ↔
        ¬ ∀ value ∈ lastValue (isKey "category") members, ∃ lit, value = .str lit := by
    obtain ⟨hnone, hget⟩ | ⟨value, converted, hvalue, hconverted, hget⟩ := get_toLua doubles h "category"
    · rw [hnone, hget]
      simp [LuaValue.type]
    · obtain ⟨hnil, hstring, -⟩ := type_toLua doubles hconverted
      rw [hvalue, hget, ← not_iff_not]
      simp [hnil, hstring]
  have hprice : ((LuaValue.table [] fields).get doubles "max_price").type ≠ "nil" ∧
      isInteger doubles ((LuaValue.table [] fields).get doubles "max_price") = false ↔
        ¬ ∀ value ∈ lastValue (isKey "max_price") members, IsIntegralNumber doubles value := by
    obtain ⟨hnone, hget⟩ | ⟨value, converted, hvalue, hconverted, hget⟩ := get_toLua doubles h "max_price"
    · rw [hnone, hget]
      simp [LuaValue.type]
    · obtain ⟨hnil, -, hinteger⟩ := type_toLua doubles hconverted
      rw [hvalue, hget, ← Bool.not_eq_true, hinteger]
      simp [hnil]
  have htable : (LuaValue.table [] fields : LuaValue doubles).type = "table" := rfl
  rw [validateBody, htable, if_neg (by simp)]
  constructor
  · intro hnone
    split at hnone
    · exact absurd hnone (by simp)
    · rename_i hfirst
      split at hnone
      · exact absurd hnone (by simp)
      · rename_i hsecond
        exact ⟨not_not.mp (mt hcategory.mpr hfirst), not_not.mp (mt hprice.mpr hsecond)⟩
  · intro hvalid
    rw [if_neg fun hskipped => hcategory.mp hskipped hvalid.category,
      if_neg fun hskipped => hprice.mp hskipped hvalid.maxPrice]

/-- What cjson decodes it could. -/
theorem DecodesJson.taken (hcjson : DecodesJson doubles cjson) {raw : Bytes} {tree : Value}
    (hparse : parse raw = some tree) (hsome : cjson raw ≠ none) :
    tree.paired = true ∧ tree.depth ≤ decodeMaxDepth := by
  by_contra hrefused
  exact hsome (hcjson.refuses raw tree hparse hrefused)

theorem DecodesJson.obj (hcjson : DecodesJson doubles cjson) {raw : Bytes} {members : List Member}
    (hparse : parse raw = some (.obj members)) (hwell : membersWellFormed members = true)
    (hdepth : (Value.obj members).depth ≤ decodeMaxDepth) :
    ∃ fields, membersToLua doubles members = some fields ∧ cjson raw = some (.table [] fields) := by
  rw [← membersToLua_isSome doubles] at hwell
  obtain ⟨fields, hfields⟩ := Option.isSome_iff_exists.mp hwell
  refine ⟨fields, hfields, hcjson.decodes raw _ _ hparse hdepth ?_⟩
  rw [toLua, hfields]
  rfl

/-- Both validators let an object through on the same condition on its members. -/
theorem validate_obj (hcjson : DecodesJson doubles cjson) {raw : Bytes} {members : List Member}
    (hparse : parse raw = some (.obj members)) (hwell : membersWellFormed members = true)
    (hdepth : (Value.obj members).depth ≤ decodeMaxDepth) :
    (kongValidate doubles cjson raw = none ↔ Validates doubles members) ∧
      (apisixValidate doubles cjson (some raw) = none ↔ Validates doubles members) := by
  obtain ⟨fields, hfields, hbody⟩ := hcjson.obj doubles cjson hparse hwell hdepth
  rw [← validateBody_table doubles hfields]
  constructor
  · rw [kongValidate, kongGetBody, hbody, Option.map_eq_none_iff]
  · rw [apisixValidate, readJsonBody, hbody, Option.map_eq_none_iff, Option.getD_some]

/-- What cjson does not decode neither lets through. -/
theorem validate_undecoded {raw : Bytes} (hnone : cjson raw = none) :
    kongValidate doubles cjson raw ≠ none ∧ apisixValidate doubles cjson (some raw) ≠ none := by
  constructor
  · rw [kongValidate, kongGetBody, hnone]
    simp [validateBody, LuaValue.type]
  · rw [apisixValidate, readJsonBody, hnone]
    simp [validateBody, LuaValue.type]

/-- Neither lets `null` through. -/
theorem validate_null (hcjson : DecodesJson doubles cjson) {raw : Bytes} (hparse : parse raw = some .null) :
    kongValidate doubles cjson raw ≠ none ∧ apisixValidate doubles cjson (some raw) ≠ none := by
  have hbody : cjson raw = some .userdata := hcjson.decodes raw _ _ hparse (Nat.zero_le _) rfl
  constructor
  · rw [kongValidate, kongGetBody, hbody]
    simp [validateBody, LuaValue.type]
  · rw [apisixValidate, readJsonBody, hbody]
    simp [validateBody, LuaValue.type]

/-! ### Decimals

Exact decimal fractions in place of doubles, which agree with them on short literals.
-/

/-- `n` over a power of ten. -/
def decimals : Doubles where
  Number := Int × Nat
  ofLiteral lit :=
    let frac := lit.frac.getD []
    let digits := digitsValue (lit.int ++ frac)
    let mantissa : Int := if lit.negative then -(digits : Int) else digits
    match lit.exp with
    | none => (mantissa, frac.length)
    | some (true, exp) => (mantissa, frac.length + digitsValue exp)
    | some (false, exp) => (mantissa * 10 ^ digitsValue exp, frac.length)
  floor n := (n.1 / 10 ^ n.2, 0)
  eq a b := a.1 * 10 ^ b.2 == b.1 * 10 ^ a.2

theorem decimals_integral : IntegersAreIntegral decimals := by
  intro lit hinteger
  obtain ⟨negative, int, frac, exp⟩ := lit
  simp only [NumLit.isInteger, Bool.and_eq_true, Option.isNone_iff_eq_none] at hinteger
  obtain ⟨rfl, rfl⟩ := hinteger
  simp [decimals]

/-- A decoder of the JSON grammar and of nothing else. -/
def strictCjson : Cjson decimals := fun text =>
  (parse text).bind fun tree =>
    if tree.paired = true ∧ tree.depth ≤ decodeMaxDepth then toLua decimals tree else none

theorem strictCjson_decodes : DecodesJson decimals strictCjson := by
  constructor
  · intro text tree value hparse hdepth hvalue
    have hwell : tree.wellFormed = true := by
      rw [← toLua_isSome decimals, hvalue]
      rfl
    rw [strictCjson, hparse, Option.bind_some, if_pos ⟨Value.paired_of_wellFormed hwell, hdepth⟩, hvalue]
  · intro text tree hparse hrefused
    rw [strictCjson, hparse, Option.bind_some, if_neg hrefused]

end ApigateBenchmark.GatewayLua
