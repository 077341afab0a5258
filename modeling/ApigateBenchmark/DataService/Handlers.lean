import ApigateBenchmark.DataService.Products
import ApigateBenchmark.Library.GoJson
import ApigateBenchmark.Library.GoMarshal

/-!
# The handlers of data-service

`server/handlers.go`. A request is the header block fasthttp parsed, names compared without regard to
case as its normalisation makes them, and a body. Responses keep the value that is marshalled, and
`marshal` is the body it becomes.
-/

namespace ApigateBenchmark.DataService

open Json GoJson

structure Request where
  headers : List (Bytes × Bytes)
  body : Bytes
  deriving DecidableEq

inductive Payload where
  | error (msg : String)
  | products (products : GoSlice Product)
  deriving DecidableEq

def Product.marshal (product : Product) : Bytes :=
  marshalStruct [("id", marshalString product.id), ("owner_id", marshalString product.ownerId),
    ("name", marshalString product.name), ("price", marshalInt product.price),
    ("category", marshalString product.category)]

/-- The body `writeJSON` sets. -/
def Payload.marshal : Payload → Bytes
  | .error msg => marshalStruct [("error", marshalString (Bytes.utf8 msg))]
  | .products .nil => Bytes.utf8 "null"
  | .products (.of listed) => marshalArray (listed.map Product.marshal)

structure Response where
  status : Nat
  payload : Payload
  deriving DecidableEq

structure SearchInput where
  category : Option GoString
  maxPrice : Option Int
  deriving DecidableEq

def writeErr (status : Nat) (msg : String) : Response := ⟨status, .error msg⟩

/-- The values of the entries under a name, in order. -/
def Request.values (request : Request) (name : Bytes) : List Bytes :=
  (request.headers.filter fun entry => Bytes.lower entry.1 == Bytes.lower name).map Prod.snd

/-- `ctx.Request.Header.Peek`: the first value, empty if there is none. -/
def Request.peek (request : Request) (name : Bytes) : Bytes := (request.values name).headD []

def listAll (store : Store) : Response := ⟨200, .products store.all⟩

def listMine (store : Store) (request : Request) : Response :=
  let uid := request.peek (Bytes.utf8 "X-User-Id")
  if uid = [] then writeErr 401 "missing X-User-Id"
  else ⟨200, .products (store.byOwner uid)⟩

def unmarshalSearchInput (data : Bytes) : Option SearchInput :=
  unmarshal ⟨none, none⟩ (fun members => do
    let category ← readField (isField "category") (fun _ => readStringPtr) none members
    let maxPrice ← readField (isField "max_price") (fun _ => readIntPtr) none members
    some ⟨category, maxPrice⟩) data

def search (store : Store) (request : Request) : Response :=
  match unmarshalSearchInput request.body with
  | none => writeErr 400 "invalid json"
  | some input => ⟨200, .products (store.search ⟨input.category, input.maxPrice⟩)⟩

/-- `ListMine` on a request that names one owner. -/
theorem listMine_of_values {toLower : GoString → GoString} {products : List Product} {request : Request}
    {ownerId : GoString} (hvalues : request.values (Bytes.utf8 "X-User-Id") = [ownerId])
    (hne : ownerId ≠ []) :
    listMine (newStore toLower products) request =
      ⟨200, .products (products.filter fun product => product.ownerId == ownerId)⟩ := by
  have hpeek : request.peek (Bytes.utf8 "X-User-Id") = ownerId := by
    rw [Request.peek, hvalues, List.headD_cons]
  simp only [listMine, hpeek]
  rw [if_neg hne, byOwner_newStore]

/-! ### What `Unmarshal` makes of a search body -/

/-- The string a field holds after its last member. -/
def stringAt : Option Value → Option GoString
  | some (.str lit) => some (goString lit)
  | _ => none

/-- The integer a field holds after its last member. -/
def intAt : Option Value → Option Int
  | some (.num lit) => some lit.toInt
  | _ => none

/-- The value is `null`, or an integer literal that fits 64 bits. -/
def IsInt64OrNull (value : Value) : Prop :=
  value = .null ∨ ∃ lit, value = .num lit ∧ lit.isInteger = true ∧ isInt64 lit.toInt = true

theorem readStringPtr_isSome_iff (value : Value) :
    (readStringPtr value).isSome = true ↔ IsStringOrNull value := by
  cases value <;> simp [readStringPtr, IsStringOrNull]

theorem readIntPtr_isSome_iff (value : Value) :
    (readIntPtr value).isSome = true ↔ IsInt64OrNull value := by
  cases value with
  | num lit =>
      simp only [readIntPtr, IsInt64OrNull]
      split
      · rename_i h
        simpa using h
      · rename_i h
        simpa using h
  | _ => simp [readIntPtr, IsInt64OrNull]

theorem stringAt_eq {value : Option Value} (h : ∀ v ∈ value, IsStringOrNull v) :
    (value.bind readStringPtr).getD none = stringAt value := by
  cases value with
  | none => rfl
  | some v =>
      obtain rfl | ⟨lit, rfl⟩ := h v rfl <;> rfl

theorem intAt_eq {value : Option Value} (h : ∀ v ∈ value, IsInt64OrNull v) :
    (value.bind readIntPtr).getD none = intAt value := by
  cases value with
  | none => rfl
  | some v =>
      obtain rfl | ⟨lit, rfl, hinteger, hrange⟩ := h v rfl
      · rfl
      · simp [readIntPtr, hinteger, hrange, intAt]

/-- Every member that names a field of `searchInput`, in any mix of cases, has the field's type. -/
structure FieldsDecode (members : List Member) : Prop where
  category : ∀ member ∈ members, isField "category" member.1 = true → IsStringOrNull member.2
  maxPrice : ∀ member ∈ members, isField "max_price" member.1 = true → IsInt64OrNull member.2

theorem unmarshalSearchInput_obj {data : Bytes} {members : List Member}
    (hparse : parse data = some (.obj members)) (input : SearchInput) :
    unmarshalSearchInput data = some input ↔
      FieldsDecode members ∧ input.category = stringAt (lastValue (isField "category") members) ∧
        input.maxPrice = intAt (lastValue (isField "max_price") members) := by
  obtain ⟨category, maxPrice⟩ := input
  simp only [unmarshalSearchInput, unmarshal, hparse, Option.bind_eq_bind, Option.bind_eq_some_iff,
    readField_eq_some_iff, readStringPtr_isSome_iff, readIntPtr_isSome_iff, Option.some.injEq,
    SearchInput.mk.injEq]
  constructor
  · rintro ⟨_, ⟨hcategory, hfirst⟩, _, ⟨hprice, hsecond⟩, rfl, rfl⟩
    rw [stringAt_eq (lastValue_property _ hcategory)] at hfirst
    rw [intAt_eq (lastValue_property _ hprice)] at hsecond
    exact ⟨⟨hcategory, hprice⟩, hfirst, hsecond⟩
  · rintro ⟨⟨hcategory, hprice⟩, hfirst, hsecond⟩
    rw [← stringAt_eq (lastValue_property _ hcategory)] at hfirst
    rw [← intAt_eq (lastValue_property _ hprice)] at hsecond
    exact ⟨category, ⟨hcategory, hfirst⟩, maxPrice, ⟨hprice, hsecond⟩, rfl, rfl⟩

end ApigateBenchmark.DataService
