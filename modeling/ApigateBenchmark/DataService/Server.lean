import ApigateBenchmark.DataService.Handlers
import ApigateBenchmark.Library.GoDocument

/-!
# The routes of data-service and what they answer with

The rest of `server/handlers.go`, and the table of `server/server.go`. Every body it answers with is a
JSON document, and the document says what the payload is: a listing product by product, an error as its
message, and `null` for a nil slice, which is no listing of the store's.
-/

namespace ApigateBenchmark.DataService

open Json GoJson

/-- `Source` is accepted and ignored. -/
structure LookupInput where
  query : GoString
  limit : Int
  source : GoString
  deriving DecidableEq

def unmarshalLookupInput (data : Bytes) : Option LookupInput :=
  unmarshal ⟨[], 0, []⟩ (fun members => do
    let query ← readField (isField "query") readString [] members
    let limit ← readField (isField "limit") readInteger 0 members
    let source ← readField (isField "source") readString [] members
    some ⟨query, limit, source⟩) data

/-- `none` is a panic of `Store.Lookup`. -/
def lookup (toLower : GoString → GoString) (store : Store) (request : Request) : Option Response :=
  match unmarshalLookupInput request.body with
  | none => some (writeErr 400 "invalid json")
  | some input =>
      (store.lookup toLower ⟨input.query, input.limit⟩).map fun found => ⟨200, .products found⟩

/-- The handler `NewRouter` registers, and its answer. `/health` and what the router answers by itself
are left out. -/
def serve (toLower : GoString → GoString) (store : Store) (method path : String) (request : Request) :
    Option Response :=
  if method = "GET" ∧ path = "/items" then some (listAll store)
  else if method = "GET" ∧ path = "/my-items" then some (listMine store request)
  else if method = "POST" ∧ path = "/items/search" then some (search store request)
  else if method = "POST" ∧ path = "/items/lookup" then lookup toLower store request
  else none

/-! ### The document of a payload -/

def Product.denoted (product : Product) : Denoted :=
  .obj [("id", .str (goText product.id)), ("owner_id", .str (goText product.ownerId)),
    ("name", .str (goText product.name)), ("price", .num (integerLit product.price)),
    ("category", .str (goText product.category))]

def Payload.denoted : Payload → Denoted
  | .error msg => .obj [("error", .str msg)]
  | .products .nil => .null
  | .products (.of listed) => .arr (listed.map Product.denoted)

theorem Product.marshal_denotes (product : Product) :
    WritesDenoted product.marshal product.denoted :=
  marshalStruct_denotes <|
    .cons ⟨rfl, marshalString_denotes product.id⟩ <| .cons ⟨rfl, marshalString_denotes product.ownerId⟩ <|
    .cons ⟨rfl, marshalString_denotes product.name⟩ <| .cons ⟨rfl, marshalInt_denotes product.price⟩ <|
    .cons ⟨rfl, marshalString_denotes product.category⟩ .nil

theorem Payload.marshal_denotes (payload : Payload) : WritesDenoted payload.marshal payload.denoted := by
  cases payload with
  | error msg =>
      have hmsg := marshalString_denotes (Bytes.utf8 msg)
      rw [goText_utf8] at hmsg
      exact marshalStruct_denotes (.cons ⟨rfl, hmsg⟩ .nil)
  | products found =>
      cases found with
      | nil => exact marshalNil_denotes
      | of listed =>
          refine marshalArray_denotes ?_
          rw [List.forall₂_map_left_iff, List.forall₂_map_right_iff, List.forall₂_same]
          exact fun product _ => product.marshal_denotes

/-! ### The payload of a document -/

structure Product.Textual (product : Product) : Prop where
  id : IsUtf8 product.id
  ownerId : IsUtf8 product.ownerId
  name : IsUtf8 product.name
  category : IsUtf8 product.category

/-- Its strings are UTF-8. -/
def Payload.Textual : Payload → Prop
  | .error _ => True
  | .products found => ∀ product ∈ found.items, product.Textual

theorem Product.Textual.eq_of_denoted {product other : Product} (h : product.Textual)
    (h' : other.Textual) (hsame : product.denoted = other.denoted) : product = other := by
  obtain ⟨id, ownerId, name, price, category⟩ := product
  obtain ⟨id', ownerId', name', price', category'⟩ := other
  simp only [denoted, Denoted.obj.injEq, List.cons.injEq, Prod.mk.injEq, Denoted.str.injEq,
    Denoted.num.injEq, true_and, and_true] at hsame
  obtain ⟨hid, howner, hname, hprice, hcategory⟩ := hsame
  obtain rfl := h.id.eq_of_goText h'.id hid
  obtain rfl := h.ownerId.eq_of_goText h'.ownerId howner
  obtain rfl := h.name.eq_of_goText h'.name hname
  obtain rfl := integerLit_injective hprice
  obtain rfl := h.category.eq_of_goText h'.category hcategory
  rfl

theorem eq_of_map_denoted {listed others : List Product} (h : ∀ product ∈ listed, product.Textual)
    (h' : ∀ product ∈ others, product.Textual)
    (hsame : listed.map Product.denoted = others.map Product.denoted) : listed = others := by
  induction listed generalizing others with
  | nil =>
      cases others with
      | nil => rfl
      | cons other others => cases hsame
  | cons product listed ih =>
      cases others with
      | nil => cases hsame
      | cons other others =>
          obtain ⟨hproduct, hlisted⟩ := List.forall_mem_cons.mp h
          obtain ⟨hother, hothers⟩ := List.forall_mem_cons.mp h'
          obtain ⟨hfirst, hrest⟩ := List.cons.inj hsame
          rw [hproduct.eq_of_denoted hother hfirst, ih hlisted hothers hrest]

theorem Payload.eq_of_denoted {payload other : Payload} (h : payload.Textual) (h' : other.Textual)
    (hsame : payload.denoted = other.denoted) : payload = other := by
  match payload, other with
  | .error msg, .error msg' =>
      simp only [denoted, Denoted.obj.injEq, List.cons.injEq, Prod.mk.injEq, Denoted.str.injEq, true_and,
        and_true] at hsame
      rw [hsame]
  | .products .nil, .products .nil => rfl
  | .products (.of listed), .products (.of others) =>
      have hlisted : listed = others := eq_of_map_denoted h h' (Denoted.arr.inj hsame)
      rw [hlisted]
  | .error _, .products .nil | .error _, .products (.of _) | .products .nil, .error _
  | .products (.of _), .error _ | .products .nil, .products (.of _)
  | .products (.of _), .products .nil => cases hsame

/-- Whatever it answers, the body of data-service is a JSON document that denotes the payload: every
product in its place with its fields, a price exactly however large it is. Where the catalogue is in
UTF-8 the body determines the payload, and tells an empty listing from the nil slice. -/
theorem body_denotes_payload (payload : Payload) :
    (parse payload.marshal).bind Value.denoted = some payload.denoted ∧
      (payload.Textual → ∀ other : Payload, other.Textual → other.marshal = payload.marshal →
        other = payload) := by
  refine ⟨payload.marshal_denotes.parse_eq, fun htextual other hother hsame => ?_⟩
  have hdenotes := other.marshal_denotes
  rw [hsame] at hdenotes
  exact Payload.eq_of_denoted hother htextual (eq_of_writesDenoted hdenotes payload.marshal_denotes)

end ApigateBenchmark.DataService
