import ApigateBenchmark.Library.Bytes
import ApigateBenchmark.Library.GoSlice
import Mathlib.Data.List.Infix

/-!
# The catalogue of data-service

`products/store.go`. A Go string is a byte list and a map is a partial function. `newStore` takes the
product list `NewStore` gets from `seed`, and `strings.ToLower` as a parameter, so that what is said of
the tables it builds holds for every catalogue.
-/

namespace ApigateBenchmark.DataService

abbrev GoString := Bytes

structure Product where
  id : GoString
  ownerId : GoString
  name : GoString
  price : Int
  category : GoString
  deriving DecidableEq

structure Store where
  products : GoSlice Product
  ownerIndex : GoString → Option (GoSlice Product)
  lowerNames : GoSlice GoString

def noProducts : GoSlice Product := .of []

/-- `idx[p.OwnerID] = append(idx[p.OwnerID], p)` -/
def indexProduct (index : GoString → Option (GoSlice Product)) (product : Product) :
    GoString → Option (GoSlice Product) :=
  Function.update index product.ownerId (some (((index product.ownerId).getD .nil).append product))

/-- The loop of `NewStore` from index `i` on; `lower` has its length from the start. -/
def newStoreLoop (toLower : GoString → GoString) (i : Nat) (index : GoString → Option (GoSlice Product))
    (lower : List GoString) : List Product → (GoString → Option (GoSlice Product)) × List GoString
  | [] => (index, lower)
  | product :: rest =>
      newStoreLoop toLower (i + 1) (indexProduct index product) (lower.set i (toLower product.name)) rest

def newStore (toLower : GoString → GoString) (products : List Product) : Store :=
  let (index, lower) :=
    newStoreLoop toLower 0 (fun _ => none) (List.replicate products.length []) products
  { products := products, ownerIndex := index, lowerNames := lower }

def seed : List Product :=
  let product (id ownerId name : String) (price : Int) (category : String) : Product :=
    ⟨Bytes.utf8 id, Bytes.utf8 ownerId, Bytes.utf8 name, price, Bytes.utf8 category⟩
  [product "p1" "u1" "Blue pen" 200 "office",
    product "p2" "u1" "Notebook A5" 500 "office",
    product "p3" "u1" "Paper clips" 50 "office",
    product "p4" "u2" "Ceramic mug" 800 "kitchen",
    product "p5" "u2" "Tea spoon" 100 "kitchen",
    product "p6" "u3" "Desk lamp" 3000 "home",
    product "p7" "u3" "Floor mat" 1500 "home"]

def Store.all (store : Store) : GoSlice Product := store.products

def Store.byOwner (store : Store) (ownerId : GoString) : GoSlice Product :=
  match store.ownerIndex ownerId with
  | some products => products
  | none => noProducts

structure SearchFilter where
  category : Option GoString
  maxPrice : Option Int
  deriving DecidableEq

/-- The loop of `Search`, with the two `continue` branches in their order. -/
def searchLoop (filter : SearchFilter) (out : List Product) : List Product → List Product
  | [] => out
  | product :: rest =>
      if filter.category.any fun category => product.category != category then
        searchLoop filter out rest
      else if filter.maxPrice.any fun maxPrice => product.price > maxPrice then
        searchLoop filter out rest
      else searchLoop filter (out ++ [product]) rest

def Store.search (store : Store) (filter : SearchFilter) : GoSlice Product :=
  searchLoop filter [] store.products.items

structure LookupQuery where
  query : GoString
  limit : Int
  deriving DecidableEq

/-- `strings.Contains` -/
def contains (s substr : GoString) : Bool := decide (substr <:+: s)

/-- The loop of `Lookup` from index `i` on. -/
def lookupLoop (lowerNames : GoSlice GoString) (needle : GoString) (limit : Int) (i : Nat)
    (out : GoSlice Product) : List Product → Option (GoSlice Product)
  | [] => some out
  | product :: rest => do
      let name ← lowerNames.index i
      if !contains name needle then lookupLoop lowerNames needle limit (i + 1) out rest
      else
        let out := out.append product
        if limit > 0 ∧ out.len ≥ limit then some out
        else lookupLoop lowerNames needle limit (i + 1) out rest

/-- `Lookup`, with `strings.ToLower`; `none` is a panic. -/
def Store.lookup (toLower : GoString → GoString) (store : Store) (q : LookupQuery) :
    Option (GoSlice Product) :=
  if q.query = [] then
    if q.limit > 0 ∧ q.limit < store.products.len then store.products.upTo q.limit
    else some store.products
  else
    lookupLoop store.lowerNames (toLower q.query) q.limit 0 (.of []) store.products.items

/-! ### What the loops compute -/

/-- The loop of `NewStore` builds its two tables independently of one another. -/
theorem newStoreLoop_index (toLower : GoString → GoString) (i : Nat)
    (index : GoString → Option (GoSlice Product)) (lower : List GoString) (products : List Product) :
    (newStoreLoop toLower i index lower products).1 = products.foldl indexProduct index := by
  induction products generalizing i index lower with
  | nil => rfl
  | cons product products ih => exact ih (i + 1) (indexProduct index product) _

/-- Place by place, the names to come take the place of what was there. -/
theorem newStoreLoop_lower (toLower : GoString → GoString) (index : GoString → Option (GoSlice Product))
    (done pending : List GoString) (products : List Product) (hlength : pending.length = products.length) :
    (newStoreLoop toLower done.length index (done ++ pending) products).2 =
      done ++ products.map fun product => toLower product.name := by
  induction products generalizing index done pending with
  | nil =>
      rw [List.eq_nil_of_length_eq_zero hlength]
      rfl
  | cons product products ih =>
      cases pending with
      | nil => simp at hlength
      | cons name pending =>
          have hset : (done ++ name :: pending).set done.length (toLower product.name) =
              (done ++ [toLower product.name]) ++ pending := by
            rw [List.set_append_right _ _ (Nat.le_refl _), Nat.sub_self, List.set_cons_zero,
              List.append_assoc]
            rfl
          have hrest := ih (indexProduct index product) (done ++ [toLower product.name]) pending
            (by simpa using hlength)
          rw [newStoreLoop, hset]
          rw [List.length_append, List.length_singleton] at hrest
          rw [hrest, List.append_assoc]
          rfl

/-- Each lowered name stands at the index of its product. -/
theorem lowerNames_newStore (toLower : GoString → GoString) (products : List Product) :
    (newStore toLower products).lowerNames = .of (products.map fun product => toLower product.name) := by
  have hlower := newStoreLoop_lower toLower (fun _ => none) [] (List.replicate products.length []) products
    List.length_replicate
  exact congrArg GoSlice.of hlower

/-- Indexing a list of products appends to each owner's entry the products of that owner. -/
theorem foldl_indexProduct (index : GoString → Option (GoSlice Product)) (products : List Product)
    (ownerId : GoString) :
    (((products.foldl indexProduct index) ownerId).getD .nil).items =
      ((index ownerId).getD .nil).items ++ products.filter fun product => product.ownerId == ownerId := by
  induction products generalizing index with
  | nil => rw [List.foldl_nil, List.filter_nil, List.append_nil]
  | cons product products ih =>
      rw [List.foldl_cons, ih (indexProduct index product), indexProduct]
      by_cases howner : product.ownerId = ownerId
      · rw [howner, Function.update_self, Option.getD_some, GoSlice.items_append, List.append_assoc,
          List.filter_cons_of_pos (by simpa using howner)]
        rfl
      · rw [Function.update_of_ne (Ne.symm howner), List.filter_cons_of_neg (by simpa using howner)]

/-- An entry of the index is the result of `append`, and so never `nil`. -/
theorem foldl_indexProduct_ne_nil {index : GoString → Option (GoSlice Product)}
    (hindex : ∀ ownerId, index ownerId ≠ some .nil) (products : List Product) (ownerId : GoString) :
    products.foldl indexProduct index ownerId ≠ some .nil := by
  induction products generalizing index with
  | nil => exact hindex ownerId
  | cons product products ih =>
      apply ih
      intro other
      rw [indexProduct]
      by_cases howner : other = product.ownerId
      · rw [howner, Function.update_self]
        simp [GoSlice.append]
      · rw [Function.update_of_ne howner]
        exact hindex other

/-- `ByOwner` answers with the products of that owner, in catalogue order. -/
theorem byOwner_newStore (toLower : GoString → GoString) (products : List Product) (ownerId : GoString) :
    (newStore toLower products).byOwner ownerId =
      .of (products.filter fun product => product.ownerId == ownerId) := by
  have hitems := foldl_indexProduct (fun _ => none) products ownerId
  have hempty : ∀ other : GoString, (fun _ => none) other ≠ some (GoSlice.nil (α := Product)) := by simp
  have hnil := foldl_indexProduct_ne_nil hempty products ownerId
  have hindex : (newStore toLower products).ownerIndex = products.foldl indexProduct fun _ => none :=
    newStoreLoop_index toLower 0 _ _ products
  rw [Store.byOwner, hindex]
  cases hentry : products.foldl indexProduct (fun _ => none) ownerId with
  | none =>
      rw [hentry] at hitems
      exact congrArg GoSlice.of hitems
  | some owned => cases owned with
    | nil => exact absurd hentry hnil
    | of owned =>
        rw [hentry] at hitems
        exact congrArg GoSlice.of hitems

/-- A product passes the filter. -/
def SearchFilter.Admits (filter : SearchFilter) (product : Product) : Prop :=
  (∀ category, filter.category = some category → product.category = category) ∧
    ∀ maxPrice, filter.maxPrice = some maxPrice → product.price ≤ maxPrice

/-- A product passes the filter exactly when neither `continue` is taken. -/
theorem SearchFilter.admits_iff (filter : SearchFilter) (product : Product) :
    filter.Admits product ↔
      ¬ (filter.category.any fun category => product.category != category) = true ∧
        ¬ (filter.maxPrice.any fun maxPrice => product.price > maxPrice) = true := by
  obtain ⟨category, maxPrice⟩ := filter
  cases category <;> cases maxPrice <;> simp [SearchFilter.Admits]

instance (filter : SearchFilter) (product : Product) : Decidable (filter.Admits product) :=
  decidable_of_iff _ (filter.admits_iff product).symm

theorem searchLoop_eq (filter : SearchFilter) (out products : List Product) :
    searchLoop filter out products = out ++ products.filter fun product => filter.Admits product := by
  induction products generalizing out with
  | nil => rw [searchLoop, List.filter_nil, List.append_nil]
  | cons product products ih =>
      have hadmits := filter.admits_iff product
      rw [searchLoop, ih, ih]
      split
      · rename_i hcategory
        have hskipped : ¬ filter.Admits product := fun h => (hadmits.mp h).1 hcategory
        rw [List.filter_cons_of_neg (by simpa using hskipped)]
      · rename_i hcategory
        split
        · rename_i hprice
          have hskipped : ¬ filter.Admits product := fun h => (hadmits.mp h).2 hprice
          rw [List.filter_cons_of_neg (by simpa using hskipped)]
        · rename_i hprice
          have hkept : filter.Admits product := hadmits.mpr ⟨hcategory, hprice⟩
          rw [List.filter_cons_of_pos (by simpa using hkept), List.append_assoc]
          rfl

/-- `Search` answers with the products that pass the filter, in catalogue order. -/
theorem search_eq (store : Store) (filter : SearchFilter) :
    store.search filter = .of (store.products.items.filter fun product => filter.Admits product) := by
  rw [Store.search, searchLoop_eq, List.nil_append]

end ApigateBenchmark.DataService
