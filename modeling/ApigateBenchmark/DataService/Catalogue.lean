import ApigateBenchmark.DataService.Products
import Mathlib.Data.List.Dedup
import Mathlib.Data.List.Perm.Basic

/-!
# The tables of the catalogue against the catalogue

`NewStore` computes two tables beside the list of products, and `ByOwner` and `Lookup` read them in its
place. The owner index is the list, cut up by owner; the table of lowered names lets `Lookup` filter the
list, and stopping early or cutting the list to size is the same as filtering all of it and truncating.
-/

namespace ApigateBenchmark.DataService

/-! ### A list cut up by a key -/

/-- The groups of the given keys, together, are what has one of the keys. -/
theorem flatMap_filter_perm {α κ : Type} [DecidableEq κ] [BEq κ] [LawfulBEq κ] (key : α → κ) (l : List α) {keys : List κ}
    (hkeys : keys.Nodup) :
    (keys.flatMap fun k => l.filter fun x => key x == k).Perm (l.filter fun x => key x ∈ keys) := by
  induction keys with
  | nil => simp
  | cons k keys ih =>
      obtain ⟨hfresh, hrest⟩ := List.nodup_cons.mp hkeys
      have hfirst : (l.filter fun x => key x ∈ k :: keys).filter (fun x => key x == k) =
          l.filter fun x => key x == k := by
        rw [List.filter_filter]
        apply List.filter_congr
        intro x _
        by_cases hx : key x = k <;> simp [hx]
      have hothers : (l.filter fun x => key x ∈ k :: keys).filter (fun x => !(key x == k)) =
          l.filter fun x => key x ∈ keys := by
        rw [List.filter_filter]
        apply List.filter_congr
        intro x _
        by_cases hx : key x = k
        · simp [hx, hfresh]
        · simp [hx]
      have hsplit := List.filter_append_perm (fun x => key x == k) (l.filter fun x => key x ∈ k :: keys)
      rw [hfirst, hothers] at hsplit
      rw [List.flatMap_cons]
      exact ((ih hrest).append_left _).trans hsplit

/-- The groups of all keys that occur are the list. -/
theorem groups_perm {α κ : Type} [DecidableEq κ] [BEq κ] [LawfulBEq κ] (key : α → κ) (l : List α) :
    ((l.map key).dedup.flatMap fun k => l.filter fun x => key x == k).Perm l := by
  have hall : l.filter (fun x => key x ∈ (l.map key).dedup) = l := by
    apply List.filter_eq_self.mpr
    intro x hx
    simpa using ⟨x, hx, rfl⟩
  have hgroups := flatMap_filter_perm key l (List.nodup_dedup (l.map key))
  rwa [hall] at hgroups

/-! ### The owner index -/

/-- For every id `ByOwner` answers with the products of `All` with that owner, in the same order and as
often, never with `nil`; and the lists of the distinct owners together are a permutation of `All`. -/
theorem ownerIndex_partitions (toLower : GoString → GoString) (products : List Product) :
    (newStore toLower products).all = .of products ∧
      (∀ ownerId, (newStore toLower products).byOwner ownerId =
        .of (products.filter fun product => product.ownerId == ownerId)) ∧
      (∀ ownerId, ownerId ∉ products.map Product.ownerId →
        (newStore toLower products).byOwner ownerId = .of []) ∧
      ((products.map Product.ownerId).dedup.flatMap fun ownerId =>
        ((newStore toLower products).byOwner ownerId).items).Perm products := by
  have howned := byOwner_newStore toLower products
  refine ⟨rfl, howned, fun ownerId habsent => ?_, ?_⟩
  · have hnone : products.filter (fun product => product.ownerId == ownerId) = [] := by
      apply List.filter_eq_nil_iff.mpr
      intro product hproduct howner
      exact habsent (List.mem_map.mpr ⟨product, hproduct, beq_iff_eq.mp howner⟩)
    rw [howned, hnone]
  · simp only [howned, GoSlice.items_of]
    exact groups_perm Product.ownerId products

/-! ### `Lookup` -/

/-- The first `limit` elements; all of them if the limit is not positive. -/
def truncate {α : Type} (limit : Int) (l : List α) : List α := if limit ≤ 0 then l else l.take limit.toNat

theorem truncate_append_of_full {α : Type} {limit : Int} {out : List α} (hpos : 0 < limit)
    (hfull : limit = out.length) (rest : List α) : truncate limit (out ++ rest) = out := by
  have hlimit : limit.toNat = out.length := by omega
  rw [truncate, if_neg (by omega), hlimit, List.take_left]

theorem truncate_of_room {α : Type} {limit : Int} {l : List α} (hroom : 0 < limit → l.length ≤ limit) :
    truncate limit l = l := by
  rw [truncate]
  split
  · rfl
  · have hpos : 0 < limit := by omega
    have hlength := hroom hpos
    exact List.take_of_length_le (by omega)

/-- The products whose lowered name contains the needle. -/
def matching (toLower : GoString → GoString) (needle : GoString) (products : List Product) : List Product :=
  products.filter fun product => contains (toLower product.name) needle

theorem matching_empty (toLower : GoString → GoString) (products : List Product) :
    matching toLower [] products = products := by
  apply List.filter_eq_self.mpr
  intro product _
  simp [contains]

/-- From index `i` on the loop goes through the products that are left, finds the name of each at its
index, and keeps what matches as long as there is room. -/
theorem lookupLoop_eq (toLower : GoString → GoString) (needle : GoString) (limit : Int)
    {done rest : List Product} {names : GoSlice GoString}
    (hnames : names = .of ((done ++ rest).map fun product => toLower product.name)) (out : List Product)
    (hroom : 0 < limit → out.length < limit) :
    lookupLoop names needle limit done.length (.of out) rest =
      some (.of (truncate limit (out ++ matching toLower needle rest))) := by
  induction rest generalizing done out with
  | nil =>
      have hkeep : 0 < limit → (out.length : Int) ≤ limit := fun hpos => Int.le_of_lt (hroom hpos)
      rw [lookupLoop, matching, List.filter_nil, List.append_nil, truncate_of_room hkeep]
  | cons product rest ih =>
      have hindex : names.index done.length = some (toLower product.name) := by
        rw [hnames, GoSlice.index, GoSlice.items_of, List.map_append, List.map_cons,
          List.getElem?_append_right (by simp)]
        simp
      have hnext : names = .of (((done ++ [product]) ++ rest).map fun product => toLower product.name) := by
        rw [hnames, List.append_assoc]
        rfl
      have hlength : (done ++ [product]).length = done.length + 1 := by simp
      rw [lookupLoop, hindex, Option.bind_eq_bind, Option.bind_some, ← hlength]
      cases hmatch : contains (toLower product.name) needle with
      | false =>
          have hskip : matching toLower needle (product :: rest) = matching toLower needle rest :=
            List.filter_cons_of_neg (by simp [hmatch])
          rw [hskip]
          exact ih hnext out hroom
      | true =>
          have hkeep : matching toLower needle (product :: rest) = product :: matching toLower needle rest :=
            List.filter_cons_of_pos hmatch
          have hsplit : out ++ product :: matching toLower needle rest =
              (out ++ [product]) ++ matching toLower needle rest := List.append_cons _ _ _
          have hlen : ((GoSlice.of out).append product).len = out.length + 1 := GoSlice.len_append _ _
          rw [hkeep, hsplit]
          simp only [Bool.not_true, Bool.false_eq_true, if_false, hlen]
          split
          · rename_i hfull
            have hbefore := hroom hfull.1
            rw [truncate_append_of_full hfull.1 (by simp only [List.length_append, List.length_singleton]; omega)]
            rfl
          · rename_i hmore
            refine ih hnext (out ++ [product]) fun hpos => ?_
            have hless : ¬ ((out.length + 1 : Nat) : Int) ≥ limit := fun hge => hmore ⟨hpos, hge⟩
            simp only [List.length_append, List.length_singleton]
            omega

/-- `Lookup` filters the catalogue by the query and truncates what is left; it neither panics nor
answers with `nil`, and the empty query matches every product. -/
theorem lookup_eq_truncate_matching {toLower : GoString → GoString} (hempty : toLower [] = [])
    (products : List Product) (q : LookupQuery) :
    (newStore toLower products).lookup toLower q =
        some (.of (truncate q.limit (matching toLower (toLower q.query) products))) ∧
      matching toLower (toLower []) products = products := by
  have hproducts : (newStore toLower products).products = .of products := rfl
  have hall : matching toLower (toLower []) products = products := by
    rw [hempty]
    exact matching_empty toLower products
  have hnames : (newStore toLower products).lowerNames =
      .of ((([] : List Product) ++ products).map fun product => toLower product.name) := lowerNames_newStore toLower products
  refine ⟨?_, hall⟩
  rw [Store.lookup, hproducts]
  split
  · rename_i hquery
    rw [hquery, hall]
    split
    · rename_i hcut
      have hhigh : q.limit ≤ products.length := Int.le_of_lt hcut.2
      rw [GoSlice.upTo_of (by omega) hhigh, truncate, if_neg (by omega)]
    · rename_i hwhole
      rw [truncate_of_room]
      intro hpos
      simp only [not_and, GoSlice.len, GoSlice.items_of] at hwhole
      have hle := hwhole hpos
      omega
  · exact lookupLoop_eq toLower (toLower q.query) q.limit hnames [] fun hpos => by simpa using hpos

/-- Two names match, and the limit keeps the first. -/
theorem lookup_eq_truncate_matching_seed :
    (newStore Bytes.lower seed).lookup Bytes.lower ⟨Bytes.utf8 "PE", 1⟩ =
      some (.of (truncate 1 (matching Bytes.lower (Bytes.lower (Bytes.utf8 "PE")) seed))) :=
  (lookup_eq_truncate_matching rfl seed ⟨Bytes.utf8 "PE", 1⟩).1

end ApigateBenchmark.DataService
