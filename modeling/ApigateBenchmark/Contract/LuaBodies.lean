import ApigateBenchmark.DataService.Handlers
import ApigateBenchmark.GatewayLua.Transforms

/-!
# What data-service makes of the bodies the Lua gateways let through

`M.validate` looks at the last `category` and `max_price` of a table, as cjson read them, and lets the
bytes pass. data-service decodes the bytes: it asks for an object, compares names without regard to
case, looks at every member they name, and takes no literal of an integer but a plain one.
-/

namespace ApigateBenchmark.Contract

open Json GoJson GatewayLua DataService

variable (doubles : Doubles) (cjson : Cjson doubles)

/-- The body is the text of an object whose members decode into the fields they name. -/
def BodyDecodes (body : Bytes) : Prop :=
  ∃ members, parse body = some (.obj members) ∧ FieldsDecode members

theorem unmarshalSearchInput_isSome_iff {body : Bytes} (hnull : ∀ tree, parse body = some tree → tree ≠ .null) :
    (unmarshalSearchInput body).isSome = true ↔ BodyDecodes body := by
  constructor
  · intro h
    obtain ⟨input, hinput⟩ := Option.isSome_iff_exists.mp h
    cases hparse : parse body with
    | none => simp [unmarshalSearchInput, unmarshal, hparse] at hinput
    | some tree => cases tree with
      | obj members => exact ⟨members, hparse, ((unmarshalSearchInput_obj hparse input).mp hinput).1⟩
      | null => exact absurd rfl (hnull _ hparse)
      | _ => simp [unmarshalSearchInput, unmarshal, hparse] at hinput
  · intro h
    obtain ⟨members, hparse, hfields⟩ := h
    have hinput := (unmarshalSearchInput_obj hparse
      ⟨stringAt (lastValue (isField "category") members),
        intAt (lastValue (isField "max_price") members)⟩).mpr ⟨hfields, rfl, rfl⟩
    rw [hinput]
    rfl

/-- `Search` answers with an error exactly when the body does not decode. -/
theorem search_eq_invalid_iff (store : Store) (request : Request) :
    search store request = writeErr 400 "invalid json" ↔ unmarshalSearchInput request.body = none := by
  rw [search]
  cases unmarshalSearchInput request.body <;> simp [writeErr]

/-- A body that passed the validator of Kong or of APISIX is answered 400 by data-service unless its
members decode into the fields they name. -/
theorem validated_search_decodes_iff (hcjson : DecodesJson doubles cjson) (store : Store)
    {request : Request}
    (hpassed : kongValidate doubles cjson request.body = none ∨
      apisixValidate doubles cjson (some request.body) = none) :
    search store request ≠ writeErr 400 "invalid json" ↔ BodyDecodes request.body := by
  have hnull : ∀ tree, parse request.body = some tree → tree ≠ .null := by
    intro tree hparse htree
    subst htree
    obtain ⟨hkong, hapisix⟩ := validate_null doubles cjson hcjson hparse
    exact hpassed.elim hkong hapisix
  have hdecodes := unmarshalSearchInput_isSome_iff hnull
  rw [← hdecodes, Ne, search_eq_invalid_iff, ← Option.not_isSome_iff_eq_none, not_not]

def officeText : Bytes := Bytes.utf8 "\x7b\"category\":\"office\",\"max_price\":300\x7d"

theorem validated_search_decodes_office :
    search (newStore id seed) ⟨[], officeText⟩ ≠ writeErr 400 "invalid json" ↔ BodyDecodes officeText := by
  have hpassed : kongValidate decimals strictCjson officeText = none := by decide +kernel
  exact validated_search_decodes_iff decimals strictCjson strictCjson_decodes (newStore id seed)
    (Or.inl hpassed)

/-- An empty array is a table without a `category`. -/
theorem validated_array_rejected :
    ¬ ∀ (doubles : Doubles) (cjson : Cjson doubles) (store : Store) (request : Request),
      DecodesJson doubles cjson →
      kongValidate doubles cjson request.body = none ∨
        apisixValidate doubles cjson (some request.body) = none →
      search store request ≠ writeErr 400 "invalid json" := by
  intro h
  have hpassed : kongValidate decimals strictCjson (Bytes.utf8 "[]") = none := by decide +kernel
  have hrejected : search (newStore id seed) ⟨[], Bytes.utf8 "[]"⟩ = writeErr 400 "invalid json" := by decide +kernel
  exact h decimals strictCjson (newStore id seed) ⟨[], Bytes.utf8 "[]"⟩ strictCjson_decodes
    (Or.inl hpassed) hrejected

end ApigateBenchmark.Contract
