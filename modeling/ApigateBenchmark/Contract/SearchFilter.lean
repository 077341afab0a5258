import ApigateBenchmark.GatewayPython.Identity
import ApigateBenchmark.GatewayPython.Schemas

/-!
# The filter that was validated and the filter that is applied

The Python gateway decodes a search body, and forwards its bytes; data-service decodes them again. The
two decoders agree on a body exactly when the Go one takes every member that names a field in some mix
of cases, and the last of those has the value of the last member that names it exactly.
-/

namespace ApigateBenchmark.Contract

open Json GoJson GatewayPython DataService

variable (settings : Settings) (decoders : Decoders) (msgspec : Msgspec)

/-- The decoder of `SearchInput` is the one of msgspec, its exceptions aside. -/
def DecodesSearch : Prop :=
  ∀ body, (decoders.search body).toOption = GatewayPython.decodeSearchInput msgspec body

structure AsksSearch (scope : Scope) : Prop where
  method : scope.method = "POST"
  path : scope.path = "/items/search"

theorem bodyDecision_forward {α : Type} {world : World} {decode : Bytes → Except DecodeExc α}
    {make : Bytes → α → UpstreamRequest} {upstream : UpstreamRequest}
    (h : bodyDecision world decode make = .forward upstream) :
    ∃ body rest payload, (readBody world.inbox).status = .returned (body, rest) ∧
      decode body = .ok payload ∧ upstream = make body payload := by
  rw [bodyDecision] at h
  split at h
  · exact absurd h (by simp)
  · exact absurd h (by simp)
  · rename_i body rest hstatus
    obtain ⟨payload, hdecode, hmake⟩ := decodedDecision_forward h
    exact ⟨body, rest, payload, hstatus, hdecode, hmake.symm⟩

/-- What `handle_search` forwards is the body it read, and its decoder takes it. -/
theorem dataRequests_search (hdecodes : DecodesSearch decoders msgspec) {labels : List Label}
    {process : Process} {id : Nat} {task : Task}
    (hrun : Process.run settings decoders labels = some process) (htask : process.tasks[id]? = some task)
    (hsearch : AsksSearch task.scope) {request : DataService.Request}
    (hrequest : request ∈ process.dataRequests id) :
    (∃ rest, (readBody task.world.inbox).status = .returned (request.body, rest)) ∧
      ∃ input, GatewayPython.decodeSearchInput msgspec request.body = some input := by
  have hdecision : decision settings decoders task.scope task.world =
      bodyDecision task.world decoders.search fun body _ => searchRequest settings task.scope body := by
    rw [decision, hsearch.method, hsearch.path]
    rfl
  obtain ⟨call, upstream, hforward, hcall, rfl⟩ := mem_dataRequests settings decoders hrun htask hrequest
  rw [hdecision] at hforward
  obtain ⟨body, rest, payload, hbody, hok, rfl⟩ := bodyDecision_forward hforward
  have hsame : (transmit call.onWire).body = body := by
    change call.request.data.getD [] = body
    rw [hcall]
    rfl
  rw [hsame]
  refine ⟨⟨rest, hbody⟩, payload, ?_⟩
  rw [← hdecodes body, hok]
  rfl

/-! ### When the two decoders agree -/

/-- data-service decodes the body and filters by the validated fields. -/
def AppliesValidated (store : Store) (request : DataService.Request) (input : GatewayPython.SearchInput) :
    Prop :=
  unmarshalSearchInput request.body = some ⟨input.category, input.maxPrice⟩ ∧
    search store request = ⟨200, .products (store.products.items.filter fun product =>
      SearchFilter.Admits ⟨input.category, input.maxPrice⟩ product)⟩

/-- Every member that names a field in some mix of cases has the field's type, an integer fitting 64
bits, and the last of them has the value of the last that names the field exactly. -/
def ReadAlike (body : Bytes) : Prop :=
  ∃ members, parse body = some (.obj members) ∧ FieldsDecode members ∧
    stringAt (lastValue (isField "category") members) = stringAt (lastValue (isKey "category") members) ∧
    intAt (lastValue (isField "max_price") members) = intAt (lastValue (isKey "max_price") members)

theorem readStr_eq_stringAt {value : Option Value} {text : Option Bytes}
    (htype : ∀ v ∈ value, (readStr v).isSome = true) (h : text = (value.bind readStr).getD none) :
    text = stringAt value := by
  cases value with
  | none => exact h
  | some v => cases v with
    | null => exact h
    | str lit =>
        have hsome := htype _ rfl
        obtain ⟨decoded, hdecoded⟩ := Option.isSome_iff_exists.mp (Option.isSome_map.symm.trans hsome)
        have hlit : lit.coerced = decoded := StrLit.coerced_of_decoded hdecoded
        rw [h, Option.bind_some, readStr, hdecoded, stringAt, goString, hlit]
        rfl
    | _ => exact absurd (htype _ rfl) (by simp [readStr])

theorem readInt_eq_intAt {value : Option Value} {n : Option Int}
    (htype : ∀ v ∈ value, IsInt64OrNull v) (h : n = (value.bind (readInt msgspec)).getD none) :
    n = intAt value := by
  cases value with
  | none => exact h
  | some v =>
      obtain rfl | ⟨lit, rfl, hinteger, hrange⟩ := htype v rfl
      · exact h
      · have hfits : (lit.isInteger && fitsInt64 lit.toInt) = true := by
          rw [hinteger, Bool.true_and]
          exact hrange
        rw [h, Option.bind_some, readInt, if_pos hfits]
        rfl

/-- Where both decoders take a body, they agree on it if and only if its members read alike. -/
theorem unmarshal_iff {body : Bytes} {input : GatewayPython.SearchInput}
    (hdecode : GatewayPython.decodeSearchInput msgspec body = some input) :
    unmarshalSearchInput body = some ⟨input.category, input.maxPrice⟩ ↔ ReadAlike body := by
  rw [GatewayPython.decodeSearchInput] at hdecode
  split at hdecode
  · rename_i members hparse
    rw [Option.ite_none_right_eq_some] at hdecode
    obtain ⟨-, hdecode⟩ := hdecode
    simp only [Option.bind_eq_bind, Option.bind_eq_some_iff, readField_eq_some_iff,
      Option.some.injEq] at hdecode
    obtain ⟨category, ⟨hcategory, hfirst⟩, maxPrice, ⟨-, hsecond⟩, rfl⟩ := hdecode
    have htext : category = stringAt (lastValue (isKey "category") members) :=
      readStr_eq_stringAt (lastValue_property _ hcategory) hfirst
    have hnumber : FieldsDecode members → maxPrice = intAt (lastValue (isKey "max_price") members) := by
      intro hfields
      refine readInt_eq_intAt msgspec (lastValue_property _ fun member hmember hkey => ?_) hsecond
      exact hfields.maxPrice member hmember (isField_of_isKey hkey)
    rw [unmarshalSearchInput_obj hparse]
    constructor
    · intro h
      obtain ⟨hfields, hlast, hlastPrice⟩ := h
      exact ⟨members, hparse, hfields, hlast.symm.trans htext, hlastPrice.symm.trans (hnumber hfields)⟩
    · intro h
      obtain ⟨others, hothers, hfields, hlast, hlastPrice⟩ := h
      obtain rfl : others = members := by simpa [hparse] using hothers.symm
      exact ⟨hfields, htext.trans hlast.symm, (hnumber hfields).trans hlastPrice.symm⟩
  · exact absurd hdecode (by simp)

theorem appliesValidated_iff (store : Store) (request : DataService.Request)
    (input : GatewayPython.SearchInput) :
    AppliesValidated store request input ↔
      unmarshalSearchInput request.body = some ⟨input.category, input.maxPrice⟩ := by
  refine and_iff_left_of_imp fun h => ?_
  rw [search, h]
  exact congrArg (fun products => (⟨200, .products products⟩ : Response)) (search_eq store _)

/-- A search that reaches data-service was validated, and is answered by the filter validated exactly
when its members read alike. -/
theorem search_applies_validated_iff (hdecodes : DecodesSearch decoders msgspec) (store : Store)
    {labels : List Label} {process : Process} {id : Nat} {task : Task}
    (hrun : Process.run settings decoders labels = some process) (htask : process.tasks[id]? = some task)
    (hsearch : AsksSearch task.scope) {request : DataService.Request}
    (hrequest : request ∈ process.dataRequests id) :
    (∃ rest, (readBody task.world.inbox).status = .returned (request.body, rest)) ∧
      ∃ input, GatewayPython.decodeSearchInput msgspec request.body = some input ∧
        (AppliesValidated store request input ↔ ReadAlike request.body) := by
  obtain ⟨hbody, input, hinput⟩ :=
    dataRequests_search settings decoders msgspec hdecodes hrun htask hsearch hrequest
  refine ⟨hbody, input, hinput, ?_⟩
  rw [appliesValidated_iff]
  exact unmarshal_iff msgspec hinput

/-- The decoders of the gateway, with a fixed text for every error. -/
def msgspecDecoders (msgspec : Msgspec) : Decoders :=
  { noDecoders with
    search := fun body => match GatewayPython.decodeSearchInput msgspec body with
      | some input => .ok input
      | none => .error (.decodeError "malformed") }

theorem msgspecDecoders_decodes : DecodesSearch (msgspecDecoders msgspec) msgspec := by
  intro body
  simp only [msgspecDecoders]
  cases GatewayPython.decodeSearchInput msgspec body <;> rfl

def searchLabels (body : Bytes) : List Label :=
  [.arrive ⟨"POST", "/items/search", []⟩, .deliver 0 (.message (.request (some body) (some false)))]

def searchProcess (body : Bytes) : Process :=
  (Process.run composeSettings (msgspecDecoders plainMsgspec) (searchLabels body)).getD {}

def searchTask (body : Bytes) : Task where
  scope := ⟨"POST", "/items/search", []⟩
  world := { inbox := [.request (some body) (some false)] }

def officeBody : Bytes := Bytes.utf8 "\x7b\"category\":\"office\",\"max_price\":300\x7d"

/-- The same filter with a capital, which one decoder skips and the other does not. -/
def capitalBody : Bytes := Bytes.utf8 "\x7b\"Category\":\"kitchen\"\x7d"

theorem search_applies_validated_office :
    ∃ input, GatewayPython.decodeSearchInput plainMsgspec officeBody = some input ∧
      (AppliesValidated (newStore id seed) ⟨[], officeBody⟩ input ↔ ReadAlike officeBody) := by
  have hrun : Process.run composeSettings (msgspecDecoders plainMsgspec) (searchLabels officeBody) =
      some (searchProcess officeBody) := by decide +kernel
  have htask : (searchProcess officeBody).tasks[0]? = some (searchTask officeBody) := by decide +kernel
  have hrequest : (⟨[], officeBody⟩ : DataService.Request) ∈ (searchProcess officeBody).dataRequests 0 := by
    have hrequests : (searchProcess officeBody).dataRequests 0 = [⟨[], officeBody⟩] := by decide +kernel
    rw [hrequests]
    exact List.mem_singleton_self _
  exact (search_applies_validated_iff composeSettings _ _ (msgspecDecoders_decodes _) (newStore id seed)
    hrun htask ⟨rfl, rfl⟩ hrequest).2

/-- The client is validated without a filter and served the kitchen. -/
theorem search_capital_category :
    ¬ ∀ (settings : Settings) (decoders : Decoders) (msgspec : Msgspec) (store : Store)
        (labels : List Label) (process : Process) (id : Nat) (task : Task) (request : DataService.Request),
      DecodesSearch decoders msgspec → Process.run settings decoders labels = some process →
      process.tasks[id]? = some task → AsksSearch task.scope → request ∈ process.dataRequests id →
      ∃ input, GatewayPython.decodeSearchInput msgspec request.body = some input ∧
        AppliesValidated store request input := by
  intro h
  have hrun : Process.run composeSettings (msgspecDecoders plainMsgspec) (searchLabels capitalBody) =
      some (searchProcess capitalBody) := by decide +kernel
  have htask : (searchProcess capitalBody).tasks[0]? = some (searchTask capitalBody) := by decide +kernel
  have hrequests : (searchProcess capitalBody).dataRequests 0 = [⟨[], capitalBody⟩] := by decide +kernel
  obtain ⟨input, hinput, happlied, -⟩ := h composeSettings (msgspecDecoders plainMsgspec) plainMsgspec
    (newStore id seed) (searchLabels capitalBody) (searchProcess capitalBody) 0 (searchTask capitalBody)
    ⟨[], capitalBody⟩ (msgspecDecoders_decodes _) hrun htask ⟨rfl, rfl⟩
    (hrequests ▸ List.mem_singleton_self _)
  have hvalidated : GatewayPython.decodeSearchInput plainMsgspec capitalBody = some ⟨none, none⟩ := by
    decide +kernel
  have hkitchen : unmarshalSearchInput capitalBody = some ⟨some (Bytes.utf8 "kitchen"), none⟩ := by decide
  obtain rfl := Option.some.inj (hvalidated.symm.trans hinput)
  rw [hkitchen] at happlied
  exact absurd happlied (by simp)

end ApigateBenchmark.Contract
