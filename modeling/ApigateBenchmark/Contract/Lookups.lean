import ApigateBenchmark.Contract.Admission
import ApigateBenchmark.Contract.LookupQuery
import ApigateBenchmark.Contract.LookupResults

/-!
# A lookup through each of the four gateways

Four decoders read the client's body, four encoders write the internal one, and data-service decodes
whatever they write: it finds the three fields in any order. So what the client gets is decided by the
string alone, and by what the gateway takes for white space around it. The string is the last `q` of an
object; the Rust gateway takes it from an array, too.
-/

namespace ApigateBenchmark.Contract

open Json GoJson DataService
open GatewayLua (Doubles Cjson LuaValue DecodesJson kongRemap apisixRemap)

/-- The two encoders that are not written out in the gateways. -/
structure Encoders where
  /-- `serde_json` on the struct. -/
  serde : GatewayApigate.LookupInternal → Bytes
  /-- `cjson.encode` on the table. -/
  cjson : GatewayLua.LookupInternal → Bytes

/-- serde writes the fields as they are declared, cjson writes those of a table in no particular order. -/
structure Encoders.Documented (e : Encoders) : Prop where
  serde : ∀ internal, WritesDenoted (e.serde internal)
    (.obj (lookupFields internal.query internal.limit internal.source))
  cjson : ∀ query, ∃ entries,
    entries.Perm (lookupFields query GatewayLua.lookupLimit GatewayLua.lookupSource) ∧
    WritesDenoted (e.cjson ⟨some (Bytes.utf8 query), GatewayLua.lookupLimit, GatewayLua.lookupSource⟩)
      (.obj entries)

/-- The body the gateway sends on. -/
def rewrites (e : Encoders) (msgspec : GatewayPython.Msgspec) (doubles : Doubles) (cjson : Cjson doubles)
    (body : Bytes) : Gateway → Option Bytes
  | .python => (GatewayPython.decodeLookupInput msgspec body).map fun payload =>
      GatewayPython.encodeLookup (GatewayPython.lookupInternal payload)
  | .apigate => (GatewayApigate.decodeLookupInput body).map fun input =>
      e.serde (GatewayApigate.remapLookup input)
  | .kong => (kongRemap doubles cjson body).toOption.map e.cjson
  | .apisix => (apisixRemap doubles cjson (some body)).toOption.map e.cjson

/-- What is left of the string. -/
def Gateway.trims : Gateway → String → String
  | .python, q => GatewayPython.strip q
  | .apigate, q => GatewayApigate.trim q
  | _, q => String.ofList (WhiteSpace.trim WhiteSpace.isAsciiSpaceChar q.toList)

/-- The string the gateway takes from the body. -/
inductive Gateway.Reads : Gateway → Value → String → Prop
  | member (gateway : Gateway) {members : List Member} {q : String} (h : ReadsQ members q) :
      gateway.Reads (.obj members) q
  | field {lit : StrLit} {q : String} (h : lit.decoded = some q) : Gateway.apigate.Reads (.arr [.str lit]) q

variable {e : Encoders} {msgspec : GatewayPython.Msgspec} {doubles : Doubles} {cjson : Cjson doubles}

/-- Nothing but ASCII white space around the string: the four leave the same of it. -/
theorem trims_eq_strip {q : String} (h : OnlyAsciiAround q) (gateway : Gateway) :
    gateway.trims q = GatewayPython.strip q := by
  have hsame := (sameQuery_iff q GatewayLua.lookupLimit GatewayLua.lookupSource).mpr h
  have hlua : String.ofList (WhiteSpace.trim WhiteSpace.isAsciiSpaceChar q.toList) =
      GatewayPython.strip q := by
    have hkong := hsame.kong
    simp only [GatewayLua.trim_eq, WhiteSpace.trim_utf8, Option.some.injEq] at hkong
    exact Bytes.utf8_injective hkong
  cases gateway with
  | python => rfl
  | apigate => exact hsame.rust
  | kong => exact hlua
  | apisix => exact hlua

theorem ok_of_toOption {ε α : Type} {result : Except ε α} {a : α} (h : result.toOption = some a) :
    result = .ok a := by
  cases result with
  | error err => cases h
  | ok b => exact congrArg Except.ok (Option.some.inj h)

theorem python_takes {body : Bytes} {tree : Value} (hparse : parse body = some tree)
    {payload : GatewayPython.LookupInput}
    (h : GatewayPython.decodeLookupInput msgspec body = some payload) :
    Gateway.python.Reads tree payload.q := by
  cases tree with
  | obj members => exact .member _ (python_reads hparse h)
  | _ => simp only [GatewayPython.decodeLookupInput, hparse, reduceCtorEq] at h

theorem apigate_takes {body : Bytes} {tree : Value} (hparse : parse body = some tree)
    {input : GatewayApigate.LookupInput} (h : GatewayApigate.decodeLookupInput body = some input) :
    Gateway.apigate.Reads tree input.q := by
  rw [GatewayApigate.decodeLookupInput, hparse] at h
  split at h
  · rename_i members htree
    obtain rfl := Option.some.inj htree
    exact .member _ (rust_reads hparse (by rw [GatewayApigate.decodeLookupInput, hparse, ← h]))
  · rename_i first htree
    obtain rfl := Option.some.inj htree
    simp only [Option.bind_eq_bind, Option.bind_eq_some_iff, Option.map_eq_some_iff] at h
    obtain ⟨read, hread, q, rfl, rfl⟩ := h
    cases first with
    | str lit =>
        rw [GatewayApigate.readStrRef, Option.ite_none_right_eq_some, Option.map_eq_some_iff] at hread
        obtain ⟨-, text, htext, hq⟩ := hread
        obtain rfl := Option.some.inj hq
        exact .field htext
    | _ => cases hread
  · cases h

/-- The body holds the string the client sent, trimmed, in a document of the three fields. -/
theorem rewrites_denotes (he : e.Documented) (hcjson : DecodesJson doubles cjson) {text : String}
    {tree : Value} (hparse : parse (Bytes.utf8 text) = some tree) {gateway : Gateway} {body : Bytes}
    (hsent : rewrites e msgspec doubles cjson (Bytes.utf8 text) gateway = some body) :
    ∃ q entries source, gateway.Reads tree q ∧
      entries.Perm (lookupFields (gateway.trims q) GatewayPython.lookupLimit source) ∧
      WritesDenoted body (.obj entries) := by
  have hwell : tree.paired = true → tree.wellFormed = true := (wellFormed_eq_paired hparse).trans
  have hlua : ∀ {value : LuaValue doubles} {internal : GatewayLua.LookupInternal},
      cjson (Bytes.utf8 text) = some value → GatewayLua.remapBody doubles value = .ok internal →
      e.cjson internal = body → ∃ members q entries source, tree = .obj members ∧ ReadsQ members q ∧
        entries.Perm (lookupFields (Gateway.kong.trims q) GatewayPython.lookupLimit source) ∧
        WritesDenoted body (.obj entries) := by
    intro value internal hvalue hremap hbody
    obtain ⟨members, q, htree, hq, rfl⟩ := lua_reads doubles cjson hcjson hparse hwell hvalue hremap
    obtain ⟨entries, hperm, hdenotes⟩ := he.cjson (Gateway.kong.trims q)
    rw [GatewayLua.trim_eq, WhiteSpace.trim_utf8] at hbody
    exact ⟨members, q, entries, _, htree, hq, hperm, hbody ▸ hdenotes⟩
  cases gateway with
  | python =>
      obtain ⟨payload, hpayload, rfl⟩ := Option.map_eq_some_iff.mp hsent
      exact ⟨payload.q, _, _, python_takes hparse hpayload, List.Perm.refl _,
        GatewayPython.encodeLookup_denotes _⟩
  | apigate =>
      obtain ⟨input, hinput, rfl⟩ := Option.map_eq_some_iff.mp hsent
      exact ⟨input.q, _, _, apigate_takes hparse hinput, List.Perm.refl _, he.serde _⟩
  | kong =>
      obtain ⟨internal, hinternal, hbody⟩ := Option.map_eq_some_iff.mp hsent
      obtain ⟨value, hvalue, hremap⟩ :=
        GatewayLua.decoded_of_kongRemap doubles cjson (ok_of_toOption hinternal)
      obtain ⟨members, q, entries, source, rfl, hq, hdocument⟩ := hlua hvalue hremap hbody
      exact ⟨q, entries, source, .member _ hq, hdocument⟩
  | apisix =>
      obtain ⟨internal, hinternal, hbody⟩ := Option.map_eq_some_iff.mp hsent
      obtain ⟨value, hvalue, hremap⟩ :=
        GatewayLua.decoded_of_apisixRemap doubles cjson (ok_of_toOption hinternal)
      obtain ⟨members, q, entries, source, rfl, hq, hdocument⟩ := hlua hvalue hremap hbody
      exact ⟨q, entries, source, .member _ hq, hdocument⟩

/-- Whichever gateway sends a lookup on, data-service answers 200 with the first twenty products whose
lowered name contains what the gateway has left of the string; if only ASCII white space surrounds the
string, that is the same list through all four. -/
theorem lookups_agree (he : e.Documented) (hcjson : DecodesJson doubles cjson)
    {toLower : GoString → GoString} (hempty : toLower [] = []) (products : List Product) {text : String}
    {tree : Value} (hparse : parse (Bytes.utf8 text) = some tree) {gateway : Gateway} {body : Bytes}
    (hsent : rewrites e msgspec doubles cjson (Bytes.utf8 text) gateway = some body) :
    ∃ q found, gateway.Reads tree q ∧
      found = (matching toLower (toLower (Bytes.utf8 (gateway.trims q))) products).take
        GatewayPython.lookupLimit ∧
      (∀ headers, DataService.lookup toLower (newStore toLower products) ⟨headers, body⟩ =
        some ⟨200, .products (.of found)⟩) ∧
      (OnlyAsciiAround q → found = lookupResults toLower products q) := by
  obtain ⟨q, entries, source, hq, hperm, hdenotes⟩ := rewrites_denotes he hcjson hparse hsent
  refine ⟨q, _, hq, rfl, fun headers => ?_, fun honly => ?_⟩
  · have hbody : WritesDenoted (Request.mk headers body).body (.obj entries) := hdenotes
    exact lookup_of_denoted hempty products hperm hbody
  · rw [trims_eq_strip honly, lookupResults]

/-- A table's fields in the order they happened to be in. -/
def tableEncoders : Encoders where
  serde internal := GatewayPython.encodeLookup ⟨internal.query, internal.limit, internal.source⟩
  cjson internal := marshalStruct [("limit", marshalInt internal.limit),
    ("source", marshalString (Bytes.utf8 internal.source)),
    ("query", marshalString (internal.query.getD []))]

theorem tableEncoders_denotes (query source : String) (limit : Nat) :
    ∃ entries, entries.Perm (lookupFields query limit source) ∧
      WritesDenoted (tableEncoders.cjson ⟨some (Bytes.utf8 query), limit, source⟩) (.obj entries) := by
  have hquery := marshalString_denotes (Bytes.utf8 query)
  have hsource := marshalString_denotes (Bytes.utf8 source)
  rw [goText_utf8] at hquery hsource
  refine ⟨[("limit", .num (integerLit limit)), ("source", .str source)] ++ [("query", .str query)],
    List.perm_append_comm, ?_⟩
  exact marshalStruct_denotes <|
    .cons ⟨rfl, marshalInt_denotes limit⟩ <| .cons ⟨rfl, hsource⟩ <| .cons ⟨rfl, hquery⟩ .nil

theorem tableEncoders_documented : tableEncoders.Documented := by
  constructor
  · intro internal
    dsimp only [tableEncoders, lookupFields]
    exact GatewayPython.encodeLookup_denotes _
  · intro query
    exact tableEncoders_denotes query _ _

theorem lookups_agree_pen : ∃ q found, Gateway.kong.Reads (.obj lookupMembers) q ∧
    found = (matching Bytes.lower (Bytes.lower (Bytes.utf8 (Gateway.kong.trims q))) seed).take
      GatewayPython.lookupLimit ∧
    (∀ headers, DataService.lookup Bytes.lower (newStore Bytes.lower seed)
      ⟨headers, tableEncoders.cjson ⟨some (Bytes.utf8 "pen"), 20, "gateway"⟩⟩ =
        some ⟨200, .products (.of found)⟩) ∧
    (OnlyAsciiAround q → found = lookupResults Bytes.lower seed q) := by
  have hparse : parse (Bytes.utf8 "\x7b\"q\":\" pen \"\x7d") = some (.obj lookupMembers) := rfl
  have hkong : kongRemap GatewayLua.decimals GatewayLua.strictCjson lookupText =
      .ok ⟨some (Bytes.utf8 "pen"), 20, "gateway"⟩ := by decide +kernel
  have hsent : rewrites tableEncoders GatewayPython.plainMsgspec GatewayLua.decimals
      GatewayLua.strictCjson lookupText .kong =
      some (tableEncoders.cjson ⟨some (Bytes.utf8 "pen"), 20, "gateway"⟩) := by
    rw [rewrites, hkong]
    rfl
  exact lookups_agree tableEncoders_documented GatewayLua.strictCjson_decodes rfl seed hparse hsent

end ApigateBenchmark.Contract
