import ApigateBenchmark.GatewayPython.ResponseProtocol
import ApigateBenchmark.Library.GoMarshal
import ApigateBenchmark.Library.JsonDocument

/-!
# What the gateway can have sent

At any moment a run has sent nothing, an error answer, or the head of a relayed response with the chunks
received so far, and after these at most the final message or an error answer. Whatever the text of an
error is, msgspec's encoder writes it as a JSON document that says so.
-/

namespace ApigateBenchmark.GatewayPython

open Coroutine Json

variable (settings : Settings) (decoders : Decoders)

/-- What may follow the chunks of a relayed response. -/
def RelayTail (tail : List AsgiEvent) : Prop :=
  tail = [] ∨ tail = [endBodyMessage] ∨ ∃ status detail, tail = errorEvents status detail

theorem sent_onException (exc : Exc) :
    sent (onException exc).log = [] ∨ ∃ status detail, sent (onException exc).log = errorEvents status detail := by
  cases exc with
  | clientDisconnected => exact .inl rfl
  | authError status detail => exact .inl rfl
  | fault fault =>
      cases fault with
      | valueError text => exact .inl rfl
      | clientError text => exact .inr ⟨502, _, rfl⟩
      | serverTimeoutError text => exact .inr ⟨502, _, rfl⟩
      | timeoutError => exact .inr ⟨504, _, rfl⟩
  | decode exc => exact .inl rfl

theorem sent_relayEnd (bodyEnd : Option BodyEnd) :
    RelayTail (sent ((relayEnd bodyEnd).handle onException).log) := by
  cases bodyEnd with
  | none => exact .inl rfl
  | some bodyEnd =>
      cases bodyEnd with
      | complete => exact .inr (.inl rfl)
      | broken fault =>
          cases fault with
          | clientError text => exact .inr (.inl rfl)
          | serverTimeoutError text => exact .inr (.inl rfl)
          | timeoutError => exact .inr (.inr ⟨504, "upstream timeout", rfl⟩)
          | valueError text => exact .inl rfl

/-- Everything a run can have sent, ready or not and wherever it stands. -/
theorem sent_cases (ready : Bool) (scope : Scope) (world : World) :
    sent (asgiApp settings decoders ready scope world).log = [] ∨
      (∃ status detail,
        sent (asgiApp settings decoders ready scope world).log = errorEvents status detail) ∨
      ∃ request head tail, decision settings decoders scope world = .forward request ∧
        world.dataHead = some (.ok head) ∧ RelayTail tail ∧
        sent (asgiApp settings decoders ready scope world).log = relayedEvents world head ++ tail := by
  cases ready with
  | false => exact .inr (.inl ⟨503, "gateway not ready", rfl⟩)
  | true =>
      rw [asgiApp_eq, prepend_log, sent_append, sent_authCalls, List.nil_append]
      cases hdecision : decision settings decoders scope world with
      | answer status detail => exact .inr (.inl ⟨status, detail, rfl⟩)
      | wait question => exact .inl rfl
      | hangUp => exact .inl rfl
      | escape exc => exact (sent_onException exc).imp_right .inl
      | forward request =>
          rw [Decision.toPy, proxy_eq, prepend_handle, prepend_log, sent_append, exchange]
          cases hhead : world.dataHead with
          | none => exact .inl rfl
          | some answer =>
              cases answer with
              | error fault => exact (sent_onException (.fault fault)).imp_right .inl
              | ok head =>
                  refine .inr (.inr ⟨request, head, _, rfl, rfl, sent_relayEnd world.dataEnd, ?_⟩)
                  simp only [relayResponse_eq, prepend_handle, prepend_log, sent_append, sent_map_send]
                  rfl

/-! ### The document of an error -/

theorem utf8_control {n : Nat} (h : n < 0x20) :
    (['\\', 'u', '0', '0', hexDigit (n / 16), hexDigit (n % 16)]).flatMap String.utf8EncodeChar =
      unicodeEscape n := by
  have hall : ∀ n : Fin 32,
      (['\\', 'u', '0', '0', hexDigit (n.val / 16), hexDigit (n.val % 16)]).flatMap
        String.utf8EncodeChar = unicodeEscape n.val := by decide +kernel
  exact hall ⟨n, h⟩

theorem spellsChar_jsonEscape (c : Char) :
    SpellsChar ((jsonEscape c).flatMap String.utf8EncodeChar) c := by
  rw [jsonEscape]
  split
  · subst c
    exact GoJson.spellsChar_escape (by decide) rfl
  rename_i hquote
  split
  · subst c
    exact GoJson.spellsChar_escape (by decide) rfl
  rename_i hescape
  split
  · subst c
    exact GoJson.spellsChar_escape (by decide) rfl
  split
  · subst c
    exact GoJson.spellsChar_escape (by decide) rfl
  split
  · subst c
    exact GoJson.spellsChar_escape (by decide) rfl
  split
  · rename_i hcode
    obtain rfl : c = Char.ofNat 8 := by rw [← hcode, Char.ofNat_toNat]
    exact GoJson.spellsChar_escape (by decide) rfl
  split
  · rename_i hcode
    obtain rfl : c = Char.ofNat 12 := by rw [← hcode, Char.ofNat_toNat]
    exact GoJson.spellsChar_escape (by decide) rfl
  split
  · rename_i hcontrol
    rw [utf8_control hcontrol]
    exact GoJson.spellsChar_unicodeEscape (by omega)
  · rename_i hcontrol
    rw [List.flatMap_singleton]
    exact GoJson.spellsChar_utf8 hescape hquote hcontrol

theorem jsonString_writes (text : String) :
    ∃ lit : StrLit, Writes (Bytes.utf8 (jsonString text)) [.str lit] ∧ lit.decoded = some text := by
  obtain ⟨lit, hspells, hreads⟩ := spells_flatMap spellsChar_jsonEscape text.toList
  have hdecoded := hreads.decoded
  rw [String.ofList_toList] at hdecoded
  have htext : Bytes.utf8 (jsonString text) = ascii '"' ::
      text.toList.flatMap (fun c => (jsonEscape c).flatMap String.utf8EncodeChar) ++ [ascii '"'] := by
    rw [jsonString, Bytes.utf8_ofList, List.flatMap_append, List.flatMap_cons, List.flatMap_assoc]
    rfl
  exact ⟨lit, htext ▸ writes_string hspells, hdecoded⟩

theorem jsonString_denotes (text : String) :
    WritesDenoted (Bytes.utf8 (jsonString text)) (.str text) := by
  obtain ⟨lit, hwrites, hdecoded⟩ := jsonString_writes text
  exact writesDenoted_str hwrites hdecoded

theorem writesField_json (name : String) {text : Bytes} {denoted : Denoted}
    (h : WritesDenoted text denoted) :
    WritesField (Bytes.utf8 (jsonString name), text) (name, denoted) :=
  ⟨jsonString_writes name, h⟩

theorem errorPayload_denotes (detail : String) :
    WritesDenoted (errorPayload detail) (.obj [("error", .str detail)]) := by
  have hobject := writesDenoted_object (.cons (writesField_json "error" (jsonString_denotes detail)) .nil)
  have htext : errorPayload detail = objectText ([(Bytes.utf8 (jsonString "error"),
      Bytes.utf8 (jsonString detail))].map fun text => text.1 ++ ascii ':' :: text.2) := by
    have hopen : Bytes.utf8 "\x7b\"error\":" =
        ascii '\x7b' :: (Bytes.utf8 (jsonString "error") ++ [ascii ':']) := by decide +kernel
    rw [errorPayload, Bytes.utf8_append, Bytes.utf8_append, hopen, objectText, List.map_singleton,
      List.intercalate_singleton]
    simp only [List.cons_append, List.append_assoc, List.nil_append]
    rfl
  rw [htext]
  exact hobject

/-- The body `encode_lookup` sends is the internal query as an object. -/
theorem encodeLookup_denotes (internal : LookupInternal) :
    WritesDenoted (encodeLookup internal)
      (.obj [("query", .str internal.query), ("limit", .num (integerLit internal.limit)),
        ("source", .str internal.source)]) := by
  have hobject := writesDenoted_object <|
    .cons (writesField_json "query" (jsonString_denotes internal.query)) <|
    .cons (writesField_json "limit" (writesDenoted_int internal.limit)) <|
    .cons (writesField_json "source" (jsonString_denotes internal.source)) .nil
  have htext : encodeLookup internal = objectText
      ([(Bytes.utf8 (jsonString "query"), Bytes.utf8 (jsonString internal.query)),
        (Bytes.utf8 (jsonString "limit"), Bytes.utf8 (toString (internal.limit : Int))),
        (Bytes.utf8 (jsonString "source"), Bytes.utf8 (jsonString internal.source))].map
          fun text => text.1 ++ ascii ':' :: text.2) := by
    have hquery : Bytes.utf8 "\x7b\"query\":" =
        ascii '\x7b' :: (Bytes.utf8 (jsonString "query") ++ [ascii ':']) := by decide +kernel
    have hlimit : Bytes.utf8 ",\"limit\":" =
        ascii ',' :: (Bytes.utf8 (jsonString "limit") ++ [ascii ':']) := by decide +kernel
    have hsource : Bytes.utf8 ",\"source\":" =
        ascii ',' :: (Bytes.utf8 (jsonString "source") ++ [ascii ':']) := by decide +kernel
    rw [encodeLookup]
    simp only [Bytes.utf8_append, hquery, hlimit, hsource, objectText, List.map_cons, List.map_nil,
      List.intercalate_cons_cons, List.intercalate_singleton, List.cons_append, List.append_assoc,
      List.nil_append]
    rfl
  rw [htext]
  exact hobject

/-- Every body the gateway writes itself is `errorPayload` of a text and denotes the text it was made of; a
head announces its length and type. -/
theorem own_answers_denote (ready : Bool) (scope : Scope) (world : World) {body : Bytes}
    (hsent : .body body false ∈ sent (asgiApp settings decoders ready scope world).log)
    (hbody : body ≠ []) :
    ∃ status detail before,
      sent (asgiApp settings decoders ready scope world).log = before ++ [
        .start status [(Bytes.utf8 "content-type", Bytes.utf8 "application/json"),
          (Bytes.utf8 "content-length", Bytes.utf8 (toString body.length))], .body body false] ∧
      body = errorPayload detail ∧
      ∀ text, body = errorPayload text →
        (parse body).bind Value.denoted = some (.obj [("error", .str text)]) := by
  have herror : ∀ status detail, .body body false ∈ errorEvents status detail →
      body = errorPayload detail := by
    intro status detail hmem
    simpa [errorEvents] using hmem
  have hdenotes : ∀ text, body = errorPayload text →
      (parse body).bind Value.denoted = some (.obj [("error", .str text)]) := by
    rintro text rfl
    exact (errorPayload_denotes text).parse_eq
  obtain hnil | ⟨status, detail, hevents⟩ | ⟨request, head, tail, -, -, htail, hevents⟩ :=
    sent_cases settings decoders ready scope world
  · rw [hnil] at hsent
    cases hsent
  · rw [hevents] at hsent
    have hdetail := herror status detail hsent
    refine ⟨status, detail, [], ?_, hdetail, hdenotes⟩
    rw [hevents, hdetail]
    rfl
  · rw [hevents] at hsent
    have hmem : .body body false ∈ tail := by
      obtain hrelayed | hmem := List.mem_append.mp hsent
      · simp [relayedEvents] at hrelayed
      · exact hmem
    obtain rfl | rfl | ⟨status, detail, rfl⟩ := htail
    · cases hmem
    · simp only [endBodyMessage, List.mem_singleton, AsgiEvent.body.injEq] at hmem
      exact absurd hmem.1 hbody
    · have hdetail := herror status detail hmem
      refine ⟨status, detail, relayedEvents world head, ?_, hdetail, hdenotes⟩
      rw [hevents, hdetail]
      rfl

theorem own_answers_denote_unknownRoute : ∃ status before,
    sent (asgiApp defaultSettings noDecoders true ⟨"GET", "/\"\n", []⟩ {}).log = before ++ [
      .start status [(Bytes.utf8 "content-type", Bytes.utf8 "application/json"),
        (Bytes.utf8 "content-length",
          Bytes.utf8 (toString (errorPayload "unknown route: GET /\"\n").length))],
      .body (errorPayload "unknown route: GET /\"\n") false] ∧
    (parse (errorPayload "unknown route: GET /\"\n")).bind Value.denoted =
      some (.obj [("error", .str "unknown route: GET /\"\n")]) := by
  have hmem : .body (errorPayload "unknown route: GET /\"\n") false ∈
      sent (asgiApp defaultSettings noDecoders true ⟨"GET", "/\"\n", []⟩ {}).log := by decide +kernel
  obtain ⟨status, detail, before, hsent, -, hdenotes⟩ :=
    own_answers_denote defaultSettings noDecoders true ⟨"GET", "/\"\n", []⟩ {} hmem (by decide +kernel)
  exact ⟨status, before, hsent, hdenotes _ rfl⟩

end ApigateBenchmark.GatewayPython
