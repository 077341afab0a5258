import ApigateBenchmark.GatewayPython.Identity

/-!
# What becomes of the client's header block

Three of the four routes hand on the client's header block, without the entries that concern the
connection to the gateway. `request_headers_for_upstream` reads it as latin-1, a character for each byte,
and aiohttp writes it in UTF-8: so a byte above ASCII leaves the gateway as two.
-/

namespace ApigateBenchmark.GatewayPython

open Coroutine Process

variable (settings : Settings) (decoders : Decoders)

/-- The route is one that hands on the header block as it is. -/
def Scope.PassesHeaders (scope : Scope) : Prop :=
  (scope.method = "GET" ∧ scope.path = "/items") ∨
    (scope.method = "POST" ∧ (scope.path = "/items/search" ∨ scope.path = "/items/lookup"))

/-- The entries that are not for the hop to the gateway only: neither hop-by-hop nor the host and the
length of the client's request. -/
def Scope.endToEnd (scope : Scope) : List Header :=
  scope.headers.filter fun entry =>
    !hopByHopHeaders.contains entry.1 && entry.1 != Bytes.utf8 "host" && entry.1 != Bytes.utf8 "content-length"

/-- The header block as it is written. -/
def headerBlock (request : UpstreamRequest) : List Header :=
  request.headers.map fun entry => (Bytes.utf8 entry.1, Bytes.utf8 entry.2)

theorem requestHeadersForUpstream_eq (scope : Scope) :
    requestHeadersForUpstream scope false =
      scope.endToEnd.map fun entry => (Bytes.latin1 entry.1, Bytes.latin1 entry.2) := by
  rw [requestHeadersForUpstream, Scope.endToEnd]
  refine congrArg (List.map _) (List.filter_congr fun entry _ => ?_)
  simp only [droppedFromRequest, Bool.false_and, Bool.or_false, Bool.not_or, bne]

/-- On these routes whatever is forwarded has the client's header block. -/
theorem headers_of_forward {scope : Scope} {world : World} {request : UpstreamRequest}
    (hroute : scope.PassesHeaders) (hforward : decision settings decoders scope world = .forward request) :
    request.headers = requestHeadersForUpstream scope false := by
  have hmine : ¬ (scope.method = "GET" ∧ scope.path = "/my-items") := by
    rintro ⟨hmethod, hpath⟩
    obtain ⟨-, hitems⟩ | ⟨hpost, -⟩ := hroute
    · rw [hpath] at hitems
      exact absurd hitems (by decide)
    · rw [hmethod] at hpost
      exact absurd hpost (by decide)
  have hbody {α : Type} (decode : Bytes → Except DecodeExc α) (make : Bytes → α → UpstreamRequest)
      (hmake : ∀ body payload, (make body payload).headers = requestHeadersForUpstream scope false)
      (h : bodyDecision world decode make = .forward request) :
      request.headers = requestHeadersForUpstream scope false := by
    rw [bodyDecision] at h
    split at h
    · cases h
    · cases h
    · obtain ⟨payload, -, rfl⟩ := decodedDecision_forward h
      exact hmake _ _
  rw [decision, if_neg hmine] at hforward
  split at hforward
  · cases hforward
    rfl
  · split at hforward
    · exact hbody _ _ (fun _ _ => rfl) hforward
    · split at hforward
      · exact hbody _ _ (fun _ _ => rfl) hforward
      · cases hforward

/-- A call of data-service is the request that was decided on. -/
theorem decision_of_dataCall {labels : List Label} {process : Process} {id : Nat} {task : Task}
    (hrun : Process.run settings decoders labels = some process) (htask : process.tasks[id]? = some task)
    {call : WireCall} (hcall : call ∈ process.callsOf id) (hservice : call.service = .data) :
    decision settings decoders task.scope task.world = .forward call.request := by
  have hcalls := dataCalls_eq settings decoders hrun htask
  have hmem : (call.service, call.request) ∈
      (decision settings decoders task.scope task.world).calls := by
    rw [← hcalls]
    exact List.mem_map.mpr ⟨call, List.mem_filter.mpr ⟨hcall, beq_iff_eq.mpr hservice⟩, rfl⟩
  cases hdecision : decision settings decoders task.scope task.world with
  | forward request =>
      rw [hdecision] at hmem
      rw [(Prod.mk.inj (List.mem_singleton.mp hmem)).2]
  | _ =>
      rw [hdecision] at hmem
      exact absurd hmem List.not_mem_nil

/-- Decoding and encoding again leaves a list of entries as it was exactly if all of it is ASCII. -/
theorem map_utf8_latin1_eq_iff (entries : List Header) :
    (entries.map fun entry => (Bytes.utf8 (Bytes.latin1 entry.1), Bytes.utf8 (Bytes.latin1 entry.2))) =
        entries ↔
      ∀ entry ∈ entries, Bytes.IsAscii entry.1 ∧ Bytes.IsAscii entry.2 := by
  induction entries with
  | nil => simp
  | cons entry entries ih =>
      obtain ⟨name, value⟩ := entry
      simp only [List.map_cons, List.cons.injEq, Prod.mk.injEq, ih, List.forall_mem_cons,
        Bytes.utf8_latin1_eq_iff]

/-- Data-service is sent the client's end-to-end entries, byte for byte, exactly if they are ASCII. -/
theorem headers_pass_iff {labels : List Label} {process : Process} {id : Nat} {task : Task}
    (hrun : Process.run settings decoders labels = some process) (htask : process.tasks[id]? = some task)
    (hroute : task.scope.PassesHeaders) {call : WireCall} (hcall : call ∈ process.callsOf id)
    (hservice : call.service = .data) (hcookies : call.cookies = []) :
    headerBlock call.onWire = task.scope.endToEnd ↔
      ∀ entry ∈ task.scope.endToEnd, Bytes.IsAscii entry.1 ∧ Bytes.IsAscii entry.2 := by
  have hforward := decision_of_dataCall settings decoders hrun htask hcall hservice
  have hheaders : call.onWire.headers = requestHeadersForUpstream task.scope false := by
    rw [WireCall.onWire, hcookies, withCookies_nil]
    exact headers_of_forward settings decoders hroute hforward
  rw [headerBlock, hheaders, requestHeadersForUpstream_eq, List.map_map]
  exact map_utf8_latin1_eq_iff task.scope.endToEnd

/-! ### A name with an umlaut -/

/-- A client that says where it is, the name of the city given by its bytes. -/
def cityScope (city : Bytes) : Scope where
  method := "GET"
  path := "/items"
  headers := [(Bytes.utf8 "host", Bytes.utf8 "gateway"), (Bytes.utf8 "x-city", city),
    (Bytes.utf8 "te", Bytes.utf8 "trailers"), (Bytes.utf8 "x-city", Bytes.utf8 "Bonn")]

def cityProcess (city : Bytes) : Process :=
  (Process.run defaultSettings noDecoders [.arrive (cityScope city)]).getD {}

def cityCall (city : Bytes) : WireCall where
  task := 0
  service := .data
  request := itemsRequest defaultSettings (cityScope city)
  cookies := []

theorem cityCall_mem (city : Bytes) : cityCall city ∈ (cityProcess city).callsOf 0 := by
  have hcalls : (cityProcess city).callsOf 0 = [cityCall city] := rfl
  rw [hcalls]
  exact List.mem_singleton_self _

theorem cityProcess_run (city : Bytes) :
    Process.run defaultSettings noDecoders [.arrive (cityScope city)] = some (cityProcess city) := rfl

theorem headers_pass_iff_ulm :
    headerBlock (cityCall (Bytes.utf8 "Ulm")).onWire = (cityScope (Bytes.utf8 "Ulm")).endToEnd := by
  have htask : (cityProcess (Bytes.utf8 "Ulm")).tasks[0]? = some { scope := cityScope (Bytes.utf8 "Ulm") } := rfl
  exact (headers_pass_iff defaultSettings noDecoders (cityProcess_run _) htask (Or.inl ⟨rfl, rfl⟩)
    (cityCall_mem _) rfl rfl).mpr (by decide +kernel)

/-- `Köln` in latin-1. -/
def koeln : Bytes := [0x4b, 0xf6, 0x6c, 0x6e]

/-- The `ö` arrives as two bytes. -/
theorem headers_umlaut_garbled :
    ¬ ∀ (settings : Settings) (decoders : Decoders) (labels : List Label) (process : Process) (id : Nat)
        (task : Task) (call : WireCall),
      Process.run settings decoders labels = some process → process.tasks[id]? = some task →
      task.scope.PassesHeaders → call ∈ process.callsOf id → call.service = .data → call.cookies = [] →
      headerBlock call.onWire = task.scope.endToEnd := by
  intro h
  have hsame := h defaultSettings noDecoders [.arrive (cityScope koeln)] (cityProcess koeln) 0
    { scope := cityScope koeln } (cityCall koeln) (cityProcess_run koeln) rfl (Or.inl ⟨rfl, rfl⟩)
    (cityCall_mem koeln) rfl rfl
  have hlengths := congrArg (List.map fun entry => entry.2.length) hsame
  exact absurd hlengths (by decide +kernel)

end ApigateBenchmark.GatewayPython
