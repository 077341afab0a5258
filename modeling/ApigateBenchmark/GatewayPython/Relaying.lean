import ApigateBenchmark.GatewayPython.Runs
import ApigateBenchmark.Library.Json

/-!
# What the client gets of an upstream response

The relay takes the hop-by-hop entries out of the header block and hands on the body chunk by chunk, as
the session read it off the wire. So the client gets the bytes that were read, whether or not the stream
is cut, and a length that the upstream stated for its body holds for what is relayed.
-/

namespace ApigateBenchmark.GatewayPython

open Coroutine

/-- The client error that ends a stream early, and how many chunks are read before it. -/
structure Cut where
  after : Nat
  fault : Fault
  isClientError : fault.isClientError = true

/-- A response as the upstream sends it, and where the stream is cut if it is. -/
structure UpstreamReply where
  head : ResponseHead
  chunks : List Bytes
  cut : Option Cut

def UpstreamReply.body (reply : UpstreamReply) : Bytes := reply.chunks.flatten

/-- The chunks `iter_any` yields. -/
def UpstreamReply.readChunks (reply : UpstreamReply) : List Bytes :=
  match reply.cut with
  | none => reply.chunks
  | some cut => reply.chunks.take cut.after

def UpstreamReply.bodyEnd (reply : UpstreamReply) : BodyEnd :=
  match reply.cut with
  | none => .complete
  | some cut => .broken cut.fault

/-- The relay of a reply that has been read to its end or to the cut. -/
def UpstreamReply.relay (reply : UpstreamReply) : Py Unit :=
  relayResponse { dataChunks := reply.readChunks, dataEnd := some reply.bodyEnd } reply.head

theorem relayEnd_bodyEnd (reply : UpstreamReply) :
    relayEnd (some reply.bodyEnd) = emit [endBodyMessage] := by
  rw [UpstreamReply.bodyEnd]
  cases reply.cut with
  | none => rfl
  | some cut =>
      change (if cut.fault.isClientError then send endBodyMessage else raise (.fault cut.fault)) = _
      rw [if_pos cut.isClientError]
      rfl

theorem UpstreamReply.relay_eq (reply : UpstreamReply) :
    reply.relay = emit (.start reply.head.status (responseHeadersFromUpstream reply.head.rawHeaders) ::
      (reply.readChunks.map (fun chunk => AsgiEvent.body chunk true) ++ [endBodyMessage])) := by
  rw [relay, relayResponse_eq, relayEnd_bodyEnd, emit_prepend]
  rfl

/-! ### The header block -/

/-- Names of header fields are compared without regard to case. -/
def IsHopByHop (entry : Header) : Prop := ∃ name ∈ hopByHopHeaders, Bytes.lower entry.1 = Bytes.lower name

theorem contains_hopByHopHeaders_iff (entry : Header) :
    hopByHopHeaders.contains (Bytes.lower entry.1) = true ↔ IsHopByHop entry := by
  have hlower : ∀ name ∈ hopByHopHeaders, Bytes.lower name = name := by decide
  rw [List.contains_iff_mem]
  constructor
  · intro hmem
    exact ⟨_, hmem, (hlower _ hmem).symm⟩
  · rintro ⟨name, hname, hsame⟩
    rw [hsame, hlower name hname]
    exact hname

instance (entry : Header) : Decidable (IsHopByHop entry) :=
  decidable_of_iff _ (contains_hopByHopHeaders_iff entry)

theorem responseHeadersFromUpstream_eq (rawHeaders : List Header) :
    responseHeadersFromUpstream rawHeaders = rawHeaders.filter fun entry => ¬ IsHopByHop entry := by
  refine List.filter_congr fun entry _ => ?_
  rw [Bool.eq_iff_iff, Bool.not_eq_true', ← Bool.not_eq_true, contains_hopByHopHeaders_iff,
    decide_eq_true_eq]

/-- An end-to-end entry is there as often as the upstream sent it, a hop-by-hop entry not at all. -/
theorem count_responseHeaders (rawHeaders : List Header) (entry : Header) :
    (responseHeadersFromUpstream rawHeaders).count entry =
      if IsHopByHop entry then 0 else rawHeaders.count entry := by
  rw [responseHeadersFromUpstream_eq]
  by_cases hhop : IsHopByHop entry
  · rw [if_pos hhop, List.count_eq_zero]
    intro hmem
    exact absurd hhop (of_decide_eq_true (List.mem_filter.mp hmem).2)
  · rw [if_neg hhop]
    exact List.count_filter (decide_eq_true hhop)

/-! ### The stated length -/

/-- The value of a `Content-Length` field: decimal digits and nothing else. -/
def statedLength (value : Bytes) : Option Nat :=
  if value ≠ [] ∧ value.all Json.isDigit then some (Json.digitsValue value) else none

/-- Each `Content-Length` of the header block states the length of the body. -/
def LengthsHold (headers : List Header) (body : Bytes) : Prop :=
  ∀ entry ∈ headers, Bytes.lower entry.1 = Bytes.utf8 "content-length" →
    statedLength entry.2 = some body.length

theorem lengthsHold_responseHeaders (rawHeaders : List Header) (body : Bytes) :
    LengthsHold (responseHeadersFromUpstream rawHeaders) body ↔ LengthsHold rawHeaders body := by
  have hkept : ∀ entry : Header, Bytes.lower entry.1 = Bytes.utf8 "content-length" → ¬ IsHopByHop entry := by
    intro entry hname
    rw [← contains_hopByHopHeaders_iff, hname]
    decide
  rw [responseHeadersFromUpstream_eq]
  constructor
  · intro h entry hentry hname
    exact h entry (List.mem_filter.mpr ⟨hentry, decide_eq_true (hkept entry hname)⟩) hname
  · intro h entry hentry hname
    exact h entry (List.mem_filter.mp hentry).1 hname

/-! ### The relay -/

/-- The messages of a relay that leaves the response as it was. -/
structure Faithful (reply : UpstreamReply) (headers : List Header) (chunks : List Bytes) : Prop where
  inOrder : headers.Sublist reply.head.rawHeaders
  count : ∀ entry, headers.count entry =
    if IsHopByHop entry then 0 else reply.head.rawHeaders.count entry
  body : chunks.flatten = reply.readChunks.flatten
  whole : reply.cut = none → chunks.flatten = reply.body
  lengths : reply.cut = none → LengthsHold reply.head.rawHeaders reply.body →
    LengthsHold headers chunks.flatten

/-- The relay sends one head, the body, and one final message, and all of it is faithful. -/
theorem relay_faithful (reply : UpstreamReply) :
    ∃ headers chunks, Faithful reply headers chunks ∧
      reply.relay = emit (.start reply.head.status headers ::
        (chunks.map (fun chunk => AsgiEvent.body chunk true) ++ [endBodyMessage])) := by
  have hwhole : reply.cut = none → reply.readChunks.flatten = reply.body := by
    intro hcut
    rw [UpstreamReply.readChunks, hcut, UpstreamReply.body]
  refine ⟨responseHeadersFromUpstream reply.head.rawHeaders, reply.readChunks,
    ⟨List.filter_sublist, count_responseHeaders _, rfl, hwhole, ?_⟩, reply.relay_eq⟩
  intro hcut hlengths
  rw [hwhole hcut, lengthsHold_responseHeaders]
  exact hlengths

end ApigateBenchmark.GatewayPython
