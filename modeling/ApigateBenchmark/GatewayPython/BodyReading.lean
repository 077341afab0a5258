import ApigateBenchmark.GatewayPython.Runs

/-!
# What `read_body` makes of a message stream

Two loops share one stream: the first looks for an `http.request`, the second collects what follows it.
`delivery` is what they amount to, one recursion over the messages, and `Delivers` says the same of the
stream as a whole: how it is cut into chunks, and what stands between them, shows in neither. So a
handler cannot tell two streams apart that deliver the same bytes.
-/

namespace ApigateBenchmark.GatewayPython

open Coroutine

variable (settings : Settings) (decoders : Decoders)

/-! ### Messages and deliveries -/

/-- The part of the body a message brings. -/
def AsgiMessage.bytes : AsgiMessage → Bytes
  | .request body _ => body.getD []
  | _ => []

/-- An `http.request` without a true `more_body`. -/
def AsgiMessage.endsBody : AsgiMessage → Bool
  | .request _ moreBody => !moreBody.getD false
  | _ => false

/-- A message after which the body and the client are still expected. -/
structure AsgiMessage.Continues (message : AsgiMessage) : Prop where
  connected : message ≠ .disconnect
  more : message.endsBody = false

/-- What the messages received so far come to. -/
inductive Delivery where
  | pending
  | gone
  | complete (body : Bytes) (rest : List AsgiMessage)
  deriving DecidableEq

def Delivery.after (front : Bytes) : Delivery → Delivery
  | .complete body rest => .complete (front ++ body) rest
  | delivery => delivery

def delivery : List AsgiMessage → Delivery
  | [] => .pending
  | .disconnect :: _ => .gone
  | .other _ :: rest => delivery rest
  | .request body moreBody :: rest =>
      if moreBody.getD false then (delivery rest).after (body.getD []) else .complete (body.getD []) rest

def Delivery.toPy : Delivery → Py (Bytes × List AsgiMessage)
  | .pending => suspend .receive
  | .gone => raise .clientDisconnected
  | .complete body rest => pure (body, rest)

@[simp] theorem Delivery.after_nil (delivery : Delivery) : delivery.after [] = delivery := by
  cases delivery <;> rfl

@[simp] theorem Delivery.after_after (front next : Bytes) (delivery : Delivery) :
    (delivery.after next).after front = delivery.after (front ++ next) := by
  cases delivery with
  | complete body rest => rw [after, after, after, List.append_assoc]
  | _ => rfl

theorem Delivery.toPy_injective : Function.Injective Delivery.toPy := by
  intro first second h
  have hstatus : first.toPy.status = second.toPy.status := congrArg Coroutine.status h
  clear h
  cases first <;> cases second <;> simp_all [Delivery.toPy]

/-! ### The two loops -/

/-- The second loop, with `b"".join(chunks)` after it, goes on where the chunks it was given end. -/
theorem moreRequests_eq (chunks : List Bytes) (inbox : List AsgiMessage) :
    (moreRequests chunks inbox >>= fun collected => pure (collected.1.flatten, collected.2)) =
      ((delivery inbox).after chunks.flatten).toPy := by
  induction inbox generalizing chunks with
  | nil => rfl
  | cons message rest ih =>
      cases message with
      | disconnect => rfl
      | other type => exact ih chunks
      | request body moreBody =>
          -- an empty chunk is not collected, which the concatenation does not show
          have hjoin : (if body.getD [] = [] then chunks else chunks ++ [body.getD []]).flatten =
              chunks.flatten ++ body.getD [] := by
            split
            · rename_i hempty
              rw [hempty, List.append_nil]
            · rw [List.flatten_append, List.flatten_singleton]
          simp only [moreRequests, delivery]
          split
          · rw [ih, hjoin, Delivery.after_after]
          · rw [pure_bind, hjoin]
            rfl

theorem readBody_eq (inbox : List AsgiMessage) : readBody inbox = (delivery inbox).toPy := by
  induction inbox with
  | nil => rfl
  | cons message rest ih =>
      cases message with
      | disconnect => rfl
      | other type => exact ih
      | request body moreBody =>
          simp only [readBody, firstRequest, pure_bind, delivery]
          split
          · have hjoin : (if body.getD [] = [] then [] else [body.getD []]).flatten = body.getD [] := by
              split
              · rename_i hempty
                rw [hempty]
                rfl
              · exact List.flatten_singleton
            have hmore := moreRequests_eq (if body.getD [] = [] then [] else [body.getD []]) rest
            rw [hjoin] at hmore
            exact hmore
          · rfl

/-! ### Streams as a whole -/

/-- The stream delivers the body, and `rest` is left of it: the messages up to the one that ends the body
all continue, and their parts make up the body. -/
def Delivers (inbox : List AsgiMessage) (body : Bytes) (rest : List AsgiMessage) : Prop :=
  ∃ before last, inbox = before ++ last :: rest ∧ (∀ message ∈ before, message.Continues) ∧
    last.endsBody = true ∧ body = (before ++ [last]).flatMap AsgiMessage.bytes

/-- The client goes away before the body ends. -/
def Disconnects (inbox : List AsgiMessage) : Prop :=
  ∃ before rest, inbox = before ++ .disconnect :: rest ∧ ∀ message ∈ before, message.Continues

/-- Messages that continue only bring their parts. -/
theorem delivery_append {before : List AsgiMessage} (hbefore : ∀ message ∈ before, message.Continues)
    (inbox : List AsgiMessage) :
    delivery (before ++ inbox) = (delivery inbox).after (before.flatMap AsgiMessage.bytes) := by
  induction before with
  | nil => exact (Delivery.after_nil _).symm
  | cons message before ih =>
      obtain ⟨hmessage, hothers⟩ := List.forall_mem_cons.mp hbefore
      rw [List.cons_append, List.flatMap_cons, ← Delivery.after_after, ← ih hothers]
      cases message with
      | disconnect => exact absurd rfl hmessage.connected
      | other type => exact (Delivery.after_nil _).symm
      | request body moreBody =>
          have hmore : moreBody.getD false = true := by simpa [AsgiMessage.endsBody] using hmessage.more
          rw [delivery, if_pos hmore]
          rfl

theorem delivery_of_endsBody {last : AsgiMessage} (hlast : last.endsBody = true)
    (rest : List AsgiMessage) : delivery (last :: rest) = .complete last.bytes rest := by
  cases last with
  | request body moreBody =>
      have hmore : ¬ moreBody.getD false = true := by simpa [AsgiMessage.endsBody] using hlast
      rw [delivery, if_neg hmore]
      rfl
  | disconnect => cases hlast
  | other type => cases hlast

theorem Delivers.delivery_eq {inbox : List AsgiMessage} {body : Bytes} {rest : List AsgiMessage}
    (h : Delivers inbox body rest) : delivery inbox = .complete body rest := by
  obtain ⟨before, last, rfl, hbefore, hlast, rfl⟩ := h
  rw [delivery_append hbefore, delivery_of_endsBody hlast, Delivery.after, List.flatMap_append,
    List.flatMap_singleton]

theorem Disconnects.delivery_eq {inbox : List AsgiMessage} (h : Disconnects inbox) :
    delivery inbox = .gone := by
  obtain ⟨before, rest, rfl, hbefore⟩ := h
  rw [delivery_append hbefore]
  rfl

theorem delivery_pending {inbox : List AsgiMessage} (h : ∀ message ∈ inbox, message.Continues) :
    delivery inbox = .pending := by
  have happend := delivery_append h []
  rwa [List.append_nil] at happend

/-- The first message that does not continue, if there is one, decides. -/
theorem stream_cases (inbox : List AsgiMessage) :
    (∀ message ∈ inbox, message.Continues) ∨ Disconnects inbox ∨ ∃ body rest, Delivers inbox body rest := by
  induction inbox with
  | nil => exact Or.inl fun _ hmem => absurd hmem List.not_mem_nil
  | cons message inbox ih =>
      have hnone : ∀ other ∈ ([] : List AsgiMessage), other.Continues :=
        fun _ hmem => absurd hmem List.not_mem_nil
      by_cases hgone : message = .disconnect
      · subst hgone
        exact Or.inr (Or.inl ⟨[], inbox, rfl, hnone⟩)
      · cases hends : message.endsBody with
        | true => exact Or.inr (Or.inr ⟨_, inbox, [], message, rfl, hnone, hends, rfl⟩)
        | false =>
            have hmessage : message.Continues := ⟨hgone, hends⟩
            obtain hall | ⟨before, rest, rfl, hbefore⟩ | ⟨body, rest, before, last, rfl, hbefore, hlast, rfl⟩ := ih
            · exact Or.inl (List.forall_mem_cons.mpr ⟨hmessage, hall⟩)
            · exact Or.inr (Or.inl ⟨message :: before, rest, rfl, List.forall_mem_cons.mpr ⟨hmessage, hbefore⟩⟩)
            · exact Or.inr (Or.inr ⟨_, rest, message :: before, last, rfl,
                List.forall_mem_cons.mpr ⟨hmessage, hbefore⟩, hlast, rfl⟩)

theorem readBody_eq_pure_iff (inbox : List AsgiMessage) (body : Bytes) (rest : List AsgiMessage) :
    readBody inbox = pure (body, rest) ↔ Delivers inbox body rest := by
  have hpure : (pure (body, rest) : Py (Bytes × List AsgiMessage)) = (Delivery.complete body rest).toPy := rfl
  rw [readBody_eq, hpure, Delivery.toPy_injective.eq_iff]
  refine ⟨fun h => ?_, Delivers.delivery_eq⟩
  obtain hall | hgone | ⟨body', rest', hdelivers⟩ := stream_cases inbox
  · rw [delivery_pending hall] at h
    cases h
  · rw [hgone.delivery_eq] at h
    cases h
  · rw [hdelivers.delivery_eq] at h
    obtain ⟨rfl, rfl⟩ := Delivery.complete.inj h
    exact hdelivers

theorem readBody_eq_raise_iff (inbox : List AsgiMessage) :
    readBody inbox = raise .clientDisconnected ↔ Disconnects inbox := by
  have hraise : (raise .clientDisconnected : Py (Bytes × List AsgiMessage)) = Delivery.gone.toPy := rfl
  rw [readBody_eq, hraise, Delivery.toPy_injective.eq_iff]
  refine ⟨fun h => ?_, Disconnects.delivery_eq⟩
  obtain hall | hgone | ⟨body', rest', hdelivers⟩ := stream_cases inbox
  · rw [delivery_pending hall] at h
    cases h
  · exact hgone
  · rw [hdelivers.delivery_eq] at h
    cases h

theorem readBody_eq_suspend_iff (inbox : List AsgiMessage) :
    readBody inbox = suspend .receive ↔ ∀ message ∈ inbox, message.Continues := by
  have hsuspend : (suspend .receive : Py (Bytes × List AsgiMessage)) = Delivery.pending.toPy := rfl
  rw [readBody_eq, hsuspend, Delivery.toPy_injective.eq_iff]
  refine ⟨fun h => ?_, delivery_pending⟩
  obtain hall | hgone | ⟨body', rest', hdelivers⟩ := stream_cases inbox
  · exact hall
  · rw [hgone.delivery_eq] at h
    cases h
  · rw [hdelivers.delivery_eq] at h
    cases h

/-- Of two places in a list one comes first. -/
theorem eq_or_mem_of_append_cons_eq {α : Type} {before before' rest rest' : List α} {x y : α}
    (h : before ++ x :: rest = before' ++ y :: rest') : x = y ∨ x ∈ before' ∨ y ∈ before := by
  obtain ⟨middle, rfl, hrest⟩ | ⟨middle, rfl, hrest⟩ := List.append_eq_append_iff.mp h
  · cases middle with
    | nil => exact .inl (List.cons.inj hrest).1
    | cons first middle =>
        obtain ⟨rfl, -⟩ := List.cons.inj hrest
        exact .inr (.inl (List.mem_append_right _ List.mem_cons_self))
  · cases middle with
    | nil => exact .inl (List.cons.inj hrest).1.symm
    | cons first middle =>
        obtain ⟨rfl, -⟩ := List.cons.inj hrest
        exact .inr (.inr (List.mem_append_right _ List.mem_cons_self))

/-- A body is delivered exactly when the end of one stands before every disconnect. -/
theorem delivers_iff_ends_first (inbox : List AsgiMessage) :
    (∃ body rest, Delivers inbox body rest) ↔
      ∃ before last rest, inbox = before ++ last :: rest ∧ last.endsBody = true ∧ .disconnect ∉ before := by
  constructor
  · intro h
    obtain ⟨body, rest, before, last, hinbox, hbefore, hlast, -⟩ := h
    exact ⟨before, last, rest, hinbox, hlast, fun hmem => (hbefore _ hmem).connected rfl⟩
  · intro h
    obtain ⟨before, last, rest, hinbox, hlast, habsent⟩ := h
    obtain hall | ⟨before', rest', hinbox', hbefore'⟩ | hdelivers := stream_cases inbox
    · have hcontinues := hall last (by rw [hinbox]; simp)
      exact absurd (hlast.symm.trans hcontinues.more) (by decide)
    · -- neither of the two messages stands before the other, and they are not the same
      have hsplit := hinbox.symm.trans hinbox'
      obtain rfl | hearlier | hlater := eq_or_mem_of_append_cons_eq hsplit
      · cases hlast
      · exact absurd (hlast.symm.trans (hbefore' last hearlier).more) (by decide)
      · exact absurd hlater habsent
    · exact hdelivers

/-! ### The handlers -/

/-- A handler that reads a body decides by the body alone. -/
theorem bodyDecision_delivers {α : Type} {world : World} {body : Bytes} {rest : List AsgiMessage}
    (h : Delivers world.inbox body rest) (decode : Bytes → Except DecodeExc α)
    (request : Bytes → α → UpstreamRequest) :
    bodyDecision world decode request = decodedDecision (request body) (decode body) := by
  rw [bodyDecision, (readBody_eq_pure_iff world.inbox body rest).mpr h]
  rfl

/-- `read_body` returns the body a stream delivers, with the messages after its end unread, raises when
the client goes away before that, and otherwise goes on waiting; and the handlers that read a body run
alike on all streams that deliver the same bytes. -/
theorem readBody_chunking (inbox : List AsgiMessage) :
    (∀ body rest, readBody inbox = pure (body, rest) ↔ Delivers inbox body rest) ∧
      ((∃ body rest, readBody inbox = pure (body, rest)) ↔
        ∃ before last rest, inbox = before ++ last :: rest ∧ last.endsBody = true ∧ .disconnect ∉ before) ∧
      (readBody inbox = raise .clientDisconnected ↔ Disconnects inbox) ∧
      (readBody inbox = suspend .receive ↔ ∀ message ∈ inbox, message.Continues) ∧
      ∀ (other : List AsgiMessage) (body : Bytes) (rest rest' : List AsgiMessage),
        Delivers inbox body rest → Delivers other body rest' → ∀ (scope : Scope) (world : World),
          handleSearch settings decoders scope { world with inbox := inbox } =
              handleSearch settings decoders scope { world with inbox := other } ∧
            handleLookup settings decoders scope { world with inbox := inbox } =
              handleLookup settings decoders scope { world with inbox := other } := by
  refine ⟨readBody_eq_pure_iff inbox, ?_, readBody_eq_raise_iff inbox, readBody_eq_suspend_iff inbox, ?_⟩
  · simp only [readBody_eq_pure_iff]
    exact delivers_iff_ends_first inbox
  · intro other body rest rest' hinbox hother scope world
    have hdecide {α : Type} (decode : Bytes → Except DecodeExc α) (request : Bytes → α → UpstreamRequest) :
        bodyDecision { world with inbox := inbox } decode request =
          bodyDecision { world with inbox := other } decode request := by
      rw [bodyDecision_delivers hinbox, bodyDecision_delivers hother]
    constructor
    · rw [handleSearch_eq, handleSearch_eq, hdecide]
      rfl
    · rw [handleLookup_eq, handleLookup_eq, hdecide]
      rfl

/-- Three chunks, one of them empty, and a foreign message. -/
def choppedInbox : List AsgiMessage :=
  [.request (some (Bytes.utf8 "\x7b\"q\":")) (some true), .other "http.ping", .request none (some true),
    .request (some (Bytes.utf8 "\"pen\"\x7d")) none, .disconnect]

def wholeInbox : List AsgiMessage := [.request (some (Bytes.utf8 "\x7b\"q\":\"pen\"\x7d")) (some false)]

theorem readBody_chunking_chopped :
    handleLookup composeSettings noDecoders ⟨"POST", "/items/lookup", []⟩ { inbox := choppedInbox } =
      handleLookup composeSettings noDecoders ⟨"POST", "/items/lookup", []⟩ { inbox := wholeInbox } := by
  have hchopped : Delivers choppedInbox (Bytes.utf8 "\x7b\"q\":\"pen\"\x7d") [.disconnect] :=
    (readBody_eq_pure_iff _ _ _).mp rfl
  have hwhole : Delivers wholeInbox (Bytes.utf8 "\x7b\"q\":\"pen\"\x7d") [] :=
    (readBody_eq_pure_iff _ _ _).mp rfl
  exact ((readBody_chunking composeSettings noDecoders choppedInbox).2.2.2.2 wholeInbox _ _ _ hchopped
    hwhole ⟨"POST", "/items/lookup", []⟩ {}).2

end ApigateBenchmark.GatewayPython
