import LinkMeter.Proofs.Wire.Frames
import LinkMeter.Proofs.Wire.Streams

/-!
# Either side of a handshake

What a side of a handshake receives depends on the first frame of its source
alone.  There is a message in it, or it is spoiled, or it stays out
(`Source.presents_or_spoils_or_stalls`); a spoiled one counts as an invalid
message (`Source.Brings`).

So what a side answers depends on the message that the source brings and on
whether the sink takes the frame that it sends.  A server that is not asked for
anything sends nothing (`serverHandshake_of_brings`), and a client whose frame is
not taken reads nothing (`clientHandshake_of_not_accepts`).
-/

namespace LinkMeter.Wire

namespace Source

/-! ## First frames -/

/-- The first frame has a message in it. -/
def Presents (source : Source) (message : Message) : Prop :=
  ∃ body rest, source.bytes = Bytes.big 4 body.length ++ (body ++ rest) ∧
    body.length ≤ maxMessageSize ∧ Message.ofBytes body = .ok message

/-- There are not enough bytes for the first frame. -/
def Incomplete (source : Source) : Prop :=
  source.bytes.length < 4 ∨ Bytes.bigValue (source.bytes.take 4) ≤ maxMessageSize ∧
    source.bytes.length < 4 + Bytes.bigValue (source.bytes.take 4)

/-- The first frame never comes to its end, and nothing tells so. -/
structure Stalls (source : Source) : Prop where
  incomplete : source.Incomplete
  ending_eq : source.ending = none

/-- There is no message in the first frame. -/
inductive Spoils (source : Source) : Prop where
  /-- The stream ends or fails inside the frame. -/
  | cut (fault : IoFault) (hincomplete : source.Incomplete) (hending : source.ending = some fault)
  /-- The frame declares to be too long. -/
  | oversized (hlength : 4 ≤ source.bytes.length)
    (htoo : maxMessageSize < Bytes.bigValue (source.bytes.take 4))
  /-- What is in the frame cannot be decoded. -/
  | undecodable (fault : CodecFault) (body rest : Bytes)
    (hbytes : source.bytes = Bytes.big 4 body.length ++ (body ++ rest))
    (hlength : body.length ≤ maxMessageSize) (hfault : Message.ofBytes body = .error fault)

/-- What the first frame is received as: whatever is not a message counts as an invalid one. -/
inductive Brings (source : Source) : Content → Prop where
  | message (version : UInt32) {content : Content}
    (hpresents : source.Presents ⟨version, content⟩) : Brings source content
  | spoiled (hspoils : source.Spoils) : Brings source .invalid

theorem presents_or_spoils_or_stalls (source : Source) :
    (∃ message, source.Presents message) ∨ source.Spoils ∨ source.Stalls := by
  by_cases hincomplete : source.Incomplete
  · cases hending : source.ending with
    | some fault => exact .inr (.inl (.cut fault hincomplete hending))
    | none => exact .inr (.inr ⟨hincomplete, hending⟩)
  obtain ⟨hfour, hwhole⟩ := not_or.1 hincomplete
  by_cases htoo : maxMessageSize < Bytes.bigValue (source.bytes.take 4)
  · exact .inr (.inl (.oversized (Nat.le_of_not_lt hfour) htoo))
  -- the declared length is allowed, and there are as many bytes behind it
  have hle : 4 + Bytes.bigValue (source.bytes.take 4) ≤ source.bytes.length :=
    Nat.le_of_not_lt fun hlt => hwhole ⟨Nat.le_of_not_lt htoo, hlt⟩
  let body := (source.bytes.drop 4).take (Bytes.bigValue (source.bytes.take 4))
  obtain ⟨hbody, hbytes⟩ := Bytes.eq_frame hle
  have hshort : body.length ≤ maxMessageSize := hbody ▸ Nat.le_of_not_lt htoo
  cases hdecode : Message.ofBytes body with
  | ok message => exact .inl ⟨message, body, _, hbytes, hshort, hdecode⟩
  | error fault => exact .inr (.inl (.undecodable fault body _ hbytes hshort hdecode))

theorem brings_or_stalls (source : Source) :
    (∃ content, source.Brings content) ∨ source.Stalls := by
  rcases source.presents_or_spoils_or_stalls with ⟨⟨version, content⟩, h⟩ | h | h
  · exact .inl ⟨content, .message version h⟩
  · exact .inl ⟨.invalid, .spoiled h⟩
  · exact .inr h

/-- What is received as something else than an invalid message is a message. -/
theorem Brings.presents {source : Source} {content : Content} (h : source.Brings content)
    (hcontent : content ≠ .invalid) : ∃ version, source.Presents ⟨version, content⟩ := by
  cases h with
  | message version hpresents => exact ⟨version, hpresents⟩
  | spoiled => exact absurd rfl hcontent

end Source

/-- What an operation comes to that meets an input or output failure, or silence. -/
def Progress.ofEnding {α : Type} : Option IoFault → Progress α
  | some fault => .failed (.io fault)
  | none => .waiting

theorem Progress.ofEnding_ne_done {α : Type} (ending : Option IoFault) (value : α) :
    ofEnding ending ≠ .done value := by
  cases ending <;> simp [ofEnding]

/-! ## Reading -/

variable {source : Source}

/-- A frame that is short enough and there is read, and its body is decoded. -/
theorem readMessage_of_bytes {body rest : Bytes}
    (hbytes : source.bytes = Bytes.big 4 body.length ++ (body ++ rest))
    (hlength : body.length ≤ maxMessageSize) :
    ∃ left, readMessage source = (.ofBody body, left) := by
  obtain ⟨pieces, later, hcut, hsource⟩ := source.exists_ofPieces
  rw [hbytes] at hcut
  obtain ⟨left, -, hread⟩ := readMessage_ofPieces hlength hcut later
  exact ⟨Source.ofPieces left later, hsource ▸ hread⟩

/-- A frame that is not all there is as far as reading gets. -/
theorem readMessage_of_incomplete (h : source.Incomplete) :
    ∃ left, readMessage source = (.ofEnding source.ending, left) := by
  by_cases hfour : source.bytes.length < 4
  · obtain ⟨left, hread⟩ := Source.readExact_of_lt hfour
    refine ⟨left, ?_⟩
    rw [readMessage, hread]
    cases source.ending <;> rfl
  obtain ⟨hshort, hlt⟩ := h.resolve_left hfour
  obtain ⟨middle, hread, hmiddle, hending⟩ := Source.readExact_of_le (Nat.le_of_not_lt hfour)
  have hpart : middle.bytes.length < Bytes.bigValue (source.bytes.take 4) := by
    rw [hmiddle, List.length_drop]
    omega
  obtain ⟨left, hbody⟩ := Source.readExact_of_lt hpart
  refine ⟨left, ?_⟩
  rw [readMessage, hread]
  dsimp only
  rw [if_neg (Nat.not_lt.2 hshort), hbody, hending]
  cases source.ending <;> rfl

theorem receiveMessage_of_presents {message : Message} (h : source.Presents message) :
    ∃ left, receiveMessage source = (some message, left) := by
  obtain ⟨body, rest, hbytes, hlength, hdecode⟩ := h
  obtain ⟨left, hread⟩ := readMessage_of_bytes hbytes hlength
  refine ⟨left, ?_⟩
  rw [receiveMessage, hread, Progress.ofBody, hdecode]

theorem receiveMessage_of_spoils (h : source.Spoils) :
    ∃ left, receiveMessage source = (some { content := .invalid }, left) := by
  cases h with
  | cut fault hincomplete hending =>
      obtain ⟨left, hread⟩ := readMessage_of_incomplete hincomplete
      refine ⟨left, ?_⟩
      rw [receiveMessage, hread, hending]
      rfl
  | oversized hlength htoo =>
      obtain ⟨left, hread, -⟩ := Source.readExact_of_le hlength
      refine ⟨left, ?_⟩
      rw [receiveMessage, readMessage, hread]
      dsimp only
      rw [if_pos htoo]
  | undecodable fault body rest hbytes hlength hfault =>
      obtain ⟨left, hread⟩ := readMessage_of_bytes hbytes hlength
      exact ⟨left, by rw [receiveMessage, hread, Progress.ofBody, hfault]⟩

theorem receiveMessage_of_stalls (h : source.Stalls) :
    ∃ left, receiveMessage source = (none, left) := by
  obtain ⟨left, hread⟩ := readMessage_of_incomplete h.incomplete
  refine ⟨left, ?_⟩
  rw [receiveMessage, hread, h.ending_eq]
  rfl

/-- The content that is received is the one that the source brings. -/
theorem receiveMessage_of_brings {content : Content} (h : source.Brings content) :
    ∃ version left, receiveMessage source = (some ⟨version, content⟩, left) := by
  cases h with
  | message version hpresents => exact ⟨version, receiveMessage_of_presents hpresents⟩
  | spoiled hspoils => exact ⟨version, receiveMessage_of_spoils hspoils⟩

/-! ## Sending -/

section Sending

variable {sink : Sink} {message : Message}

theorem sendMessage_of_accepts (h : sink.Accepts message.framed.length) :
    ∃ after, sendMessage message sink = (.done (), after) ∧
      after.written = sink.written ++ message.framed := by
  obtain ⟨after, hwrite, hwritten⟩ := Sink.writeAll_of_accepts h
  refine ⟨after, ?_, hwritten⟩
  rw [sendMessage, message.frame_eq]
  dsimp only
  rw [hwrite]

theorem sendMessage_of_not_accepts (h : ¬ sink.Accepts message.framed.length) :
    ∃ after, sendMessage message sink = (.ofEnding sink.ending, after) ∧
      after.written = sink.written ++ message.framed.take sink.room := by
  obtain ⟨after, hwrite, hwritten⟩ := Sink.writeAll_of_not_accepts h
  refine ⟨after, ?_, hwritten⟩
  rw [sendMessage, message.frame_eq]
  dsimp only
  rw [hwrite]
  cases sink.ending <;> rfl

end Sending

/-! ## The server -/

/-- The message that a server answers with. -/
def acceptance : Message := { content := .accept }

section Server

variable {sink : Sink} {measurement : Measurement} {request : Request}

theorem serverHandshake_of_accepts (h : source.Brings (.request measurement request))
    (haccepts : sink.Accepts acceptance.framed.length) :
    (serverHandshake source sink).1 = .done (measurement, request) ∧
      (serverHandshake source sink).2.2.written = sink.written ++ acceptance.framed := by
  obtain ⟨version, left, hreceive⟩ := receiveMessage_of_brings h
  obtain ⟨after, hsend, hwritten⟩ := sendMessage_of_accepts haccepts
  rw [serverHandshake, hreceive]
  dsimp only
  rw [show sendMessage { content := .accept } sink = _ from hsend]
  exact ⟨rfl, hwritten⟩

theorem serverHandshake_of_not_accepts (h : source.Brings (.request measurement request))
    (haccepts : ¬ sink.Accepts acceptance.framed.length) :
    (serverHandshake source sink).1 = .ofEnding sink.ending ∧
      (serverHandshake source sink).2.2.written =
        sink.written ++ acceptance.framed.take sink.room := by
  obtain ⟨version, left, hreceive⟩ := receiveMessage_of_brings h
  obtain ⟨after, hsend, hwritten⟩ := sendMessage_of_not_accepts haccepts
  rw [serverHandshake, hreceive]
  dsimp only
  rw [show sendMessage { content := .accept } sink = _ from hsend]
  cases sink.ending with
  | none => exact ⟨rfl, hwritten⟩
  | some fault => exact ⟨rfl, hwritten⟩

/-- Whoever sends something else than a request gets no answer. -/
theorem serverHandshake_of_brings {content : Content} (h : source.Brings content)
    (hother : ∀ measurement request, content ≠ .request measurement request) (sink : Sink) :
    (serverHandshake source sink).1 =
        .failed (.handshake ("Expected SYN, received " ++ content.label)) ∧
      (serverHandshake source sink).2.2 = sink := by
  obtain ⟨version, left, hreceive⟩ := receiveMessage_of_brings h
  rw [serverHandshake, hreceive]
  cases content with
  | invalid => exact ⟨rfl, rfl⟩
  | request measurement request => exact absurd rfl (hother measurement request)
  | accept => exact ⟨rfl, rfl⟩

theorem serverHandshake_of_stalls (h : source.Stalls) (sink : Sink) :
    (serverHandshake source sink).1 = .waiting ∧ (serverHandshake source sink).2.2 = sink := by
  obtain ⟨left, hreceive⟩ := receiveMessage_of_stalls h
  rw [serverHandshake, hreceive]
  exact ⟨rfl, rfl⟩

/-- Only a request makes a server succeed, and only if its answer is taken. -/
theorem serverHandshake_done_iff :
    (serverHandshake source sink).1 = .done (measurement, request) ↔
      (∃ version, source.Presents ⟨version, .request measurement request⟩) ∧
        sink.Accepts acceptance.framed.length := by
  constructor
  · intro hdone
    rcases source.brings_or_stalls with ⟨content, h⟩ | h
    · by_cases hasked : ∃ measurement request, content = .request measurement request
      · obtain ⟨measurement, request, rfl⟩ := hasked
        by_cases haccepts : sink.Accepts acceptance.framed.length
        · rw [(serverHandshake_of_accepts h haccepts).1] at hdone
          cases hdone
          exact ⟨h.presents (by simp), haccepts⟩
        · rw [(serverHandshake_of_not_accepts h haccepts).1] at hdone
          exact absurd hdone (Progress.ofEnding_ne_done _ _)
      · have hother := fun measurement request h => hasked ⟨measurement, request, h⟩
        rw [(serverHandshake_of_brings h hother sink).1] at hdone
        cases hdone
    · rw [(serverHandshake_of_stalls h sink).1] at hdone
      cases hdone
  · rintro ⟨⟨version, hpresents⟩, haccepts⟩
    exact (serverHandshake_of_accepts (.message version hpresents) haccepts).1

end Server

/-! ## The client -/

section Client

variable {sink : Sink} {measurement : Measurement} {request : Request}

/-- The message that a client begins with. -/
def asking (measurement : Measurement) (request : Request) : Message :=
  { content := .request measurement request }

/-- A client whose frame is not taken reads nothing. -/
theorem clientHandshake_of_not_accepts
    (haccepts : ¬ sink.Accepts (asking measurement request).framed.length) (source : Source) :
    (clientHandshake measurement request source sink).1 = .ofEnding sink.ending ∧
      (clientHandshake measurement request source sink).2.1 = source ∧
      (clientHandshake measurement request source sink).2.2.written =
        sink.written ++ (asking measurement request).framed.take sink.room := by
  obtain ⟨after, hsend, hwritten⟩ := sendMessage_of_not_accepts haccepts
  rw [clientHandshake,
    show sendMessage { content := .request measurement request } sink = _ from hsend]
  cases sink.ending with
  | none => exact ⟨rfl, rfl, hwritten⟩
  | some fault => exact ⟨rfl, rfl, hwritten⟩

/-- A client whose frame is taken goes by what the source brings. -/
theorem clientHandshake_of_accepts
    (haccepts : sink.Accepts (asking measurement request).framed.length) (source : Source) :
    (clientHandshake measurement request source sink).2.2.written =
        sink.written ++ (asking measurement request).framed ∧
      (source.Brings .accept →
        (clientHandshake measurement request source sink).1 = .done ()) ∧
      (∀ content, source.Brings content → content ≠ .accept →
        (clientHandshake measurement request source sink).1 =
          .failed (.handshake ("Expected ACK, received " ++ content.label))) ∧
      (source.Stalls → (clientHandshake measurement request source sink).1 = .waiting) := by
  obtain ⟨after, hsend, hwritten⟩ := sendMessage_of_accepts haccepts
  rw [clientHandshake,
    show sendMessage { content := .request measurement request } sink = _ from hsend]
  dsimp only
  refine ⟨?_, fun h => ?_, fun content h hother => ?_, fun h => ?_⟩
  · rcases source.brings_or_stalls with ⟨content, h⟩ | h
    · obtain ⟨version, left, hreceive⟩ := receiveMessage_of_brings h
      rw [hreceive]
      cases content <;> exact hwritten
    · obtain ⟨left, hreceive⟩ := receiveMessage_of_stalls h
      rw [hreceive]
      exact hwritten
  · obtain ⟨version, left, hreceive⟩ := receiveMessage_of_brings h
    rw [hreceive]
  · obtain ⟨version, left, hreceive⟩ := receiveMessage_of_brings h
    rw [hreceive]
    cases content with
    | invalid => rfl
    | request measurement request => rfl
    | accept => exact absurd rfl hother
  · obtain ⟨left, hreceive⟩ := receiveMessage_of_stalls h
    rw [hreceive]

/-- Only an acceptance makes a client succeed, and only if its request is taken. -/
theorem clientHandshake_done_iff :
    (clientHandshake measurement request source sink).1 = .done () ↔
      sink.Accepts (asking measurement request).framed.length ∧
        ∃ version, source.Presents ⟨version, .accept⟩ := by
  constructor
  · intro hdone
    by_cases haccepts : sink.Accepts (asking measurement request).framed.length
    · obtain ⟨-, -, hother, hstalls⟩ := clientHandshake_of_accepts haccepts source
      rcases source.brings_or_stalls with ⟨content, h⟩ | h
      · by_cases hcontent : content = .accept
        · exact ⟨haccepts, (hcontent ▸ h).presents (by simp)⟩
        · rw [hother content h hcontent] at hdone
          cases hdone
      · rw [hstalls h] at hdone
        cases hdone
    · rw [(clientHandshake_of_not_accepts haccepts source).1] at hdone
      exact absurd hdone (Progress.ofEnding_ne_done _ _)
  · rintro ⟨haccepts, version, hpresents⟩
    exact (clientHandshake_of_accepts haccepts source).2.1 (.message version hpresents)

end Client

end LinkMeter.Wire
