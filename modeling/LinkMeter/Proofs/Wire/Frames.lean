import LinkMeter.Proofs.Wire.Layout
import LinkMeter.Proofs.Wire.Pieces
import LinkMeter.Wire.Handshake

/-!
# Frames on a stream

A frame is short enough for every message, and the length in front of it is the
length of what follows (`frame_eq`).  So frames that are written one after the
other are read back one after the other, wherever the stream is cut, and
reading stops at the first byte behind the last of them
(`readMessages_framed`).
-/

namespace LinkMeter.Wire

namespace Message

/-! ## The length of a message -/

theorem length_encodeRequest (request : Request) : (encodeRequest request).length = 50 := by
  simp [encodeRequest, encodeUInt32, encodeUInt64, encodeSpan, encodeBool]

theorem length_encode_le (message : Message) : message.encode.length ≤ 66 := by
  obtain ⟨version, content⟩ := message
  cases content with
  | invalid => simp [encode, encodeUInt32, encodeCase]
  | accept => simp [encode, encodeUInt32, encodeCase]
  | request measurement request =>
      simp [encode, encodeUInt32, encodeCase, encodeMeasurement, encodeTransport, encodeKind,
        length_encodeRequest]

/-- The length of a message in four bytes, and the message. -/
def framed (message : Message) : Bytes := Bytes.big 4 message.encode.length ++ message.encode

theorem frame_eq (message : Message) : message.frame = .ok message.framed := by
  have hle := message.length_encode_le
  have hshort : ¬ message.encode.length > maxMessageSize := by
    rw [maxMessageSize]
    omega
  rw [frame, if_neg hshort, framed]

/-- The bytes in front of a message tell its length. -/
theorem bigValue_length_encode (message : Message) :
    Bytes.bigValue (Bytes.big 4 message.encode.length) = message.encode.length := by
  have hle := message.length_encode_le
  have hpow : (256 : ℕ) ^ 4 = 0x1_0000_0000 := by decide
  rw [Bytes.bigValue_big, Nat.mod_eq_of_lt (by omega)]

end Message

/-! ## Reading frames -/

/-- A string with a length in its first four bytes and as many bytes behind them begins with a
frame. -/
theorem Bytes.eq_frame {bytes : Bytes}
    (hwhole : 4 + Bytes.bigValue (bytes.take 4) ≤ bytes.length) :
    let body := (bytes.drop 4).take (Bytes.bigValue (bytes.take 4))
    body.length = Bytes.bigValue (bytes.take 4) ∧
      bytes = Bytes.big 4 body.length ++
        (body ++ (bytes.drop 4).drop (Bytes.bigValue (bytes.take 4))) := by
  intro body
  have hhead : (bytes.take 4).length = 4 := List.length_take_of_le (by omega)
  have hbody : body.length = Bytes.bigValue (bytes.take 4) := by
    refine List.length_take_of_le ?_
    rw [List.length_drop]
    omega
  have hlength := Bytes.big_bigValue (bytes.take 4)
  rw [hhead] at hlength
  refine ⟨hbody, ?_⟩
  rw [List.take_append_drop, hbody, hlength, List.take_append_drop]

/-- What comes of the bytes in a frame. -/
def Progress.ofBody (body : Bytes) : Progress Message :=
  match Message.ofBytes body with
  | .ok message => .done message
  | .error fault => .failed (.codec fault)

/-- Reading consumes a frame that is short enough and nothing else, whatever is in it and however
the stream is cut. -/
theorem readMessage_ofPieces {body rest : Bytes} {pieces : List Bytes}
    (hlength : body.length ≤ maxMessageSize)
    (hcut : (Bytes.big 4 body.length ++ (body ++ rest)).Cut pieces) (later : Source) :
    ∃ left, rest.Cut left ∧
      readMessage (Source.ofPieces pieces later) = (.ofBody body, Source.ofPieces left later) := by
  -- the length is read first, which leaves the body and the rest in pieces of their own
  obtain ⟨middle, hmiddle, hhead⟩ := Source.readExact_ofPieces hcut later
  obtain ⟨left, hleft, hbody⟩ := Source.readExact_ofPieces hmiddle later
  rw [Bytes.length_big] at hhead
  have hvalue : Bytes.bigValue (Bytes.big 4 body.length) = body.length := by
    have hpow : (256 : ℕ) ^ 4 = 0x1_0000_0000 := by decide
    rw [maxMessageSize] at hlength
    rw [Bytes.bigValue_big, Nat.mod_eq_of_lt (by omega)]
  refine ⟨left, hleft, ?_⟩
  rw [readMessage, hhead]
  dsimp only
  rw [hvalue, if_neg (Nat.not_lt.2 hlength), hbody]
  dsimp only
  rw [Progress.ofBody]
  cases Message.ofBytes body <;> rfl

theorem Progress.ofBody_encode (message : Message) : ofBody message.encode = .done message := by
  have h := message.ofBytes_encode []
  rw [List.append_nil] at h
  rw [ofBody, h]

/-- Reading a message consumes its frame and nothing else, however the stream is cut. -/
theorem readMessage_framed (message : Message) {rest : Bytes} {pieces : List Bytes}
    (hcut : (message.framed ++ rest).Cut pieces) (later : Source) :
    ∃ left, rest.Cut left ∧
      readMessage (Source.ofPieces pieces later) = (.done message, Source.ofPieces left later) := by
  rw [Message.framed, List.append_assoc] at hcut
  have hle := message.length_encode_le
  have hshort : message.encode.length ≤ maxMessageSize := by
    rw [maxMessageSize]
    omega
  rw [← Progress.ofBody_encode]
  exact readMessage_ofPieces hshort hcut later

/-- So many messages, read one after the other. -/
def readMessages : ℕ → Source → Progress (List Message) × Source
  | 0, source => (.done [], source)
  | count + 1, source =>
    match readMessage source with
    | (.failed failure, rest) => (.failed failure, rest)
    | (.waiting, rest) => (.waiting, rest)
    | (.done message, rest) =>
      match readMessages count rest with
      | (.failed failure, rest) => (.failed failure, rest)
      | (.waiting, rest) => (.waiting, rest)
      | (.done messages, rest) => (.done (message :: messages), rest)

theorem readMessages_ofPieces (messages : List Message) {rest : Bytes} {pieces : List Bytes}
    (hcut : Bytes.Cut (messages.flatMap Message.framed ++ rest) pieces) (later : Source) :
    ∃ left, rest.Cut left ∧ readMessages messages.length (Source.ofPieces pieces later) =
      (.done messages, Source.ofPieces left later) := by
  induction messages generalizing pieces with
  | nil => exact ⟨pieces, hcut, rfl⟩
  | cons message messages ih =>
      rw [List.flatMap_cons, List.append_assoc] at hcut
      obtain ⟨middle, hmiddle, hfirst⟩ := readMessage_framed message hcut later
      obtain ⟨left, hleft, hothers⟩ := ih hmiddle
      refine ⟨left, hleft, ?_⟩
      rw [List.length_cons, readMessages, hfirst]
      dsimp only
      rw [hothers]

/-- Every message has a frame, whose first four bytes tell the length of the others.  The frames of
some messages, followed by any bytes and cut into any pieces, are read back as these messages, and
just the bytes behind them are left. -/
theorem readMessages_framed (messages : List Message) (rest : Bytes) (pieces : List Bytes)
    (later : Source) (hne : ∀ piece ∈ pieces, piece ≠ [])
    (hcut : pieces.flatten = messages.flatMap Message.framed ++ rest) :
    (∀ message ∈ messages, message.frame = .ok message.framed ∧
      4 ≤ message.framed.length ∧
      Bytes.bigValue (message.framed.take 4) = (message.framed.drop 4).length) ∧
    ∃ left : List Bytes, (∀ piece ∈ left, piece ≠ []) ∧ left.flatten = rest ∧
      readMessages messages.length (pieces.map Arrival.chunk ++ later) =
        (.done messages, left.map Arrival.chunk ++ later) := by
  constructor
  · intro message _
    have hlength : (Bytes.big 4 message.encode.length).length = 4 := Bytes.length_big _ _
    refine ⟨message.frame_eq, ?_, ?_⟩
    · rw [Message.framed, List.length_append, hlength]
      omega
    · rw [Message.framed, List.take_left' hlength, List.drop_left' hlength,
        message.bigValue_length_encode]
  · obtain ⟨left, hleft, hread⟩ := readMessages_ofPieces messages ⟨hne, hcut⟩ later
    exact ⟨left, hleft.ne_nil, hleft.flatten_eq, hread⟩

/-- An acceptance and a request, cut inside a length, inside a version and inside a number, with one
byte behind them. -/
theorem readMessages_framed_pair :
    ∃ left : List Bytes, (∀ piece ∈ left, piece ≠ []) ∧ left.flatten = [0xff] ∧
      readMessages 2
        [.chunk [0, 0], .chunk [0, 8, 7, 0], .chunk [0, 0, 2, 0, 0, 0, 0, 0, 0, 66],
          .chunk [1, 0, 0, 0, 1, 0, 0, 0, 1, 0, 0, 0, 3, 0, 0, 0, 1, 0, 0, 0, 0, 64, 0],
          .chunk [0, 232, 3, 0, 0, 1, 10, 0, 0, 0, 0, 0, 0, 0, 0, 0, 0, 0, 0, 0, 0, 0, 0, 0, 0, 0],
          .chunk [5, 0, 0, 0, 1, 0, 0, 0, 0, 0, 0, 0, 0, 0, 0, 0, 0, 0xff], .silence] =
        (.done [⟨7, .accept⟩,
          ⟨1, .request ⟨.udp, .packetRate⟩ { reverse := true, gap := Span.ofNanos 5 }⟩],
          left.map Arrival.chunk ++ [.silence]) := by
  let request : Request := { reverse := true, gap := Span.ofNanos 5 }
  let messages : List Message := [⟨7, .accept⟩, ⟨1, .request ⟨.udp, .packetRate⟩ request⟩]
  let pieces : List Bytes :=
    [[0, 0], [0, 8, 7, 0], [0, 0, 2, 0, 0, 0, 0, 0, 0, 66],
      [1, 0, 0, 0, 1, 0, 0, 0, 1, 0, 0, 0, 3, 0, 0, 0, 1, 0, 0, 0, 0, 64, 0],
      [0, 232, 3, 0, 0, 1, 10, 0, 0, 0, 0, 0, 0, 0, 0, 0, 0, 0, 0, 0, 0, 0, 0, 0, 0, 0],
      [5, 0, 0, 0, 1, 0, 0, 0, 0, 0, 0, 0, 0, 0, 0, 0, 0, 0xff]]
  exact (readMessages_framed messages [0xff] pieces [.silence] (by decide) (by decide)).2

end LinkMeter.Wire
