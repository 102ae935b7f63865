import LinkMeter.Proofs.Wire.Frames
import LinkMeter.Proofs.Wire.Streams

/-!
# What a reader of frames accepts

A frame that declares to be too long is refused behind its length; every other
frame is consumed to its end, whatever is in it, so that the next one is met at
its beginning (`readEach_ofPieces`).  A frame is accepted just when it begins
with a layout whose numbers are in range, and then the message of that layout is
read (`Message.ofBytes_layout`).

What is left of a source is compared with the source itself: `Source.Consumed`
says that so many bytes are gone from its head, and nothing else.
-/

namespace LinkMeter.Wire

/-! ## What is left of a source -/

namespace Source

/-- The first `count` bytes of a source are gone, and everything behind them is left, in pieces of
any kind. -/
def Consumed (source : Source) (count : ℕ) (rest : Source) : Prop :=
  ∃ (head tail : Bytes) (pieces left : List Bytes) (later : Source), head.length = count ∧
    (head ++ tail).Cut pieces ∧ tail.Cut left ∧ source = ofPieces pieces later ∧
      rest = ofPieces left later

end Source

/-! ## Frames -/

variable {source : Source}

/-- A frame that declares to be too long is refused behind its length. -/
theorem readMessage_oversized (hlength : 4 ≤ source.bytes.length)
    (htoo : maxMessageSize < Bytes.bigValue (source.bytes.take 4)) :
    ∃ rest, source.Consumed 4 rest ∧ readMessage source =
      (.failed (.protocol ("Declared message length " ++
        Decimal.text (Bytes.bigValue (source.bytes.take 4)) ++ " exceeds limit of " ++
        Decimal.text maxMessageSize)), rest) := by
  obtain ⟨pieces, later, hcut, hsource⟩ := source.exists_ofPieces
  have hhead : (source.bytes.take 4).length = 4 := List.length_take_of_le hlength
  rw [← List.take_append_drop 4 source.bytes] at hcut
  obtain ⟨left, hleft, hread⟩ := Source.readExact_ofPieces hcut later
  rw [hhead, ← hsource] at hread
  refine ⟨_, ⟨_, _, _, _, later, hhead, hcut, hleft, hsource, rfl⟩, ?_⟩
  rw [readMessage, hread]
  dsimp only
  rw [if_pos htoo]

/-- A frame in a row of frames. -/
def frameOf (body : Bytes) : Bytes := Bytes.big 4 body.length ++ body

/-- So many frames, read one after the other whatever comes of them. -/
def readEach : ℕ → Source → List (Progress Message) × Source
  | 0, source => ([], source)
  | count + 1, source =>
    let (first, source) := readMessage source
    let (others, source) := readEach count source
    (first :: others, source)

theorem readEach_ofPieces {bodies : List Bytes} {rest : Bytes} {pieces : List Bytes}
    (hshort : ∀ body ∈ bodies, body.length ≤ maxMessageSize)
    (hcut : Bytes.Cut (bodies.flatMap frameOf ++ rest) pieces) (later : Source) :
    ∃ left, rest.Cut left ∧ readEach bodies.length (Source.ofPieces pieces later) =
      (bodies.map Progress.ofBody, Source.ofPieces left later) := by
  induction bodies generalizing pieces with
  | nil => exact ⟨pieces, hcut, rfl⟩
  | cons body bodies ih =>
      obtain ⟨hbody, hothers⟩ := List.forall_mem_cons.1 hshort
      rw [List.flatMap_cons, frameOf, List.append_assoc, List.append_assoc] at hcut
      obtain ⟨middle, hmiddle, hfirst⟩ := readMessage_ofPieces hbody hcut later
      obtain ⟨left, hleft, hread⟩ := ih hothers hmiddle
      refine ⟨left, hleft, ?_⟩
      rw [List.length_cons, readEach, hfirst]
      dsimp only
      rw [hread, List.map_cons]

/-- The frames of a source are consumed one by one. -/
theorem readEach_of_bytes {bodies : List Bytes} {rest : Bytes}
    (hshort : ∀ body ∈ bodies, body.length ≤ maxMessageSize)
    (hbytes : source.bytes = bodies.flatMap frameOf ++ rest) :
    ∃ left, source.Consumed (bodies.flatMap frameOf).length left ∧
      readEach bodies.length source = (bodies.map Progress.ofBody, left) := by
  obtain ⟨pieces, later, hcut, hsource⟩ := source.exists_ofPieces
  rw [hbytes] at hcut
  obtain ⟨left, hleft, hread⟩ := readEach_ofPieces hshort hcut later
  rw [← hsource] at hread
  exact ⟨_, ⟨_, _, _, _, later, rfl, hcut, hleft, hsource, rfl⟩, hread⟩

/-- A frame that is all there is consumed, and its message is read if there is one in it. -/
theorem readMessage_whole
    (hshort : Bytes.bigValue (source.bytes.take 4) ≤ maxMessageSize)
    (hwhole : 4 + Bytes.bigValue (source.bytes.take 4) ≤ source.bytes.length) :
    ∃ rest, source.Consumed (4 + Bytes.bigValue (source.bytes.take 4)) rest ∧
      readMessage source =
        (.ofBody ((source.bytes.drop 4).take (Bytes.bigValue (source.bytes.take 4))), rest) := by
  obtain ⟨pieces, later, hcut, hsource⟩ := source.exists_ofPieces
  obtain ⟨hbody, hbytes⟩ := Bytes.eq_frame hwhole
  have hframe := hcut
  rw [hbytes] at hframe
  rw [← hbody] at hshort
  obtain ⟨left, hleft, hread⟩ := readMessage_ofPieces hshort hframe later
  rw [← hsource] at hread
  rw [← List.append_assoc] at hframe
  refine ⟨_, ⟨_, _, _, _, later, ?_, hframe, hleft, hsource, rfl⟩, hread⟩
  rw [List.length_append, Bytes.length_big, hbody]

/-! ## Layouts -/

variable {body : Bytes}

theorem Progress.ofBody_eq_done_iff {message : Message} :
    Progress.ofBody body = .done message ↔ Message.ofBytes body = .ok message := by
  unfold Progress.ofBody
  constructor
  · intro h
    split at h
    case h_1 hdecode =>
      cases h
      exact hdecode
    case h_2 => cases h
  · intro h
    rw [h]

theorem Progress.ofBody_cases (body : Bytes) :
    (∃ message, Progress.ofBody body = .done message) ∨
      ∃ fault, Progress.ofBody body = .failed (.codec fault) := by
  unfold Progress.ofBody
  cases Message.ofBytes body with
  | ok message => exact .inl ⟨message, rfl⟩
  | error fault => exact .inr ⟨fault, rfl⟩

/-- A message is read just when the body begins with a layout in range. -/
theorem Progress.exists_ofBody_iff :
    (∃ message, Progress.ofBody body = .done message) ↔
      ∃ (layout : Layout) (tail : Bytes), layout.Valid ∧ body = layout.bytes ++ tail := by
  constructor
  · rintro ⟨message, h⟩
    obtain ⟨tail, hdecode⟩ := Message.ofBytes_eq_ok_iff.1 (ofBody_eq_done_iff.1 h)
    obtain ⟨layout, hdenotes, hbody⟩ := Message.decode_eq_ok_iff.1 hdecode
    exact ⟨layout, tail, Layout.valid_iff.2 ⟨message, hdenotes⟩, hbody⟩
  · rintro ⟨layout, tail, hvalid, hbody⟩
    obtain ⟨message, hdenotes⟩ := Layout.valid_iff.1 hvalid
    have hdecode := Message.decode_eq_ok_iff.2 ⟨layout, hdenotes, hbody⟩
    exact ⟨message, ofBody_eq_done_iff.2 (Message.ofBytes_eq_ok_iff.2 ⟨tail, hdecode⟩)⟩

/-- The message that is read is the one that the layout stands for. -/
theorem Layout.Denotes.ofBody {layout : Layout} {message : Message} (h : layout.Denotes message)
    (tail : Bytes) : Progress.ofBody (layout.bytes ++ tail) = .done message :=
  Progress.ofBody_eq_done_iff.2 (Message.ofBytes_eq_ok_iff.2 ⟨tail, h.takes tail⟩)

/-- The frame of a message holds a layout of the message just when that carries nothing. -/
theorem Layout.Denotes.drop_framed_iff {layout : Layout} {message : Message}
    (h : layout.Denotes message) : message.framed.drop 4 = layout.bytes ↔ layout.Normal := by
  rw [Message.framed, List.drop_left' (Bytes.length_big _ _)]
  exact Message.encode_eq_bytes_iff h

/-- A frame on its own is read, and nothing of it is left. -/
theorem readMessage_chunk_framed (message : Message) (later : Source) :
    readMessage (.chunk message.framed :: later) = (.done message, later) := by
  have hne : message.framed ≠ [] := by simp [Message.framed, Bytes.big, Bytes.little]
  have hcut : (message.framed ++ []).Cut [message.framed] := ⟨by simpa using hne, by simp⟩
  obtain ⟨left, hleft, hread⟩ := readMessage_framed message hcut later
  rw [hleft.eq_nil] at hread
  exact hread

/-! ## The language -/

/-- A frame that declares to be too long is refused, and its length is all that is consumed.  Any
other frame that is all there is consumed to its end.  It is accepted just when its body begins with
a layout whose numbers are in range, and is no message otherwise; what is behind the layout does not
matter.  The message of the layout has a frame, which is read as the same message, and that frame
holds the layout itself just when no span of the layout carries seconds.

So the frames of a source are read one after the other, whether they are accepted or not. -/
theorem readMessage_language :
    (∀ source : Source, 4 ≤ source.bytes.length →
      let declared := Bytes.bigValue (source.bytes.take 4)
      let body := (source.bytes.drop 4).take declared
      (16384 < declared → ∃ rest, source.Consumed 4 rest ∧
        readMessage source = (.failed (.protocol ("Declared message length " ++
          Decimal.text declared ++ " exceeds limit of " ++ Decimal.text 16384)), rest)) ∧
      (declared ≤ 16384 → 4 + declared ≤ source.bytes.length →
        ∃ rest, source.Consumed (4 + declared) rest ∧
          ((∃ message, readMessage source = (.done message, rest)) ↔
            ∃ (layout : Layout) (tail : Bytes), layout.Valid ∧ body = layout.bytes ++ tail) ∧
          ((∃ message, readMessage source = (.done message, rest)) ∨
            ∃ fault, readMessage source = (.failed (.codec fault), rest)) ∧
          ∀ (layout : Layout) (tail : Bytes), layout.Valid → body = layout.bytes ++ tail →
            ∃ message, layout.Denotes message ∧ readMessage source = (.done message, rest) ∧
              message.frame = .ok message.framed ∧
              (∀ later, readMessage (.chunk message.framed :: later) = (.done message, later)) ∧
              (message.framed.drop 4 = layout.bytes ↔ layout.Normal))) ∧
    ∀ (source : Source) (bodies : List Bytes) (rest : Bytes),
      (∀ body ∈ bodies, body.length ≤ 16384) →
      source.bytes = bodies.flatMap frameOf ++ rest →
      ∃ left, source.Consumed (bodies.flatMap frameOf).length left ∧
        readEach bodies.length source = (bodies.map Progress.ofBody, left) := by
  refine ⟨fun source hlength => ⟨fun htoo => readMessage_oversized hlength htoo,
    fun hshort hwhole => ?_⟩, fun source bodies rest => readEach_of_bytes⟩
  obtain ⟨rest, hconsumed, hread⟩ := readMessage_whole hshort hwhole
  refine ⟨rest, hconsumed, ?_, ?_, fun layout tail hvalid hbody => ?_⟩
  · simp only [hread, Prod.mk.injEq, and_true]
    exact Progress.exists_ofBody_iff
  · simp only [hread, Prod.mk.injEq, and_true]
    exact Progress.ofBody_cases _
  · obtain ⟨message, hdenotes⟩ := Layout.valid_iff.1 hvalid
    refine ⟨message, hdenotes, ?_, message.frame_eq, readMessage_chunk_framed message,
      hdenotes.drop_framed_iff⟩
    rw [hread, hbody, hdenotes.ofBody]

/-- A request whose duration carries a second is followed by a byte, by a frame of two bytes that
are no message, and by a length that is refused. -/
theorem readMessage_language_carried :
    let layout : Layout :=
      ⟨1, .request ⟨0, 4⟩ ⟨1, 16384, 1000, 1, ⟨10, 1_500_000_000⟩, ⟨0, 5⟩, 1, 0, 0⟩⟩
    let bodies : List Bytes := [layout.bytes ++ [0xff], [9, 9]]
    let source : Source := [.chunk (bodies.flatMap frameOf ++ [0, 0, 64, 1]), .silence]
    (∃ rest, source.Consumed 71 rest ∧ ∃ message, layout.Denotes message ∧
      readMessage source = (.done message, rest) ∧ message.framed.drop 4 ≠ layout.bytes) ∧
    (∃ left, source.Consumed 77 left ∧
      readEach 2 source = (bodies.map Progress.ofBody, left)) ∧
    ∃ rest, Source.Consumed [.chunk [0, 0, 64, 1], .silence] 4 rest ∧
      readMessage [.chunk [0, 0, 64, 1], .silence] = (.failed (.protocol
        ("Declared message length " ++ Decimal.text 16385 ++ " exceeds limit of " ++
          Decimal.text 16384)), rest) := by
  intro layout bodies source
  obtain ⟨hone, heach⟩ := readMessage_language
  refine ⟨?_, ?_, ?_⟩
  · obtain ⟨-, hwhole⟩ := hone source (by decide +kernel)
    obtain ⟨rest, hconsumed, -, -, hread⟩ := hwhole (by decide +kernel) (by decide +kernel)
    have hdeclared : Bytes.bigValue (source.bytes.take 4) = 67 := by decide +kernel
    rw [hdeclared] at hconsumed
    have hvalid : layout.Valid := ⟨⟨by decide, by decide⟩, .inr rfl, by decide, by decide⟩
    obtain ⟨message, hdenotes, hdone, -, -, hframe⟩ :=
      hread layout [0xff] hvalid (by decide +kernel)
    exact ⟨rest, hconsumed, message, hdenotes, hdone, fun h => absurd (hframe.1 h).duration
      (by decide)⟩
  · exact heach source bodies [0, 0, 64, 1] (by decide) (by decide +kernel)
  · obtain ⟨hrefused, -⟩ := hone [.chunk [0, 0, 64, 1], .silence] (by decide)
    exact hrefused (by decide)

end LinkMeter.Wire
