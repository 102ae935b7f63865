import LinkMeter.Proofs.Wire.Handshake
import Mathlib.Algebra.BigOperators.Group.List.Basic
import Mathlib.Logic.Function.Basic

/-!
# Both sides of a handshake

A client and a server hold the two ends of a stream that carries bytes in order
and loses none.  How many bytes it takes at a time, in which pieces it delivers
them, and which end comes first is left open (`Dialogue.Step`); there is only a
limit to how many it carries.

What a side has written and what it has come to follows from what the stream has
taken from it and delivered to it so far: an operation that needs more of either
waits.  Each side writes one frame, and what has arrived at an end is the
beginning of the frame of the other (`Dialogue.Carried`).  So a side is done when
its frame was taken and that of the other has arrived (`Dialogue.Over`), and it
waits until then; it never fails.
-/

namespace LinkMeter.Wire

inductive Role where
  | client
  | server
  deriving DecidableEq

/-- The side at the other end. -/
def Role.peer : Role → Role
  | client => server
  | server => client

@[simp] theorem Role.peer_peer (role : Role) : role.peer.peer = role := by cases role <;> rfl

@[simp] theorem Role.peer_ne (role : Role) : role.peer ≠ role := by cases role <;> simp [peer]

/-! ## One end -/

/-- What the stream has done for the side at one end. -/
structure Port where
  /-- How many bytes it took, call by call. -/
  granted : List ℕ := []
  /-- What it delivered, piece by piece. -/
  delivered : List Bytes := []

namespace Port

def arrived (port : Port) : Bytes := port.delivered.flatten

/-- The stream takes up to so many bytes more. -/
def grant (port : Port) (count : ℕ) : Port := { port with granted := port.granted ++ [count] }

/-- The stream delivers a piece more. -/
def deliver (port : Port) (piece : Bytes) : Port :=
  { port with delivered := port.delivered ++ [piece] }

/-- Behind what has been delivered, a reader waits. -/
def source (port : Port) : Source := .ofPieces port.delivered [.silence]

/-- Behind what has been taken, a writer waits. -/
def sink (port : Port) : Sink := { script := some (port.granted.map .take ++ [.silence]) }

variable {port : Port}

theorem room_granted {granted : List ℕ} (h : ∀ count ∈ granted, 0 < count) :
    Acceptance.room (granted.map .take ++ [.silence]) = granted.sum := by
  induction granted with
  | nil => rfl
  | cons count granted ih =>
      obtain ⟨hcount, hothers⟩ := List.forall_mem_cons.1 h
      simp [Acceptance.room, Acceptance.limit?, Nat.ne_of_gt hcount, ih hothers]

theorem obstacle_granted {granted : List ℕ} (h : ∀ count ∈ granted, 0 < count) :
    Acceptance.obstacle (granted.map .take ++ [.silence]) = none := by
  induction granted with
  | nil => rfl
  | cons count granted ih =>
      obtain ⟨hcount, hothers⟩ := List.forall_mem_cons.1 h
      simp [Acceptance.obstacle, Acceptance.limit?, Nat.ne_of_gt hcount, ih hothers]

theorem pos_of_mem_grant {count : ℕ} (h : ∀ one ∈ port.granted, 0 < one) (hcount : 0 < count) :
    ∀ one ∈ (port.grant count).granted, 0 < one := by
  intro one hone
  rcases List.mem_append.1 hone with hold | hnew
  · exact h one hold
  · exact List.mem_singleton.1 hnew ▸ hcount

theorem ne_nil_of_mem_deliver {piece : Bytes} (h : ∀ one ∈ port.delivered, one ≠ [])
    (hpiece : piece ≠ []) : ∀ one ∈ (port.deliver piece).delivered, one ≠ [] := by
  intro one hone
  rcases List.mem_append.1 hone with hold | hnew
  · exact h one hold
  · exact List.mem_singleton.1 hnew ▸ hpiece

theorem accepts_sink_iff (hgrants : ∀ count ∈ port.granted, 0 < count) (count : ℕ) :
    port.sink.Accepts count ↔ count ≤ port.granted.sum := by
  rw [← room_granted hgrants]
  constructor
  · exact fun h => h _ rfl
  · rintro h script hscript
    cases hscript
    exact h

theorem presents_source (hpieces : ∀ piece ∈ port.delivered, piece ≠ []) {message : Message}
    (harrived : port.arrived = message.framed) : port.source.Presents message := by
  refine ⟨message.encode, [], ?_, ?_, ?_⟩
  · rw [source, Source.bytes_ofPieces hpieces, ← arrived, harrived, Message.framed]
    simp [Source.bytes]
  · exact Nat.le_trans message.length_encode_le (by decide)
  · have h := message.ofBytes_encode []
    rwa [List.append_nil] at h

/-- A frame of which a part has arrived is still to come. -/
theorem stalls_source (hpieces : ∀ piece ∈ port.delivered, piece ≠ []) {message : Message}
    (hbegins : port.arrived <+: message.framed) (hne : port.arrived ≠ message.framed) :
    port.source.Stalls := by
  have hbytes : port.source.bytes = port.arrived := by
    rw [source, Source.bytes_ofPieces hpieces, ← arrived]
    exact List.append_nil _
  refine ⟨?_, by rw [source, Source.ending_ofPieces hpieces]; rfl⟩
  rw [Source.Incomplete, hbytes]
  by_cases hfour : port.arrived.length < 4
  · exact .inl hfour
  have hlength : (Bytes.big 4 message.encode.length).length = 4 := Bytes.length_big _ _
  have hlt : port.arrived.length < message.framed.length :=
    Nat.lt_of_le_of_ne hbegins.length_le fun heq => hne (hbegins.eq_of_length heq)
  -- the four bytes that have arrived are those of the frame
  have hhead : port.arrived.take 4 = Bytes.big 4 message.encode.length := by
    obtain ⟨rest, hrest⟩ := hbegins
    calc port.arrived.take 4
        = (port.arrived ++ rest).take 4 :=
          (List.take_append_of_le_length (Nat.le_of_not_lt hfour)).symm
      _ = (Bytes.big 4 message.encode.length ++ message.encode).take 4 := by
          rw [hrest, Message.framed]
      _ = Bytes.big 4 message.encode.length := List.take_left' hlength
  rw [hhead, message.bigValue_length_encode]
  rw [Message.framed, List.length_append, hlength] at hlt
  exact .inr ⟨Nat.le_trans message.length_encode_le (by decide), hlt⟩

end Port

/-! ## Dialogues -/

/-- A handshake between two sides, as far as it has come. -/
structure Dialogue where
  measurement : Measurement
  request : Request
  port : Role → Port := fun _ => {}

namespace Dialogue

/-- What the client has come to. -/
def clientSide (dialogue : Dialogue) : Progress Unit × Source × Sink :=
  clientHandshake dialogue.measurement dialogue.request (dialogue.port .client).source
    (dialogue.port .client).sink

/-- What the server has come to. -/
def serverSide (dialogue : Dialogue) : Progress (Measurement × Request) × Source × Sink :=
  serverHandshake (dialogue.port .server).source (dialogue.port .server).sink

def written (dialogue : Dialogue) : Role → Bytes
  | .client => dialogue.clientSide.2.2.written
  | .server => dialogue.serverSide.2.2.written

/-- What a side has to write. -/
def frame (dialogue : Dialogue) : Role → Bytes
  | .client => (asking dialogue.measurement dialogue.request).framed
  | .server => acceptance.framed

def setPort (dialogue : Dialogue) (role : Role) (port : Port) : Dialogue :=
  { dialogue with port := Function.update dialogue.port role port }

/-- The stream takes up to so many bytes from a side. -/
def grant (dialogue : Dialogue) (role : Role) (count : ℕ) : Dialogue :=
  dialogue.setPort role ((dialogue.port role).grant count)

/-- The stream delivers a piece to a side. -/
def deliver (dialogue : Dialogue) (role : Role) (piece : Bytes) : Dialogue :=
  dialogue.setPort role ((dialogue.port role).deliver piece)

/-- The stream takes some of the bytes that a side wants to write, if it has room for them, or
delivers some of the bytes that are on their way to a side. -/
inductive Step (capacity : ℕ) (dialogue : Dialogue) : Dialogue → Prop where
  | write (role : Role) (count : ℕ) (hcount : 0 < count)
    (hwrites : (dialogue.written role).length < ((dialogue.grant role count).written role).length)
    (hroom : ((dialogue.grant role count).written role).length ≤
      (dialogue.port role.peer).arrived.length + capacity) :
    Step capacity dialogue (dialogue.grant role count)
  | read (role : Role) (piece : Bytes) (hpiece : piece ≠ [])
    (hbegins : (dialogue.port role).arrived ++ piece <+: dialogue.written role.peer) :
    Step capacity dialogue (dialogue.deliver role piece)

/-- The dialogue comes about in so many steps. -/
inductive Reachable (measurement : Measurement) (request : Request) (capacity : ℕ) :
    ℕ → Dialogue → Prop where
  | start : Reachable measurement request capacity 0 { measurement, request }
  | step {steps : ℕ} {dialogue next : Dialogue}
    (hreachable : Reachable measurement request capacity steps dialogue)
    (hstep : Step capacity dialogue next) :
    Reachable measurement request capacity (steps + 1) next

/-! ## What the sides write -/

variable {dialogue : Dialogue} {role : Role}

@[simp] theorem port_setPort (dialogue : Dialogue) (role other : Role) (port : Port) :
    (dialogue.setPort role port).port other = if other = role then port else dialogue.port other :=
  Function.update_apply ..

theorem written_setPort_of_ne {other : Role} (h : other ≠ role) (port : Port) :
    (dialogue.setPort role port).written other = dialogue.written other := by
  cases other with
  | client => rw [written, clientSide, port_setPort, if_neg h]; rfl
  | server => rw [written, serverSide, port_setPort, if_neg h]; rfl

/-- The side is about to write its frame.  A server waits for the frame of the client before. -/
def Ready (dialogue : Dialogue) : Role → Prop
  | .client => True
  | .server => (dialogue.port .server).arrived = dialogue.frame .client

theorem brings_of_ready (hready : dialogue.Ready .server)
    (hpieces : ∀ piece ∈ (dialogue.port .server).delivered, piece ≠ []) :
    (dialogue.port .server).source.Brings (.request dialogue.measurement dialogue.request) :=
  .message _ (Port.presents_source hpieces hready)

/-- A side that is ready writes what is taken from it. -/
theorem written_of_ready (hready : dialogue.Ready role)
    (hgrants : ∀ count ∈ (dialogue.port role).granted, 0 < count)
    (hpieces : ∀ piece ∈ (dialogue.port role).delivered, piece ≠ []) :
    dialogue.written role = (dialogue.frame role).take (dialogue.port role).granted.sum := by
  have hroom : (dialogue.port role).sink.room = (dialogue.port role).granted.sum :=
    Port.room_granted hgrants
  rw [← hroom]
  by_cases haccepts : (dialogue.port role).sink.Accepts (dialogue.frame role).length
  · have hsum := (Port.accepts_sink_iff hgrants _).1 haccepts
    rw [List.take_of_length_le (hroom ▸ hsum)]
    cases role with
    | client => exact (clientHandshake_of_accepts haccepts _).1
    | server => exact (serverHandshake_of_accepts (brings_of_ready hready hpieces) haccepts).2
  · cases role with
    | client => exact (clientHandshake_of_not_accepts haccepts _).2.2
    | server => exact (serverHandshake_of_not_accepts (brings_of_ready hready hpieces) haccepts).2

theorem written_server_of_not_ready (hnot : ¬ dialogue.Ready .server)
    (hpieces : ∀ piece ∈ (dialogue.port .server).delivered, piece ≠ [])
    (hbegins : (dialogue.port .server).arrived <+: dialogue.frame .client) :
    dialogue.written .server = [] := by
  rw [written, serverSide,
    (serverHandshake_of_stalls (Port.stalls_source hpieces hbegins hnot) _).2]
  rfl

/-! ## What the sides have come to -/

/-- The calls that write are of some use, and what has arrived at an end, piece by piece, was
written at the other. -/
structure Carried (dialogue : Dialogue) : Prop where
  grants : ∀ role, ∀ count ∈ (dialogue.port role).granted, 0 < count
  pieces : ∀ role, ∀ piece ∈ (dialogue.port role).delivered, piece ≠ []
  arrived : ∀ role, (dialogue.port role).arrived <+: dialogue.written role.peer

theorem Carried.written_isPrefix (h : dialogue.Carried) (role : Role) :
    dialogue.written role <+: dialogue.frame role := by
  by_cases hready : dialogue.Ready role
  · rw [written_of_ready hready (h.grants role) (h.pieces role)]
    exact List.take_prefix _ _
  cases role with
  | client => exact absurd trivial hready
  | server =>
      have hclient : dialogue.written .client <+: dialogue.frame .client := by
        rw [written_of_ready (show dialogue.Ready .client from trivial) (h.grants .client)
          (h.pieces .client)]
        exact List.take_prefix _ _
      rw [written_server_of_not_ready hready (h.pieces .server) ((h.arrived .server).trans hclient)]
      exact List.nil_prefix

theorem Carried.arrived_isPrefix (h : dialogue.Carried) (role : Role) :
    (dialogue.port role).arrived <+: dialogue.frame role.peer :=
  (h.arrived role).trans (h.written_isPrefix role.peer)

/-- The frame of a side is taken from it and the frame of the other side has arrived at it. -/
def Over (dialogue : Dialogue) (role : Role) : Prop :=
  (dialogue.frame role).length ≤ (dialogue.port role).granted.sum ∧
    (dialogue.port role).arrived = dialogue.frame role.peer

theorem Carried.clientSide_of_over (h : dialogue.Carried) (hover : dialogue.Over .client) :
    dialogue.clientSide.1 = .done () := by
  have haccepts := (Port.accepts_sink_iff (h.grants .client) _).2 hover.1
  refine (clientHandshake_of_accepts haccepts _).2.1 ?_
  exact .message _ (Port.presents_source (h.pieces .client) hover.2)

theorem Carried.clientSide_of_not_over (h : dialogue.Carried) (hover : ¬ dialogue.Over .client) :
    dialogue.clientSide.1 = .waiting := by
  by_cases haccepts : (dialogue.port .client).sink.Accepts (dialogue.frame .client).length
  · have hsum := (Port.accepts_sink_iff (h.grants .client) _).1 haccepts
    refine (clientHandshake_of_accepts haccepts _).2.2.2 ?_
    exact Port.stalls_source (h.pieces .client) (h.arrived_isPrefix .client)
      fun harrived => hover ⟨hsum, harrived⟩
  · refine (clientHandshake_of_not_accepts haccepts _).1.trans ?_
    exact congrArg Progress.ofEnding (Port.obstacle_granted (h.grants .client))

theorem Carried.clientSide_done_iff (h : dialogue.Carried) :
    dialogue.clientSide.1 = .done () ↔ dialogue.Over .client := by
  refine ⟨fun hdone => ?_, h.clientSide_of_over⟩
  by_contra hover
  rw [h.clientSide_of_not_over hover] at hdone
  cases hdone

theorem Carried.serverSide_of_over (h : dialogue.Carried) (hover : dialogue.Over .server) :
    dialogue.serverSide.1 = .done (dialogue.measurement, dialogue.request) := by
  have haccepts := (Port.accepts_sink_iff (h.grants .server) _).2 hover.1
  exact (serverHandshake_of_accepts (brings_of_ready hover.2 (h.pieces .server)) haccepts).1

theorem Carried.serverSide_of_not_over (h : dialogue.Carried) (hover : ¬ dialogue.Over .server) :
    dialogue.serverSide.1 = .waiting := by
  by_cases hready : dialogue.Ready .server
  · have haccepts : ¬ (dialogue.port .server).sink.Accepts (dialogue.frame .server).length :=
      fun haccepts => hover ⟨(Port.accepts_sink_iff (h.grants .server) _).1 haccepts, hready⟩
    refine (serverHandshake_of_not_accepts (brings_of_ready hready (h.pieces .server))
      haccepts).1.trans ?_
    exact congrArg Progress.ofEnding (Port.obstacle_granted (h.grants .server))
  · exact (serverHandshake_of_stalls
      (Port.stalls_source (h.pieces .server) (h.arrived_isPrefix .server) hready) _).1

/-- The client is never done before the server. -/
theorem Carried.over_server (h : dialogue.Carried) (hover : dialogue.Over .client) :
    dialogue.Over .server := by
  have hwritten : dialogue.written .server = dialogue.frame .server := by
    have hle := (h.arrived .client).length_le
    rw [hover.2] at hle
    exact (h.written_isPrefix .server).eq_of_length
      (Nat.le_antisymm (h.written_isPrefix .server).length_le hle)
  -- a server that is not ready has written nothing, and its frame is not empty
  have hframe : acceptance.framed ≠ [] := by decide
  have hready : dialogue.Ready .server := by
    by_contra hnot
    rw [written_server_of_not_ready hnot (h.pieces .server)
      (h.arrived_isPrefix .server)] at hwritten
    exact hframe hwritten.symm
  refine ⟨?_, hready⟩
  have hlength := congrArg List.length
    (written_of_ready hready (h.grants .server) (h.pieces .server))
  rw [hwritten, List.length_take] at hlength
  omega

end Dialogue

end LinkMeter.Wire
