import LinkMeter.Proofs.Wire.Dialogue

/-!
# Agreement

Every step of a dialogue moves a byte at least (`Dialogue.Carried.step`), and as
long as one side is not at its end, there is a step to make
(`Dialogue.Carried.over_of_stuck`).  So a client and a server agree however the
stream between them takes and delivers their bytes.

Together with what either side does on its own, whoever the other one is, this is
what a handshake is good for (`handshake_agreement`).
-/

namespace LinkMeter.Wire

namespace Dialogue

variable {dialogue : Dialogue} {role : Role}

/-! ## Steps -/

theorem port_grant (dialogue : Dialogue) (role other : Role) (count : ℕ) :
    (dialogue.grant role count).port other =
      if other = role then (dialogue.port role).grant count else dialogue.port other :=
  port_setPort ..

theorem port_deliver (dialogue : Dialogue) (role other : Role) (piece : Bytes) :
    (dialogue.deliver role piece).port other =
      if other = role then (dialogue.port role).deliver piece else dialogue.port other :=
  port_setPort ..

theorem arrived_grant (dialogue : Dialogue) (role other : Role) (count : ℕ) :
    ((dialogue.grant role count).port other).arrived = (dialogue.port other).arrived := by
  rw [port_grant]
  split
  case isTrue h => rw [h]; rfl
  case isFalse => rfl

theorem arrived_deliver (dialogue : Dialogue) (role other : Role) (piece : Bytes) :
    ((dialogue.deliver role piece).port other).arrived =
      (dialogue.port other).arrived ++ if other = role then piece else [] := by
  rw [port_deliver]
  split
  case isTrue h =>
    subst h
    simp [Port.arrived, Port.deliver]
  case isFalse => exact (List.append_nil _).symm

theorem ready_grant (hready : dialogue.Ready role) (other : Role) (count : ℕ) :
    (dialogue.grant other count).Ready role := by
  cases role with
  | client => trivial
  | server =>
      rw [Ready, arrived_grant]
      exact hready

/-- What a ready side writes when more is taken from it. -/
theorem written_grant_of_ready (h : dialogue.Carried) (hready : dialogue.Ready role) {count : ℕ}
    (hcount : 0 < count) :
    (dialogue.grant role count).written role =
      (dialogue.frame role).take ((dialogue.port role).granted.sum + count) := by
  have hport : (dialogue.grant role count).port role = (dialogue.port role).grant count := by
    rw [port_grant, if_pos rfl]
  have hframe : (dialogue.grant role count).frame role = dialogue.frame role := by
    cases role <;> rfl
  have hgrants : ∀ one ∈ ((dialogue.grant role count).port role).granted, 0 < one := by
    rw [hport]
    exact Port.pos_of_mem_grant (h.grants role) hcount
  have hpieces : ∀ piece ∈ ((dialogue.grant role count).port role).delivered, piece ≠ [] := by
    rw [hport]
    exact h.pieces role
  rw [written_of_ready (ready_grant hready role count) hgrants hpieces, hport, hframe,
    Port.grant, List.sum_append, List.sum_singleton]

/-- A step takes nothing back that was written. -/
theorem written_isPrefix_grant (h : dialogue.Carried) (role : Role) {count : ℕ} (hcount : 0 < count)
    (other : Role) : dialogue.written other <+: (dialogue.grant role count).written other := by
  by_cases hother : other = role
  · subst hother
    by_cases hready : dialogue.Ready other
    · rw [written_of_ready hready (h.grants other) (h.pieces other),
        written_grant_of_ready h hready hcount]
      exact List.take_prefix_take_left (Nat.le_add_right _ _)
    · cases other with
      | client => exact absurd trivial hready
      | server =>
          rw [written_server_of_not_ready hready (h.pieces .server) (h.arrived_isPrefix .server)]
          exact List.nil_prefix
  · exact ⟨[], by rw [List.append_nil, grant, written_setPort_of_ne hother]⟩

theorem Carried.grant (h : dialogue.Carried) (role : Role) {count : ℕ} (hcount : 0 < count) :
    (dialogue.grant role count).Carried := by
  refine ⟨fun other => ?_, fun other => ?_, fun other => ?_⟩
  · rw [port_grant]
    split
    · exact Port.pos_of_mem_grant (h.grants role) hcount
    · exact h.grants other
  · rw [port_grant]
    split
    · exact h.pieces role
    · exact h.pieces other
  · rw [arrived_grant]
    exact (h.arrived other).trans (written_isPrefix_grant h role hcount other.peer)

/-- A side to which something can be delivered has more of its frame to write after that. -/
theorem written_isPrefix_deliver (h : dialogue.Carried) {piece : Bytes} (hpiece : piece ≠ [])
    (hbegins : (dialogue.port role).arrived ++ piece <+: dialogue.written role.peer)
    (other : Role) : dialogue.written other <+: (dialogue.deliver role piece).written other := by
  by_cases hother : other = role
  · subst hother
    cases other with
    | client =>
        have hport : (dialogue.deliver .client piece).port .client =
            (dialogue.port .client).deliver piece := by
          rw [port_deliver, if_pos rfl]
        have hpieces : ∀ one ∈ ((dialogue.deliver .client piece).port .client).delivered,
            one ≠ [] := by
          rw [hport]
          exact Port.ne_nil_of_mem_deliver (h.pieces .client) hpiece
        rw [written_of_ready (show dialogue.Ready .client from trivial) (h.grants .client)
            (h.pieces .client),
          written_of_ready (show (dialogue.deliver .client piece).Ready .client from trivial)
            (by rw [hport]; exact h.grants .client) hpieces, hport]
        exact List.prefix_rfl
    | server =>
        -- the frame of the client was not there yet, or there would be nothing to deliver
        have hnot : ¬ dialogue.Ready .server := by
          intro hready
          have hle := (hbegins.trans (h.written_isPrefix .client)).length_le
          rw [show (dialogue.port .server).arrived = _ from hready, List.length_append] at hle
          exact hpiece (List.length_eq_zero_iff.1 (by omega))
        rw [written_server_of_not_ready hnot (h.pieces .server) (h.arrived_isPrefix .server)]
        exact List.nil_prefix
  · exact ⟨[], by rw [List.append_nil, deliver, written_setPort_of_ne hother]⟩

theorem Carried.deliver (h : dialogue.Carried) {piece : Bytes} (hpiece : piece ≠ [])
    (hbegins : (dialogue.port role).arrived ++ piece <+: dialogue.written role.peer) :
    (dialogue.deliver role piece).Carried := by
  refine ⟨fun other => ?_, fun other => ?_, fun other => ?_⟩
  · rw [port_deliver]
    split
    · exact h.grants role
    · exact h.grants other
  · rw [port_deliver]
    split
    · exact Port.ne_nil_of_mem_deliver (h.pieces role) hpiece
    · exact h.pieces other
  · refine List.IsPrefix.trans ?_ (written_isPrefix_deliver h hpiece hbegins other.peer)
    rw [arrived_deliver]
    split
    case isTrue heq => exact heq ▸ hbegins
    case isFalse =>
      rw [List.append_nil]
      exact h.arrived other

/-- How many bytes were written and how many have arrived. -/
def moved (dialogue : Dialogue) : ℕ :=
  (dialogue.written .client).length + (dialogue.written .server).length +
    (dialogue.port .client).arrived.length + (dialogue.port .server).arrived.length

theorem Carried.moved_le (h : dialogue.Carried) :
    dialogue.moved ≤ 2 * ((dialogue.frame .client).length + (dialogue.frame .server).length) := by
  have hclient := (h.written_isPrefix .client).length_le
  have hserver := (h.written_isPrefix .server).length_le
  have hthere : (dialogue.port .server).arrived.length ≤ (dialogue.frame .client).length :=
    (h.arrived_isPrefix .server).length_le
  have hback : (dialogue.port .client).arrived.length ≤ (dialogue.frame .server).length :=
    (h.arrived_isPrefix .client).length_le
  unfold moved
  omega

variable {capacity : ℕ} {next : Dialogue}

/-- Every step moves a byte at least. -/
theorem Carried.step (h : dialogue.Carried) (hstep : Step capacity dialogue next) :
    next.Carried ∧ next.measurement = dialogue.measurement ∧ next.request = dialogue.request ∧
      dialogue.moved < next.moved := by
  cases hstep with
  | write role count hcount hwrites hroom =>
      refine ⟨h.grant role hcount, rfl, rfl, ?_⟩
      have hclient := (written_isPrefix_grant h role hcount .client).length_le
      have hserver := (written_isPrefix_grant h role hcount .server).length_le
      rw [moved, moved, arrived_grant, arrived_grant]
      cases role with
      | client => omega
      | server => omega
  | read role piece hpiece hbegins =>
      refine ⟨h.deliver hpiece hbegins, rfl, rfl, ?_⟩
      have hclient := (written_isPrefix_deliver h hpiece hbegins .client).length_le
      have hserver := (written_isPrefix_deliver h hpiece hbegins .server).length_le
      have hpos : 0 < piece.length := List.length_pos_iff.2 hpiece
      rw [moved, moved, arrived_deliver, arrived_deliver, List.length_append, List.length_append]
      cases role with
      | client => simp only [if_true]; omega
      | server => simp only [if_true]; omega

/-- When both sides are at their ends, all bytes that there are have been moved. -/
theorem Carried.stuck_of_over (h : dialogue.Carried) (hover : ∀ role, dialogue.Over role)
    (next : Dialogue) : ¬ Step capacity dialogue next := by
  intro hstep
  obtain ⟨hnext, hmeasurement, hrequest, hmoved⟩ := h.step hstep
  have hle := hnext.moved_le
  have hwritten : ∀ role, dialogue.Ready role → dialogue.written role = dialogue.frame role :=
    fun role hready => (written_of_ready hready (h.grants role) (h.pieces role)).trans
      (List.take_of_length_le (hover role).1)
  have hclient := hwritten .client trivial
  have hserver := hwritten .server (hover .server).2
  rw [moved, hclient, hserver, (hover .client).2, (hover .server).2] at hmoved
  simp only [frame, Role.peer, hmeasurement, hrequest] at hle hmoved
  omega

/-- As long as a side is not at its end, the stream can take a byte from a side or deliver what is
on its way. -/
theorem Carried.over_of_stuck (h : dialogue.Carried) (hcapacity : 0 < capacity)
    (hstuck : ∀ next, ¬ Step capacity dialogue next) (role : Role) : dialogue.Over role := by
  -- nothing is on its way
  have harrived : ∀ role, (dialogue.port role).arrived = dialogue.written role.peer := by
    intro role
    obtain ⟨rest, hrest⟩ := h.arrived role
    by_contra hne
    have hnonempty : rest ≠ [] := by
      rintro rfl
      exact hne (by rw [← hrest, List.append_nil])
    exact hstuck _ (.read role rest hnonempty (hrest ▸ List.prefix_rfl))
  -- and whoever may write has written everything
  have hwritten : ∀ role, dialogue.Ready role →
      (dialogue.frame role).length ≤ (dialogue.port role).granted.sum ∧
        dialogue.written role = dialogue.frame role := by
    intro role hready
    have hnow := written_of_ready hready (h.grants role) (h.pieces role)
    by_cases hle : (dialogue.frame role).length ≤ (dialogue.port role).granted.sum
    · exact ⟨hle, hnow.trans (List.take_of_length_le hle)⟩
    · have hthen := written_grant_of_ready h hready Nat.one_pos
      have hback := harrived role.peer
      rw [Role.peer_peer] at hback
      refine absurd (Step.write role 1 Nat.one_pos ?_ ?_) (hstuck _)
      · rw [hnow, hthen, List.length_take, List.length_take]
        omega
      · rw [hback, hnow, hthen, List.length_take, List.length_take]
        omega
  have hclient := hwritten .client trivial
  have hready : dialogue.Ready .server := (harrived .server).trans hclient.2
  have hserver := hwritten .server hready
  cases role with
  | client => exact ⟨hclient.1, (harrived .client).trans hserver.2⟩
  | server => exact ⟨hserver.1, hready⟩

theorem carried_start (measurement : Measurement) (request : Request) :
    ({ measurement, request } : Dialogue).Carried where
  grants := fun _ _ h => absurd h List.not_mem_nil
  pieces := fun _ _ h => absurd h List.not_mem_nil
  arrived := fun _ => List.nil_prefix

theorem Reachable.carried {measurement : Measurement} {request : Request} {steps : ℕ}
    (hreachable : Reachable measurement request capacity steps dialogue) :
    dialogue.Carried ∧ dialogue.measurement = measurement ∧ dialogue.request = request ∧
      steps ≤ dialogue.moved := by
  induction hreachable with
  | start => exact ⟨carried_start measurement request, rfl, rfl, Nat.zero_le _⟩
  | step _ hstep ih =>
      obtain ⟨hcarried, hmeasurement, hrequest, hsteps⟩ := ih
      obtain ⟨hnext, hsame, hsame', hmoved⟩ := hcarried.step hstep
      exact ⟨hnext, hsame.trans hmeasurement, hsame'.trans hrequest, by omega⟩

end Dialogue

/-! ## Handshakes -/

/-- However a stream takes and delivers the bytes of both sides, neither side fails; the server is
asked for what the client asks for, and is done before the client is; and when the stream has
nothing left to do, which is after at most so many steps, both are done.

On its own, a server succeeds just when the first frame has a request in it and its acceptance is
taken; then it has written that frame and nothing else.  To anything else it has written nothing,
and it tells a failure to write as such.  A client succeeds just when its frame is taken and the
first frame that comes back has an acceptance in it; if its frame is not taken it reads nothing. -/
theorem handshake_agreement :
    (∀ (measurement : Measurement) (request : Request) (capacity steps : ℕ) (dialogue : Dialogue),
      0 < capacity → Dialogue.Reachable measurement request capacity steps dialogue →
      steps ≤ 2 * ((asking measurement request).framed.length + acceptance.framed.length) ∧
      (dialogue.clientSide.1 = .done () ∨ dialogue.clientSide.1 = .waiting) ∧
      (dialogue.serverSide.1 = .done (measurement, request) ∨
        dialogue.serverSide.1 = .waiting) ∧
      (dialogue.clientSide.1 = .done () →
        dialogue.serverSide.1 = .done (measurement, request)) ∧
      ((∀ next, ¬ Dialogue.Step capacity dialogue next) ↔
        dialogue.clientSide.1 = .done () ∧
          dialogue.serverSide.1 = .done (measurement, request))) ∧
    (∀ source sink,
      ((∃ message, source.Presents message) ∨ source.Spoils ∨ source.Stalls) ∧
      (∀ measurement request,
        (serverHandshake source sink).1 = .done (measurement, request) ↔
          (∃ version, source.Presents ⟨version, .request measurement request⟩) ∧
            sink.Accepts acceptance.framed.length) ∧
      (∀ value, (serverHandshake source sink).1 = .done value →
        (serverHandshake source sink).2.2.written = sink.written ++ acceptance.framed) ∧
      (∀ version content, source.Presents ⟨version, content⟩ →
        (∀ measurement request, content ≠ .request measurement request) →
        (serverHandshake source sink).1 =
            .failed (.handshake ("Expected SYN, received " ++ content.label)) ∧
          (serverHandshake source sink).2.2 = sink) ∧
      (source.Spoils →
        (serverHandshake source sink).1 =
            .failed (.handshake "Expected SYN, received Invalid") ∧
          (serverHandshake source sink).2.2 = sink) ∧
      (∀ version measurement request fault,
        source.Presents ⟨version, .request measurement request⟩ →
        ¬ sink.Accepts acceptance.framed.length → sink.ending = some fault →
        (serverHandshake source sink).1 = .failed (.io fault)) ∧
      (source.Stalls →
        (serverHandshake source sink).1 = .waiting ∧
          (serverHandshake source sink).2.2 = sink)) ∧
    ∀ measurement request source sink,
      ((clientHandshake measurement request source sink).1 = .done () ↔
        sink.Accepts (asking measurement request).framed.length ∧
          ∃ version, source.Presents ⟨version, .accept⟩) ∧
      (∀ fault, ¬ sink.Accepts (asking measurement request).framed.length →
        sink.ending = some fault →
        (clientHandshake measurement request source sink).1 = .failed (.io fault) ∧
          (clientHandshake measurement request source sink).2.1 = source) ∧
      (sink.Accepts (asking measurement request).framed.length →
        (clientHandshake measurement request source sink).2.2.written =
            sink.written ++ (asking measurement request).framed ∧
          (∀ version content, source.Presents ⟨version, content⟩ → content ≠ .accept →
            (clientHandshake measurement request source sink).1 =
              .failed (.handshake ("Expected ACK, received " ++ content.label))) ∧
          (source.Spoils →
            (clientHandshake measurement request source sink).1 =
              .failed (.handshake "Expected ACK, received Invalid")) ∧
          (source.Stalls →
            (clientHandshake measurement request source sink).1 = .waiting)) := by
  refine ⟨fun measurement request capacity steps dialogue hcapacity hreachable => ?_,
    fun source sink => ?_, fun measurement request source sink => ?_⟩
  · obtain ⟨hcarried, rfl, rfl, hsteps⟩ := hreachable.carried
    refine ⟨hsteps.trans hcarried.moved_le, ?_, ?_, fun hdone => ?_, fun hstuck => ?_, ?_⟩
    · by_cases hover : dialogue.Over .client
      · exact .inl (hcarried.clientSide_of_over hover)
      · exact .inr (hcarried.clientSide_of_not_over hover)
    · by_cases hover : dialogue.Over .server
      · exact .inl (hcarried.serverSide_of_over hover)
      · exact .inr (hcarried.serverSide_of_not_over hover)
    · exact hcarried.serverSide_of_over
        (hcarried.over_server (hcarried.clientSide_done_iff.1 hdone))
    · have hover := hcarried.over_of_stuck hcapacity hstuck
      exact ⟨hcarried.clientSide_of_over (hover .client),
        hcarried.serverSide_of_over (hover .server)⟩
    · rintro ⟨hdone, -⟩
      have hover := hcarried.clientSide_done_iff.1 hdone
      refine hcarried.stuck_of_over fun role => ?_
      cases role with
      | client => exact hover
      | server => exact hcarried.over_server hover
  · refine ⟨source.presents_or_spoils_or_stalls, fun measurement request =>
      serverHandshake_done_iff, fun ⟨measurement, request⟩ hdone => ?_,
      fun version content hpresents hother => ?_, fun hspoils => ?_,
      fun version measurement request fault hpresents haccepts hending => ?_,
      fun hstalls => serverHandshake_of_stalls hstalls sink⟩
    · obtain ⟨⟨version, hpresents⟩, haccepts⟩ := serverHandshake_done_iff.1 hdone
      exact (serverHandshake_of_accepts (.message version hpresents) haccepts).2
    · exact serverHandshake_of_brings (.message version hpresents) hother sink
    · exact serverHandshake_of_brings (.spoiled hspoils) (fun _ _ => by simp) sink
    · rw [(serverHandshake_of_not_accepts (.message version hpresents) haccepts).1, hending]
      rfl
  · refine ⟨clientHandshake_done_iff, fun fault haccepts hending => ?_, fun haccepts => ?_⟩
    · obtain ⟨hfailed, huntouched, -⟩ := clientHandshake_of_not_accepts haccepts source
      rw [hfailed, hending]
      exact ⟨rfl, huntouched⟩
    · obtain ⟨hwritten, -, hother, hwaiting⟩ := clientHandshake_of_accepts haccepts source
      exact ⟨hwritten, fun version content hpresents => hother content (.message version hpresents),
        fun hspoils => hother .invalid (.spoiled hspoils) (by simp), hwaiting⟩

/-- A client and a server agree over a stream that holds 64 bytes and delivers the request in three
pieces.  A server gets a frame that is too long, or cannot write its answer, and a client cannot
write its request. -/
theorem handshake_agreement_tcpLatency :
    let request : Request := { reverse := true }
    let asked := (asking .tcpLatency request).framed
    let start : Dialogue := { measurement := .tcpLatency, request }
    let first := (start.grant .client 40).deliver .server (asked.take 3)
    let second := (first.deliver .server ((asked.drop 3).take 37)).grant .client 40
    let third := (second.deliver .server (asked.drop 40)).grant .server 20
    let final := third.deliver .client acceptance.framed
    let stubborn : Sink := { script := some [.take 5, .failure (.other "reset")] }
    final.clientSide.1 = .done () ∧ final.serverSide.1 = .done (.tcpLatency, request) ∧
      (serverHandshake [.chunk [0, 0, 64, 1]] {}).1 =
        .failed (.handshake "Expected SYN, received Invalid") ∧
      (serverHandshake [.chunk asked] stubborn).1 = .failed (.io (.other "reset")) ∧
      (clientHandshake .tcpLatency request [] stubborn).1 = .failed (.io (.other "reset")) := by
  intro request asked start first second third final stubborn
  have hfirst : Dialogue.Reachable .tcpLatency request 64 2 first := by
    have h : Dialogue.Reachable .tcpLatency request 64 1 (start.grant .client 40) :=
      .step .start (.write .client 40 (by decide) (by decide +kernel) (by decide +kernel))
    exact .step h (.read .server _ (by decide) (by decide +kernel))
  have hsecond : Dialogue.Reachable .tcpLatency request 64 4 second := by
    have h : Dialogue.Reachable .tcpLatency request 64 3
        (first.deliver .server ((asked.drop 3).take 37)) :=
      .step hfirst (.read .server _ (by decide) (by decide +kernel))
    exact .step h (.write .client 40 (by decide) (by decide +kernel) (by decide +kernel))
  have hthird : Dialogue.Reachable .tcpLatency request 64 6 third := by
    have h : Dialogue.Reachable .tcpLatency request 64 5 (second.deliver .server (asked.drop 40)) :=
      .step hsecond (.read .server _ (by decide) (by decide +kernel))
    exact .step h (.write .server 20 (by decide) (by decide +kernel) (by decide +kernel))
  have hfinal : Dialogue.Reachable .tcpLatency request 64 7 final :=
    .step hthird (.read .client _ (by decide) (by decide +kernel))
  obtain ⟨hboth, hserver, hclient⟩ := handshake_agreement
  obtain ⟨-, -, -, -, hstuck⟩ := hboth .tcpLatency request 64 7 final (by decide) hfinal
  -- no step is left, as both frames were taken and have arrived
  have hends : ∀ role, final.Over role := by
    intro role
    cases role with
    | client => exact ⟨by decide +kernel, by decide +kernel⟩
    | server => exact ⟨by decide +kernel, by decide +kernel⟩
  obtain ⟨hdone, hagreed⟩ := hstuck.1 (hfinal.carried.1.stuck_of_over hends)
  have hanswer : ¬ stubborn.Accepts acceptance.framed.length :=
    fun h => absurd (h _ rfl) (by decide)
  have hasked : ¬ stubborn.Accepts (asking .tcpLatency request).framed.length :=
    fun h => absurd (h _ rfl) (by decide +kernel)
  refine ⟨hdone, hagreed, ?_, ?_, ?_⟩
  · obtain ⟨-, -, -, -, hspoiled, -⟩ := hserver [.chunk [0, 0, 64, 1]] {}
    exact (hspoiled (.oversized (by decide) (by decide))).1
  · obtain ⟨-, -, -, -, -, hfailed, -⟩ := hserver [.chunk asked] stubborn
    exact hfailed 1 .tcpLatency request _ ⟨(asking .tcpLatency request).encode, [],
      by decide +kernel, by decide +kernel, by decide +kernel⟩ hanswer rfl
  · obtain ⟨-, hfailed, -⟩ := hclient .tcpLatency request [] stubborn
    exact (hfailed _ hasked rfl).1

end LinkMeter.Wire
