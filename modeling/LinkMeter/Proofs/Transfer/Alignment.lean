import LinkMeter.Client.Work
import LinkMeter.Proofs.Server.Service
import LinkMeter.Proofs.Transfer.Delivery
import LinkMeter.Proofs.Wire.Handshake

/-!
# Handshake and data on one stream

The data of a connection follows the frame of the handshake without a mark
between them, and the stream may be cut anywhere, inside the frame, inside the
data or across both.  A side that has read its frame has left just the data
(`Wire.serverHandshake_ofPieces`, `Wire.clientHandshake_ofPieces`), so its pump
counts the data and no byte of the frame, whichever side it is
(`Service.receives_of_cut`, `Client.receives_of_cut`).

A pump that sends puts as many bytes on its stream as it counts.  If the stream
brings them all to the other side, both count the same (`phases_aligned`).
-/

namespace LinkMeter

open Transfer (Chance Sent takenOf)
open Wire

/-! ## Handshakes that leave the data -/

namespace Wire

variable {version : UInt32} {measurement : Measurement} {request : Request} {data : Bytes}
  {pieces : List Bytes} {sink : Sink}

/-- A server that reads a request leaves what follows the request. -/
theorem serverHandshake_ofPieces
    (hcut : (Message.framed ⟨version, .request measurement request⟩ ++ data).Cut pieces)
    (haccepts : sink.Accepts acceptance.framed.length) (later : Source) :
    ∃ left after, data.Cut left ∧
      serverHandshake (Source.ofPieces pieces later) sink =
        (.done (measurement, request), Source.ofPieces left later, after) ∧
      after.written = sink.written ++ acceptance.framed := by
  obtain ⟨left, hleft, hread⟩ := readMessage_framed _ hcut later
  obtain ⟨after, hsend, hwritten⟩ := sendMessage_of_accepts haccepts
  refine ⟨left, after, hleft, ?_, hwritten⟩
  rw [serverHandshake, receiveMessage, hread]
  dsimp only
  rw [show sendMessage { content := .accept } sink = _ from hsend]

/-- A request may arrive in one piece. -/
theorem serverHandshake_chunk {after : Sink}
    (hsend : sendMessage { content := .accept } sink = (.done (), after)) :
    serverHandshake [.chunk (Message.framed ⟨version, .request measurement request⟩)] sink =
      (.done (measurement, request), [], after) := by
  have hcut : (Message.framed ⟨version, .request measurement request⟩ ++ []).Cut
      [Message.framed ⟨version, .request measurement request⟩] :=
    ⟨by simp [Message.framed, Bytes.big, Bytes.little], by simp⟩
  obtain ⟨left, hleft, hread⟩ := readMessage_framed _ hcut []
  obtain rfl := hleft.eq_nil
  have hsource : Source.ofPieces [Message.framed ⟨version, .request measurement request⟩] [] =
      [.chunk (Message.framed ⟨version, .request measurement request⟩)] := rfl
  rw [serverHandshake, receiveMessage, ← hsource, hread]
  dsimp only
  rw [hsend]
  rfl

/-- A client that reads an acceptance leaves what follows the acceptance. -/
theorem clientHandshake_ofPieces (hcut : (Message.framed ⟨version, .accept⟩ ++ data).Cut pieces)
    (haccepts : sink.Accepts (asking measurement request).framed.length) (later : Source) :
    ∃ left after, data.Cut left ∧
      clientHandshake measurement request (Source.ofPieces pieces later) sink =
        (.done (), Source.ofPieces left later, after) ∧
      after.written = sink.written ++ (asking measurement request).framed := by
  obtain ⟨left, hleft, hread⟩ := readMessage_framed _ hcut later
  obtain ⟨after, hsend, hwritten⟩ := sendMessage_of_accepts haccepts
  refine ⟨left, after, hleft, ?_, hwritten⟩
  rw [clientHandshake,
    show sendMessage { content := .request measurement request } sink = _ from hsend]
  dsimp only
  rw [receiveMessage, hread]

/-- A client that is done has written its request, and nothing else. -/
theorem written_of_clientHandshake_done {source left : Source} {after : Sink}
    (hdone : clientHandshake measurement request source sink = (.done (), left, after)) :
    after.written = sink.written ++ (asking measurement request).framed := by
  have hfirst : (clientHandshake measurement request source sink).1 = .done () := by rw [hdone]
  by_cases haccepts : sink.Accepts (asking measurement request).framed.length
  · have hwritten := (clientHandshake_of_accepts haccepts source).1
    rwa [hdone] at hwritten
  · rw [(clientHandshake_of_not_accepts haccepts source).1] at hfirst
    exact absurd hfirst (Progress.ofEnding_ne_done _ _)

/-- A server that is done has written its acceptance, and nothing else. -/
theorem written_of_serverHandshake_done {source left : Source} {after : Sink}
    (hdone : serverHandshake source sink = (.done (measurement, request), left, after)) :
    after.written = sink.written ++ acceptance.framed := by
  have hfirst : (serverHandshake source sink).1 = .done (measurement, request) := by rw [hdone]
  obtain ⟨⟨version, hpresents⟩, haccepts⟩ := serverHandshake_done_iff.1 hfirst
  have hwritten := (serverHandshake_of_accepts (.message version hpresents) haccepts).2
  rwa [hdone] at hwritten

end Wire

/-! ## Sending -/

namespace Transfer

/-- A pump that sends on a sink at the rate of a trial. -/
def sendOn? (chance : Chance) (trial : Trial) (buffer : ℕ) (sink : Sink) : Option Sent :=
  send? chance trial.lastTick trial.lastTick trial.request.rate buffer (sink.script.getD [])

/-- The bytes that a pump has put on a sink; its buffer holds zeros. -/
def Sent.stream (sent : Sent) (sink : Sink) : Bytes :=
  List.replicate (takenOf (sink.script.getD []) sent.offers) 0

/-- A pump counts the bytes that it puts on its sink, and hands them over in samples. -/
theorem sendOn?_spec {chance : Chance} {trial : Trial} {buffer : ℕ} {sink : Sink} {sent : Sent}
    (hsent : sendOn? chance trial buffer sink = some sent)
    (hfits : (sent.stream sink).length < UInt64.size) :
    sent.total.toNat = (sent.stream sink).length ∧
      Quantity.bytes.total sent.samples = sent.total.toNat := by
  rw [sendOn?, send?] at hsent
  split at hsent
  case isTrue => cases hsent
  case isFalse hbuffer =>
    cases hsent
    obtain ⟨offers, hoffers, -, haccounts⟩ :=
      sends_sendFrom chance (Nat.pos_of_ne_zero hbuffer) 0 (sink.script.getD [])
        (Pacing.Pacer.begin trial.lastTick trial.lastTick trial.request.rate buffer)
        { counting := .bytes } false false {}
    rw [List.nil_append] at hoffers
    subst hoffers
    rw [Sent.stream, List.length_replicate] at hfits ⊢
    obtain ⟨htotal, hsamples⟩ := haccounts balanced_start (by simpa using hfits)
    exact ⟨htotal.trans (Nat.zero_add _), hsamples⟩

end Transfer

/-! ## The server's side -/

namespace Exchanged

/-- A connection that asks the server to send gets what a pump sends at the rate of its trial. -/
theorem ofRequest_of_sendOn? {chance : Chance} {held : Trial} {request : Request}
    (hreverse : request.reverse = true) {source : Source} {sink : Sink} {sent : Sent}
    (hsent : Transfer.sendOn? chance held (max 1 request.bufferSize.toNat) sink = some sent) :
    ofRequest chance held .tcpBandwidth request source sink =
      { samples := sent.samples, amount := sent.total.toNat
        fault := sent.fault, source, sink } := by
  rw [Transfer.sendOn?] at hsent
  rw [ofRequest, if_neg (by decide), if_pos hreverse, sending, hsent]

end Exchanged

namespace Service

variable {service : Service} {place : ℕ}

/-- A connection is told to stop only by the end of the trial that it holds. -/
def Heeds (service : Service) (place : ℕ) (chance : Chance) : Prop :=
  ∀ round, chance.toldBefore round = true → ∃ later visit serial measurement trial,
    (run later service).visits[place]? = some visit ∧
    visit.stage.held? = some (serial, measurement) ∧
    (run later service).registry.trial? serial = some trial ∧ trial.isDone = true

/-- Nobody finishes a trial that a connection holds. -/
theorem Accounted.toldBefore_of_heeds (haccounted : service.Accounted) {chance : Chance}
    (hheeds : service.Heeds place chance) (round : ℕ) : chance.toldBefore round = false := by
  rw [← Bool.not_eq_true]
  intro htold
  obtain ⟨later, visit, serial, measurement, trial, hvisit, hheld, htrial, hdone⟩ :=
    hheeds round htold
  have hlater : (run later service).Accounted := accounted_run haccounted later
  have hholds : visit.Holds serial := by rw [Visit.Holds, hheld]; rfl
  have hpos : 0 < Visit.holders (run later service).visits serial :=
    List.countP_pos_iff.2 ⟨visit, List.mem_of_getElem? hvisit, decide_eq_true hholds⟩
  have hregisters := (hlater.attended.held.registers_iff serial).2 hpos
  rw [hlater.attended.running serial trial hregisters htrial] at hdone
  cases hdone

/-- A connection asks for a trial that the server opens for it. -/
theorem step_greet_of_done {peer : Endpoint} {calls : List Call} {source left : Source}
    {sink after : Sink} {measurement : Measurement} {request : Request}
    (hvisit : service.visits[place]? = some ⟨peer, .greeting, calls⟩)
    (hdone : serverHandshake source sink = (.done (measurement, request), left, after))
    (hserved : Refusal.of? measurement request = none) :
    service.step (.greet place source sink) =
      { server := (service.server.openTrial peer measurement request).2
        visits := service.visits.set place
          ⟨peer, .served (service.server.openTrial peer measurement request).1 measurement,
            calls ++ [.opened (service.server.openTrial peer measurement request).1]⟩ } := by
  simp only [step, enter, hvisit, admission, Server.greet, hdone, hserved]

/-- From then on it holds the trial. -/
theorem visit_of_done {peer : Endpoint} {calls : List Call} {source left : Source}
    {sink after : Sink} {measurement : Measurement} {request : Request}
    (hvisit : service.visits[place]? = some ⟨peer, .greeting, calls⟩)
    (hdone : serverHandshake source sink = (.done (measurement, request), left, after))
    (hserved : Refusal.of? measurement request = none) :
    (service.step (.greet place source sink)).visits[place]? =
      some ⟨peer, .served (service.server.openTrial peer measurement request).1 measurement,
        calls ++ [.opened (service.server.openTrial peer measurement request).1]⟩ := by
  obtain ⟨hplace, -⟩ := List.getElem?_eq_some_iff.1 hvisit
  rw [step_greet_of_done hvisit hdone hserved]
  exact List.getElem?_set_self hplace

/-- The connection is served, its pump returns so many bytes, and the trial that it holds accounts
for them. -/
def Receives (service : Service) (place : ℕ) (chance : Chance) (source : Source) (sink : Sink)
    (count : ℕ) : Prop :=
  ∃ visit serial request trial left after,
    serverHandshake source sink = (.done (.tcpBandwidth, request), left, after) ∧
    (service.step (.greet place source sink)).visits[place]? = some visit ∧
    visit.stage = .served serial .tcpBandwidth ∧
    (service.step (.greet place source sink)).registry.trial? serial = some trial ∧
    let exchanged := Exchanged.ofRequest chance trial .tcpBandwidth request left after
    exchanged.fault = none ∧ exchanged.amount = count ∧ exchanged.source = [] ∧
      Quantity.bytes.total exchanged.samples = count ∧ trial.Gains exchanged.samples count

theorem receives_of_cut (haccounted : service.Accounted) {peer : Endpoint} {calls : List Call}
    (hvisit : service.visits[place]? = some ⟨peer, .greeting, calls⟩) {request : Request}
    (hreverse : request.reverse = false) (hserved : Refusal.of? .tcpBandwidth request = none)
    {sink : Sink} (haccepts : sink.Accepts acceptance.framed.length) {version : UInt32}
    {data : Bytes} {pieces : List Bytes}
    (hcut : (Message.framed ⟨version, .request .tcpBandwidth request⟩ ++ data).Cut pieces)
    (hfits : data.length < UInt64.size) {chance : Chance}
    (hheeds : (service.step (.greet place (Source.ofPieces pieces []) sink)).Heeds place chance) :
    service.Receives place chance (Source.ofPieces pieces []) sink data.length := by
  obtain ⟨left, after, hleft, hdone, -⟩ := serverHandshake_ofPieces hcut haccepts []
  have hgreeted := haccounted.step (.greet place (Source.ofPieces pieces []) sink)
  have hmoved := visit_of_done hvisit hdone hserved
  obtain ⟨trial, htrial, -⟩ := hgreeted.key _ (List.mem_of_getElem? hmoved) _ _ rfl
  obtain ⟨hfault, hrest, htotal, hsamples⟩ :=
    Transfer.receive_ofPieces (hgreeted.toldBefore_of_heeds hheeds)
      (Nat.le_max_left 1 request.bufferSize.toNat) hleft hfits
  refine ⟨_, _, request, trial, _, after, hdone, hmoved, rfl, htrial, ?_⟩
  have hexchanged : Exchanged.ofRequest chance trial .tcpBandwidth request
      (Source.ofPieces left []) after =
        .receiving chance (max 1 request.bufferSize.toNat) (Source.ofPieces left []) after := by
    rw [Exchanged.ofRequest, if_neg (by decide), if_neg (by rw [hreverse]; decide)]
  rw [hexchanged]
  exact ⟨hfault, htotal, hrest, hsamples, hsamples ▸ trial.gains_total _⟩

end Service

/-! ## The client's side -/

namespace Client

/-- The worker gets through its handshake, its pump returns so many bytes, and its trial accounts
for them. -/
def Receives (trial : Trial) (connection : Connection) (count : ℕ) : Prop :=
  ∃ left after, clientHandshake trial.measurement trial.request connection.source
      connection.sink = (.done (), left, after) ∧
    let received := Transfer.receive connection.chance (max 1 trial.request.bufferSize.toNat) left
    bandwidthWork trial (.ok connection) = .adding received.samples none ∧
      received.fault = none ∧ received.total.toNat = count ∧ received.rest = [] ∧
      Quantity.bytes.total received.samples = count ∧ trial.Gains received.samples count

theorem receives_of_cut {trial : Trial} {connection : Connection}
    (hreverse : trial.request.reverse = true)
    (haccepts : connection.sink.Accepts (asking trial.measurement trial.request).framed.length)
    (hnever : ∀ round, connection.chance.toldBefore round = false) {version : UInt32}
    {data : Bytes} {pieces : List Bytes}
    (hcut : (Message.framed ⟨version, .accept⟩ ++ data).Cut pieces)
    (hsource : connection.source = Source.ofPieces pieces [])
    (hfits : data.length < UInt64.size) : Receives trial connection data.length := by
  obtain ⟨left, after, hleft, hdone, -⟩ := clientHandshake_ofPieces hcut haccepts []
  rw [← hsource] at hdone
  obtain ⟨hfault, hrest, htotal, hsamples⟩ :=
    Transfer.receive_ofPieces hnever (Nat.le_max_left 1 trial.request.bufferSize.toNat) hleft hfits
  refine ⟨_, after, hdone, ?_, hfault, htotal, hrest, hsamples, hsamples ▸ trial.gains_total _⟩
  simp only [bandwidthWork, afterHandshake, hdone, if_pos hreverse, hfault]

/-- A worker that has got through its handshake hands over what its pump sent. -/
theorem bandwidthWork_of_sendOn? {trial : Trial} {connection : Connection} {left : Source}
    {after : Sink} {sent : Sent} (hreverse : trial.request.reverse = false)
    (hdone : clientHandshake trial.measurement trial.request connection.source connection.sink =
      (.done (), left, after))
    (hsent : Transfer.sendOn? connection.chance trial (max 1 trial.request.bufferSize.toNat)
      after = some sent) :
    bandwidthWork trial (.ok connection) = .adding sent.samples sent.fault := by
  rw [Transfer.sendOn?] at hsent
  simp only [bandwidthWork, afterHandshake, hdone, hreverse, hsent, Bool.false_eq_true, if_false]

end Client

/-! ## Both sides -/

/-- However the request of a connection and the data behind it are cut, the server that serves the
connection counts the data and nothing else, and so does a client with the data behind the
acceptance.  So whatever one side sends, the other side counts the same total. -/
theorem phases_aligned (interval : ℕ) (events : List Service.Event) :
    let service := Service.run events { server := { interval } }
    (∀ place peer calls version request data pieces sink chance,
      service.visits[place]? = some ⟨peer, .greeting, calls⟩ →
      request.reverse = false → Refusal.of? .tcpBandwidth request = none →
      Bytes.Cut (Message.framed ⟨version, .request .tcpBandwidth request⟩ ++ data) pieces →
      data.length < UInt64.size → sink.Accepts acceptance.framed.length →
      (service.step (.greet place (Source.ofPieces pieces []) sink)).Heeds place chance →
      service.Receives place chance (Source.ofPieces pieces []) sink data.length) ∧
    (∀ trial connection version data pieces,
      trial.request.reverse = true → connection.source = Source.ofPieces pieces [] →
      Bytes.Cut (Message.framed ⟨version, .accept⟩ ++ data) pieces →
      data.length < UInt64.size →
      connection.sink.Accepts (asking trial.measurement trial.request).framed.length →
      (∀ round, connection.chance.toldBefore round = false) →
      Client.Receives trial connection data.length) ∧
    -- from a client to the server
    (∀ trial connection left after sent,
      trial.measurement = .tcpBandwidth → trial.request.reverse = false →
      Refusal.of? .tcpBandwidth trial.request = none → connection.sink.written = [] →
      clientHandshake trial.measurement trial.request connection.source connection.sink =
        (.done (), left, after) →
      Transfer.sendOn? connection.chance trial (max 1 trial.request.bufferSize.toNat) after =
        some sent →
      (sent.stream after).length < UInt64.size →
      Client.bandwidthWork trial (.ok connection) = .adding sent.samples sent.fault ∧
      Quantity.bytes.total sent.samples = sent.total.toNat ∧
      ∀ place peer calls pieces sink chance,
        service.visits[place]? = some ⟨peer, .greeting, calls⟩ →
        Bytes.Cut (after.written ++ sent.stream after) pieces →
        sink.Accepts acceptance.framed.length →
        (service.step (.greet place (Source.ofPieces pieces []) sink)).Heeds place chance →
        service.Receives place chance (Source.ofPieces pieces []) sink sent.total.toNat) ∧
    -- from the server to a client
    ∀ chance held request source sink left after sent,
      request.reverse = true → sink.written = [] →
      serverHandshake source sink = (.done (.tcpBandwidth, request), left, after) →
      Transfer.sendOn? chance held (max 1 request.bufferSize.toNat) after = some sent →
      (sent.stream after).length < UInt64.size →
      (Exchanged.ofRequest chance held .tcpBandwidth request left after).amount =
        sent.total.toNat ∧
      Quantity.bytes.total
        (Exchanged.ofRequest chance held .tcpBandwidth request left after).samples =
          sent.total.toNat ∧
      ∀ trial connection pieces,
        trial.request = request → connection.source = Source.ofPieces pieces [] →
        Bytes.Cut (after.written ++ sent.stream after) pieces →
        connection.sink.Accepts (asking trial.measurement trial.request).framed.length →
        (∀ round, connection.chance.toldBefore round = false) →
        Client.Receives trial connection sent.total.toNat := by
  intro service
  have haccounted : service.Accounted :=
    Service.accounted_run (Service.accounted_start interval) events
  refine ⟨?_, ?_, ?_, ?_⟩
  · intro place peer calls version request data pieces sink chance hvisit hreverse hserved hcut
      hfits haccepts hheeds
    exact Service.receives_of_cut haccounted hvisit hreverse hserved haccepts hcut hfits hheeds
  · intro trial connection version data pieces hreverse hsource hcut hfits haccepts hnever
    exact Client.receives_of_cut hreverse haccepts hnever hcut hsource hfits
  · intro trial connection left after sent hmeasurement hreverse hserved hfresh hdone hsent hfits
    obtain ⟨htotal, hsamples⟩ := Transfer.sendOn?_spec hsent hfits
    refine ⟨Client.bandwidthWork_of_sendOn? hreverse hdone hsent, hsamples, ?_⟩
    intro place peer calls pieces sink chance hvisit hcut haccepts hheeds
    have hwritten := written_of_clientHandshake_done hdone
    rw [hfresh, List.nil_append, hmeasurement] at hwritten
    rw [hwritten] at hcut
    rw [htotal]
    exact Service.receives_of_cut haccounted hvisit hreverse hserved haccepts hcut hfits hheeds
  · intro chance held request source sink left after sent hreverse hfresh hdone hsent hfits
    obtain ⟨htotal, hsamples⟩ := Transfer.sendOn?_spec hsent hfits
    rw [Exchanged.ofRequest_of_sendOn? hreverse hsent]
    refine ⟨rfl, hsamples, ?_⟩
    intro trial connection pieces hrequest hsource hcut haccepts hnever
    have hwritten := written_of_serverHandshake_done hdone
    rw [hfresh, List.nil_append] at hwritten
    rw [hwritten] at hcut
    rw [htotal]
    exact Client.receives_of_cut (hrequest ▸ hreverse) haccepts hnever hcut hsource hfits

/-- A request that arrives with the first data behind it, and an acceptance that arrives in one
piece with the seven bytes that a server sent. -/
theorem phases_aligned_straddling :
    let frame := Message.framed ⟨1, .request .tcpBandwidth { bufferSize := 4 }⟩
    let service := Service.run [.connect ⟨.loopback, 40000, 0⟩] { server := {} }
    service.Receives 0 .still
      (Source.ofPieces [frame.take 20, frame.drop 20 ++ [1, 2], [3, 4, 5]] []) {} 5 ∧
    let request : Request := { bufferSize := 4, reverse := true }
    let asked : Source := [.chunk (Message.framed ⟨1, .request .tcpBandwidth request⟩)]
    let sink : Sink := { script := some [.take 12, .take 3, .take 9] }
    let trial := Trial.start 0 .tcpBandwidth ⟨.loopback, 8888, 0⟩ request (some .bandwidth) 0
    (serverHandshake asked sink).2.2.written = acceptance.framed ∧
      Client.Receives trial
        { source := Source.ofPieces [acceptance.framed ++ List.replicate 7 0] [] } 7 := by
  intro frame service
  have haligned := phases_aligned 1_000_000_000 [.connect ⟨.loopback, 40000, 0⟩]
  have hnever : ∀ round, Chance.still.toldBefore round = false := fun _ => rfl
  have haccepts : ∀ count, Sink.Accepts {} count := fun count script hscript => by cases hscript
  constructor
  · refine haligned.1 0 ⟨.loopback, 40000, 0⟩ [] 1 { bufferSize := 4 } [1, 2, 3, 4, 5] _ {} .still
      (by decide) rfl (by decide) ⟨by decide, by decide⟩ (by decide) (haccepts _) ?_
    intro round htold
    rw [hnever] at htold
    cases htold
  · intro request asked sink trial
    let after : Sink := { script := some [.take 3, .take 9], written := acceptance.framed }
    have hsend : sendMessage { content := .accept } sink = (.done (), after) := rfl
    have hdone : serverHandshake asked sink = (.done (.tcpBandwidth, request), [], after) :=
      serverHandshake_chunk hsend
    have hsent : Transfer.sendOn? .still trial 4 after =
        some { offers := [(4, false), (4, false), (4, false)]
               samples := [.ok (.bandwidth 7 0)], total := 7 } := by decide
    obtain ⟨-, -, hreceives⟩ :=
      haligned.2.2.2 .still trial request asked sink [] after _ rfl rfl hdone hsent (by decide)
    refine ⟨by rw [hdone], hreceives trial _ _ rfl rfl ⟨by decide, by decide⟩ (haccepts _) hnever⟩

end LinkMeter
