import LinkMeter.Proofs.Transfer.Alignment
import LinkMeter.Settings.Basic

/-!
# What a client may ask for and what a server serves

A client checks its settings before it runs (`Settings.validate_eq_ok_iff`), and
a server checks what it is asked for once the handshake is over
(`Refusal.of?_eq_none_iff`).  Over TCP, and for bandwidth and latency, the two
differ in one point: settings may name any buffer that is not empty, but a
server serves none above `Refusal.maxBufferSize`.  Settings that name no buffer
ask for less.

So checked settings whose buffer a server has room for are always served, in the
direction and with the buffer that they name; and a larger buffer is refused by
a server that has accepted the request (`Service.served_of_validated`).
-/

namespace LinkMeter

open Transfer (Chance)
open Wire (Sink Source acceptance asking serverHandshake)

/-! ## The two checks -/

namespace Settings

variable {settings : Settings}

theorem validate_eq_ok_iff :
    settings.validate = .ok () ↔ settings.role = .server ∨
      settings.serverAddress ≠ none ∧ settings.measurement.isSupported = true ∧
        settings.threads ≠ 0 ∧ settings.interval.isZero = false ∧ settings.maxHops ≠ 0 ∧
        settings.bufferSize ≠ some 0 ∧
        (settings.reverse = true → settings.measurement = .tcpBandwidth) := by
  have hfault : settings.validate = .ok () ↔ settings.fault? = none := by
    unfold validate
    cases settings.fault? <;> simp
  rw [hfault]
  unfold fault?
  grind

/-- The buffer that a client asks for is not empty. -/
theorem bufferSize_request_pos (hrole : settings.role = .client)
    (hvalid : settings.validate = .ok ()) (hdefault : settings.measurement.defaultBufferSize ≠ 0) :
    0 < settings.request.bufferSize.toNat := by
  obtain hserver | ⟨-, -, -, -, -, hbuffer, -⟩ := validate_eq_ok_iff.1 hvalid
  · rw [hrole] at hserver
    cases hserver
  · refine Nat.pos_of_ne_zero fun hzero => ?_
    have hempty : settings.bufferSize.getD settings.measurement.defaultBufferSize = 0 :=
      UInt32.toNat_inj.1 hzero
    cases hsize : settings.bufferSize with
    | none => exact hdefault (by rwa [hsize] at hempty)
    | some size => exact hbuffer (by rw [hsize, ← hempty, hsize]; rfl)

/-- Only bandwidth over TCP is asked for in the direction of the client. -/
theorem measurement_of_reverse (hrole : settings.role = .client)
    (hvalid : settings.validate = .ok ()) (hreverse : settings.request.reverse = true) :
    settings.measurement = .tcpBandwidth := by
  obtain hserver | ⟨-, -, -, -, -, -, honly⟩ := validate_eq_ok_iff.1 hvalid
  · rw [hrole] at hserver
    cases hserver
  · exact honly hreverse

/-- The settings name no buffer that a server refuses. -/
def FitsServer (settings : Settings) : Prop :=
  ∀ size, settings.bufferSize = some size → size ≤ Refusal.maxBufferSize

theorem bufferSize_request_le_iff
    (hdefault : settings.measurement.defaultBufferSize ≤ Refusal.maxBufferSize) :
    settings.request.bufferSize ≤ Refusal.maxBufferSize ↔ settings.FitsServer := by
  unfold FitsServer
  cases hsize : settings.bufferSize with
  | none => simp [request, hsize, hdefault]
  | some size => simp [request, hsize]

end Settings

theorem Refusal.of?_of_large {measurement : Measurement} {request : Request}
    (hmeasured : measurement = .tcpBandwidth ∨ measurement = .tcpLatency)
    (hlarge : Refusal.maxBufferSize < request.bufferSize) :
    Refusal.of? measurement request = some (.bufferTooLarge request.bufferSize) := by
  unfold Refusal.of?
  rw [if_neg fun hother => hmeasured.elim hother.1 hother.2, if_pos hlarge]

/-! ## Serving one connection -/

namespace Server

variable (server : Server) {measurement : Measurement} {request : Request} {source left : Source}
  {sink after : Sink}

theorem serve_of_done
    (hdone : serverHandshake source sink = (.done (measurement, request), left, after))
    (hserved : Refusal.of? measurement request = none) {peer : Endpoint} {trial : Trial}
    (htrial : (server.openTrial peer measurement request).2.registry.trial?
      (server.openTrial peer measurement request).1 = some trial) (chance : Chance) :
    (server.serve peer chance source sink).1 =
      .ok (Exchanged.ofRequest chance trial measurement request left after) := by
  simp only [serve, greet, hdone, hserved, htrial, Option.getD_some]

theorem serve_of_refused
    (hdone : serverHandshake source sink = (.done (measurement, request), left, after))
    {refusal : Refusal} (hrefused : Refusal.of? measurement request = some refusal)
    (peer : Endpoint) (chance : Chance) :
    server.serve peer chance source sink = (.error refusal.failure, server) := by
  simp only [serve, greet, hdone, hrefused]

end Server

namespace Exchanged

variable {request : Request}

/-- The exchange of a request for a buffer that is not empty. -/
theorem ofRequest_of_pos (hpos : 0 < request.bufferSize.toNat) (chance : Chance) (trial : Trial)
    (measurement : Measurement) (source : Source) (sink : Sink) :
    ofRequest chance trial measurement request source sink =
      if measurement.kind = .latency then echoing chance request.bufferSize.toNat source sink
      else if request.reverse then sending chance trial request.bufferSize.toNat source sink
      else receiving chance request.bufferSize.toNat source sink := by
  unfold ofRequest
  rw [Nat.max_eq_right hpos]

end Exchanged

namespace Service

variable {service : Service}

/-- A connection is served: the trial that it holds is registered and goes on, and its exchange of
data begins behind the request. -/
def Serves (service : Service) (place : ℕ) (peer : Endpoint) (calls : List Call) (source : Source)
    (sink : Sink) (measurement : Measurement) (request : Request) : Prop :=
  let greeted := service.step (.greet place source sink)
  ∃ serial trial left after,
    serverHandshake source sink = (.done (measurement, request), left, after) ∧
    greeted.visits[place]? =
      some ⟨peer, .served serial measurement, calls ++ [.opened serial]⟩ ∧
    greeted.registry.find? peer.address measurement = some serial ∧
    greeted.registry.trial? serial = some trial ∧ trial.isDone = false ∧
    ∀ chance, (service.server.serve peer chance source sink).1 =
      .ok (if measurement.kind = .latency then
          .echoing chance request.bufferSize.toNat left after
        else if request.reverse then .sending chance trial request.bufferSize.toNat left after
        else .receiving chance request.bufferSize.toNat left after)

variable {place : ℕ} {peer : Endpoint} {calls : List Call} {source left : Source}
  {sink after : Sink} {measurement : Measurement} {request : Request}

theorem serves_of_done (haccounted : service.Accounted)
    (hvisit : service.visits[place]? = some ⟨peer, .greeting, calls⟩)
    (hdone : serverHandshake source sink = (.done (measurement, request), left, after))
    (hserved : Refusal.of? measurement request = none) (hpos : 0 < request.bufferSize.toNat) :
    service.Serves place peer calls source sink measurement request := by
  have hgreeted := haccounted.step (.greet place source sink)
  have hmoved := visit_of_done hvisit hdone hserved
  obtain ⟨hfind, trial, htrial, hrunning⟩ :=
    hgreeted.registered_of_held (List.mem_of_getElem? hmoved) rfl
  refine ⟨_, trial, left, after, hdone, hmoved, hfind, htrial, hrunning, fun chance => ?_⟩
  rw [step_greet_of_done hvisit hdone hserved] at htrial
  rw [service.server.serve_of_done hdone hserved htrial chance, Exchanged.ofRequest_of_pos hpos]

/-- A client with checked settings for bandwidth or latency over TCP is answered by a server that
has served whatever other connections before: the server reads the request as it was made and
accepts it.  If the settings name no buffer above the limit of a server, the connection is served,
in the direction and with the buffer that it asked for.  If they do, the server has accepted the
request nevertheless; it ends the connection with a failure and registers nothing. -/
theorem served_of_validated (interval : ℕ) (events : List Event) {settings : Settings}
    (hrole : settings.role = .client) (hvalid : settings.validate = .ok ())
    (hmeasured : settings.measurement = .tcpBandwidth ∨ settings.measurement = .tcpLatency)
    {data : Bytes}
    (hvisit : (run events { server := { interval } }).visits[place]? =
      some ⟨peer, .greeting, calls⟩)
    (hsent : source.bytes = (asking settings.measurement settings.request).framed ++ data)
    (haccepts : sink.Accepts acceptance.framed.length) :
    let service := run events { server := { interval } }
    (serverHandshake source sink).1 = .done (settings.measurement, settings.request) ∧
    (serverHandshake source sink).2.2.written = sink.written ++ acceptance.framed ∧
    (settings.request.reverse = true → settings.measurement = .tcpBandwidth) ∧
    (settings.FitsServer →
      service.Serves place peer calls source sink settings.measurement settings.request) ∧
    (¬ settings.FitsServer →
      service.step (.greet place source sink) =
        { service with visits := service.visits.set place ⟨peer, .ended, calls⟩ } ∧
      ∀ chance, service.server.serve peer chance source sink =
        (.error (Refusal.bufferTooLarge settings.request.bufferSize).failure,
          service.server)) := by
  intro service
  have haccounted : service.Accounted := accounted_run (accounted_start interval) events
  -- a buffer that is not named has the size of the measurement, which is within the limit
  have hdefault : settings.measurement.defaultBufferSize ≠ 0 ∧
      settings.measurement.defaultBufferSize ≤ Refusal.maxBufferSize := by
    obtain h | h := hmeasured <;> rw [h] <;> decide
  have hpos := Settings.bufferSize_request_pos hrole hvalid hdefault.1
  have hfits := Settings.bufferSize_request_le_iff hdefault.2
  -- the bytes may come in any pieces
  obtain ⟨pieces, later, hcut, rfl⟩ := source.exists_ofPieces
  rw [hsent] at hcut
  obtain ⟨left, after, -, hdone, hwritten⟩ := Wire.serverHandshake_ofPieces hcut haccepts later
  refine ⟨by rw [hdone], by rw [hdone, hwritten],
    Settings.measurement_of_reverse hrole hvalid, fun hroom => ?_, fun hlarge => ?_⟩
  · exact serves_of_done haccounted hvisit hdone
      (Refusal.of?_eq_none_iff.2 ⟨hmeasured, hfits.2 hroom⟩) hpos
  · have hrefused := Refusal.of?_of_large hmeasured (UInt32.not_le.1 fun h => hlarge (hfits.1 h))
    refine ⟨?_, fun chance => service.server.serve_of_refused hdone hrefused peer chance⟩
    rw [step, hdone]
    exact enter_of_unserved hvisit (.inr (.inr (UInt32.lt_iff_toNat_lt.1
      (UInt32.not_le.1 fun h => hlarge (hfits.1 h)))))

/-- Latency with the largest buffer that a server serves; the request arrives in two pieces, the
second of which goes on with data. -/
theorem served_of_validated_largest :
    let settings : Settings :=
      { kind := .latency, serverAddress := some "203.0.113.5", bufferSize := some 4194304 }
    let frame := (asking .tcpLatency settings.request).framed
    let source : Source := Source.ofPieces [frame.take 20, frame.drop 20 ++ [1, 2]] []
    let service := run [.connect ⟨.loopback, 40000, 0⟩] { server := {} }
    settings.validate = .ok () ∧ settings.FitsServer ∧
      service.Serves 0 ⟨.loopback, 40000, 0⟩ [] source {} .tcpLatency settings.request := by
  intro settings frame source service
  have hvalid : settings.validate = .ok () := by decide
  have hfits : settings.FitsServer := by
    rintro size ⟨⟩
    decide
  have hvisit : service.visits[0]? = some ⟨⟨.loopback, 40000, 0⟩, .greeting, []⟩ := rfl
  have hsent : source.bytes = frame ++ [1, 2] := by decide +kernel
  have haccepts : Sink.Accepts {} acceptance.framed.length := fun script hscript => by cases hscript
  obtain ⟨-, -, -, hserves, -⟩ := served_of_validated 1_000_000_000
    [.connect ⟨.loopback, 40000, 0⟩] rfl hvalid (.inr rfl) hvisit hsent haccepts
  exact ⟨hvalid, hfits, hserves hfits⟩

/-- One byte more passes the check of the settings, and the server accepts the request; but it
ends the connection with a failure and registers nothing. -/
theorem not_served_of_validated :
    let settings : Settings :=
      { serverAddress := some "203.0.113.5", bufferSize := some 4194305 }
    let source : Source := [.chunk (asking .tcpBandwidth settings.request).framed]
    let served := Server.serve {} ⟨.loopback, 40000, 0⟩ .still source {}
    settings.role = .client ∧ settings.validate = .ok () ∧ settings.measurement = .tcpBandwidth ∧
      (serverHandshake source {}).2.2.written = acceptance.framed ∧
      served.1 = .error (.protocol "Buffer size 4194305 exceeds 4194304") ∧
      served.2.registry.isEmpty = true := by
  intro settings source served
  have hserved : served = (.error (Refusal.bufferTooLarge 4194305).failure, {}) :=
    Server.serve_of_refused {} (Wire.serverHandshake_chunk rfl) rfl _ _
  have hfailure : (Refusal.bufferTooLarge 4194305).failure =
      .protocol "Buffer size 4194305 exceeds 4194304" := by decide +kernel
  rw [hserved, hfailure]
  exact ⟨rfl, by decide, rfl, by decide +kernel, rfl, rfl⟩

end Service

end LinkMeter
