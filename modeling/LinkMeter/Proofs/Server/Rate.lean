import LinkMeter.Proofs.Registry.Origins
import LinkMeter.Proofs.Transfer.Alignment
import LinkMeter.Proofs.Transfer.Windows
import Mathlib.Data.List.Induction

/-!
# The rate of a trial is the rate of its connections

All connections of one address that ask for bandwidth share a trial as long as
one of them is served, and the trial keeps the request of the connection that
opened it (`Service.OpenedBy`).  So a connection to which the server sends is
paced by that request and not by its own, which only says in which direction
and in which pieces it is served (`Service.rate_of_opener`).  The first
connection of an address is its own opener.

Which connection opened a trial is read off the origins of the registry: an
event adds at most one (`Service.extends_step`), and none is ever lost.
-/

namespace LinkMeter

open Pacing (Instant)
open Transfer (Chance)
open Wire (Sink Source)

/-! ## What a server adds to its registry -/

namespace Server

variable (server : Server)

theorem origins_openTrial (peer : Endpoint) (measurement : Measurement) (request : Request) :
    (server.openTrial peer measurement request).2.registry.origins =
      server.registry.origins ++
        if server.registry.find? peer.address measurement = none then
          [⟨measurement, peer, request⟩]
        else [] := by
  obtain ⟨crews, heq⟩ := server.openTrial_eq peer measurement request
  have hcreated : (server.created peer measurement request).2.origins = _ :=
    server.registry.origins_createOrGet server.wall peer measurement request
      (Reducer.ofKind? measurement.kind) server.interval
  rw [heq, ← hcreated]
  dsimp only
  split
  · exact Registry.origins_change _ _ fun trial _ => trial.origin_perform .claim
  · rfl

/-- Under a free key the trial gets the next number. -/
theorem fst_openTrial_of_free {peer : Endpoint} {measurement : Measurement}
    (hfree : server.registry.find? peer.address measurement = none) (request : Request) :
    (server.openTrial peer measurement request).1 = server.registry.origins.length := by
  rw [fst_openTrial, created, Registry.createOrGet_of_free _ _ _ _ _ _ hfree,
    Registry.length_origins]

theorem origins_addSamples (serial : Serial) (samples : List Outcome) :
    (server.addSamples serial samples).registry.origins = server.registry.origins :=
  Registry.origins_change _ serial fun trial _ => trial.origin_foldl_add samples

theorem origins_countConnection (peer : Endpoint) :
    (server.countConnection peer).registry.origins =
      (server.openTrial peer .tcpConnectionRate {}).2.registry.origins :=
  Registry.origins_change _ _ fun trial _ => trial.origin_add (.connections 1)

theorem origins_putLive {serial : Serial} {live after : Live}
    (hlive : server.live? serial = some live) (hafter : after.trial.origin = live.trial.origin) :
    (server.putLive serial after).registry.origins = server.registry.origins := by
  obtain ⟨trial, htrial, rfl⟩ := Option.map_eq_some_iff.1 hlive
  refine Registry.origins_change _ serial fun held hheld => ?_
  rw [htrial] at hheld
  cases hheld
  exact hafter

theorem origins_settle : server.settle.registry.origins = server.registry.origins := by
  have hone : ∀ (server : Server) (serial : Serial),
      (server.settleOne serial).registry.origins = server.registry.origins := by
    intro server serial
    unfold settleOne
    split
    case h_1 => rfl
    case h_2 live hlive =>
      refine server.origins_putLive hlive ?_
      obtain ⟨acts, -, heq⟩ := live.wake.exists_acts_settle server.now server.wall
      rw [heq]
      exact live.trial.origin_foldl_perform acts
  have hturns : ∀ (serials : List Serial) (server : Server),
      (serials.foldl settleOne server).registry.origins = server.registry.origins := by
    intro serials
    induction serials with
    | nil => exact fun server => rfl
    | cons serial serials ih =>
        exact fun server => (ih (server.settleOne serial)).trans (hone server serial)
  exact hturns _ server

theorem origins_goOff_publish (due : Instant) (serial : Serial) :
    (server.goOff ⟨due, .publish serial⟩).registry.origins = server.registry.origins := by
  unfold goOff perform
  dsimp only
  split
  case h_1 live hlive => exact origins_putLive _ hlive rfl
  case h_2 => rfl

end Server

namespace Service

/-! ## Openers -/

variable {service : Service} {origin : Trial.Origin}

/-- An event with which a connection is served and opens a trial, since its key is free. -/
inductive Opens (service : Service) : Event → Trial.Origin → Prop
  | greet {place : ℕ} {peer : Endpoint} {calls : List Call} {source left : Source}
      {sink after : Sink} {measurement : Measurement} {request : Request} :
      service.visits[place]? = some ⟨peer, .greeting, calls⟩ →
      Wire.serverHandshake source sink = (.done (measurement, request), left, after) →
      Refusal.of? measurement request = none →
      service.registry.find? peer.address measurement = none →
      Opens service (.greet place source sink) ⟨measurement, peer, request⟩

/-- At one of the events a connection opens the trial with a number. -/
def OpenedBy (start : Service) (events : List Event) (serial : Serial) (origin : Trial.Origin) :
    Prop :=
  ∃ before event later, events = before ++ event :: later ∧
    (run before start).registry.trials.length = serial ∧ (run before start).Opens event origin

theorem OpenedBy.append {start : Service} {events : List Event} {serial : Serial}
    (hopened : OpenedBy start events serial origin) (more : List Event) :
    OpenedBy start (events ++ more) serial origin := by
  obtain ⟨before, event, later, rfl, hserial, hopens⟩ := hopened
  exact ⟨before, event, later ++ more, by simp, hserial, hopens⟩

/-- A registry has the origins of another one and perhaps one more, which is that of a trial that
counts connections or else is as it is said to be. -/
def Extends (before after : Registry) (opens : Trial.Origin → Prop) : Prop :=
  ∃ added : Option Trial.Origin, after.origins = before.origins ++ added.toList ∧
    ∀ origin, added = some origin → origin.measurement = .tcpConnectionRate ∨ opens origin

theorem extends_of_eq {before after : Registry} (heq : after.origins = before.origins)
    (opens : Trial.Origin → Prop) : Extends before after opens :=
  ⟨none, heq.trans (List.append_nil _).symm, fun _ hnone => nomatch hnone⟩

theorem extends_openTrial (server : Server) (peer : Endpoint) (measurement : Measurement)
    (request : Request) {opens : Trial.Origin → Prop}
    (hopens : server.registry.find? peer.address measurement = none →
      measurement = .tcpConnectionRate ∨ opens ⟨measurement, peer, request⟩) :
    Extends server.registry (server.openTrial peer measurement request).2.registry opens := by
  have horigins := server.origins_openTrial peer measurement request
  by_cases hfree : server.registry.find? peer.address measurement = none
  · rw [if_pos hfree] at horigins
    refine ⟨some ⟨measurement, peer, request⟩, horigins, ?_⟩
    rintro _ ⟨⟩
    exact hopens hfree
  · rw [if_neg hfree, List.append_nil] at horigins
    exact extends_of_eq horigins opens

theorem extends_admission (server : Server) (peer : Endpoint)
    (handshake : Wire.Progress (Measurement × Request)) :
    Extends server.registry (admission server peer handshake).2.2.registry fun origin =>
      ∃ measurement request, handshake = .done (measurement, request) ∧
        Refusal.of? measurement request = none ∧
        server.registry.find? peer.address measurement = none ∧
        origin = ⟨measurement, peer, request⟩ := by
  cases handshake with
  | waiting => exact extends_of_eq rfl _
  | failed failure =>
      obtain ⟨added, hadded, hcounts⟩ :=
        extends_openTrial server peer .tcpConnectionRate {} fun _ => .inl rfl
      exact ⟨added, (server.origins_countConnection peer).trans hadded, hcounts⟩
  | done asked =>
      obtain ⟨measurement, request⟩ := asked
      cases hrefusal : Refusal.of? measurement request with
      | some refusal =>
          rw [admission, Server.greet, hrefusal]
          exact extends_of_eq rfl _
      | none =>
          rw [admission, Server.greet, hrefusal]
          exact extends_openTrial server peer measurement request fun hfree =>
            .inr ⟨measurement, request, rfl, hrefusal, hfree, rfl⟩

/-- An event adds the origin of at most one trial. -/
theorem extends_step (service : Service) (event : Event) :
    Extends service.registry (service.step event).registry (service.Opens event) := by
  cases event with
  | connect peer => exact extends_of_eq rfl _
  | greet place source sink =>
      rw [step, enter]
      split
      case h_1 peer calls hvisit =>
        obtain ⟨added, hadded, horigins⟩ :=
          extends_admission service.server peer (Wire.serverHandshake source sink).1
        refine ⟨added, hadded, fun origin horigin => (horigins origin horigin).imp_right ?_⟩
        rintro ⟨measurement, request, hdone, hserved, hfree, rfl⟩
        exact .greet hvisit (Prod.ext hdone rfl) hserved hfree
      case h_2 => exact extends_of_eq rfl _
  | drop place =>
      rw [step, enter]
      split
      · exact extends_of_eq rfl _
      · exact extends_of_eq rfl _
  | exchange place samples =>
      rw [step]
      split
      · exact extends_of_eq (service.server.origins_addSamples _ samples) _
      · exact extends_of_eq rfl _
  | depart place =>
      rw [step]
      split
      · exact extends_of_eq (Registry.origins_release _ _) _
      · exact extends_of_eq rfl _
  | expire place =>
      rw [step]
      split
      · exact extends_of_eq (Registry.origins_release _ _) _
      · exact extends_of_eq rfl _
  | publish due serial => exact extends_of_eq (service.server.origins_goOff_publish due serial) _
  | settle => exact extends_of_eq service.server.origins_settle _
  | clock now wall => exact extends_of_eq rfl _

/-- No origin is ever lost. -/
theorem origins_prefix_run (events : List Event) (service : Service) :
    service.registry.origins <+: (run events service).registry.origins := by
  induction events generalizing service with
  | nil => exact List.prefix_refl _
  | cons event events ih =>
      obtain ⟨added, hadded, -⟩ := extends_step service event
      exact (hadded ▸ List.prefix_append _ added.toList).trans (ih (service.step event))

/-- A trial that does not count connections was opened by a connection that was served. -/
theorem openedBy_of_origin {start : Service} (hstart : start.registry.origins = [])
    (events : List Event) {serial : Serial} {origin : Trial.Origin}
    (horigin : (run events start).registry.origins[serial]? = some origin)
    (hkind : origin.measurement ≠ .tcpConnectionRate) : OpenedBy start events serial origin := by
  induction events using List.reverseRecOn with
  | nil => simp [run, hstart] at horigin
  | append_singleton events event ih =>
      rw [run_append] at horigin
      obtain ⟨added, hadded, hopens⟩ := extends_step (run events start) event
      rw [show run [event] (run events start) = (run events start).step event from rfl, hadded]
        at horigin
      rcases Nat.lt_or_ge serial (run events start).registry.origins.length with hold | hnew
      · rw [List.getElem?_append_left hold] at horigin
        exact (ih horigin).append [event]
      · rw [List.getElem?_append_right hnew] at horigin
        cases added with
        | none => simp at horigin
        | some found =>
            -- the only new trial has the next number
            obtain ⟨hlt, hfound⟩ := List.getElem?_eq_some_iff.1 horigin
            obtain rfl : found = origin := by simpa using hfound
            have hserial : (run events start).registry.origins.length = serial :=
              Nat.le_antisymm hnew (Nat.sub_eq_zero_iff_le.1 (Nat.lt_one_iff.1 hlt))
            rw [Registry.length_origins] at hserial
            exact ⟨events, event, [], rfl, hserial, (hopens _ rfl).resolve_left hkind⟩

/-! ## The rate of a connection -/

/-- The trial of a connection that is served was opened for its address; it is the connection's own
if none was registered. -/
theorem exists_opener {start : Service} (haccounted : start.Accounted)
    (hstart : start.registry.origins = []) (events : List Event) {place : ℕ} {peer : Endpoint}
    {calls : List Call} {source left : Source} {sink after : Sink} {measurement : Measurement}
    {request : Request}
    (hvisit : (run events start).visits[place]? = some ⟨peer, .greeting, calls⟩)
    (hdone : Wire.serverHandshake source sink = (.done (measurement, request), left, after))
    (hserved : Refusal.of? measurement request = none) (hkind : measurement ≠ .tcpConnectionRate) :
    ∃ serial opener,
      (run (events ++ [.greet place source sink]) start).visits[place]? =
        some ⟨peer, .served serial measurement, calls ++ [.opened serial]⟩ ∧
      (run (events ++ [.greet place source sink]) start).registry.origins[serial]? =
        some opener ∧
      OpenedBy start (events ++ [.greet place source sink]) serial opener ∧
      opener.measurement = measurement ∧ opener.peer.address = peer.address ∧
      ((run events start).registry.find? peer.address measurement = none →
        opener.request = request) := by
  have hrun : run (events ++ [.greet place source sink]) start = _ :=
    (run_append _ _ _).trans (step_greet_of_done hvisit hdone hserved)
  have hgreeted := accounted_run haccounted (events ++ [.greet place source sink])
  let serial := ((run events start).server.openTrial peer measurement request).1
  have hmoved : (run (events ++ [.greet place source sink]) start).visits[place]? =
      some ⟨peer, .served serial measurement, calls ++ [.opened serial]⟩ := by
    rw [run_append]
    exact visit_of_done hvisit hdone hserved
  obtain ⟨trial, htrial, haddress, hmeasurement⟩ :=
    hgreeted.key _ (List.mem_of_getElem? hmoved) _ _ rfl
  have horigin : (run (events ++ [.greet place source sink]) start).registry.origins[serial]? =
      some trial.origin := by
    rw [Registry.getElem?_origins, htrial]
    rfl
  refine ⟨serial, trial.origin, hmoved, horigin, openedBy_of_origin hstart _ horigin ?_,
    hmeasurement, haddress, fun hfree => ?_⟩
  · exact fun h => hkind (hmeasurement.symm.trans h)
  · have hnext : serial = (run events start).registry.origins.length :=
      (run events start).server.fst_openTrial_of_free hfree request
    have hadded : (run (events ++ [.greet place source sink]) start).registry.origins =
        (run events start).registry.origins ++ [⟨measurement, peer, request⟩] := by
      rw [hrun]
      exact ((run events start).server.origins_openTrial peer measurement request).trans
        (congrArg _ (if_pos hfree))
    rw [hadded, hnext, List.getElem?_concat_length] at horigin
    exact (congrArg Trial.Origin.request (Option.some.inj horigin)).symm

/-- A connection to which the server sends is paced by the request that opened its trial, which is
its own only if no trial was registered for its address.  Whatever other connections ask for, then
or later: with a budget, every window that the sender completes carries the budget to the byte, and
it sleeps at the ends of windows only; without one it never sleeps.  The request of the connection
itself settles the size of the buffer and nothing else. -/
theorem rate_of_opener (interval : ℕ) (events : List Event) {place : ℕ} {peer : Endpoint}
    {calls : List Call} {source left : Source} {sink after : Sink} {request : Request}
    (hvisit : (run events { server := { interval } }).visits[place]? =
      some ⟨peer, .greeting, calls⟩)
    (hdone : Wire.serverHandshake source sink = (.done (.tcpBandwidth, request), left, after))
    (hserved : Refusal.of? .tcpBandwidth request = none) (hreverse : request.reverse = true) :
    let start : Service := { server := { interval } }
    let history := events ++ [.greet place source sink]
    let buffer := max 1 request.bufferSize.toNat
    ∃ serial opener,
      (run history start).visits[place]? =
        some ⟨peer, .served serial .tcpBandwidth, calls ++ [.opened serial]⟩ ∧
      OpenedBy start history serial opener ∧
      opener.measurement = .tcpBandwidth ∧ opener.peer.address = peer.address ∧
      ((run events start).registry.find? peer.address .tcpBandwidth = none →
        opener.request = request) ∧
      ∀ later, ∃ trial, (run (history ++ later) start).registry.trial? serial = some trial ∧
        trial.origin = opener ∧
        (∀ chance source sink, Exchanged.ofRequest chance trial .tcpBandwidth request source sink =
          .sending chance trial buffer source sink) ∧
        ∀ (chance : Chance) now script, ∃ sent ledger,
          Transfer.send? chance trial.lastTick now trial.request.rate buffer script = some sent ∧
          Transfer.Logs buffer
            { pacer := .begin trial.lastTick now opener.request.rate buffer } false script
            sent.offers ledger ∧
          (∀ total ∈ ledger.completed, total = opener.request.rate.toNat / 8) ∧
          Transfer.KeepsTo opener.request.rate script sent.offers := by
  intro start history buffer
  obtain ⟨serial, opener, hmoved, horigin, hopened, hmeasurement, haddress, hown⟩ :=
    exists_opener (accounted_start interval) rfl events hvisit hdone hserved (by decide)
  refine ⟨serial, opener, hmoved, hopened, hmeasurement, haddress, hown, fun later => ?_⟩
  -- the trial keeps its origin, whatever happens from now on
  have hkept : (run (history ++ later) start).registry.origins[serial]? = some opener := by
    obtain ⟨added, hadded⟩ := origins_prefix_run later (run history start)
    rw [run_append, ← hadded, List.getElem?_append_left (List.getElem?_eq_some_iff.1 horigin).1]
    exact horigin
  rw [Registry.getElem?_origins] at hkept
  obtain ⟨trial, htrial, rfl⟩ := Option.map_eq_some_iff.1 hkept
  refine ⟨trial, htrial, rfl, fun chance source sink => ?_, fun chance now script => ?_⟩
  · rw [Exchanged.ofRequest, if_neg (by decide), if_pos hreverse]
  · exact Transfer.exists_logs_send? (Nat.le_max_left 1 _) chance trial.lastTick now
      trial.request.rate script

/-- The second connection of an address asks for no limit, and is paced by the 80 bits per second
that the first one asked for. -/
theorem rate_of_opener_joined :
    let peer (port : UInt16) : Endpoint := ⟨.loopback, port, 0⟩
    let asked (rate : UInt64) : Request := { reverse := true, bufferSize := 16, rate }
    let source (rate : UInt64) : Source :=
      [.chunk (Wire.Message.framed ⟨1, .request .tcpBandwidth (asked rate)⟩)]
    let events : List Event :=
      [.connect (peer 40000), .connect (peer 40001), .greet 0 (source 80) {}]
    let service := run (events ++ [.greet 1 (source 0) {}]) { server := {} }
    (run events { server := {} }).visits[1]? = some ⟨peer 40001, .greeting, []⟩ ∧
      (Wire.serverHandshake (source 0) {}).1 = .done (.tcpBandwidth, asked 0) ∧
      Refusal.of? .tcpBandwidth (asked 0) = none ∧ (asked 0).reverse = true ∧
      service.visits[1]? = some ⟨peer 40001, .served 0 .tcpBandwidth, [.opened 0]⟩ ∧
      ∃ trial, service.registry.trial? 0 = some trial ∧ trial.request = asked 80 ∧
        ∀ now script, ∃ sent ledger,
          Transfer.send? .still trial.lastTick now 80 16 script = some sent ∧
          (∀ total ∈ Pacing.Ledger.completed ledger, total = 10) ∧
          Transfer.KeepsTo 80 script sent.offers := by
  intro peer asked source events service
  have hdone : Wire.serverHandshake (source 0) {} = (.done (.tcpBandwidth, asked 0), [], _) :=
    Wire.serverHandshake_chunk rfl
  have hvisit : (run events { server := {} }).visits[1]? = some ⟨peer 40001, .greeting, []⟩ := by
    decide +kernel
  have hserved : Refusal.of? .tcpBandwidth (asked 0) = none := by decide
  have hjoined : service.visits[1]? =
      some ⟨peer 40001, .served 0 .tcpBandwidth, [.opened 0]⟩ := by decide +kernel
  obtain ⟨serial, opener, hmoved, -, -, -, -, hpaced⟩ :=
    rate_of_opener 1_000_000_000 events hvisit hdone hserved rfl
  obtain rfl : serial = 0 := by
    have heq := hmoved.symm.trans hjoined
    simpa using heq
  obtain ⟨trial, htrial, horigin, -, hsent⟩ := hpaced []
  rw [List.append_nil] at htrial
  have hrequest : trial.request = asked 80 := by
    have hkept : (service.registry.trial? 0).map Trial.request = some (asked 80) := by
      decide +kernel
    rw [show service.registry.trial? 0 = some trial from htrial] at hkept
    exact Option.some.inj hkept
  refine ⟨hvisit, by rw [hdone], hserved, rfl, hjoined, trial, htrial, hrequest,
    fun now script => ?_⟩
  obtain ⟨sent, ledger, hsend, -, hcompleted, hkeeps⟩ := hsent .still now script
  rw [← horigin, show trial.origin.request = asked 80 from hrequest] at hcompleted hkeeps
  rw [show (asked 80).rate.toNat / 8 = 10 by decide] at hcompleted
  rw [hrequest] at hsend
  exact ⟨sent, ledger, hsend, hcompleted, hkeeps⟩

/-- A connection is not paced by its own request: of two connections of one address the second one
asks for no limit, and still the server sleeps before its second call. -/
theorem not_rate_of_request :
    ¬ ∀ (events : List Event) (place : ℕ) (peer : Endpoint) (calls : List Call)
      (source left : Source) (sink after : Sink) (request : Request) (serial : Serial)
      (trial : Trial) (sent : Transfer.Sent),
      (run events { server := {} }).visits[place]? = some ⟨peer, .greeting, calls⟩ →
      Wire.serverHandshake source sink = (.done (.tcpBandwidth, request), left, after) →
      Refusal.of? .tcpBandwidth request = none → request.reverse = true →
      (run (events ++ [.greet place source sink]) { server := {} }).visits[place]? =
        some ⟨peer, .served serial .tcpBandwidth, calls ++ [.opened serial]⟩ →
      (run (events ++ [.greet place source sink]) { server := {} }).registry.trial? serial =
        some trial →
      Transfer.sendOn? .still trial (max 1 request.bufferSize.toNat) after = some sent →
      Transfer.KeepsTo request.rate (after.script.getD []) sent.offers := by
  intro hpaced
  let peer (port : UInt16) : Endpoint := ⟨.loopback, port, 0⟩
  let asked (rate : UInt64) : Request := { reverse := true, bufferSize := 16, rate }
  let source (rate : UInt64) : Source :=
    [.chunk (Wire.Message.framed ⟨1, .request .tcpBandwidth (asked rate)⟩)]
  let events : List Event :=
    [.connect (peer 40000), .connect (peer 40001), .greet 0 (source 80) {}]
  let sink : Sink := { script := some [.take 12, .take 16, .take 16] }
  let after : Sink :=
    { script := some [.take 16, .take 16], written := Wire.acceptance.framed }
  have hdone : Wire.serverHandshake (source 0) sink =
      (.done (.tcpBandwidth, asked 0), [], after) := Wire.serverHandshake_chunk rfl
  let trial : Trial :=
    { Trial.start 0 .tcpBandwidth (peer 40000) (asked 80) (some .bandwidth) 1_000_000_000 with
      references := 2, isClaimed := true }
  have hkeeps := hpaced events 1 (peer 40001) [] (source 0) [] sink after (asked 0) 0 trial
    { offers := [(10, false), (10, true), (10, true)]
      samples := [.ok (.bandwidth 20 0)], total := 20 }
    (by decide +kernel) hdone (by decide) rfl (by decide +kernel) (by decide +kernel) (by decide)
  exact absurd (hkeeps.awake (by decide) (10, true) (by simp)) (by decide)

end Service

end LinkMeter
