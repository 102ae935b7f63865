import LinkMeter.Proofs.Server.Alarms
import LinkMeter.Proofs.Wire.Frames
import LinkMeter.Server.Connection

/-!
# Connections and the trials that they hold

`Service` is a server with the connections that were made to it.  A connection
is in its handshake, or is served, or was counted and lingers, or has ended; it
keeps a list of what it called the registry for.  The events are the steps of
the connections in any order, with what happens on the server meanwhile.

The argument is one of counting.  A trial has as many references as there are
connections that are served or linger with it, its holders, and a trial that has
holders is registered and running (`Registry.Attended`).  A connection takes a
step in one of three ways, and each keeps the two numbers equal:

* it is turned away and was a holder of nothing before and after;
* it opens a trial, which has one reference and one holder more
  (`Accounted.opened`);
* it gives its trial back, which has one of each less (`Accounted.closed`).

Whatever else happens leaves all trials running (`Accounted.stay`).  So no
connection loses its trial to another one, and the last connection leaves
nothing behind (`Service.accounted_run`).  That the steps are those of a server
is a matter of its own operations: serving a connection from its first byte to
its end is the four steps of one connection (`Service.run_visiting`), and
letting time pass is the end of those connections that have lingered long enough
(`Accounted.exists_run_advance`).
-/

namespace LinkMeter

open Pacing (Instant)
open Wire (Progress Sink Source)

/-! ## Requests that are served -/

theorem Refusal.of?_eq_none_iff {measurement : Measurement} {request : Request} :
    Refusal.of? measurement request = none ↔
      (measurement = .tcpBandwidth ∨ measurement = .tcpLatency) ∧
        request.bufferSize ≤ Refusal.maxBufferSize := by
  unfold Refusal.of?
  split
  case isTrue hother => exact iff_of_false nofun fun h => h.1.elim hother.1 hother.2
  case isFalse hserved =>
    have hmeasured : measurement = .tcpBandwidth ∨ measurement = .tcpLatency := by
      by_contra hother
      exact hserved (not_or.1 hother)
    split
    case isTrue hlarge => exact iff_of_false nofun fun h => absurd hlarge (UInt32.not_lt.2 h.2)
    case isFalse hfits => exact iff_of_true rfl ⟨hmeasured, UInt32.not_lt.1 hfits⟩

/-! ## Connections -/

/-- Where a connection is. -/
inductive Stage where
  | greeting
  | served (serial : Serial) (measurement : Measurement)
  | lingering (due : Instant) (serial : Serial)
  | ended
  deriving DecidableEq, Inhabited

/-- What a connection calls the registry for. -/
inductive Call where
  | opened (serial : Serial)
  | released (serial : Serial)
  deriving DecidableEq, Inhabited

/-- A connection to a server. -/
structure Visit where
  peer : Endpoint
  stage : Stage := .greeting
  calls : List Call := []
  deriving DecidableEq, Inhabited

/-- The trial that a connection holds, with its measurement. -/
def Stage.held? : Stage → Option (Serial × Measurement)
  | .served serial measurement => some (serial, measurement)
  | .lingering _ serial => some (serial, .tcpConnectionRate)
  | .greeting | .ended => none

namespace Visit

def Holds (visit : Visit) (serial : Serial) : Prop :=
  visit.stage.held?.map (·.1) = some serial

instance (visit : Visit) (serial : Serial) : Decidable (visit.Holds serial) :=
  inferInstanceAs (Decidable (_ = _))

/-- What a connection opened it gives back once, at its end. -/
def Balanced (visit : Visit) : Prop :=
  match visit.stage with
  | .greeting => visit.calls = []
  | .served serial _ | .lingering _ serial => visit.calls = [.opened serial]
  | .ended => visit.calls = [] ∨ ∃ serial, visit.calls = [.opened serial, .released serial]

/-- A connection when time has passed up to a goal.  One that lingered until then has ended and has
given back what it opened. -/
def after (goal : Instant) (visit : Visit) : Visit :=
  match visit.stage with
  | .lingering due serial =>
    if due ≤ goal then ⟨visit.peer, .ended, visit.calls ++ [.released serial]⟩ else visit
  | .greeting | .served _ _ | .ended => visit

/-- How many connections hold a trial. -/
def holders (visits : List Visit) (serial : Serial) : ℕ :=
  visits.countP fun visit => decide (visit.Holds serial)

end Visit

/-! ## Events -/

/-- A server with the connections made to it. -/
structure Service where
  server : Server
  visits : List Visit := []

namespace Service

/-- What happens to a connection, by its place, or on the server. -/
inductive Event where
  | connect (peer : Endpoint)
  /-- The handshake comes to an end. -/
  | greet (place : ℕ) (source : Source) (sink : Sink)
  /-- The handshake takes too long, or the connection breaks before a trial is opened for it. -/
  | drop (place : ℕ)
  | exchange (place : ℕ) (samples : List Outcome)
  /-- The data phase ends, in whatever way. -/
  | depart (place : ℕ)
  /-- The connection was counted long enough ago. -/
  | expire (place : ℕ)
  | publish (due : Instant) (serial : Serial)
  | settle
  | clock (now wall : Instant)

/-- What becomes of a connection after its handshake, and what it calls the registry for. -/
def admission (server : Server) (peer : Endpoint)
    (handshake : Progress (Measurement × Request)) : Stage × List Call × Server :=
  match server.greet peer handshake with
  | (.served serial measurement _, after) =>
    (.served serial measurement, [.opened serial], after)
  | (.counted, after) =>
    let serial := (server.openTrial peer .tcpConnectionRate {}).1
    (.lingering (server.now + Server.lingerTime) serial, [.opened serial], after)
  | (.refused _, after) | (.dropped, after) => (.ended, [], after)

def enter (service : Service) (place : ℕ) (handshake : Progress (Measurement × Request)) :
    Service :=
  match service.visits[place]? with
  | some ⟨peer, .greeting, calls⟩ =>
    let (stage, made, server) := admission service.server peer handshake
    { server, visits := service.visits.set place ⟨peer, stage, calls ++ made⟩ }
  | _ => service

def step (service : Service) : Event → Service
  | .connect peer => { service with visits := service.visits ++ [{ peer }] }
  | .greet place source sink => service.enter place (Wire.serverHandshake source sink).1
  | .drop place => service.enter place .waiting
  | .exchange place samples =>
    match service.visits[place]? with
    | some ⟨_, .served serial _, _⟩ =>
      { service with server := service.server.addSamples serial samples }
    | _ => service
  | .depart place =>
    match service.visits[place]? with
    | some ⟨peer, .served serial _, calls⟩ =>
      { server := service.server.depart serial
        visits := service.visits.set place ⟨peer, .ended, calls ++ [.released serial]⟩ }
    | _ => service
  | .expire place =>
    match service.visits[place]? with
    | some ⟨peer, .lingering due serial, calls⟩ =>
      { server := service.server.goOff ⟨due, .linger serial⟩
        visits := service.visits.set place ⟨peer, .ended, calls ++ [.released serial]⟩ }
    | _ => service
  | .publish due serial =>
    { service with server := service.server.goOff ⟨due, .publish serial⟩ }
  | .settle => { service with server := service.server.settle }
  | .clock now wall => { service with server := { service.server with now := now, wall := wall } }

/-- The duties that connections and their trials bring along. -/
def OfConnections : Duty → Prop
  | .publish _ | .linger _ => True
  | .sweep | .overview _ => False

def run (events : List Event) (service : Service) : Service := events.foldl step service

def registry (service : Service) : Registry := service.server.registry

/-! ## Accounts -/

/-- How many alarms of counted connections are set for an instant and a trial. -/
def lingers (server : Server) (due : Instant) (serial : Serial) : ℕ :=
  server.alarms.count ⟨due, .linger serial⟩

/-- Holders are the connections that are served or linger; everyone finds its trial where it
asked for it. -/
structure Accounted (service : Service) : Prop where
  attended : service.registry.Attended (Visit.holders service.visits)
  lingers_eq : ∀ due serial, lingers service.server due serial =
    service.visits.countP fun visit => decide (visit.stage = .lingering due serial)
  duties : ∀ alarm ∈ service.server.alarms, OfConnections alarm.duty
  key : ∀ visit ∈ service.visits, ∀ serial measurement,
    visit.stage.held? = some (serial, measurement) →
    ∃ trial, service.registry.trial? serial = some trial ∧
      trial.peer.address = visit.peer.address ∧ trial.measurement = measurement
  balanced : ∀ visit ∈ service.visits, visit.Balanced

theorem accounted_start (interval : ℕ) :
    ({ server := { interval } } : Service).Accounted where
  attended := Registry.attended_empty
  lingers_eq := fun _ _ => rfl
  duties := by simp
  key := by simp
  balanced := by simp

variable {service : Service}

private theorem holders_set_add {visits : List Visit} {place : ℕ} {visit : Visit}
    (hvisit : visits[place]? = some visit) (moved : Visit) (serial : Serial) :
    Visit.holders (visits.set place moved) serial + (if visit.Holds serial then 1 else 0) =
      Visit.holders visits serial + if moved.Holds serial then 1 else 0 := by
  have hmoved := countP_set_add hvisit (fun visit => decide (visit.Holds serial)) moved
  simp only [decide_eq_true_eq] at hmoved
  exact hmoved

/-- A connection takes another stage, and the server follows. -/
private theorem Accounted.move (haccounted : service.Accounted) {place : ℕ} {visit moved : Visit}
    (hvisit : service.visits[place]? = some visit) {after : Server}
    (hattended : after.registry.Attended (Visit.holders (service.visits.set place moved)))
    (hcontinues : service.registry.Continues after.registry)
    (hlingers : ∀ due serial, lingers after due serial +
        (if visit.stage = .lingering due serial then 1 else 0) =
      lingers service.server due serial + if moved.stage = .lingering due serial then 1 else 0)
    (hduties : ∀ alarm ∈ after.alarms, alarm ∈ service.server.alarms ∨ OfConnections alarm.duty)
    (hkey : ∀ serial measurement, moved.stage.held? = some (serial, measurement) →
      ∃ trial, after.registry.trial? serial = some trial ∧
        trial.peer.address = moved.peer.address ∧ trial.measurement = measurement)
    (hbalanced : moved.Balanced) :
    ({ server := after, visits := service.visits.set place moved } : Service).Accounted where
  attended := hattended
  lingers_eq := by
    intro due serial
    have hmoved := countP_set_add hvisit (fun visit => decide (visit.stage = .lingering due serial))
      moved
    have hafter := hlingers due serial
    rw [haccounted.lingers_eq] at hafter
    simp only [decide_eq_true_eq] at hmoved
    exact Nat.add_right_cancel (hafter.trans hmoved.symm)
  duties := fun alarm halarm => (hduties alarm halarm).elim (haccounted.duties alarm) id
  key := by
    intro other hother serial measurement hheld
    rcases List.mem_or_eq_of_mem_set hother with hold | rfl
    · obtain ⟨trial, htrial, haddress, hmeasurement⟩ :=
        haccounted.key other hold serial measurement hheld
      obtain ⟨later, hlater, hon⟩ := hcontinues serial trial htrial
      exact ⟨later, hlater, hon.peer_eq ▸ haddress, hon.measurement_eq ▸ hmeasurement⟩
    · exact hkey serial measurement hheld
  balanced := by
    intro other hother
    rcases List.mem_or_eq_of_mem_set hother with hold | rfl
    · exact haccounted.balanced other hold
    · exact hbalanced

/-- The server does something that leaves all trials running. -/
private theorem Accounted.stay (haccounted : service.Accounted) {after : Server}
    (hsteady : service.registry.Steady after.registry)
    (hlingers : ∀ due serial, lingers after due serial = lingers service.server due serial)
    (hduties : ∀ alarm ∈ after.alarms,
      alarm ∈ service.server.alarms ∨ OfConnections alarm.duty) :
    ({ service with server := after } : Service).Accounted where
  attended := haccounted.attended.steady hsteady
  lingers_eq := fun due serial => (hlingers due serial).trans (haccounted.lingers_eq due serial)
  duties := fun alarm halarm => (hduties alarm halarm).elim (haccounted.duties alarm) id
  key := by
    intro visit hvisit serial measurement hheld
    obtain ⟨trial, htrial, haddress, hmeasurement⟩ :=
      haccounted.key visit hvisit serial measurement hheld
    obtain ⟨later, hlater, hon⟩ := hsteady.trial serial trial htrial
    exact ⟨later, hlater, hon.peer_eq ▸ haddress, hon.measurement_eq ▸ hmeasurement⟩
  balanced := haccounted.balanced

/-- A connection that opens a trial is a holder of it from then on. -/
private theorem Accounted.opened (haccounted : service.Accounted) {place : ℕ} {peer : Endpoint}
    (hvisit : service.visits[place]? = some ⟨peer, .greeting, []⟩) (measurement : Measurement)
    (request : Request) {stage : Stage} {after : Server}
    (hheld : stage.held? =
      some ((service.server.openTrial peer measurement request).1, measurement))
    (hsteady : (service.server.openTrial peer measurement request).2.registry.Steady
      after.registry)
    (hlingers : ∀ due serial, lingers after due serial = lingers service.server due serial +
      if stage = .lingering due serial then 1 else 0)
    (hduties : ∀ alarm ∈ after.alarms, alarm ∈ service.server.alarms ∨ OfConnections alarm.duty)
    (hbalanced : Visit.Balanced ⟨peer, stage,
      [.opened (service.server.openTrial peer measurement request).1]⟩) :
    ({ server := after
       visits := service.visits.set place ⟨peer, stage,
        [.opened (service.server.openTrial peer measurement request).1]⟩ } :
          Service).Accounted := by
  -- the trial may be shared, but this connection held none before
  have hattended : (service.server.openTrial peer measurement request).2.registry.Attended
      (Visit.holders (service.visits.set place ⟨peer, stage,
        [.opened (service.server.openTrial peer measurement request).1]⟩)) := by
    refine service.server.attended_openTrial haccounted.attended peer measurement request ?_
    intro serial
    have hmoved := holders_set_add hvisit ⟨peer, stage,
      [.opened (service.server.openTrial peer measurement request).1]⟩ serial
    have hbefore : ¬ Visit.Holds ⟨peer, .greeting, []⟩ serial := by simp [Visit.Holds, Stage.held?]
    rw [if_neg hbefore, Nat.add_zero] at hmoved
    rw [hmoved]
    simp only [Visit.Holds, hheld, Option.map_some, Option.some.injEq, eq_comm]
  have hcontinues := service.server.continues_openTrial peer measurement request
  refine haccounted.move hvisit (hattended.steady hsteady)
    (hcontinues.trans hsteady.continues) ?_ hduties ?_ hbalanced
  · intro due serial
    rw [hlingers]
    rfl
  · intro serial kind hstage
    rw [hheld] at hstage
    cases hstage
    have hfind := service.server.find?_openTrial peer measurement request
    obtain ⟨trial, htrial, haddress, hmeasurement⟩ := hattended.held.sound.trial _ _ _ hfind
    obtain ⟨later, hlater, hon⟩ := hsteady.trial _ trial htrial
    exact ⟨later, hlater, hon.peer_eq ▸ haddress, hon.measurement_eq ▸ hmeasurement⟩

/-- A connection that gives its trial back is a holder less. -/
private theorem Accounted.closed (haccounted : service.Accounted) {place : ℕ} {peer : Endpoint}
    {stage : Stage} {serial : Serial} {measurement : Measurement}
    (hvisit : service.visits[place]? = some ⟨peer, stage, [.opened serial]⟩)
    (hheld : stage.held? = some (serial, measurement)) {after : Server}
    (hregistry : after.registry = (service.registry.release serial).2)
    (hlingers : ∀ due other, lingers after due other +
      (if stage = .lingering due other then 1 else 0) = lingers service.server due other)
    (hduties : ∀ alarm ∈ after.alarms, alarm ∈ service.server.alarms) :
    ({ server := after
       visits := service.visits.set place
        ⟨peer, .ended, [.opened serial, .released serial]⟩ } : Service).Accounted := by
  have hholds : ∀ other, Visit.Holds ⟨peer, stage, [.opened serial]⟩ other ↔ other = serial := by
    intro other
    simp only [Visit.Holds, hheld, Option.map_some, Option.some.injEq, eq_comm]
  have hmoved : ∀ other, Visit.holders
      (service.visits.set place ⟨peer, .ended, [.opened serial, .released serial]⟩) other +
        (if other = serial then 1 else 0) = Visit.holders service.visits other := by
    intro other
    have hset := holders_set_add hvisit ⟨peer, .ended, [.opened serial, .released serial]⟩ other
    have hended : ¬ Visit.Holds ⟨peer, .ended, [.opened serial, .released serial]⟩ other := by
      simp [Visit.Holds, Stage.held?]
    rw [if_neg hended, Nat.add_zero] at hset
    rw [← hset]
    simp only [hholds]
  have hpos : 0 < Visit.holders service.visits serial :=
    List.countP_pos_iff.2 ⟨_, List.mem_of_getElem? hvisit, decide_eq_true ((hholds serial).2 rfl)⟩
  refine haccounted.move hvisit (hregistry ▸ haccounted.attended.release hpos hmoved)
    (hregistry ▸ Registry.continues_release service.registry serial) ?_
    (fun alarm halarm => .inl (hduties alarm halarm)) ?_ (.inr ⟨serial, rfl⟩)
  · intro due other
    exact hlingers due other
  · intro other kind hended
    exact absurd hended (by simp [Stage.held?])

/-! ## Steps -/

/-- A connection is turned away, or is served or counted and opens a trial for it. -/
theorem admission_cases (server : Server) (peer : Endpoint)
    (handshake : Progress (Measurement × Request)) :
    admission server peer handshake = (.ended, [], server) ∨
      (∃ measurement request, admission server peer handshake =
        (.served (server.openTrial peer measurement request).1 measurement,
          [.opened (server.openTrial peer measurement request).1],
          (server.openTrial peer measurement request).2)) ∨
      admission server peer handshake =
        (.lingering (server.now + Server.lingerTime)
            (server.openTrial peer .tcpConnectionRate {}).1,
          [.opened (server.openTrial peer .tcpConnectionRate {}).1],
          server.countConnection peer) := by
  cases handshake with
  | waiting => exact .inl rfl
  | failed failure => exact .inr (.inr rfl)
  | done asked =>
      obtain ⟨measurement, request⟩ := asked
      cases hrefusal : Refusal.of? measurement request with
      | some refusal =>
          left
          rw [admission, Server.greet, hrefusal]
      | none =>
          right
          left
          refine ⟨measurement, request, ?_⟩
          rw [admission, Server.greet, hrefusal]

theorem Accounted.enter (haccounted : service.Accounted) (place : ℕ)
    (handshake : Progress (Measurement × Request)) :
    (service.enter place handshake).Accounted := by
  unfold Service.enter
  split
  case h_2 => exact haccounted
  case h_1 peer calls hvisit =>
    obtain rfl : calls = [] := haccounted.balanced _ (List.mem_of_getElem? hvisit)
    rcases admission_cases service.server peer handshake with
        haway | ⟨measurement, request, hserved⟩ | hcounted
    · -- it held nothing, and goes on to hold nothing
      rw [haway]
      have hholders : ∀ serial,
          Visit.holders (service.visits.set place ⟨peer, .ended, []⟩) serial =
            Visit.holders service.visits serial := holders_set_add hvisit ⟨peer, .ended, []⟩
      refine haccounted.move hvisit (funext hholders ▸ haccounted.attended)
        (Registry.Steady.refl _).continues (fun _ _ => rfl) (fun _ => .inl) ?_ (.inl rfl)
      intro serial measurement hheld
      exact absurd hheld (by simp [Stage.held?])
    · rw [hserved]
      refine haccounted.opened hvisit measurement request rfl (Registry.Steady.refl _) ?_ ?_ rfl
      · intro due serial
        rw [lingers, Server.alarms_openTrial]
        rfl
      · rw [Server.alarms_openTrial]
        exact fun _ => .inl
    · rw [hcounted]
      refine haccounted.opened hvisit .tcpConnectionRate {} rfl
        (service.server.steady_countConnection peer) ?_ ?_ rfl
      · intro due serial
        rw [lingers, Server.alarms_countConnection, List.count_append, List.count_singleton]
        simp only [lingers, beq_iff_eq, Alarm.mk.injEq, Duty.linger.injEq, Stage.lingering.injEq]
      · intro alarm halarm
        rw [Server.alarms_countConnection] at halarm
        rcases List.mem_append.1 halarm with hold | hnew
        · exact .inl hold
        · rw [List.mem_singleton.1 hnew]
          exact .inr trivial

theorem Accounted.connect (haccounted : service.Accounted) (peer : Endpoint) :
    (service.step (.connect peer)).Accounted := by
  refine ⟨?_, ?_, haccounted.duties, ?_, ?_⟩
  · have hholders : Visit.holders (service.visits ++ [⟨peer, .greeting, []⟩]) =
        Visit.holders service.visits := by
      funext serial
      simp [Visit.holders, Visit.Holds, Stage.held?]
    exact hholders ▸ haccounted.attended
  · intro due serial
    show _ = (service.visits ++ [_]).countP _
    rw [List.countP_append]
    exact haccounted.lingers_eq due serial
  · intro visit hvisit serial measurement hheld
    rcases List.mem_append.1 hvisit with hold | hnew
    · exact haccounted.key visit hold serial measurement hheld
    · rw [List.mem_singleton.1 hnew] at hheld
      exact absurd hheld (by simp [Stage.held?])
  · intro visit hvisit
    rcases List.mem_append.1 hvisit with hold | hnew
    · exact haccounted.balanced visit hold
    · rw [List.mem_singleton.1 hnew]
      rfl

theorem Accounted.depart (haccounted : service.Accounted) (place : ℕ) :
    (service.step (.depart place)).Accounted := by
  unfold Service.step
  dsimp only
  split
  case h_1 peer serial measurement calls hvisit =>
    obtain rfl : calls = [.opened serial] := haccounted.balanced _ (List.mem_of_getElem? hvisit)
    exact haccounted.closed hvisit rfl rfl (fun _ _ => rfl) fun _ => id
  case h_2 => exact haccounted

theorem Accounted.expire (haccounted : service.Accounted) (place : ℕ) :
    (service.step (.expire place)).Accounted := by
  unfold Service.step
  dsimp only
  split
  case h_1 peer due serial calls hvisit =>
    obtain rfl : calls = [.opened serial] := haccounted.balanced _ (List.mem_of_getElem? hvisit)
    refine haccounted.closed hvisit rfl rfl (fun instant other => ?_)
      fun _ => List.mem_of_mem_erase
    -- the alarm of the connection is set, so exactly one goes
    have hpos : 0 < lingers service.server due serial := by
      rw [haccounted.lingers_eq]
      exact List.countP_pos_iff.2 ⟨_, List.mem_of_getElem? hvisit, decide_eq_true rfl⟩
    show (service.server.alarms.erase ⟨due, .linger serial⟩).count _ + _ = _
    rw [List.count_erase]
    simp only [beq_iff_eq, Alarm.mk.injEq, Duty.linger.injEq, Stage.lingering.injEq]
    split
    case isTrue h =>
      obtain ⟨rfl, rfl⟩ := h
      exact Nat.sub_add_cancel hpos
    case isFalse => rfl
  case h_2 => exact haccounted

theorem Accounted.publish (haccounted : service.Accounted) (due : Instant) (serial : Serial) :
    (service.step (.publish due serial)).Accounted := by
  have halarms := service.server.alarms_goOff_publish due serial
  refine haccounted.stay (service.server.steady_goOff_publish due serial) ?_ ?_
  · intro instant other
    rw [lingers, halarms, List.count_erase_of_ne (by simp)]
    rfl
  · rw [halarms]
    exact fun _ halarm => .inl (List.mem_of_mem_erase halarm)

/-- A server that settles sets alarms for publishers only. -/
theorem Accounted.settle (haccounted : service.Accounted) : (service.step .settle).Accounted := by
  obtain ⟨added, halarms, hpublish⟩ := service.server.exists_alarms_settle
  refine haccounted.stay service.server.steady_settle ?_ ?_
  · intro due serial
    -- the alarms of connections that linger are none of them
    have hnone : (⟨due, .linger serial⟩ : Alarm) ∉ added := by
      intro hmem
      obtain ⟨other, hother⟩ := hpublish _ hmem
      exact absurd hother (by simp)
    rw [lingers, halarms, List.count_append, List.count_eq_zero_of_not_mem hnone]
    rfl
  · intro alarm halarm
    rw [halarms] at halarm
    rcases List.mem_append.1 halarm with hold | hnew
    · exact .inl hold
    · obtain ⟨serial, hserial⟩ := hpublish alarm hnew
      exact .inr (hserial ▸ trivial)

theorem Accounted.step (haccounted : service.Accounted) (event : Event) :
    (service.step event).Accounted := by
  cases event with
  | connect peer => exact haccounted.connect peer
  | greet place source sink => exact haccounted.enter place _
  | drop place => exact haccounted.enter place .waiting
  | exchange place samples =>
      unfold Service.step
      dsimp only
      split
      case h_1 serial _ _ hvisit =>
        exact haccounted.stay
          (Registry.steady_change _ serial fun trial _ => trial.steady_foldl_add samples)
          (fun _ _ => rfl) fun _ => .inl
      case h_2 => exact haccounted
  | depart place => exact haccounted.depart place
  | expire place => exact haccounted.expire place
  | publish due serial => exact haccounted.publish due serial
  | settle => exact haccounted.settle
  | clock now wall =>
      exact haccounted.stay (Registry.Steady.refl _) (fun _ _ => rfl) fun _ => .inl

theorem accounted_run (haccounted : service.Accounted) (events : List Event) :
    (run events service).Accounted := by
  induction events generalizing service with
  | nil => exact haccounted
  | cons event events ih => exact ih (haccounted.step event)

/-! ## Time -/

theorem run_append (events later : List Event) (service : Service) :
    run (events ++ later) service = run later (run events service) := List.foldl_append

theorem staffed_step (hstaffed : service.server.Staffed) (event : Event) :
    (service.step event).server.Staffed := by
  have henter : ∀ place handshake, (service.enter place handshake).server.Staffed := by
    intro place handshake
    unfold Service.enter
    split
    case h_2 => exact hstaffed
    case h_1 peer calls _ =>
      rcases admission_cases service.server peer handshake with
          haway | ⟨measurement, request, hserved⟩ | hcounted
      · rw [haway]
        exact hstaffed
      · rw [hserved]
        exact hstaffed.openTrial peer measurement request
      · rw [hcounted]
        exact hstaffed.countConnection peer
  cases event with
  | connect peer => exact hstaffed
  | greet place source sink => exact henter place _
  | drop place => exact henter place .waiting
  | exchange place samples =>
      unfold Service.step
      dsimp only
      split
      case h_1 serial _ _ _ =>
        exact hstaffed.change serial fun trial => (trial.steady_foldl_add samples).precedes
      case h_2 => exact hstaffed
  | depart place =>
      unfold Service.step
      dsimp only
      split
      case h_1 serial _ _ _ =>
        exact hstaffed.of_continues (Registry.continues_release _ serial)
          (Registry.length_trials_release _ serial) rfl
      case h_2 => exact hstaffed
  | expire place =>
      unfold Service.step
      dsimp only
      split
      case h_1 due serial _ _ => exact hstaffed.goOff ⟨due, .linger serial⟩
      case h_2 => exact hstaffed
  | publish due serial => exact hstaffed.goOff ⟨due, .publish serial⟩
  | settle => exact hstaffed.settle
  | clock now wall => exact ⟨hstaffed.length_eq, hstaffed.single⟩

theorem staffed_run (hstaffed : service.server.Staffed) (events : List Event) :
    (run events service).server.Staffed := by
  induction events generalizing service with
  | nil => exact hstaffed
  | cons event events ih => exact ih (staffed_step hstaffed event)

/-- The alarm of a connection that lingers is set. -/
theorem Accounted.mem_alarms (haccounted : service.Accounted) {visit : Visit}
    (hvisit : visit ∈ service.visits) {due : Instant} {serial : Serial}
    (hstage : visit.stage = .lingering due serial) :
    ⟨due, .linger serial⟩ ∈ service.server.alarms := by
  have hpos : 0 < lingers service.server due serial := by
    rw [haccounted.lingers_eq]
    exact List.countP_pos_iff.2 ⟨visit, hvisit, decide_eq_true hstage⟩
  exact List.count_pos_iff.1 hpos

/-- An alarm that goes off is a step of the connection that set it, or of a publisher. -/
theorem Accounted.exists_step_goOff (haccounted : service.Accounted) {alarm : Alarm}
    (halarm : alarm ∈ service.server.alarms) {goal : Instant} (hdue : alarm.due ≤ goal) :
    ∃ event, (service.step event).server = service.server.goOff alarm ∧
      (service.step event).visits.map (Visit.after goal) =
        service.visits.map (Visit.after goal) := by
  obtain ⟨due, duty⟩ := alarm
  have hduty := haccounted.duties _ halarm
  cases duty with
  | publish serial => exact ⟨.publish due serial, rfl, rfl⟩
  | linger serial =>
      have hpos : 0 < lingers service.server due serial := List.count_pos_iff.2 halarm
      rw [haccounted.lingers_eq, List.countP_pos_iff] at hpos
      obtain ⟨⟨peer, stage, calls⟩, hvisit, hstage⟩ := hpos
      obtain rfl : stage = .lingering due serial := of_decide_eq_true hstage
      obtain ⟨place, hplace⟩ := List.getElem?_of_mem hvisit
      have hstep : service.step (.expire place) =
          { server := service.server.goOff ⟨due, .linger serial⟩
            visits := service.visits.set place
              ⟨peer, .ended, calls ++ [.released serial]⟩ } := by
        simp only [Service.step, hplace]
      -- by the goal it has left in any case
      have hleft : Visit.after goal ⟨peer, .lingering due serial, calls⟩ =
          ⟨peer, .ended, calls ++ [.released serial]⟩ := if_pos hdue
      exact ⟨.expire place, by rw [hstep], hstep ▸ map_set_of_eq hplace _ hleft.symm⟩
  | sweep | overview => exact absurd hduty id

/-- Time that passes is steps of the connections that linger, and nobody else takes one. -/
theorem Accounted.exists_run_elapses (haccounted : service.Accounted) {goal : Instant}
    {after : Server} (helapses : Server.Elapses goal service.server after) :
    ∃ events, run events service =
      { server := after, visits := service.visits.map (Visit.after goal) } := by
  generalize hserver : service.server = server at helapses
  induction helapses generalizing service with
  | quiet hover =>
      subst hserver
      -- whoever lingers has an alarm, and none is due
      have hstays : ∀ visit ∈ service.visits, Visit.after goal visit = id visit := by
        intro visit hvisit
        rw [Visit.after]
        split
        case h_1 due serial hstage =>
          exact if_neg (Nat.not_le.2 (hover _ (haccounted.mem_alarms hvisit hstage)))
        all_goals rfl
      have hvisits : service.visits.map (Visit.after goal) = service.visits :=
        (List.map_congr_left hstays).trans (List.map_id service.visits)
      exact ⟨[.clock goal service.server.wall], congrArg (Service.mk _) hvisits.symm⟩
  | @goOff server after alarm halarm hfirst hdue _ ih =>
      subst hserver
      -- one step for the alarm, one for the turns after it, and the rest by induction
      obtain ⟨event, hevent, hvisits⟩ := haccounted.exists_step_goOff halarm hdue
      have hsettled : ((service.step event).step .settle).server =
          (service.server.goOff alarm).settle := congrArg Server.settle hevent
      obtain ⟨events, hevents⟩ := ih ((haccounted.step event).step .settle) hsettled
      exact ⟨event :: .settle :: events, hevents.trans (congrArg (Service.mk after) hvisits)⟩

/-- When time passes on the server, the connections leave that have lingered long enough by then,
and nothing else happens to the connections. -/
theorem Accounted.exists_run_advance (haccounted : service.Accounted)
    (hstaffed : service.server.Staffed)
    (htimely : ∀ alarm ∈ service.server.alarms, service.server.now ≤ alarm.due) (nanos : ℕ) :
    ∃ events, run events service =
      { server := service.server.advance nanos
        visits := service.visits.map (Visit.after (service.server.now + nanos)) } := by
  obtain ⟨events, hevents⟩ := (haccounted.step .settle).exists_run_elapses
    (hstaffed.elapses_advance htimely nanos)
  exact ⟨.settle :: events, hevents⟩

/-! ## What the connections leave behind -/

/-- The outcomes of a handshake after which a connection is neither served nor counted. -/
def Unserved : Progress (Measurement × Request) → Prop
  | .waiting => True
  | .failed _ => False
  | .done (measurement, request) =>
    measurement.transport ≠ .tcp ∨
      (measurement.kind ≠ .bandwidth ∧ measurement.kind ≠ .latency) ∨
      4 * 1024 * 1024 < request.bufferSize.toNat

theorem unserved_done_iff {measurement : Measurement} {request : Request} :
    Unserved (.done (measurement, request)) ↔
      ∃ refusal, Refusal.of? measurement request = some refusal := by
  obtain ⟨transport, kind⟩ := measurement
  have hmeasured : (⟨transport, kind⟩ : Measurement) = .tcpBandwidth ∨
      (⟨transport, kind⟩ : Measurement) = .tcpLatency ↔
        transport = .tcp ∧ (kind = .bandwidth ∨ kind = .latency) := by
    simp only [Measurement.tcpBandwidth, Measurement.tcpLatency, Measurement.mk.injEq, and_or_left]
  have hlimit : Refusal.maxBufferSize.toNat = 4 * 1024 * 1024 := rfl
  rw [← Option.ne_none_iff_exists', Ne, Refusal.of?_eq_none_iff, hmeasured,
    UInt32.le_iff_toNat_le, hlimit, not_and_or, not_and_or, not_or, Nat.not_le, or_assoc]
  rfl

theorem admission_of_unserved (server : Server) (peer : Endpoint)
    {handshake : Progress (Measurement × Request)} (hunserved : Unserved handshake) :
    admission server peer handshake = (.ended, [], server) := by
  cases handshake with
  | waiting => rfl
  | failed failure => exact absurd hunserved id
  | done asked =>
      obtain ⟨refusal, hrefusal⟩ := unserved_done_iff.1 hunserved
      rw [admission, Server.greet, hrefusal]

theorem enter_of_unserved {place : ℕ} {peer : Endpoint} {calls : List Call}
    (hvisit : service.visits[place]? = some ⟨peer, .greeting, calls⟩)
    {handshake : Progress (Measurement × Request)} (hunserved : Unserved handshake) :
    service.enter place handshake =
      { service with visits := service.visits.set place ⟨peer, .ended, calls⟩ } := by
  unfold Service.enter
  rw [hvisit]
  dsimp only
  rw [admission_of_unserved service.server peer hunserved, List.append_nil]

/-- What a connection holds is registered for its address and goes on. -/
theorem Accounted.registered_of_held (haccounted : service.Accounted) {visit : Visit}
    (hvisit : visit ∈ service.visits) {serial : Serial} {measurement : Measurement}
    (hheld : visit.stage.held? = some (serial, measurement)) :
    service.registry.find? visit.peer.address measurement = some serial ∧
      ∃ trial, service.registry.trial? serial = some trial ∧ trial.isDone = false := by
  obtain ⟨trial, htrial, haddress, rfl⟩ := haccounted.key visit hvisit serial measurement hheld
  have hholds : visit.Holds serial := by rw [Visit.Holds, hheld]; rfl
  have hpos : 0 < Visit.holders service.visits serial :=
    List.countP_pos_iff.2 ⟨visit, hvisit, decide_eq_true hholds⟩
  have hregisters := (haccounted.attended.held.registers_iff serial).2 hpos
  refine ⟨?_, trial, htrial, haccounted.attended.running serial trial hregisters htrial⟩
  rw [← haddress]
  exact (haccounted.attended.held.sound.registers_iff htrial).1 hregisters

/-! ## Serving one connection -/

/-- The steps of a connection that comes last and is served until its data phase ends.  Those
that are meant for a served connection do nothing to another one. -/
def visiting (service : Service) (peer : Endpoint) (source : Source) (sink : Sink)
    (samples : List Outcome) : List Event :=
  [.connect peer, .greet service.visits.length source sink,
    .exchange service.visits.length samples, .depart service.visits.length]

/-- What a connection has handed over at its end. -/
def handedOver : Except Failure Exchanged → List Outcome
  | .ok exchanged => exchanged.samples
  | .error _ => []

/-- A connection as it is left when the server is done with it.  One that was counted lingers for
two seconds; every other one has ended, and has given back what it opened. -/
def IsLeft (peer : Endpoint) (now : Instant) (handshake : Progress (Measurement × Request))
    (visit : Visit) : Prop :=
  match handshake with
  | .failed _ =>
    ∃ serial, visit = ⟨peer, .lingering (now + 2_000_000_000) serial, [.opened serial]⟩
  | .waiting => visit = ⟨peer, .ended, []⟩
  | .done asked =>
    Unserved (.done asked) ∧ visit = ⟨peer, .ended, []⟩ ∨
      ¬ Unserved (.done asked) ∧
        ∃ serial, visit = ⟨peer, .ended, [.opened serial, .released serial]⟩

theorem enter_connected (service : Service) (peer : Endpoint)
    (handshake : Progress (Measurement × Request)) :
    (service.step (.connect peer)).enter service.visits.length handshake =
      { server := (admission service.server peer handshake).2.2
        visits := service.visits ++ [⟨peer, (admission service.server peer handshake).1,
          (admission service.server peer handshake).2.1⟩] } := by
  have hplace : (service.step (.connect peer)).visits[service.visits.length]? =
      some ⟨peer, .greeting, []⟩ := List.getElem?_concat_length
  unfold Service.enter
  rw [hplace]
  dsimp only
  rw [show (service.step (.connect peer)).visits = service.visits ++ [⟨peer, .greeting, []⟩]
    from rfl, List.set_append_right _ _ (Nat.le_refl _), Nat.sub_self]
  rfl

/-- A connection that is not served takes no step after its handshake. -/
theorem run_last_of_not_served (server : Server) (visits : List Visit) {visit : Visit}
    (hstage : ∀ serial measurement, visit.stage ≠ .served serial measurement)
    (samples : List Outcome) :
    run [.exchange visits.length samples, .depart visits.length]
        { server, visits := visits ++ [visit] } = { server, visits := visits ++ [visit] } := by
  obtain ⟨peer, stage, calls⟩ := visit
  cases stage with
  | served serial measurement => exact absurd rfl (hstage serial measurement)
  | greeting | lingering | ended =>
      simp only [run, List.foldl_cons, List.foldl_nil, Service.step, List.getElem?_concat_length]

/-- A connection that is served hands over its samples and gives its trial back. -/
theorem run_last_of_served (server : Server) (visits : List Visit) (peer : Endpoint)
    (serial : Serial) (measurement : Measurement) (samples : List Outcome) :
    run [.exchange visits.length samples, .depart visits.length]
        { server, visits := visits ++ [⟨peer, .served serial measurement, [.opened serial]⟩] } =
      { server := (server.addSamples serial samples).depart serial
        visits := visits ++ [⟨peer, .ended, [.opened serial, .released serial]⟩] } := by
  simp only [run, List.foldl_cons, List.foldl_nil, Service.step, List.getElem?_concat_length,
    List.set_append_right _ _ (Nat.le_refl _), Nat.sub_self, List.set_cons_zero]
  rfl

/-- Serving a connection from its first byte to its end is the steps of one connection that comes
last. -/
theorem run_visiting (service : Service) (peer : Endpoint) (chance : Transfer.Chance)
    (source : Source) (sink : Sink) :
    ∃ visit : Visit,
      run (service.visiting peer source sink
          (handedOver (service.server.serve peer chance source sink).1)) service =
        { server := (service.server.serve peer chance source sink).2
          visits := service.visits ++ [visit] } ∧
      IsLeft peer service.server.now (Wire.serverHandshake source sink).1 visit := by
  have hsplit : ∀ samples, run (service.visiting peer source sink samples) service =
      run [.exchange service.visits.length samples, .depart service.visits.length]
        ((service.step (.connect peer)).enter service.visits.length
          (Wire.serverHandshake source sink).1) := fun _ => rfl
  rw [hsplit, enter_connected]
  unfold Server.serve
  rcases Wire.serverHandshake source sink with ⟨handshake, rest, after⟩
  dsimp only
  -- the samples and the departure are steps of a connection only if it is served
  cases handshake with
  | waiting =>
      have hdropped : Unserved .waiting := trivial
      rw [admission_of_unserved service.server peer hdropped]
      exact ⟨⟨peer, .ended, []⟩, run_last_of_not_served _ _ (by simp) _, rfl⟩
  | failed failure =>
      have hcounted : admission service.server peer (.failed failure) =
          (.lingering (service.server.now + Server.lingerTime)
              (service.server.openTrial peer .tcpConnectionRate {}).1,
            [.opened (service.server.openTrial peer .tcpConnectionRate {}).1],
            service.server.countConnection peer) := rfl
      have hlingers : IsLeft peer service.server.now (.failed failure)
          ⟨peer, .lingering (service.server.now + Server.lingerTime)
              (service.server.openTrial peer .tcpConnectionRate {}).1,
            [.opened (service.server.openTrial peer .tcpConnectionRate {}).1]⟩ :=
        ⟨_, by rw [Server.lingerTime_eq]⟩
      rw [hcounted]
      exact ⟨_, run_last_of_not_served _ _ (by simp) _, hlingers⟩
  | done asked =>
      obtain ⟨measurement, request⟩ := asked
      cases hrefusal : Refusal.of? measurement request with
      | some refusal =>
          have hunserved := unserved_done_iff.2 ⟨refusal, hrefusal⟩
          rw [admission_of_unserved service.server peer hunserved]
          refine ⟨⟨peer, .ended, []⟩, ?_, .inl ⟨hunserved, rfl⟩⟩
          simp only [Server.greet, hrefusal]
          exact run_last_of_not_served _ _ (by simp) _
      | none =>
          have hserved : ¬ Unserved (.done (measurement, request)) := by
            rw [unserved_done_iff, hrefusal]
            exact nofun
          let serial := (service.server.openTrial peer measurement request).1
          refine ⟨⟨peer, .ended, [.opened serial, .released serial]⟩, ?_,
            .inr ⟨hserved, serial, rfl⟩⟩
          simp only [admission, Server.greet, hrefusal]
          exact run_last_of_served _ _ _ _ _ _

/-- Whatever connections were made, and in whatever order they took their steps: a connection that
is served or lingers finds its trial registered and running; one that is dropped or refused leaves
the server as it was; what a connection opens it gives back exactly once, at its end, and the alarm
of a counted one is set as long as it lingers.  When all connections have ended, nothing is
registered and every trial is finished.

The steps cover what a server does by itself.  When time passes on it and no alarm was overdue, the
connections leave that have lingered until then, and nothing else happens to any of them.  When it
serves a connection from its first byte to its end, that is the steps of one more connection: one
that is not served leaves the server as it was, one whose handshake fails lingers for two seconds,
and every other one has ended and given back what it opened, however its data phase went. -/
theorem lifecycle_run (interval : ℕ) (events : List Event) :
    let service := run events { server := { interval } }
    (∀ visit ∈ service.visits, ∀ serial measurement,
      visit.stage.held? = some (serial, measurement) →
      service.registry.find? visit.peer.address measurement = some serial ∧
      ∃ trial, service.registry.trial? serial = some trial ∧ trial.isDone = false) ∧
    (∀ place peer calls, service.visits[place]? = some ⟨peer, .greeting, calls⟩ →
      service.step (.drop place) =
        { service with visits := service.visits.set place ⟨peer, .ended, calls⟩ } ∧
      ∀ source sink, Unserved (Wire.serverHandshake source sink).1 →
        service.step (.greet place source sink) =
          { service with visits := service.visits.set place ⟨peer, .ended, calls⟩ }) ∧
    (∀ visit ∈ service.visits, visit.Balanced ∧
      ∀ due serial, visit.stage = .lingering due serial →
        ⟨due, .linger serial⟩ ∈ service.server.alarms) ∧
    ((∀ visit ∈ service.visits, visit.stage = .ended) →
      service.registry.isEmpty = true ∧
      ∀ serial trial, service.registry.trial? serial = some trial → trial.isDone = true) ∧
    ((∀ alarm ∈ service.server.alarms, service.server.now ≤ alarm.due) → ∀ nanos,
      ∃ later, run later service =
        { server := service.server.advance nanos
          visits := service.visits.map (Visit.after (service.server.now + nanos)) }) ∧
    ∀ peer chance source sink, ∃ visit : Visit,
      run (service.visiting peer source sink
          (handedOver (service.server.serve peer chance source sink).1)) service =
        { server := (service.server.serve peer chance source sink).2
          visits := service.visits ++ [visit] } ∧
      IsLeft peer service.server.now (Wire.serverHandshake source sink).1 visit := by
  intro service
  have haccounted : service.Accounted := accounted_run (accounted_start interval) events
  have hstaffed : service.server.Staffed := staffed_run (Server.staffed_start interval) events
  refine ⟨fun visit hvisit serial measurement => haccounted.registered_of_held hvisit, ?_, ?_, ?_,
    haccounted.exists_run_advance hstaffed, run_visiting service⟩
  · intro place peer calls hvisit
    have hdropped : Unserved .waiting := trivial
    exact ⟨enter_of_unserved hvisit hdropped, fun _ _ => enter_of_unserved hvisit⟩
  · intro visit hvisit
    exact ⟨haccounted.balanced visit hvisit, fun _ _ => haccounted.mem_alarms hvisit⟩
  · intro hended
    refine haccounted.attended.of_deserted fun serial => List.countP_eq_zero.2 ?_
    intro visit hvisit
    simp [Visit.Holds, hended visit hvisit, Stage.held?]

/-- Two connections of one peer share a trial, a third one was counted, and the handshake of a
fourth goes on.  Two seconds later the third has left.  A fifth one is served while they are there,
and breaks in its data phase. -/
theorem lifecycle_run_four :
    let peer : Endpoint := ⟨.loopback, 40000, 0⟩
    let asked : Source := [.chunk (Wire.Message.framed ⟨1, .request .tcpBandwidth {}⟩)]
    let events : List Event :=
      [.connect peer, .connect peer, .connect peer, .connect peer, .greet 0 asked {},
        .greet 1 asked {}, .greet 2 [] {}]
    let service := run events { server := {} }
    let left := run (events ++ [.depart 0, .drop 3, .expire 2, .depart 1]) { server := {} }
    let breaking := asked ++ [.chunk [1, 2, 3], .failure (.other "reset")]
    let answer := service.server.serve peer .still breaking {}
    service.visits.map Visit.stage =
        [.served 0 .tcpBandwidth, .served 0 .tcpBandwidth, .lingering 2_000_000_000 1, .greeting] ∧
      service.registry.find? .loopback .tcpBandwidth = some 0 ∧
      (service.step (.greet 3 [.silence] {})).registry = service.registry ∧
      left.registry.isEmpty = true ∧ left.registry.trials.length = 2 ∧
      (∃ later, run later service =
        { server := service.server.advance 2_000_000_000
          visits := [⟨peer, .served 0 .tcpBandwidth, [.opened 0]⟩,
            ⟨peer, .served 0 .tcpBandwidth, [.opened 0]⟩,
            ⟨peer, .ended, [.opened 1, .released 1]⟩, ⟨peer, .greeting, []⟩] }) ∧
      handedOver answer.1 = [.bytes 3] ∧
      run (service.visiting peer breaking {} [.bytes 3]) service =
        { server := answer.2
          visits := service.visits ++ [⟨peer, .ended, [.opened 0, .released 0]⟩] } := by
  intro peer asked events service left breaking answer
  obtain ⟨hheld, hgreeting, -, -, hadvance, hserve⟩ := lifecycle_run 1_000_000_000 events
  have hserved := hheld ⟨peer, .served 0 .tcpBandwidth, [.opened 0]⟩ (by decide +kernel) 0
    .tcpBandwidth rfl
  have hwaiting := (hgreeting 3 peer [] (by decide +kernel)).2 [.silence] {}
    (show Unserved .waiting from trivial)
  obtain ⟨-, -, -, hended, -⟩ := lifecycle_run 1_000_000_000
    (events ++ [.depart 0, .drop 3, .expire 2, .depart 1])
  have hsame : (service.step (.greet 3 [.silence] {})).registry = service.registry :=
    (congrArg Service.registry hwaiting).trans (Eq.refl service.server.registry)
  obtain ⟨later, hlater⟩ := hadvance (by decide +kernel) 2_000_000_000
  have hover : service.visits.map (Visit.after (service.server.now + 2_000_000_000)) =
      [⟨peer, .served 0 .tcpBandwidth, [.opened 0]⟩, ⟨peer, .served 0 .tcpBandwidth, [.opened 0]⟩,
        ⟨peer, .ended, [.opened 1, .released 1]⟩, ⟨peer, .greeting, []⟩] := by decide +kernel
  rw [hover] at hlater
  have hbroken : handedOver answer.1 = [.bytes 3] := by decide +kernel
  obtain ⟨visit, hrun, -⟩ := hserve peer .still breaking {}
  have hvisits : (run (service.visiting peer breaking {} (handedOver answer.1)) service).visits =
      service.visits ++ [⟨peer, .ended, [.opened 0, .released 0]⟩] := by decide +kernel
  rw [hrun] at hvisits
  obtain rfl := List.singleton_inj.1 (List.append_cancel_left hvisits)
  exact ⟨by decide +kernel, hserved.1, hsame, (hended (by decide +kernel)).1, by decide +kernel,
    ⟨later, hlater⟩, hbroken, hbroken ▸ hrun⟩

end Service

end LinkMeter
