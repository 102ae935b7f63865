import LinkMeter.Proofs.Registry.Attended
import LinkMeter.Proofs.Trial.Crew
import LinkMeter.Server.Clock

/-!
# What a server does to its registry

Opening a trial for a peer creates or finds it in the registry, and hands the
queue of a new one out to its reporter (`Server.openTrial_eq`).  Whoever has
turns on a server leaves the registered trials running (`Server.steady_settle`).
-/

namespace LinkMeter

open Pacing (Instant)

namespace Server

variable (server : Server)

/-! ## Opening -/

/-- The registry after a peer has asked for a trial, with the number of the trial and whether it
is new. -/
def created (peer : Endpoint) (measurement : Measurement) (request : Request) :
    (Serial × Bool) × Registry :=
  server.registry.createOrGet server.wall peer measurement request
    (Reducer.ofKind? measurement.kind) server.interval

theorem openTrial_eq (peer : Endpoint) (measurement : Measurement) (request : Request) :
    ∃ crews, server.openTrial peer measurement request =
      ((server.created peer measurement request).1.1,
        { server with
          registry :=
            if (server.created peer measurement request).1.2 then
              (server.created peer measurement request).2.change
                (server.created peer measurement request).1.1 fun trial => trial.claim.2
            else (server.created peer measurement request).2
          crews := crews }) := by
  unfold openTrial created
  generalize server.registry.createOrGet server.wall peer measurement request
    (Reducer.ofKind? measurement.kind) server.interval = answer
  obtain ⟨⟨serial, _ | _⟩, registry⟩ := answer
  · exact ⟨server.crews, rfl⟩
  · dsimp only
    rw [if_pos rfl, if_pos rfl]
    split
    case h_1 live hlive =>
      obtain ⟨trial, htrial, rfl⟩ := Option.map_eq_some_iff.1 hlive
      refine ⟨_, congrArg (Prod.mk serial) (congrArg₂ (fun registry crews =>
        { server with registry := registry, crews := crews }) ?_ rfl)⟩
      refine Registry.change_congr htrial ?_
      rw [Live.trial_startReporter, Live.trial_startPublisher]
    case h_2 hnone =>
      have hgone : registry.trial? serial = none := Option.map_eq_none_iff.1 hnone
      rw [Registry.change_of_none hgone]
      exact ⟨_, rfl⟩

theorem fst_openTrial (peer : Endpoint) (measurement : Measurement) (request : Request) :
    (server.openTrial peer measurement request).1 =
      (server.created peer measurement request).1.1 := by
  obtain ⟨crews, heq⟩ := server.openTrial_eq peer measurement request
  rw [heq]

theorem steady_openTrial (peer : Endpoint) (measurement : Measurement) (request : Request) :
    (server.created peer measurement request).2.Steady
      (server.openTrial peer measurement request).2.registry := by
  obtain ⟨crews, heq⟩ := server.openTrial_eq peer measurement request
  rw [heq]
  dsimp only
  split
  · exact Registry.steady_change _ _ fun trial _ => ⟨rfl, rfl, rfl, rfl, rfl, rfl, rfl⟩
  · exact Registry.Steady.refl _

theorem alarms_openTrial (peer : Endpoint) (measurement : Measurement) (request : Request) :
    (server.openTrial peer measurement request).2.alarms = server.alarms := by
  obtain ⟨crews, heq⟩ := server.openTrial_eq peer measurement request
  rw [heq]

theorem now_openTrial (peer : Endpoint) (measurement : Measurement) (request : Request) :
    (server.openTrial peer measurement request).2.now = server.now := by
  obtain ⟨crews, heq⟩ := server.openTrial_eq peer measurement request
  rw [heq]

theorem tallies_openTrial (peer : Endpoint) (measurement : Measurement) (request : Request) :
    (server.openTrial peer measurement request).2.tallies = server.tallies := by
  obtain ⟨crews, heq⟩ := server.openTrial_eq peer measurement request
  rw [heq]

theorem continues_openTrial (peer : Endpoint) (measurement : Measurement) (request : Request) :
    server.registry.Continues (server.openTrial peer measurement request).2.registry :=
  (Registry.continues_createOrGet _ _ _ _ _ _ _).trans
    (server.steady_openTrial peer measurement request).continues

/-- Whoever opens a trial is a holder more. -/
theorem attended_openTrial {holders next : Serial → ℕ}
    (hattended : server.registry.Attended holders) (peer : Endpoint) (measurement : Measurement)
    (request : Request)
    (hsame : ∀ serial, next serial = holders serial +
      if serial = (server.openTrial peer measurement request).1 then 1 else 0) :
    (server.openTrial peer measurement request).2.registry.Attended next := by
  rw [fst_openTrial] at hsame
  exact (hattended.createOrGet _ _ _ _ _ _ hsame).steady
    (server.steady_openTrial peer measurement request)

/-- The opened trial is registered for the peer that asked for it. -/
theorem find?_openTrial (peer : Endpoint) (measurement : Measurement) (request : Request) :
    (server.openTrial peer measurement request).2.registry.find? peer.address measurement =
      some (server.openTrial peer measurement request).1 := by
  rw [(server.steady_openTrial peer measurement request).find?, fst_openTrial, created,
    Registry.find?_createOrGet, if_pos ⟨rfl, rfl⟩]

/-! ## Counting connections -/

theorem lingerTime_eq : lingerTime = 2_000_000_000 := rfl

theorem steady_countConnection (peer : Endpoint) :
    (server.openTrial peer .tcpConnectionRate {}).2.registry.Steady
      (server.countConnection peer).registry :=
  Registry.steady_change _ _ fun trial _ => trial.steady_add (.connections 1)

/-- A counted connection gives its trial back later. -/
theorem alarms_countConnection (peer : Endpoint) :
    (server.countConnection peer).alarms = server.alarms ++
      [⟨server.now + lingerTime, .linger (server.openTrial peer .tcpConnectionRate {}).1⟩] := by
  have hset : (server.countConnection peer).alarms =
      (server.openTrial peer .tcpConnectionRate {}).2.alarms ++
        [⟨(server.openTrial peer .tcpConnectionRate {}).2.now + lingerTime,
          .linger (server.openTrial peer .tcpConnectionRate {}).1⟩] := rfl
  rw [hset, alarms_openTrial, now_openTrial]

/-! ## Turns -/

theorem steady_putLive {serial : Serial} {live after : Live}
    (hlive : server.live? serial = some live) (hafter : live.trial.Steady after.trial) :
    server.registry.Steady (server.putLive serial after).registry := by
  obtain ⟨trial, htrial, rfl⟩ := Option.map_eq_some_iff.1 hlive
  refine Registry.steady_change server.registry serial fun found hfound => ?_
  rw [htrial] at hfound
  cases hfound
  exact hafter

theorem steady_settleOne (serial : Serial) :
    server.registry.Steady (server.settleOne serial).registry := by
  unfold settleOne
  split
  case h_1 => exact Registry.Steady.refl _
  case h_2 live hlive => exact server.steady_putLive hlive (live.wake.steady_settle _ _)

theorem steady_settle : server.registry.Steady server.settle.registry := by
  have hturns : ∀ (serials : List Serial) (server : Server),
      server.registry.Steady (serials.foldl settleOne server).registry := by
    intro serials
    induction serials with
    | nil => exact fun server => Registry.Steady.refl _
    | cons serial serials ih =>
        exact fun server => (server.steady_settleOne serial).trans (ih (server.settleOne serial))
  exact hturns _ server

/-- The alarms that are set in turns are those of publishers. -/
theorem exists_alarms_settle :
    ∃ added : List Alarm, server.settle.alarms = server.alarms ++ added ∧
      ∀ alarm ∈ added, ∃ serial, alarm.duty = .publish serial := by
  have hone : ∀ (server : Server) (serial : Serial),
      ∃ added : List Alarm, (server.settleOne serial).alarms = server.alarms ++ added ∧
        ∀ alarm ∈ added, ∃ serial, alarm.duty = .publish serial := by
    intro server serial
    unfold settleOne
    split
    case h_1 => exact ⟨[], (List.append_nil _).symm, by simp⟩
    case h_2 =>
      refine ⟨_, rfl, fun alarm halarm => ?_⟩
      obtain ⟨due, -, rfl⟩ := List.mem_map.1 halarm
      exact ⟨serial, rfl⟩
  have hturns : ∀ (serials : List Serial) (server : Server),
      ∃ added : List Alarm, (serials.foldl settleOne server).alarms = server.alarms ++ added ∧
        ∀ alarm ∈ added, ∃ serial, alarm.duty = .publish serial := by
    intro serials
    induction serials with
    | nil => exact fun server => ⟨[], (List.append_nil _).symm, by simp⟩
    | cons serial serials ih =>
        intro server
        obtain ⟨first, hfirst, hpublish⟩ := hone server serial
        obtain ⟨others, hothers, hlater⟩ := ih (server.settleOne serial)
        refine ⟨first ++ others, ?_, fun alarm halarm => ?_⟩
        · rw [List.foldl_cons, hothers, hfirst, List.append_assoc]
        · rcases List.mem_append.1 halarm with h | h
          · exact hpublish alarm h
          · exact hlater alarm h
  exact hturns _ server

/-! ## Alarms that go off -/

/-- A server at which an alarm goes off. -/
def goOff (alarm : Alarm) : Server :=
  { server with alarms := server.alarms.erase alarm, now := alarm.due }.perform alarm.duty

theorem steady_goOff_publish (due : Instant) (serial : Serial) :
    server.registry.Steady (server.goOff ⟨due, .publish serial⟩).registry := by
  unfold goOff perform
  dsimp only
  split
  case h_1 live hlive => exact steady_putLive _ hlive (Trial.Steady.refl live.trial)
  case h_2 => exact Registry.Steady.refl _

theorem alarms_goOff_publish (due : Instant) (serial : Serial) :
    (server.goOff ⟨due, .publish serial⟩).alarms = server.alarms.erase ⟨due, .publish serial⟩ := by
  unfold goOff perform
  dsimp only
  split <;> rfl

/-- The alarm that goes off first is one of the alarms, and the others stay. -/
theorem eq_erase_of_earliest? {alarms others : List Alarm} {alarm : Alarm}
    (hfirst : earliest? alarms = some (alarm, others)) :
    alarm ∈ alarms ∧ others = alarms.erase alarm := by
  induction alarms generalizing alarm others with
  | nil => exact absurd hfirst (by simp [earliest?])
  | cons head rest ih =>
      unfold earliest? at hfirst
      split at hfirst
      case h_1 hnone =>
        cases hfirst
        cases rest with
        | nil => exact ⟨List.mem_cons_self, by simp⟩
        | cons second rest =>
            unfold earliest? at hnone
            split at hnone
            · exact absurd hnone (by simp)
            · split at hnone <;> exact absurd hnone (by simp)
      case h_2 next left hnext =>
        obtain ⟨hmem, hleft⟩ := ih hnext
        split at hfirst
        case isTrue =>
          cases hfirst
          exact ⟨List.mem_cons_self, by rw [List.erase_cons_head]⟩
        case isFalse hlater =>
          cases hfirst
          have hne : head ≠ alarm := fun h => hlater (h ▸ Nat.le_refl _)
          refine ⟨List.mem_cons_of_mem _ hmem, ?_⟩
          rw [List.erase_cons_tail (by simpa using hne), hleft]

end Server

end LinkMeter
