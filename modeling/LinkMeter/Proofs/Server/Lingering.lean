import LinkMeter.Proofs.Server.Alarms
import LinkMeter.Proofs.Server.Turnstile

/-!
# Servers as turnstiles

A server that counts connections is a turnstile: its connections are the guests,
each of them counted at the instant at which the server counted it, and its
alarms are the timers that run since then (`Turnstile.Mirrors`).

The argument is a simulation, one operation of the server at a time.  Counting a
connection is an arrival and the addition of the guest, with no time in between
(`Mirrors.follows_countConnection`).  An alarm goes off after time has passed up
to it, which the timers of the other guests allow since it is the first one; if
it is the alarm of a counted connection, it is the timer of a guest, which leaves
(`Mirrors.follows_goOff`).  The turns of those who serve the trials are
publications of counting trials, quiet acts on them, and acts on trials under
other keys (`Mirrors.follows_settle`).  What is left are sweeps and overviews,
which are asides or nothing to the turnstile (`Mirrors.follows_chore`).

Letting time pass needs no case of its own: it is alarms that go off in their
order with turns in between (`Reached.advance`).
-/

namespace LinkMeter.Turnstile

open Pacing (Instant)

/-- Who was counted, and when. -/
abbrev Arrivals : Type := List (Endpoint × Instant)

/-- A server as it comes about from a new one by counting connections at some instants, and by what
it does on its own: the turns of those who serve the trials, sweeps and overviews.  Alarms go off in
the order of their instants. -/
inductive Reached (interval : ℕ) : Arrivals → Server → Prop where
  | start : Reached interval [] { interval }
  | connection {arrivals : Arrivals} {server : Server} (h : Reached interval arrivals server)
      (peer : Endpoint) :
      Reached interval (arrivals ++ [(peer, server.now)]) (server.countConnection peer)
  | settle {arrivals : Arrivals} {server : Server} (h : Reached interval arrivals server) :
      Reached interval arrivals server.settle
  | goOff {arrivals : Arrivals} {server : Server} (h : Reached interval arrivals server)
      (alarm : Alarm) (halarm : alarm ∈ server.alarms) (hnow : server.now ≤ alarm.due)
      (hfirst : ∀ other ∈ server.alarms, alarm.due ≤ other.due) :
      Reached interval arrivals (server.goOff alarm)
  | startSweeps {arrivals : Arrivals} {server : Server} (h : Reached interval arrivals server) :
      Reached interval arrivals server.startSweeps
  | startOverviews {arrivals : Arrivals} {server : Server} (h : Reached interval arrivals server) :
      Reached interval arrivals server.startOverviews
  | clock {arrivals : Arrivals} {server : Server} (h : Reached interval arrivals server)
      (now wall : Instant) (hnow : server.now ≤ now)
      (hfirst : ∀ alarm ∈ server.alarms, now ≤ alarm.due) :
      Reached interval arrivals { server with now := now, wall := wall }
  /-- Somebody uses the registry under other keys, and hires those who serve the trials there. -/
  | aside {arrivals : Arrivals} {server : Server} (h : Reached interval arrivals server)
      (event : Registry.Event) (crews : List Crew)
      (hspares : event.Spares .tcpConnectionRate server.registry)
      (hstaffed : Server.Staffed { server with
        registry := (Population.step { registry := server.registry } event).registry
        crews := crews }) :
      Reached interval arrivals
        { server with
          registry := (Population.step { registry := server.registry } event).registry
          crews := crews }

/-- A server has the registry of a turnstile.  Its connections are the guests, each of them counted
at the instant at which the server counted it, and its alarms are the timers that run. -/
structure Mirrors (turnstile : Turnstile) (arrivals : Arrivals) (server : Server) : Prop where
  kept : turnstile.Kept
  guests_eq : (turnstile.guests.map fun guest => (guest.peer, guest.since?)) =
    arrivals.map fun arrival => (arrival.1, some arrival.2)
  registry_eq : turnstile.registry = server.registry
  interval_eq : turnstile.interval = server.interval
  now_eq : turnstile.now = server.now
  lingers_eq : ∀ due serial, server.alarms.count ⟨due, .linger serial⟩ =
    turnstile.guests.countP fun guest =>
      decide (guest.serial = serial) && decide (guest.due? = some due)

/-- Some events lead the turnstile to where the server is. -/
def Follows (turnstile : Turnstile) (arrivals : Arrivals) (server : Server) : Prop :=
  ∃ events, (turnstile.run events).Mirrors arrivals server

theorem mirrors_start (interval : ℕ) : ({ interval } : Turnstile).Mirrors [] { interval } where
  kept := kept_start interval
  guests_eq := rfl
  registry_eq := rfl
  interval_eq := rfl
  now_eq := rfl
  lingers_eq := fun _ _ => rfl

theorem run_append (events later : List Event) (turnstile : Turnstile) :
    turnstile.run (events ++ later) = (turnstile.run events).run later := List.foldl_append

variable {turnstile : Turnstile} {arrivals : Arrivals} {server after : Server}

theorem Mirrors.follows (h : turnstile.Mirrors arrivals server) : turnstile.Follows arrivals server :=
  ⟨[], h⟩

/-- The turnstile goes on with the server. -/
theorem Follows.next (h : turnstile.Follows arrivals server) {others : Arrivals}
    (hnext : ∀ {turnstile : Turnstile}, turnstile.Mirrors arrivals server →
      turnstile.Follows others after) : turnstile.Follows others after := by
  obtain ⟨events, hmirrors⟩ := h
  obtain ⟨later, hlater⟩ := hnext hmirrors
  exact ⟨events ++ later, by rwa [run_append]⟩

/-- No guest comes or goes on, and no time passes. -/
structure Pauses (before after : Turnstile) : Prop where
  guests_eq : after.guests = before.guests
  interval_eq : after.interval = before.interval
  now_eq : after.now = before.now

theorem Pauses.trans {first second third : Turnstile} (hfirst : first.Pauses second)
    (hsecond : second.Pauses third) : first.Pauses third where
  guests_eq := hsecond.guests_eq.trans hfirst.guests_eq
  interval_eq := hsecond.interval_eq.trans hfirst.interval_eq
  now_eq := hsecond.now_eq.trans hfirst.now_eq

theorem Mirrors.follows_of_pauses (h : turnstile.Mirrors arrivals server) {events : List Event}
    (hpauses : turnstile.Pauses (turnstile.run events))
    (hregistry : (turnstile.run events).registry = after.registry)
    (hinterval : after.interval = server.interval) (hnow : after.now = server.now)
    (halarms : ∀ due serial, after.alarms.count ⟨due, .linger serial⟩ =
      server.alarms.count ⟨due, .linger serial⟩) : turnstile.Follows arrivals after := by
  refine ⟨events, h.kept.run events, ?_, hregistry, ?_, ?_, fun due serial => ?_⟩
  · rw [hpauses.guests_eq, h.guests_eq]
  · rw [hpauses.interval_eq, h.interval_eq, hinterval]
  · rw [hpauses.now_eq, h.now_eq, hnow]
  · rw [hpauses.guests_eq, halarms, h.lingers_eq]

/-- Others use the registry under other keys. -/
theorem Mirrors.follows_aside (h : turnstile.Mirrors arrivals server) {event : Registry.Event}
    (hspares : event.Spares .tcpConnectionRate server.registry)
    (hregistry : after.registry = (Population.step { registry := server.registry } event).registry)
    (hinterval : after.interval = server.interval) (hnow : after.now = server.now)
    (halarms : ∀ due serial, after.alarms.count ⟨due, .linger serial⟩ =
      server.alarms.count ⟨due, .linger serial⟩) : turnstile.Follows arrivals after := by
  have hrun : turnstile.run [.aside event] = { turnstile with registry := after.registry } := by
    rw [hregistry, ← h.registry_eq]
    exact if_pos (h.registry_eq ▸ hspares)
  have hpauses : turnstile.Pauses (turnstile.run [.aside event]) := by
    rw [hrun]
    exact ⟨rfl, rfl, rfl⟩
  exact h.follows_of_pauses hpauses (by rw [hrun]) hinterval hnow halarms

/-! ## A connection is counted -/

/-- Opening a trial on the server is the arrival of a guest. -/
theorem Mirrors.exists_run_openTrial (h : turnstile.Mirrors arrivals server) (peer : Endpoint) :
    ∃ events, turnstile.run events =
      { turnstile with
        registry := (server.openTrial peer .tcpConnectionRate {}).2.registry
        guests := turnstile.guests ++
          [{ peer, serial := (server.openTrial peer .tcpConnectionRate {}).1 }] } := by
  have hcreated : turnstile.created peer server.wall =
      server.created peer .tcpConnectionRate {} := by
    rw [created, Server.created, h.registry_eq, h.interval_eq]
    rfl
  obtain ⟨crews, heq⟩ := server.openTrial_eq peer .tcpConnectionRate {}
  rw [heq, ← hcreated]
  dsimp only
  split
  case isTrue =>
    exact ⟨[.arrive peer server.wall, .serve (turnstile.created peer server.wall).1.1 .claim], rfl⟩
  case isFalse => exact ⟨[.arrive peer server.wall], rfl⟩

/-- A connection that is counted is a guest whose timer runs from now on. -/
theorem Mirrors.follows_countConnection (h : turnstile.Mirrors arrivals server) (peer : Endpoint) :
    turnstile.Follows (arrivals ++ [(peer, server.now)]) (server.countConnection peer) := by
  obtain ⟨events, hopened⟩ := h.exists_run_openTrial peer
  have hrun : turnstile.run (events ++ [.add turnstile.guests.length]) =
      { turnstile with
        registry := (server.countConnection peer).registry
        guests := turnstile.guests ++ [⟨peer, (server.openTrial peer .tcpConnectionRate {}).1,
          .lingering turnstile.now⟩] } := by
    rw [run_append, hopened]
    simp only [run, List.foldl_cons, List.foldl_nil, step, move,
      List.getElem?_concat_length, List.set_append_right _ _ (Nat.le_refl _), Nat.sub_self,
      List.set_cons_zero]
    rfl
  obtain ⟨crews, heq⟩ := server.openTrial_eq peer .tcpConnectionRate {}
  have hinterval : (server.countConnection peer).interval =
      (server.openTrial peer .tcpConnectionRate {}).2.interval := rfl
  have hnow : (server.countConnection peer).now =
      (server.openTrial peer .tcpConnectionRate {}).2.now := rfl
  refine ⟨events ++ [.add turnstile.guests.length], h.kept.run _, ?_, ?_, ?_, ?_,
    fun due serial => ?_⟩
  · rw [hrun, List.map_append, List.map_append, h.guests_eq, h.now_eq]
    rfl
  · rw [hrun]
  · rw [hrun, hinterval, heq]
    exact h.interval_eq
  · rw [hrun, hnow, heq]
    exact h.now_eq
  · rw [hrun, server.alarms_countConnection, List.count_append, h.lingers_eq,
      List.countP_append, List.count_singleton, List.countP_singleton, ← h.now_eq]
    refine congrArg (_ + ·) (if_congr ?_ rfl rfl)
    simp [Guest.due?, and_comm]

/-! ## Time passes -/

/-- Alarms that go off later are timers that run on. -/
theorem Mirrors.le_due (h : turnstile.Mirrors arrivals server) {instant : Instant}
    (hfirst : ∀ alarm ∈ server.alarms, instant ≤ alarm.due) :
    ∀ guest ∈ turnstile.guests, ∀ due ∈ guest.due?, instant ≤ due := by
  intro guest hguest due hdue
  have hset : 0 < server.alarms.count ⟨due, .linger guest.serial⟩ := by
    rw [h.lingers_eq]
    exact List.countP_pos_iff.mpr ⟨guest, hguest, by simpa using hdue⟩
  exact hfirst _ (List.count_pos_iff.mp hset)

/-- Time passes as long as no alarm goes off. -/
theorem Mirrors.follows_wait (h : turnstile.Mirrors arrivals server) {instant : Instant}
    (hnow : server.now ≤ instant) (hfirst : ∀ alarm ∈ server.alarms, instant ≤ alarm.due) :
    turnstile.Follows arrivals { server with now := instant } := by
  have hlater : turnstile.now + (instant - turnstile.now) = instant := by
    rw [h.now_eq]
    exact Nat.add_sub_cancel' hnow
  have hrun : turnstile.run [.wait (instant - turnstile.now)] =
      { turnstile with now := instant } := by
    rw [run, List.foldl_cons, List.foldl_nil, step, hlater, if_pos (h.le_due hfirst)]
  have hkept := h.kept.run [.wait (instant - turnstile.now)]
  refine ⟨[.wait (instant - turnstile.now)], ?_⟩
  rw [hrun] at hkept ⊢
  exact ⟨hkept, h.guests_eq, h.registry_eq, h.interval_eq, rfl, h.lingers_eq⟩

theorem Mirrors.follows_chore (h : turnstile.Mirrors arrivals server)
    (hchore : Server.Chore server after) : turnstile.Follows arrivals after := by
  obtain ⟨added, halarms, -, hadded⟩ := hchore.alarms
  have hnone : ∀ due serial, (⟨due, .linger serial⟩ : Alarm) ∉ added :=
    fun due serial hmem => (hadded _ hmem).2 serial rfl
  have hlingers : ∀ due serial, after.alarms.count ⟨due, .linger serial⟩ =
      server.alarms.count ⟨due, .linger serial⟩ := by
    intro due serial
    rw [halarms, List.count_append, List.count_eq_zero_of_not_mem (hnone due serial),
      Nat.add_zero]
  rcases hchore.registry with hsame | hswept
  · have hregistry : (turnstile.run []).registry = after.registry := by
      rw [hsame, ← h.registry_eq]
      rfl
    exact h.follows_of_pauses ⟨rfl, rfl, rfl⟩ hregistry hchore.interval_eq hchore.now_eq hlingers
  · have hspares : Registry.Event.Spares .tcpConnectionRate server.registry
        (.sweep server.wall Registry.dormantAfter Registry.deleteAfter) := trivial
    exact h.follows_aside hspares hswept hchore.interval_eq hchore.now_eq hlingers

/-- Alarms that are not timers of guests come and go. -/
theorem Mirrors.erase (h : turnstile.Mirrors arrivals server) (alarm : Alarm)
    (hduty : ∀ serial, alarm.duty ≠ .linger serial) :
    turnstile.Mirrors arrivals { server with alarms := server.alarms.erase alarm } where
  kept := h.kept
  guests_eq := h.guests_eq
  registry_eq := h.registry_eq
  interval_eq := h.interval_eq
  now_eq := h.now_eq
  lingers_eq := by
    intro due serial
    have hne : (⟨due, .linger serial⟩ : Alarm) ≠ alarm :=
      fun hsame => hduty serial (congrArg Alarm.duty hsame).symm
    rw [← h.lingers_eq]
    exact List.count_erase_of_ne hne

/-- The alarm of a counted connection is the timer of a guest, which leaves when it goes off. -/
theorem Mirrors.follows_linger (h : turnstile.Mirrors arrivals server) {serial : Serial}
    (halarm : ⟨server.now, .linger serial⟩ ∈ server.alarms) :
    turnstile.Follows arrivals (server.goOff ⟨server.now, .linger serial⟩) := by
  have hset : 0 < server.alarms.count ⟨server.now, .linger serial⟩ := List.count_pos_iff.mpr halarm
  rw [h.lingers_eq, List.countP_pos_iff] at hset
  obtain ⟨⟨peer, number, stage⟩, hguest, htimer⟩ := hset
  obtain ⟨hserial, hdue⟩ :
      number = serial ∧ Guest.due? ⟨peer, number, stage⟩ = some server.now := by
    simpa using htimer
  subst hserial
  obtain ⟨since, rfl, hsince⟩ :
      ∃ since, stage = .lingering since ∧ since + Server.lingerTime = server.now := by
    cases stage with
    | lingering since => exact ⟨since, rfl, Option.some.inj hdue⟩
    | opened | left => exact nomatch hdue
  obtain ⟨place, hplace⟩ := List.getElem?_of_mem hguest
  have hrun : turnstile.run [.expire place] =
      { turnstile with
        registry := (turnstile.registry.release number).2
        guests := turnstile.guests.set place ⟨peer, number, .left since⟩ } := by
    have hover : since + Server.lingerTime ≤ turnstile.now := by
      rw [hsince, h.now_eq]
    simp only [run, List.foldl_cons, List.foldl_nil, step, hplace, hover, if_true, move]
  have hkept := h.kept.run [.expire place]
  refine ⟨[.expire place], ?_⟩
  rw [hrun] at hkept ⊢
  refine ⟨hkept, ?_, ?_, h.interval_eq, h.now_eq, fun instant other => ?_⟩
  · -- a guest that leaves keeps the instant at which it was counted
    exact (map_set_of_eq hplace ⟨peer, number, .left since⟩ rfl).trans h.guests_eq
  · rw [h.registry_eq]
    rfl
  · have hmoved := countP_set_add hplace (fun guest => decide (guest.serial = other) &&
      decide (guest.due? = some instant)) ⟨peer, number, .left since⟩
    rw [← h.lingers_eq] at hmoved
    change (server.alarms.erase ⟨server.now, .linger number⟩).count _ = _
    rw [List.count_erase]
    simp only [Guest.due?, hsince, Option.some.injEq, reduceCtorEq, decide_false, Bool.and_false,
      Bool.false_eq_true, if_false, Bool.and_eq_true, decide_eq_true_eq, beq_iff_eq,
      Alarm.mk.injEq, Duty.linger.injEq] at hmoved ⊢
    split at hmoved
    case isTrue htimer =>
      rw [if_pos ⟨htimer.2, htimer.1⟩]
      omega
    case isFalse hother =>
      rw [if_neg fun h => hother ⟨h.2, h.1⟩]
      omega

/-- The alarm that goes off first is an event of the turnstile. -/
theorem Mirrors.follows_goOff (h : turnstile.Mirrors arrivals server) {alarm : Alarm}
    (halarm : alarm ∈ server.alarms) (hnow : server.now ≤ alarm.due)
    (hfirst : ∀ other ∈ server.alarms, alarm.due ≤ other.due) :
    turnstile.Follows arrivals (server.goOff alarm) := by
  obtain ⟨due, duty⟩ := alarm
  refine (h.follows_wait hnow hfirst).next fun hwaited => ?_
  by_cases hlinger : ∃ serial, duty = .linger serial
  · obtain ⟨serial, rfl⟩ := hlinger
    exact hwaited.follows_linger halarm
  · have hduty : ∀ serial, duty ≠ .linger serial := fun serial hsame => hlinger ⟨serial, hsame⟩
    exact (hwaited.erase ⟨due, duty⟩ hduty).follows_chore (Server.chore_perform _ hduty)

/-! ## Turns -/

/-- What is done to a trial in a turn is an event. -/
theorem exists_step_act {serial : Serial} {trial : Trial}
    (htrial : turnstile.registry.trial? serial = some trial) {act : Trial.Act}
    (hact : Live.isTurn act = true) :
    ∃ event, turnstile.Pauses (turnstile.step event) ∧
      (turnstile.step event).registry = turnstile.registry.change serial (·.perform act) := by
  by_cases hkind : trial.measurement = .tcpConnectionRate
  · by_cases hquiet : isQuiet act = true
    · have hstep : turnstile.step (.serve serial act) =
          { turnstile with registry := turnstile.registry.change serial (·.perform act) } :=
        if_pos hquiet
      exact ⟨.serve serial act, hstep ▸ ⟨rfl, rfl, rfl⟩, by rw [hstep]⟩
    · obtain ⟨wall, rfl⟩ : ∃ wall, act = .publish wall := by
        cases act with
        | publish wall => exact ⟨wall, rfl⟩
        | add | emit | finish => contradiction
        | claim | receive | drain | close | touch | setDormant | tick => exact absurd rfl hquiet
      have hstep : turnstile.step (.publish serial wall) = turnstile.tell serial trial wall := by
        simp only [step, htrial, hkind, if_true]
      exact ⟨.publish serial wall, hstep ▸ ⟨rfl, rfl, rfl⟩, by rw [hstep]; rfl⟩
  · have hspares : Registry.Event.Spares .tcpConnectionRate turnstile.registry
        (.act serial act) := by
      intro found hfound
      rw [Option.mem_def, htrial] at hfound
      obtain rfl := Option.some.inj hfound
      exact hkind
    have hstep : turnstile.step (.aside (.act serial act)) =
        { turnstile with registry := turnstile.registry.change serial (·.perform act) } :=
      if_pos hspares
    exact ⟨.aside (.act serial act), hstep ▸ ⟨rfl, rfl, rfl⟩, by rw [hstep]⟩

theorem exists_run_acts {serial : Serial} {trial : Trial}
    (htrial : turnstile.registry.trial? serial = some trial) {acts : List Trial.Act}
    (hacts : acts.all Live.isTurn = true) :
    ∃ events, turnstile.Pauses (turnstile.run events) ∧ (turnstile.run events).registry =
      turnstile.registry.change serial fun _ => acts.foldl Trial.perform trial := by
  induction acts generalizing turnstile trial with
  | nil => exact ⟨[], ⟨rfl, rfl, rfl⟩, (Registry.change_self htrial).symm⟩
  | cons act acts ih =>
      rw [List.all_cons, Bool.and_eq_true] at hacts
      obtain ⟨event, hpauses, hregistry⟩ := exists_step_act htrial hacts.1
      have hnext : (turnstile.step event).registry.trial? serial = some (trial.perform act) := by
        rw [hregistry, Registry.trial?_change, if_pos rfl, htrial, Option.map_some]
      obtain ⟨events, hlater, hrest⟩ := ih hnext hacts.2
      refine ⟨event :: events, hpauses.trans hlater, hrest.trans ?_⟩
      rw [hregistry, Registry.change, Registry.change, List.modify_modify_eq]
      rfl

theorem Mirrors.follows_settleOne (h : turnstile.Mirrors arrivals server) (serial : Serial) :
    turnstile.Follows arrivals (server.settleOne serial) := by
  unfold Server.settleOne
  split
  case h_1 => exact h.follows
  case h_2 live hlive =>
    obtain ⟨trial, htrial, rfl⟩ := Option.map_eq_some_iff.mp hlive
    obtain ⟨acts, hacts, hsettled⟩ := Live.exists_acts_settle
      (Live.wake { toCrew := server.crews.getD serial {}, trial }) server.now server.wall
    rw [← h.registry_eq] at htrial
    obtain ⟨events, hpauses, hregistry⟩ := exists_run_acts htrial hacts
    refine h.follows_of_pauses hpauses ?_ rfl rfl fun due other => ?_
    · rw [hregistry, h.registry_eq]
      dsimp only [Server.putLive]
      rw [hsettled]
      rfl
    · refine List.count_append.trans (Nat.add_eq_left.mpr (List.count_eq_zero_of_not_mem ?_))
      simp

/-- The turns of those who serve the trials are events of the turnstile. -/
theorem Mirrors.follows_settle (h : turnstile.Mirrors arrivals server) :
    turnstile.Follows arrivals server.settle := by
  have hturns : ∀ (serials : List Serial) {turnstile : Turnstile} {server : Server},
      turnstile.Mirrors arrivals server →
      turnstile.Follows arrivals (serials.foldl Server.settleOne server) := by
    intro serials
    induction serials with
    | nil => exact fun h => h.follows
    | cons serial serials ih => exact fun h => (h.follows_settleOne serial).next ih
  exact hturns _ h

/-! ## Whole runs -/

/-- Everything that a server does while it counts connections is a run of a turnstile. -/
theorem Reached.follows {interval : ℕ} (h : Reached interval arrivals server) :
    ({ interval } : Turnstile).Follows arrivals server := by
  induction h with
  | start => exact (mirrors_start interval).follows
  | connection _ peer ih => exact ih.next fun h => h.follows_countConnection peer
  | settle _ ih => exact ih.next fun h => h.follows_settle
  | goOff _ alarm halarm hnow hfirst ih => exact ih.next fun h => h.follows_goOff halarm hnow hfirst
  | startSweeps _ ih => exact ih.next fun h => h.follows_chore (Server.chore_startSweeps _)
  | startOverviews _ ih => exact ih.next fun h => h.follows_chore (Server.chore_startOverviews _)
  | clock _ now wall hnow hfirst ih =>
      refine ih.next fun h => (h.follows_wait hnow hfirst).next fun {turnstile} hwaited => ?_
      have hstays : turnstile.Pauses (turnstile.run []) := ⟨rfl, rfl, rfl⟩
      exact hwaited.follows_of_pauses hstays hwaited.registry_eq rfl rfl fun _ _ => rfl
  | aside _ event crews hspares _ ih =>
      exact ih.next fun h => h.follows_aside hspares rfl rfl rfl fun _ _ => rfl

theorem Reached.staffed {interval : ℕ} (h : Reached interval arrivals server) : server.Staffed := by
  induction h with
  | start => exact Server.staffed_start interval
  | connection _ peer ih => exact ih.countConnection peer
  | settle _ ih => exact ih.settle
  | goOff _ alarm _ _ _ ih => exact ih.goOff alarm
  | startSweeps _ ih => exact ih.chore (Server.chore_startSweeps _) (Server.crews_startSweeps _)
  | startOverviews _ ih =>
      exact ih.chore (Server.chore_startOverviews _) (Server.crews_startOverviews _)
  | clock _ now wall _ _ ih => exact ⟨ih.length_eq, ih.single⟩
  | aside _ event crews _ hstaffed _ => exact hstaffed

/-- No alarm is overdue. -/
theorem Reached.le_due {interval : ℕ} (h : Reached interval arrivals server) :
    ∀ alarm ∈ server.alarms, server.now ≤ alarm.due := by
  induction h with
  | start => exact fun alarm halarm => absurd halarm List.not_mem_nil
  | @connection _ server _ peer ih =>
      intro alarm halarm
      have hnow : (server.countConnection peer).now = server.now := server.now_openTrial _ _ _
      rw [server.alarms_countConnection] at halarm
      rw [hnow]
      rcases List.mem_append.mp halarm with hold | hnew
      · exact ih alarm hold
      · rw [List.mem_singleton.mp hnew]
        exact Nat.le_add_right _ _
  | settle h ih =>
      rw [h.staffed.now_settle]
      exact h.staffed.le_due_settle ih
  | goOff _ alarm _ _ hfirst _ =>
      rw [Server.now_goOff]
      exact Server.le_due_goOff hfirst
  | @startSweeps _ server _ ih =>
      rw [(Server.chore_startSweeps server).now_eq]
      exact (Server.chore_startSweeps server).le_due ih
  | @startOverviews _ server _ ih =>
      rw [(Server.chore_startOverviews server).now_eq]
      exact (Server.chore_startOverviews server).le_due ih
  | clock _ now wall _ hfirst _ => exact hfirst
  | aside _ event crews _ _ ih => exact ih

/-- Time that passes is alarms that go off. -/
theorem Reached.elapses {interval : ℕ} {goal : Instant} (helapses : Server.Elapses goal server after)
    (h : Reached interval arrivals server) (hgoal : server.now ≤ goal) :
    Reached interval arrivals after := by
  induction helapses with
  | quiet hover => exact h.clock goal _ hgoal fun alarm halarm => Nat.le_of_lt (hover alarm halarm)
  | @goOff server after alarm halarm hfirst hdue _ ih =>
      have hgone := h.goOff alarm halarm (h.le_due alarm halarm) hfirst
      refine ih hgone.settle ?_
      rw [hgone.staffed.now_settle, Server.now_goOff]
      exact hdue

theorem Reached.advance {interval : ℕ} (h : Reached interval arrivals server) (nanos : ℕ) :
    Reached interval arrivals (server.advance nanos) := by
  refine Reached.elapses (h.staffed.elapses_advance h.le_due nanos) h.settle ?_
  rw [h.staffed.now_settle]
  exact Nat.le_add_right _ _

end LinkMeter.Turnstile
