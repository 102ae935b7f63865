import LinkMeter.Proofs.Server.Opening
import LinkMeter.Proofs.Trial.Turns
import Mathlib.Algebra.Order.BigOperators.Group.List

/-!
# Time that passes on a server

Letting time pass is alarms that go off one after the other, each at its instant
and followed by the turns of those whom it called up, until none is due any more
(`Server.Elapses`).  A server does that with a number of alarms that is fixed
beforehand, and this is enough (`Server.Staffed.elapses_advance`).

The measure is the time that is left to all alarms (`remaining`).  An alarm that
goes off sets one other at most, and that one goes off later: the alarm of a
publisher is set by the only publisher of one trial, as a trial whose line is
empty has nothing to wait for that it did not wait for before; sweeps and
overviews set their own alarm, and a connection that gives its trial back sets
none.  So every alarm that goes off takes more from the measure than it adds to
it (`Staffed.remaining_settle_goOff`).
-/

namespace LinkMeter.Server

open Pacing (Instant)

variable {server after : Server} {serial : Serial} {goal : Instant}

/-! ## Alarms in their order -/

theorem eq_nil_of_earliest? {alarms : List Alarm} (hnone : earliest? alarms = none) :
    alarms = [] := by
  cases alarms with
  | nil => rfl
  | cons alarm rest =>
      rw [earliest?] at hnone
      split at hnone
      · cases hnone
      · split at hnone <;> cases hnone

/-- None goes off before the one that goes off first. -/
theorem le_of_earliest? {alarms others : List Alarm} {alarm : Alarm}
    (hfirst : earliest? alarms = some (alarm, others)) :
    ∀ other ∈ alarms, alarm.due ≤ other.due := by
  induction alarms generalizing alarm others with
  | nil => cases hfirst
  | cons head rest ih =>
      rw [earliest?] at hfirst
      split at hfirst
      case h_1 hnone =>
        obtain ⟨rfl, rfl⟩ := Prod.mk.inj (Option.some.inj hfirst)
        rw [eq_nil_of_earliest? hnone]
        exact List.forall_mem_singleton.2 (Nat.le_refl _)
      case h_2 next left hnext =>
        have hrest := ih hnext
        split at hfirst
        case isTrue hle =>
          obtain ⟨rfl, rfl⟩ := Prod.mk.inj (Option.some.inj hfirst)
          exact List.forall_mem_cons.2
            ⟨Nat.le_refl _, fun other hother => Nat.le_trans hle (hrest other hother)⟩
        case isFalse hlater =>
          obtain ⟨rfl, rfl⟩ := Prod.mk.inj (Option.some.inj hfirst)
          exact List.forall_mem_cons.2 ⟨Nat.le_of_not_le hlater, hrest⟩

/-! ## Those who serve the trials -/

/-- Every trial has its crew, and a publisher at most. -/
structure Staffed (server : Server) : Prop where
  length_eq : server.crews.length = server.registry.trials.length
  single : ∀ serial live, server.live? serial = some live → live.Single

/-- Nobody stands in line. -/
def IsCalm (server : Server) : Prop :=
  ∀ serial live, server.live? serial = some live → live.line = []

theorem live?_eq_some_iff {live : Live} : server.live? serial = some live ↔
    server.registry.trial? serial = some live.trial ∧
      live.toCrew = server.crews.getD serial {} := by
  rw [live?, Option.map_eq_some_iff]
  constructor
  · rintro ⟨trial, htrial, rfl⟩
    exact ⟨htrial, rfl⟩
  · rintro ⟨htrial, hcrew⟩
    exact ⟨live.trial, htrial, by rw [← hcrew]⟩

theorem Staffed.lt_length_crews (h : server.Staffed) {live : Live}
    (hlive : server.live? serial = some live) : serial < server.crews.length :=
  h.length_eq ▸ Registry.lt_of_trial? (live?_eq_some_iff.1 hlive).1

theorem live?_putLive (hlt : serial < server.crews.length) (live : Live) (other : Serial) :
    (server.putLive serial live).live? other =
      if other = serial then (server.live? other).map fun _ => live else server.live? other := by
  unfold putLive live?
  rw [Registry.trial?_change]
  by_cases hsame : other = serial
  · rw [if_pos hsame, if_pos hsame.symm, hsame]
    dsimp only
    rw [List.getD_eq_getElem?_getD, List.getElem?_set_self hlt]
    cases server.registry.trial? serial <;> rfl
  · rw [if_neg hsame, if_neg (Ne.symm hsame)]
    dsimp only
    rw [List.getD_eq_getElem?_getD, List.getElem?_set_ne (Ne.symm hsame),
      List.getD_eq_getElem?_getD]

/-- Trials that keep their interval are served as before. -/
theorem Staffed.of_continues (h : server.Staffed)
    (hcontinues : server.registry.Continues after.registry)
    (hlength : after.registry.trials.length = server.registry.trials.length)
    (hcrews : after.crews = server.crews) : after.Staffed where
  length_eq := by rw [hcrews, hlength, h.length_eq]
  single := by
    intro serial live hlive
    obtain ⟨htrial, hcrew⟩ := live?_eq_some_iff.1 hlive
    have hlt : serial < server.registry.trials.length :=
      hlength ▸ Registry.lt_of_trial? htrial
    obtain ⟨later, hlater, hprecedes⟩ :=
      hcontinues serial _ (List.getElem?_eq_getElem hlt)
    rw [htrial] at hlater
    obtain rfl := Option.some.inj hlater
    have hbefore := h.single serial
      { toCrew := live.toCrew, trial := server.registry.trials[serial] }
      (live?_eq_some_iff.2 ⟨List.getElem?_eq_getElem hlt, hcrews ▸ hcrew⟩)
    refine ⟨hbefore.length_le, fun due hdue => ?_⟩
    rw [Trial.isPeriodic, hprecedes.interval_eq]
    exact hbefore.periodic due hdue

theorem Staffed.putLive (h : server.Staffed) {live after : Live}
    (hlive : server.live? serial = some live) (hafter : after.Single) :
    (server.putLive serial after).Staffed where
  length_eq := by
    rw [Server.putLive, List.length_set, Registry.length_trials_change, h.length_eq]
  single := by
    intro other found hfound
    rw [live?_putLive (h.lt_length_crews hlive)] at hfound
    split at hfound
    case isTrue =>
      obtain ⟨-, -, rfl⟩ := Option.map_eq_some_iff.1 hfound
      exact hafter
    case isFalse => exact h.single other found hfound

/-- A new trial, which nobody serves yet. -/
theorem Staffed.append (h : server.Staffed) {registry : Registry} {added : Trial}
    (htrials : registry.trials = server.registry.trials ++ [added]) :
    ({ server with registry, crews := server.crews ++ [{}] } : Server).Staffed where
  length_eq := by
    rw [List.length_append, htrials, List.length_append, h.length_eq]
    rfl
  single := by
    intro serial live hlive
    obtain ⟨htrial, hcrew⟩ := live?_eq_some_iff.1 hlive
    dsimp only at htrial hcrew
    rw [Registry.trial?, htrials] at htrial
    rw [List.getD_eq_getElem?_getD] at hcrew
    rcases Nat.lt_or_ge serial server.registry.trials.length with hold | hnew
    · rw [List.getElem?_append_left hold] at htrial
      rw [List.getElem?_append_left (h.length_eq ▸ hold), ← List.getD_eq_getElem?_getD] at hcrew
      exact h.single serial live (live?_eq_some_iff.2 ⟨htrial, hcrew⟩)
    · have hcrew : live.toCrew = {} := by
        rw [hcrew, List.getElem?_append_right (h.length_eq ▸ hnew), List.getElem?_singleton]
        split <;> rfl
      have hnobody : live.publishers = [] := by rw [hcrew]
      refine Live.single_of_dues (by rw [hnobody]; exact Nat.zero_le 1) ?_
      rw [Live.dues, hnobody]
      rfl

/-- Nobody stands in line where nobody stood, as long as the crews are the same. -/
theorem IsCalm.of_crews (h : server.IsCalm)
    (hlength : after.registry.trials.length = server.registry.trials.length)
    (hcrews : after.crews = server.crews) : after.IsCalm := by
  intro serial live hlive
  obtain ⟨htrial, hcrew⟩ := live?_eq_some_iff.1 hlive
  have hlt : serial < server.registry.trials.length :=
    hlength ▸ Registry.lt_of_trial? htrial
  exact h serial { toCrew := live.toCrew, trial := server.registry.trials[serial] }
    (live?_eq_some_iff.2 ⟨List.getElem?_eq_getElem hlt, hcrews ▸ hcrew⟩)

theorem staffed_start (interval : ℕ) : ({ interval } : Server).Staffed where
  length_eq := rfl
  single := by
    intro serial live hlive
    exact absurd (live?_eq_some_iff.1 hlive).1 (by simp [Registry.trial?])

/-- A trial that is opened is served by a publisher and a reporter. -/
theorem Staffed.openTrial (h : server.Staffed) (peer : Endpoint) (measurement : Measurement)
    (request : Request) : (server.openTrial peer measurement request).2.Staffed := by
  rw [Server.openTrial]
  cases hfind : server.registry.find? peer.address measurement with
  | some serial =>
      rw [Registry.createOrGet_of_find _ _ _ _ _ _ hfind]
      exact h.of_continues (Registry.continues_change _ serial Trial.precedes_acquire)
        (Registry.length_trials_change serial Trial.acquire) rfl
  | none =>
      obtain ⟨registry, added, hcreated, htrials⟩ : ∃ (registry : Registry) (added : Trial),
          server.registry.createOrGet server.wall peer measurement request
            (Reducer.ofKind? measurement.kind) server.interval =
              ((server.registry.trials.length, true), registry) ∧
          registry.trials = server.registry.trials ++ [added] :=
        ⟨_, _, Registry.createOrGet_of_free _ _ _ _ _ _ hfind, Registry.trials_putSession _ _⟩
      have hopened := h.append htrials
      rw [hcreated]
      dsimp only
      rw [if_pos rfl]
      split
      case h_1 live hlive =>
        have hcrew := (live?_eq_some_iff.1 hlive).2
        dsimp only at hcrew
        rw [← h.length_eq, List.getD_eq_getElem?_getD, List.getElem?_concat_length,
          Option.getD_some] at hcrew
        exact hopened.putLive hlive (Live.single_start (by rw [hcrew]) _)
      case h_2 => exact hopened

/-- Something is done to a trial. -/
theorem Staffed.change (h : server.Staffed) (serial : Serial) {operation : Trial → Trial}
    (hoperation : ∀ trial : Trial, trial.Precedes (operation trial)) :
    ({ server with registry := server.registry.change serial operation } : Server).Staffed :=
  h.of_continues (Registry.continues_change _ serial hoperation)
    (Registry.length_trials_change serial operation) rfl

theorem Staffed.countConnection (h : server.Staffed) (peer : Endpoint) :
    (server.countConnection peer).Staffed := by
  have hcounted := (h.openTrial peer .tcpConnectionRate {}).change
    (server.openTrial peer .tcpConnectionRate {}).1 fun trial => trial.precedes_add (.connections 1)
  exact ⟨hcounted.length_eq, hcounted.single⟩

/-! ## Turns on a server -/

/-- Those who serve a trial, when nobody stands in line any more. -/
def rested (server : Server) (live : Live) : Live :=
  { live.wake.settle server.now server.wall with reported := [] }

/-- The alarms that are set in the turns of those who serve a trial. -/
def renewals (server : Server) (serial : Serial) : List Alarm :=
  match server.live? serial with
  | none => []
  | some live =>
    ((live.wake.settle server.now server.wall).dues.filter fun due =>
      !live.dues.contains due).map fun due => ⟨due, .publish serial⟩

theorem alarms_settleOne (server : Server) (serial : Serial) :
    (server.settleOne serial).alarms = server.alarms ++ server.renewals serial := by
  rw [settleOne, renewals]
  cases server.live? serial with
  | none => exact (List.append_nil _).symm
  | some live => rfl

theorem now_settleOne (server : Server) (serial : Serial) :
    (server.settleOne serial).now = server.now := by
  rw [settleOne]
  split <;> rfl

theorem wall_settleOne (server : Server) (serial : Serial) :
    (server.settleOne serial).wall = server.wall := by
  rw [settleOne]
  split <;> rfl

/-- The turns of those who serve a trial concern this trial only. -/
theorem Staffed.live?_settleOne (h : server.Staffed) (serial other : Serial) :
    (server.settleOne serial).live? other =
      if other = serial then (server.live? other).map server.rested else server.live? other := by
  cases hlive : server.live? serial with
  | none =>
      rw [settleOne, hlive]
      by_cases hsame : other = serial
      · rw [if_pos hsame, hsame, hlive]
        rfl
      · rw [if_neg hsame]
  | some live =>
      have hput : (server.settleOne serial).live? other =
          (server.putLive serial (server.rested live)).live? other := by
        rw [settleOne, hlive]
        rfl
      rw [hput, live?_putLive (h.lt_length_crews hlive)]
      by_cases hsame : other = serial
      · rw [if_pos hsame, if_pos hsame, hsame, hlive]
        rfl
      · rw [if_neg hsame, if_neg hsame]

theorem rested_settleOne (server : Server) (serial : Serial) :
    (server.settleOne serial).rested = server.rested := by
  funext live
  rw [rested, rested, now_settleOne, wall_settleOne]

theorem Staffed.renewals_settleOne (h : server.Staffed) {other : Serial} (hother : other ≠ serial) :
    (server.settleOne serial).renewals other = server.renewals other := by
  rw [renewals, renewals, h.live?_settleOne, if_neg hother, now_settleOne, wall_settleOne]

theorem line_rested {live : Live} (hsingle : live.Single) : (server.rested live).line = [] :=
  hsingle.wake.line_settle server.now server.wall

theorem Staffed.settleOne (h : server.Staffed) (serial : Serial) :
    (server.settleOne serial).Staffed := by
  rw [Server.settleOne]
  split
  case h_1 => exact h
  case h_2 live hlive =>
    have hwoken := (h.single serial live hlive).wake
    have hturned := (hwoken.turned_settle server.now server.wall).single hwoken
    have hrested : (server.rested live).Single := ⟨hturned.length_le, hturned.periodic⟩
    have hput := h.putLive hlive hrested
    exact ⟨hput.length_eq, hput.single⟩

/-- The turns of those who serve some trials, one trial after the other. -/
theorem Staffed.foldl_settleOne (h : server.Staffed) {serials : List Serial}
    (hnodup : serials.Nodup) :
    (serials.foldl Server.settleOne server).Staffed ∧
      (serials.foldl Server.settleOne server).now = server.now ∧
      (serials.foldl Server.settleOne server).alarms =
        server.alarms ++ serials.flatMap server.renewals ∧
      ∀ other, (serials.foldl Server.settleOne server).live? other =
        if other ∈ serials then (server.live? other).map server.rested
        else server.live? other := by
  induction serials generalizing server with
  | nil => exact ⟨h, rfl, (List.append_nil _).symm, fun other => (if_neg List.not_mem_nil).symm⟩
  | cons serial serials ih =>
      obtain ⟨hfresh, hnodup⟩ := List.nodup_cons.1 hnodup
      obtain ⟨hstaffed, hnow, halarms, hlives⟩ := ih (h.settleOne serial) hnodup
      have hrenewals : serials.flatMap (server.settleOne serial).renewals =
          serials.flatMap server.renewals :=
        List.flatMap_congr fun other hother =>
          h.renewals_settleOne (fun hsame => hfresh (hsame ▸ hother))
      refine ⟨hstaffed, hnow.trans (now_settleOne server serial), ?_, fun other => ?_⟩
      · rw [List.foldl_cons, halarms, hrenewals, alarms_settleOne, List.append_assoc,
          List.flatMap_cons]
      · rw [List.foldl_cons, hlives, rested_settleOne, h.live?_settleOne]
        by_cases hsame : other = serial
        · rw [if_neg (hsame ▸ hfresh), if_pos hsame, if_pos (hsame ▸ List.mem_cons_self)]
        · simp only [List.mem_cons, hsame, false_or, if_false]

theorem Staffed.settle (h : server.Staffed) : server.settle.Staffed :=
  (h.foldl_settleOne List.nodup_range).1

theorem Staffed.now_settle (h : server.Staffed) : server.settle.now = server.now :=
  (h.foldl_settleOne List.nodup_range).2.1

theorem Staffed.alarms_settle (h : server.Staffed) : server.settle.alarms = server.alarms ++
    (List.range server.registry.trials.length).flatMap server.renewals :=
  (h.foldl_settleOne List.nodup_range).2.2.1

theorem Staffed.isCalm_settle (h : server.Staffed) : server.settle.IsCalm := by
  intro serial live hlive
  have hlt : serial < server.registry.trials.length := by
    rw [← server.steady_settle.length_eq]
    exact Registry.lt_of_trial? (live?_eq_some_iff.1 hlive).1
  obtain ⟨-, -, -, hlives⟩ := h.foldl_settleOne
    (List.nodup_range : (List.range server.registry.trials.length).Nodup)
  have hsettled := hlives serial
  rw [if_pos (List.mem_range.2 hlt)] at hsettled
  obtain ⟨before, hbefore, rfl⟩ := Option.map_eq_some_iff.1 (hsettled.symm.trans hlive)
  exact line_rested (h.single serial before hbefore)

/-! ## The alarms of publishers -/

/-- A trial sets the alarm of its publisher, for an instant that is still to come. -/
theorem Staffed.renewals_spec (h : server.Staffed) (serial : Serial) :
    (server.renewals serial).length ≤ 1 ∧
      ∀ alarm ∈ server.renewals serial, server.now < alarm.due := by
  rw [renewals]
  split
  case h_1 => exact ⟨Nat.zero_le 1, fun alarm hmem => absurd hmem List.not_mem_nil⟩
  case h_2 live hlive =>
    have hsingle := h.single serial live hlive
    have hturned := hsingle.wake.turned_settle server.now server.wall
    constructor
    · rw [List.length_map]
      calc _ ≤ (live.wake.settle server.now server.wall).dues.length := List.length_filter_le _ _
        _ ≤ (live.wake.settle server.now server.wall).publishers.length := Live.length_dues_le _
        _ = live.publishers.length := hturned.length_eq
        _ ≤ 1 := hsingle.length_le
    · intro alarm hmem
      obtain ⟨due, hdue, rfl⟩ := List.mem_map.1 hmem
      obtain ⟨hwaits, hnew⟩ := List.mem_filter.1 hdue
      rcases hturned.due due hwaits with hold | ⟨-, hperiodic, rfl⟩
      · have hold : due ∈ live.dues := hold
        simp [hold] at hnew
      · have hpasses : 0 < live.trial.interval := by
          have hbounds : live.trial.isPeriodic = true := hperiodic
          rw [Trial.isPeriodic, Bool.and_eq_true, decide_eq_true_eq] at hbounds
          exact hbounds.1
        exact Nat.lt_add_of_pos_right hpasses

/-- A trial where nobody stands in line sets no alarm. -/
theorem Staffed.renewals_eq_nil (h : server.Staffed)
    (hcalm : ∀ live, server.live? serial = some live → live.line = []) :
    server.renewals serial = [] := by
  rw [renewals]
  split
  case h_1 => rfl
  case h_2 live hlive =>
    rw [List.map_eq_nil_iff, List.filter_eq_nil_iff]
    intro due hdue
    have hold := (h.single serial live hlive).dues_settle_of_nil (hcalm live hlive) due hdue
    simp [hold]

theorem flatMap_eq_of_unique {renewals : Serial → List Alarm} {serials : List Serial}
    (hnodup : serials.Nodup) (hothers : ∀ other ≠ serial, renewals other = []) :
    serials.flatMap renewals = if serial ∈ serials then renewals serial else [] := by
  induction serials with
  | nil => rfl
  | cons first serials ih =>
      obtain ⟨hfresh, hnodup⟩ := List.nodup_cons.1 hnodup
      rw [List.flatMap_cons, ih hnodup]
      by_cases hsame : first = serial
      · rw [← hsame, if_neg hfresh, if_pos List.mem_cons_self, List.append_nil]
      · rw [hothers first hsame, List.nil_append]
        simp only [List.mem_cons, Ne.symm hsame, false_or]

/-- At most one trial sets an alarm if nobody stands in line anywhere else. -/
theorem Staffed.exists_alarms_settle_of_calm (h : server.Staffed) (serial : Serial)
    (hcalm : ∀ other ≠ serial, ∀ live, server.live? other = some live → live.line = []) :
    ∃ added : List Alarm, server.settle.alarms = server.alarms ++ added ∧ added.length ≤ 1 ∧
      ∀ alarm ∈ added, server.now < alarm.due := by
  refine ⟨_, h.alarms_settle, ?_, fun alarm hmem => ?_⟩
  · have hothers : ∀ other ≠ serial, server.renewals other = [] :=
      fun other hother => h.renewals_eq_nil (hcalm other hother)
    rw [flatMap_eq_of_unique List.nodup_range hothers]
    split
    · exact (h.renewals_spec serial).1
    · exact Nat.zero_le 1
  · obtain ⟨other, -, hother⟩ := List.mem_flatMap.1 hmem
    exact (h.renewals_spec other).2 alarm hother

theorem Staffed.alarms_settle_of_isCalm (h : server.Staffed) (hcalm : server.IsCalm) :
    server.settle.alarms = server.alarms := by
  have hnone : ∀ serial ∈ List.range server.registry.trials.length, server.renewals serial = [] :=
    fun serial _ => h.renewals_eq_nil (hcalm serial)
  rw [h.alarms_settle, List.flatMap_eq_nil_iff.2 hnone, List.append_nil]

/-! ## Chores -/

/-- A duty sets one alarm at most, which goes off later and is not the one of a counted connection;
what it does to the registry is a sweep. -/
structure Chore (before after : Server) : Prop where
  interval_eq : after.interval = before.interval
  now_eq : after.now = before.now
  alarms : ∃ added : List Alarm, after.alarms = before.alarms ++ added ∧ added.length ≤ 1 ∧
    ∀ alarm ∈ added, before.now < alarm.due ∧ ∀ serial, alarm.duty ≠ .linger serial
  registry : after.registry = before.registry ∨
    after.registry =
      (before.registry.sweep before.wall Registry.dormantAfter Registry.deleteAfter).2

theorem Chore.refl (server : Server) : Chore server server where
  interval_eq := rfl
  now_eq := rfl
  alarms := ⟨[], (List.append_nil _).symm, Nat.zero_le 1, fun _ h => absurd h List.not_mem_nil⟩
  registry := .inl rfl

theorem Chore.length_trials {before after : Server} (h : Chore before after) :
    after.registry.trials.length = before.registry.trials.length := by
  rcases h.registry with hsame | hswept
  · rw [hsame]
  · rw [hswept, Registry.length_trials_sweep]

theorem Chore.continues {before after : Server} (h : Chore before after) :
    before.registry.Continues after.registry := by
  rcases h.registry with hsame | hswept
  · rw [hsame]
    exact (Registry.Steady.refl before.registry).continues
  · rw [hswept]
    exact Registry.continues_sweep _ _ _ _

theorem Chore.le_due {before after : Server} (h : Chore before after)
    (htimely : ∀ alarm ∈ before.alarms, before.now ≤ alarm.due) :
    ∀ alarm ∈ after.alarms, before.now ≤ alarm.due := by
  obtain ⟨added, halarms, -, hadded⟩ := h.alarms
  intro alarm halarm
  rw [halarms] at halarm
  rcases List.mem_append.1 halarm with hold | hnew
  · exact htimely alarm hold
  · exact Nat.le_of_lt (hadded alarm hnew).1

theorem Staffed.chore (h : server.Staffed) (hchore : Chore server after)
    (hcrews : after.crews = server.crews) : after.Staffed :=
  h.of_continues hchore.continues hchore.length_trials hcrews

/-- An alarm that is set for some time later. -/
theorem Chore.setAlarm {before after : Server} (h : Chore before after)
    (halarms : after.alarms = before.alarms) {delay : ℕ} (hdelay : 0 < delay) {duty : Duty}
    (hduty : ∀ serial, duty ≠ .linger serial) : Chore before (after.setAlarm delay duty) where
  interval_eq := h.interval_eq
  now_eq := h.now_eq
  alarms := by
    refine ⟨[⟨after.now + delay, duty⟩], by rw [← halarms]; rfl, Nat.le_refl 1, ?_⟩
    refine List.forall_mem_singleton.2 ⟨?_, hduty⟩
    rw [← h.now_eq]
    exact Nat.lt_add_of_pos_right hdelay
  registry := h.registry

theorem chore_sweepNow (server : Server) : Chore server server.sweepNow where
  interval_eq := rfl
  now_eq := rfl
  alarms := (Chore.refl server).alarms
  registry := .inr rfl

theorem exists_read_eq (server : Server) :
    ∃ reading readings, server.read = (reading, { server with readings }) := by
  unfold read
  split
  · exact ⟨_, _, rfl⟩
  · exact ⟨_, _, rfl⟩
  · exact ⟨_, _, rfl⟩

theorem chore_tellOverview (server : Server) (before : Counters.Traffic) :
    Chore server (server.tellOverview before) := by
  obtain ⟨reading, readings, hread⟩ := exists_read_eq server
  have hnothing := (Chore.refl server).alarms
  rw [tellOverview, hread]
  dsimp only
  cases reading.traffic? with
  | none => exact ⟨rfl, rfl, hnothing, .inl rfl⟩
  | some after =>
      dsimp only [Option.bind_eq_bind, Option.bind_some]
      cases ({ server with readings } : Server).overviewLine? before after with
      | none => exact ⟨rfl, rfl, hnothing, .inl rfl⟩
      | some lines =>
          have htold : Chore server { server with
              readings, overviews := server.overviews ++ lines } := ⟨rfl, rfl, hnothing, .inl rfl⟩
          exact htold.setAlarm rfl (by decide) (by simp)

theorem chore_perform (server : Server) {duty : Duty} (hduty : ∀ serial, duty ≠ .linger serial) :
    Chore server (server.perform duty) := by
  cases duty with
  | linger serial => exact absurd rfl (hduty serial)
  | sweep => exact (chore_sweepNow server).setAlarm rfl (by decide) (by simp)
  | overview before => exact chore_tellOverview server before
  | publish serial =>
      unfold perform
      dsimp only
      split
      case h_2 => exact Chore.refl server
      case h_1 live hlive =>
        refine ⟨rfl, rfl, (Chore.refl server).alarms, .inl ?_⟩
        obtain ⟨trial, htrial, rfl⟩ := Option.map_eq_some_iff.mp hlive
        exact Registry.change_self htrial

theorem chore_startSweeps (server : Server) : Chore server server.startSweeps := by
  unfold startSweeps
  split
  · exact Chore.refl server
  · exact (chore_sweepNow server).setAlarm rfl (by decide) (by simp)

theorem chore_startOverviews (server : Server) : Chore server server.startOverviews := by
  obtain ⟨reading, readings, hread⟩ := exists_read_eq server
  have hread : Chore server { server with readings } :=
    ⟨rfl, rfl, (Chore.refl server).alarms, .inl rfl⟩
  rw [startOverviews, ‹server.read = _›]
  dsimp only
  split
  · split
    · exact hread
    · exact hread.setAlarm rfl (by decide) (by simp)
  · exact hread

theorem crews_startSweeps (server : Server) : server.startSweeps.crews = server.crews := by
  rw [startSweeps]
  split <;> rfl

theorem crews_startOverviews (server : Server) : server.startOverviews.crews = server.crews := by
  obtain ⟨reading, readings, hread⟩ := exists_read_eq server
  rw [startOverviews, hread]
  dsimp only
  split
  · split <;> rfl
  · rfl

/-! ## An alarm that goes off -/

/-- What an alarm brings about is a chore, unless a connection leaves. -/
theorem linger_or_chore_perform (server : Server) (duty : Duty) :
    (∃ serial, duty = .linger serial) ∨ Chore server (server.perform duty) := by
  by_cases hlinger : ∃ serial, duty = .linger serial
  · exact .inl hlinger
  · exact .inr (chore_perform server fun serial hduty => hlinger ⟨serial, hduty⟩)

theorem now_perform (server : Server) (duty : Duty) : (server.perform duty).now = server.now := by
  rcases server.linger_or_chore_perform duty with ⟨serial, rfl⟩ | hchore
  · rfl
  · exact hchore.now_eq

/-- Only the publisher of a trial is called up. -/
theorem crews_perform (server : Server) {duty : Duty} (hduty : ∀ serial, duty ≠ .publish serial) :
    (server.perform duty).crews = server.crews := by
  cases duty with
  | publish serial => exact absurd rfl (hduty serial)
  | linger serial => rfl
  | sweep => rfl
  | overview before =>
      obtain ⟨reading, readings, hread⟩ := exists_read_eq server
      rw [perform, tellOverview, hread]
      dsimp only
      cases reading.traffic? with
      | none => rfl
      | some after =>
          dsimp only [Option.bind_eq_bind, Option.bind_some]
          cases ({ server with readings } : Server).overviewLine? before after <;> rfl

theorem length_trials_perform (server : Server) (duty : Duty) :
    (server.perform duty).registry.trials.length = server.registry.trials.length := by
  rcases server.linger_or_chore_perform duty with ⟨serial, rfl⟩ | hchore
  · exact Registry.length_trials_release server.registry serial
  · exact hchore.length_trials

theorem continues_perform (server : Server) (duty : Duty) :
    server.registry.Continues (server.perform duty).registry := by
  rcases server.linger_or_chore_perform duty with ⟨serial, rfl⟩ | hchore
  · exact Registry.continues_release server.registry serial
  · exact hchore.continues

/-- A publisher that is called up stands in the line of its trial. -/
theorem Staffed.live?_perform_publish (h : server.Staffed) (serial other : Serial) :
    (server.perform (.publish serial)).live? other =
      if other = serial then (server.live? other).map fun live => live.fire server.now
      else server.live? other := by
  cases hlive : server.live? serial with
  | none =>
      rw [perform, hlive]
      by_cases hsame : other = serial
      · rw [if_pos hsame, hsame, hlive]
        rfl
      · rw [if_neg hsame]
  | some live =>
      rw [perform, hlive]
      dsimp only
      rw [live?_putLive (h.lt_length_crews hlive)]
      by_cases hsame : other = serial
      · rw [if_pos hsame, if_pos hsame, hsame, hlive]
        rfl
      · rw [if_neg hsame, if_neg hsame]

theorem Staffed.perform (h : server.Staffed) (duty : Duty) : (server.perform duty).Staffed := by
  by_cases hpublish : ∃ serial, duty = .publish serial
  · obtain ⟨serial, rfl⟩ := hpublish
    rw [Server.perform]
    split
    case h_1 live hlive =>
      have hsingle := h.single serial live hlive
      exact h.putLive hlive ⟨hsingle.length_le, hsingle.periodic⟩
    case h_2 => exact h
  · exact h.of_continues (continues_perform server duty) (length_trials_perform server duty)
      (crews_perform server fun serial hduty => hpublish ⟨serial, hduty⟩)

theorem now_goOff (server : Server) (alarm : Alarm) : (server.goOff alarm).now = alarm.due :=
  now_perform _ _

/-- Alarms are no matter to those who serve the trials. -/
theorem Staffed.erase (h : server.Staffed) (alarm : Alarm) :
    ({ server with alarms := server.alarms.erase alarm, now := alarm.due } : Server).Staffed :=
  ⟨h.length_eq, h.single⟩

theorem Staffed.goOff (h : server.Staffed) (alarm : Alarm) : (server.goOff alarm).Staffed :=
  (h.erase alarm).perform alarm.duty

/-- Nothing is overdue when the first alarm has gone off. -/
theorem le_due_goOff {alarm : Alarm}
    (hfirst : ∀ other ∈ server.alarms, alarm.due ≤ other.due) :
    ∀ other ∈ (server.goOff alarm).alarms, alarm.due ≤ other.due := by
  obtain ⟨due, duty⟩ := alarm
  have hothers : ∀ other ∈ server.alarms.erase ⟨due, duty⟩, due ≤ other.due :=
    fun other hother => hfirst other (List.mem_of_mem_erase hother)
  rcases linger_or_chore_perform
      { server with alarms := server.alarms.erase ⟨due, duty⟩, now := due } duty with
      ⟨serial, rfl⟩ | hchore
  · exact hothers
  · exact hchore.le_due hothers

/-- An alarm sets at most one other, which goes off later. -/
theorem Staffed.exists_alarms_settle_goOff (h : server.Staffed) (hcalm : server.IsCalm)
    (alarm : Alarm) :
    ∃ added : List Alarm, (server.goOff alarm).settle.alarms = server.alarms.erase alarm ++ added ∧
      added.length ≤ 1 ∧ ∀ other ∈ added, alarm.due < other.due := by
  have hstaffed := h.goOff alarm
  have hnow := server.now_goOff alarm
  obtain ⟨due, duty⟩ := alarm
  by_cases hpublish : ∃ serial, duty = .publish serial
  · obtain ⟨serial, rfl⟩ := hpublish
    -- the alarm may have called up the publisher of its own trial, and nobody else
    obtain ⟨added, halarms, hone, hlater⟩ := hstaffed.exists_alarms_settle_of_calm serial (by
      intro other hother live hlive
      rw [Server.goOff, (h.erase _).live?_perform_publish, if_neg hother] at hlive
      exact hcalm other live hlive)
    rw [alarms_goOff_publish] at halarms
    rw [hnow] at hlater
    exact ⟨added, halarms, hone, hlater⟩
  · have hcalmed : (server.goOff ⟨due, duty⟩).IsCalm :=
      hcalm.of_crews (length_trials_perform _ duty)
        (crews_perform _ fun serial hduty => hpublish ⟨serial, hduty⟩)
    rw [hstaffed.alarms_settle_of_isCalm hcalmed]
    rcases linger_or_chore_perform
        { server with alarms := server.alarms.erase ⟨due, duty⟩, now := due } duty with
        ⟨serial, rfl⟩ | hchore
    · exact ⟨[], (List.append_nil _).symm, Nat.zero_le 1,
        fun other hmem => absurd hmem List.not_mem_nil⟩
    · obtain ⟨added, halarms, hone, hlater⟩ := hchore.alarms
      exact ⟨added, halarms, hone, fun other hmem => (hlater other hmem).1⟩

/-! ## Until no alarm is due -/

/-- The time that is left to an alarm until a goal, a nanosecond if it is due then. -/
def timeLeft (goal : ℕ) (alarm : Alarm) : ℕ := goal + 1 - alarm.due

/-- The time that is left to all alarms. -/
def remaining (goal : Instant) (alarms : List Alarm) : ℕ := (alarms.map (timeLeft goal)).sum

theorem remaining_append (goal : Instant) (alarms others : List Alarm) :
    remaining goal (alarms ++ others) = remaining goal alarms + remaining goal others := by
  rw [remaining, List.map_append, List.sum_append]
  rfl

theorem lt_due_of_remaining {alarms : List Alarm} (hnone : remaining goal alarms = 0) :
    ∀ alarm ∈ alarms, goal < alarm.due := by
  intro alarm halarm
  have hle : timeLeft goal alarm ≤ remaining goal alarms :=
    List.le_sum_of_mem (List.mem_map_of_mem halarm)
  rw [hnone, timeLeft] at hle
  exact Nat.lt_of_succ_le (Nat.le_of_sub_eq_zero (Nat.le_zero.1 hle))

/-- Alarms that are not overdue have no more time than there is. -/
theorem remaining_le {alarms : List Alarm} {now : Instant} {nanos : ℕ}
    (htimely : ∀ alarm ∈ alarms, now ≤ alarm.due) :
    remaining (now + nanos) alarms ≤ alarms.length * (nanos + 1) := by
  have hsum := List.sum_le_card_nsmul (alarms.map (timeLeft (now + nanos))) (nanos + 1) (by
    intro left hleft
    obtain ⟨alarm, halarm, rfl⟩ := List.mem_map.1 hleft
    calc timeLeft (now + nanos) alarm
        ≤ now + (nanos + 1) - now := Nat.sub_le_sub_left (htimely alarm halarm) _
      _ = nanos + 1 := Nat.add_sub_cancel_left _ _)
  rwa [List.length_map] at hsum

/-- An alarm that goes off has more time left than the one that it sets. -/
theorem Staffed.remaining_settle_goOff (h : server.Staffed) (hcalm : server.IsCalm) {alarm : Alarm}
    (halarm : alarm ∈ server.alarms) (hdue : alarm.due ≤ goal) :
    remaining goal (server.goOff alarm).settle.alarms < remaining goal server.alarms := by
  obtain ⟨added, halarms, hone, hlater⟩ := h.exists_alarms_settle_goOff hcalm alarm
  have hgone : timeLeft goal alarm + remaining goal (server.alarms.erase alarm) =
      remaining goal server.alarms := List.sum_map_erase (timeLeft goal) halarm
  have hset : remaining goal added < timeLeft goal alarm := by
    cases added with
    | nil => exact Nat.sub_pos_of_lt (Nat.lt_succ_of_le hdue)
    | cons other rest =>
        obtain rfl : rest = [] := by simpa using hone
        have honly : remaining goal [other] = timeLeft goal other := List.sum_singleton
        rw [honly]
        exact Nat.sub_lt_sub_left (Nat.lt_succ_of_le hdue) (hlater other List.mem_cons_self)
  rw [halarms, remaining_append]
  omega

/-- Time passes on a server up to a goal: alarms go off in the order of their instants, each of them
followed by the turns of those who can go on, until no alarm is due. -/
inductive Elapses (goal : Instant) : Server → Server → Prop where
  | quiet {server : Server} (h : ∀ alarm ∈ server.alarms, goal < alarm.due) :
      Elapses goal server { server with now := goal }
  | goOff {server after : Server} {alarm : Alarm} (halarm : alarm ∈ server.alarms)
      (hfirst : ∀ other ∈ server.alarms, alarm.due ≤ other.due) (hdue : alarm.due ≤ goal)
      (h : Elapses goal (server.goOff alarm).settle after) : Elapses goal server after

theorem Elapses.now_eq (h : Elapses goal server after) : after.now = goal := by
  induction h with
  | quiet => rfl
  | goOff _ _ _ _ ih => exact ih

theorem Elapses.lt_due (h : Elapses goal server after) :
    ∀ alarm ∈ after.alarms, goal < alarm.due := by
  induction h with
  | quiet h => exact h
  | goOff _ _ _ _ ih => exact ih

theorem Staffed.elapses_advanceFor (h : server.Staffed) (hcalm : server.IsCalm) {fuel : ℕ}
    (henough : remaining goal server.alarms ≤ fuel) :
    Elapses goal server (server.advanceFor goal fuel) := by
  induction fuel generalizing server with
  | zero => exact .quiet (lt_due_of_remaining (Nat.le_zero.1 henough))
  | succ fuel ih =>
      rw [advanceFor]
      cases hfirst : earliest? server.alarms with
      | none =>
          refine .quiet fun alarm halarm => ?_
          rw [eq_nil_of_earliest? hfirst] at halarm
          exact absurd halarm List.not_mem_nil
      | some first =>
          obtain ⟨alarm, others⟩ := first
          obtain ⟨halarm, rfl⟩ := eq_erase_of_earliest? hfirst
          have hall := le_of_earliest? hfirst
          dsimp only
          split
          case isTrue hdue =>
            have hless := h.remaining_settle_goOff hcalm halarm hdue
            exact .goOff halarm hall hdue
              (ih (h.goOff alarm).settle (h.goOff alarm).isCalm_settle (by omega))
          case isFalse hdue =>
            exact .quiet fun other hother => Nat.lt_of_lt_of_le (Nat.lt_of_not_le hdue)
              (hall other hother)

/-- Turns at an instant set no alarm for an earlier one. -/
theorem Staffed.le_due_settle (h : server.Staffed)
    (htimely : ∀ alarm ∈ server.alarms, server.now ≤ alarm.due) :
    ∀ alarm ∈ server.settle.alarms, server.now ≤ alarm.due := by
  intro alarm halarm
  rw [h.alarms_settle] at halarm
  rcases List.mem_append.1 halarm with hold | hnew
  · exact htimely alarm hold
  · obtain ⟨serial, -, hserial⟩ := List.mem_flatMap.1 hnew
    exact Nat.le_of_lt ((h.renewals_spec serial).2 alarm hserial)

/-- If no alarm is overdue, letting time pass lets all alarms go off that are due by then. -/
theorem Staffed.elapses_advance (h : server.Staffed)
    (htimely : ∀ alarm ∈ server.alarms, server.now ≤ alarm.due) (nanos : ℕ) :
    Elapses (server.now + nanos) server.settle (server.advance nanos) := by
  have hsettled := h.le_due_settle htimely
  rw [advance, ← h.now_settle] at *
  refine h.settle.elapses_advanceFor h.isCalm_settle ((remaining_le hsettled).trans ?_)
  exact Nat.mul_le_mul_right _ (Nat.le_succ _)

end LinkMeter.Server
