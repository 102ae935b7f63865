import LinkMeter.Client.Work
import LinkMeter.Proofs.Path.Drawing
import LinkMeter.Proofs.Trial.Outlet
import Mathlib.Data.List.TakeWhile

/-!
# Watching a path

A path is watched by one worker for each of its hops, which record what comes of
their probes and look up names whenever they get to it, and by a ticker that
publishes snapshots in between.  When the watching ends the workers are stopped
first, and a last snapshot is published (`Monitoring`).

Every snapshot shows the hops of the discovery in their places, and each hop
shows what was recorded for it until then (`Monitoring.Faithful`).  The last
snapshot misses nothing that was recorded.

The invariant pairs the hops with the list of what was recorded, one event at a
time (`Monitoring.Kept.step`); what a single hop shows of its own findings is
`Hop.Tells`.  The worker of a client that plays a script takes one of these
courses: what is recorded is what the script held for the hops, and the outcomes
that the worker emits are the snapshots (`Monitoring.exists_events_work`).
-/

namespace LinkMeter.Path

open Icmp (Finding ProbeId)

/-- The hops that were published, with what had been recorded until then. -/
structure Snapshot where
  hops : List Hop
  recorded : List (ℕ × Finding)
  deriving DecidableEq

namespace Monitoring

inductive Stage where
  | watching
  /-- The workers are stopped. -/
  | stopped
  | over
  deriving DecidableEq

inductive Event where
  /-- The worker of a hop records what came of a probe. -/
  | record (place : ℕ) (attempt : Attempt)
  /-- It has looked up the name of the hop. -/
  | name (place : ℕ) (fullName : String)
  | snapshot
  | stop
  /-- The last snapshot is published. -/
  | conclude
  /-- Somebody does something else to the trial, which emits nothing. -/
  | aside (act : Trial.Act)
  deriving DecidableEq

/-- What a worker records for its hop, if its probe did not fail fatally. -/
def Event.finding? : Event → Option (ℕ × Finding)
  | .record place attempt => (settle attempt).toOption.map (place, ·)
  | _ => none

end Monitoring

/-- What is recorded in a course of events: nothing after the workers are stopped. -/
def Monitoring.findings (events : List Monitoring.Event) : List (ℕ × Finding) :=
  (events.takeWhile (· ≠ .stop)).filterMap Monitoring.Event.finding?

/-- A path that is watched. -/
structure Monitoring where
  hops : List Hop
  trial : Trial
  stage : Monitoring.Stage := .watching
  recorded : List (ℕ × Finding) := []
  snapshots : List Snapshot := []
  deriving DecidableEq

namespace Monitoring

def publish (monitoring : Monitoring) : Monitoring :=
  { monitoring with
    trial := monitoring.trial.emit (.path monitoring.hops)
    snapshots := monitoring.snapshots ++ [⟨monitoring.hops, monitoring.recorded⟩] }

/-- A path that was just discovered is published at once. -/
def begin (hops : List Hop) (trial : Trial) : Monitoring := { hops, trial : Monitoring }.publish

def step (monitoring : Monitoring) : Event → Monitoring
  | .record place attempt =>
    match settle attempt with
    | .error _ => monitoring
    | .ok finding =>
      if monitoring.stage = .watching then
        { monitoring with
          hops := absorbAt Names.none place finding monitoring.hops
          recorded := monitoring.recorded ++ [(place, finding)] }
      else monitoring
  | .name place fullName =>
    if monitoring.stage = .watching then
      { monitoring with hops := monitoring.hops.modify place (·.setName fullName) }
    else monitoring
  | .snapshot => if monitoring.stage = .watching then monitoring.publish else monitoring
  | .stop =>
    if monitoring.stage = .watching then { monitoring with stage := .stopped } else monitoring
  | .conclude =>
    if monitoring.stage = .stopped then { monitoring.publish with stage := .over } else monitoring
  | .aside act =>
    if (monitoring.trial.emitted? act).isNone then
      { monitoring with trial := monitoring.trial.perform act }
    else monitoring

def run (monitoring : Monitoring) (events : List Event) : Monitoring := events.foldl step monitoring

theorem run_append (monitoring : Monitoring) (first second : List Event) :
    monitoring.run (first ++ second) = (monitoring.run first).run second :=
  List.foldl_append

/-- What was recorded for the hop at a place. -/
def findingsAt (place : ℕ) (recorded : List (ℕ × Finding)) : List Finding :=
  (recorded.filter (·.1 = place)).map Prod.snd

/-- Each hop tells what came of its first probe and of those recorded since then. -/
structure Accounts (firsts : List Finding) (recorded : List (ℕ × Finding)) (hops : List Hop) :
    Prop where
  length_eq : hops.length = firsts.length
  tells : ∀ (place : ℕ) (first : Finding) (hop : Hop), firsts[place]? = some first →
    hops[place]? = some hop → hop.Tells (first :: findingsAt place recorded)

variable {firsts : List Finding} {recorded : List (ℕ × Finding)} {hops : List Hop}

theorem accounts_discovered (names : Names) (firsts : List Finding) :
    Accounts firsts [] (firsts.map fun finding => withName names (Hop.ofFinding finding)) where
  length_eq := List.length_map _
  tells := by
    intro place first hop hfirst hhop
    rw [List.getElem?_map, hfirst] at hhop
    obtain rfl := Option.some.inj hhop
    exact (Hop.tells_ofFinding first).withName names

theorem Accounts.record (h : Accounts firsts recorded hops) (place : ℕ) (finding : Finding) :
    Accounts firsts (recorded ++ [(place, finding)])
      (absorbAt Names.none place finding hops) where
  length_eq := (List.length_modify ..).trans h.length_eq
  tells := by
    intro other first hop hfirst hhop
    rw [absorbAt, List.getElem?_modify] at hhop
    obtain ⟨before, hbefore, rfl⟩ := Option.map_eq_some_iff.mp hhop
    have htells := h.tells other first before hfirst hbefore
    rw [findingsAt, List.filter_append, List.map_append, ← findingsAt]
    by_cases hplace : place = other
    · simpa [hplace] using htells.absorb Names.none finding
    · simpa [hplace] using htells

theorem Accounts.setName (h : Accounts firsts recorded hops) (place : ℕ) (fullName : String) :
    Accounts firsts recorded (hops.modify place (·.setName fullName)) where
  length_eq := (List.length_modify ..).trans h.length_eq
  tells := by
    intro other first hop hfirst hhop
    rw [List.getElem?_modify] at hhop
    obtain ⟨before, hbefore, rfl⟩ := Option.map_eq_some_iff.mp hhop
    have htells := h.tells other first before hfirst hbefore
    split
    · exact htells.setName fullName
    · exact htells

theorem findingsAt_isPrefix {early late : List (ℕ × Finding)} (hle : early <+: late) (place : ℕ) :
    findingsAt place early <+: findingsAt place late :=
  (hle.filter _).map _

/-- The first address of a hop is its address for good. -/
theorem Accounts.address_stays {early late : List (ℕ × Finding)} {before after : List Hop}
    (hbefore : Accounts firsts early before) (hafter : Accounts firsts late after)
    (hle : early <+: late) {place : ℕ} {address : Address}
    (haddress : (before[place]?).bind Hop.address = some address) :
    (after[place]?).bind Hop.address = some address := by
  obtain ⟨hop, hhop, haddress⟩ := Option.bind_eq_some_iff.mp haddress
  have hplace : place < firsts.length := by
    rw [← hbefore.length_eq]
    exact (List.getElem?_eq_some_iff.mp hhop).1
  have hplace' : place < after.length := by rwa [hafter.length_eq]
  have hfirst := List.getElem?_eq_getElem hplace
  have hlater := List.getElem?_eq_getElem hplace'
  rw [(hbefore.tells place _ _ hfirst hhop).address_eq] at haddress
  rw [hlater, Option.bind_some, (hafter.tells place _ _ hfirst hlater).address_eq]
  obtain ⟨rest, hrest⟩ := findingsAt_isPrefix hle place
  rw [← hrest, ← List.cons_append, List.findSome?_append, haddress]
  rfl

/-! ## The invariant -/

/-- What holds of a path that is watched, after some events. -/
structure Kept (firsts : List Finding) (events : List Event) (monitoring : Monitoring) : Prop where
  accounts : Accounts firsts monitoring.recorded monitoring.hops
  shown : ∀ snapshot ∈ monitoring.snapshots,
    Accounts firsts snapshot.recorded snapshot.hops ∧ snapshot.recorded <+: monitoring.recorded
  grows : monitoring.snapshots.Pairwise fun early late => early.recorded <+: late.recorded
  latest_eq : monitoring.trial.latest =
    monitoring.snapshots.getLast?.map fun snapshot => .path snapshot.hops
  watching_iff : monitoring.stage = .watching ↔ .stop ∉ events
  recorded_eq : monitoring.recorded = findings events
  last_eq : monitoring.stage = .over →
    monitoring.snapshots.getLast? = some ⟨monitoring.hops, monitoring.recorded⟩

variable {events : List Event} {monitoring : Monitoring}

theorem kept_begin (hops : List Hop) (trial : Trial) (h : Accounts firsts [] hops) :
    Kept firsts [] (begin hops trial) where
  accounts := h
  shown := by
    intro snapshot hsnapshot
    obtain rfl := List.mem_singleton.mp hsnapshot
    exact ⟨h, List.prefix_refl []⟩
  grows := List.pairwise_singleton ..
  latest_eq := trial.latest_emit _
  watching_iff := by simp [begin, publish]
  recorded_eq := rfl
  last_eq := nofun

/-- A path that was just discovered shows its first probes. -/
theorem kept_begin_discovered {State : Type} {probe : Prober State} {names : Names}
    {destination : Address} {maxHops : UInt8} {state rest : State} {hops : List Hop}
    (hdiscover : discover probe names destination maxHops state = (.ok hops, rest))
    (trial : Trial) :
    ∃ firsts : List Finding,
      (attemptsFrom probe hops.length 0 state).map settle = firsts.map .ok ∧
      (begin hops trial).Kept firsts [] := by
  obtain ⟨firsts, hfirsts, hhops⟩ := discoverFrom_ok hdiscover
  rw [List.nil_append] at hhops
  refine ⟨firsts, by rwa [hhops, List.length_map], ?_⟩
  exact kept_begin hops trial (hhops ▸ accounts_discovered names firsts)

theorem findings_snoc (events : List Event) (event : Event) :
    findings (events ++ [event]) =
      findings events ++ if .stop ∈ events then [] else event.finding?.toList := by
  rw [findings, findings]
  split
  case isTrue hstopped =>
    have hshort : ¬ (events.takeWhile (· ≠ .stop)).length = events.length := by
      intro hlength
      have hself := (List.takeWhile_prefix _).eq_of_length hlength
      simpa using List.takeWhile_eq_self_iff.mp hself _ hstopped
    rw [List.takeWhile_append, if_neg hshort, List.append_nil]
  case isFalse hwatching =>
    have hall : ∀ event ∈ events, decide (event ≠ .stop) = true := by
      intro event hevent
      simpa using ne_of_mem_of_not_mem hevent hwatching
    rw [List.takeWhile_append_of_pos hall, List.takeWhile_eq_self_iff.mpr hall,
      List.filterMap_append]
    cases event <;> rfl

/-- An event that does nothing. -/
theorem Kept.idle (h : monitoring.Kept firsts events) {event : Event}
    (hidle : .stop ∈ events ∨ event ≠ .stop ∧ event.finding? = none) :
    monitoring.Kept firsts (events ++ [event]) where
  accounts := h.accounts
  shown := h.shown
  grows := h.grows
  latest_eq := h.latest_eq
  watching_iff := by
    rw [h.watching_iff, List.mem_append, List.mem_singleton, not_or]
    rcases hidle with hstopped | ⟨hne, -⟩
    · simp [hstopped]
    · simp [hne.symm]
  recorded_eq := by
    rw [findings_snoc, h.recorded_eq]
    rcases hidle with hstopped | ⟨-, hnone⟩
    · rw [if_pos hstopped, List.append_nil]
    · rw [hnone, Option.toList_none, ite_self, List.append_nil]
  last_eq := h.last_eq

theorem Kept.publish (h : monitoring.Kept firsts events) :
    monitoring.publish.Kept firsts events where
  accounts := h.accounts
  shown := by
    intro snapshot hsnapshot
    rcases List.mem_append.mp hsnapshot with hbefore | hnow
    · exact h.shown snapshot hbefore
    · obtain rfl := List.mem_singleton.mp hnow
      exact ⟨h.accounts, List.prefix_refl _⟩
  grows := by
    refine List.pairwise_append.mpr ⟨h.grows, List.pairwise_singleton .., ?_⟩
    intro early hearly late hlate
    obtain rfl := List.mem_singleton.mp hlate
    exact (h.shown early hearly).2
  latest_eq := by
    rw [Monitoring.publish, List.getLast?_concat, Trial.latest_emit]
    rfl
  watching_iff := h.watching_iff
  recorded_eq := h.recorded_eq
  last_eq := fun _ => List.getLast?_concat

/-- Until the watching is over the hops may change, as long as they tell what was recorded. -/
theorem Kept.withHops (h : monitoring.Kept firsts events) (hstage : monitoring.stage = .watching)
    {hops : List Hop} (haccounts : Accounts firsts monitoring.recorded hops) :
    ({ monitoring with hops := hops } : Monitoring).Kept firsts events where
  accounts := haccounts
  shown := h.shown
  grows := h.grows
  latest_eq := h.latest_eq
  watching_iff := h.watching_iff
  recorded_eq := h.recorded_eq
  last_eq := by
    intro hover
    change monitoring.stage = .over at hover
    rw [hstage] at hover
    contradiction

theorem Kept.record (h : monitoring.Kept firsts events) (hstage : monitoring.stage = .watching)
    {place : ℕ} {attempt : Attempt} {finding : Finding} (hsettle : settle attempt = .ok finding) :
    ({ monitoring with
      hops := absorbAt Names.none place finding monitoring.hops
      recorded := monitoring.recorded ++ [(place, finding)] } : Monitoring).Kept firsts
        (events ++ [.record place attempt]) where
  accounts := h.accounts.record place finding
  shown := by
    intro snapshot hsnapshot
    obtain ⟨haccounts, hle⟩ := h.shown snapshot hsnapshot
    exact ⟨haccounts, hle.trans (List.prefix_append ..)⟩
  grows := h.grows
  latest_eq := h.latest_eq
  watching_iff := by simp [h.watching_iff]
  recorded_eq := by
    rw [findings_snoc, if_neg (h.watching_iff.mp hstage), h.recorded_eq]
    simp [Event.finding?, hsettle, Except.toOption]
  last_eq := by
    intro hover
    change monitoring.stage = .over at hover
    rw [hstage] at hover
    contradiction

/-- The workers are stopped, or they are already. -/
theorem Kept.stop (h : monitoring.Kept firsts events) {stage : Stage} (hstage : stage ≠ .watching)
    (hlast : stage = .over →
      monitoring.snapshots.getLast? = some ⟨monitoring.hops, monitoring.recorded⟩) :
    ({ monitoring with stage := stage } : Monitoring).Kept firsts (events ++ [.stop]) where
  accounts := h.accounts
  shown := h.shown
  grows := h.grows
  latest_eq := h.latest_eq
  watching_iff := by simp [hstage]
  recorded_eq := by
    rw [findings_snoc, h.recorded_eq]
    simp [Event.finding?]
  last_eq := hlast

theorem Kept.step (h : monitoring.Kept firsts events) (event : Event) :
    (monitoring.step event).Kept firsts (events ++ [event]) := by
  have hstopped : monitoring.stage ≠ .watching → .stop ∈ events := by
    rw [Ne, h.watching_iff, not_not]
    exact id
  cases event with
  | record place attempt =>
      rw [Monitoring.step]
      cases hsettle : settle attempt with
      | error failure =>
          refine h.idle (.inr ⟨by simp, ?_⟩)
          rw [Event.finding?, hsettle]
          rfl
      | ok finding =>
          dsimp only
          split
          case isTrue hstage => exact h.record hstage hsettle
          case isFalse hstage => exact h.idle (.inl (hstopped hstage))
  | name place fullName =>
      have hidle : monitoring.Kept firsts (events ++ [.name place fullName]) :=
        h.idle (.inr ⟨by simp, rfl⟩)
      rw [Monitoring.step]
      split
      case isTrue hstage => exact hidle.withHops hstage (h.accounts.setName place fullName)
      case isFalse => exact hidle
  | snapshot =>
      have hidle : monitoring.Kept firsts (events ++ [.snapshot]) := h.idle (.inr ⟨by simp, rfl⟩)
      rw [Monitoring.step]
      split
      case isTrue => exact hidle.publish
      case isFalse => exact hidle
  | stop =>
      rw [Monitoring.step]
      split
      case isTrue => exact h.stop (by simp) (by simp)
      case isFalse hstage => exact h.idle (.inl (hstopped hstage))
  | conclude =>
      have hidle : monitoring.Kept firsts (events ++ [.conclude]) := h.idle (.inr ⟨by simp, rfl⟩)
      rw [Monitoring.step]
      split
      case isTrue hstage =>
        have hpublish := hidle.publish
        refine { hpublish with watching_iff := ?_, last_eq := fun _ => List.getLast?_concat }
        simp [hstopped (by simp [hstage])]
      case isFalse => exact hidle
  | aside act =>
      have hidle : monitoring.Kept firsts (events ++ [.aside act]) := h.idle (.inr ⟨by simp, rfl⟩)
      rw [Monitoring.step]
      split
      case isTrue hsilent =>
        refine { hidle with latest_eq := ?_ }
        show (monitoring.trial.perform act).latest = _
        rw [Trial.latest_perform, Option.isNone_iff_eq_none.mp hsilent, Option.none_or]
        exact h.latest_eq
      case isFalse => exact hidle

theorem Kept.run (h : monitoring.Kept firsts events) (more : List Event) :
    (monitoring.run more).Kept firsts (events ++ more) := by
  induction more generalizing monitoring events with
  | nil => rwa [List.append_nil]
  | cons event more ih =>
      rw [← List.singleton_append, ← List.append_assoc]
      exact ih (h.step event)

/-! ## What an event leaves alone -/

/-- What is recorded for one hop changes no other. -/
theorem getElem?_hops_step_record (monitoring : Monitoring) {place other : ℕ}
    (hother : other ≠ place) (attempt : Attempt) :
    (monitoring.step (.record place attempt)).hops[other]? = monitoring.hops[other]? := by
  rw [Monitoring.step]
  split
  case h_1 => rfl
  case h_2 =>
    split
    · exact List.getElem?_modify_ne _ _ hother.symm
    · rfl

/-- When it is over nothing is recorded or published any more. -/
theorem run_of_over (hover : monitoring.stage = .over) (more : List Event) :
    ∃ trial : Trial, monitoring.run more = { monitoring with trial := trial } ∧
      trial.latest = monitoring.trial.latest := by
  induction more generalizing monitoring with
  | nil => exact ⟨monitoring.trial, rfl, rfl⟩
  | cons event more ih =>
      have hstep : ∃ trial : Trial, monitoring.step event = { monitoring with trial := trial } ∧
          trial.latest = monitoring.trial.latest := by
        have hwatching : ¬ monitoring.stage = .watching := by simp [hover]
        have hstopped : ¬ monitoring.stage = .stopped := by simp [hover]
        cases event with
        | record place attempt =>
            refine ⟨monitoring.trial, ?_, rfl⟩
            rw [Monitoring.step]
            split
            case h_1 => rfl
            case h_2 => exact if_neg hwatching
        | aside act =>
            rw [Monitoring.step]
            split
            case isTrue hsilent =>
              refine ⟨monitoring.trial.perform act, rfl, ?_⟩
              rw [Trial.latest_perform, Option.isNone_iff_eq_none.mp hsilent, Option.none_or]
            case isFalse => exact ⟨monitoring.trial, rfl, rfl⟩
        | name place fullName => exact ⟨monitoring.trial, if_neg hwatching, rfl⟩
        | snapshot | stop => exact ⟨monitoring.trial, if_neg hwatching, rfl⟩
        | conclude => exact ⟨monitoring.trial, if_neg hstopped, rfl⟩
      obtain ⟨trial, hnext, hlatest⟩ := hstep
      have hnextOver : (monitoring.step event).stage = .over := by rw [hnext, hover]
      obtain ⟨last, hrun, hsame⟩ := ih hnextOver
      refine ⟨last, ?_, ?_⟩
      · rw [Monitoring.run, List.foldl_cons, ← Monitoring.run, hrun, hnext]
      · rw [hsame, hnext, hlatest]

/-! ## Courses of the monitoring -/

theorem withName_none (hop : Hop) : withName Names.none hop = hop := by
  rw [withName]
  cases hop.address <;> rfl

/-- Naming a hop that adopts an address is a step of its own. -/
theorem absorb_names (names : Names) (finding : Finding) (hop : Hop) :
    hop.absorb names finding = hop.absorb Names.none finding ∨
      ∃ fullName, hop.absorb names finding = (hop.absorb Names.none finding).setName fullName := by
  cases finding with
  | lost => exact .inl rfl
  | answered answer roundTrip peer =>
      cases haddress : hop.address with
      | none =>
          rw [Hop.absorb, Hop.absorb, haddress]
          simp only [withName_none]
          rw [withName]
          split
          case h_1 fullName _ => exact .inr ⟨fullName, rfl⟩
          case h_2 => exact .inl rfl
      | some address =>
          rw [Hop.absorb, Hop.absorb, haddress]
          exact .inl rfl

theorem absorbAt_names (names : Names) (place : ℕ) (finding : Finding) (hops : List Hop) :
    absorbAt names place finding hops = absorbAt Names.none place finding hops ∨
      ∃ fullName, absorbAt names place finding hops =
        (absorbAt Names.none place finding hops).modify place (·.setName fullName) := by
  rw [absorbAt, absorbAt]
  cases hhop : hops[place]? with
  | none =>
      have hlength : hops.length ≤ place := List.getElem?_eq_none_iff.mp hhop
      exact .inl (by rw [List.modify_eq_self hlength, List.modify_eq_self hlength])
  | some hop =>
      have hmodify : ∀ change : Hop → Hop,
          hops.modify place change = hops.set place (change hop) := by
        intro change
        rw [List.modify_eq_set_getElem?, hhop]
        rfl
      rcases absorb_names names finding hop with hsame | ⟨fullName, hnamed⟩
      · exact .inl (by rw [hmodify, hmodify, hsame])
      · refine .inr ⟨fullName, ?_⟩
        rw [List.modify_modify_eq, hmodify, hmodify, hnamed]
        rfl

/-- A list of results, one after the other, is a course of the monitoring. -/
theorem exists_events_watch (monitoring : Monitoring) (names : Names)
    (results : List (ℕ × Attempt)) (hstage : monitoring.stage = .watching) :
    ∃ events : List Event, monitoring.run events =
      { monitoring with
        hops := (watch names results monitoring.hops).1
        recorded := monitoring.recorded ++ settledOf results } := by
  induction results generalizing monitoring with
  | nil => exact ⟨[], by rw [settledOf, List.append_nil]; rfl⟩
  | cons result rest ih =>
      obtain ⟨place, attempt⟩ := result
      cases hsettle : settle attempt with
      | error failure =>
          refine ⟨[], ?_⟩
          rw [watch, settledOf, hsettle]
          simp [run]
      | ok finding =>
          have hrecord : monitoring.step (.record place attempt) =
              { monitoring with
                hops := absorbAt Names.none place finding monitoring.hops
                recorded := monitoring.recorded ++ [(place, finding)] } := by
            rw [Monitoring.step, hsettle]
            exact if_pos hstage
          -- the hop is named in a step of its own, if at all
          have hnaming : ∃ events : List Event, monitoring.run events =
              { monitoring with
                hops := absorbAt names place finding monitoring.hops
                recorded := monitoring.recorded ++ [(place, finding)] } := by
            rcases absorbAt_names names place finding monitoring.hops with
                hsame | ⟨fullName, hnamed⟩
            · refine ⟨[.record place attempt], ?_⟩
              rw [hsame]
              exact hrecord
            · refine ⟨[.record place attempt, .name place fullName], ?_⟩
              rw [Monitoring.run, List.foldl_cons, hrecord, hnamed]
              exact if_pos hstage
          obtain ⟨events, hevents⟩ := hnaming
          have hnext : (monitoring.run events).stage = .watching := by rw [hevents, hstage]
          obtain ⟨later, hlater⟩ := ih _ hnext
          refine ⟨events ++ later, ?_⟩
          rw [run_append, hlater, hevents, watch, settledOf, hsettle]
          simp

/-- A path that is monitored by a script is published as it is discovered, and as it is in the
end; what is recorded in between is what the script held for each hop. -/
theorem exists_events_rounds (names : Names) {hops : List Hop} (hfew : hops.length ≤ 256)
    (script : Script) (trial : Trial) :
    ∃ events results,
      ((begin hops trial).run events).stage = .over ∧
      ((begin hops trial).run events).snapshots.map Snapshot.hops =
        [hops, (rounds names hops script).1] ∧
      ((begin hops trial).run events).recorded = settledOf results ∧
      ∀ place < hops.length, script.hasProbed (.ofNat place) = true →
        script.left (.ofNat place) =
          attemptsAt place results ++ (rounds names hops script).2.2.left (.ofNat place) := by
  have hplaces : ∀ place ∈ List.range hops.length, place < 256 := fun place hplace =>
    Nat.lt_of_lt_of_le (List.mem_range.mp hplace) hfew
  obtain ⟨results, hwatch, hdraws⟩ := exists_results_roundsFor names
    (script.size + hops.length + 1) 1 hplaces hops script
  obtain ⟨events, hevents⟩ := exists_events_watch (begin hops trial) names results rfl
  refine ⟨events ++ [.stop, .conclude], results, ?_, ?_, ?_, fun place hplace hprobed => ?_⟩
  · rw [run_append, hevents]
    rfl
  · have hlast : (watch names results hops).1 = (rounds names hops script).1 :=
      congrArg Prod.fst hwatch
    rw [run_append, hevents, ← hlast]
    rfl
  · rw [run_append, hevents]
    rfl
  · exact (hdraws place (Nat.lt_of_lt_of_le hplace hfew) hprobed).answers_eq

/-- The worker of a client that monitors a path by a script emits the snapshots of such a course. -/
theorem exists_events_work {names : Names} {destination : Address} {maxHops : UInt8}
    {script probed : Script} {found : List Hop}
    (hdiscover : discover Script.send names destination maxHops script = (.ok found, probed))
    (trial : Trial) :
    let work := Client.monitorWork names destination maxHops script
    ∃ events results,
      ((begin found trial).run events).stage = .over ∧
      (((begin found trial).run events).snapshots.map fun snapshot =>
        Client.Deed.emit (.path snapshot.hops)) = work.1.deeds ++ work.1.closing ∧
      ((begin found trial).run events).recorded = settledOf results ∧
      ∀ place < found.length, probed.left (.ofNat place) =
        attemptsAt place results ++ work.2.left (.ofNat place) := by
  intro work
  obtain ⟨events, results, hover, hsnapshots, hrecorded, hdrawn⟩ :=
    exists_events_rounds names (length_discover_le hdiscover) probed trial
  have hwork : work.1.deeds ++ work.1.closing =
      [found, (rounds names found probed).1].map (fun hops => .emit (.path hops)) ∧
      work.2 = (rounds names found probed).2.2 := by
    simp only [work, Client.monitorWork, hdiscover]
    split
    case h_1 hrounds => simp [hrounds]
    case h_2 hrounds => simp [hrounds]
  refine ⟨events, results, hover, ?_, hrecorded, fun place hplace => ?_⟩
  · rw [hwork.1, ← hsnapshots, List.map_map]
    rfl
  · rw [hwork.2]
    exact hdrawn place hplace (hasProbed_of_discoverFrom hdiscover (by simp) hplace)

/-! ## Every course -/

/-- What the snapshots of a path show, after some events. -/
structure Faithful (firsts : List Finding) (events : List Event) (monitoring : Monitoring) :
    Prop where
  /-- There are as many hops as there were first probes, each in its place. -/
  length_eq : ∀ snapshot ∈ monitoring.snapshots, snapshot.hops.length = firsts.length
  reports : ∀ snapshot ∈ monitoring.snapshots, ∀ (place : ℕ) (first : Finding) (hop : Hop),
    firsts[place]? = some first → snapshot.hops[place]? = some hop →
      hop.Reports (first :: findingsAt place snapshot.recorded)
  isPrefix : ∀ snapshot ∈ monitoring.snapshots, snapshot.recorded <+: findings events
  address_stays : monitoring.snapshots.Pairwise fun early late =>
    ∀ (place : ℕ) (address : Address),
      (early.hops[place]?).bind Hop.address = some address →
        (late.hops[place]?).bind Hop.address = some address
  latest_eq : monitoring.trial.latest =
    monitoring.snapshots.getLast?.map fun snapshot => .path snapshot.hops
  /-- The last snapshot shows everything that was recorded. -/
  last_eq : monitoring.stage = .over →
    monitoring.snapshots.getLast?.map Snapshot.recorded = some (findings events)

theorem Kept.faithful (h : monitoring.Kept firsts events)
    (hfew : ∀ place, (findingsAt place (findings events)).length + 1 < UInt32.size) :
    monitoring.Faithful firsts events where
  length_eq := fun snapshot hsnapshot => (h.shown snapshot hsnapshot).1.length_eq
  reports := by
    intro snapshot hsnapshot place first hop hfirst hhop
    obtain ⟨haccounts, hle⟩ := h.shown snapshot hsnapshot
    refine (haccounts.tells place first hop hfirst hhop).reports ?_
    have hlength := (findingsAt_isPrefix (h.recorded_eq ▸ hle) place).length_le
    exact Nat.lt_of_le_of_lt (Nat.succ_le_succ hlength) (hfew place)
  isPrefix := fun snapshot hsnapshot => h.recorded_eq ▸ (h.shown snapshot hsnapshot).2
  address_stays := by
    refine h.grows.imp_of_mem ?_
    intro early late hearly hlate hle place address haddress
    exact (h.shown early hearly).1.address_stays (h.shown late hlate).1 hle haddress
  latest_eq := h.latest_eq
  last_eq := by
    intro hover
    rw [h.last_eq hover, h.recorded_eq]
    rfl

end Monitoring

/-- Every snapshot of a path that was discovered shows of each hop what came of its probes, the
discovery's included, and the last one shows all that was recorded.  What a script makes of the path
is one of the courses of which this holds: what is recorded of a hop is what the script held for it,
in its order and up to a fatal failure.  The worker that monitors a path emits the snapshots of such
a course and nothing else. -/
theorem monitoring_faithful {State : Type} {probe : Prober State} {names : Names}
    {destination : Address} {maxHops : UInt8} {state rest : State} {hops : List Hop}
    (hdiscover : discover probe names destination maxHops state = (.ok hops, rest))
    (trial : Trial) :
    (∃ firsts : List Finding,
      (attemptsFrom probe hops.length 0 state).map settle = firsts.map .ok ∧
      ∀ (events : List Monitoring.Event) (monitoring : Monitoring),
        (Monitoring.begin hops trial).run events = monitoring →
        ((∀ place,
            (Monitoring.findingsAt place (Monitoring.findings events)).length + 1 < UInt32.size) →
          monitoring.Faithful firsts events) ∧
        (∀ (place : ℕ) (attempt : Attempt) (other : ℕ), other ≠ place →
          (monitoring.step (.record place attempt)).hops[other]? = monitoring.hops[other]?) ∧
        (monitoring.stage = .over → ∀ more,
          (monitoring.run more).hops = monitoring.hops ∧
            (monitoring.run more).snapshots = monitoring.snapshots ∧
            (monitoring.run more).trial.latest = monitoring.trial.latest)) ∧
    (∀ script : Script, ∃ events results,
      ((Monitoring.begin hops trial).run events).stage = .over ∧
      ((Monitoring.begin hops trial).run events).snapshots.map Snapshot.hops =
        [hops, (rounds names hops script).1] ∧
      Monitoring.findings events = settledOf results ∧
      ∀ place < hops.length, script.hasProbed (.ofNat place) = true →
        script.left (.ofNat place) =
          attemptsAt place results ++ (rounds names hops script).2.2.left (.ofNat place)) ∧
    ∀ (script probed : Script) (found : List Hop),
      discover Script.send names destination maxHops script = (.ok found, probed) →
      let work := Client.monitorWork names destination maxHops script
      ∃ events results,
        ((Monitoring.begin found trial).run events).stage = .over ∧
        (((Monitoring.begin found trial).run events).snapshots.map fun snapshot =>
          Client.Deed.emit (.path snapshot.hops)) = work.1.deeds ++ work.1.closing ∧
        Monitoring.findings events = settledOf results ∧
        ∀ place < found.length, probed.left (.ofNat place) =
          attemptsAt place results ++ work.2.left (.ofNat place) := by
  obtain ⟨firsts, hfirsts, hbegin⟩ := Monitoring.kept_begin_discovered hdiscover trial
  refine ⟨⟨firsts, hfirsts, ?_⟩, fun script => ?_, fun script probed found hfound => ?_⟩
  · rintro events monitoring rfl
    refine ⟨(hbegin.run events).faithful, ?_, ?_⟩
    · intro place attempt other hother
      exact Monitoring.getElem?_hops_step_record _ hother attempt
    · intro hover more
      obtain ⟨last, hrun, hlatest⟩ := Monitoring.run_of_over hover more
      rw [hrun]
      exact ⟨rfl, rfl, hlatest⟩
  · obtain ⟨events, results, hover, hsnapshots, hrecorded, hdrawn⟩ :=
      Monitoring.exists_events_rounds names (length_discover_le hdiscover) script trial
    exact ⟨events, results, hover, hsnapshots,
      (hbegin.run events).recorded_eq.symm.trans hrecorded, hdrawn⟩
  · obtain ⟨_, -, hfoundBegin⟩ := Monitoring.kept_begin_discovered hfound trial
    obtain ⟨events, results, hover, hsnapshots, hrecorded, hdrawn⟩ :=
      Monitoring.exists_events_work hfound trial
    exact ⟨events, results, hover, hsnapshots,
      (hfoundBegin.run events).recorded_eq.symm.trans hrecorded, hdrawn⟩

/-- A hop that was silent when it was discovered takes the address of the one who answers first, and
what another answers is lost.  The worker that is given two more answers records both. -/
theorem monitoring_faithful_adopted :
    let router := Address.v4 ⟨10, 0, 0, 1⟩
    let stranger := Address.v4 ⟨10, 0, 0, 2⟩
    let destination := Address.v4 ⟨192, 0, 2, 7⟩
    let script : Script := { answers :=
      [(0, [.ok .lost]), (1, [.ok (.answered .reply (.ofSeconds 1) destination)])] }
    let hops := [Hop.ofFinding .lost, Hop.ofFinding (.answered .reply (.ofSeconds 1) destination)]
    let events : List Monitoring.Event :=
      [.record 0 (.ok (.answered .timeExceeded (.ofSeconds 1) router)), .snapshot,
        .record 0 (.ok (.answered .timeExceeded (.ofSeconds 1) stranger)), .stop,
        .record 0 (.ok .lost), .conclude]
    let monitoring := (Monitoring.begin hops default).run events
    (discover Script.send Names.none destination 2 script).1 = .ok hops ∧
      (∀ place,
        (Monitoring.findingsAt place (Monitoring.findings events)).length + 1 < UInt32.size) ∧
      (∃ firsts, monitoring.Faithful firsts events) ∧
      (∃ events results, Monitoring.findings events = settledOf results ∧
        attemptsAt 0 results = [.ok (.answered .timeExceeded (.ofSeconds 1) router),
          .ok (.answered .timeExceeded (.ofSeconds 1) stranger)] ∧
        (((Monitoring.begin hops default).run events).snapshots.map fun snapshot =>
          snapshot.hops.map Hop.received) = [[0, 1], [1, 1]]) ∧
      (monitoring.hops.map fun hop => (hop.address, hop.sent, hop.received, hop.lost)) =
        [(some router, 3, 1, 2), (some destination, 1, 1, 0)] := by
  intro router stranger destination script hops events monitoring
  have hdiscover : discover Script.send Names.none destination 2 script =
      (.ok hops, (discover Script.send Names.none destination 2 script).2) := by
    refine Prod.ext ?_ rfl
    decide +kernel
  have hfew : ∀ place,
      (Monitoring.findingsAt place (Monitoring.findings events)).length + 1 < UInt32.size := by
    intro place
    have hle : (Monitoring.findingsAt place (Monitoring.findings events)).length ≤ 2 := by
      rw [Monitoring.findingsAt, List.length_map]
      exact List.length_filter_le ..
    exact Nat.lt_of_le_of_lt (Nat.succ_le_succ hle) (by decide)
  obtain ⟨⟨firsts, -, hcourses⟩, -, hworks⟩ := monitoring_faithful hdiscover default
  let answering : Script := { answers :=
    [(0, [.ok .lost, .ok (.answered .timeExceeded (.ofSeconds 1) router),
        .ok (.answered .timeExceeded (.ofSeconds 1) stranger)]),
      (1, [.ok (.answered .reply (.ofSeconds 1) destination)])] }
  let probed := (discover Script.send Names.none destination 2 answering).2
  have hfound : discover Script.send Names.none destination 2 answering = (.ok hops, probed) := by
    refine Prod.ext ?_ rfl
    decide +kernel
  obtain ⟨watched, results, -, hemitted, hrecorded, hdrawn⟩ := hworks answering probed hops hfound
  refine ⟨congrArg Prod.fst hdiscover, hfew, ⟨firsts, (hcourses events monitoring rfl).1 hfew⟩,
    ⟨watched, results, hrecorded, ?_, ?_⟩, ?_⟩
  · have hzero := hdrawn 0 (by decide)
    have hleft : (Client.monitorWork Names.none destination 2 answering).2.left (.ofNat 0) =
        [] := by decide +kernel
    rw [hleft, List.append_nil] at hzero
    rw [← hzero]
    decide +kernel
  · have hreceived := congrArg (List.map fun deed : Client.Deed =>
      match deed with
      | .emit ⟨_, _, .path hops⟩ => hops.map Hop.received
      | _ => []) hemitted
    rw [List.map_map] at hreceived
    exact hreceived.trans (by decide +kernel)
  · decide +kernel

end LinkMeter.Path
