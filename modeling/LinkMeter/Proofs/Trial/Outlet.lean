import LinkMeter.Proofs.Trial.Emission
import LinkMeter.Trial.Crew
import Mathlib.Data.List.Induction

/-!
# The outlet of a trial

`Outlet` is a trial with a record of its emissions, of what was received from its
queue, and of the answers that those got who finished it or asked for the queue.
Every emission is noted with the number of outcomes that were queued then.

What was received and what is queued are the emissions that found room, in their
order (`Outlet.Faithful`).  That holds after any acts as long as nobody closes the
queue.

A reporter receives one outcome after the other, until its end has come and the
queue is empty (`Reporting`).  Whoever emits may do so between any two of its
steps.  When it leaves it has passed on all that was ever queued
(`Reporting.Faithful`), and once its end has come it does leave
(`Reporting.run_turnEvents`).
-/

namespace LinkMeter

open Pacing (Instant)

namespace Trial

variable (trial : Trial)

/-- The outcomes that enter the queue of a trial by an act. -/
def entering (act : Act) : List Outcome :=
  if trial.isClosed || trial.queue.length ≥ queueCapacity then [] else (trial.emitted? act).toList

theorem queue_enqueue_append (outcome : Outcome) :
    (trial.enqueue outcome).queue =
      trial.queue ++
        if trial.isClosed || trial.queue.length ≥ queueCapacity then [] else [outcome] := by
  rw [enqueue]
  split
  · rw [List.append_nil]
  · rfl

theorem entering_of_silent {act : Act} (hsilent : trial.emitted? act = none) :
    trial.entering act = [] := by
  rw [entering, hsilent, Option.toList_none, ite_self]

theorem queue_emit (outcome : Outcome) :
    (trial.emit outcome).queue = trial.queue ++ trial.entering (.emit outcome) :=
  queue_enqueue_append { trial with latest := some outcome } outcome

theorem queue_add (sample : Outcome) :
    (trial.add sample).queue = trial.queue ++ trial.entering (.add sample) := by
  cases hreducer : trial.reducer with
  | none =>
      have hentering : trial.entering (.add sample) = trial.entering (.emit sample) := by
        simp [entering, emitted?, hreducer]
      rw [hentering, add, hreducer]
      exact trial.queue_emit sample
  | some reducer =>
      have hsilent : trial.emitted? (.add sample) = none := by simp [emitted?, hreducer]
      rw [trial.entering_of_silent hsilent, List.append_nil, add, hreducer]

/-- A publication emits an outcome, or it changes nothing but the buffer. -/
theorem publish_cases (now : Instant) :
    (∃ outcome, (trial.publish now).1 = .emitted outcome ∧
      (trial.publish now).2 = { trial with lastPublish := now, buffered := [] }.emit outcome) ∨
    ((trial.publish now).1.outcome? = none ∧
      ((trial.publish now).2 = trial ∨
        (trial.publish now).2 = { trial with lastPublish := now, buffered := [] })) := by
  rw [publish]
  split
  case h_1 => exact .inr ⟨rfl, .inl rfl⟩
  case h_2 =>
    dsimp only
    split
    · exact .inr ⟨rfl, .inr rfl⟩
    · split
      case h_1 outcome _ => exact .inl ⟨outcome, rfl, rfl⟩
      case h_2 => exact .inr ⟨rfl, .inr rfl⟩

theorem queue_publish_append (now : Instant) :
    (trial.publish now).2.queue = trial.queue ++ trial.entering (.publish now) := by
  rcases trial.publish_cases now with ⟨outcome, hanswer, htrial⟩ | ⟨hanswer, htrial⟩
  · have hentering : trial.entering (.publish now) = trial.entering (.emit outcome) := by
      rw [entering, entering, emitted?, emitted?, hanswer, Publication.outcome?]
    rw [htrial, hentering]
    exact queue_emit { trial with lastPublish := now, buffered := [] } outcome
  · have hsilent : trial.emitted? (.publish now) = none := hanswer
    rw [trial.entering_of_silent hsilent, List.append_nil]
    rcases htrial with htrial | htrial <;> rw [htrial]

/-- Closing the queue apart, what an act receives was at the head of the queue, and what it emits
comes to its end. -/
theorem received_append_queue {act : Act} (hact : act ≠ .close) :
    trial.received act ++ (trial.perform act).queue = trial.queue ++ trial.entering act := by
  cases act with
  | add sample => exact trial.queue_add sample
  | emit outcome => exact trial.queue_emit outcome
  | publish now => exact trial.queue_publish_append now
  | receive =>
      rw [trial.entering_of_silent rfl, List.append_nil]
      exact trial.receive_spec.1
  | close => exact absurd rfl hact
  | drain => rw [trial.entering_of_silent rfl, received, perform, drain]
  | claim | finish | touch now | setDormant | tick now =>
      rw [trial.entering_of_silent rfl, List.append_nil]
      rfl

theorem queue_eq_nil_of_receive (hreceive : trial.receive.1 = none) : trial.queue = [] := by
  rw [receive] at hreceive
  split at hreceive
  case h_1 hqueue => exact hqueue
  case h_2 => contradiction

/-- The latest outcome is the one that was emitted last, whether it was queued or not. -/
theorem latest_perform (act : Act) :
    (trial.perform act).latest = (trial.emitted? act).or trial.latest := by
  cases act with
  | add sample =>
      rw [perform, add, emitted?]
      split
      case h_1 hreducer => simp [hreducer]
      case h_2 hreducer => simp [hreducer]
  | emit outcome => exact latest_emit trial outcome
  | publish now => exact latest_publish trial now
  | receive =>
      rw [perform, receive]
      split <;> rfl
  | claim | drain | close | finish | touch now | setDormant | tick now => rfl

theorem length_queue_perform_le {act : Act} (hact : act ≠ .close)
    (hle : trial.queue.length ≤ queueCapacity) :
    (trial.perform act).queue.length ≤ queueCapacity := by
  have hlengths := congrArg List.length (trial.received_append_queue hact)
  rw [List.length_append, List.length_append, entering] at hlengths
  split at hlengths
  case isTrue =>
    rw [List.length_nil] at hlengths
    omega
  case isFalse hroom =>
    rw [Bool.or_eq_true, decide_eq_true_eq] at hroom
    have hone : (trial.emitted? act).toList.length ≤ 1 := by cases trial.emitted? act <;> simp
    omega

theorem isDone_perform (act : Act) :
    (trial.perform act).isDone = (trial.isDone || decide (act = .finish)) := by
  by_cases hact : act = .finish
  · subst hact
    simp [perform, finish]
  · rw [(trial.steady_perform hact).isDone_eq, decide_eq_false hact, Bool.or_false]

theorem isActive_perform (act : Act) :
    (trial.perform act).isActive = (trial.isActive && decide (act ≠ .finish)) := by
  by_cases hact : act = .finish
  · subst hact
    simp [perform, finish]
  · rw [(trial.steady_perform hact).isActive_eq, decide_eq_true hact, Bool.and_true]

theorem isClaimed_perform (act : Act) :
    (trial.perform act).isClaimed = (trial.isClaimed || decide (act = .claim)) := by
  have hemit : ∀ (trial : Trial) (outcome : Outcome),
      (trial.emit outcome).isClaimed = trial.isClaimed := by
    intro trial outcome
    rw [emit, enqueue_eq]
  cases act with
  | add sample =>
      rw [perform, add]
      split
      · simp [hemit]
      · simp
  | emit outcome => simp [perform, hemit]
  | publish now =>
      rcases trial.publish_cases now with ⟨outcome, -, htrial⟩ | ⟨-, htrial | htrial⟩
      all_goals simp [perform, htrial, hemit]
  | claim => simp [perform, claim]
  | receive =>
      rw [perform, receive]
      split <;> simp
  | drain | close | finish | touch now | setDormant | tick now =>
      simp [perform, drain, close, finish, touch, setDormant, tick]

theorem isClosed_perform {act : Act} (hact : act ≠ .close) :
    (trial.perform act).isClosed = trial.isClosed :=
  (trial.passes_perform hact).isClosed_eq

theorem reducer_perform (act : Act) : (trial.perform act).reducer = trial.reducer := by
  by_cases hact : act = .finish
  · rw [hact]
    rfl
  · exact (trial.steady_perform hact).reducer_eq

/-- Nothing gets into the buffer of a trial that cannot reduce it. -/
theorem buffered_perform_of_direct (hdirect : trial.reducer = none) (act : Act) :
    (trial.perform act).buffered = trial.buffered := by
  cases act with
  | add sample =>
      rw [perform, add, hdirect]
      exact buffered_emit trial sample
  | emit outcome => exact buffered_emit trial outcome
  | publish now => rw [perform, publish, hdirect]
  | receive => exact trial.receive_spec.2.1
  | claim | drain | close | finish | touch now | setDormant | tick now => rfl

end Trial

/-! ## A record of emissions -/

/-- A trial with a record of what came out of it. -/
structure Outlet where
  trial : Trial
  /-- What was emitted, each with the number of outcomes that were queued then. -/
  emissions : List (Outcome × ℕ) := []
  received : List Outcome := []
  /-- What those were told who asked for the queue. -/
  claims : List Bool := []
  /-- What those were told who finished the trial. -/
  finishes : List Bool := []
  deriving DecidableEq

namespace Outlet

def step (outlet : Outlet) (act : Trial.Act) : Outlet where
  trial := outlet.trial.perform act
  emissions := outlet.emissions ++
    (outlet.trial.emitted? act).toList.map fun outcome => (outcome, outlet.trial.queue.length)
  received := outlet.received ++ outlet.trial.received act
  claims := outlet.claims ++ if act = .claim then [outlet.trial.claim.1] else []
  finishes := outlet.finishes ++ if act = .finish then [outlet.trial.finish.1] else []

def run (outlet : Outlet) (acts : List Trial.Act) : Outlet := acts.foldl step outlet

theorem run_append_singleton (outlet : Outlet) (acts : List Trial.Act) (act : Trial.Act) :
    outlet.run (acts ++ [act]) = (outlet.run acts).step act := by
  rw [run, run, List.foldl_append, List.foldl_cons, List.foldl_nil]

/-- The emissions that did not meet a full queue. -/
def admitted (outlet : Outlet) : List Outcome :=
  (outlet.emissions.filter fun emission => emission.2 < Trial.queueCapacity).map Prod.fst

/-- The answers to a question that is answered with yes once. -/
def onceYes (times : ℕ) : List Bool := (List.range times).map (· == 0)

/-- What the record of a trial says after some acts. -/
structure Faithful (acts : List Trial.Act) (outlet : Outlet) : Prop where
  /-- What was emitted last is the latest, queued or not. -/
  latest_eq : outlet.trial.latest = (outlet.emissions.map Prod.fst).getLast?
  length_queue_le : outlet.trial.queue.length ≤ Trial.queueCapacity
  /-- What was received, and what still is to be, is what met a queue with room, in order. -/
  received_append : outlet.received ++ outlet.trial.queue = outlet.admitted
  /-- Emissions that are not admitted met a queue of just its capacity. -/
  crowd_le : ∀ emission ∈ outlet.emissions, emission.2 ≤ Trial.queueCapacity
  isClosed_eq : outlet.trial.isClosed = false
  isClaimed_iff : outlet.trial.isClaimed = true ↔ .claim ∈ acts
  claims_eq : outlet.claims = onceYes (acts.count .claim)
  finishes_eq : outlet.finishes = onceYes (acts.count .finish)
  isDone_iff : outlet.trial.isDone = true ↔ .finish ∈ acts
  isActive_eq : outlet.trial.isActive = !outlet.trial.isDone
  /-- Without a reducer nothing is buffered, and publishing does nothing. -/
  direct : outlet.trial.reducer = none → outlet.trial.buffered = [] ∧
    ∀ now, outlet.trial.publish now = (.nothing, outlet.trial)

/-- One more who asks is told yes if nobody asked before. -/
theorem onceYes_succ {act : Trial.Act} {acts : List Trial.Act} {isAnswered : Bool}
    (hanswered : isAnswered = true ↔ act ∈ acts) (next : Trial.Act) :
    onceYes ((acts ++ [next]).count act) =
      onceYes (acts.count act) ++ if next = act then [!isAnswered] else [] := by
  rw [List.count_append, List.count_singleton]
  by_cases hnext : next = act
  · have hfirst : (acts.count act == 0) = !isAnswered := by
      rw [Bool.eq_iff_iff, beq_iff_eq, List.count_eq_zero, ← hanswered, Bool.not_eq_true,
        Bool.not_eq_true']
    rw [if_pos hnext, if_pos (by simp [hnext]), onceYes, List.range_succ, List.map_append,
      List.map_singleton, hfirst]
    rfl
  · rw [if_neg hnext, if_neg (by simp [hnext]), List.append_nil, Nat.add_zero]

variable {acts : List Trial.Act} {outlet : Outlet} {act : Trial.Act}

theorem admitted_step (hopen : outlet.trial.isClosed = false) :
    (outlet.step act).admitted = outlet.admitted ++ outlet.trial.entering act := by
  rw [admitted, admitted, step, List.filter_append, List.map_append, Trial.entering, hopen,
    Bool.false_or]
  cases outlet.trial.emitted? act with
  | none => simp
  | some outcome =>
      by_cases hroom : outlet.trial.queue.length < Trial.queueCapacity
      · simp [hroom]
      · simp [hroom, Nat.le_of_not_lt hroom]

theorem Faithful.step (h : outlet.Faithful acts) (hact : act ≠ .close) :
    (outlet.step act).Faithful (acts ++ [act]) where
  latest_eq := by
    show (outlet.trial.perform act).latest = _
    rw [outlet.trial.latest_perform, h.latest_eq, Outlet.step, List.map_append,
      List.getLast?_append]
    cases outlet.trial.emitted? act <;> rfl
  length_queue_le := outlet.trial.length_queue_perform_le hact h.length_queue_le
  received_append := by
    rw [admitted_step h.isClosed_eq, ← h.received_append, List.append_assoc,
      ← outlet.trial.received_append_queue hact, ← List.append_assoc]
    rfl
  crowd_le := by
    intro emission hemission
    rcases List.mem_append.mp hemission with hbefore | hnow
    · exact h.crowd_le emission hbefore
    · obtain ⟨outcome, -, rfl⟩ := List.mem_map.mp hnow
      exact h.length_queue_le
  isClosed_eq := (outlet.trial.isClosed_perform hact).trans h.isClosed_eq
  isClaimed_iff := by
    show (outlet.trial.perform act).isClaimed = true ↔ _
    rw [outlet.trial.isClaimed_perform, Bool.or_eq_true, h.isClaimed_iff, decide_eq_true_iff,
      List.mem_append, List.mem_singleton, @eq_comm _ act]
  claims_eq := by
    rw [onceYes_succ h.isClaimed_iff, ← h.claims_eq]
    rfl
  finishes_eq := by
    rw [onceYes_succ h.isDone_iff, ← h.finishes_eq]
    rfl
  isDone_iff := by
    show (outlet.trial.perform act).isDone = true ↔ _
    rw [outlet.trial.isDone_perform, Bool.or_eq_true, h.isDone_iff, decide_eq_true_iff,
      List.mem_append, List.mem_singleton, @eq_comm _ act]
  isActive_eq := by
    show (outlet.trial.perform act).isActive = !(outlet.trial.perform act).isDone
    rw [outlet.trial.isActive_perform, outlet.trial.isDone_perform, h.isActive_eq, Bool.not_or,
      decide_not]
  direct := by
    intro hdirect
    change (outlet.trial.perform act).reducer = none at hdirect
    have hbefore : outlet.trial.reducer = none := by
      rwa [outlet.trial.reducer_perform] at hdirect
    refine ⟨?_, fun now => ?_⟩
    · exact (outlet.trial.buffered_perform_of_direct hbefore act).trans (h.direct hbefore).1
    · show (outlet.trial.perform act).publish now = _
      rw [Trial.publish, hdirect]
      rfl

/-- Whatever is done to a new trial, unless its queue is closed. -/
theorem faithful_run_start (now : Instant) (measurement : Measurement) (peer : Endpoint)
    (request : Request) (reducer : Option Reducer) (interval : ℕ) (hacts : .close ∉ acts) :
    (Outlet.run { trial := Trial.start now measurement peer request reducer interval }
      acts).Faithful acts := by
  induction acts using List.reverseRecOn with
  | nil =>
      refine ⟨rfl, Nat.zero_le _, rfl, by simp [run], rfl, by simp [run, Trial.start], rfl, rfl,
        by simp [run, Trial.start], rfl, ?_⟩
      intro hdirect
      refine ⟨rfl, fun now => ?_⟩
      rw [Trial.publish, hdirect]
  | append_singleton acts act ih =>
      rw [List.mem_append, List.mem_singleton, not_or] at hacts
      rw [run_append_singleton]
      exact (ih hacts.1).step (Ne.symm hacts.2)

end Outlet

/-! ## A reporter among producers -/

namespace Reporting

/-- How far a reporter has come. -/
inductive Stage where
  | unstarted
  /-- It waits for an outcome and for its end. -/
  | waiting
  /-- It has noticed its end and passes on what is left. -/
  | draining
  | gone
  deriving DecidableEq

/-- What can happen next to a trial and to its reporter. -/
inductive Event where
  /-- Somebody else does something to the trial. -/
  | produce (act : Trial.Act)
  | start
  /-- What ends the reporter happens, whether it notices or not. -/
  | conclude
  /-- The reporter receives an outcome while it waits. -/
  | take
  /-- The reporter notices its end. -/
  | turn
  /-- The reporter receives an outcome that is left, or leaves. -/
  | drain
  deriving DecidableEq

/-- Whether an act is one of those that only the holder of the queue can do. -/
def consumes : Trial.Act → Bool
  | .receive | .drain | .close => true
  | _ => false

end Reporting

/-- A trial with its reporter. -/
structure Reporting where
  trial : Trial
  stage : Reporting.Stage := .unstarted
  /-- Whether what ends the reporter has happened. -/
  isOver : Bool := false
  reported : List Outcome := []
  /-- The outcomes that were queued before that. -/
  queuedBefore : List Outcome := []
  /-- The outcomes that were queued since then. -/
  queuedAfter : List Outcome := []
  deriving DecidableEq

namespace Reporting

/-- Something is done to the trial, and what enters the queue is noted. -/
def produce (reporting : Reporting) (act : Trial.Act) : Reporting :=
  { reporting with
    trial := reporting.trial.perform act
    queuedBefore := reporting.queuedBefore ++
      if reporting.isOver then [] else reporting.trial.entering act
    queuedAfter := reporting.queuedAfter ++
      if reporting.isOver then reporting.trial.entering act else [] }

/-- The reporter passes on an outcome that it receives. -/
def passOn (reporting : Reporting) (outcome : Outcome) : Reporting :=
  { reporting with
    trial := reporting.trial.receive.2
    reported := reporting.reported ++ [outcome] }

def step (reporting : Reporting) : Event → Reporting
  | .produce act => if consumes act then reporting else reporting.produce act
  | .start =>
    if reporting.stage = .unstarted ∧ reporting.trial.claim.1 = true then
      { reporting with trial := reporting.trial.claim.2, stage := .waiting }
    else reporting
  | .conclude => { reporting with isOver := true }
  | .take =>
    match reporting.stage, reporting.trial.receive.1 with
    | .waiting, some outcome => reporting.passOn outcome
    | _, _ => reporting
  | .turn =>
    if reporting.stage = .waiting ∧ reporting.isOver = true then
      { reporting with stage := .draining }
    else reporting
  | .drain =>
    match reporting.stage, reporting.trial.receive.1 with
    | .draining, some outcome => reporting.passOn outcome
    | .draining, none => { reporting with trial := reporting.trial.close, stage := .gone }
    | _, _ => reporting

def run (reporting : Reporting) (events : List Event) : Reporting := events.foldl step reporting

/-- Every outcome that was queued is passed on or still queued, and none is left when the reporter
has gone. -/
structure Faithful (reporting : Reporting) : Prop where
  waiting_eq : reporting.stage ≠ .gone →
    reporting.reported ++ reporting.trial.queue = reporting.queuedBefore ++ reporting.queuedAfter
  gone_eq : reporting.stage = .gone →
    reporting.reported = reporting.queuedBefore ++ reporting.queuedAfter
  isClosed_iff : reporting.trial.isClosed = true ↔ reporting.stage = .gone
  /-- The reporter does not leave before its end has come. -/
  isOver_of_late : reporting.stage = .draining ∨ reporting.stage = .gone → reporting.isOver = true
  queuedAfter_eq : reporting.isOver = false → reporting.queuedAfter = []

variable {reporting : Reporting}

theorem append_entering (h : reporting.Faithful) (act : Trial.Act) :
    (reporting.produce act).queuedBefore ++ (reporting.produce act).queuedAfter =
      reporting.queuedBefore ++ reporting.queuedAfter ++ reporting.trial.entering act := by
  rw [produce]
  cases hover : reporting.isOver with
  | false => simp [h.queuedAfter_eq hover]
  | true => simp

theorem received_of_not_consumes {act : Trial.Act} (hact : consumes act = false) (trial : Trial) :
    trial.received act = [] := by
  cases act with
  | receive | drain => contradiction
  | _ => rfl

theorem Faithful.produce (h : reporting.Faithful) {act : Trial.Act} (hact : consumes act = false) :
    (reporting.produce act).Faithful := by
  have hclose : act ≠ .close := by
    rintro rfl
    contradiction
  have hqueue : (reporting.trial.perform act).queue =
      reporting.trial.queue ++ reporting.trial.entering act := by
    rw [← reporting.trial.received_append_queue hclose, received_of_not_consumes hact,
      List.nil_append]
  refine ⟨fun hstage => ?_, fun hstage => ?_, ?_, h.isOver_of_late, fun hover => ?_⟩
  · rw [append_entering h, ← h.waiting_eq hstage, List.append_assoc, ← hqueue]
    rfl
  · -- nothing enters a closed queue
    have hclosed : reporting.trial.isClosed = true := h.isClosed_iff.mpr hstage
    have hnone : reporting.trial.entering act = [] := by
      rw [Trial.entering, hclosed, Bool.true_or, if_pos rfl]
    rw [append_entering h, hnone, List.append_nil]
    exact h.gone_eq hstage
  · show (reporting.trial.perform act).isClosed = true ↔ reporting.stage = .gone
    rw [reporting.trial.isClosed_perform hclose, h.isClosed_iff]
  · change reporting.isOver = false at hover
    show reporting.queuedAfter ++ _ = []
    rw [h.queuedAfter_eq hover, hover]
    rfl

theorem Faithful.passOn (h : reporting.Faithful) {outcome : Outcome}
    (hstage : reporting.stage ≠ .gone) (hreceive : reporting.trial.receive.1 = some outcome) :
    (reporting.passOn outcome).Faithful := by
  obtain ⟨hqueue, -, -, hclosed⟩ := reporting.trial.receive_spec
  refine ⟨fun _ => ?_, fun hgone => absurd hgone hstage, ?_, h.isOver_of_late, h.queuedAfter_eq⟩
  · refine Eq.trans ?_ (h.waiting_eq hstage)
    rw [← hqueue, hreceive, ← List.append_assoc]
    rfl
  · show reporting.trial.receive.2.isClosed = true ↔ reporting.stage = .gone
    rw [hclosed, h.isClosed_iff]

theorem Faithful.step (h : reporting.Faithful) (event : Event) :
    (reporting.step event).Faithful := by
  cases event with
  | produce act =>
      rw [Reporting.step]
      cases hact : consumes act with
      | true => exact h
      | false => exact h.produce hact
  | start =>
      rw [Reporting.step]
      split
      case isTrue hstart =>
        have hstage : reporting.stage ≠ .gone := by simp [hstart.1]
        refine ⟨fun _ => h.waiting_eq hstage, nofun, ?_, by simp, h.queuedAfter_eq⟩
        show reporting.trial.isClosed = true ↔ _
        rw [h.isClosed_iff]
        simp [hstage]
      case isFalse => exact h
  | conclude => exact ⟨h.waiting_eq, h.gone_eq, h.isClosed_iff, fun _ => rfl, nofun⟩
  | take =>
      rw [Reporting.step]
      split
      case h_1 hstage hreceive => exact h.passOn (by simp [hstage]) hreceive
      case h_2 => exact h
  | turn =>
      rw [Reporting.step]
      split
      case isTrue hturn =>
        have hstage : reporting.stage ≠ .gone := by simp [hturn.1]
        refine ⟨fun _ => h.waiting_eq hstage, nofun, ?_, fun _ => hturn.2, h.queuedAfter_eq⟩
        rw [h.isClosed_iff]
        simp [hstage]
      case isFalse => exact h
  | drain =>
      rw [Reporting.step]
      split
      case h_1 hstage hreceive => exact h.passOn (by simp [hstage]) hreceive
      case h_2 hstage hreceive =>
        -- the queue is empty, so everything was passed on
        have hempty : reporting.trial.queue = [] :=
          reporting.trial.queue_eq_nil_of_receive hreceive
        have hall := h.waiting_eq (by simp [hstage])
        rw [hempty, List.append_nil] at hall
        exact ⟨fun hne => absurd rfl hne, fun _ => hall, by simp [Trial.close],
          fun _ => h.isOver_of_late (.inl hstage), h.queuedAfter_eq⟩
      case h_3 => exact h

theorem Faithful.run (h : reporting.Faithful) (events : List Event) :
    (reporting.run events).Faithful := by
  induction events generalizing reporting with
  | nil => exact h
  | cons event events ih => exact ih (h.step event)

theorem faithful_start (now : Instant) (measurement : Measurement) (peer : Endpoint)
    (request : Request) (reducer : Option Reducer) (interval : ℕ) :
    Faithful { trial := Trial.start now measurement peer request reducer interval } :=
  ⟨fun _ => rfl, nofun, by simp [Trial.start], by simp, fun _ => rfl⟩

/-! ## Turns at once -/

/-- Receiving as often as there are outcomes empties the queue. -/
theorem run_receiving (reporting : Reporting) {event : Event} {stage : Stage}
    (hstep : ∀ (reporting : Reporting) (outcome : Outcome), reporting.stage = stage →
      reporting.trial.receive.1 = some outcome → reporting.step event = reporting.passOn outcome)
    (hstage : reporting.stage = stage) :
    reporting.run (List.replicate reporting.trial.queue.length event) =
      { reporting with
        trial := reporting.trial.drain.2
        reported := reporting.reported ++ reporting.trial.drain.1 } := by
  generalize hqueue : reporting.trial.queue = queue
  induction queue generalizing reporting with
  | nil =>
      have hdrain : reporting.trial.drain = ([], reporting.trial) := by rw [Trial.drain, ← hqueue]
      rw [hdrain, List.append_nil]
      rfl
  | cons outcome rest ih =>
      have hreceive :
          reporting.trial.receive = (some outcome, { reporting.trial with queue := rest }) := by
        rw [Trial.receive, hqueue]
      have hpass : reporting.step event = reporting.passOn outcome :=
        hstep reporting outcome hstage (by rw [hreceive])
      have hrest : (reporting.passOn outcome).trial.queue = rest := by rw [passOn, hreceive]
      rw [List.length_cons, List.replicate_succ, run, List.foldl_cons, hpass]
      refine (ih (reporting.passOn outcome) hstage hrest).trans ?_
      simp [passOn, Trial.drain, hreceive, hqueue]

/-- What a reporter does in a turn: it receives everything that is queued, and goes if its end has
come. -/
def turnEvents (reporting : Reporting) : List Event :=
  if reporting.isOver then
    .turn :: (List.replicate reporting.trial.queue.length .drain ++ [.drain])
  else List.replicate reporting.trial.queue.length .take

/-- A turn of the reporter is one way for its steps to follow each other. -/
theorem run_turnEvents (hstage : reporting.stage = .waiting) (ending : Ending) :
    reporting.run reporting.turnEvents =
      { reporting with
        trial := (Live.reporterTurn reporting.trial ending reporting.isOver).2.2
        stage := if reporting.isOver then .gone else .waiting
        reported := reporting.reported ++
          (Live.reporterTurn reporting.trial ending reporting.isOver).1 } := by
  cases hover : reporting.isOver with
  | false =>
      have htake : ∀ (reporting : Reporting) (outcome : Outcome), reporting.stage = .waiting →
          reporting.trial.receive.1 = some outcome →
          reporting.step .take = reporting.passOn outcome := by
        intro reporting outcome hwaiting hsome
        rw [step, hwaiting, hsome]
      rw [turnEvents, hover, if_neg (by simp), run_receiving reporting htake hstage]
      simp [Live.reporterTurn, hstage, hover]
  | true =>
      have hdrain : ∀ (reporting : Reporting) (outcome : Outcome), reporting.stage = .draining →
          reporting.trial.receive.1 = some outcome →
          reporting.step .drain = reporting.passOn outcome := by
        intro reporting outcome hdraining hsome
        rw [step, hdraining, hsome]
      have hturn : reporting.step .turn = { reporting with stage := .draining } := by
        rw [step, if_pos ⟨hstage, hover⟩]
      have hdrains : (reporting.step .turn).run
          (List.replicate reporting.trial.queue.length .drain) =
          { reporting with
            trial := reporting.trial.drain.2
            stage := .draining
            reported := reporting.reported ++ reporting.trial.drain.1 } := by
        rw [hturn]
        exact run_receiving { reporting with stage := .draining } hdrain rfl
      rw [turnEvents, hover, if_pos rfl, run, List.foldl_cons, List.foldl_append]
      change ((reporting.step .turn).run _).step .drain = _
      rw [hdrains]
      simp [step, Trial.receive, Live.reporterTurn, Trial.drain, hover]

end Reporting

section

variable (now : Instant) (measurement : Measurement) (peer : Endpoint) (request : Request)
  (reducer : Option Reducer) (interval : ℕ)

/-- What comes out of a trial is what was emitted, in order and once each, less what met a full
queue; and its reporter passes on all that was queued until it left. -/
theorem Trial.outlet_and_reporter_faithful :
    (∀ acts : List Trial.Act, .close ∉ acts →
      (Outlet.run { trial := Trial.start now measurement peer request reducer interval }
        acts).Faithful acts) ∧
    (∀ (events : List Reporting.Event) (reporting : Reporting),
      Reporting.run { trial := Trial.start now measurement peer request reducer interval }
        events = reporting →
      reporting.Faithful ∧
      ∀ ending, reporting.stage = .waiting →
        reporting.run reporting.turnEvents =
          { reporting with
            trial := (Live.reporterTurn reporting.trial ending reporting.isOver).2.2
            stage := if reporting.isOver then .gone else .waiting
            reported := reporting.reported ++
              (Live.reporterTurn reporting.trial ending reporting.isOver).1 }) := by
  refine ⟨fun acts hacts => Outlet.faithful_run_start _ _ _ _ _ _ hacts, ?_⟩
  rintro events reporting rfl
  refine ⟨?_, fun ending hstage => Reporting.run_turnEvents hstage ending⟩
  exact (Reporting.faithful_start now measurement peer request reducer interval).run events

/-- Of seventy outcomes that nobody receives in time the last six meet a full queue.  A reporter
that is told to end also passes on what is queued while it drains. -/
theorem Trial.outlet_and_reporter_faithful_flooded :
    let trial := Trial.start 0 ⟨.tcp, .bandwidth⟩ ⟨.loopback, 40001, 0⟩ {} none 0
    let acts := (List.range 70).map (fun n => Trial.Act.add (.bytes (.ofNat n))) ++
      [.receive, .finish, .claim, .finish, .claim]
    let early := [.start, .produce (.add (.bytes 1)), .conclude]
    let late := early ++ [.produce (.add (.bytes 2)), .turn, .drain, .produce (.add (.bytes 3)),
      .drain, .drain, .drain]
    let waiting := Reporting.run { trial := trial } early
    let gone := Reporting.run { trial := trial } late
    (.close ∉ acts ∧ (Outlet.run { trial := trial } acts).Faithful acts ∧
      (Outlet.run { trial := trial } acts).admitted.length = 64) ∧
    (waiting.stage = .waiting ∧ (waiting.run waiting.turnEvents).reported = [.bytes 1]) ∧
    gone.Faithful ∧ gone.stage = .gone ∧ gone.reported = [.bytes 1, .bytes 2, .bytes 3] := by
  intro trial acts early late waiting gone
  have hacts : .close ∉ acts := by decide +kernel
  have hwaiting : waiting.stage = .waiting := by decide +kernel
  have hfaithful :=
    outlet_and_reporter_faithful 0 ⟨.tcp, .bandwidth⟩ ⟨.loopback, 40001, 0⟩ {} none 0
  refine ⟨⟨hacts, hfaithful.1 acts hacts, by decide +kernel⟩, ⟨hwaiting, ?_⟩,
    (hfaithful.2 late gone rfl).1, by decide +kernel, by decide +kernel⟩
  rw [(hfaithful.2 early waiting rfl).2 .signal hwaiting]
  decide +kernel

end

end LinkMeter
