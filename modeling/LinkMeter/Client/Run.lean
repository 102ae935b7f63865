import LinkMeter.Client.Work
import LinkMeter.Outcome.Summary
import LinkMeter.Trial.Basic

/-!
# One run of a client

A run drives one trial.  Workers, a publisher and a reporter proceed
independently, so a run is a state that changes by moves (`Run.step?`), each of
them possible only at its time; any list of possible moves is a course that a
run can take.  `schedule` is one such course.

The client waits until there is a reason to stop, tells the workers to stop,
waits for them, finishes the trial, lets the publisher publish what is left and
the reporter pass it on, and closes with the summary.  A failure of one worker
becomes a sample, a fatal one ends the trial; the first fatal failure is what
the run fails with.
-/

namespace LinkMeter.Client

open Pacing (Instant)

/-- What a run tells whoever follows it. -/
inductive Event where
  | started (measurement : Measurement) (remote : Endpoint)
  | published (outcome : Outcome)
  | completed (measurement : Measurement) (summary : Summary)
  | failed (reason : String)
  deriving DecidableEq, Inhabited

/-- How far a run is. -/
inductive Phase where
  /-- Nothing asks the run to stop. -/
  | measuring
  /-- The workers are told to stop. -/
  | stopping
  /-- The workers have left and the trial is finished. -/
  | draining
  | over
  deriving DecidableEq, Inhabited, Repr

structure Run where
  trial : Trial
  phase : Phase := .measuring
  /-- Whether the publisher has not ended. -/
  publishes : Bool := true
  /-- Workers that have not left. -/
  working : Nat := 0
  left : Nat := 0
  fatal : Option Failure := none
  /-- The outcomes passed on by the reporter. -/
  history : List Outcome := []
  summary : Option Summary := none
  events : List Event := []
  deriving DecidableEq, Inhabited

inductive Move where
  /-- A worker does something to the trial. -/
  | work (deed : Deed)
  /-- A worker leaves, perhaps with a failure. -/
  | leave (failure : Option Failure)
  | publish (wall : Instant)
  /-- The publisher publishes for the last time. -/
  | publishLast (wall : Instant)
  /-- The reporter passes one outcome on. -/
  | report
  /-- There is a reason to stop: the duration is over, somebody cancelled, the
  trial is finished, or all workers have left. -/
  | stop
  /-- All workers have left. -/
  | join
  /-- The reporter passes on what is left, and the run is over. -/
  | conclude (elapsed : Span)
  deriving DecidableEq, Inhabited

namespace Deed

def apply (trial : Trial) : Deed → Trial
  | add sample => trial.add sample
  | emit outcome => trial.emit outcome

end Deed

namespace Run

/-- A run of some workers on a trial, with a publisher if one can work. -/
def start (trial : Trial) (workers : Nat) : Run where
  trial := { trial with isClaimed := true }
  publishes := trial.isPeriodic
  working := workers
  events := [.started trial.measurement trial.peer]

/-- What a run returns: the outcome emitted last, unless a failure prevails. -/
def result (run : Run) : Except Failure (Option Outcome) :=
  match run.fatal with
  | some failure => .error failure
  | none =>
    match run.trial.latest with
    | none => .ok none
    | some outcome =>
      if outcome.success then .ok (some outcome)
      else .error (.trial (outcome.error.getD "test failed"))

/-- The event that reports the failure of a run. -/
def failureEvents (run : Run) : List Event :=
  match run.fatal, run.result with
  | some failure, _ => [.failed failure.message]
  | none, .error (.trial reason) => [.failed reason]
  | none, _ => []

/-- A worker leaves.  Its failure ends the trial if it is fatal, and is a sample
otherwise, unless the trial is finished already. -/
def dismiss (run : Run) (failure : Option Failure) : Run :=
  let run := { run with working := run.working - 1, left := run.left + 1 }
  match failure with
  | none => run
  | some failure =>
    if failure.isFatal then
      { run with
        trial := (run.trial.emit (.ofFailure failure)).finish.2
        fatal := run.fatal.or (some failure) }
    else if run.trial.isDone then run
    else { run with trial := run.trial.add (.ofFailure failure) }

/-- The reporter passes outcomes on. -/
def passOn (run : Run) (outcomes : List Outcome) : Run :=
  { run with
    history := run.history ++ outcomes
    events := run.events ++ outcomes.map .published }

/-- The publisher publishes; a publication that overflows ends it. -/
def publish (run : Run) (wall : Instant) : Run :=
  match (run.trial.tick wall).publish wall with
  | (.overflowed, trial) => { run with trial := trial, publishes := false }
  | (_, trial) => { run with trial := trial }

/-- The reporter passes on what is left, and the run is summed up, if the totals
fit the summary. -/
def close? (run : Run) (elapsed : Span) : Option Run :=
  let (outcomes, trial) := run.trial.drain
  let drained := { run with trial := trial.close }.passOn outcomes
  (Summary.ofOutcomes? drained.history elapsed drained.left).map fun summary =>
    { drained with
      phase := .over
      summary := some summary
      events := drained.events ++
        .completed trial.measurement summary :: drained.failureEvents }

/-- The run after a move, if the move is possible. -/
def step? (run : Run) : Move → Option Run
  | .work deed =>
    if run.working = 0 then none else some { run with trial := deed.apply run.trial }
  | .leave failure => if run.working = 0 then none else some (run.dismiss failure)
  | .publish wall =>
    if run.publishes then some (run.publish wall) else none
  | .publishLast wall =>
    if run.publishes && run.trial.isDone then
      some { run with trial := (run.trial.publish wall).2, publishes := false }
    else none
  | .report =>
    if run.phase = .over then none
    else
      match run.trial.receive with
      | (some outcome, trial) => some ({ run with trial := trial }.passOn [outcome])
      | (none, _) => none
  | .stop =>
    if run.phase = .measuring then
      some { run with
        phase := .stopping
        trial := if run.trial.reducer.isNone then run.trial.finish.2 else run.trial }
    else none
  | .join =>
    if run.phase = .stopping && run.working = 0 then
      some { run with phase := .draining, trial := run.trial.finish.2 }
    else none
  | .conclude elapsed =>
    if run.phase = .draining && !run.publishes then run.close? elapsed else none

/-- The run after some moves, of which the impossible ones do not happen. -/
def play (moves : List Move) (run : Run) : Run :=
  moves.foldl (fun run move => (run.step? move).getD run) run

end Run

/-! ## A course of events -/

namespace Work

/-- Deeds, each followed by a report of what it emitted. -/
def movesOf (deeds : List Deed) : List Move :=
  deeds.flatMap fun deed => [.work deed, .report]

/-- How many publications come due in the rest before a deed.  The first deed
follows no rest, and what is due together with a deed comes after it. -/
def dueBefore (work : Work) (interval place : Nat) : Nat :=
  (place * work.pause - 1) / interval - ((place - 1) * work.pause - 1) / interval

/-- What a worker does before it is told to stop, with the publications that
come due in the meantime. -/
def opening (work : Work) (interval : Nat) (wall : Instant) : List Move :=
  (work.deeds.zipIdx.flatMap fun (deed, place) =>
    List.replicate (work.dueBefore interval place) (.publish wall) ++ movesOf [deed]) ++
    match work.parting with
    | .returns => [.leave none]
    | .fails failure => [.leave (some failure), .report]
    | .stays => []

/-- What a worker does when it is told to stop. -/
def ending (work : Work) : List Move :=
  match work.parting with
  | .stays => movesOf work.closing ++ [.leave none]
  | _ => []

end Work

/-- The course in which the workers work one after the other, and are told to
stop when none of them goes on by itself.  The trial publishes once per
`interval`. -/
def schedule (works : List Work) (interval : Nat) (wall : Instant) (elapsed : Span) :
    List Move :=
  works.flatMap (·.opening interval wall) ++ [.stop] ++ works.flatMap Work.ending ++
    [.join, .publishLast wall, .conclude elapsed]

end LinkMeter.Client
