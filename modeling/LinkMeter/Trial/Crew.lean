import LinkMeter.Trial.Basic

/-!
# Publishers and reporters

Two kinds of workers serve the outcomes of a trial.  A publisher publishes once
per interval, and once more when the trial is finished, which ends it.  A
reporter receives whatever is queued and passes it on; once its end has come it
passes on what is left and goes, and the queue is closed.

Workers that can go on stand in a line and have their turns in that order
(`Live.settle`).  The order shows when the queue is full: a publisher ahead of
the reporter loses its outcome, behind it does not.

Timers and ages are read off two clocks: `now` is the instant of the timers and
`wall` the instant from which ages are counted.
-/

namespace LinkMeter

open Pacing (Instant)

inductive Publisher where
  /-- It has not had its first turn. -/
  | starting
  /-- It waits for an instant, or for the end of the trial. -/
  | waiting (due : Instant)
  | ended
  deriving DecidableEq, Inhabited

/-- What ends a reporter. -/
inductive Ending where
  /-- The end of a publisher, by its number. -/
  | publisher (number : Nat)
  | signal
  deriving DecidableEq, Inhabited

inductive Reporter where
  | starting (ending : Ending)
  | waiting (ending : Ending)
  | ended
  deriving DecidableEq, Inhabited

inductive Worker where
  | publisher (number : Nat)
  | reporter
  deriving DecidableEq, Inhabited

/-- Those who serve a trial. -/
structure Crew where
  publishers : List Publisher := []
  reporter : Option Reporter := none
  /-- Whether the signal that ends a reporter was given. -/
  isSignalled : Bool := false
  /-- The workers that can go on, in the order of their turns. -/
  line : List Worker := []
  reported : List Outcome := []
  deriving DecidableEq, Inhabited

/-- A trial with those who serve it. -/
structure Live extends Crew where
  trial : Trial
  deriving DecidableEq, Inhabited

namespace Live

/-! ## The line -/

/-- Whether the end of a reporter has come. -/
def hasEnded (live : Live) : Ending → Bool
  | .publisher number => live.publishers[number]? == some .ended
  | .signal => live.isSignalled

/-- Whether the reporter has something to do. -/
def reporterIsReady (live : Live) : Bool :=
  match live.reporter with
  | some (.waiting ending) => !live.trial.queue.isEmpty || live.hasEnded ending
  | _ => false

/-- The publishers that the end of the trial concerns. -/
def stoppedPublishers (live : Live) : List Worker :=
  if live.trial.isDone then
    (live.publishers.zipIdx.filter fun (publisher, _) =>
      match publisher with
      | .waiting _ => true
      | _ => false).map fun (_, number) => .publisher number
  else []

/-- Puts workers at the end of the line unless they stand in it. -/
def callUp (live : Live) (workers : List Worker) : Live :=
  { live with line := live.line ++ workers.filter fun worker => !live.line.contains worker }

/-- Puts everyone into the line who can go on. -/
def wake (live : Live) : Live :=
  live.callUp ((if live.reporterIsReady then [.reporter] else []) ++ live.stoppedPublishers)

/-- An operation on the trial, after which workers may be able to go on. -/
def act {α : Type} (live : Live) (operation : Trial → α × Trial) : α × Live :=
  let (answer, trial) := operation live.trial
  (answer, { live with trial := trial }.wake)

/-- An operation on the trial that answers nothing. -/
def change (live : Live) (operation : Trial → Trial) : Live :=
  (live.act fun trial => ((), operation trial)).2

/-! ## Hiring -/

def startPublisher (live : Live) : Live :=
  { live with publishers := live.publishers ++ [Publisher.starting] : Live }.callUp
    [.publisher live.publishers.length]

/-- Starts a reporter, unless the queue was handed out before. -/
def startReporter (live : Live) (ending : Ending) : Bool × Live :=
  match live.trial.claim with
  | (true, trial) =>
    (true, { live with
      trial := trial, reporter := some (Reporter.starting ending) : Live }.callUp [.reporter])
  | (false, _) => (false, live)

/-- Gives the signal that ends a reporter. -/
def signal (live : Live) : Live := { live with isSignalled := true }.wake

/-! ## Turns -/

/-- The turn of a publisher.  One that cannot wait for the interval ends, and so
does one whose publication overflows. -/
def publisherTurn (trial : Trial) (now wall : Instant) : Publisher → Publisher × Trial
  | .starting =>
    if !trial.isPeriodic then (.ended, trial)
    else if trial.isDone then (.ended, (trial.publish wall).2)
    else (.waiting (now + trial.interval), trial)
  | .waiting due =>
    if trial.isDone then (.ended, (trial.publish wall).2)
    else if due ≤ now then
      match (trial.tick wall).publish wall with
      | (.overflowed, trial) => (.ended, trial)
      | (_, trial) => (.waiting (now + trial.interval), trial)
    else (.waiting due, trial)
  | .ended => (.ended, trial)

/-- The turn of a reporter whose end has come or not. -/
def reporterTurn (trial : Trial) (ending : Ending) (isOver : Bool) :
    List Outcome × Reporter × Trial :=
  let (outcomes, trial) := trial.drain
  if isOver then (outcomes, .ended, trial.close) else (outcomes, .waiting ending, trial)

def turn (live : Live) (now wall : Instant) : Worker → Live
  | .publisher number =>
    match live.publishers[number]? with
    | none => live
    | some publisher =>
      let (publisher, trial) := publisherTurn live.trial now wall publisher
      { live with trial := trial, publishers := live.publishers.set number publisher }.wake
  | .reporter =>
    match live.reporter with
    | some (.starting ending) | some (.waiting ending) =>
      let (outcomes, reporter, trial) :=
        reporterTurn live.trial ending (live.hasEnded ending)
      { live with
        trial := trial, reporter := some reporter, reported := live.reported ++ outcomes }
    | _ => live

/-- Gives up to `turns` turns. -/
def settleFor (now wall : Instant) : Nat → Live → Live
  | 0, live => live
  | turns + 1, live =>
    match live.line with
    | [] => live
    | worker :: rest => settleFor now wall turns ({ live with line := rest }.turn now wall worker)

/-- Gives turns until the line is empty.  A publisher's turn calls up at most
the reporter, whose own turn calls up nobody, so two turns for each worker in
the line are enough. -/
def settle (live : Live) (now wall : Instant) : Live :=
  settleFor now wall (2 * live.line.length) live

/-! ## Time -/

/-- The instants for which publishers wait. -/
def dues (live : Live) : List Instant :=
  live.publishers.filterMap fun publisher =>
    match publisher with
    | .waiting due => some due
    | _ => none

/-- Calls up the publishers whose instant has come. -/
def fire (live : Live) (now : Instant) : Live :=
  live.callUp ((live.publishers.zipIdx.filter fun (publisher, _) =>
    match publisher with
    | .waiting due => due ≤ now
    | _ => false).map fun (_, number) => .publisher number)

/-- Lets time pass up to an instant, in which at most `fuel` timers fire. -/
def advanceFor (wall goal : Instant) : Nat → Live → Live
  | 0, live => live
  | fuel + 1, live =>
    match live.dues.min? with
    | some due =>
      if due ≤ goal then advanceFor wall goal fuel ((live.fire due).settle due wall) else live
    | none => live

/-- Lets time pass from `now` to `goal`.  Each publisher fires at most once per
interval, and every interval takes time. -/
def advance (live : Live) (wall now goal : Instant) : Live :=
  let settled := live.settle now wall
  advanceFor wall goal (settled.publishers.length * (goal - now) + 1) settled

end Live

end LinkMeter
