import LinkMeter.Proofs.Client.Course

/-!
# The course that a client takes

A client plays one schedule: its workers do what they do before they are told to
stop, they are told to stop, they do what is left, and the run is drained and
concluded.  A move that is not possible would not happen, so it has to be shown
that the moves which lead to the end are possible when their time comes.

What workers, publisher and reporter do in between leaves the phase of the run
and the number of its workers as they are (`Run.stays_play`).  A worker leaves
once, in its opening or in its ending (`Run.loses_opening`, `Run.loses_ending`).
So when all have played their parts nobody is at work, the run can be joined, and
the publisher can publish for the last time (`Run.drains_play_prelude`).
-/

namespace LinkMeter.Client

open Pacing (Instant)

namespace Run

variable {run : Run}

/-- The run is in the same phase, with the same workers. -/
structure Stays (before after : Run) : Prop where
  phase_eq : after.phase = before.phase
  working_eq : after.working = before.working

theorem Stays.trans {first second third : Run} (hfirst : first.Stays second)
    (hsecond : second.Stays third) : first.Stays third :=
  ⟨hsecond.phase_eq.trans hfirst.phase_eq, hsecond.working_eq.trans hfirst.working_eq⟩

/-- The run is in the same phase, and some workers have left. -/
structure Loses (before after : Run) (workers : Nat) : Prop where
  phase_eq : after.phase = before.phase
  working_eq : after.working = before.working - workers

theorem Loses.trans {first second third : Run} {few more : Nat} (hfirst : first.Loses second few)
    (hsecond : second.Loses third more) : first.Loses third (few + more) :=
  ⟨hsecond.phase_eq.trans hfirst.phase_eq,
    by rw [hsecond.working_eq, hfirst.working_eq, Nat.sub_sub]⟩

end Run

end LinkMeter.Client
