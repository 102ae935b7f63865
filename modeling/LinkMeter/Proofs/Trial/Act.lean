import LinkMeter.Trial.Basic

/-!
# What can be done to a trial

`Trial.Act` lists what the holder of a trial can do to it without the registry
that the trial may stand in.  None of it changes the key of the trial or takes
back that it is finished: a trial precedes every state that it comes to
(`precedes_perform`).
-/

namespace LinkMeter.Trial

open Pacing (Instant)

/-- Something that the holder of a trial does to it. -/
inductive Act where
  | add (sample : Outcome)
  | emit (outcome : Outcome)
  | publish (now : Instant)
  | claim
  | receive
  | drain
  | close
  | finish
  | touch (now : Instant)
  | setDormant
  | tick (now : Instant)
  deriving DecidableEq, Inhabited

/-- The trial after an act; what the act answers is left out. -/
def perform (trial : Trial) : Act → Trial
  | .add sample => trial.add sample
  | .emit outcome => trial.emit outcome
  | .publish now => (trial.publish now).2
  | .claim => trial.claim.2
  | .receive => trial.receive.2
  | .drain => trial.drain.2
  | .close => trial.close
  | .finish => trial.finish.2
  | .touch now => trial.touch now
  | .setDormant => trial.setDormant
  | .tick now => trial.tick now

/-- The second trial is a later state of the first: it has the same key and the
same interval, and it is finished if the first was. -/
structure Precedes (before after : Trial) : Prop where
  peer_eq : after.peer = before.peer
  measurement_eq : after.measurement = before.measurement
  interval_eq : after.interval = before.interval
  isDone_of_isDone : before.isDone = true → after.isDone = true

variable (trial : Trial)

theorem Precedes.trans {first second third : Trial} (hfirst : first.Precedes second)
    (hsecond : second.Precedes third) : first.Precedes third where
  peer_eq := hsecond.peer_eq.trans hfirst.peer_eq
  measurement_eq := hsecond.measurement_eq.trans hfirst.measurement_eq
  interval_eq := hsecond.interval_eq.trans hfirst.interval_eq
  isDone_of_isDone := fun hdone => hsecond.isDone_of_isDone (hfirst.isDone_of_isDone hdone)

/-! ## References and life -/

theorem precedes_acquire : trial.Precedes trial.acquire := ⟨rfl, rfl, rfl, id⟩

theorem precedes_release : trial.Precedes trial.release.2 := ⟨rfl, rfl, rfl, id⟩

theorem precedes_finish : trial.Precedes trial.finish.2 := ⟨rfl, rfl, rfl, fun _ => rfl⟩

theorem precedes_setDormant : trial.Precedes trial.setDormant := ⟨rfl, rfl, rfl, id⟩

/-! ## Outcomes -/

theorem precedes_enqueue (outcome : Outcome) : trial.Precedes (trial.enqueue outcome) := by
  unfold enqueue
  split
  · exact ⟨rfl, rfl, rfl, id⟩
  · exact ⟨rfl, rfl, rfl, id⟩

theorem precedes_emit (outcome : Outcome) : trial.Precedes (trial.emit outcome) := by
  have hlatest : trial.Precedes { trial with latest := some outcome } := ⟨rfl, rfl, rfl, id⟩
  exact hlatest.trans (precedes_enqueue _ outcome)

theorem precedes_add (sample : Outcome) : trial.Precedes (trial.add sample) := by
  unfold add
  split
  · exact precedes_emit trial sample
  · exact ⟨rfl, rfl, rfl, id⟩

theorem precedes_publish (now : Instant) : trial.Precedes (trial.publish now).2 := by
  have hemptied : trial.Precedes { trial with lastPublish := now, buffered := [] } :=
    ⟨rfl, rfl, rfl, id⟩
  unfold publish
  split
  · exact ⟨rfl, rfl, rfl, id⟩
  · dsimp only
    split
    · exact hemptied
    · split
      · exact hemptied.trans (precedes_emit _ _)
      · exact hemptied

theorem precedes_receive : trial.Precedes trial.receive.2 := by
  unfold receive
  split
  · exact ⟨rfl, rfl, rfl, id⟩
  · exact ⟨rfl, rfl, rfl, id⟩

theorem precedes_perform (act : Act) : trial.Precedes (trial.perform act) := by
  cases act with
  | add sample => exact precedes_add trial sample
  | emit outcome => exact precedes_emit trial outcome
  | publish now => exact precedes_publish trial now
  | receive => exact precedes_receive trial
  | finish => exact precedes_finish trial
  | claim => exact ⟨rfl, rfl, rfl, id⟩
  | drain => exact ⟨rfl, rfl, rfl, id⟩
  | close => exact ⟨rfl, rfl, rfl, id⟩
  | touch now => exact ⟨rfl, rfl, rfl, id⟩
  | setDormant => exact precedes_setDormant trial
  | tick now => exact ⟨rfl, rfl, rfl, id⟩

end LinkMeter.Trial
