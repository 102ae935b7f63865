import LinkMeter.Proofs.Trial.Act

/-!
# Acts that leave a trial running

Only finishing ends a trial.  Everything else that the holder of a trial does to
it changes neither its key nor how it publishes, and leaves its references and
its end alone (`Trial.steady_perform`).
-/

namespace LinkMeter.Trial

open Pacing (Instant)

/-- The second trial is the first one, still running or still finished, with the same holders. -/
structure Steady (before after : Trial) : Prop where
  peer_eq : after.peer = before.peer
  measurement_eq : after.measurement = before.measurement
  reducer_eq : after.reducer = before.reducer
  interval_eq : after.interval = before.interval
  references_eq : after.references = before.references
  isActive_eq : after.isActive = before.isActive
  isDone_eq : after.isDone = before.isDone

theorem Steady.refl (trial : Trial) : trial.Steady trial := ⟨rfl, rfl, rfl, rfl, rfl, rfl, rfl⟩

theorem Steady.trans {first second third : Trial} (hfirst : first.Steady second)
    (hsecond : second.Steady third) : first.Steady third where
  peer_eq := hsecond.peer_eq.trans hfirst.peer_eq
  measurement_eq := hsecond.measurement_eq.trans hfirst.measurement_eq
  reducer_eq := hsecond.reducer_eq.trans hfirst.reducer_eq
  interval_eq := hsecond.interval_eq.trans hfirst.interval_eq
  references_eq := hsecond.references_eq.trans hfirst.references_eq
  isActive_eq := hsecond.isActive_eq.trans hfirst.isActive_eq
  isDone_eq := hsecond.isDone_eq.trans hfirst.isDone_eq

theorem Steady.precedes {before after : Trial} (h : before.Steady after) :
    before.Precedes after where
  peer_eq := h.peer_eq
  measurement_eq := h.measurement_eq
  interval_eq := h.interval_eq
  isDone_of_isDone := fun hdone => h.isDone_eq.trans hdone

variable (trial : Trial)

theorem steady_emit (outcome : Outcome) : trial.Steady (trial.emit outcome) := by
  rw [emit, enqueue]
  split <;> exact ⟨rfl, rfl, rfl, rfl, rfl, rfl, rfl⟩

theorem steady_add (sample : Outcome) : trial.Steady (trial.add sample) := by
  rw [add]
  split
  · exact steady_emit trial sample
  · exact ⟨rfl, rfl, rfl, rfl, rfl, rfl, rfl⟩

theorem steady_foldl_add (samples : List Outcome) : trial.Steady (samples.foldl add trial) := by
  induction samples generalizing trial with
  | nil => exact Steady.refl trial
  | cons sample samples ih => exact (steady_add trial sample).trans (ih (trial.add sample))

theorem steady_publish (now : Instant) : trial.Steady (trial.publish now).2 := by
  have hemptied : trial.Steady { trial with lastPublish := now, buffered := [] } :=
    ⟨rfl, rfl, rfl, rfl, rfl, rfl, rfl⟩
  rw [publish]
  split
  · exact Steady.refl trial
  · dsimp only
    split
    · exact hemptied
    · split
      · exact hemptied.trans (steady_emit _ _)
      · exact hemptied

theorem steady_receive : trial.Steady trial.receive.2 := by
  rw [receive]
  split
  · exact Steady.refl trial
  · exact ⟨rfl, rfl, rfl, rfl, rfl, rfl, rfl⟩

theorem steady_perform {act : Act} (hact : act ≠ .finish) : trial.Steady (trial.perform act) := by
  cases act with
  | add sample => exact steady_add trial sample
  | emit outcome => exact steady_emit trial outcome
  | publish now => exact steady_publish trial now
  | receive => exact steady_receive trial
  | finish => exact absurd rfl hact
  | claim | drain | close | touch now | setDormant | tick now =>
      exact ⟨rfl, rfl, rfl, rfl, rfl, rfl, rfl⟩

theorem steady_foldl_perform {acts : List Act} (hacts : .finish ∉ acts) :
    trial.Steady (acts.foldl perform trial) := by
  induction acts generalizing trial with
  | nil => exact Steady.refl trial
  | cons act acts ih =>
      rw [List.mem_cons, not_or] at hacts
      exact (steady_perform trial (Ne.symm hacts.1)).trans (ih (trial.perform act) hacts.2)

theorem references_perform (act : Act) : (trial.perform act).references = trial.references := by
  by_cases hact : act = .finish
  · rw [hact]
    rfl
  · exact (steady_perform trial hact).references_eq

end LinkMeter.Trial
