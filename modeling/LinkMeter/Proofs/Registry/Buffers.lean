import LinkMeter.Proofs.Registry.Attended
import LinkMeter.Proofs.Trial.Batch

/-!
# What registered trials buffer

Samples stay in the buffer of a trial from when they are added until the trial
publishes.  Nothing that the registry does with its trials touches a buffer, and
this holds of trials that it has let go of as well.
-/

namespace LinkMeter.Registry

open Pacing (Instant)

variable {registry : Registry} {serial : Serial}

/-- What the trial with a number buffers. -/
def buffered (registry : Registry) (serial : Serial) : List Outcome :=
  ((registry.trial? serial).map (·.buffered)).getD []

theorem buffered_of_trial? {trial : Trial} (htrial : registry.trial? serial = some trial) :
    registry.buffered serial = trial.buffered := by
  rw [buffered, htrial]
  rfl

theorem buffered_of_none (hnone : registry.trial? serial = none) :
    registry.buffered serial = [] := by
  rw [buffered, hnone]
  rfl

theorem buffered_change (registry : Registry) (serial : Serial) (operation : Trial → Trial)
    (hoperation : ∀ trial : Trial, (operation trial).buffered = trial.buffered) (other : Serial) :
    (registry.change serial operation).buffered other = registry.buffered other := by
  rw [buffered, trial?_change]
  split
  · rw [Option.map_map, buffered]
    congr 2
    funext trial
    exact hoperation trial
  · rfl

theorem buffered_change_add {trial : Trial} (htrial : registry.trial? serial = some trial)
    {reducer : Reducer} (hreducer : trial.reducer = some reducer) (samples : List Outcome)
    (other : Serial) :
    (registry.change serial fun trial => samples.foldl Trial.add trial).buffered other =
      registry.buffered other ++ if other = serial then samples else [] := by
  rw [buffered, trial?_change]
  by_cases h : other = serial
  · subst h
    rw [if_pos rfl, if_pos rfl, htrial, buffered_of_trial? htrial, Option.map_some,
      Option.map_some, Option.getD_some, Trial.foldl_add hreducer]
  · rw [if_neg (Ne.symm h), if_neg h, List.append_nil, buffered]

/-- A sweep leaves all trials as they are, apart from their references and their life. -/
theorem map_trial?_sweep {Part : Type} (part : Trial → Part)
    (hdormant : ∀ trial : Trial, part trial.setDormant = part trial)
    (hfinish : ∀ trial : Trial, part trial.finish.2 = part trial) (registry : Registry)
    (now : Instant) (dormantAfter deleteAfter : ℕ) (serial : Serial) :
    ((registry.sweep now dormantAfter deleteAfter).2.trial? serial).map part =
      (registry.trial? serial).map part := by
  have hchange : ∀ (after : Registry) (other : Serial) (operation : Trial → Trial),
      (∀ trial, part (operation trial) = part trial) →
      ((after.change other operation).trial? serial).map part =
        (after.trial? serial).map part := by
    intro after other operation hsame
    rw [trial?_change]
    split
    · rw [Option.map_map, show part ∘ operation = part from funext hsame]
    · rfl
  refine sweep_induction
    (motive := fun after => (after.trial? serial).map part = (registry.trial? serial).map part)
    rfl ?_ ?_ now dormantAfter deleteAfter
  · exact fun after other h => (hchange after other Trial.setDormant hdormant).trans h
  · intro after address measurement h
    cases hfind : after.find? address measurement with
    | none => rwa [delete_of_free hfind]
    | some removed =>
        rw [delete_of_find hfind, ← h, ← trial?_remove after address measurement serial]
        exact hchange _ removed (fun trial => trial.finish.2) hfinish

theorem buffered_sweep (registry : Registry) (now : Instant) (dormantAfter deleteAfter : ℕ)
    (serial : Serial) :
    (registry.sweep now dormantAfter deleteAfter).2.buffered serial = registry.buffered serial := by
  rw [buffered, map_trial?_sweep (·.buffered) (fun _ => rfl) fun _ => rfl, buffered]

theorem buffered_createOrGet_of_free (now : Instant) (peer : Endpoint) (measurement : Measurement)
    (request : Request) (reducer : Option Reducer) (interval : ℕ)
    (hfree : registry.find? peer.address measurement = none) (serial : Serial) :
    (registry.createOrGet now peer measurement request reducer interval).2.buffered serial =
      registry.buffered serial := by
  rw [buffered, trial?_createOrGet_of_free _ _ _ _ _ _ hfree]
  split
  case isTrue h =>
    have hnone : registry.trial? serial = none :=
      List.getElem?_eq_none (Nat.le_of_eq h.symm)
    rw [buffered_of_none hnone]
    rfl
  case isFalse => rfl

/-- A publication concerns the buffer of one trial. -/
theorem buffered_publish {trial : Trial} (htrial : registry.trial? serial = some trial)
    {reducer : Reducer} (hreducer : trial.reducer = some reducer) (now : Instant)
    (other : Serial) :
    (registry.change serial fun trial => (trial.publish now).2).buffered other =
      if other = serial then [] else registry.buffered other := by
  rw [buffered, trial?_change]
  by_cases h : other = serial
  · subst h
    rw [if_pos rfl, if_pos rfl, htrial, Option.map_some, Option.map_some, Option.getD_some,
      (Trial.publish_spec hreducer now).2.1]
  · rw [if_neg (Ne.symm h), if_neg h, buffered]

end LinkMeter.Registry
