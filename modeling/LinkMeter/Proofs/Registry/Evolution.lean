import LinkMeter.Proofs.Registry.Sound

/-!
# What all operations of a registry have in common

A registry never lets go of a trial that goes on: a trial that it created is
registered or finished (`Registry.Settled`).  `Registry.Evolves` says that one
registry comes about from another in this way.  It is transitive, so an
operation that is made of others evolves the registry because they do:
deleting removes and finishes, releasing may delete, sweeping changes trials
and deletes.
-/

namespace LinkMeter.Registry

open Pacing (Instant)

/-- A trial is settled when it is registered or finished. -/
def Settled (registry : Registry) (serial : Serial) : Prop :=
  (∃ address measurement, registry.find? address measurement = some serial) ∨
    ∃ trial, registry.trial? serial = some trial ∧ trial.isDone = true

/-- The second registry comes about from the first by registry operations: it is
sound, settled trials stay settled, and so are the trials it created. -/
structure Evolves (before after : Registry) : Prop where
  sound : after.Sound
  settled : ∀ serial, before.Settled serial → after.Settled serial
  created : ∀ serial trial, before.trial? serial = none → after.trial? serial = some trial →
    after.Settled serial

variable {registry : Registry}

theorem Evolves.refl (hsound : registry.Sound) : registry.Evolves registry where
  sound := hsound
  settled := fun _ h => h
  created := by
    intro serial trial hnone hsome
    rw [hnone] at hsome
    exact absurd hsome (by simp)

theorem Evolves.trans {first second third : Registry} (hfirst : first.Evolves second)
    (hsecond : second.Evolves third) : first.Evolves third where
  sound := hsecond.sound
  settled := fun serial h => hsecond.settled serial (hfirst.settled serial h)
  created := by
    intro serial trial hnone hsome
    cases hmiddle : second.trial? serial with
    | none => exact hsecond.created serial trial hmiddle hsome
    | some _ => exact hsecond.settled serial (hfirst.created serial _ hnone hmiddle)

/-! ## Changing a trial -/

theorem Settled.change {other : Serial} (h : registry.Settled other) (serial : Serial)
    {operation : Trial → Trial} (hoperation : ∀ trial : Trial, trial.Precedes (operation trial)) :
    (registry.change serial operation).Settled other := by
  rcases h with hkey | ⟨trial, htrial, hdone⟩
  · exact Or.inl hkey
  · right
    rw [trial?_change, htrial]
    split
    · exact ⟨operation trial, rfl, (hoperation trial).isDone_of_isDone hdone⟩
    · exact ⟨trial, rfl, hdone⟩

theorem evolves_change (hsound : registry.Sound) (serial : Serial) {operation : Trial → Trial}
    (hoperation : ∀ trial : Trial, trial.Precedes (operation trial)) :
    registry.Evolves (registry.change serial operation) where
  sound := hsound.change serial hoperation
  settled := fun _ h => h.change serial hoperation
  created := by
    intro other trial hnone hsome
    rw [trial?_change, hnone] at hsome
    simp at hsome

theorem Settled.append {serial : Serial} (h : registry.Settled serial) (added : Trial) :
    ({ registry with trials := registry.trials ++ [added] } : Registry).Settled serial := by
  rcases h with hkey | ⟨trial, htrial, hdone⟩
  · exact Or.inl hkey
  · have hlt := lt_of_trial? htrial
    exact Or.inr ⟨trial, by rw [trial?_append, if_neg (Nat.ne_of_lt hlt), htrial], hdone⟩

/-! ## Deleting -/

theorem evolves_delete (hsound : registry.Sound) (address : Address) (measurement : Measurement) :
    registry.Evolves (registry.delete address measurement).2 := by
  cases hfind : registry.find? address measurement with
  | none =>
      rw [delete_of_free hfind]
      exact Evolves.refl hsound
  | some removed =>
      rw [delete_of_find hfind]
      have hremoved := hsound.remove address measurement
      refine ⟨hremoved.change removed Trial.precedes_finish, ?_, ?_⟩
      · intro serial hsettled
        by_cases hserial : removed = serial
        · -- the trial that leaves the registry is the one that is finished
          subst hserial
          obtain ⟨trial, htrial, -, -⟩ := hsound.trial _ _ _ hfind
          exact Or.inr ⟨trial.finish.2, by simp [trial?_remove, htrial], rfl⟩
        · have hkept : (registry.remove address measurement).2.Settled serial := by
            rcases hsettled with ⟨other, kind, hkey⟩ | ⟨trial, htrial, hdone⟩
            · refine Or.inl ⟨other, kind, ?_⟩
              rw [find?_remove hsound, if_neg, hkey]
              rintro ⟨rfl, rfl⟩
              exact hserial (Option.some.inj (hfind.symm.trans hkey))
            · exact Or.inr ⟨trial, by rw [trial?_remove, htrial], hdone⟩
          exact hkept.change removed Trial.precedes_finish
      · intro serial trial hnone hsome
        rw [trial?_change, trial?_remove, hnone] at hsome
        simp at hsome

theorem evolves_release (hsound : registry.Sound) (serial : Serial) :
    registry.Evolves (registry.release serial).2 := by
  unfold release
  split
  case h_1 => exact Evolves.refl hsound
  case h_2 trial htrial =>
    dsimp only
    have hrelease : registry.Evolves (registry.change serial fun _ => trial.release.2) := by
      have heq : (registry.change serial fun _ => trial.release.2) =
          registry.change serial fun trial => trial.release.2 :=
        change_congr htrial rfl
      rw [heq]
      exact evolves_change hsound serial Trial.precedes_release
    split
    · exact hrelease
    · split
      · exact hrelease.trans (evolves_delete hrelease.sound _ _)
      · exact hrelease

/-! ## Creating -/

section Creating

variable (now : Instant) (peer : Endpoint) (measurement : Measurement) (request : Request)
  (reducer : Option Reducer) (interval : Nat)

theorem evolves_createOrGet (hsound : registry.Sound) :
    registry.Evolves (registry.createOrGet now peer measurement request reducer interval).2 := by
  cases hfind : registry.find? peer.address measurement with
  | some serial =>
      rw [createOrGet_of_find _ _ _ _ _ _ hfind]
      exact evolves_change hsound serial Trial.precedes_acquire
  | none =>
      -- the new number was not used before, so no settled trial is concerned
      refine ⟨hsound.createOrGet_of_free _ _ _ _ _ _ hfind, ?_, ?_⟩
      · rintro serial (⟨other, kind, hkey⟩ | ⟨trial, htrial, hdone⟩)
        · refine Or.inl ⟨other, kind, ?_⟩
          rw [find?_createOrGet, if_neg, hkey]
          rintro ⟨rfl, rfl⟩
          rw [hfind] at hkey
          exact absurd hkey (by simp)
        · refine Or.inr ⟨trial, ?_, hdone⟩
          have hlt := lt_of_trial? htrial
          rw [trial?_createOrGet_of_free _ _ _ _ _ _ hfind, if_neg (Nat.ne_of_lt hlt), htrial]
      · intro serial trial hnone hsome
        rw [trial?_createOrGet_of_free _ _ _ _ _ _ hfind] at hsome
        split at hsome
        case isTrue h =>
          refine Or.inl ⟨peer.address, measurement, ?_⟩
          rw [find?_createOrGet, if_pos ⟨rfl, rfl⟩, createOrGet_of_free _ _ _ _ _ _ hfind, h]
        case isFalse =>
          rw [hnone] at hsome
          exact absurd hsome (by simp)

theorem evolves_createUnregistered (hsound : registry.Sound) :
    registry.Evolves
      (registry.createUnregistered now peer measurement request reducer interval).2 := by
  have hcreate := evolves_createOrGet now peer measurement request reducer interval hsound
  unfold createUnregistered
  split
  case h_1 _ _ _ heq =>
    rw [heq] at hcreate
    exact hcreate
  case h_2 _ serial _ heq =>
    rw [heq] at hcreate
    exact hcreate.trans (evolves_change hcreate.sound serial Trial.precedes_release)

theorem evolves_create (hsound : registry.Sound) :
    registry.Evolves (registry.create now peer measurement request reducer interval).2 := by
  unfold create
  split
  · exact Evolves.refl hsound
  · exact evolves_createUnregistered now peer measurement request reducer interval hsound

end Creating

/-! ## Sweeping -/

/-- A sweep makes trials dormant and deletes trials, and nothing else. -/
theorem sweep_induction {motive : Registry → Prop} (hstart : motive registry)
    (hdormant : ∀ registry serial, motive registry →
      motive (registry.change serial Trial.setDormant))
    (hdelete : ∀ registry address measurement, motive registry →
      motive (registry.delete address measurement).2)
    (now : Instant) (dormantAfter deleteAfter : Nat) :
    motive (registry.sweep now dormantAfter deleteAfter).2 := by
  have hdormants : ∀ (serials : List Serial) (registry : Registry), motive registry →
      motive (setAllDormant serials registry) := by
    intro serials
    unfold setAllDormant
    induction serials with
    | nil => exact fun registry h => h
    | cons serial rest ih => exact fun registry h => ih _ (hdormant registry serial h)
  have hdeletes : ∀ (keys : List (Address × Measurement)) (registry : Registry),
      motive registry → motive (deleteAll keys registry).2 := by
    intro keys
    induction keys with
    | nil => exact fun registry h => h
    | cons key rest ih => exact fun registry h => ih _ (hdelete registry key.1 key.2 h)
  exact hdeletes _ _ (hdormants _ _ hstart)

theorem evolves_sweep (hsound : registry.Sound) (now : Instant) (dormantAfter deleteAfter : Nat) :
    registry.Evolves (registry.sweep now dormantAfter deleteAfter).2 := by
  refine sweep_induction (Evolves.refl hsound) ?_ ?_ now dormantAfter deleteAfter
  · exact fun registry serial h =>
      h.trans (evolves_change h.sound serial Trial.precedes_setDormant)
  · exact fun registry address measurement h =>
      h.trans (evolves_delete h.sound address measurement)

end LinkMeter.Registry
