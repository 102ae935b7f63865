import LinkMeter.Proofs.Registry.Sound
import LinkMeter.Proofs.Trial.Crew

/-!
# Where trials come from

A trial keeps what it was created with: its measurement, its peer and its
request (`Trial.Origin`).  A registry lists the origins of its trials in the
order of creation (`Registry.origins`).  Of all operations only creating a trial
under a free key adds to the list, and nothing takes away from it or changes it.
-/

namespace LinkMeter

open Pacing (Instant)

namespace Trial

/-- What a trial is created with for good. -/
structure Origin where
  measurement : Measurement
  peer : Endpoint
  request : Request
  deriving DecidableEq, Inhabited

def origin (trial : Trial) : Origin := ⟨trial.measurement, trial.peer, trial.request⟩

variable (trial : Trial)

theorem origin_emit (outcome : Outcome) : (trial.emit outcome).origin = trial.origin := by
  rw [emit, enqueue]
  split <;> rfl

theorem origin_add (sample : Outcome) : (trial.add sample).origin = trial.origin := by
  rw [add]
  split
  · exact origin_emit trial sample
  · rfl

theorem origin_foldl_add (samples : List Outcome) :
    (samples.foldl add trial).origin = trial.origin := by
  induction samples generalizing trial with
  | nil => rfl
  | cons sample samples ih => exact (ih (trial.add sample)).trans (origin_add trial sample)

theorem origin_publish (now : Instant) : (trial.publish now).2.origin = trial.origin := by
  rw [publish]
  split
  · rfl
  · dsimp only
    split
    · rfl
    · split
      · exact origin_emit _ _
      · rfl

theorem origin_perform (act : Act) : (trial.perform act).origin = trial.origin := by
  cases act with
  | add sample => exact origin_add trial sample
  | emit outcome => exact origin_emit trial outcome
  | publish now => exact origin_publish trial now
  | receive =>
      rw [perform, receive]
      split <;> rfl
  | claim | drain | close | finish | touch now | setDormant | tick now => rfl

theorem origin_foldl_perform (acts : List Act) :
    (acts.foldl perform trial).origin = trial.origin := by
  induction acts generalizing trial with
  | nil => rfl
  | cons act acts ih => exact (ih (trial.perform act)).trans (origin_perform trial act)

end Trial

namespace Registry

/-- The origins of all trials, by their numbers. -/
def origins (registry : Registry) : List Trial.Origin := registry.trials.map Trial.origin

variable {registry : Registry} {serial : Serial}

theorem getElem?_origins : registry.origins[serial]? = (registry.trial? serial).map Trial.origin :=
  List.getElem?_map

@[simp] theorem length_origins : registry.origins.length = registry.trials.length :=
  List.length_map _

theorem origins_change (registry : Registry) (serial : Serial) {operation : Trial → Trial}
    (hoperation : ∀ trial, registry.trial? serial = some trial →
      (operation trial).origin = trial.origin) :
    (registry.change serial operation).origins = registry.origins := by
  apply List.ext_getElem?
  intro other
  rw [getElem?_origins, getElem?_origins, trial?_change]
  split
  case isTrue h =>
    subst h
    cases htrial : registry.trial? serial with
    | none => rfl
    | some trial => exact congrArg some (hoperation trial htrial)
  case isFalse => rfl

theorem origins_delete (registry : Registry) (address : Address) (measurement : Measurement) :
    (registry.delete address measurement).2.origins = registry.origins := by
  cases hfind : registry.find? address measurement with
  | none => rw [delete_of_free hfind]
  | some removed =>
      have hremoved : (registry.remove address measurement).2.origins = registry.origins := by
        rw [origins, trials_remove, origins]
      rw [delete_of_find hfind]
      exact (origins_change _ removed fun trial _ => trial.origin_perform .finish).trans hremoved

theorem origins_release (registry : Registry) (serial : Serial) :
    (registry.release serial).2.origins = registry.origins := by
  unfold release
  split
  case h_1 => rfl
  case h_2 trial htrial =>
    dsimp only
    have hrelease : (registry.change serial fun _ => trial.release.2).origins =
        registry.origins := by
      refine origins_change registry serial fun held hheld => ?_
      rw [htrial] at hheld
      cases hheld
      rfl
    split
    · exact hrelease
    · split
      · exact (origins_delete _ _ _).trans hrelease
      · exact hrelease

/-- Creating adds an origin if the key is free. -/
theorem origins_createOrGet (registry : Registry) (now : Instant) (peer : Endpoint)
    (measurement : Measurement) (request : Request) (reducer : Option Reducer) (interval : Nat) :
    (registry.createOrGet now peer measurement request reducer interval).2.origins =
      registry.origins ++
        if registry.find? peer.address measurement = none then [⟨measurement, peer, request⟩]
        else [] := by
  cases hfind : registry.find? peer.address measurement with
  | some serial =>
      rw [createOrGet_of_find _ _ _ _ _ _ hfind, if_neg (by simp), List.append_nil]
      exact origins_change _ _ fun _ _ => rfl
  | none =>
      rw [createOrGet_of_free _ _ _ _ _ _ hfind, if_pos rfl, origins, trials_putSession,
        List.map_append]
      rfl

end Registry

end LinkMeter
