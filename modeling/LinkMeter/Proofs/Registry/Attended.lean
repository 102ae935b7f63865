import LinkMeter.Proofs.Registry.References
import LinkMeter.Proofs.Trial.Steady

/-!
# Registries in which only holders finish trials

As long as nobody deletes a trial over the heads of its holders, a trial is
registered as long as somebody holds it, goes on as long as it is registered,
and is finished when it leaves (`Registry.Attended`).  Creating, giving back and
every change that lets the trials run on keep a registry attended.

`Registry.Steady` is the relation between a registry and a later one in which
the same trials are registered and run on.  `Registry.Continues` is weaker:
every trial is still there, under its number and with its key.
-/

namespace LinkMeter.Registry

open Pacing (Instant)

variable {registry : Registry} {holders next : Serial → ℕ} {serial : Serial}

/-! ## Trials that run on -/

/-- The second registry comes about from the first by changes of trials that run on. -/
structure Steady (before after : Registry) : Prop where
  sessions_eq : after.sessions = before.sessions
  length_eq : after.trials.length = before.trials.length
  trial : ∀ serial trial, before.trial? serial = some trial →
    ∃ later, after.trial? serial = some later ∧ trial.Steady later

theorem Steady.refl (registry : Registry) : registry.Steady registry where
  sessions_eq := rfl
  length_eq := rfl
  trial := fun _ trial htrial => ⟨trial, htrial, Trial.Steady.refl trial⟩

theorem Steady.trans {first second third : Registry} (hfirst : first.Steady second)
    (hsecond : second.Steady third) : first.Steady third where
  sessions_eq := hsecond.sessions_eq.trans hfirst.sessions_eq
  length_eq := hsecond.length_eq.trans hfirst.length_eq
  trial := by
    intro serial trial htrial
    obtain ⟨middle, hmiddle, hsteady⟩ := hfirst.trial serial trial htrial
    obtain ⟨later, hlater, hon⟩ := hsecond.trial serial middle hmiddle
    exact ⟨later, hlater, hsteady.trans hon⟩

theorem steady_change (registry : Registry) (serial : Serial) {operation : Trial → Trial}
    (hoperation : ∀ trial, registry.trial? serial = some trial → trial.Steady (operation trial)) :
    registry.Steady (registry.change serial operation) where
  sessions_eq := rfl
  length_eq := length_trials_change serial operation
  trial := by
    intro other trial htrial
    rw [trial?_change, htrial]
    split
    case isTrue h =>
      subst h
      exact ⟨operation trial, rfl, hoperation trial htrial⟩
    case isFalse => exact ⟨trial, rfl, Trial.Steady.refl trial⟩

theorem Steady.find? {before after : Registry} (h : before.Steady after) (address : Address)
    (measurement : Measurement) :
    after.find? address measurement = before.find? address measurement := by
  rw [Registry.find?, Registry.find?, session?, session?, h.sessions_eq]

/-- Nothing comes about that was not there. -/
theorem Steady.old {before after : Registry} (h : before.Steady after) {later : Trial}
    (hlater : after.trial? serial = some later) :
    ∃ trial, before.trial? serial = some trial ∧ trial.Steady later := by
  have hlt : serial < before.trials.length := h.length_eq ▸ lt_of_trial? hlater
  obtain ⟨found, hfound, hsteady⟩ := h.trial serial _ (List.getElem?_eq_getElem hlt)
  rw [hlater] at hfound
  cases hfound
  exact ⟨_, List.getElem?_eq_getElem hlt, hsteady⟩

theorem Steady.shrinks {before after : Registry} (h : before.Steady after)
    (hsound : before.Sound) : before.Shrinks after where
  sound := by
    refine ⟨h.sessions_eq ▸ hsound.nodup, ?_, ?_⟩
    · intro address session hsession
      rw [session?, h.sessions_eq] at hsession
      exact hsound.session address session hsession
    · intro address measurement serial hfind
      rw [h.find?] at hfind
      obtain ⟨trial, htrial, hpeer, hmeasurement⟩ := hsound.trial _ _ _ hfind
      obtain ⟨later, hlater, hsteady⟩ := h.trial serial trial htrial
      exact ⟨later, hlater, hsteady.peer_eq ▸ hpeer, hsteady.measurement_eq ▸ hmeasurement⟩
  length_le := Nat.le_of_eq h.length_eq.symm
  find?_of_find? := fun address measurement serial hfind => by rwa [h.find?] at hfind
  references_eq := by
    intro serial trial _ htrial
    obtain ⟨old, hold, hsteady⟩ := h.old htrial
    exact ⟨old, hold, hsteady.references_eq⟩

/-! ## Trials that stay -/

/-- Every trial keeps its number, its key and its interval, and stays finished. -/
def Continues (before after : Registry) : Prop :=
  ∀ serial trial, before.trial? serial = some trial →
    ∃ later, after.trial? serial = some later ∧ trial.Precedes later

theorem Steady.continues {before after : Registry} (h : before.Steady after) :
    before.Continues after := by
  intro serial trial htrial
  obtain ⟨later, hlater, hsteady⟩ := h.trial serial trial htrial
  exact ⟨later, hlater, hsteady.precedes⟩

theorem Continues.trans {first second third : Registry} (hfirst : first.Continues second)
    (hsecond : second.Continues third) : first.Continues third := by
  intro serial trial htrial
  obtain ⟨middle, hmiddle, hon⟩ := hfirst serial trial htrial
  obtain ⟨later, hlater, hlast⟩ := hsecond serial middle hmiddle
  exact ⟨later, hlater, hon.trans hlast⟩

theorem continues_change (registry : Registry) (serial : Serial) {operation : Trial → Trial}
    (hoperation : ∀ trial : Trial, trial.Precedes (operation trial)) :
    registry.Continues (registry.change serial operation) := by
  intro other trial htrial
  rw [trial?_change, htrial]
  split
  · exact ⟨operation trial, rfl, hoperation trial⟩
  · exact ⟨trial, rfl, rfl, rfl, rfl, id⟩

theorem continues_delete (registry : Registry) (address : Address) (measurement : Measurement) :
    registry.Continues (registry.delete address measurement).2 := by
  cases hfind : registry.find? address measurement with
  | none =>
      rw [delete_of_free hfind]
      exact fun _ trial htrial => ⟨trial, htrial, rfl, rfl, rfl, id⟩
  | some removed =>
      rw [delete_of_find hfind]
      intro serial trial htrial
      rw [← trial?_remove registry address measurement] at htrial
      exact continues_change _ removed Trial.precedes_finish serial trial htrial

theorem continues_createOrGet (registry : Registry) (now : Instant) (peer : Endpoint)
    (measurement : Measurement) (request : Request) (reducer : Option Reducer) (interval : ℕ) :
    registry.Continues
      (registry.createOrGet now peer measurement request reducer interval).2 := by
  cases hfind : registry.find? peer.address measurement with
  | some found =>
      rw [createOrGet_of_find _ _ _ _ _ _ hfind]
      exact continues_change registry found Trial.precedes_acquire
  | none =>
      intro serial trial htrial
      rw [trial?_createOrGet_of_free _ _ _ _ _ _ hfind,
        if_neg (Nat.ne_of_lt (lt_of_trial? htrial))]
      exact ⟨trial, htrial, rfl, rfl, rfl, id⟩

/-- Giving back concerns the trial that is given back only. -/
theorem trial?_release_of_ne {other : Serial} (hother : other ≠ serial) :
    (registry.release serial).2.trial? other = registry.trial? other := by
  have hchange : ∀ (registry : Registry) (operation : Trial → Trial),
      (registry.change serial operation).trial? other = registry.trial? other := by
    intro registry operation
    rw [trial?_change, if_neg (Ne.symm hother)]
  unfold release
  split
  case h_1 => rfl
  case h_2 trial _ =>
    dsimp only
    split
    · exact hchange registry _
    · split
      case isTrue hfind =>
        rw [delete_of_find hfind, hchange, trial?_remove, hchange]
      case isFalse => exact hchange registry _

theorem continues_release (registry : Registry) (serial : Serial) :
    registry.Continues (registry.release serial).2 := by
  unfold release
  split
  case h_1 => exact fun _ trial htrial => ⟨trial, htrial, rfl, rfl, rfl, id⟩
  case h_2 trial htrial =>
    have hreleased : registry.Continues (registry.change serial fun _ => trial.release.2) := by
      rw [show (registry.change serial fun _ => trial.release.2) =
        registry.change serial fun trial => trial.release.2 from change_congr htrial rfl]
      exact continues_change registry serial Trial.precedes_release
    dsimp only
    split
    · exact hreleased
    · split
      · exact hreleased.trans (continues_delete _ _ _)
      · exact hreleased

theorem continues_sweep (registry : Registry) (now : Instant) (dormantAfter deleteAfter : ℕ) :
    registry.Continues (registry.sweep now dormantAfter deleteAfter).2 := by
  refine sweep_induction (motive := fun after => registry.Continues after)
    (Steady.refl registry).continues ?_ ?_ now dormantAfter deleteAfter
  · exact fun after serial h => h.trans (continues_change after serial Trial.precedes_setDormant)
  · exact fun after address measurement h => h.trans (continues_delete after address measurement)

/-! ## Attended registries -/

/-- Holders keep their trials registered, registered trials go on, and a trial that is not
registered is finished. -/
structure Attended (registry : Registry) (holders : Serial → ℕ) : Prop where
  held : registry.HeldBy holders
  running : ∀ serial trial, registry.Registers serial → registry.trial? serial = some trial →
    trial.isDone = false
  settled : ∀ serial trial, registry.trial? serial = some trial → registry.Settled serial

theorem attended_empty : ({} : Registry).Attended fun _ => 0 where
  held := heldBy_empty
  running := by
    intro serial trial _ htrial
    exact absurd htrial (by simp [trial?])
  settled := by
    intro serial trial htrial
    exact absurd htrial (by simp [trial?])

private theorem Attended.settled_of_evolves (hattended : registry.Attended holders)
    {after : Registry} (hevolves : registry.Evolves after) (serial : Serial) (trial : Trial)
    (htrial : after.trial? serial = some trial) : after.Settled serial := by
  cases hbefore : registry.trial? serial with
  | none => exact hevolves.created serial trial hbefore htrial
  | some old => exact hevolves.settled serial (hattended.settled serial old hbefore)

theorem Attended.steady (hattended : registry.Attended holders) {after : Registry}
    (hsteady : registry.Steady after) : after.Attended holders where
  held := hattended.held.keep (hsteady.shrinks hattended.held.sound) hsteady.find?
  running := by
    rintro serial trial ⟨address, measurement, hfind⟩ htrial
    obtain ⟨old, hold, hon⟩ := hsteady.old htrial
    rw [hsteady.find?] at hfind
    rw [hon.isDone_eq]
    exact hattended.running serial old ⟨address, measurement, hfind⟩ hold
  settled := by
    intro serial trial htrial
    obtain ⟨old, hold, hon⟩ := hsteady.old htrial
    rcases hattended.settled serial old hold with
        ⟨address, measurement, hfind⟩ | ⟨found, hfound, hdone⟩
    · exact .inl ⟨address, measurement, by rw [hsteady.find?, hfind]⟩
    · rw [hold] at hfound
      cases hfound
      exact .inr ⟨trial, htrial, hon.isDone_eq.trans hdone⟩

theorem Attended.createOrGet (hattended : registry.Attended holders) (now : Instant)
    (peer : Endpoint) (measurement : Measurement) (request : Request)
    (reducer : Option Reducer) (interval : ℕ)
    (hsame : ∀ serial, next serial = holders serial +
      if serial = (registry.createOrGet now peer measurement request reducer interval).1.1 then 1
      else 0) :
    (registry.createOrGet now peer measurement request reducer interval).2.Attended next where
  held := hattended.held.createOrGet now peer measurement request reducer interval hsame
  running := by
    have hsound := hattended.held.sound
    cases hfind : registry.find? peer.address measurement with
    | some found =>
        rw [createOrGet_of_find _ _ _ _ _ _ hfind]
        intro serial trial hregisters htrial
        rw [trial?_change] at htrial
        split at htrial
        · obtain ⟨old, hold, rfl⟩ := Option.map_eq_some_iff.1 htrial
          exact hattended.running serial old hregisters hold
        · exact hattended.running serial trial hregisters htrial
    | none =>
        rintro serial trial ⟨address, kind, hkey⟩ htrial
        rw [trial?_createOrGet_of_free _ _ _ _ _ _ hfind] at htrial
        rw [find?_createOrGet, createOrGet_of_free _ _ _ _ _ _ hfind] at hkey
        split at htrial
        case isTrue =>
          cases htrial
          rfl
        case isFalse hold =>
          split at hkey
          · exact absurd (Option.some.inj hkey).symm hold
          · exact hattended.running serial trial ⟨address, kind, hkey⟩ htrial
  settled := hattended.settled_of_evolves
    (evolves_createOrGet now peer measurement request reducer interval hattended.held.sound)

theorem Attended.release (hattended : registry.Attended holders) (hheldBy : 0 < holders serial)
    (hsame : ∀ other, next other + (if other = serial then 1 else 0) = holders other) :
    (registry.release serial).2.Attended next where
  held := hattended.held.release hheldBy hsame
  running := by
    have hsound := hattended.held.sound
    intro other trial hregisters htrial
    have hbefore : registry.Registers other := by
      obtain ⟨address, measurement, hfind⟩ := hregisters
      exact ⟨address, measurement, find?_of_find?_release hsound hfind⟩
    by_cases hother : other = serial
    · -- the trial is registered still, so others hold it and nobody finished it
      subst hother
      have hpos := ((hattended.held.release hheldBy hsame).registers_iff other).1 hregisters
      have hserial := hsame other
      rw [if_pos rfl] at hserial
      rw [hattended.held.release_of_others (by omega), trial?_change, if_pos rfl] at htrial
      obtain ⟨old, hold, rfl⟩ := Option.map_eq_some_iff.1 htrial
      exact hattended.running other old hbefore hold
    · rw [trial?_release_of_ne hother] at htrial
      exact hattended.running other trial hbefore htrial
  settled := hattended.settled_of_evolves (evolves_release hattended.held.sound serial)

/-- When the last holder has gone, nothing is registered and every trial is finished. -/
theorem Attended.of_deserted (hattended : registry.Attended holders)
    (hdeserted : ∀ serial, holders serial = 0) :
    registry.isEmpty = true ∧
      ∀ serial trial, registry.trial? serial = some trial → trial.isDone = true := by
  have hnot : ∀ serial, ¬ registry.Registers serial := by
    intro serial
    rw [hattended.held.registers_iff, hdeserted]
    exact Nat.lt_irrefl 0
  constructor
  · exact hattended.held.sound.isEmpty_of_free hnot
  · intro serial trial htrial
    rcases hattended.settled serial trial htrial with hregisters | ⟨found, hfound, hdone⟩
    · exact absurd hregisters (hnot serial)
    · rw [htrial] at hfound
      cases hfound
      exact hdone

end LinkMeter.Registry
