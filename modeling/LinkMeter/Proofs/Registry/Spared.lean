import LinkMeter.Proofs.Registry.Attended
import LinkMeter.Proofs.Registry.History

/-!
# Measurements that are left alone

Those who use a registry under the keys of one measurement and those who use it
under other keys do not meet.  An event spares a measurement if it names none of
its keys and none of its trials (`Registry.Event.Spares`).  A sweep spares all
measurements but those over datagrams.

Whatever spares a measurement leaves its keys and its trials as they are
(`Registry.spared_step`).
-/

namespace LinkMeter

open Pacing (Instant)

namespace Registry

/-- The keys and the trials of a measurement are in the second registry what they are in the
first. -/
structure Spared (kind : Measurement) (before after : Registry) : Prop where
  sound : after.Sound
  find?_eq : ∀ address, after.find? address kind = before.find? address kind
  trial?_iff : ∀ serial trial, trial.measurement = kind →
    (after.trial? serial = some trial ↔ before.trial? serial = some trial)

/-- The trial with a number measures something else, if there is one. -/
def IsOther (kind : Measurement) (registry : Registry) (serial : Serial) : Prop :=
  ∀ trial ∈ registry.trial? serial, trial.measurement ≠ kind

instance (kind : Measurement) (registry : Registry) (serial : Serial) :
    Decidable (registry.IsOther kind serial) :=
  inferInstanceAs (Decidable (∀ trial ∈ registry.trial? serial, _))

variable {kind : Measurement} {registry : Registry} {serial : Serial}

theorem Spared.refl (hsound : registry.Sound) : registry.Spared kind registry where
  sound := hsound
  find?_eq := fun _ => rfl
  trial?_iff := fun _ _ _ => Iff.rfl

theorem Spared.trans {first second third : Registry} (hfirst : first.Spared kind second)
    (hsecond : second.Spared kind third) : first.Spared kind third where
  sound := hsecond.sound
  find?_eq := fun address => (hsecond.find?_eq address).trans (hfirst.find?_eq address)
  trial?_iff := fun serial trial hkind =>
    (hsecond.trial?_iff serial trial hkind).trans (hfirst.trial?_iff serial trial hkind)

theorem Spared.isOther {before after : Registry} (h : before.Spared kind after)
    (hother : before.IsOther kind serial) : after.IsOther kind serial := by
  intro trial htrial hkind
  exact hother trial ((h.trial?_iff serial trial hkind).mp htrial) hkind

/-! ## One operation -/

theorem spared_change (hsound : registry.Sound) (hother : registry.IsOther kind serial)
    {operation : Trial → Trial} (hoperation : ∀ trial : Trial, trial.Precedes (operation trial)) :
    registry.Spared kind (registry.change serial operation) where
  sound := hsound.change serial hoperation
  find?_eq := fun _ => rfl
  trial?_iff := by
    intro other trial hkind
    rw [trial?_change]
    split
    case isFalse => exact Iff.rfl
    case isTrue hserial =>
      subst hserial
      constructor
      · intro hafter
        obtain ⟨old, hold, rfl⟩ := Option.map_eq_some_iff.mp hafter
        exact absurd ((hoperation old).measurement_eq.symm.trans hkind) (hother old hold)
      · intro hbefore
        exact absurd hkind (hother trial hbefore)

theorem spared_append (hsound : registry.Sound) {added : Trial}
    (hadded : added.measurement ≠ kind) :
    registry.Spared kind { registry with trials := registry.trials ++ [added] } where
  sound := hsound.append added
  find?_eq := fun _ => rfl
  trial?_iff := by
    intro other trial hkind
    rw [trial?_append]
    split
    case isFalse => exact Iff.rfl
    case isTrue hlast =>
      constructor
      · intro hnew
        obtain rfl := Option.some.inj hnew
        exact absurd hkind hadded
      · intro hold
        exact absurd (lt_of_trial? hold) (hlast ▸ Nat.lt_irrefl _)

/-- What stands under a key of another measurement measures something else. -/
theorem Sound.isOther_of_find? (hsound : registry.Sound) {address : Address}
    {measurement : Measurement} (hmeasurement : measurement ≠ kind)
    (hfind : registry.find? address measurement = some serial) : registry.IsOther kind serial := by
  intro trial htrial
  obtain ⟨found, hfound, -, rfl⟩ := hsound.trial _ _ _ hfind
  rw [Option.mem_def, hfound] at htrial
  cases htrial
  exact hmeasurement

theorem spared_delete (hsound : registry.Sound) {measurement : Measurement}
    (hmeasurement : measurement ≠ kind) (address : Address) :
    registry.Spared kind (registry.delete address measurement).2 := by
  cases hfind : registry.find? address measurement with
  | none =>
      rw [delete_of_free hfind]
      exact Spared.refl hsound
  | some removed =>
      have hremove : registry.Spared kind (registry.remove address measurement).2 := by
        refine ⟨hsound.remove address measurement, fun other => ?_, fun serial trial _ => ?_⟩
        · rw [find?_remove hsound, if_neg fun h => hmeasurement h.2.symm]
        · rw [trial?_remove]
      rw [delete_of_find hfind]
      exact hremove.trans (spared_change hremove.sound
        (hremove.isOther (hsound.isOther_of_find? hmeasurement hfind)) Trial.precedes_finish)

theorem spared_release (hsound : registry.Sound) (hother : registry.IsOther kind serial) :
    registry.Spared kind (registry.release serial).2 := by
  unfold release
  split
  case h_1 => exact Spared.refl hsound
  case h_2 trial htrial =>
    have hreleased : registry.Spared kind (registry.change serial fun _ => trial.release.2) := by
      rw [show (registry.change serial fun _ => trial.release.2) =
        registry.change serial fun trial => trial.release.2 from change_congr htrial rfl]
      exact spared_change hsound hother Trial.precedes_release
    dsimp only
    split
    · exact hreleased
    · split
      · exact hreleased.trans
          (spared_delete hreleased.sound (hother trial htrial) trial.peer.address)
      · exact hreleased

section Creating

variable (now : Instant) {peer : Endpoint} {measurement : Measurement} (request : Request)
  (reducer : Option Reducer) (interval : ℕ)

theorem spared_createOrGet (hsound : registry.Sound) (hmeasurement : measurement ≠ kind) :
    registry.Spared kind
      (registry.createOrGet now peer measurement request reducer interval).2 := by
  cases hfind : registry.find? peer.address measurement with
  | some found =>
      rw [createOrGet_of_find _ _ _ _ _ _ hfind]
      exact spared_change hsound (hsound.isOther_of_find? hmeasurement hfind) Trial.precedes_acquire
  | none =>
      let added := (Trial.start now measurement peer request reducer interval).acquire
      have happend : registry.Spared kind { registry with trials := registry.trials ++ [added] } :=
        spared_append hsound hmeasurement
      refine ⟨hsound.createOrGet_of_free _ _ _ _ _ _ hfind, fun address => ?_, ?_⟩
      · rw [find?_createOrGet, if_neg fun h => hmeasurement h.2.symm]
      · intro serial trial hkind
        rw [← happend.trial?_iff serial trial hkind, trial?_createOrGet_of_free _ _ _ _ _ _ hfind,
          trial?_append]

theorem spared_createUnregistered (hsound : registry.Sound) (hmeasurement : measurement ≠ kind) :
    registry.Spared kind
      (registry.createUnregistered now peer measurement request reducer interval).2 := by
  cases hfind : registry.find? peer.address measurement with
  | some found =>
      rw [createUnregistered_of_find _ _ _ _ _ _ hfind]
      exact Spared.refl hsound
  | none =>
      rw [createUnregistered_of_free _ _ _ _ _ _ hfind]
      exact spared_createOrGet now request reducer interval hsound hmeasurement

end Creating

/-! ## A sweep -/

theorem Sound.find?_of_mem_entries (hsound : registry.Sound) {address : Address}
    {measurement : Measurement} (hmem : (address, measurement, serial) ∈ registry.entries) :
    registry.find? address measurement = some serial := by
  obtain ⟨⟨key, session⟩, hsession, hentry⟩ := List.mem_flatMap.mp hmem
  obtain ⟨⟨measured, number⟩, htrial, heq⟩ := List.mem_map.mp hentry
  have hlookup : registry.session? key = some session := lookup_of_mem hsound.nodup hsession
  have hkept := hsound.session key session hlookup
  simp only [Prod.mk.injEq] at heq
  obtain ⟨rfl, rfl, rfl⟩ := heq
  rw [find?, hkept.address_eq, hlookup]
  exact lookup_of_mem hkept.nodup htrial

/-- A verdict that does something is one about datagrams. -/
theorem transport_of_verdict {now : Instant} {dormantAfter deleteAfter : ℕ}
    (hverdict : registry.verdict now dormantAfter deleteAfter serial ≠ .keep) :
    ∃ trial, registry.trial? serial = some trial ∧ trial.measurement.transport = .udp := by
  rw [verdict] at hverdict
  split at hverdict
  case h_1 trial htrial =>
    refine ⟨trial, htrial, ?_⟩
    by_contra hother
    rw [Trial.verdict, if_pos hother] at hverdict
    exact hverdict rfl
  case h_2 => exact absurd rfl hverdict

theorem spared_setAllDormant (hsound : registry.Sound) {serials : List Serial}
    (hothers : ∀ serial ∈ serials, registry.IsOther kind serial) :
    registry.Spared kind (setAllDormant serials registry) := by
  induction serials generalizing registry with
  | nil => exact Spared.refl hsound
  | cons serial serials ih =>
      have hfirst : registry.Spared kind (registry.change serial Trial.setDormant) :=
        spared_change hsound (hothers serial List.mem_cons_self) Trial.precedes_setDormant
      exact hfirst.trans (ih hfirst.sound fun other hother =>
        hfirst.isOther (hothers other (List.mem_cons_of_mem _ hother)))

theorem spared_deleteAll (hsound : registry.Sound) {keys : List (Address × Measurement)}
    (hothers : ∀ key ∈ keys, key.2 ≠ kind) : registry.Spared kind (deleteAll keys registry).2 := by
  induction keys generalizing registry with
  | nil => exact Spared.refl hsound
  | cons key keys ih =>
      have hfirst : registry.Spared kind (registry.delete key.1 key.2).2 :=
        spared_delete hsound (hothers key List.mem_cons_self) key.1
      exact hfirst.trans (ih hfirst.sound fun other hother =>
        hothers other (List.mem_cons_of_mem _ hother))

theorem spared_sweep (hsound : registry.Sound) (hkind : kind.transport ≠ .udp) (now : Instant)
    (dormantAfter deleteAfter : ℕ) :
    registry.Spared kind (registry.sweep now dormantAfter deleteAfter).2 := by
  have hjudged : ∀ (address : Address) (measurement : Measurement) (serial : Serial)
      (verdict : Verdict), verdict ≠ .keep →
      (address, measurement, serial) ∈ (registry.entries.filter fun entry =>
        registry.verdict now dormantAfter deleteAfter entry.2.2 == verdict) → measurement ≠ kind ∧
          registry.IsOther kind serial := by
    intro address measurement serial verdict hverdict hmem
    obtain ⟨hentry, hsame⟩ := List.mem_filter.mp hmem
    have hfind := hsound.find?_of_mem_entries hentry
    obtain ⟨trial, htrial, hudp⟩ := transport_of_verdict
      (show registry.verdict now dormantAfter deleteAfter serial ≠ .keep from
        (eq_of_beq hsame).symm ▸ hverdict)
    obtain ⟨found, hfound, -, rfl⟩ := hsound.trial _ _ _ hfind
    rw [htrial] at hfound
    cases hfound
    have hother : trial.measurement ≠ kind := fun h => hkind (h ▸ hudp)
    exact ⟨hother, hsound.isOther_of_find? hother hfind⟩
  have hdormant : registry.Spared kind (setAllDormant
      ((registry.entries.filter fun entry =>
        registry.verdict now dormantAfter deleteAfter entry.2.2 == .setDormant).map
          fun entry => entry.2.2) registry) := by
    refine spared_setAllDormant hsound fun serial hserial => ?_
    obtain ⟨⟨address, measurement, number⟩, hentry, rfl⟩ := List.mem_map.mp hserial
    exact (hjudged address measurement number .setDormant (by decide) hentry).2
  refine hdormant.trans (spared_deleteAll hdormant.sound fun key hkey => ?_)
  obtain ⟨⟨address, measurement, number⟩, hentry, rfl⟩ := List.mem_map.mp hkey
  exact (hjudged address measurement number .delete (by decide) hentry).1

/-! ## Events -/

namespace Event

/-- The event names no key and no trial of a measurement. -/
def Spares (kind : Measurement) (registry : Registry) : Event → Prop
  | .createOrGet creation | .create creation | .createUnregistered creation
  | .startApart creation => creation.measurement ≠ kind
  | .delete _ measurement => measurement ≠ kind
  | .release serial | .act serial _ => registry.IsOther kind serial
  | .sweep _ _ _ => True

instance decidableSpares (kind : Measurement) (registry : Registry) :
    ∀ event : Event, Decidable (event.Spares kind registry)
  | .createOrGet creation | .create creation | .createUnregistered creation
  | .startApart creation => inferInstanceAs (Decidable (creation.measurement ≠ kind))
  | .delete _ measurement => inferInstanceAs (Decidable (measurement ≠ kind))
  | .release serial | .act serial _ => inferInstanceAs (Decidable (registry.IsOther kind serial))
  | .sweep _ _ _ => inferInstanceAs (Decidable True)

end Event

theorem spared_step (hsound : registry.Sound) (hkind : kind.transport ≠ .udp) {event : Event}
    (hspares : event.Spares kind registry) (apart : List Serial) :
    registry.Spared kind (Population.step { registry, apart } event).registry := by
  cases event with
  | createOrGet creation => exact spared_createOrGet _ _ _ _ hsound hspares
  | create creation =>
      have heq : (Population.step { registry, apart } (.create creation)).registry =
          (creation.createUnregistered registry).2 :=
        congrArg Prod.snd (create_eq_createUnregistered ..)
      rw [heq]
      exact spared_createUnregistered _ _ _ _ hsound hspares
  | createUnregistered creation => exact spared_createUnregistered _ _ _ _ hsound hspares
  | startApart creation => exact spared_append hsound hspares
  | delete address measurement => exact spared_delete hsound hspares address
  | release serial => exact spared_release hsound hspares
  | sweep now dormantAfter deleteAfter =>
      exact spared_sweep hsound hkind now dormantAfter deleteAfter
  | act serial act =>
      exact spared_change hsound hspares fun trial => trial.precedes_perform act

end Registry

end LinkMeter
