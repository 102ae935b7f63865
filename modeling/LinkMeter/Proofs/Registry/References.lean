import LinkMeter.Proofs.Registry.Evolution

/-!
# References to registered trials

Whoever creates a trial, or finds one where it would create it, holds a
reference to it.  `Registry.HeldBy` says that the registered trials are those
that somebody holds, and that each of them counts its holders.  Creating makes
one holder more (`HeldBy.createOrGet`), and giving a reference back one less
(`HeldBy.release`).  A registry that only loses registrations
(`Registry.Shrinks`) is held by those who held what is left.

`release_of_shared`, `release_of_last` and `release_of_unregistered` are the
three ways in which a reference is given back.
-/

namespace LinkMeter

/-- A holder that becomes another one changes counts of holders by itself only. -/
theorem countP_set_add {α : Type} {holders : List α} {place : ℕ} {holder : α}
    (hholder : holders[place]? = some holder) (test : α → Bool) (moved : α) :
    (holders.set place moved).countP test + (if test holder then 1 else 0) =
      holders.countP test + if test moved then 1 else 0 := by
  obtain ⟨hlt, rfl⟩ := List.getElem?_eq_some_iff.1 hholder
  have hle : (if test holders[place] then 1 else 0) ≤ holders.countP test := by
    split
    case isTrue htest => exact List.countP_pos_iff.2 ⟨_, List.getElem_mem hlt, htest⟩
    case isFalse => exact Nat.zero_le _
  rw [List.countP_set hlt]
  omega

/-- If a holder looks as before when it has moved, all of them do. -/
theorem map_set_of_eq {α β : Type} {holders : List α} {place : ℕ} {holder : α}
    (hholder : holders[place]? = some holder) {look : α → β} (moved : α)
    (hsame : look moved = look holder) :
    (holders.set place moved).map look = holders.map look := by
  obtain ⟨hlt, rfl⟩ := List.getElem?_eq_some_iff.1 hholder
  rw [List.map_set, hsame, ← List.map_set, List.set_getElem_self hlt]

namespace Registry

open Pacing (Instant)

/-- The trial with this number stands under some key. -/
def Registers (registry : Registry) (serial : Serial) : Prop :=
  ∃ address measurement, registry.find? address measurement = some serial

/-- The registered trials are those that have holders, and each counts its holders. -/
structure HeldBy (registry : Registry) (holders : Serial → ℕ) : Prop where
  sound : registry.Sound
  registers_iff : ∀ serial, registry.Registers serial ↔ 0 < holders serial
  references_eq : ∀ serial trial, registry.Registers serial →
    registry.trial? serial = some trial → trial.references = holders serial

variable {registry : Registry} {holders next : Serial → ℕ} {serial : Serial}

theorem heldBy_empty : ({} : Registry).HeldBy fun _ => 0 where
  sound := sound_empty
  registers_iff := by
    intro serial
    simp [Registers, find?, session?]
  references_eq := by
    rintro serial trial ⟨address, measurement, hfind⟩
    simp [find?, session?] at hfind

theorem mem_registered (hsound : registry.Sound) :
    serial ∈ registry.registered ↔ registry.Registers serial := by
  simp only [registered, List.mem_flatMap, List.mem_map]
  constructor
  · rintro ⟨⟨address, session⟩, hsession, ⟨⟨measurement, _⟩, htrial, rfl⟩⟩
    have hfound := lookup_of_mem hsound.nodup hsession
    refine ⟨address, measurement, ?_⟩
    rw [find?, session?, hfound]
    exact lookup_of_mem (hsound.session _ _ hfound).nodup htrial
  · rintro ⟨address, measurement, hfind⟩
    obtain ⟨session, hsession, hserial⟩ := Option.bind_eq_some_iff.1 hfind
    exact ⟨_, mem_of_lookup hsession, _, mem_of_lookup hserial, rfl⟩

/-- A registry in which nothing is registered has no session. -/
theorem Sound.isEmpty_of_free (hsound : registry.Sound)
    (hfree : ∀ serial, ¬ registry.Registers serial) : registry.isEmpty = true := by
  cases hsessions : registry.sessions with
  | nil => rw [isEmpty, hsessions]; rfl
  | cons entry rest =>
      -- a session has a trial, which would be registered
      have hentry : entry ∈ registry.sessions := hsessions ▸ List.mem_cons_self
      have hsession := hsound.session _ _ (lookup_of_mem hsound.nodup hentry)
      have hpos : 0 < entry.2.trials.length := hsession.count_eq ▸ hsession.count_pos
      obtain ⟨registered, hmem⟩ := List.exists_mem_of_length_pos hpos
      refine absurd ((mem_registered hsound).1 ?_) (hfree registered.2)
      exact List.mem_flatMap.2 ⟨entry, hentry, List.mem_map.2 ⟨registered, hmem, rfl⟩⟩

theorem Sound.trial_of_registers (hsound : registry.Sound) (h : registry.Registers serial) :
    ∃ trial, registry.trial? serial = some trial ∧
      registry.find? trial.peer.address trial.measurement = some serial := by
  obtain ⟨address, measurement, hfind⟩ := h
  obtain ⟨trial, htrial, rfl, rfl⟩ := hsound.trial _ _ _ hfind
  exact ⟨trial, htrial, hfind⟩

theorem Sound.registers_iff (hsound : registry.Sound) {trial : Trial}
    (htrial : registry.trial? serial = some trial) :
    registry.Registers serial ↔
      registry.find? trial.peer.address trial.measurement = some serial := by
  constructor
  · intro h
    obtain ⟨found, hfound, hfind⟩ := hsound.trial_of_registers h
    rw [htrial] at hfound
    cases hfound
    exact hfind
  · exact fun hfind => ⟨_, _, hfind⟩

@[simp] theorem length_trials_change (serial : Serial) (operation : Trial → Trial) :
    (registry.change serial operation).trials.length = registry.trials.length :=
  List.length_modify ..

/-! ## Giving a reference back -/

theorem change_of_none (hnone : registry.trial? serial = none) (operation : Trial → Trial) :
    registry.change serial operation = registry := by
  have hsame : registry.trials.modify serial operation = registry.trials := by
    apply List.ext_getElem?
    intro other
    rw [List.getElem?_modify]
    split
    case isTrue h => rw [← h, show registry.trials[serial]? = none from hnone]; rfl
    case isFalse => exact id_map _
  rw [change, hsame]

/-- A trial that is put back as it was. -/
theorem change_self {trial : Trial} (htrial : registry.trial? serial = some trial) :
    (registry.change serial fun _ => trial) = registry := by
  have hsame : (registry.change serial fun _ => trial) = registry.change serial id :=
    change_congr htrial rfl
  rw [hsame, change, List.modify_id]

/-- Nothing but its count of references changes for a trial that is not registered. -/
theorem release_of_unregistered (hnot : ¬ registry.Registers serial) :
    registry.release serial = (false, registry.change serial fun trial => trial.release.2) := by
  unfold release
  split
  case h_1 hnone => rw [change_of_none hnone]
  case h_2 trial htrial =>
    have hchange : (registry.change serial fun _ => trial.release.2) =
        registry.change serial fun trial => trial.release.2 := change_congr htrial rfl
    have hfree : registry.find? trial.peer.address trial.measurement ≠ some serial :=
      fun hfind => hnot ⟨_, _, hfind⟩
    dsimp only
    rw [hchange, find?_change, if_neg hfree, ite_self]

theorem release_of_shared {trial : Trial} (htrial : registry.trial? serial = some trial)
    (hshared : 1 < trial.references) :
    registry.release serial = (false, registry.change serial fun trial => trial.release.2) := by
  have hchange : (registry.change serial fun _ => trial.release.2) =
      registry.change serial fun trial => trial.release.2 := change_congr htrial rfl
  have hleft : trial.release.1 > 0 := show trial.references - 1 > 0 by omega
  rw [release, htrial]
  dsimp only
  rw [hchange, if_pos hleft]

/-- The last reference to a registered trial takes the trial out with it. -/
theorem release_of_last {trial : Trial} (htrial : registry.trial? serial = some trial)
    (hfind : registry.find? trial.peer.address trial.measurement = some serial)
    (hlast : trial.references ≤ 1) :
    registry.release serial =
      (registry.change serial fun trial => trial.release.2).delete trial.peer.address
        trial.measurement := by
  have hchange : (registry.change serial fun _ => trial.release.2) =
      registry.change serial fun trial => trial.release.2 := change_congr htrial rfl
  have hleft : ¬ trial.release.1 > 0 := show ¬ trial.references - 1 > 0 by omega
  rw [release, htrial]
  dsimp only
  rw [hchange, if_neg hleft, find?_change, if_pos hfind]

theorem length_trials_delete (registry : Registry) (address : Address)
    (measurement : Measurement) :
    (registry.delete address measurement).2.trials.length = registry.trials.length := by
  cases hfind : registry.find? address measurement with
  | none => rw [delete_of_free hfind]
  | some removed => rw [delete_of_find hfind, length_trials_change, trials_remove]

theorem length_trials_release (registry : Registry) (serial : Serial) :
    (registry.release serial).2.trials.length = registry.trials.length := by
  unfold release
  split
  case h_1 => rfl
  case h_2 trial _ =>
    dsimp only
    split
    · exact length_trials_change ..
    · split
      · rw [length_trials_delete, length_trials_change]
      · exact length_trials_change ..

theorem length_trials_sweep (registry : Registry) (now : Instant) (dormantAfter deleteAfter : ℕ) :
    (registry.sweep now dormantAfter deleteAfter).2.trials.length = registry.trials.length := by
  refine sweep_induction (motive := fun after => after.trials.length = registry.trials.length)
    rfl ?_ ?_ now dormantAfter deleteAfter
  · exact fun after serial h => (length_trials_change serial Trial.setDormant).trans h
  · exact fun after address measurement h => (length_trials_delete after address measurement).trans h

/-! ## Creating -/

section Creating

variable (now : Instant) (peer : Endpoint) (measurement : Measurement) (request : Request)
  (reducer : Option Reducer) (interval : ℕ)

/-- Numbers are not used again, and the one that is handed out is in use. -/
theorem Sound.lt_length_createOrGet (hsound : registry.Sound) :
    registry.trials.length ≤
        (registry.createOrGet now peer measurement request reducer interval).2.trials.length ∧
      (registry.createOrGet now peer measurement request reducer interval).1.1 <
        (registry.createOrGet now peer measurement request reducer interval).2.trials.length := by
  cases hfind : registry.find? peer.address measurement with
  | some found =>
      rw [createOrGet_of_find _ _ _ _ _ _ hfind]
      dsimp only
      rw [length_trials_change]
      exact ⟨Nat.le_refl _, hsound.lt_of_find? hfind⟩
  | none =>
      rw [Registry.createOrGet_of_free _ _ _ _ _ _ hfind]
      dsimp only
      rw [trials_putSession, List.length_append, List.length_singleton]
      exact ⟨Nat.le_succ _, Nat.lt_succ_self _⟩

/-- Whoever finds a trial where a new one was asked for keeps no reference. -/
theorem createUnregistered_of_find
    (hfind : registry.find? peer.address measurement = some serial) :
    registry.createUnregistered now peer measurement request reducer interval =
      (.error (duplicate measurement peer.address), registry) := by
  have hback : (fun trial : Trial => trial.release.2) ∘ Trial.acquire = id := rfl
  have hsame : (registry.change serial Trial.acquire).change serial (fun trial => trial.release.2) =
      registry := by
    rw [change, change, List.modify_modify_eq, hback, List.modify_id]
  rw [createUnregistered, createOrGet_of_find _ _ _ _ _ _ hfind]
  dsimp only
  rw [hsame]

theorem createUnregistered_of_free (hfree : registry.find? peer.address measurement = none) :
    registry.createUnregistered now peer measurement request reducer interval =
      (.ok registry.trials.length,
        (registry.createOrGet now peer measurement request reducer interval).2) := by
  rw [createUnregistered, createOrGet_of_free _ _ _ _ _ _ hfree]

/-- Looking first whether there is a trial makes no difference. -/
theorem create_eq_createUnregistered :
    registry.create now peer measurement request reducer interval =
      registry.createUnregistered now peer measurement request reducer interval := by
  rw [create]
  split
  case isTrue hfound =>
    obtain ⟨found, hfind⟩ := Option.isSome_iff_exists.1 hfound
    exact (createUnregistered_of_find now peer measurement request reducer interval hfind).symm
  case isFalse => rfl

end Creating

/-! ## Losing registrations -/

/-- Deleting frees one key. -/
theorem find?_delete (hsound : registry.Sound) (address : Address) (measurement : Measurement)
    (other : Address) (kind : Measurement) :
    (registry.delete address measurement).2.find? other kind =
      if other = address ∧ kind = measurement then none else registry.find? other kind := by
  cases hfind : registry.find? address measurement with
  | none =>
      rw [delete_of_free hfind]
      split
      case isTrue h => rw [h.1, h.2]; exact hfind
      case isFalse => rfl
  | some removed =>
      rw [delete_of_find hfind, find?_change, find?_remove hsound]

/-- The second registry comes about from the first by losing registrations; trials that stay
registered keep their references. -/
structure Shrinks (before after : Registry) : Prop where
  sound : after.Sound
  length_le : before.trials.length ≤ after.trials.length
  find?_of_find? : ∀ address measurement serial, after.find? address measurement = some serial →
    before.find? address measurement = some serial
  references_eq : ∀ serial trial, after.Registers serial → after.trial? serial = some trial →
    ∃ old, before.trial? serial = some old ∧ trial.references = old.references

theorem Shrinks.registers {before after : Registry} (h : before.Shrinks after)
    (hserial : after.Registers serial) : before.Registers serial := by
  obtain ⟨address, measurement, hfind⟩ := hserial
  exact ⟨address, measurement, h.find?_of_find? _ _ _ hfind⟩

theorem Shrinks.refl (hsound : registry.Sound) : registry.Shrinks registry where
  sound := hsound
  length_le := Nat.le_refl _
  find?_of_find? := fun _ _ _ h => h
  references_eq := fun _ trial _ htrial => ⟨trial, htrial, rfl⟩

theorem Shrinks.trans {first second third : Registry} (hfirst : first.Shrinks second)
    (hsecond : second.Shrinks third) : first.Shrinks third where
  sound := hsecond.sound
  length_le := Nat.le_trans hfirst.length_le hsecond.length_le
  find?_of_find? := fun _ _ _ h => hfirst.find?_of_find? _ _ _ (hsecond.find?_of_find? _ _ _ h)
  references_eq := by
    intro serial trial hserial htrial
    obtain ⟨middle, hmiddle, hsame⟩ := hsecond.references_eq serial trial hserial htrial
    obtain ⟨old, hold, heq⟩ :=
      hfirst.references_eq serial middle (hsecond.registers hserial) hmiddle
    exact ⟨old, hold, hsame.trans heq⟩

theorem shrinks_change (hsound : registry.Sound) (serial : Serial) {operation : Trial → Trial}
    (hoperation : ∀ trial : Trial, trial.Precedes (operation trial))
    (hreferences : ∀ trial : Trial, (operation trial).references = trial.references) :
    registry.Shrinks (registry.change serial operation) where
  sound := hsound.change serial hoperation
  length_le := Nat.le_of_eq (length_trials_change serial operation).symm
  find?_of_find? := fun _ _ _ h => h
  references_eq := by
    intro other trial _ htrial
    rw [trial?_change] at htrial
    split at htrial
    · obtain ⟨old, hold, rfl⟩ := Option.map_eq_some_iff.1 htrial
      exact ⟨old, hold, hreferences old⟩
    · exact ⟨trial, htrial, rfl⟩

theorem shrinks_append (hsound : registry.Sound) (added : Trial) :
    registry.Shrinks { registry with trials := registry.trials ++ [added] } where
  sound := hsound.append added
  length_le := by
    show registry.trials.length ≤ (registry.trials ++ [added]).length
    rw [List.length_append]
    exact Nat.le_add_right _ _
  find?_of_find? := fun _ _ _ h => h
  references_eq := by
    rintro serial trial ⟨address, measurement, hfind⟩ htrial
    have hlt := hsound.lt_of_find? hfind
    rw [trial?_append, if_neg (Nat.ne_of_lt hlt)] at htrial
    exact ⟨trial, htrial, rfl⟩

theorem shrinks_delete (hsound : registry.Sound) (address : Address) (measurement : Measurement) :
    registry.Shrinks (registry.delete address measurement).2 := by
  cases hfind : registry.find? address measurement with
  | none =>
      rw [delete_of_free hfind]
      exact Shrinks.refl hsound
  | some removed =>
      rw [delete_of_find hfind]
      have hremove : registry.Shrinks (registry.remove address measurement).2 := by
        have hlength := congrArg List.length (registry.trials_remove address measurement)
        refine ⟨hsound.remove address measurement, Nat.le_of_eq hlength.symm, ?_, ?_⟩
        · intro other kind serial hkey
          rw [find?_remove hsound] at hkey
          split at hkey
          · exact absurd hkey (by simp)
          · exact hkey
        · intro serial trial _ htrial
          rw [trial?_remove] at htrial
          exact ⟨trial, htrial, rfl⟩
      exact hremove.trans (shrinks_change hremove.sound removed Trial.precedes_finish fun _ => rfl)

theorem shrinks_sweep (hsound : registry.Sound) (now : Instant) (dormantAfter deleteAfter : ℕ) :
    registry.Shrinks (registry.sweep now dormantAfter deleteAfter).2 := by
  refine sweep_induction (Shrinks.refl hsound) ?_ ?_ now dormantAfter deleteAfter
  · exact fun registry serial h =>
      h.trans (shrinks_change h.sound serial Trial.precedes_setDormant fun _ => rfl)
  · exact fun registry address measurement h =>
      h.trans (shrinks_delete h.sound address measurement)

/-- What is left is held by those who held it. -/
theorem HeldBy.shrink {after : Registry} (hheld : registry.HeldBy holders)
    (hshrinks : registry.Shrinks after)
    (hleft : ∀ serial, after.Registers serial → next serial = holders serial)
    (hlost : ∀ serial, ¬ after.Registers serial → next serial = 0) : after.HeldBy next where
  sound := hshrinks.sound
  registers_iff := by
    intro serial
    by_cases hserial : after.Registers serial
    · rw [hleft serial hserial, ← hheld.registers_iff]
      exact iff_of_true hserial (hshrinks.registers hserial)
    · rw [hlost serial hserial]
      exact iff_of_false hserial (Nat.lt_irrefl 0)
  references_eq := by
    intro serial trial hserial htrial
    obtain ⟨old, hold, hsame⟩ := hshrinks.references_eq serial trial hserial htrial
    rw [hleft serial hserial, hsame]
    exact hheld.references_eq serial old (hshrinks.registers hserial) hold

/-- Whoever keeps every registration keeps the holders. -/
theorem HeldBy.keep {after : Registry} (hheld : registry.HeldBy holders)
    (hshrinks : registry.Shrinks after)
    (hsame : ∀ address measurement, after.find? address measurement =
      registry.find? address measurement) : after.HeldBy holders := by
  refine hheld.shrink hshrinks (fun _ _ => rfl) fun serial hnot => ?_
  have hfree : ¬ registry.Registers serial := by
    rintro ⟨address, measurement, hfind⟩
    exact hnot ⟨address, measurement, (hsame address measurement).trans hfind⟩
  rw [hheld.registers_iff] at hfree
  omega

/-! ## Holders come and go -/

section Creating

variable (now : Instant) (peer : Endpoint) (measurement : Measurement) (request : Request)
  (reducer : Option Reducer) (interval : ℕ)

/-- Whoever finds a trial is one holder more. -/
private theorem HeldBy.acquire (hheld : registry.HeldBy holders)
    (hserial : registry.Registers serial)
    (hsame : ∀ other, next other = holders other + if other = serial then 1 else 0) :
    (registry.change serial Trial.acquire).HeldBy next := by
  have hpos := (hheld.registers_iff serial).1 hserial
  refine ⟨hheld.sound.change serial Trial.precedes_acquire, ?_, ?_⟩
  · intro other
    show registry.Registers other ↔ 0 < next other
    rw [hheld.registers_iff, hsame]
    by_cases hother : other = serial
    · subst hother
      omega
    · rw [if_neg hother, Nat.add_zero]
  · intro other trial hother htrial
    rw [trial?_change] at htrial
    rw [hsame]
    split at htrial
    case isTrue h =>
      obtain ⟨old, hold, rfl⟩ := Option.map_eq_some_iff.1 htrial
      rw [if_pos h.symm, ← hheld.references_eq other old hother hold]
      rfl
    case isFalse h =>
      rw [if_neg (Ne.symm h), Nat.add_zero]
      exact hheld.references_eq other trial hother htrial

/-- Whoever creates a trial is its first holder. -/
private theorem HeldBy.enter (hheld : registry.HeldBy holders)
    (hfree : registry.find? peer.address measurement = none)
    (hsame : ∀ other, next other =
      holders other + if other = registry.trials.length then 1 else 0) :
    (registry.createOrGet now peer measurement request reducer interval).2.HeldBy next := by
  have hserial : (registry.createOrGet now peer measurement request reducer interval).1.1 =
      registry.trials.length := by rw [createOrGet_of_free _ _ _ _ _ _ hfree]
  have hkeys : ∀ other kind,
      (registry.createOrGet now peer measurement request reducer interval).2.find? other kind =
        if other = peer.address ∧ kind = measurement then some registry.trials.length
        else registry.find? other kind := by
    intro other kind
    rw [find?_createOrGet, hserial]
  have htrials := trial?_createOrGet_of_free now peer measurement request reducer interval hfree
  -- the new number has not been held before, because it has not been registered
  have hunused : holders registry.trials.length = 0 := by
    have hnot : ¬ registry.Registers registry.trials.length := by
      rintro ⟨address, kind, hkey⟩
      exact absurd (hheld.sound.lt_of_find? hkey) (Nat.lt_irrefl _)
    rw [hheld.registers_iff] at hnot
    omega
  have hregisters : ∀ other,
      (registry.createOrGet now peer measurement request reducer interval).2.Registers other ↔
        other = registry.trials.length ∨ registry.Registers other := by
    intro other
    constructor
    · rintro ⟨address, kind, hkey⟩
      rw [hkeys] at hkey
      split at hkey
      · exact .inl (Option.some.inj hkey).symm
      · exact .inr ⟨address, kind, hkey⟩
    · rintro (rfl | ⟨address, kind, hkey⟩)
      · exact ⟨peer.address, measurement, by rw [hkeys, if_pos ⟨rfl, rfl⟩]⟩
      · refine ⟨address, kind, ?_⟩
        rw [hkeys, if_neg, hkey]
        rintro ⟨rfl, rfl⟩
        rw [hfree] at hkey
        exact absurd hkey (by simp)
  refine ⟨hheld.sound.createOrGet_of_free _ _ _ _ _ _ hfree, ?_, ?_⟩
  · intro other
    rw [hregisters, hheld.registers_iff, hsame]
    by_cases hnew : other = registry.trials.length
    · rw [if_pos hnew]
      exact iff_of_true (.inl hnew) (Nat.succ_pos _)
    · rw [if_neg hnew, Nat.add_zero]
      exact or_iff_right hnew
  · intro other trial hother htrial
    rw [htrials] at htrial
    rw [hsame]
    by_cases hnew : other = registry.trials.length
    · rw [if_pos hnew] at htrial ⊢
      cases htrial
      rw [hnew, hunused]
      rfl
    · rw [if_neg hnew] at htrial ⊢
      exact hheld.references_eq other trial (((hregisters other).1 hother).resolve_left hnew) htrial

theorem HeldBy.createOrGet (hheld : registry.HeldBy holders)
    (hsame : ∀ serial, next serial = holders serial +
      if serial = (registry.createOrGet now peer measurement request reducer interval).1.1 then 1
      else 0) :
    (registry.createOrGet now peer measurement request reducer interval).2.HeldBy next := by
  cases hfind : registry.find? peer.address measurement with
  | some found =>
      rw [createOrGet_of_find _ _ _ _ _ _ hfind] at hsame ⊢
      exact hheld.acquire ⟨_, _, hfind⟩ hsame
  | none =>
      have hserial : (registry.createOrGet now peer measurement request reducer interval).1.1 =
          registry.trials.length := by rw [createOrGet_of_free _ _ _ _ _ _ hfind]
      rw [hserial] at hsame
      exact hheld.enter now peer measurement request reducer interval hfind hsame

end Creating

/-- Whoever holds no reference takes nothing out. -/
theorem HeldBy.release_of_free (hheld : registry.HeldBy holders) (hfree : holders serial = 0) :
    (registry.release serial).2.HeldBy holders := by
  have hnot : ¬ registry.Registers serial := by
    rw [hheld.registers_iff]
    omega
  rw [release_of_unregistered hnot]
  refine ⟨hheld.sound.change serial Trial.precedes_release, hheld.registers_iff, ?_⟩
  intro other trial hother htrial
  have hne : serial ≠ other := by
    rintro rfl
    exact hnot hother
  rw [trial?_change, if_neg hne] at htrial
  exact hheld.references_eq other trial hother htrial

/-- Before anything is taken out, a trial whose reference is given back counts one holder less. -/
private theorem HeldBy.references_released (hheld : registry.HeldBy holders)
    (hsame : ∀ other, next other + (if other = serial then 1 else 0) = holders other)
    {other : Serial} {trial : Trial} (hother : registry.Registers other)
    (htrial : (registry.change serial fun trial => trial.release.2).trial? other = some trial) :
    trial.references = next other := by
  have hnext := hsame other
  rw [trial?_change] at htrial
  split at htrial
  case isTrue h =>
    obtain ⟨old, hold, rfl⟩ := Option.map_eq_some_iff.1 htrial
    rw [if_pos h.symm, ← hheld.references_eq other old hother hold] at hnext
    show old.references - 1 = next other
    omega
  case isFalse h =>
    rw [if_neg (Ne.symm h)] at hnext
    exact (hheld.references_eq other trial hother htrial).trans hnext.symm

/-- A holder that gives its reference back is one holder less. -/
theorem HeldBy.release (hheld : registry.HeldBy holders) (hheldBy : 0 < holders serial)
    (hsame : ∀ other, next other + (if other = serial then 1 else 0) = holders other) :
    (registry.release serial).2.HeldBy next := by
  have hregisters := (hheld.registers_iff serial).2 hheldBy
  obtain ⟨trial, htrial, hfind⟩ := hheld.sound.trial_of_registers hregisters
  have hreferences := hheld.references_eq serial trial hregisters htrial
  let released := registry.change serial fun trial => trial.release.2
  have hreleased : released.Sound := hheld.sound.change serial Trial.precedes_release
  have hothers : ∀ other, other ≠ serial → (registry.Registers other ↔ 0 < next other) := by
    intro other hother
    have hnext := hsame other
    rw [if_neg hother, Nat.add_zero] at hnext
    rw [hheld.registers_iff, hnext]
  have hserial := hsame serial
  rw [if_pos rfl] at hserial
  rcases Nat.lt_or_ge 1 trial.references with hshared | hlast
  · rw [release_of_shared htrial hshared]
    refine ⟨hreleased, fun other => ?_, fun _ _ => hheld.references_released hsame⟩
    by_cases hother : other = serial
    · subst hother
      exact iff_of_true hregisters (by omega)
    · exact hothers other hother
  · rw [release_of_last htrial hfind hlast]
    have hshrinks := shrinks_delete hreleased trial.peer.address trial.measurement
    have hkeys := find?_delete hreleased trial.peer.address trial.measurement
    refine ⟨hshrinks.sound, fun other => ?_, fun other found hother hfound => ?_⟩
    · by_cases hother : other = serial
      · subst hother
        refine iff_of_false ?_ (by omega)
        rintro ⟨address, kind, hkey⟩
        obtain ⟨rfl, rfl⟩ := hreleased.key_unique (hshrinks.find?_of_find? _ _ _ hkey) hfind
        rw [hkeys, if_pos ⟨rfl, rfl⟩] at hkey
        exact absurd hkey (by simp)
      · rw [← hothers other hother]
        constructor
        · exact fun h => hshrinks.registers h
        · rintro ⟨address, kind, hkey⟩
          refine ⟨address, kind, ?_⟩
          rw [hkeys, if_neg, find?_change, hkey]
          rintro ⟨rfl, rfl⟩
          rw [hfind] at hkey
          exact hother (Option.some.inj hkey).symm
    · obtain ⟨old, hold, hkept⟩ := hshrinks.references_eq other found hother hfound
      rw [hkept]
      exact hheld.references_released hsame (hshrinks.registers hother) hold

/-- As long as others hold the trial, giving a reference back only counts it. -/
theorem HeldBy.release_of_others (hheld : registry.HeldBy holders) (hothers : 1 < holders serial) :
    registry.release serial = (false, registry.change serial fun trial => trial.release.2) := by
  have hregisters := (hheld.registers_iff serial).2 (Nat.zero_lt_of_lt hothers)
  obtain ⟨trial, htrial, -⟩ := hheld.sound.trial_of_registers hregisters
  rw [← hheld.references_eq serial trial hregisters htrial] at hothers
  exact release_of_shared htrial hothers

/-- The last holder takes the trial out and finishes it. -/
theorem HeldBy.release_of_last (hheld : registry.HeldBy holders) (hlast : holders serial = 1)
    {trial : Trial} (htrial : registry.trial? serial = some trial) :
    (registry.release serial).1 = true ∧
      (registry.release serial).2.find? trial.peer.address trial.measurement = none ∧
      (registry.release serial).2.trial? serial = some trial.release.2.finish.2 := by
  have hregisters := (hheld.registers_iff serial).2 (hlast ▸ Nat.one_pos)
  have hfind := (hheld.sound.registers_iff htrial).1 hregisters
  have hreleased := hheld.sound.change serial Trial.precedes_release
  rw [← hheld.references_eq serial trial hregisters htrial] at hlast
  rw [Registry.release_of_last htrial hfind (Nat.le_of_eq hlast)]
  refine ⟨?_, ?_, ?_⟩
  · rw [delete_of_find (by rwa [find?_change])]
  · rw [find?_delete hreleased, if_pos ⟨rfl, rfl⟩]
  · rw [delete_of_find (by rwa [find?_change])]
    simp [trial?_remove, htrial]

theorem HeldBy.fst_release_iff (hheld : registry.HeldBy holders) (hheldBy : 0 < holders serial) :
    (registry.release serial).1 = true ↔ holders serial = 1 := by
  obtain ⟨trial, htrial, -⟩ :=
    hheld.sound.trial_of_registers ((hheld.registers_iff serial).2 hheldBy)
  constructor
  · intro hdeleted
    by_contra hne
    rw [hheld.release_of_others (by omega)] at hdeleted
    exact absurd hdeleted (by simp)
  · exact fun hlast => (hheld.release_of_last hlast htrial).1

/-- Giving a reference back registers nothing. -/
theorem find?_of_find?_release (hsound : registry.Sound) {address : Address}
    {measurement : Measurement} {other : Serial}
    (hfind : (registry.release serial).2.find? address measurement = some other) :
    registry.find? address measurement = some other := by
  unfold release at hfind
  split at hfind
  case h_1 => exact hfind
  case h_2 trial htrial =>
    dsimp only at hfind
    split at hfind
    · exact hfind
    · split at hfind
      · have hreleased : (registry.change serial fun _ => trial.release.2).Sound := by
          rw [show (registry.change serial fun _ => trial.release.2) =
            registry.change serial fun trial => trial.release.2 from change_congr htrial rfl]
          exact hsound.change serial Trial.precedes_release
        exact (shrinks_delete hreleased _ _).find?_of_find? _ _ _ hfind
      · exact hfind

end Registry

end LinkMeter
