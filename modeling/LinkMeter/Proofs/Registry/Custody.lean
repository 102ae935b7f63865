import LinkMeter.Proofs.Registry.History
import LinkMeter.Proofs.Registry.References
import LinkMeter.Proofs.Trial.Steady

/-!
# How long a trial stays registered

A call that creates or finds a trial hands it out, and whoever got it gives it
back once.  `Custody` keeps what was handed out and given back beside the
registry, and which trials a deletion or a sweep took out.  In a matched
history every call that gives a trial back has a call of its own before it that
handed the trial out; a trial that was taken out may be given back any number
of times (`Custody.Matched`).

Then the books and the registry agree (`Custody.Agrees`): apart from the trials
that were taken out, each trial has as many holders as it was handed out more
often than given back, and the trials with holders are the registered ones.
-/

namespace LinkMeter

open Registry (Event)

/-- The call asks for the trial with the key of another one. -/
def Creation.AsksFor (creation : Creation) (trial : Trial) : Prop :=
  creation.peer.address = trial.peer.address ∧ creation.measurement = trial.measurement

instance (creation : Creation) (trial : Trial) : Decidable (creation.AsksFor trial) :=
  inferInstanceAs (Decidable (_ ∧ _))

namespace Registry.Event

/-- The call that creates or finds a trial. -/
def creation? : Event → Option Creation
  | .createOrGet creation | .create creation | .createUnregistered creation => some creation
  | _ => none

/-- The trial that is handed out. -/
def obtained? (registry : Registry) : Event → Option Serial
  | .createOrGet creation => some (creation.createOrGet registry).1.1
  | .create creation => (creation.create registry).1.toOption
  | .createUnregistered creation => (creation.createUnregistered registry).1.toOption
  | _ => none

end Registry.Event

/-- A population, and who got what of it. -/
structure Custody where
  population : Population := {}
  /-- The trials handed out, one entry for each call. -/
  obtained : List Serial := []
  /-- The trials given back, one entry for each call. -/
  returned : List Serial := []
  /-- The trials that deletions and sweeps took out. -/
  evicted : List Serial := []
  deriving DecidableEq

namespace Custody

def registry (custody : Custody) : Registry := custody.population.registry

def step (custody : Custody) (event : Event) : Custody :=
  let after := custody.population.step event
  match event with
  | .createOrGet _ | .create _ | .createUnregistered _ =>
    { custody with
      population := after
      obtained := custody.obtained ++ (event.obtained? custody.registry).toList }
  | .release serial =>
    { custody with population := after, returned := custody.returned ++ [serial] }
  | .delete _ _ | .sweep _ _ _ =>
    { custody with
      population := after
      evicted := custody.evicted ++ custody.registry.registered.filter fun serial =>
        serial ∉ after.registry.registered }
  | .startApart _ | .act _ _ => { custody with population := after }

def run (events : List Event) (custody : Custody) : Custody := events.foldl step custody

/-- Only what was handed out more often than it was given back can be given back, and what was
taken out. -/
def Permits (custody : Custody) : Event → Prop
  | .release serial =>
    serial ∈ custody.evicted ∨ custody.returned.count serial < custody.obtained.count serial
  | _ => True

instance (custody : Custody) (event : Event) : Decidable (custody.Permits event) := by
  cases event <;> unfold Permits <;> infer_instance

/-- Every call that gives a trial back finds one that handed it out. -/
def Matched : List Event → Custody → Prop
  | [], _ => True
  | event :: events, custody => custody.Permits event ∧ Matched events (custody.step event)

instance decidableMatched : ∀ (events : List Event) (custody : Custody),
    Decidable (Matched events custody)
  | [], _ => inferInstanceAs (Decidable True)
  | event :: events, custody =>
    have := decidableMatched events (custody.step event)
    inferInstanceAs (Decidable (_ ∧ _))

/-- How many calls got a trial and did not give it back. -/
def holders (custody : Custody) (serial : Serial) : ℕ :=
  if serial ∈ custody.evicted then 0
  else custody.obtained.count serial - custody.returned.count serial

variable {custody : Custody} {serial : Serial}

/-! ## The books agree with the registry -/

structure Agrees (custody : Custody) : Prop where
  held : custody.registry.HeldBy custody.holders
  /-- A number that is not used up by a trial is in no book. -/
  unused : ∀ serial, custody.registry.trials.length ≤ serial →
    serial ∉ custody.obtained ∧ serial ∉ custody.evicted
  returned_le : ∀ serial, serial ∉ custody.evicted →
    custody.returned.count serial ≤ custody.obtained.count serial

theorem agrees_empty : ({} : Custody).Agrees where
  held := Registry.heldBy_empty
  unused := fun _ _ => ⟨List.not_mem_nil, List.not_mem_nil⟩
  returned_le := fun _ _ => Nat.le_refl 0

theorem Agrees.registers_iff (hagrees : custody.Agrees) (hkept : serial ∉ custody.evicted) :
    custody.registry.Registers serial ↔
      custody.returned.count serial < custody.obtained.count serial := by
  rw [hagrees.held.registers_iff, holders, if_neg hkept, Nat.sub_pos_iff_lt]

private theorem count_append_singleton (serials : List Serial) (added other : Serial) :
    (serials ++ [added]).count other = serials.count other + if other = added then 1 else 0 := by
  rw [List.count_append, List.count_singleton]
  by_cases h : other = added
  · simp [h]
  · simp [h, Ne.symm h]

/-- A call that hands out a trial makes one holder more. -/
private theorem holders_obtain (hkept : serial ∉ custody.evicted)
    (hreturned : ∀ other, other ∉ custody.evicted →
      custody.returned.count other ≤ custody.obtained.count other)
    (population : Population) (other : Serial) :
    ({ custody with
        population := population, obtained := custody.obtained ++ [serial] } : Custody).holders
          other = custody.holders other + if other = serial then 1 else 0 := by
  simp only [holders, count_append_singleton]
  by_cases hevicted : other ∈ custody.evicted
  · have hne : other ≠ serial := fun h => hkept (h ▸ hevicted)
    rw [if_pos hevicted, if_pos hevicted, if_neg hne]
  · have hle := hreturned other hevicted
    rw [if_neg hevicted, if_neg hevicted]
    omega

private theorem Agrees.obtain (hagrees : custody.Agrees) (creation : Creation)
    (apart : List Serial) :
    ({ custody with
        population := ⟨(creation.createOrGet custody.registry).2, apart⟩
        obtained := custody.obtained ++
          [(creation.createOrGet custody.registry).1.1] } : Custody).Agrees := by
  obtain ⟨hle, hlt⟩ := hagrees.held.sound.lt_length_createOrGet creation.now creation.peer
    creation.measurement creation.request creation.reducer creation.interval
  -- what was found has holders, and what is new was not there to be taken out
  have hkept : (creation.createOrGet custody.registry).1.1 ∉ custody.evicted := by
    intro hevicted
    rw [Creation.createOrGet] at hevicted
    cases hfind : custody.registry.find? creation.peer.address creation.measurement with
    | some found =>
        rw [Registry.createOrGet_of_find _ _ _ _ _ _ hfind] at hevicted
        have hpos := (hagrees.held.registers_iff found).1 ⟨_, _, hfind⟩
        rw [holders, if_pos hevicted] at hpos
        exact Nat.lt_irrefl 0 hpos
    | none =>
        rw [Registry.createOrGet_of_free _ _ _ _ _ _ hfind] at hevicted
        exact (hagrees.unused _ (Nat.le_refl _)).2 hevicted
  have hholders := holders_obtain hkept hagrees.returned_le
    ⟨(creation.createOrGet custody.registry).2, apart⟩
  refine ⟨hagrees.held.createOrGet _ _ _ _ _ _ hholders, fun other hother => ?_,
    fun other hother => ?_⟩
  · obtain ⟨hobtained, hevicted⟩ := hagrees.unused other (Nat.le_trans hle hother)
    refine ⟨fun hmem => ?_, hevicted⟩
    rcases List.mem_append.mp hmem with hold | hnew
    · exact hobtained hold
    · rw [List.mem_singleton.mp hnew] at hother
      exact absurd hlt (Nat.not_lt.mpr hother)
  · have hle := hagrees.returned_le other hother
    dsimp only
    rw [List.count_append]
    omega

/-- Whatever keeps every registration keeps the books. -/
private theorem Agrees.keep (hagrees : custody.Agrees) {population : Population}
    (hshrinks : custody.registry.Shrinks population.registry)
    (hsame : ∀ address measurement, population.registry.find? address measurement =
      custody.registry.find? address measurement) :
    ({ custody with population := population } : Custody).Agrees where
  held := hagrees.held.keep hshrinks hsame
  unused := fun serial hserial => hagrees.unused serial (Nat.le_trans hshrinks.length_le hserial)
  returned_le := hagrees.returned_le

/-- What is taken out has no holders any more. -/
private theorem Agrees.evict (hagrees : custody.Agrees) {population : Population}
    (hshrinks : custody.registry.Shrinks population.registry) :
    ({ custody with
        population := population
        evicted := custody.evicted ++ custody.registry.registered.filter
          fun serial => serial ∉ population.registry.registered } : Custody).Agrees := by
  have hsound := hagrees.held.sound
  have hmem : ∀ serial, (serial ∈ custody.evicted ++ custody.registry.registered.filter
      fun serial => serial ∉ population.registry.registered) ↔
        serial ∈ custody.evicted ∨
          custody.registry.Registers serial ∧ ¬ population.registry.Registers serial := by
    intro serial
    rw [List.mem_append, List.mem_filter, decide_eq_true_eq, Registry.mem_registered hsound,
      Registry.mem_registered hshrinks.sound]
  refine ⟨hagrees.held.shrink hshrinks ?_ ?_, fun serial hserial => ?_, fun serial hserial => ?_⟩
  · intro serial hserial
    have hpos := (hagrees.held.registers_iff serial).1 (hshrinks.registers hserial)
    have hkept : serial ∉ custody.evicted := by
      intro hevicted
      rw [holders, if_pos hevicted] at hpos
      exact Nat.lt_irrefl 0 hpos
    have hnow : ¬ (serial ∈ custody.evicted ∨
        custody.registry.Registers serial ∧ ¬ population.registry.Registers serial) := by
      rintro (hevicted | ⟨-, hnot⟩)
      · exact hkept hevicted
      · exact hnot hserial
    rw [holders, holders, if_neg hkept, if_neg ((hmem serial).not.mpr hnow)]
  · intro serial hserial
    by_cases hbefore : custody.registry.Registers serial
    · exact if_pos ((hmem serial).mpr (.inr ⟨hbefore, hserial⟩))
    · rw [hagrees.held.registers_iff, holders] at hbefore
      rw [holders]
      split
      case isTrue => rfl
      case isFalse hnow =>
        have hkept : serial ∉ custody.evicted := fun h => hnow ((hmem serial).mpr (.inl h))
        rw [if_neg hkept] at hbefore
        exact Nat.eq_zero_of_not_pos hbefore
  · have hold := Nat.le_trans hshrinks.length_le hserial
    obtain ⟨hobtained, hevicted⟩ := hagrees.unused serial hold
    refine ⟨hobtained, fun hnow => ?_⟩
    rcases (hmem serial).mp hnow with hbefore | ⟨⟨address, measurement, hfind⟩, -⟩
    · exact hevicted hbefore
    · exact absurd (hsound.lt_of_find? hfind) (Nat.not_lt.mpr hold)
  · exact hagrees.returned_le serial fun hevicted => hserial ((hmem serial).mpr (.inl hevicted))

/-- Giving back makes one holder less, but not of a trial that was taken out. -/
private theorem holders_giveBack (hpermits : custody.Permits (.release serial))
    (population : Population) (other : Serial) :
    ({ custody with
        population := population, returned := custody.returned ++ [serial] } : Custody).holders
          other + (if other = serial ∧ serial ∉ custody.evicted then 1 else 0) =
      custody.holders other := by
  simp only [holders, count_append_singleton]
  by_cases hother : other = serial
  · subst hother
    by_cases hevicted : other ∈ custody.evicted
    · simp [hevicted]
    · have hlt := hpermits.resolve_left hevicted
      simp only [hevicted, not_false_eq_true, and_self, if_false, if_true]
      omega
  · simp [hother]

private theorem Agrees.giveBack (hagrees : custody.Agrees)
    (hpermits : custody.Permits (.release serial)) (apart : List Serial) :
    ({ custody with
        population := ⟨(custody.registry.release serial).2, apart⟩
        returned := custody.returned ++ [serial] } : Custody).Agrees := by
  have hholders := holders_giveBack hpermits ⟨(custody.registry.release serial).2, apart⟩
  refine ⟨?_, fun other hother => hagrees.unused other ?_, fun other hother => ?_⟩
  · by_cases hevicted : serial ∈ custody.evicted
    · have hsame : ({ custody with
            population := ⟨(custody.registry.release serial).2, apart⟩
            returned := custody.returned ++ [serial] } : Custody).holders = custody.holders := by
        funext other
        rw [← hholders other, if_neg fun h => h.2 hevicted, Nat.add_zero]
      rw [hsame]
      exact hagrees.held.release_of_free (if_pos hevicted)
    · have hpos : 0 < custody.holders serial := by
        rw [holders, if_neg hevicted]
        exact Nat.sub_pos_of_lt (hpermits.resolve_left hevicted)
      refine hagrees.held.release hpos fun other => ?_
      · rw [← hholders other]
        simp only [hevicted, not_false_eq_true, and_true]
  · rwa [← Registry.length_trials_release custody.registry serial]
  · have hle := hagrees.returned_le other hother
    show (custody.returned ++ [serial]).count other ≤ _
    rw [count_append_singleton]
    split
    case isTrue h =>
      subst h
      exact hpermits.resolve_left hother
    case isFalse => exact hle

private theorem step_create (creation : Creation) :
    custody.step (.create creation) = custody.step (.createUnregistered creation) := by
  have hcreate : creation.create custody.population.registry =
      creation.createUnregistered custody.population.registry :=
    Registry.create_eq_createUnregistered ..
  simp only [step, Event.obtained?, Population.step, registry, hcreate]

/-- A call that must not find a trial changes nothing if there is one. -/
private theorem step_createUnregistered (creation : Creation) :
    custody.step (.createUnregistered creation) = custody.step (.createOrGet creation) ∨
      custody.step (.createUnregistered creation) = custody := by
  have hstep : custody.step (.createUnregistered creation) =
      { custody with
        population := ⟨(creation.createUnregistered custody.registry).2, custody.population.apart⟩
        obtained := custody.obtained ++
          (creation.createUnregistered custody.registry).1.toOption.toList } := rfl
  rw [hstep]
  cases hfind : custody.registry.find? creation.peer.address creation.measurement with
  | some found =>
      have hrefused : creation.createUnregistered custody.registry =
          (.error _, custody.registry) :=
        Registry.createUnregistered_of_find _ _ _ _ _ _ hfind
      rw [hrefused]
      exact .inr (congrArg (Custody.mk _ · _ _) (List.append_nil _))
  | none =>
      have hnew : creation.createUnregistered custody.registry =
          (.ok _, (creation.createOrGet custody.registry).2) :=
        Registry.createUnregistered_of_free _ _ _ _ _ _ hfind
      have hserial : (creation.createOrGet custody.registry).1.1 =
          custody.registry.trials.length := by
        rw [Creation.createOrGet, Registry.createOrGet_of_free _ _ _ _ _ _ hfind]
      rw [hnew, Except.toOption, ← hserial]
      exact .inl rfl

/-- A call that asks for a trial hands out one, or changes nothing. -/
private theorem step_of_creation {event : Event} {creation : Creation}
    (hcreation : event.creation? = some creation) :
    custody.step event =
        { custody with
          population := ⟨(creation.createOrGet custody.registry).2, custody.population.apart⟩
          obtained := custody.obtained ++ [(creation.createOrGet custody.registry).1.1] } ∨
      custody.step event = custody := by
  cases event with
  | createOrGet other =>
      obtain rfl : other = creation := Option.some.inj hcreation
      exact .inl rfl
  | create other =>
      obtain rfl : other = creation := Option.some.inj hcreation
      rw [step_create]
      exact step_createUnregistered other
  | createUnregistered other =>
      obtain rfl : other = creation := Option.some.inj hcreation
      exact step_createUnregistered other
  | delete | release | sweep | startApart | act =>
      exact absurd hcreation (by simp [Event.creation?])

theorem Agrees.step (hagrees : custody.Agrees) {event : Event} (hpermits : custody.Permits event) :
    (custody.step event).Agrees := by
  have hsound := hagrees.held.sound
  have hcreate : ∀ creation, event.creation? = some creation → (custody.step event).Agrees := by
    intro creation hcreation
    rcases step_of_creation hcreation with hstep | hstep
    · rw [hstep]
      exact hagrees.obtain creation custody.population.apart
    · rwa [hstep]
  cases event with
  | createOrGet creation | create creation | createUnregistered creation => exact hcreate _ rfl
  | delete address measurement =>
      exact hagrees.evict (Registry.shrinks_delete hsound address measurement)
  | release serial => exact hagrees.giveBack hpermits custody.population.apart
  | sweep now dormantAfter deleteAfter =>
      exact hagrees.evict (Registry.shrinks_sweep hsound now dormantAfter deleteAfter)
  | startApart creation =>
      exact hagrees.keep (Registry.shrinks_append hsound creation.trial) fun _ _ => rfl
  | act serial act =>
      exact hagrees.keep
        (Registry.shrinks_change hsound serial (fun trial => trial.precedes_perform act)
          fun trial => trial.references_perform act) fun _ _ => rfl

theorem agrees_run (hagrees : custody.Agrees) {events : List Event}
    (hmatched : Matched events custody) : (run events custody).Agrees := by
  induction events generalizing custody with
  | nil => exact hagrees
  | cons event events ih => exact ih (hagrees.step hmatched.1) hmatched.2

theorem run_append (events later : List Event) (custody : Custody) :
    run (events ++ later) custody = run later (run events custody) := List.foldl_append

theorem matched_append {events later : List Event} :
    Matched (events ++ later) custody ↔
      Matched events custody ∧ Matched later (run events custody) := by
  induction events generalizing custody with
  | nil => exact (and_iff_right trivial).symm
  | cons event events ih =>
      show custody.Permits event ∧ Matched (events ++ later) (custody.step event) ↔ _
      rw [ih, ← and_assoc]
      rfl

/-! ## Once a trial has gone -/

theorem mem_obtained_run (h : serial ∈ custody.obtained) (events : List Event) :
    serial ∈ (run events custody).obtained := by
  induction events generalizing custody with
  | nil => exact h
  | cons event events ih =>
      apply ih
      cases event with
      | createOrGet | create | createUnregistered => exact List.mem_append_left _ h
      | delete | release | sweep | startApart | act => exact h

/-- A key that nobody asks for stays free. -/
theorem Agrees.find?_step_of_free (hagrees : custody.Agrees) {trial : Trial}
    (hfree : custody.registry.find? trial.peer.address trial.measurement = none) {event : Event}
    (hother : ∀ creation ∈ event.creation?, ¬ creation.AsksFor trial) :
    (custody.step event).registry.find? trial.peer.address trial.measurement = none := by
  have hsound := hagrees.held.sound
  have hlost : ∀ {after : Registry}, custody.registry.Shrinks after →
      after.find? trial.peer.address trial.measurement = none := by
    intro after hshrinks
    refine Option.eq_none_iff_forall_ne_some.2 fun serial hfind => ?_
    rw [hshrinks.find?_of_find? _ _ _ hfind] at hfree
    exact absurd hfree (by simp)
  have hcreate : ∀ creation, event.creation? = some creation →
      (custody.step event).registry.find? trial.peer.address trial.measurement = none := by
    intro creation hcreation
    rcases step_of_creation hcreation with hstep | hstep
    · rw [hstep]
      show (creation.createOrGet custody.registry).2.find? _ _ = none
      rw [Creation.createOrGet, Registry.find?_createOrGet, if_neg, hfree]
      exact fun hkey => hother creation hcreation ⟨hkey.1.symm, hkey.2.symm⟩
    · rwa [hstep]
  cases event with
  | createOrGet creation | create creation | createUnregistered creation => exact hcreate _ rfl
  | delete address measurement => exact hlost (Registry.shrinks_delete hsound address measurement)
  | release serial =>
      refine Option.eq_none_iff_forall_ne_some.2 fun other hfind => ?_
      have hbefore : custody.registry.find? trial.peer.address trial.measurement = some other :=
        Registry.find?_of_find?_release hsound hfind
      rw [hbefore] at hfree
      exact absurd hfree (by simp)
  | sweep now dormantAfter deleteAfter => exact hlost (Registry.shrinks_sweep hsound _ _ _)
  | startApart creation => exact hfree
  | act serial act => exact hfree

theorem Agrees.find?_run_of_free (hagrees : custody.Agrees) {trial : Trial}
    (hfree : custody.registry.find? trial.peer.address trial.measurement = none)
    {events : List Event} (hmatched : Matched events custody)
    (hother : ∀ event ∈ events, ∀ creation ∈ event.creation?, ¬ creation.AsksFor trial) :
    (run events custody).registry.find? trial.peer.address trial.measurement = none := by
  induction events generalizing custody with
  | nil => exact hfree
  | cons event events ih =>
      obtain ⟨hfirst, hothers⟩ := List.forall_mem_cons.1 hother
      have hstill := hagrees.find?_step_of_free hfree hfirst
      exact ih (hagrees.step hmatched.1) hstill hmatched.2 hothers

/-! ## The lifetime of a trial -/

theorem Agrees.createOrGet_of_held (hagrees : custody.Agrees) (hkept : serial ∉ custody.evicted)
    (hheld : custody.returned.count serial < custody.obtained.count serial) {trial : Trial}
    (htrial : custody.registry.trial? serial = some trial) {creation : Creation}
    (hasks : creation.AsksFor trial) :
    (creation.createOrGet custody.registry).1 = (serial, false) := by
  have hfind := (hagrees.held.sound.registers_iff htrial).1 ((hagrees.registers_iff hkept).2 hheld)
  rw [← hasks.1, ← hasks.2] at hfind
  rw [Creation.createOrGet, Registry.createOrGet_of_find _ _ _ _ _ _ hfind]

/-- Under a free key a new trial is created, which has never been handed out. -/
theorem Agrees.createOrGet_of_free (hagrees : custody.Agrees) {creation : Creation}
    (hfree : custody.registry.find? creation.peer.address creation.measurement = none)
    (hobtained : serial ∈ custody.obtained) :
    ∃ fresh, fresh ≠ serial ∧ (creation.createOrGet custody.registry).1 = (fresh, true) ∧
      (creation.create custody.registry).1 = .ok fresh := by
  refine ⟨custody.registry.trials.length, ?_, ?_, ?_⟩
  · rintro rfl
    exact (hagrees.unused _ (Nat.le_refl _)).1 hobtained
  · rw [Creation.createOrGet, Registry.createOrGet_of_free _ _ _ _ _ _ hfree]
  · rw [Creation.create, Registry.create_eq_createUnregistered,
      Registry.createUnregistered_of_free _ _ _ _ _ _ hfree]

/-- After the last holder gave a trial back, the next call that asks for its key gets a new one. -/
theorem Agrees.createOrGet_of_released (hagrees : custody.Agrees)
    (hobtained : serial ∈ custody.obtained) {trial : Trial}
    (hfree : (custody.step (.release serial)).registry.find? trial.peer.address
      trial.measurement = none)
    {later : List Event} (hmatched : Matched (.release serial :: later) custody)
    (hothers : ∀ event ∈ later, ∀ creation ∈ event.creation?, ¬ creation.AsksFor trial)
    {creation : Creation} (hasks : creation.AsksFor trial) :
    ∃ fresh, fresh ≠ serial ∧
      (creation.createOrGet (run (.release serial :: later) custody).registry).1 =
        (fresh, true) ∧
      (creation.create (run (.release serial :: later) custody).registry).1 = .ok fresh := by
  obtain ⟨hpermits, hrest⟩ := hmatched
  have hreleased : (custody.step (.release serial)).Agrees := hagrees.step hpermits
  have hbefore : serial ∈ (custody.step (.release serial)).obtained := hobtained
  refine (agrees_run hreleased hrest).createOrGet_of_free ?_ (mem_obtained_run hbefore later)
  rw [hasks.1, hasks.2]
  exact hreleased.find?_run_of_free hfree hrest hothers

theorem Agrees.release_of_evicted (hagrees : custody.Agrees) (hevicted : serial ∈ custody.evicted) :
    custody.registry.release serial =
      (false, custody.registry.change serial fun trial => trial.release.2) := by
  refine Registry.release_of_unregistered ?_
  rw [hagrees.held.registers_iff, holders, if_pos hevicted]
  exact Nat.lt_irrefl 0

/-- In a matched history, a trial that was handed out and never taken out is registered exactly as
long as it was handed out more often than given back.  Until then every call that asks for its key
gets it, and giving it back deletes it exactly if nobody else holds it, which finishes it.  Once it
has gone, the next call that asks for its key gets another trial, a new one.

Whoever gives back a trial that was taken out deletes nothing and changes no other trial, whatever
has been registered in its place. -/
theorem lifetime_run (events : List Event) (hmatched : Matched events {}) (serial : Serial)
    (trial : Trial) :
    let custody := run events {}
    let registry := custody.registry
    registry.trial? serial = some trial →
    (serial ∈ custody.obtained → serial ∉ custody.evicted →
      (registry.find? trial.peer.address trial.measurement = some serial ↔
        custody.returned.count serial < custody.obtained.count serial) ∧
      (custody.returned.count serial < custody.obtained.count serial →
        (∀ creation : Creation, creation.AsksFor trial →
          (creation.createOrGet registry).1 = (serial, false)) ∧
        ((registry.release serial).1 = true ↔
          custody.obtained.count serial = custody.returned.count serial + 1) ∧
        ((registry.release serial).1 = false →
          (registry.release serial).2.trial? serial = some trial.release.2) ∧
        ((registry.release serial).1 = true →
          (registry.release serial).2.trial? serial = some trial.release.2.finish.2 ∧
          ∀ later : List Event, Matched (events ++ .release serial :: later) {} →
            (∀ event ∈ later, ∀ creation ∈ event.creation?, ¬ creation.AsksFor trial) →
            let next := (run (events ++ .release serial :: later) {}).registry
            ∀ creation : Creation, creation.AsksFor trial →
              ∃ fresh, fresh ≠ serial ∧ (creation.createOrGet next).1 = (fresh, true) ∧
                (creation.create next).1 = .ok fresh))) ∧
    (serial ∈ custody.evicted →
      (registry.release serial).1 = false ∧
      (∀ address measurement, (registry.release serial).2.find? address measurement =
        registry.find? address measurement) ∧
      ∀ other ≠ serial, (registry.release serial).2.trial? other = registry.trial? other) := by
  intro custody registry htrial
  have hagrees : custody.Agrees := agrees_run agrees_empty hmatched
  refine ⟨fun hobtained hkept => ⟨?_, fun hheld => ?_⟩, fun hevicted => ?_⟩
  · rw [← hagrees.held.sound.registers_iff htrial]
    exact hagrees.registers_iff hkept
  · have hholders : custody.holders serial =
        custody.obtained.count serial - custody.returned.count serial := if_neg hkept
    have hpos : 0 < custody.holders serial := hholders ▸ Nat.sub_pos_of_lt hheld
    have hlast := hagrees.held.fst_release_iff hpos
    refine ⟨fun creation => hagrees.createOrGet_of_held hkept hheld htrial, ?_, ?_, ?_⟩
    · rw [show registry.release serial = custody.registry.release serial from rfl, hlast, hholders]
      omega
    · intro hstays
      have hothers : 1 < custody.holders serial := by
        refine Nat.lt_of_le_of_ne hpos fun hone => ?_
        exact absurd (hstays.symm.trans (hlast.2 hone.symm)) (by simp)
      show (custody.registry.release serial).2.trial? serial = _
      rw [hagrees.held.release_of_others hothers, Registry.trial?_change, if_pos rfl]
      exact congrArg (Option.map fun trial : Trial => trial.release.2) htrial
    · intro hdeleted
      obtain ⟨-, hfree, hfinished⟩ := hagrees.held.release_of_last (hlast.1 hdeleted) htrial
      refine ⟨hfinished, fun later hlater hothers => ?_⟩
      intro next creation hasks
      have hnext : next = (run (.release serial :: later) custody).registry :=
        congrArg Custody.registry (run_append ..)
      rw [hnext]
      exact hagrees.createOrGet_of_released hobtained hfree (matched_append.1 hlater).2 hothers
        hasks
  · rw [show registry.release serial = _ from hagrees.release_of_evicted hevicted]
    refine ⟨rfl, fun _ _ => rfl, fun other hother => ?_⟩
    rw [Registry.trial?_change, if_neg (Ne.symm hother)]

/-- Two holders share the first trial and one has left; the second was deleted under its holder and
replaced by the third. -/
theorem lifetime_run_replaced :
    let first : Creation := { (default : Creation) with measurement := .tcpBandwidth }
    let second : Creation := { (default : Creation) with measurement := .udpServer }
    let events : List Event :=
      [.createOrGet first, .create second, .createOrGet first, .release 0,
        .delete second.peer.address second.measurement, .createOrGet second]
    let registry := (run events {}).registry
    let next := (run (events ++ [.release 0]) {}).registry
    (registry.release 0).1 = true ∧
      (∃ fresh, fresh ≠ 0 ∧ (first.createOrGet next).1 = (fresh, true)) ∧
      (registry.release 1).1 = false ∧
      (registry.release 1).2.find? second.peer.address second.measurement = some 2 ∧
      (registry.release 1).2.trial? 2 = some second.trial.acquire := by
  intro first second events registry next
  have hmatched : Matched events {} := by decide
  have hfirst : registry.trial? 0 = some { first.trial with references := 1 } := by
    decide +kernel
  have hsecond : registry.trial? 1 =
      some { second.trial with references := 1, isActive := false, isDone := true } := by
    decide +kernel
  obtain ⟨hkept, -⟩ := lifetime_run events hmatched 0 _ hfirst
  obtain ⟨-, hheld⟩ := hkept (by decide) (by decide)
  obtain ⟨-, hlast, -, hgone⟩ := hheld (by decide)
  have hdeleted : (registry.release 0).1 = true := hlast.2 (by decide)
  obtain ⟨fresh, hne, hnew, -⟩ := (hgone hdeleted).2 [] (by decide) (by simp) first ⟨rfl, rfl⟩
  obtain ⟨-, hevicted⟩ := lifetime_run events hmatched 1 _ hsecond
  obtain ⟨hstays, hkeys, hothers⟩ := hevicted (by decide)
  refine ⟨hdeleted, ⟨fresh, hne, hnew⟩, hstays, ?_, ?_⟩
  · rw [hkeys]
    decide +kernel
  · rw [hothers 2 (by decide)]
    decide +kernel

end Custody

end LinkMeter
