import LinkMeter.Proofs.Registry.History
import LinkMeter.Proofs.Registry.References

/-!
# Callers that race for one key

Creating a new trial takes two looks at the registry, and a caller that finds
the trial of somebody else at the second one gives its reference back without a
third look.  A `Race` lets any number of callers take these steps for one key in
any order, beside callers that take whichever trial there is.

A turn of a caller comes to one of five things (`Caller.Turns`): it holds nothing
before and after, it opens a trial, it joins the one under the key, it gives a
reference back without a look, or it gives one back and looks whether it was the
last.  Two invariants are kept by each of the five:

* `Kept`: only the trial under the key is held, it runs, and it has as many
  references as there are holders; the trials of the race before it are finished;
* `Numbered`: a caller is told to have created a trial only when the trial is
  new, so no two callers are told of the same one.

`Kept` lets the trial under the key have no holder at all.  Its number of holders
goes down to none in two of the five turns.  After the last look the key is free
(`Kept.find?_release_of_last`); without one the trial stays.  So if a trial is
left over when all callers are done, some turn of the schedule gave its last
reference back without a look (`Kept.strands_run`), and otherwise nothing is left
over (`race_run`).
-/

namespace LinkMeter

/-! ## Callers -/

/-- What a caller does next. -/
inductive Errand where
  /-- It looks whether the key is free, to create a trial of its own. -/
  | look
  /-- The key was free when it looked. -/
  | create
  /-- It came too late, and holds the trial of somebody else. -/
  | yield (serial : Serial)
  /-- It asks for the trial under the key, old or new. -/
  | join
  /-- It holds the trial that it asked for. -/
  | release (serial : Serial)
  | done
  deriving DecidableEq, Inhabited

/-- The trial that a caller has a reference to. -/
def Errand.held? : Errand → Option Serial
  | .yield serial | .release serial => some serial
  | .look | .create | .join | .done => none

structure Caller where
  creation : Creation
  errand : Errand
  /-- The trial that it was told to have created. -/
  created : Option Serial := none
  deriving DecidableEq, Inhabited

/-- A caller that has not begun wants a trial under a key, one of its own or whichever there is. -/
structure Caller.Begins (caller : Caller) (address : Address)
    (measurement : Measurement) : Prop where
  errand_eq : caller.errand = .look ∨ caller.errand = .join
  created_eq : caller.created = none
  address_eq : caller.creation.peer.address = address
  measurement_eq : caller.creation.measurement = measurement

/-- A caller does one thing while nobody else looks at the registry. -/
def Caller.act (caller : Caller) (registry : Registry) : Caller × Registry :=
  match caller.errand with
  | .look =>
    if (registry.find? caller.creation.peer.address caller.creation.measurement).isSome then
      ({ caller with errand := .done }, registry)
    else ({ caller with errand := .create }, registry)
  | .create =>
    match caller.creation.createOrGet registry with
    | ((serial, true), registry) =>
      ({ caller with errand := .release serial, created := some serial }, registry)
    | ((serial, false), registry) => ({ caller with errand := .yield serial }, registry)
  | .yield serial =>
    ({ caller with errand := .done }, registry.change serial fun trial => trial.release.2)
  | .join =>
    let ((serial, _), registry) := caller.creation.createOrGet registry
    ({ caller with errand := .release serial }, registry)
  | .release serial => ({ caller with errand := .done }, (registry.release serial).2)
  | .done => (caller, registry)

section Turns

variable {caller moved : Caller} {registry after : Registry}

/-- What a turn of a caller can come to, with the caller and the registry after it. -/
inductive Caller.Turns (caller : Caller) (registry : Registry) : Caller → Registry → Prop
  /-- It holds nothing, and goes on so. -/
  | stays {moved : Caller} : caller.errand.held? = none → moved.errand.held? = none →
      moved.created = caller.created → caller.Turns registry moved registry
  /-- It finds the key free, and is the first holder of a new trial. -/
  | opens {moved : Caller} :
      registry.find? caller.creation.peer.address caller.creation.measurement = none →
      caller.errand.held? = none → moved.errand.held? = some registry.trials.length →
      (moved.created = caller.created ∨ moved.created = some registry.trials.length) →
      caller.Turns registry moved (caller.creation.createOrGet registry).2
  /-- It finds a trial under the key, and is one holder more. -/
  | joins {moved : Caller} {serial : Serial} :
      registry.find? caller.creation.peer.address caller.creation.measurement = some serial →
      caller.errand.held? = none → moved.errand.held? = some serial →
      moved.created = caller.created →
      caller.Turns registry moved (registry.change serial Trial.acquire)
  /-- It came too late, and gives its reference back without a look at the registry. -/
  | yields {moved : Caller} {serial : Serial} : caller.errand = .yield serial →
      moved.errand.held? = none → moved.created = caller.created →
      caller.Turns registry moved (registry.change serial fun trial => trial.release.2)
  | leaves {moved : Caller} {serial : Serial} : caller.errand = .release serial →
      moved.errand.held? = none → moved.created = caller.created →
      caller.Turns registry moved (registry.release serial).2

theorem Creation.createOrGet_of_find {creation : Creation} {serial : Serial}
    (hfind : registry.find? creation.peer.address creation.measurement = some serial) :
    creation.createOrGet registry = ((serial, false), registry.change serial Trial.acquire) :=
  Registry.createOrGet_of_find _ _ _ _ _ _ hfind

theorem Creation.createOrGet_of_free {creation : Creation}
    (hfree : registry.find? creation.peer.address creation.measurement = none) :
    creation.createOrGet registry =
      ((registry.trials.length, true), (creation.createOrGet registry).2) :=
  Prod.ext (by rw [createOrGet, Registry.createOrGet_of_free _ _ _ _ _ _ hfree]) rfl

theorem Caller.turns_act (caller : Caller) (registry : Registry) :
    caller.Turns registry (caller.act registry).1 (caller.act registry).2 := by
  obtain ⟨creation, errand, created⟩ := caller
  cases errand with
  | look =>
      rw [act]
      dsimp only
      split
      · exact .stays rfl rfl rfl
      · exact .stays rfl rfl rfl
  | create =>
      rw [act]
      dsimp only
      cases hfind : registry.find? creation.peer.address creation.measurement with
      | none =>
          rw [Creation.createOrGet_of_free hfind]
          exact .opens hfind rfl rfl (.inr rfl)
      | some serial =>
          rw [Creation.createOrGet_of_find hfind]
          exact .joins hfind rfl rfl rfl
  | yield serial => exact .yields rfl rfl rfl
  | join =>
      rw [act]
      dsimp only
      cases hfind : registry.find? creation.peer.address creation.measurement with
      | none =>
          rw [Creation.createOrGet_of_free hfind]
          exact .opens hfind rfl rfl (.inl rfl)
      | some serial =>
          rw [Creation.createOrGet_of_find hfind]
          exact .joins hfind rfl rfl rfl
  | release serial => exact .leaves rfl rfl rfl
  | done => exact .stays rfl rfl rfl

theorem Caller.creation_act (caller : Caller) (registry : Registry) :
    (caller.act registry).1.creation = caller.creation := by
  rw [act]
  split
  · split <;> rfl
  · split <;> rfl
  all_goals rfl

end Turns

/-- A registry with those who race for a key. -/
structure Race where
  registry : Registry
  callers : List Caller
  deriving DecidableEq, Inhabited

namespace Race

/-- The race after a caller has done the next thing. -/
def step (race : Race) (place : ℕ) : Race :=
  match race.callers[place]? with
  | none => race
  | some caller =>
    { registry := (caller.act race.registry).2
      callers := race.callers.set place (caller.act race.registry).1 }

/-- The race after callers have had their turns in some order. -/
def run (schedule : List ℕ) (race : Race) : Race := schedule.foldl step race

/-- How many callers have a reference. -/
def holders (callers : List Caller) : ℕ := callers.countP fun caller => caller.errand.held?.isSome

/-! ## References and holders -/

/-- The trial under the key runs and counts its holders, of which there may be none; all others of
the race are finished, and nobody holds one of them. -/
structure Kept (first : Serial) (address : Address) (measurement : Measurement) (race : Race) :
    Prop where
  sound : race.registry.Sound
  first_le : first ≤ race.registry.trials.length
  key : ∀ caller ∈ race.callers, caller.creation.peer.address = address ∧
    caller.creation.measurement = measurement
  current : ∀ serial, race.registry.find? address measurement = some serial → first ≤ serial
  held : ∀ caller ∈ race.callers, ∀ serial, caller.errand.held? = some serial →
    race.registry.find? address measurement = some serial
  running : ∀ serial trial, race.registry.find? address measurement = some serial →
    race.registry.trial? serial = some trial →
    trial.isDone = false ∧ trial.references = holders race.callers
  finished : ∀ serial trial, first ≤ serial → race.registry.trial? serial = some trial →
    race.registry.find? address measurement ≠ some serial → trial.isDone = true

variable {race : Race} {first : Serial} {address : Address} {measurement : Measurement}
  {place : ℕ} {caller moved : Caller} {serial : Serial}

theorem holders_set_add (hcaller : race.callers[place]? = some caller) (moved : Caller) :
    holders (race.callers.set place moved) + (if caller.errand.held?.isSome then 1 else 0) =
      holders race.callers + if moved.errand.held?.isSome then 1 else 0 :=
  countP_set_add hcaller (fun caller => caller.errand.held?.isSome) moved

/-- Nobody holds a trial under a free key. -/
theorem Kept.holders_eq_zero (hkept : race.Kept first address measurement)
    (hfree : race.registry.find? address measurement = none) : holders race.callers = 0 := by
  refine List.countP_eq_zero.2 fun caller hmem hheld => ?_
  obtain ⟨serial, hserial⟩ := Option.isSome_iff_exists.1 hheld
  rw [hkept.held caller hmem serial hserial] at hfree
  cases hfree

/-- A caller that holds a trial is counted by it. -/
theorem Kept.exists_held (hkept : race.Kept first address measurement)
    (hcaller : race.callers[place]? = some caller) (hheld : caller.errand.held? = some serial) :
    ∃ trial, race.registry.trial? serial = some trial ∧
      race.registry.find? address measurement = some serial ∧ trial.isDone = false ∧
      trial.references = holders race.callers ∧ 0 < holders race.callers ∧
      trial.peer.address = address ∧ trial.measurement = measurement := by
  have hmem := List.mem_of_getElem? hcaller
  have hfind := hkept.held caller hmem serial hheld
  obtain ⟨trial, htrial, haddress, hmeasurement⟩ := hkept.sound.trial _ _ _ hfind
  obtain ⟨hrunning, hreferences⟩ := hkept.running serial trial hfind htrial
  refine ⟨trial, htrial, hfind, hrunning, hreferences, ?_, haddress, hmeasurement⟩
  exact List.countP_pos_iff.2 ⟨caller, hmem, by rw [hheld]; rfl⟩

theorem Kept.key_set (hkept : race.Kept first address measurement)
    (hcaller : race.callers[place]? = some caller) (hcreation : moved.creation = caller.creation) :
    ∀ other ∈ race.callers.set place moved, other.creation.peer.address = address ∧
      other.creation.measurement = measurement := by
  intro other hother
  rcases List.mem_or_eq_of_mem_set hother with hold | rfl
  · exact hkept.key other hold
  · rw [hcreation]
    exact hkept.key caller (List.mem_of_getElem? hcaller)

theorem Kept.held_set (hkept : race.Kept first address measurement)
    (hmoved : ∀ serial, moved.errand.held? = some serial →
      race.registry.find? address measurement = some serial) :
    ∀ other ∈ race.callers.set place moved, ∀ serial, other.errand.held? = some serial →
      race.registry.find? address measurement = some serial := by
  intro other hother
  rcases List.mem_or_eq_of_mem_set hother with hold | rfl
  · exact hkept.held other hold
  · exact hmoved

/-- A caller that holds nothing goes on to hold nothing. -/
theorem Kept.stayed (hkept : race.Kept first address measurement)
    (hcaller : race.callers[place]? = some caller) (hcreation : moved.creation = caller.creation)
    (hbefore : caller.errand.held? = none) (hafter : moved.errand.held? = none) :
    ({ race with callers := race.callers.set place moved } : Race).Kept first address
      measurement := by
  have hholders := holders_set_add hcaller moved
  rw [hbefore, hafter] at hholders
  refine ⟨hkept.sound, hkept.first_le, hkept.key_set hcaller hcreation, hkept.current,
    hkept.held_set ?_, ?_, hkept.finished⟩
  · intro serial hheld
    rw [hafter] at hheld
    cases hheld
  · intro serial trial hfind htrial
    obtain ⟨hrunning, hreferences⟩ := hkept.running serial trial hfind htrial
    exact ⟨hrunning, hreferences.trans hholders.symm⟩

/-- A caller comes or goes, and the trial under the key counts it and goes on. -/
theorem Kept.counted (hkept : race.Kept first address measurement)
    (hcaller : race.callers[place]? = some caller) (hcreation : moved.creation = caller.creation)
    (hfind : race.registry.find? address measurement = some serial) {operation : Trial → Trial}
    (hprecedes : ∀ trial : Trial, trial.Precedes (operation trial))
    (hrunning : ∀ trial : Trial, (operation trial).isDone = trial.isDone)
    (hcount : ∀ trial : Trial, trial.references = holders race.callers →
      (operation trial).references = holders (race.callers.set place moved))
    (hmoved : ∀ other, moved.errand.held? = some other → other = serial) :
    ({ registry := race.registry.change serial operation
       callers := race.callers.set place moved } : Race).Kept first address measurement where
  sound := hkept.sound.change serial hprecedes
  first_le := by
    rw [Registry.length_trials_change]
    exact hkept.first_le
  key := hkept.key_set hcaller hcreation
  current := hkept.current
  held := hkept.held_set fun other hother => hmoved other hother ▸ hfind
  running := by
    intro other trial hother htrial
    have heq : serial = other := Option.some.inj (hfind.symm.trans hother)
    rw [Registry.trial?_change, if_pos heq] at htrial
    obtain ⟨old, hold, rfl⟩ := Option.map_eq_some_iff.1 htrial
    obtain ⟨hruns, hreferences⟩ := hkept.running other old hother hold
    exact ⟨(hrunning old).trans hruns, hcount old hreferences⟩
  finished := by
    intro other trial hfirst htrial hother
    have hne : serial ≠ other := fun heq => hother (heq ▸ hfind)
    rw [Registry.trial?_change, if_neg hne] at htrial
    exact hkept.finished other trial hfirst htrial hother

/-- A caller that finds the key free is the first holder of a new trial. -/
theorem Kept.opened (hkept : race.Kept first address measurement)
    (hcaller : race.callers[place]? = some caller) (hcreation : moved.creation = caller.creation)
    (hfree : race.registry.find? address measurement = none)
    (hbefore : caller.errand.held? = none)
    (hafter : moved.errand.held? = some race.registry.trials.length) :
    ({ registry := (caller.creation.createOrGet race.registry).2
       callers := race.callers.set place moved } : Race).Kept first address measurement := by
  obtain ⟨rfl, rfl⟩ := hkept.key caller (List.mem_of_getElem? hcaller)
  have hkeep := hkept.key_set hcaller hcreation
  obtain ⟨⟨now, peer, measurement, request, reducer, interval⟩, errand, created⟩ := caller
  have hfind : ∀ serial, (race.registry.createOrGet now peer measurement request reducer
      interval).2.find? peer.address measurement = some serial ↔
        serial = race.registry.trials.length := by
    intro serial
    rw [Registry.find?_createOrGet, if_pos ⟨rfl, rfl⟩,
      Registry.createOrGet_of_free _ _ _ _ _ _ hfree, Option.some.injEq, eq_comm]
  have htrials := Registry.trial?_createOrGet_of_free now peer measurement request reducer interval
    hfree
  have hholders := holders_set_add hcaller moved
  rw [hkept.holders_eq_zero hfree, hbefore, hafter] at hholders
  refine ⟨hkept.sound.createOrGet_of_free now peer measurement request reducer interval hfree,
    ?_, hkeep, ?_, ?_, ?_, ?_⟩
  · exact Nat.le_trans hkept.first_le
      (hkept.sound.lt_length_createOrGet now peer measurement request reducer interval).1
  · intro serial hserial
    rw [(hfind serial).1 hserial]
    exact hkept.first_le
  · -- the key was free, so none of the others holds anything
    intro other hother serial hheld
    rcases List.mem_or_eq_of_mem_set hother with hold | rfl
    · rw [hkept.held other hold serial hheld] at hfree
      cases hfree
    · rw [hafter] at hheld
      exact (hfind serial).2 (Option.some.inj hheld).symm
  · intro serial trial hserial htrial
    rw [(hfind serial).1 hserial] at htrial
    have hnew := (htrials race.registry.trials.length).symm.trans htrial
    rw [if_pos rfl] at hnew
    cases hnew
    exact ⟨rfl, hholders.symm⟩
  · intro serial trial hfirst htrial hother
    have hne : serial ≠ race.registry.trials.length := fun heq => hother ((hfind serial).2 heq)
    have hold := (htrials serial).symm.trans htrial
    rw [if_neg hne] at hold
    refine hkept.finished serial trial hfirst hold ?_
    rw [hfree]
    exact fun h => nomatch h

/-- Whoever gives the last reference back looks whether it was the last, and frees the key. -/
theorem Kept.find?_release_of_last (hkept : race.Kept first address measurement)
    (hcaller : race.callers[place]? = some caller) (hheld : caller.errand.held? = some serial)
    (hlast : holders race.callers = 1) :
    (race.registry.release serial).2.find? address measurement = none := by
  obtain ⟨trial, htrial, hfind, -, hreferences, -, rfl, rfl⟩ := hkept.exists_held hcaller hheld
  rw [Registry.release_of_last htrial hfind (Nat.le_of_eq (hreferences.trans hlast)),
    Registry.find?_delete (hkept.sound.change serial Trial.precedes_release), if_pos ⟨rfl, rfl⟩]

/-- A caller that gives the last reference back takes the trial out of the registry. -/
theorem Kept.closed (hkept : race.Kept first address measurement)
    (hcaller : race.callers[place]? = some caller) (hcreation : moved.creation = caller.creation)
    (hheld : caller.errand.held? = some serial) (hafter : moved.errand.held? = none)
    (hlast : holders race.callers = 1) :
    ({ registry := (race.registry.release serial).2
       callers := race.callers.set place moved } : Race).Kept first address measurement := by
  have hfree := hkept.find?_release_of_last hcaller hheld hlast
  obtain ⟨trial, htrial, hfind, -, hreferences, -, rfl, rfl⟩ := hkept.exists_held hcaller hheld
  have hholders := holders_set_add hcaller moved
  rw [hheld, hafter, hlast] at hholders
  have hsound := hkept.sound.change serial Trial.precedes_release
  have hdelete : (race.registry.change serial fun trial => trial.release.2).delete
      trial.peer.address trial.measurement = (true, _) := Registry.delete_of_find hfind
  rw [Registry.release_of_last htrial hfind (Nat.le_of_eq (hreferences.trans hlast))] at hfree ⊢
  refine ⟨(Registry.evolves_delete hsound _ _).sound, ?_, hkept.key_set hcaller hcreation, ?_, ?_,
    ?_, ?_⟩
  · rw [Registry.length_trials_delete, Registry.length_trials_change]
    exact hkept.first_le
  · intro other hother
    rw [hfree] at hother
    cases hother
  · -- the one that gives it back was the last one
    intro other hother held hheldOther
    have hnone : holders (race.callers.set place moved) = 0 := by simpa using hholders
    exact absurd (List.countP_eq_zero.1 hnone other hother) (by simp [hheldOther])
  · intro other found hother
    rw [hfree] at hother
    cases hother
  · -- the trial that has left is finished with that, the others were before
    intro other found hfirst hfound hother
    rw [hdelete, Registry.trial?_change, Registry.trial?_remove, Registry.trial?_change] at hfound
    by_cases heq : serial = other
    · subst heq
      rw [if_pos rfl, if_pos rfl, htrial] at hfound
      cases hfound
      rfl
    · rw [if_neg heq, if_neg heq] at hfound
      refine hkept.finished other found hfirst hfound fun h => heq ?_
      exact Option.some.inj (hfind.symm.trans h)

/-- A caller that finds a trial under the key is one holder more. -/
theorem Kept.joined (hkept : race.Kept first address measurement)
    (hcaller : race.callers[place]? = some caller) (hcreation : moved.creation = caller.creation)
    (hfind : race.registry.find? address measurement = some serial)
    (hbefore : caller.errand.held? = none) (hafter : moved.errand.held? = some serial) :
    ({ registry := race.registry.change serial Trial.acquire
       callers := race.callers.set place moved } : Race).Kept first address measurement := by
  have hholders := holders_set_add hcaller moved
  rw [hbefore, hafter] at hholders
  refine hkept.counted hcaller hcreation hfind Trial.precedes_acquire (fun _ => rfl) ?_ ?_
  · intro trial hreferences
    exact (congrArg (· + 1) hreferences).trans hholders.symm
  · intro other hother
    rw [hafter] at hother
    exact (Option.some.inj hother).symm

/-- A caller that leaves is one holder less; the trial stays, whether anybody is left or not. -/
theorem Kept.left (hkept : race.Kept first address measurement)
    (hcaller : race.callers[place]? = some caller) (hcreation : moved.creation = caller.creation)
    (hheld : caller.errand.held? = some serial) (hafter : moved.errand.held? = none) :
    ({ registry := race.registry.change serial fun trial => trial.release.2
       callers := race.callers.set place moved } : Race).Kept first address measurement := by
  have hholders := holders_set_add hcaller moved
  rw [hheld, hafter] at hholders
  have hfind := hkept.held caller (List.mem_of_getElem? hcaller) serial hheld
  refine hkept.counted hcaller hcreation hfind Trial.precedes_release (fun _ => rfl) ?_ ?_
  · intro trial hreferences
    have hone : holders (race.callers.set place moved) + 1 = holders race.callers := hholders
    show trial.references - 1 = _
    rw [hreferences, ← hone, Nat.add_sub_cancel]
  · intro other hother
    rw [hafter] at hother
    cases hother

theorem Kept.step (hkept : race.Kept first address measurement) (place : ℕ) :
    (race.step place).Kept first address measurement := by
  rw [Race.step]
  split
  case h_1 => exact hkept
  case h_2 caller hcaller =>
    have hcreation := caller.creation_act race.registry
    have hturns := caller.turns_act race.registry
    obtain ⟨rfl, rfl⟩ := hkept.key caller (List.mem_of_getElem? hcaller)
    generalize (caller.act race.registry).1 = moved at hcreation hturns ⊢
    generalize (caller.act race.registry).2 = after at hturns ⊢
    cases hturns with
    | stays hbefore hafter => exact hkept.stayed hcaller hcreation hbefore hafter
    | opens hfree hbefore hafter => exact hkept.opened hcaller hcreation hfree hbefore hafter
    | joins hfind hbefore hafter => exact hkept.joined hcaller hcreation hfind hbefore hafter
    | yields herrand hafter =>
        exact hkept.left hcaller hcreation (by rw [herrand]; rfl) hafter
    | @leaves serial herrand hafter =>
        have hheld : caller.errand.held? = some serial := by rw [herrand]; rfl
        obtain ⟨trial, htrial, -, -, hreferences, hpos, -⟩ := hkept.exists_held hcaller hheld
        -- the references are the holders, so the registry knows whether this is the last one
        rcases Nat.lt_or_eq_of_le hpos with hshared | hlast
        · rw [Registry.release_of_shared htrial (hreferences ▸ hshared)]
          exact hkept.left hcaller hcreation hheld hafter
        · exact hkept.closed hcaller hcreation hheld hafter hlast.symm

theorem kept_run (hkept : race.Kept first address measurement) (schedule : List ℕ) :
    (run schedule race).Kept first address measurement := by
  induction schedule generalizing race with
  | nil => exact hkept
  | cons place schedule ih => exact ih (hkept.step place)

/-! ## Trials of one's own -/

/-- What callers were told to have created has numbers in use, and no number twice. -/
structure Numbered (race : Race) : Prop where
  created_lt : ∀ caller ∈ race.callers, ∀ serial, caller.created = some serial →
    serial < race.registry.trials.length
  place_eq : ∀ (place other : ℕ) (caller found : Caller) (serial : Serial),
    race.callers[place]? = some caller → race.callers[other]? = some found →
    caller.created = some serial → found.created = some serial → place = other

/-- What a caller is told to have created is new. -/
theorem created_of_turns {moved : Caller} {registry after : Registry}
    (hturns : caller.Turns registry moved after) :
    registry.trials.length ≤ after.trials.length ∧
      (moved.created = caller.created ∨
        moved.created = some registry.trials.length ∧
          registry.trials.length < after.trials.length) := by
  cases hturns with
  | stays _ _ hcreated => exact ⟨Nat.le_refl _, .inl hcreated⟩
  | opens hfree _ _ hcreated =>
      have hlength : (caller.creation.createOrGet registry).2.trials.length =
          registry.trials.length + 1 := by
        rw [Creation.createOrGet, Registry.createOrGet_of_free _ _ _ _ _ _ hfree,
          Registry.trials_putSession, List.length_append, List.length_singleton]
      rw [hlength]
      exact ⟨Nat.le_succ _, hcreated.imp_right fun hnew => ⟨hnew, Nat.lt_succ_self _⟩⟩
  | joins _ _ _ hcreated =>
      exact ⟨Nat.le_of_eq (Registry.length_trials_change ..).symm, .inl hcreated⟩
  | yields _ _ hcreated =>
      exact ⟨Nat.le_of_eq (Registry.length_trials_change ..).symm, .inl hcreated⟩
  | leaves _ _ hcreated =>
      exact ⟨Nat.le_of_eq (Registry.length_trials_release ..).symm, .inl hcreated⟩

/-- Nobody else was told to have created what a caller is told to have created in its turn. -/
theorem Numbered.created_ne (hnumbered : race.Numbered)
    (hcaller : race.callers[place]? = some caller) {other : ℕ} {found : Caller}
    (hfound : race.callers[other]? = some found) (hne : place ≠ other)
    (hserial : (caller.act race.registry).1.created = some serial) :
    found.created ≠ some serial := by
  intro hsame
  rcases (created_of_turns (caller.turns_act race.registry)).2 with hkept | ⟨hnew, -⟩
  · exact hne (hnumbered.place_eq place other caller found serial hcaller hfound
      (hkept ▸ hserial) hsame)
  · rw [hnew, Option.some.injEq] at hserial
    have hlt := hnumbered.created_lt found (List.mem_of_getElem? hfound) serial hsame
    exact Nat.lt_irrefl _ (hserial ▸ hlt)

/-- What a caller is told to have created in its turn has a number in use. -/
theorem Numbered.lt_of_created (hnumbered : race.Numbered)
    (hcaller : race.callers[place]? = some caller)
    (hserial : (caller.act race.registry).1.created = some serial) :
    serial < (caller.act race.registry).2.trials.length := by
  obtain ⟨hle, hkept | ⟨hnew, hlt⟩⟩ := created_of_turns (caller.turns_act race.registry)
  · rw [hkept] at hserial
    exact Nat.lt_of_lt_of_le
      (hnumbered.created_lt caller (List.mem_of_getElem? hcaller) serial hserial) hle
  · rw [hnew, Option.some.injEq] at hserial
    exact hserial ▸ hlt

theorem Numbered.step (hnumbered : race.Numbered) (place : ℕ) : (race.step place).Numbered := by
  rw [Race.step]
  split
  case h_1 => exact hnumbered
  case h_2 caller hcaller =>
    have hplace := (List.getElem?_eq_some_iff.1 hcaller).1
    constructor
    · intro found hfound serial hserial
      rcases List.mem_or_eq_of_mem_set hfound with hold | rfl
      · have hle := (created_of_turns (caller.turns_act race.registry)).1
        exact Nat.lt_of_lt_of_le (hnumbered.created_lt found hold serial hserial) hle
      · exact hnumbered.lt_of_created hcaller hserial
    · -- only the caller whose turn it is has learnt of a trial, and of a new one
      intro here there found met serial hfound hmet hserial hsame
      rw [List.getElem?_set] at hfound hmet
      split at hfound
      case isTrue h =>
        split at hmet
        case isTrue h' => exact h.symm.trans h'
        case isFalse h' =>
          cases hfound
          exact absurd hsame (hnumbered.created_ne hcaller hmet h' hserial)
      case isFalse h =>
        split at hmet
        case isTrue h' =>
          cases hmet
          exact absurd hserial (hnumbered.created_ne hcaller hfound h hsame)
        case isFalse =>
          exact hnumbered.place_eq here there found met serial hfound hmet hserial hsame

theorem numbered_run (hnumbered : race.Numbered) (schedule : List ℕ) :
    (run schedule race).Numbered := by
  induction schedule generalizing race with
  | nil => exact hnumbered
  | cons place schedule ih => exact ih (hnumbered.step place)

/-! ## Trials that nobody holds -/

/-- At one of the turns a caller that came too late gives the last reference to a trial back. -/
def Strands (start : Race) (schedule : List ℕ) (serial : Serial) : Prop :=
  ∃ before place later caller, schedule = before ++ place :: later ∧
    (run before start).callers[place]? = some caller ∧ caller.errand = .yield serial ∧
    holders (run before start).callers = 1

theorem Strands.append {start : Race} {schedule : List ℕ}
    (hstrands : Strands start schedule serial) (more : List ℕ) :
    Strands start (schedule ++ more) serial := by
  obtain ⟨before, place, later, caller, rfl, hcaller⟩ := hstrands
  exact ⟨before, place, later ++ more, caller, by simp, hcaller⟩

/-- Only a caller that came too late leaves a trial under the key that nobody holds. -/
theorem Kept.unheld_step (hkept : race.Kept first address measurement)
    (hfind : (race.step place).registry.find? address measurement = some serial)
    (hnone : holders (race.step place).callers = 0) :
    race.registry.find? address measurement = some serial ∧ holders race.callers = 0 ∨
      ∃ caller, race.callers[place]? = some caller ∧ caller.errand = .yield serial ∧
        holders race.callers = 1 := by
  rw [Race.step] at hfind hnone
  split at hfind
  case h_1 hplace =>
    rw [hplace] at hnone
    exact .inl ⟨hfind, hnone⟩
  case h_2 caller hcaller =>
    rw [hcaller] at hnone
    dsimp only at hfind hnone
    have hholders := holders_set_add hcaller (caller.act race.registry).1
    have hturns := caller.turns_act race.registry
    rw [hnone] at hholders
    generalize (caller.act race.registry).1 = moved at hholders hturns
    generalize (caller.act race.registry).2 = after at hfind hturns
    cases hturns with
    | stays hbefore hafter =>
        rw [hbefore, hafter] at hholders
        exact .inl ⟨hfind, hholders.symm⟩
    | opens _ hbefore hafter =>
        -- whoever comes holds the trial
        rw [hbefore, hafter] at hholders
        exact absurd hholders (Nat.succ_ne_zero _).symm
    | joins _ hbefore hafter =>
        rw [hbefore, hafter] at hholders
        exact absurd hholders (Nat.succ_ne_zero _).symm
    | @yields found herrand hafter =>
        have hheld : caller.errand.held? = some found := by rw [herrand]; rfl
        have hsame := hkept.held caller (List.mem_of_getElem? hcaller) found hheld
        rw [hheld, hafter] at hholders
        obtain rfl : found = serial := Option.some.inj (hsame.symm.trans hfind)
        exact .inr ⟨caller, hcaller, herrand, hholders.symm⟩
    | @leaves found herrand hafter =>
        -- whoever gives the last reference back frees the key
        have hheld : caller.errand.held? = some found := by rw [herrand]; rfl
        rw [hheld, hafter] at hholders
        rw [hkept.find?_release_of_last hcaller hheld hholders.symm] at hfind
        cases hfind

/-- If nobody holds the trial under the key, a caller has stranded it. -/
theorem Kept.strands_run {start : Race} (hkept : start.Kept first address measurement)
    (hfree : start.registry.find? address measurement = none) (schedule : List ℕ)
    (hfind : (run schedule start).registry.find? address measurement = some serial)
    (hnone : holders (run schedule start).callers = 0) : Strands start schedule serial := by
  -- the last turn is looked at first: it strands the trial, or an earlier one did
  induction schedule using List.reverseRecOn with
  | nil =>
      rw [show run [] start = start from rfl, hfree] at hfind
      cases hfind
  | append_singleton schedule place ih =>
      have hrun : run (schedule ++ [place]) start = (run schedule start).step place := by
        rw [run, List.foldl_append]
        rfl
      rw [hrun] at hfind hnone
      rcases (kept_run hkept schedule).unheld_step hfind hnone with
          ⟨hbefore, hunheld⟩ | ⟨caller, hcaller, herrand, hlast⟩
      · exact (ih hbefore hunheld).append [place]
      · exact ⟨schedule, place, [], caller, rfl, hcaller, herrand, hlast⟩

/-! ## Whole races -/

variable {registry : Registry} {callers : List Caller}

theorem kept_start (hsound : registry.Sound) (hfree : registry.find? address measurement = none)
    (hcallers : ∀ caller ∈ callers, caller.Begins address measurement) :
    Kept registry.trials.length address measurement ⟨registry, callers⟩ where
  sound := hsound
  first_le := Nat.le_refl _
  key := fun caller hcaller =>
    ⟨(hcallers caller hcaller).address_eq, (hcallers caller hcaller).measurement_eq⟩
  current := by
    intro serial hfind
    rw [show registry.find? address measurement = some serial from hfind] at hfree
    cases hfree
  held := by
    intro caller hcaller serial hheld
    rcases (hcallers caller hcaller).errand_eq with herrand | herrand
    · rw [herrand] at hheld
      cases hheld
    · rw [herrand] at hheld
      cases hheld
  running := by
    intro serial trial hfind
    rw [show registry.find? address measurement = some serial from hfind] at hfree
    cases hfree
  finished := fun serial trial hfirst htrial =>
    absurd (Registry.lt_of_trial? htrial) (Nat.not_lt.2 hfirst)

theorem numbered_start (hcallers : ∀ caller ∈ callers, caller.Begins address measurement) :
    Numbered ⟨registry, callers⟩ where
  created_lt := by
    intro caller hcaller serial hcreated
    rw [(hcallers caller hcaller).created_eq] at hcreated
    cases hcreated
  place_eq := by
    intro place other caller found serial hcaller _ hcreated
    rw [(hcallers caller (List.mem_of_getElem? hcaller)).created_eq] at hcreated
    cases hcreated

/-- Without a race the turns of a caller make up the operations of a registry. -/
theorem run_alone (registry : Registry) (creation : Creation) :
    (run [0, 0] ⟨registry, [{ creation, errand := .look }]⟩).registry =
        (creation.create registry).2 ∧
      (run [0, 0] ⟨registry, [{ creation, errand := .look }]⟩).callers.map Caller.created =
        [(creation.create registry).1.toOption] := by
  have hrun : run [0, 0] ⟨registry, [{ creation, errand := .look }]⟩ =
      (Race.step ⟨registry, [{ creation, errand := .look }]⟩ 0).step 0 := rfl
  rw [hrun]
  cases hfind : registry.find? creation.peer.address creation.measurement with
  | none =>
      have hlooked : Race.step ⟨registry, [{ creation, errand := .look }]⟩ 0 =
          ⟨registry, [{ creation, errand := .create }]⟩ := by
        simp [Race.step, Caller.act, hfind]
      have hcreated : Caller.act { creation, errand := .create } registry =
          ({ creation, errand := .release registry.trials.length
             created := some registry.trials.length }, (creation.createOrGet registry).2) := by
        rw [Caller.act, Creation.createOrGet_of_free hfind]
      rw [hlooked, Creation.create, Registry.create_of_free _ _ _ _ _ _ hfind]
      simp [Race.step, hcreated, Creation.createOrGet, Except.toOption]
  | some serial =>
      have hlooked : Race.step ⟨registry, [{ creation, errand := .look }]⟩ 0 =
          ⟨registry, [{ creation, errand := .done }]⟩ := by
        simp [Race.step, Caller.act, hfind]
      rw [hlooked, Creation.create, Registry.create, if_pos (by rw [hfind]; rfl)]
      exact ⟨rfl, rfl⟩

/-- Whatever callers race for a free key, and in whatever order they have their turns: no two of
them are told to have created the same trial.  When all are done, either the key is free and every
trial that was created for it is finished, or the last reference to a trial was given back by a
caller that came too late.  Then that trial is left under the key, running and without a holder,
and all others are finished. -/
theorem race_run (hsound : registry.Sound) (hfree : registry.find? address measurement = none)
    (hcallers : ∀ caller ∈ callers, caller.Begins address measurement) (schedule : List ℕ) :
    let race := run schedule ⟨registry, callers⟩
    (∀ (place other : ℕ) (caller found : Caller) (serial : Serial),
      race.callers[place]? = some caller → race.callers[other]? = some found →
      caller.created = some serial → found.created = some serial → place = other) ∧
    ((∀ caller ∈ race.callers, caller.errand = .done) →
      (race.registry.find? address measurement = none ∧
        ∀ serial trial, registry.trials.length ≤ serial →
          race.registry.trial? serial = some trial → trial.isDone = true) ∨
      ∃ serial trial, Strands ⟨registry, callers⟩ schedule serial ∧
        race.registry.find? address measurement = some serial ∧
        race.registry.trial? serial = some trial ∧ trial.isDone = false ∧ trial.references = 0 ∧
        ∀ other found, registry.trials.length ≤ other → other ≠ serial →
          race.registry.trial? other = some found → found.isDone = true) := by
  intro race
  have hstart := kept_start hsound hfree hcallers
  have hkept := kept_run hstart schedule
  refine ⟨(numbered_run (numbered_start hcallers) schedule).place_eq, fun hdone => ?_⟩
  have hnone : holders race.callers = 0 := by
    refine List.countP_eq_zero.2 fun caller hcaller => ?_
    rw [hdone caller hcaller]
    exact Bool.false_ne_true
  cases hfind : race.registry.find? address measurement with
  | none =>
      refine .inl ⟨rfl, fun serial trial hfirst htrial => ?_⟩
      exact hkept.finished serial trial hfirst htrial (by rw [hfind]; exact fun h => nomatch h)
  | some serial =>
      obtain ⟨trial, htrial, -, -⟩ := hkept.sound.trial _ _ _ hfind
      obtain ⟨hrunning, hreferences⟩ := hkept.running serial trial hfind htrial
      refine .inr ⟨serial, trial, hstart.strands_run hfree schedule hfind hnone, rfl, htrial,
        hrunning, hreferences.trans hnone, fun other found hfirst hne hfound => ?_⟩
      refine hkept.finished other found hfirst hfound fun h => hne ?_
      exact Option.some.inj (h.symm.trans hfind)

/-- Of two callers that find the key free one creates the trial; the other one comes too late, but
the third one still holds the trial then, and takes it out of the registry. -/
theorem race_run_shared :
    let creation (port : UInt16) : Creation :=
      { now := 0, peer := ⟨.loopback, port, 0⟩, measurement := .tcpBandwidth, request := {}
        reducer := some .bandwidth, interval := 1_000_000_000 }
    let callers : List Caller :=
      [{ creation := creation 40000, errand := .look },
        { creation := creation 40001, errand := .look },
        { creation := creation 40002, errand := .join }]
    let race := run [0, 1, 0, 1, 2, 0, 1, 2] ⟨{}, callers⟩
    ({} : Registry).Sound ∧ ({} : Registry).find? .loopback .tcpBandwidth = none ∧
      (∀ caller ∈ callers, caller.Begins .loopback .tcpBandwidth) ∧
      race.callers.map Caller.created = [some 0, none, none] ∧
      race.registry.find? .loopback .tcpBandwidth = none ∧
      ∃ trial, race.registry.trial? 0 = some trial ∧ trial.isDone = true := by
  intro creation callers race
  have hcallers : ∀ caller ∈ callers, caller.Begins .loopback .tcpBandwidth := by
    intro caller hcaller
    simp only [callers, List.mem_cons, List.not_mem_nil, or_false] at hcaller
    rcases hcaller with rfl | rfl | rfl
    · exact ⟨.inl rfl, rfl, rfl, rfl⟩
    · exact ⟨.inl rfl, rfl, rfl, rfl⟩
    · exact ⟨.inr rfl, rfl, rfl, rfl⟩
  obtain ⟨-, hended⟩ := race_run Registry.sound_empty rfl hcallers [0, 1, 0, 1, 2, 0, 1, 2]
  have hfree : race.registry.find? .loopback .tcpBandwidth = none := by decide +kernel
  refine ⟨Registry.sound_empty, rfl, hcallers, by decide +kernel, hfree, ?_⟩
  have hsome : (race.registry.trial? 0).isSome := by decide +kernel
  obtain ⟨trial, htrial⟩ := Option.isSome_iff_exists.1 hsome
  rcases hended (by decide +kernel) with ⟨-, hfinished⟩ | ⟨serial, _, -, hfind, -⟩
  · exact ⟨trial, htrial, hfinished 0 trial (Nat.zero_le 0) htrial⟩
  · exact absurd (hfree.symm.trans hfind) (by simp)

/-- The second caller finds the key free, the first one creates the trial in the meantime, and gives
it back before the second one does: the trial stays registered, and nobody is left to finish it. -/
theorem race_run_stranded :
    let creation (port : UInt16) : Creation :=
      { now := 0, peer := ⟨.loopback, port, 0⟩, measurement := .tcpBandwidth, request := {}
        reducer := some .bandwidth, interval := 1_000_000_000 }
    let race := run [1, 0, 0, 1, 0, 1]
      ⟨{}, [{ creation := creation 40000, errand := .look },
        { creation := creation 40001, errand := .look }]⟩
    (∀ caller ∈ race.callers, caller.errand = .done) ∧
      race.callers.map Caller.created = [some 0, none] ∧
      race.registry.find? .loopback .tcpBandwidth = some 0 ∧
      (race.registry.trial? 0).map (fun trial => (trial.isDone, trial.references)) =
        some (false, 0) := by
  decide +kernel

end Race

end LinkMeter
