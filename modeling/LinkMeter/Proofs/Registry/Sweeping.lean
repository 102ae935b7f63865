import LinkMeter.Proofs.Registry.References
import LinkMeter.Proofs.Registry.Spared
import Mathlib.Data.Set.Card

/-!
# One sweep

A sweep judges all registered trials first, then makes some dormant, and then
deletes others one after another.  Deleting one of them takes a session away when
it was the last of its session, and the next one is looked up in what is left.

What comes out is what the judgement says (`Registry.Sound.swept`): a trial over
datagrams that has been idle for long enough is finished and leaves, one that has
been idle for less may become dormant, and nothing else changes.  The sweep deletes
under keys, so the proof follows the keys through the deletions.
-/

namespace LinkMeter

open Pacing (Instant)

/-! ## Judging a trial -/

namespace Trial

variable (trial : Trial) (now : Instant) (dormantAfter deleteAfter : ℕ)

/-- A trial over datagrams that had no sign of life for so long. -/
def IsIdleFor (limit : ℕ) : Prop :=
  trial.measurement.transport = .udp ∧ limit ≤ now - trial.lastAccess

instance (limit : ℕ) : Decidable (trial.IsIdleFor now limit) :=
  inferInstanceAs (Decidable (_ ∧ _))

/-- What a sweep makes of a registered trial. -/
def swept : Trial :=
  if trial.IsIdleFor now deleteAfter then trial.finish.2
  else if trial.IsIdleFor now dormantAfter then trial.setDormant
  else trial

theorem verdict_eq : trial.verdict now dormantAfter deleteAfter =
    if trial.IsIdleFor now deleteAfter then .delete
    else if trial.IsIdleFor now dormantAfter then .setDormant
    else .keep := by
  unfold verdict IsIdleFor idleFor
  by_cases hudp : trial.measurement.transport = .udp <;> simp [hudp]

theorem verdict_eq_delete_iff :
    trial.verdict now dormantAfter deleteAfter = .delete ↔ trial.IsIdleFor now deleteAfter := by
  rw [verdict_eq]
  split
  case isTrue hidle => simp [hidle]
  case isFalse hbusy => split <;> simp [hbusy]

theorem verdict_eq_setDormant_iff :
    trial.verdict now dormantAfter deleteAfter = .setDormant ↔
      ¬ trial.IsIdleFor now deleteAfter ∧ trial.IsIdleFor now dormantAfter := by
  rw [verdict_eq]
  split
  case isTrue hidle => simp [hidle]
  case isFalse hbusy => split <;> simp_all

end Trial

namespace Registry

variable {registry : Registry} {keys : List (Address × Measurement)} {serial : Serial}

/-- The trial with a number is over datagrams and had no sign of life for so long. -/
def IsIdleFor (registry : Registry) (serial : Serial) (now : Instant) (limit : ℕ) : Prop :=
  ∃ trial ∈ registry.trial? serial, trial.IsIdleFor now limit

instance (registry : Registry) (serial : Serial) (now : Instant) (limit : ℕ) :
    Decidable (registry.IsIdleFor serial now limit) :=
  inferInstanceAs (Decidable (∃ trial ∈ registry.trial? serial, _))

theorem isIdleFor_iff {trial : Trial} (htrial : registry.trial? serial = some trial)
    {now : Instant} {limit : ℕ} :
    registry.IsIdleFor serial now limit ↔ trial.IsIdleFor now limit := by
  simp [IsIdleFor, htrial]

/-! ## The entries of a registry -/

theorem mem_entries_iff (hsound : registry.Sound) {address : Address} {measurement : Measurement} :
    (address, measurement, serial) ∈ registry.entries ↔
      registry.find? address measurement = some serial := by
  refine ⟨hsound.find?_of_mem_entries, fun hfind => ?_⟩
  obtain ⟨session, hsession, hserial⟩ := Option.bind_eq_some_iff.1 hfind
  refine List.mem_flatMap.2 ⟨(address, session), mem_of_lookup hsession, List.mem_map.2
    ⟨(measurement, serial), mem_of_lookup hserial, ?_⟩⟩
  rw [(hsound.session _ _ hsession).address_eq]

/-- No key occurs twice. -/
theorem nodup_entries (hsound : registry.Sound) :
    (registry.entries.map fun entry => (entry.1, entry.2.1)).Nodup := by
  have hsessions : ∀ entry ∈ registry.sessions, entry.2.Sound entry.1 := fun entry hentry =>
    hsound.session _ _ (lookup_of_mem hsound.nodup hentry)
  rw [entries, List.map_flatMap, List.nodup_flatMap]
  constructor
  · intro entry hentry
    rw [List.map_map]
    have hkeys := (hsessions entry hentry).nodup
    rw [List.Nodup, List.pairwise_map] at hkeys ⊢
    exact hkeys.imp fun hne heq => hne (Prod.mk.inj heq).2
  · have hpairs := List.pairwise_map.1 hsound.nodup
    refine hpairs.imp_of_mem fun {first second} hfirst hsecond hne => ?_
    rw [Function.onFun, List.disjoint_left]
    intro key hkey hother
    simp only [List.map_map, List.mem_map, Function.comp_apply] at hkey hother
    obtain ⟨entry, -, rfl⟩ := hkey
    obtain ⟨other, -, heq⟩ := hother
    have haddress := (Prod.mk.inj heq).1
    rw [(hsessions first hfirst).address_eq, (hsessions second hsecond).address_eq] at haddress
    exact hne haddress.symm

/-! ## Making trials dormant -/

theorem sessions_setAllDormant (serials : List Serial) (registry : Registry) :
    (setAllDormant serials registry).sessions = registry.sessions := by
  unfold setAllDormant
  induction serials generalizing registry with
  | nil => rfl
  | cons first rest ih => exact ih _

theorem find?_setAllDormant (serials : List Serial) (registry : Registry) (address : Address)
    (measurement : Measurement) :
    (setAllDormant serials registry).find? address measurement =
      registry.find? address measurement := by
  rw [find?, session?, sessions_setAllDormant]
  rfl

theorem sound_setAllDormant (hsound : registry.Sound) (serials : List Serial) :
    (setAllDormant serials registry).Sound := by
  induction serials generalizing registry with
  | nil => exact hsound
  | cons first rest ih => exact ih (hsound.change first Trial.precedes_setDormant)

/-- A trial that is made dormant twice is made dormant. -/
theorem trial?_setAllDormant (serials : List Serial) (registry : Registry) (serial : Serial) :
    (setAllDormant serials registry).trial? serial =
      if serial ∈ serials then (registry.trial? serial).map Trial.setDormant
      else registry.trial? serial := by
  induction serials generalizing registry with
  | nil => rfl
  | cons first rest ih =>
    change (setAllDormant rest (registry.change first Trial.setDormant)).trial? serial = _
    rw [ih, trial?_change]
    by_cases hfirst : first = serial
    · subst hfirst
      cases registry.trial? first <;> simp [Trial.setDormant]
    · simp [hfirst, Ne.symm hfirst]

/-! ## Deleting under keys -/

theorem find?_delete_key (hsound : registry.Sound) (key other : Address × Measurement) :
    (registry.delete key.1 key.2).2.find? other.1 other.2 =
      if other = key then none else registry.find? other.1 other.2 := by
  rw [find?_delete hsound]
  simp only [Prod.ext_iff]

theorem trial?_delete (registry : Registry) (address : Address) (measurement : Measurement)
    (serial : Serial) :
    (registry.delete address measurement).2.trial? serial =
      if registry.find? address measurement = some serial then
        (registry.trial? serial).map fun trial => trial.finish.2
      else registry.trial? serial := by
  cases hfind : registry.find? address measurement with
  | none => simp [delete_of_free hfind]
  | some removed => simp [delete_of_find hfind, trial?_remove]

theorem find?_deleteAll (hsound : registry.Sound) (keys : List (Address × Measurement))
    (other : Address × Measurement) :
    (deleteAll keys registry).2.find? other.1 other.2 =
      if other ∈ keys then none else registry.find? other.1 other.2 := by
  induction keys generalizing registry with
  | nil => rfl
  | cons key rest ih =>
    have hafter := (evolves_delete hsound key.1 key.2).sound
    change (deleteAll rest (registry.delete key.1 key.2).2).2.find? other.1 other.2 = _
    rw [ih hafter, find?_delete_key hsound]
    by_cases hkey : other = key <;> simp [hkey]

/-- Who stood under one of the keys is finished. -/
theorem trial?_deleteAll (hsound : registry.Sound) (keys : List (Address × Measurement))
    (serial : Serial) :
    (deleteAll keys registry).2.trial? serial =
      if ∃ key ∈ keys, registry.find? key.1 key.2 = some serial then
        (registry.trial? serial).map fun trial => trial.finish.2
      else registry.trial? serial := by
  induction keys generalizing registry with
  | nil => simp [deleteAll]
  | cons key rest ih =>
    have hafter := (evolves_delete hsound key.1 key.2).sound
    change (deleteAll rest (registry.delete key.1 key.2).2).2.trial? serial = _
    rw [ih hafter, trial?_delete]
    by_cases hkey : registry.find? key.1 key.2 = some serial
    · -- finishing once more would make no difference
      cases registry.trial? serial <;> simp [hkey, Trial.finish]
    · have hrest : (∃ other ∈ rest, (registry.delete key.1 key.2).2.find? other.1 other.2 =
          some serial) ↔ ∃ other ∈ rest, registry.find? other.1 other.2 = some serial := by
        refine exists_congr fun other => and_congr_right fun _ => ?_
        rw [find?_delete_key hsound]
        by_cases hsame : other = key <;> simp [hsame, hkey]
      simp only [hrest, hkey, List.exists_mem_cons_iff, false_or, if_false]

theorem fst_deleteAll (hsound : registry.Sound) (hnodup : keys.Nodup)
    (hfound : ∀ key ∈ keys, (registry.find? key.1 key.2).isSome) :
    (deleteAll keys registry).1 = keys.length := by
  induction keys generalizing registry with
  | nil => rfl
  | cons key rest ih =>
    obtain ⟨hnew, hnodupRest⟩ := List.nodup_cons.1 hnodup
    obtain ⟨removed, hfind⟩ := Option.isSome_iff_exists.1 (hfound key List.mem_cons_self)
    have hafter := (evolves_delete hsound key.1 key.2).sound
    have hrest : (deleteAll rest (registry.delete key.1 key.2).2).1 = rest.length := by
      refine ih hafter hnodupRest fun other hother => ?_
      have hne : other ≠ key := fun hsame => hnew (hsame ▸ hother)
      rw [find?_delete_key hsound, if_neg hne]
      exact hfound other (List.mem_cons_of_mem _ hother)
    change (if (registry.delete key.1 key.2).1 then 1 else 0) +
      (deleteAll rest (registry.delete key.1 key.2).2).1 = _
    rw [hrest, delete_of_find hfind, List.length_cons, if_pos rfl, Nat.add_comm]

/-! ## The whole sweep -/

/-- What a sweep does to a registry: one that deletes so many trials and leaves another registry. -/
structure Swept (before : Registry) (now : Instant) (dormantAfter deleteAfter deleted : ℕ)
    (after : Registry) : Prop where
  sound : after.Sound
  /-- Idle trials leave, and all others stay under their keys. -/
  find?_iff : ∀ address measurement serial, after.find? address measurement = some serial ↔
    before.find? address measurement = some serial ∧
      ¬ before.IsIdleFor serial now deleteAfter
  /-- A registered trial is finished, becomes dormant, or stays what it is. -/
  registered : ∀ serial trial, before.Registers serial → before.trial? serial = some trial →
    after.trial? serial = some (trial.swept now dormantAfter deleteAfter)
  unregistered : ∀ serial, ¬ before.Registers serial →
    after.trial? serial = before.trial? serial
  /-- There are sessions for the addresses that have trials left. -/
  session_iff : ∀ address, (after.session? address).isSome ↔ ∃ measurement serial,
    before.find? address measurement = some serial ∧ ¬ before.IsIdleFor serial now deleteAfter
  deleted_eq : deleted =
    {serial | before.Registers serial ∧ before.IsIdleFor serial now deleteAfter}.ncard

/-- A session exists as long as it has trials. -/
theorem Sound.session_iff (hsound : registry.Sound) (address : Address) :
    (registry.session? address).isSome ↔
      ∃ measurement serial, registry.find? address measurement = some serial := by
  constructor
  · intro hsome
    obtain ⟨session, hsession⟩ := Option.isSome_iff_exists.1 hsome
    have hkept := hsound.session _ _ hsession
    have hpos : 0 < session.trials.length := hkept.count_eq ▸ hkept.count_pos
    obtain ⟨⟨measurement, serial⟩, hmem⟩ := List.exists_mem_of_length_pos hpos
    refine ⟨measurement, serial, ?_⟩
    rw [find?, hsession]
    exact lookup_of_mem hkept.nodup hmem
  · rintro ⟨measurement, serial, hfind⟩
    obtain ⟨session, hsession, -⟩ := Option.bind_eq_some_iff.1 hfind
    rw [hsession]
    rfl

section Judging

variable (registry) (now : Instant) (dormantAfter deleteAfter : ℕ)

/-- The entries of the trials that a sweep judges in one way. -/
def judged (verdict : Verdict) : List (Address × Measurement × Serial) :=
  registry.entries.filter fun entry =>
    registry.verdict now dormantAfter deleteAfter entry.2.2 == verdict

/-- The keys under which a sweep deletes. -/
def deletedKeys : List (Address × Measurement) :=
  (registry.judged now dormantAfter deleteAfter .delete).map fun entry => (entry.1, entry.2.1)

/-- The trials that a sweep makes dormant. -/
def dimmed : List Serial :=
  (registry.judged now dormantAfter deleteAfter .setDormant).map fun entry => entry.2.2

theorem sweep_eq : registry.sweep now dormantAfter deleteAfter =
    deleteAll (registry.deletedKeys now dormantAfter deleteAfter)
      (setAllDormant (registry.dimmed now dormantAfter deleteAfter) registry) :=
  rfl

variable {registry}

theorem verdict_eq_delete_iff : registry.verdict now dormantAfter deleteAfter serial = .delete ↔
    registry.IsIdleFor serial now deleteAfter := by
  rw [verdict]
  cases htrial : registry.trial? serial with
  | none => simp [IsIdleFor, htrial]
  | some trial => rw [isIdleFor_iff htrial, ← trial.verdict_eq_delete_iff now dormantAfter]

theorem verdict_eq_setDormant_iff {trial : Trial} (htrial : registry.trial? serial = some trial) :
    registry.verdict now dormantAfter deleteAfter serial = .setDormant ↔
      ¬ trial.IsIdleFor now deleteAfter ∧ trial.IsIdleFor now dormantAfter := by
  rw [verdict, htrial, ← trial.verdict_eq_setDormant_iff]

variable (hsound : registry.Sound)

include hsound

theorem mem_judged_delete {address : Address} {measurement : Measurement} :
    (address, measurement, serial) ∈ registry.judged now dormantAfter deleteAfter .delete ↔
      registry.find? address measurement = some serial ∧
        registry.IsIdleFor serial now deleteAfter := by
  rw [judged, List.mem_filter, mem_entries_iff hsound, beq_iff_eq, verdict_eq_delete_iff]

theorem mem_deletedKeys {address : Address} {measurement : Measurement} :
    (address, measurement) ∈ registry.deletedKeys now dormantAfter deleteAfter ↔ ∃ serial,
      registry.find? address measurement = some serial ∧
        registry.IsIdleFor serial now deleteAfter := by
  rw [deletedKeys, List.mem_map]
  constructor
  · rintro ⟨⟨other, kind, serial⟩, hmem, hkey⟩
    obtain ⟨rfl, rfl⟩ := Prod.mk.inj hkey
    exact ⟨serial, (mem_judged_delete now dormantAfter deleteAfter hsound).1 hmem⟩
  · rintro ⟨serial, hidle⟩
    exact ⟨(address, measurement, serial),
      (mem_judged_delete now dormantAfter deleteAfter hsound).2 hidle, rfl⟩

theorem exists_deletedKeys :
    (∃ key ∈ registry.deletedKeys now dormantAfter deleteAfter,
      registry.find? key.1 key.2 = some serial) ↔
        registry.Registers serial ∧ registry.IsIdleFor serial now deleteAfter := by
  constructor
  · rintro ⟨⟨address, measurement⟩, hmem, hfind⟩
    obtain ⟨found, hfound, hidle⟩ := (mem_deletedKeys now dormantAfter deleteAfter hsound).1 hmem
    cases hfound.symm.trans hfind
    exact ⟨⟨address, measurement, hfind⟩, hidle⟩
  · rintro ⟨⟨address, measurement, hfind⟩, hidle⟩
    exact ⟨(address, measurement),
      (mem_deletedKeys now dormantAfter deleteAfter hsound).2 ⟨serial, hfind, hidle⟩, hfind⟩

theorem mem_dimmed {trial : Trial} (htrial : registry.trial? serial = some trial) :
    serial ∈ registry.dimmed now dormantAfter deleteAfter ↔ registry.Registers serial ∧
      ¬ trial.IsIdleFor now deleteAfter ∧ trial.IsIdleFor now dormantAfter := by
  have hentry : ∀ address measurement,
      (address, measurement, serial) ∈ registry.judged now dormantAfter deleteAfter .setDormant ↔
        registry.find? address measurement = some serial ∧
          ¬ trial.IsIdleFor now deleteAfter ∧ trial.IsIdleFor now dormantAfter := by
    intro address measurement
    rw [judged, List.mem_filter, mem_entries_iff hsound, beq_iff_eq,
      verdict_eq_setDormant_iff _ _ _ htrial]
  rw [dimmed, List.mem_map]
  constructor
  · rintro ⟨⟨address, measurement, _⟩, hmem, rfl⟩
    obtain ⟨hfind, hverdict⟩ := (hentry address measurement).1 hmem
    exact ⟨⟨address, measurement, hfind⟩, hverdict⟩
  · rintro ⟨⟨address, measurement, hfind⟩, hverdict⟩
    exact ⟨_, (hentry address measurement).2 ⟨hfind, hverdict⟩, rfl⟩

/-- A sweep deletes each idle trial once. -/
theorem length_deletedKeys :
    (registry.deletedKeys now dormantAfter deleteAfter).length =
      {serial | registry.Registers serial ∧ registry.IsIdleFor serial now deleteAfter}.ncard := by
  let serials := (registry.judged now dormantAfter deleteAfter .delete).map (·.2.2)
  have hset : {serial | registry.Registers serial ∧ registry.IsIdleFor serial now deleteAfter} =
      (serials.toFinset : Set Serial) := by
    ext serial
    rw [List.coe_toFinset, Set.mem_ofPred_eq, Set.mem_ofPred_eq, List.mem_map]
    constructor
    · rintro ⟨⟨address, measurement, hfind⟩, hidle⟩
      exact ⟨(address, measurement, serial),
        (mem_judged_delete now dormantAfter deleteAfter hsound).2 ⟨hfind, hidle⟩, rfl⟩
    · rintro ⟨⟨address, measurement, serial⟩, hmem, rfl⟩
      obtain ⟨hfind, hidle⟩ := (mem_judged_delete now dormantAfter deleteAfter hsound).1 hmem
      exact ⟨⟨address, measurement, hfind⟩, hidle⟩
  have hnodup : serials.Nodup := by
    have hentries : registry.entries.Nodup := List.Nodup.of_map _ (nodup_entries hsound)
    refine (hentries.filter _).map_on ?_
    rintro ⟨address, measurement, serial⟩ hfirst ⟨other, kind, _⟩ hsecond rfl
    have hfind := (mem_entries_iff hsound).1 (List.mem_of_mem_filter hfirst)
    have hother := (mem_entries_iff hsound).1 (List.mem_of_mem_filter hsecond)
    obtain ⟨rfl, rfl⟩ := hsound.key_unique hfind hother
    rfl
  rw [hset, Set.ncard_coe_finset, List.toFinset_card_of_nodup hnodup, List.length_map, deletedKeys,
    List.length_map]

theorem fst_sweep : (registry.sweep now dormantAfter deleteAfter).1 =
    {serial | registry.Registers serial ∧ registry.IsIdleFor serial now deleteAfter}.ncard := by
  rw [sweep_eq, ← length_deletedKeys now dormantAfter deleteAfter hsound]
  refine fst_deleteAll (sound_setAllDormant hsound _) ?_ fun key hkey => ?_
  · exact (nodup_entries hsound).sublist (List.filter_sublist.map _)
  · obtain ⟨serial, hfind, -⟩ := (mem_deletedKeys now dormantAfter deleteAfter hsound).1 hkey
    rw [find?_setAllDormant, hfind]
    rfl

theorem find?_sweep (address : Address) (measurement : Measurement) (serial : Serial) :
    (registry.sweep now dormantAfter deleteAfter).2.find? address measurement = some serial ↔
      registry.find? address measurement = some serial ∧
        ¬ registry.IsIdleFor serial now deleteAfter := by
  have hsweep := find?_deleteAll
    (sound_setAllDormant hsound (registry.dimmed now dormantAfter deleteAfter))
    (registry.deletedKeys now dormantAfter deleteAfter) (address, measurement)
  rw [sweep_eq, hsweep, find?_setAllDormant]
  simp only [mem_deletedKeys now dormantAfter deleteAfter hsound]
  cases registry.find? address measurement with
  | none => simp
  | some found =>
    by_cases hidle : registry.IsIdleFor found now deleteAfter
    · simp only [Option.some.injEq, exists_eq_left', hidle, if_true, reduceCtorEq, false_iff]
      rintro ⟨rfl, hbusy⟩
      exact hbusy hidle
    · simp only [Option.some.injEq, exists_eq_left', hidle, if_false, iff_self_and]
      rintro rfl
      exact hidle

theorem trial?_sweep_of_deleted {trial : Trial} (htrial : registry.trial? serial = some trial)
    (hregisters : registry.Registers serial) (hidle : trial.IsIdleFor now deleteAfter) :
    (registry.sweep now dormantAfter deleteAfter).2.trial? serial = some trial.finish.2 := by
  have hawake : serial ∉ registry.dimmed now dormantAfter deleteAfter := fun hdimmed =>
    ((mem_dimmed now dormantAfter deleteAfter hsound htrial).1 hdimmed).2.1 hidle
  rw [sweep_eq, trial?_deleteAll (sound_setAllDormant hsound _), if_pos, trial?_setAllDormant,
    if_neg hawake, htrial, Option.map_some]
  simp only [find?_setAllDormant]
  exact (exists_deletedKeys now dormantAfter deleteAfter hsound).2
    ⟨hregisters, (isIdleFor_iff htrial).2 hidle⟩

theorem trial?_sweep_of_kept
    (hkept : ¬ (registry.Registers serial ∧ registry.IsIdleFor serial now deleteAfter)) :
    (registry.sweep now dormantAfter deleteAfter).2.trial? serial =
      if serial ∈ registry.dimmed now dormantAfter deleteAfter then
        (registry.trial? serial).map Trial.setDormant
      else registry.trial? serial := by
  rw [sweep_eq, trial?_deleteAll (sound_setAllDormant hsound _), if_neg, trial?_setAllDormant]
  simp only [find?_setAllDormant]
  rwa [exists_deletedKeys now dormantAfter deleteAfter hsound]

theorem Sound.swept : registry.Swept now dormantAfter deleteAfter
    (registry.sweep now dormantAfter deleteAfter).1
    (registry.sweep now dormantAfter deleteAfter).2 := by
  have hsoundAfter := (evolves_sweep hsound now dormantAfter deleteAfter).sound
  have hfind := find?_sweep now dormantAfter deleteAfter hsound
  refine ⟨hsoundAfter, hfind, fun serial trial hregisters htrial => ?_, fun serial hother => ?_,
    fun address => ?_, fst_sweep now dormantAfter deleteAfter hsound⟩
  · have hdimmed := mem_dimmed now dormantAfter deleteAfter hsound htrial
    rw [Trial.swept]
    split
    case isTrue hidle =>
      exact trial?_sweep_of_deleted now dormantAfter deleteAfter hsound htrial hregisters hidle
    case isFalse hbusy =>
      rw [trial?_sweep_of_kept now dormantAfter deleteAfter hsound fun h =>
        hbusy ((isIdleFor_iff htrial).1 h.2), htrial]
      simp only [hdimmed, hregisters, hbusy, not_false_eq_true, true_and, Option.map_some]
      split <;> rfl
  · rw [trial?_sweep_of_kept now dormantAfter deleteAfter hsound fun h => hother h.1]
    cases htrial : registry.trial? serial with
    | none => split <;> rfl
    | some trial =>
      exact if_neg fun hmem =>
        hother ((mem_dimmed now dormantAfter deleteAfter hsound htrial).1 hmem).1
  · rw [hsoundAfter.session_iff]
    simp only [hfind]

end Judging

end Registry

end LinkMeter
