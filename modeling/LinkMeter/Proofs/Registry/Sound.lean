import LinkMeter.Proofs.Registry.Lookup
import LinkMeter.Proofs.Trial.Act

/-!
# Sound registries

A registry is sound (`Registry.Sound`) when it is a two-level map: keys occur
once, every session is sound, and what is registered carries the key that it
stands under.

This file says what removing, deleting and creating do to a sound registry, in
terms of `Registry.find?` and `Registry.trial?`, and that the registry is sound
afterwards.
-/

namespace LinkMeter

open Pacing (Instant)

namespace Registry

/-! ## Sound registries -/

/-- A registry that is a two-level map: no key occurs twice, every session is
sound, and a registered trial exists and carries the key that it stands under. -/
structure Sound (registry : Registry) : Prop where
  nodup : (registry.sessions.map (·.1)).Nodup
  session : ∀ address session, registry.session? address = some session → session.Sound address
  trial : ∀ address measurement serial, registry.find? address measurement = some serial →
    ∃ trial, registry.trial? serial = some trial ∧ trial.peer.address = address ∧
      trial.measurement = measurement

theorem sound_empty : ({} : Registry).Sound where
  nodup := List.nodup_nil
  session := by intro address session h; simp [session?] at h
  trial := by intro address measurement serial h; simp [find?, session?] at h

variable {registry : Registry}

/-- A serial that is registered under two keys has one key. -/
theorem Sound.key_unique (hsound : registry.Sound) {serial : Serial}
    {address other : Address} {measurement kind : Measurement}
    (hfirst : registry.find? address measurement = some serial)
    (hsecond : registry.find? other kind = some serial) :
    address = other ∧ measurement = kind := by
  obtain ⟨first, htrial, rfl, rfl⟩ := hsound.trial _ _ _ hfirst
  obtain ⟨second, htrial', rfl, rfl⟩ := hsound.trial _ _ _ hsecond
  rw [htrial] at htrial'
  cases htrial'
  exact ⟨rfl, rfl⟩

/-! ## Changing a trial -/

theorem Sound.change (hsound : registry.Sound) (serial : Serial) {operation : Trial → Trial}
    (hoperation : ∀ trial : Trial, trial.Precedes (operation trial)) :
    (registry.change serial operation).Sound where
  nodup := hsound.nodup
  session := hsound.session
  trial := by
    intro address measurement other hfind
    obtain ⟨trial, htrial, rfl, rfl⟩ := hsound.trial _ _ _ hfind
    rw [trial?_change, htrial]
    split
    · exact ⟨operation trial, rfl, by rw [(hoperation trial).peer_eq],
        (hoperation trial).measurement_eq⟩
    · exact ⟨trial, rfl, rfl, rfl⟩

/-- A change depends only on what it does to the trial that it concerns. -/
theorem change_congr {serial : Serial} {trial : Trial} {first second : Trial → Trial}
    (htrial : registry.trial? serial = some trial) (heq : first trial = second trial) :
    registry.change serial first = registry.change serial second := by
  have hlist : registry.trials.modify serial first = registry.trials.modify serial second := by
    apply List.ext_getElem?
    intro other
    rw [List.getElem?_modify, List.getElem?_modify]
    by_cases h : serial = other
    · subst h
      rw [trial?] at htrial
      simp [htrial, heq]
    · simp [h]
  rw [change, change, hlist]

/-! ## Removing -/

/-- Removing either finds nothing and changes nothing, or takes one trial out of
a session, which goes with its last one. -/
theorem remove_cases (registry : Registry) (address : Address) (measurement : Measurement) :
    (registry.find? address measurement = none ∧
      registry.remove address measurement = (none, registry)) ∨
    ∃ session serial, registry.session? address = some session ∧
      session.find? measurement = some serial ∧
      registry.remove address measurement = (some serial,
        if (session.erase measurement).count = 0 then registry.dropSession address
        else registry.putSession address (session.erase measurement)) := by
  unfold remove
  split
  case h_1 hnone => exact Or.inl ⟨by simp [find?, hnone], rfl⟩
  case h_2 session hsession =>
    split
    case h_1 hnone => exact Or.inl ⟨by simp [find?, hsession, hnone], rfl⟩
    case h_2 serial hserial => exact Or.inr ⟨session, serial, hsession, hserial, rfl⟩

theorem fst_remove (registry : Registry) (address : Address) (measurement : Measurement) :
    (registry.remove address measurement).1 = registry.find? address measurement := by
  rcases registry.remove_cases address measurement with
      ⟨hnone, heq⟩ | ⟨session, serial, hsession, hserial, heq⟩
  · rw [heq, hnone]
  · rw [heq, find?, hsession]
    exact hserial.symm

@[simp] theorem trials_remove (registry : Registry) (address : Address)
    (measurement : Measurement) :
    (registry.remove address measurement).2.trials = registry.trials := by
  rcases registry.remove_cases address measurement with ⟨-, heq⟩ | ⟨session, serial, -, -, heq⟩
  · rw [heq]
  · rw [heq]
    dsimp only
    split
    · rfl
    · exact trials_putSession _ _

theorem trial?_remove (registry : Registry) (address : Address) (measurement : Measurement)
    (serial : Serial) :
    (registry.remove address measurement).2.trial? serial = registry.trial? serial := by
  simp only [trial?, trials_remove]

theorem find?_remove (hsound : registry.Sound) (address : Address) (measurement : Measurement)
    (other : Address) (kind : Measurement) :
    (registry.remove address measurement).2.find? other kind =
      if other = address ∧ kind = measurement then none else registry.find? other kind := by
  rcases registry.remove_cases address measurement with
      ⟨hnone, heq⟩ | ⟨session, serial, hsession, hserial, heq⟩
  · rw [heq]
    split
    case isTrue h => rw [h.1, h.2]; exact hnone
    case isFalse => rfl
  · have herase := session.find?_erase measurement kind
    have hold : registry.find? address kind = session.find? kind := by rw [find?, hsession]; rfl
    rw [heq]
    by_cases hother : other = address
    · subst hother
      rw [hold]
      dsimp only
      split
      case isTrue hcount =>
        -- the session goes as a whole, so it must not hold anything else
        have hempty : (session.erase measurement).trials = [] := by
          have := ((hsound.session _ _ hsession).count_erase hserial).2
          exact List.eq_nil_of_length_eq_zero (by omega)
        have hgone : (session.erase measurement).find? kind = none := by
          simp [Session.find?, hempty]
        rw [hgone] at herase
        simpa using herase
      case isFalse => simpa using herase
    · dsimp only
      split <;> simp [hother]

theorem Sound.remove (hsound : registry.Sound) (address : Address) (measurement : Measurement) :
    (registry.remove address measurement).2.Sound where
  nodup := by
    rcases registry.remove_cases address measurement with ⟨-, heq⟩ | ⟨session, serial, -, -, heq⟩
    · rw [heq]; exact hsound.nodup
    · rw [heq]
      dsimp only
      split
      · exact hsound.nodup.sublist (List.filter_sublist.map _)
      · exact nodup_putSession hsound.nodup _ _
  session := by
    intro other found hfound
    rcases registry.remove_cases address measurement with
        ⟨-, heq⟩ | ⟨session, serial, hsession, hserial, heq⟩
    · rw [heq] at hfound
      exact hsound.session _ _ hfound
    · rw [heq] at hfound
      dsimp only at hfound
      split at hfound
      case isTrue =>
        rw [session?_dropSession] at hfound
        split at hfound
        · exact absurd hfound (by simp)
        · exact hsound.session _ _ hfound
      case isFalse hleft =>
        rw [session?_putSession] at hfound
        split at hfound
        case isTrue h =>
          cases hfound
          exact h ▸ (hsound.session _ _ hsession).erase hserial hleft
        case isFalse => exact hsound.session _ _ hfound
  trial := by
    intro other kind serial hfind
    rw [find?_remove hsound] at hfind
    rw [trial?_remove]
    split at hfind
    · exact absurd hfind (by simp)
    · exact hsound.trial _ _ _ hfind

/-! ## Deleting -/

theorem delete_of_find {address : Address} {measurement : Measurement} {serial : Serial}
    (hfind : registry.find? address measurement = some serial) :
    registry.delete address measurement =
      (true, (registry.remove address measurement).2.change serial
        fun trial => trial.finish.2) := by
  have hfst := registry.fst_remove address measurement
  rw [hfind] at hfst
  unfold delete
  split
  case h_1 _ _ _ heq =>
    rw [heq] at hfst ⊢
    cases hfst
    rfl
  case h_2 _ _ heq =>
    rw [heq] at hfst
    exact absurd hfst (by simp)

theorem delete_of_free {address : Address} {measurement : Measurement}
    (hfree : registry.find? address measurement = none) :
    registry.delete address measurement = (false, registry) := by
  rcases registry.remove_cases address measurement with
      ⟨-, heq⟩ | ⟨session, serial, hsession, hserial, -⟩
  · rw [delete, heq]
  · rw [find?, hsession] at hfree
    simp [hserial] at hfree

/-! ## Creating -/

section Creating

variable (now : Instant) (peer : Endpoint) (measurement : Measurement) (request : Request)
  (reducer : Option Reducer) (interval : Nat)

theorem createOrGet_of_find {serial : Serial}
    (hfind : registry.find? peer.address measurement = some serial) :
    registry.createOrGet now peer measurement request reducer interval =
      ((serial, false), registry.change serial Trial.acquire) := by
  obtain ⟨session, hsession, hserial⟩ := Option.bind_eq_some_iff.1 hfind
  simp only [createOrGet, hsession, Option.getD_some, hserial]

/-- The session that a new trial enters, with the trial. -/
def enlarged (registry : Registry) (address : Address) (measurement : Measurement) : Session :=
  ((registry.session? address).getD { address }).insert measurement registry.trials.length

theorem createOrGet_of_free (hfree : registry.find? peer.address measurement = none) :
    registry.createOrGet now peer measurement request reducer interval =
      ((registry.trials.length, true),
        { registry with trials := registry.trials ++
            [(Trial.start now measurement peer request reducer interval).acquire] }.putSession
          peer.address (registry.enlarged peer.address measurement)) := by
  have hnone : ((registry.session? peer.address).getD { address := peer.address }).find?
      measurement = none := by
    cases hsession : registry.session? peer.address with
    | none => rfl
    | some session => simpa [find?, hsession] using hfree
  simp only [createOrGet, hnone, enlarged]

theorem enlarged_sound (hsound : registry.Sound) {address : Address} {measurement : Measurement}
    (hfree : registry.find? address measurement = none) :
    (registry.enlarged address measurement).Sound address := by
  unfold enlarged
  cases hsession : registry.session? address with
  | none => exact Session.sound_insert_empty _ _ _
  | some session =>
      exact (hsound.session _ _ hsession).insert (by simpa [find?, hsession] using hfree) _

theorem find?_enlarged {address : Address} {measurement : Measurement}
    (hfree : registry.find? address measurement = none) (kind : Measurement) :
    (registry.enlarged address measurement).find? kind =
      if kind = measurement then some registry.trials.length
      else registry.find? address kind := by
  unfold enlarged
  cases hsession : registry.session? address with
  | none =>
      have hempty : ∀ other, ({ address } : Session).find? other = none := fun _ => rfl
      rw [Option.getD_none, Session.find?_insert (hempty measurement), hempty]
      simp [find?, hsession]
  | some session =>
      rw [Option.getD_some, Session.find?_insert (by simpa [find?, hsession] using hfree)]
      simp [find?, hsession]

theorem lt_of_trial? {serial : Serial} {trial : Trial}
    (htrial : registry.trial? serial = some trial) : serial < registry.trials.length :=
  (List.getElem?_eq_some_iff.1 htrial).1

/-- The trials that pass a test. -/
theorem mem_filter_trial? {test : Trial → Bool} {serial : Serial} :
    serial ∈ (List.range registry.trials.length).filter
        (fun serial => (registry.trial? serial).any test) ↔
      ∃ trial, registry.trial? serial = some trial ∧ test trial = true := by
  rw [List.mem_filter, List.mem_range, Option.any_eq_true]
  constructor
  · exact fun h => h.2
  · rintro ⟨trial, htrial, htest⟩
    exact ⟨lt_of_trial? htrial, trial, htrial, htest⟩

theorem trial?_append (added : Trial) (serial : Serial) :
    ({ registry with trials := registry.trials ++ [added] } : Registry).trial? serial =
      if serial = registry.trials.length then some added else registry.trial? serial := by
  simp only [trial?]
  rcases Nat.lt_trichotomy serial registry.trials.length with h | rfl | h
  · rw [List.getElem?_append_left h, if_neg (Nat.ne_of_lt h)]
  · simp
  · rw [if_neg (Nat.ne_of_gt h), List.getElem?_eq_none (by rw [List.length_append]; exact h),
      List.getElem?_eq_none (Nat.le_of_lt h)]

/-- A number that is not used up by a trial is not registered either. -/
theorem Sound.lt_of_find? (hsound : registry.Sound) {address : Address}
    {measurement : Measurement} {serial : Serial}
    (hfind : registry.find? address measurement = some serial) :
    serial < registry.trials.length := by
  obtain ⟨trial, htrial, -, -⟩ := hsound.trial _ _ _ hfind
  exact lt_of_trial? htrial

theorem Sound.append (hsound : registry.Sound) (added : Trial) :
    ({ registry with trials := registry.trials ++ [added] } : Registry).Sound where
  nodup := hsound.nodup
  session := hsound.session
  trial := by
    intro address measurement serial hfind
    have hlt := hsound.lt_of_find? hfind
    obtain ⟨trial, htrial, hkey⟩ := hsound.trial _ _ _ hfind
    exact ⟨trial, by rw [trial?_append, if_neg (Nat.ne_of_lt hlt), htrial], hkey⟩

/-- A number that creating hands out is the one registered under the key, and no other key
changes. -/
theorem find?_createOrGet (other : Address) (kind : Measurement) :
    (registry.createOrGet now peer measurement request reducer interval).2.find? other kind =
      if other = peer.address ∧ kind = measurement then
        some (registry.createOrGet now peer measurement request reducer interval).1.1
      else registry.find? other kind := by
  cases hfind : registry.find? peer.address measurement with
  | some serial =>
      rw [createOrGet_of_find _ _ _ _ _ _ hfind]
      split
      case isTrue h => rw [h.1, h.2]; exact hfind
      case isFalse => rfl
  | none =>
      rw [createOrGet_of_free _ _ _ _ _ _ hfind, find?_putSession, find?_enlarged hfind]
      by_cases hother : other = peer.address
      · subst hother
        by_cases hkind : kind = measurement <;> simp [hkind]
      · simp only [hother, false_and, if_false]
        rfl

theorem trial?_createOrGet_of_free (hfree : registry.find? peer.address measurement = none)
    (serial : Serial) :
    (registry.createOrGet now peer measurement request reducer interval).2.trial? serial =
      if serial = registry.trials.length then
        some (Trial.start now measurement peer request reducer interval).acquire
      else registry.trial? serial := by
  rw [createOrGet_of_free _ _ _ _ _ _ hfree, trial?, trials_putSession]
  exact trial?_append _ serial

theorem create_of_free (hfree : registry.find? peer.address measurement = none) :
    registry.create now peer measurement request reducer interval =
      (.ok registry.trials.length,
        (registry.createOrGet now peer measurement request reducer interval).2) := by
  rw [create, if_neg (by rw [hfree]; decide), createUnregistered,
    createOrGet_of_free _ _ _ _ _ _ hfree]

theorem Sound.createOrGet_of_free (hsound : registry.Sound)
    (hfree : registry.find? peer.address measurement = none) :
    (registry.createOrGet now peer measurement request reducer interval).2.Sound where
  nodup := by
    rw [Registry.createOrGet_of_free _ _ _ _ _ _ hfree]
    exact nodup_putSession (hsound.append _).nodup _ _
  session := by
    intro other session hsession
    rw [Registry.createOrGet_of_free _ _ _ _ _ _ hfree, session?_putSession] at hsession
    split at hsession
    case isTrue h =>
      cases hsession
      rw [h]
      exact enlarged_sound hsound hfree
    case isFalse => exact hsound.session _ _ hsession
  trial := by
    intro other kind serial hkey
    rw [find?_createOrGet] at hkey
    rw [trial?_createOrGet_of_free _ _ _ _ _ _ hfree]
    split at hkey
    case isTrue h =>
      rw [Registry.createOrGet_of_free _ _ _ _ _ _ hfree] at hkey
      cases hkey
      exact ⟨_, if_pos rfl, h.1.symm, h.2.symm⟩
    case isFalse =>
      obtain ⟨trial, htrial, hsame⟩ := hsound.trial _ _ _ hkey
      exact ⟨trial, by rw [if_neg (Nat.ne_of_lt (hsound.lt_of_find? hkey)), htrial], hsame⟩

end Creating

end Registry

end LinkMeter
