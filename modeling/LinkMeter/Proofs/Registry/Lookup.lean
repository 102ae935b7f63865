import LinkMeter.Registry.Sweep
import Mathlib.Data.List.Nodup

/-!
# Looking into a registry

A registry is looked at in two ways: `Registry.find?` gives the number that is
registered under a key, `Registry.trial?` the trial with a number.  This file
says what the elementary changes of a registry do to both, so that nobody has
to look at the lists behind them again.

`Registry.Sound` collects what makes the lists a two-level map: keys occur once,
a session counts its trials and has at least one, and everything stands under
the key that it carries itself.
-/

namespace LinkMeter

/-! ## Association lists -/

section Association

variable {Key Value : Type} [DecidableEq Key]

theorem lookup_filter_ne (entries : List (Key × Value)) (removed key : Key) :
    (entries.filter fun entry => entry.1 != removed).lookup key =
      if key = removed then none else entries.lookup key := by
  induction entries with
  | nil => simp
  | cons entry rest ih =>
      obtain ⟨first, value⟩ := entry
      by_cases hfirst : first = removed
      · subst hfirst
        rw [List.filter_cons_of_neg (by simp), ih]
        by_cases hkey : key = first
        · simp [hkey]
        · simp [hkey, List.lookup_cons, beq_false_of_ne hkey]
      · rw [List.filter_cons_of_pos (by simpa using hfirst), List.lookup_cons,
          List.lookup_cons, ih]
        by_cases hkey : key = first
        · subst hkey
          simp [hfirst]
        · simp [beq_false_of_ne hkey]

theorem lookup_map_replace (entries : List (Key × Value)) (replaced key : Key) (value : Value) :
    (entries.map fun entry => if entry.1 = replaced then (replaced, value) else entry).lookup key =
      if key = replaced then (entries.lookup key).map fun _ => value else entries.lookup key := by
  induction entries with
  | nil => simp
  | cons entry rest ih =>
      obtain ⟨first, old⟩ := entry
      rw [List.map_cons]
      by_cases hfirst : first = replaced
      · subst hfirst
        by_cases hkey : key = first
        · simp [hkey]
        · simp [List.lookup_cons, beq_false_of_ne hkey, ih, hkey]
      · by_cases hkey : key = first
        · subst hkey
          simp [hfirst]
        · simp [List.lookup_cons, beq_false_of_ne hkey, ih, hfirst]

theorem keys_map_replace (entries : List (Key × Value)) (replaced : Key)
    (value : Value) :
    (entries.map fun entry => if entry.1 = replaced then (replaced, value) else entry).map
      (·.1) = entries.map (·.1) := by
  rw [List.map_map]
  apply List.map_congr_left
  intro entry _
  by_cases h : entry.1 = replaced <;> simp [h]

theorem mem_of_lookup {entries : List (Key × Value)} {key : Key} {value : Value}
    (h : entries.lookup key = some value) : (key, value) ∈ entries := by
  obtain ⟨before, after, rfl, -⟩ := List.lookup_eq_some_iff.1 h
  simp

theorem lookup_of_mem {entries : List (Key × Value)} (hkeys : (entries.map (·.1)).Nodup)
    {key : Key} {value : Value} (h : (key, value) ∈ entries) :
    entries.lookup key = some value := by
  have hsome : (entries.lookup key).isSome := by
    rw [List.lookup_isSome_iff]
    exact ⟨_, h, by simp⟩
  obtain ⟨found, hfound⟩ := Option.isSome_iff_exists.1 hsome
  have heq := List.inj_on_of_nodup_map hkeys (mem_of_lookup hfound) h rfl
  rw [hfound, (Prod.mk.inj heq).2]

/-- Dropping a key that is there makes a list without repeated keys one shorter. -/
theorem length_filter_ne {entries : List (Key × Value)} (hkeys : (entries.map (·.1)).Nodup)
    {key : Key} {value : Value} (h : entries.lookup key = some value) :
    (entries.filter fun entry => entry.1 != key).length + 1 = entries.length := by
  have hmem : key ∈ entries.map (·.1) := List.mem_map_of_mem (mem_of_lookup h)
  have hmap : (entries.filter fun entry => entry.1 != key).map (·.1) =
      (entries.map (·.1)).erase key := by
    rw [hkeys.erase_eq_filter, List.filter_map]
    rfl
  have hlength := congrArg List.length hmap
  rw [List.length_map, List.length_erase_of_mem hmem, List.length_map] at hlength
  have hpos : 0 < entries.length := by simpa using List.length_pos_of_mem hmem
  omega

end Association

/-! ## Sessions -/

namespace Session

theorem find?_insert {session : Session} {measurement : Measurement}
    (hfree : session.find? measurement = none) (serial : Serial) (other : Measurement) :
    (session.insert measurement serial).find? other =
      if other = measurement then some serial else session.find? other := by
  unfold find? at hfree
  simp only [find?, insert, List.lookup_append]
  by_cases h : other = measurement
  · subst h
    simp [hfree]
  · simp [h, List.lookup_cons, beq_false_of_ne h]

theorem find?_erase (session : Session) (measurement other : Measurement) :
    (session.erase measurement).find? other =
      if other = measurement then none else session.find? other :=
  lookup_filter_ne session.trials measurement other

/-- A session as the registry keeps it under an address. -/
structure Sound (session : Session) (address : Address) : Prop where
  address_eq : session.address = address
  nodup : (session.trials.map (·.1)).Nodup
  count_eq : session.count = session.trials.length
  count_pos : 0 < session.count

theorem Sound.insert {session : Session} {address : Address} {measurement : Measurement}
    (hsound : session.Sound address) (hfree : session.find? measurement = none)
    (serial : Serial) : (session.insert measurement serial).Sound address where
  address_eq := hsound.address_eq
  nodup := by
    have hnot : measurement ∉ session.trials.map (·.1) := by
      intro hmem
      obtain ⟨⟨_, found⟩, hentry, rfl⟩ := List.mem_map.1 hmem
      simp [find?, lookup_of_mem hsound.nodup hentry] at hfree
    simp only [Session.insert, List.map_append, List.map_cons, List.map_nil]
    exact List.Nodup.append hsound.nodup (List.nodup_singleton _) (by simpa using hnot)
  count_eq := by simp [Session.insert, hsound.count_eq]
  count_pos := Nat.succ_pos _

/-- The first trial of an address opens its session. -/
theorem sound_insert_empty (address : Address) (measurement : Measurement) (serial : Serial) :
    (Session.insert { address } measurement serial).Sound address where
  address_eq := rfl
  nodup := by simp [Session.insert]
  count_eq := rfl
  count_pos := Nat.one_pos

/-- A session that loses a trial counts one less, without stopping at zero. -/
theorem Sound.count_erase {session : Session} {address : Address} {measurement : Measurement}
    {serial : Serial} (hsound : session.Sound address)
    (hfind : session.find? measurement = some serial) :
    (session.erase measurement).count + 1 = session.count ∧
      (session.erase measurement).count = (session.erase measurement).trials.length := by
  have hlength := length_filter_ne hsound.nodup hfind
  have hcount := hsound.count_eq
  simp only [erase]
  omega

theorem Sound.erase {session : Session} {address : Address} {measurement : Measurement}
    {serial : Serial} (hsound : session.Sound address)
    (hfind : session.find? measurement = some serial)
    (hleft : (session.erase measurement).count ≠ 0) :
    (session.erase measurement).Sound address where
  address_eq := hsound.address_eq
  nodup := hsound.nodup.sublist (List.filter_sublist.map _)
  count_eq := (hsound.count_erase hfind).2
  count_pos := Nat.pos_of_ne_zero hleft

end Session

/-! ## Registries -/

namespace Registry

variable {registry : Registry}

/-! ### Changing a trial -/

@[simp] theorem session?_change (serial : Serial) (operation : Trial → Trial) (address : Address) :
    (registry.change serial operation).session? address = registry.session? address := rfl

@[simp] theorem find?_change (serial : Serial) (operation : Trial → Trial) (address : Address)
    (measurement : Measurement) :
    (registry.change serial operation).find? address measurement =
      registry.find? address measurement := rfl

@[simp] theorem trial?_change (serial : Serial) (operation : Trial → Trial) (other : Serial) :
    (registry.change serial operation).trial? other =
      if serial = other then (registry.trial? other).map operation else registry.trial? other := by
  simp only [trial?, change, List.getElem?_modify]
  split <;> simp

/-! ### Putting and dropping a session -/

@[simp] theorem trials_putSession (address : Address) (session : Session) :
    (registry.putSession address session).trials = registry.trials := by
  unfold putSession
  split <;> rfl

@[simp] theorem session?_putSession (address : Address) (session : Session) (other : Address) :
    (registry.putSession address session).session? other =
      if other = address then some session else registry.session? other := by
  unfold putSession
  split
  case isTrue hsome =>
    rw [session?, lookup_map_replace]
    by_cases h : other = address
    · obtain ⟨old, hold⟩ := Option.isSome_iff_exists.1 hsome
      rw [session?] at hold
      simp [h, hold]
    · simp [h, session?]
  case isFalse hnone =>
    rw [session?] at hnone
    rw [session?, List.lookup_append]
    by_cases h : other = address
    · subst h
      simp [Option.not_isSome_iff_eq_none.1 hnone]
    · simp [h, List.lookup_cons, beq_false_of_ne h, session?]

@[simp] theorem session?_dropSession (address other : Address) :
    (registry.dropSession address).session? other =
      if other = address then none else registry.session? other :=
  lookup_filter_ne registry.sessions address other

@[simp] theorem find?_putSession (address : Address) (session : Session) (other : Address)
    (measurement : Measurement) :
    (registry.putSession address session).find? other measurement =
      if other = address then session.find? measurement
      else registry.find? other measurement := by
  rw [find?, session?_putSession]
  split <;> rfl

@[simp] theorem find?_dropSession (address other : Address) (measurement : Measurement) :
    (registry.dropSession address).find? other measurement =
      if other = address then none else registry.find? other measurement := by
  rw [find?, session?_dropSession]
  split <;> rfl

theorem nodup_putSession (hnodup : (registry.sessions.map (·.1)).Nodup) (address : Address)
    (session : Session) :
    ((registry.putSession address session).sessions.map (·.1)).Nodup := by
  unfold putSession
  split
  case isTrue => simpa only [keys_map_replace] using hnodup
  case isFalse hnone =>
    have hnot : address ∉ registry.sessions.map (·.1) := by
      intro hmem
      obtain ⟨⟨_, old⟩, hentry, rfl⟩ := List.mem_map.1 hmem
      simp [session?, lookup_of_mem hnodup hentry] at hnone
    simp only [List.map_append, List.map_cons, List.map_nil]
    exact List.Nodup.append hnodup (List.nodup_singleton _) (by simpa using hnot)

end Registry

end LinkMeter
