import LinkMeter.Proofs.Registry.Sweeping

/-!
# Touches and sweeps

A peer that sends datagrams touches its trial, and a registry is swept from time to
time.  Over a run of such deeds by a clock that never goes back, a trial over
datagrams stays registered until a sweep finds that its last touch is too long ago
(`Registry.FindsIdle`), and that sweep deletes it.

What a run does to a trial is a fold over its deeds, so the inductions are from the
end: the invariant (`Registry.Tended`) says what the registry and the trial are
after the deeds so far, in terms of the last touch.
-/

namespace LinkMeter

open Pacing (Instant)

namespace Registry

/-- Something that is done to a registry whose trials are looked after. -/
inductive Deed where
  | touch (serial : Serial) (now : Instant)
  | sweep (now : Instant) (dormantAfter deleteAfter : ℕ)
  deriving DecidableEq, Inhabited

namespace Deed

def now : Deed → Instant
  | touch _ now | sweep now _ _ => now

/-- The last touch of a trial after a deed. -/
def lastTouch (serial : Serial) (last : Instant) : Deed → Instant
  | touch other now => if other = serial then now else last
  | sweep _ _ _ => last

end Deed

/-- The registry after a deed. -/
def tend (registry : Registry) : Deed → Registry
  | .touch serial now => registry.change serial fun trial => trial.touch now
  | .sweep now dormantAfter deleteAfter => (registry.sweep now dormantAfter deleteAfter).2

def tendAll (registry : Registry) (deeds : List Deed) : Registry := deeds.foldl tend registry

/-- The last touch of a trial in a run. -/
def lastTouch (serial : Serial) (start : Instant) (deeds : List Deed) : Instant :=
  deeds.foldl (Deed.lastTouch serial) start

/-- A sweep of the run finds that the last touch of a trial is too long ago. -/
def FindsIdle (serial : Serial) (start : Instant) (deeds : List Deed) : Prop :=
  ∃ earlier now dormantAfter deleteAfter later,
    deeds = earlier ++ .sweep now dormantAfter deleteAfter :: later ∧
      lastTouch serial start earlier + deleteAfter ≤ now

/-- The clock of a run starts at some time and never goes back. -/
def InTime (start : Instant) (deeds : List Deed) : Prop :=
  (start :: deeds.map Deed.now).Pairwise (· ≤ ·)

variable {registry : Registry} {serial : Serial} {start : Instant} {deeds : List Deed}

theorem tendAll_append (registry : Registry) (earlier later : List Deed) :
    registry.tendAll (earlier ++ later) = (registry.tendAll earlier).tendAll later :=
  List.foldl_append

theorem tendAll_concat (registry : Registry) (deeds : List Deed) (deed : Deed) :
    registry.tendAll (deeds ++ [deed]) = (registry.tendAll deeds).tend deed :=
  tendAll_append registry deeds [deed]

/-! ## The last touch -/

theorem lastTouch_concat (deeds : List Deed) (deed : Deed) :
    lastTouch serial start (deeds ++ [deed]) =
      deed.lastTouch serial (lastTouch serial start deeds) := by
  rw [lastTouch, List.foldl_append]
  rfl

theorem lastTouch_mem (serial : Serial) (start : Instant) (deeds : List Deed) :
    lastTouch serial start deeds ∈ start :: deeds.map Deed.now := by
  induction deeds using List.reverseRecOn with
  | nil => exact List.mem_singleton.2 rfl
  | append_singleton deeds deed ih =>
    rw [lastTouch_concat, List.map_append, ← List.cons_append]
    cases deed with
    | sweep => exact List.mem_append_left _ ih
    | touch other now =>
      rw [Deed.lastTouch]
      split
      · exact List.mem_append_right _ (List.mem_singleton.2 rfl)
      · exact List.mem_append_left _ ih

theorem InTime.of_append {later : List Deed} (htime : InTime start (deeds ++ later)) :
    InTime start deeds := by
  rw [InTime, List.map_append, ← List.cons_append] at htime
  exact (List.pairwise_append.1 htime).1

theorem InTime.after {earlier later : List Deed} {deed : Deed}
    (htime : InTime start (earlier ++ deed :: later)) : InTime deed.now later := by
  rw [InTime, List.map_append, ← List.cons_append] at htime
  exact (List.pairwise_append.1 htime).2.1

/-- Nothing is done before the last touch. -/
theorem InTime.lastTouch_le {deed : Deed} (htime : InTime start (deeds ++ [deed]))
    (serial : Serial) : lastTouch serial start deeds ≤ deed.now := by
  rw [InTime, List.map_append, ← List.cons_append] at htime
  exact (List.pairwise_append.1 htime).2.2 _ (lastTouch_mem serial start deeds) _
    (List.mem_singleton.2 rfl)

theorem InTime.start_le_lastTouch (htime : InTime start deeds) (serial : Serial) :
    start ≤ lastTouch serial start deeds := by
  rcases List.mem_cons.1 (lastTouch_mem serial start deeds) with heq | hmem
  · exact heq.ge
  · exact (List.pairwise_cons.1 htime).1 _ hmem

/-! ## Idle trials of a run -/

theorem not_findsIdle_nil : ¬ FindsIdle serial start [] := by
  rintro ⟨earlier, now, dormantAfter, deleteAfter, later, heq, -⟩
  simp at heq

theorem findsIdle_concat (deed : Deed) : FindsIdle serial start (deeds ++ [deed]) ↔
    FindsIdle serial start deeds ∨ ∃ now dormantAfter deleteAfter,
      deed = .sweep now dormantAfter deleteAfter ∧
        lastTouch serial start deeds + deleteAfter ≤ now := by
  constructor
  · rintro ⟨earlier, now, dormantAfter, deleteAfter, later, heq, hidle⟩
    induction later using List.reverseRecOn with
    | nil =>
      obtain ⟨rfl, hdeed⟩ := List.append_inj' heq rfl
      exact .inr ⟨now, dormantAfter, deleteAfter, List.singleton_inj.1 hdeed, hidle⟩
    | append_singleton later last _ =>
      rw [← List.cons_append, ← List.append_assoc] at heq
      obtain ⟨rfl, -⟩ := List.append_inj' heq rfl
      exact .inl ⟨earlier, now, dormantAfter, deleteAfter, later, rfl, hidle⟩
  · rintro (⟨earlier, now, dormantAfter, deleteAfter, later, rfl, hidle⟩ |
      ⟨now, dormantAfter, deleteAfter, rfl, hidle⟩)
    · exact ⟨earlier, now, dormantAfter, deleteAfter, later ++ [deed], by simp, hidle⟩
    · exact ⟨deeds, now, dormantAfter, deleteAfter, [], rfl, hidle⟩

@[simp] theorem findsIdle_touch (other : Serial) (now : Instant) :
    FindsIdle serial start (deeds ++ [.touch other now]) ↔ FindsIdle serial start deeds := by
  simp [findsIdle_concat]

@[simp] theorem findsIdle_sweep (now : Instant) (dormantAfter deleteAfter : ℕ) :
    FindsIdle serial start (deeds ++ [.sweep now dormantAfter deleteAfter]) ↔
      FindsIdle serial start deeds ∨ lastTouch serial start deeds + deleteAfter ≤ now := by
  simp [findsIdle_concat]

/-! ## One deed -/

theorem sound_tend (hsound : registry.Sound) (deed : Deed) : (registry.tend deed).Sound := by
  cases deed with
  | touch serial now =>
    exact hsound.change serial fun trial => trial.precedes_perform (.touch now)
  | sweep now dormantAfter deleteAfter =>
    exact (hsound.swept now dormantAfter deleteAfter).sound

theorem trial?_touch {trial : Trial} (htrial : registry.trial? serial = some trial)
    (other : Serial) (now : Instant) :
    (registry.tend (.touch other now)).trial? serial =
      some (if other = serial then trial.touch now else trial) := by
  rw [tend, trial?_change, htrial]
  split <;> rfl

section Swept

variable {now : Instant} {dormantAfter deleteAfter deleted : ℕ} {after : Registry} {trial : Trial}

theorem Swept.registers_iff (hswept : registry.Swept now dormantAfter deleteAfter deleted after) :
    after.Registers serial ↔
      registry.Registers serial ∧ ¬ registry.IsIdleFor serial now deleteAfter := by
  simp only [Registers, hswept.find?_iff, exists_and_right]

theorem Swept.trial?_eq (hswept : registry.Swept now dormantAfter deleteAfter deleted after)
    (htrial : registry.trial? serial = some trial) :
    ∃ later, after.trial? serial = some later ∧ later.measurement = trial.measurement ∧
      later.lastAccess = trial.lastAccess ∧
      (later.isDone = true ↔ trial.isDone = true ∨
        registry.Registers serial ∧ trial.IsIdleFor now deleteAfter) ∧
      (later.isDormant = true → trial.isDormant = true ∨ trial.IsIdleFor now dormantAfter) := by
  by_cases hregisters : registry.Registers serial
  · refine ⟨_, hswept.registered serial trial hregisters htrial, ?_⟩
    rw [Trial.swept]
    split
    case isTrue hidle => exact ⟨rfl, rfl, by simp [Trial.finish, hregisters, hidle], .inl⟩
    case isFalse hbusy =>
      split
      case isTrue hidle =>
        exact ⟨rfl, rfl, by simp [Trial.setDormant, hbusy], fun _ => .inr hidle⟩
      case isFalse => exact ⟨rfl, rfl, by simp [hbusy], .inl⟩
  · exact ⟨trial, (hswept.unregistered serial hregisters).trans htrial, rfl, rfl,
      by simp [hregisters], .inl⟩

end Swept

/-! ## Whole runs -/

/-- The trial was registered, and a sweep of the run finds that its last touch is too long ago. -/
def Expires (registry : Registry) (serial : Serial) (trial : Trial) (deeds : List Deed) : Prop :=
  registry.Registers serial ∧ trial.measurement.transport = .udp ∧
    FindsIdle serial trial.lastAccess deeds

/-- A registry and a trial after a run, which began with the registry `before`. -/
structure Tended (before : Registry) (serial : Serial) (trial : Trial) (deeds : List Deed)
    (registry : Registry) (after : Trial) : Prop where
  sound : registry.Sound
  trial?_eq : registry.trial? serial = some after
  measurement_eq : after.measurement = trial.measurement
  lastAccess_eq : after.lastAccess = lastTouch serial trial.lastAccess deeds
  registers_iff : registry.Registers serial ↔
    before.Registers serial ∧ ¬ before.Expires serial trial deeds
  isDone_iff : after.isDone = true ↔ trial.isDone = true ∨ before.Expires serial trial deeds

variable {before : Registry} {trial after : Trial}

theorem Tended.touch (htended : before.Tended serial trial deeds registry after) (other : Serial)
    (now : Instant) :
    before.Tended serial trial (deeds ++ [.touch other now]) (registry.tend (.touch other now))
      (if other = serial then after.touch now else after) := by
  have hexpires : before.Expires serial trial (deeds ++ [.touch other now]) ↔
      before.Expires serial trial deeds := by
    rw [Expires, Expires, findsIdle_touch]
  refine ⟨sound_tend htended.sound _, trial?_touch htended.trial?_eq other now, ?_, ?_, ?_, ?_⟩
  · split <;> exact htended.measurement_eq
  · rw [lastTouch_concat, Deed.lastTouch]
    split
    case isTrue => rfl
    case isFalse => exact htended.lastAccess_eq
  · rw [hexpires]
    exact htended.registers_iff
  · rw [hexpires, ← htended.isDone_iff]
    split <;> rfl

theorem Tended.sweep (htended : before.Tended serial trial deeds registry after) {now : Instant}
    {dormantAfter deleteAfter : ℕ}
    (htime : InTime trial.lastAccess (deeds ++ [.sweep now dormantAfter deleteAfter])) :
    ∃ later, before.Tended serial trial (deeds ++ [.sweep now dormantAfter deleteAfter])
      (registry.tend (.sweep now dormantAfter deleteAfter)) later := by
  have hswept := htended.sound.swept now dormantAfter deleteAfter
  obtain ⟨later, hlater, hmeasurement, haccess, hdone, -⟩ := hswept.trial?_eq htended.trial?_eq
  have hlast : lastTouch serial trial.lastAccess deeds ≤ now := htime.lastTouch_le serial
  have hidle : after.IsIdleFor now deleteAfter ↔ trial.measurement.transport = .udp ∧
      lastTouch serial trial.lastAccess deeds + deleteAfter ≤ now := by
    rw [Trial.IsIdleFor, htended.measurement_eq, htended.lastAccess_eq]
    exact and_congr_right fun _ => Nat.le_sub_iff_add_le' hlast
  have hexpires : before.Expires serial trial (deeds ++ [.sweep now dormantAfter deleteAfter]) ↔
      before.Expires serial trial deeds ∨
        before.Registers serial ∧ after.IsIdleFor now deleteAfter := by
    rw [Expires, Expires, findsIdle_sweep, hidle, and_or_left, and_or_left]
  refine ⟨later, sound_tend htended.sound _, hlater, hmeasurement.trans htended.measurement_eq,
    ?_, ?_, ?_⟩
  · rw [lastTouch_concat, haccess]
    exact htended.lastAccess_eq
  · change (registry.sweep now dormantAfter deleteAfter).2.Registers serial ↔ _
    rw [hswept.registers_iff, isIdleFor_iff htended.trial?_eq, htended.registers_iff, hexpires,
      not_or, not_and, and_assoc]
    exact and_congr_right fun hregisters =>
      and_congr_right fun _ => ⟨fun hbusy _ => hbusy, fun hbusy => hbusy hregisters⟩
  · rw [hdone, htended.isDone_iff, htended.registers_iff, hexpires]
    by_cases hgone : before.Expires serial trial deeds <;> simp [hgone]

theorem exists_tended (hsound : before.Sound) (htrial : before.trial? serial = some trial)
    (htime : InTime trial.lastAccess deeds) :
    ∃ after, before.Tended serial trial deeds (before.tendAll deeds) after := by
  induction deeds using List.reverseRecOn with
  | nil =>
    have hnever : ¬ before.Expires serial trial [] := fun h => not_findsIdle_nil h.2.2
    exact ⟨trial, hsound, htrial, rfl, rfl, by simp [hnever, tendAll], by simp [hnever]⟩
  | append_singleton deeds deed ih =>
    obtain ⟨after, htended⟩ := ih htime.of_append
    rw [tendAll_concat]
    cases deed with
    | touch other now => exact ⟨_, htended.touch other now⟩
    | sweep now dormantAfter deleteAfter => exact htended.sweep htime

/-! ## Dormant trials -/

/-- A sweep of the run makes a trial dormant that was not, so long after its last touch. -/
def Dims (before : Registry) (serial : Serial) (touched : Instant) (deeds : List Deed) : Prop :=
  ∃ earlier now dormantAfter deleteAfter later,
    deeds = earlier ++ .sweep now dormantAfter deleteAfter :: later ∧
      touched + dormantAfter ≤ now ∧
      (∃ awake ∈ (before.tendAll earlier).trial? serial, awake.isDormant = false) ∧
      ∃ asleep ∈ (before.tendAll (earlier ++ [.sweep now dormantAfter deleteAfter])).trial? serial,
        asleep.isDormant = true

theorem Dims.concat {touched : Instant} (hdims : before.Dims serial touched deeds) (deed : Deed) :
    before.Dims serial touched (deeds ++ [deed]) := by
  obtain ⟨earlier, now, dormantAfter, deleteAfter, later, rfl, hdims⟩ := hdims
  exact ⟨earlier, now, dormantAfter, deleteAfter, later ++ [deed], by simp, hdims⟩

/-- A trial that is not dormant at the start of a run becomes so by a sweep of the run alone. -/
theorem dims_of_isDormant (hsound : before.Sound) (htrial : before.trial? serial = some trial)
    (hawake : trial.isDormant = false) (htime : InTime trial.lastAccess deeds)
    (hafter : (before.tendAll deeds).trial? serial = some after)
    (hdormant : after.isDormant = true) : before.Dims serial trial.lastAccess deeds := by
  induction deeds using List.reverseRecOn generalizing after with
  | nil =>
    rw [tendAll, List.foldl_nil, htrial] at hafter
    cases hafter
    rw [hawake] at hdormant
    cases hdormant
  | append_singleton deeds deed ih =>
    obtain ⟨middle, htended⟩ := exists_tended hsound htrial htime.of_append
    cases hmiddle : middle.isDormant with
    | true => exact (ih htime.of_append htended.trial?_eq hmiddle).concat deed
    | false =>
      have hbefore := hafter
      rw [tendAll_concat] at hafter
      cases deed with
      | touch other now =>
        rw [trial?_touch htended.trial?_eq] at hafter
        cases hafter
        split at hdormant
        · cases hdormant
        · rw [hmiddle] at hdormant
          cases hdormant
      | sweep now dormantAfter deleteAfter =>
        have hswept := htended.sound.swept now dormantAfter deleteAfter
        obtain ⟨later, hlater, -, -, -, hdim⟩ := hswept.trial?_eq htended.trial?_eq
        cases hlater.symm.trans hafter
        have hidle : middle.IsIdleFor now dormantAfter :=
          (hdim hdormant).resolve_left (by simp [hmiddle])
        have hlow := htime.of_append.start_le_lastTouch serial
        have hhigh : lastTouch serial trial.lastAccess deeds ≤ now := htime.lastTouch_le serial
        have hlong : dormantAfter ≤ now - lastTouch serial trial.lastAccess deeds :=
          htended.lastAccess_eq ▸ hidle.2
        have hreached := (Nat.le_sub_iff_add_le' hhigh).1 hlong
        exact ⟨deeds, now, dormantAfter, deleteAfter, [], rfl,
          (Nat.add_le_add_right hlow _).trans hreached, ⟨middle, htended.trial?_eq, hmiddle⟩,
          ⟨_, hbefore, hdormant⟩⟩

/-- The registry of a program is sound whatever happened. A sweep of a sound registry does exactly
what the idle times say, for any two limits.

Over a run of touches and sweeps by a clock that never goes back, a registered trial over datagrams
stays registered, and is not finished, until a sweep finds that its last touch is too long ago; it
is finished and not registered from then on. A trial that is dormant after a touch was made dormant
by a later sweep, which found the touch long enough ago. -/
theorem sweeps_exact :
    (∀ events, (Population.run events).registry.Sound) ∧
    ∀ registry : Registry, registry.Sound →
      (∀ now dormantAfter deleteAfter, registry.Swept now dormantAfter deleteAfter
        (registry.sweep now dormantAfter deleteAfter).1
        (registry.sweep now dormantAfter deleteAfter).2) ∧
      ∀ serial trial, registry.trial? serial = some trial → ∀ deeds,
        InTime trial.lastAccess deeds →
        (registry.Registers serial → trial.measurement.transport = .udp →
          ((registry.tendAll deeds).Registers serial ↔
            ¬ FindsIdle serial trial.lastAccess deeds) ∧
          ∃ after ∈ (registry.tendAll deeds).trial? serial,
            (after.isDone = true ↔
              trial.isDone = true ∨ FindsIdle serial trial.lastAccess deeds)) ∧
        ∀ earlier now later, deeds = earlier ++ .touch serial now :: later →
          ∀ after ∈ (registry.tendAll deeds).trial? serial, after.isDormant = true →
            (registry.tendAll (earlier ++ [.touch serial now])).Dims serial now later := by
  refine ⟨fun events => (Population.kept_run events).sound, fun registry hsound =>
    ⟨fun now dormantAfter deleteAfter => hsound.swept now dormantAfter deleteAfter, ?_⟩⟩
  intro serial trial htrial deeds htime
  refine ⟨fun hregisters hudp => ?_, ?_⟩
  · obtain ⟨after, htended⟩ := exists_tended hsound htrial htime
    have hexpires : registry.Expires serial trial deeds ↔
        FindsIdle serial trial.lastAccess deeds := by
      simp [Expires, hregisters, hudp]
    refine ⟨?_, after, htended.trial?_eq, ?_⟩
    · rw [htended.registers_iff, hexpires]
      exact and_iff_right hregisters
    · rw [htended.isDone_iff, hexpires]
  · rintro earlier now later rfl after hafter hdormant
    obtain ⟨middle, htended⟩ := exists_tended hsound htrial htime.of_append
    have htouched := htended.touch serial now
    rw [if_pos rfl, ← tendAll_concat] at htouched
    rw [← List.singleton_append, ← List.append_assoc, tendAll_append] at hafter
    exact dims_of_isDormant htouched.sound htouched.trial?_eq rfl htime.after hafter hdormant

/-- A trial over datagrams that is touched at time five, and limits of two and four: it becomes
dormant at time eight and is deleted at time nine. -/
theorem sweeps_exact_touched :
    let creation : Creation := { (default : Creation) with measurement := .udpServer, now := 0 }
    let registry := (Population.run [.createOrGet creation]).registry
    let deeds := [Deed.sweep 3 2 4, .touch 0 5, .sweep 8 2 4]
    registry.Sound ∧ registry.trial? 0 = some creation.trial.acquire ∧
      InTime creation.trial.lastAccess (deeds ++ [.sweep 9 2 4]) ∧ registry.Registers 0 ∧
      creation.trial.measurement.transport = .udp ∧
      ¬ FindsIdle 0 creation.trial.lastAccess deeds ∧
      (registry.tendAll [Deed.sweep 3 2 4, .touch 0 5]).Dims 0 5 [.sweep 8 2 4] ∧
      ¬ (registry.tendAll (deeds ++ [.sweep 9 2 4])).Registers 0 := by
  intro creation registry deeds
  have hsound : registry.Sound := sweeps_exact.1 _
  have htrial : registry.trial? 0 = some creation.trial.acquire := by decide
  have htime : InTime creation.trial.lastAccess (deeds ++ [.sweep 9 2 4]) := by
    unfold InTime
    decide
  have hregisters : registry.Registers 0 := ⟨default, .udpServer, by decide⟩
  obtain ⟨hkept, -⟩ := ((sweeps_exact.2 registry hsound).2 0 _ htrial deeds htime.of_append).1
    hregisters rfl
  obtain ⟨hdeleted, -⟩ := ((sweeps_exact.2 registry hsound).2 0 _ htrial _ htime).1 hregisters rfl
  have hdims := ((sweeps_exact.2 registry hsound).2 0 _ htrial deeds htime.of_append).2
    [.sweep 3 2 4] 5 [.sweep 8 2 4] rfl
    { creation.trial.acquire with lastAccess := 5, isDormant := true } (by decide) rfl
  refine ⟨hsound, htrial, htime, hregisters, rfl, hkept.1 ⟨default, .udpServer, by decide⟩,
    hdims, ?_⟩
  rw [hdeleted, not_not]
  exact ⟨deeds, 9, 2, 4, [], rfl, by decide⟩

end Registry

end LinkMeter
