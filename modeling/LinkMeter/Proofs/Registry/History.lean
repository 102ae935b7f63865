import LinkMeter.Proofs.Registry.Evolution
import Mathlib.Data.List.Induction

/-!
# Histories of a registry

A program has one registry and all the trials that it ever started: those that
the registry created, and those started apart from it, which are never
registered.  `Population.step` is one thing that happens to them, and a history
is any list of such things.

Whatever happened, the registry is in order (`Registry.InOrder`).  A sweep
counts as one event, and every state that it passes through is also reached by
single acts and deletions, so what is said of the counts of sessions holds
inside a sweep as well.
-/

namespace LinkMeter

open Pacing (Instant)

/-- The arguments with which a trial is created. -/
structure Creation where
  now : Instant
  peer : Endpoint
  measurement : Measurement
  request : Request
  reducer : Option Reducer
  interval : Nat
  deriving DecidableEq, Inhabited

/-- Something that happens to a registry or to a trial. -/
inductive Registry.Event where
  | createOrGet (creation : Creation)
  | create (creation : Creation)
  /-- Creating is done in two halves; somebody else may act between them. -/
  | createUnregistered (creation : Creation)
  | delete (address : Address) (measurement : Measurement)
  | release (serial : Serial)
  | sweep (now : Instant) (dormantAfter deleteAfter : Nat)
  /-- A trial is started apart from the registry. -/
  | startApart (creation : Creation)
  | act (serial : Serial) (act : Trial.Act)
  deriving DecidableEq, Inhabited

/-- All trials of a program. -/
structure Population where
  registry : Registry := {}
  /-- The numbers of the trials that were started apart from the registry. -/
  apart : List Serial := []
  deriving DecidableEq, Inhabited

namespace Creation

variable (creation : Creation)

/-- The trial that is created. -/
def trial : Trial :=
  Trial.start creation.now creation.measurement creation.peer creation.request creation.reducer
    creation.interval

def createOrGet (registry : Registry) : (Serial × Bool) × Registry :=
  registry.createOrGet creation.now creation.peer creation.measurement creation.request
    creation.reducer creation.interval

def create (registry : Registry) : Except Failure Serial × Registry :=
  registry.create creation.now creation.peer creation.measurement creation.request
    creation.reducer creation.interval

def createUnregistered (registry : Registry) : Except Failure Serial × Registry :=
  registry.createUnregistered creation.now creation.peer creation.measurement creation.request
    creation.reducer creation.interval

end Creation

namespace Population

/-- The population after an event. -/
def step (population : Population) : Registry.Event → Population
  | .createOrGet creation =>
    { population with registry := (creation.createOrGet population.registry).2 }
  | .create creation => { population with registry := (creation.create population.registry).2 }
  | .createUnregistered creation =>
    { population with registry := (creation.createUnregistered population.registry).2 }
  | .delete address measurement =>
    { population with registry := (population.registry.delete address measurement).2 }
  | .release serial => { population with registry := (population.registry.release serial).2 }
  | .sweep now dormantAfter deleteAfter =>
    { population with registry := (population.registry.sweep now dormantAfter deleteAfter).2 }
  | .startApart creation =>
    { registry := { population.registry with
        trials := population.registry.trials ++ [creation.trial] }
      apart := population.apart ++ [population.registry.trials.length] }
  | .act serial act =>
    { population with registry := population.registry.change serial fun trial => trial.perform act }

/-- The population after a history. -/
def run (events : List Registry.Event) : Population := events.foldl step {}

/-- The registry is sound, and a trial that it created is registered or finished. -/
structure Kept (population : Population) : Prop where
  sound : population.registry.Sound
  settled : ∀ serial trial, population.registry.trial? serial = some trial →
    serial ∉ population.apart → population.registry.Settled serial

theorem kept_empty : ({} : Population).Kept where
  sound := Registry.sound_empty
  settled := by intro serial trial h; simp [Registry.trial?] at h

variable {population : Population}

theorem Kept.evolve (hkept : population.Kept) {registry : Registry}
    (hevolves : population.registry.Evolves registry) :
    ({ population with registry := registry } : Population).Kept where
  sound := hevolves.sound
  settled := by
    intro serial trial htrial hown
    cases hbefore : population.registry.trial? serial with
    | none => exact hevolves.created serial trial hbefore htrial
    | some old => exact hevolves.settled serial (hkept.settled serial old hbefore hown)

theorem Kept.startApart (hkept : population.Kept) (creation : Creation) :
    (population.step (.startApart creation)).Kept where
  sound := hkept.sound.append creation.trial
  settled := by
    intro serial trial htrial hown
    simp only [step, List.mem_append, List.mem_singleton, not_or] at hown
    have hold : population.registry.trial? serial = some trial := by
      rw [← htrial]
      exact (Registry.trial?_append creation.trial serial).symm ▸ (if_neg hown.2).symm
    exact (hkept.settled serial trial hold hown.1).append creation.trial

theorem Kept.step (hkept : population.Kept) (event : Registry.Event) :
    (population.step event).Kept := by
  have hsound := hkept.sound
  cases event with
  | createOrGet creation => exact hkept.evolve (Registry.evolves_createOrGet _ _ _ _ _ _ hsound)
  | create creation => exact hkept.evolve (Registry.evolves_create _ _ _ _ _ _ hsound)
  | createUnregistered creation =>
      exact hkept.evolve (Registry.evolves_createUnregistered _ _ _ _ _ _ hsound)
  | delete address measurement =>
      exact hkept.evolve (Registry.evolves_delete hsound address measurement)
  | release serial => exact hkept.evolve (Registry.evolves_release hsound serial)
  | sweep now dormantAfter deleteAfter =>
      exact hkept.evolve (Registry.evolves_sweep hsound now dormantAfter deleteAfter)
  | startApart creation => exact hkept.startApart creation
  | act serial act =>
      exact hkept.evolve
        (Registry.evolves_change hsound serial fun trial => trial.precedes_perform act)

theorem kept_run (events : List Registry.Event) : (run events).Kept := by
  induction events using List.reverseRecOn with
  | nil => exact kept_empty
  | append_singleton events event ih =>
      rw [run, List.foldl_append]
      exact ih.step event

end Population

/-! ## Order in the registry -/

/-- What holds of a registry at any time, if the trials with the numbers `apart` were started
apart from it. -/
structure Registry.InOrder (registry : Registry) (apart : List Serial) : Prop where
  /-- No address has two sessions, and no measurement two trials in a session. -/
  keys : (registry.sessions.map (·.1)).Nodup ∧
    ∀ entry ∈ registry.sessions, (entry.2.trials.map (·.1)).Nodup
  /-- Every session counts its trials and has at least one. -/
  counts : ∀ entry ∈ registry.sessions,
    entry.2.count = entry.2.trials.length ∧ 1 ≤ entry.2.count
  /-- A session that loses a trial counts exactly one less. -/
  countsDown : ∀ address session measurement, registry.session? address = some session →
    (session.find? measurement).isSome → (session.erase measurement).count + 1 = session.count
  /-- A session stands under its address. -/
  addresses : ∀ entry ∈ registry.sessions, entry.2.address = entry.1
  /-- A trial stands under its address and measurement. -/
  trials : ∀ address measurement serial, registry.find? address measurement = some serial →
    ∃ trial, registry.trial? serial = some trial ∧ trial.peer.address = address ∧
      trial.measurement = measurement
  /-- No trial is registered twice. -/
  once : ∀ serial address measurement other kind,
    registry.find? address measurement = some serial → registry.find? other kind = some serial →
    address = other ∧ measurement = kind
  /-- A trial of the registry that is not registered any more is finished. -/
  finished : ∀ serial trial, registry.trial? serial = some trial → serial ∉ apart →
    (∀ address measurement, registry.find? address measurement ≠ some serial) →
    trial.isDone = true

namespace Population

/-- At any time the registry is in order. -/
theorem inOrder_run (events : List Registry.Event) :
    (run events).registry.InOrder (run events).apart := by
  obtain ⟨hsound, hsettled⟩ := kept_run events
  have hsessions : ∀ entry ∈ (run events).registry.sessions, entry.2.Sound entry.1 :=
    fun entry hentry => hsound.session _ _ (lookup_of_mem hsound.nodup hentry)
  refine ⟨⟨hsound.nodup, fun entry hentry => (hsessions entry hentry).nodup⟩, ?_, ?_, ?_,
    hsound.trial, fun _ _ _ _ _ => hsound.key_unique, ?_⟩
  · intro entry hentry
    exact ⟨(hsessions entry hentry).count_eq, (hsessions entry hentry).count_pos⟩
  · intro address session measurement hsession hsome
    obtain ⟨serial, hserial⟩ := Option.isSome_iff_exists.1 hsome
    exact ((hsound.session _ _ hsession).count_erase hserial).1
  · intro entry hentry
    exact (hsessions entry hentry).address_eq
  · intro serial trial htrial hown hnowhere
    rcases hsettled serial trial htrial hown with
        ⟨address, measurement, hkey⟩ | ⟨found, hfound, hdone⟩
    · exact absurd hkey (hnowhere address measurement)
    · rw [htrial] at hfound
      cases hfound
      exact hdone

end Population

end LinkMeter
