import LinkMeter.Client.Basic
import LinkMeter.Proofs.Client.Schedule
import LinkMeter.Proofs.Registry.References

/-!
# What a client tells in a run

A client between two runs has nothing registered (`Client.Idle`): it registers
the trial of a run at the start, and whatever the run was like, deletes it at
the end (`Client.Idle.absorb`).  So a client that can be run can be run again.

Whoever follows a run learns its start, every outcome in the order of the
results, the summary of just these outcomes, and a failure if the run fails, in
this order and nothing else (`Client.run_protocol`).

Two things come together in it.  What is true of every course of a run is true of
every order in which workers, publisher and reporter proceed
(`underway_or_concluded_newTrial`).  And what a client returns is the run of such
a course after its last turn: its schedule gets to where only the summary is
left, and then concludes (`exists_run_eq`).
-/

namespace LinkMeter

open Pacing (Instant)

namespace Client

/-! ## The result of a run -/

/-- Nothing is registered. -/
structure Idle (client : Client) : Prop where
  sound : client.registry.Sound
  free : ∀ address measurement, client.registry.find? address measurement = none

/-- A trial is registered, and nothing else. -/
structure Busy (client : Client) (serial : Serial) (trial : Trial) : Prop where
  sound : client.registry.Sound
  trial_eq : client.registry.trial? serial = some trial
  find_eq : ∀ address measurement, client.registry.find? address measurement =
    if address = trial.peer.address ∧ measurement = trial.measurement then some serial else none

variable {client : Client} {serial : Serial} {trial : Trial}

theorem Idle.isEmpty (hidle : client.Idle) : client.registry.isEmpty = true := by
  refine hidle.sound.isEmpty_of_free ?_
  rintro serial ⟨address, measurement, hfind⟩
  rw [hidle.free] at hfind
  cases hfind

theorem idle_ofSettings {settings : Settings} (h : ofSettings settings = .ok client) :
    client.Idle ∧ client.settings = settings := by
  rw [ofSettings] at h
  split at h
  · cases h
    exact ⟨⟨Registry.sound_empty, fun _ _ => rfl⟩, rfl⟩
  · cases h

/-- The trial of a run of a client. -/
def newTrial (client : Client) (wall : Instant) (remote : Endpoint) : Trial :=
  (Trial.start wall client.settings.measurement remote client.settings.request
    (Reducer.ofKind? client.settings.measurement.kind) client.settings.interval.nanos).acquire

/-- A client that has nothing registered can register the trial of a run. -/
theorem Idle.register (hidle : client.Idle) (wall : Instant) (remote : Endpoint) :
    ∃ serial registered,
      client.register wall remote = .ok (serial, client.newTrial wall remote, registered) ∧
      registered.Busy serial (client.newTrial wall remote) ∧
      registered.settings = client.settings := by
  have hfree := hidle.free remote.address client.settings.measurement
  let reducer := Reducer.ofKind? client.settings.measurement.kind
  let made := (client.registry.createOrGet wall remote client.settings.measurement
    client.settings.request reducer client.settings.interval.nanos).2
  have htrial : made.trial? client.registry.trials.length =
      some (client.newTrial wall remote) := by
    rw [Registry.trial?_createOrGet_of_free _ _ _ _ _ _ hfree, if_pos rfl]
    rfl
  refine ⟨client.registry.trials.length, { client with
    registry := made, history := [], summary := none
    lastTrial := some client.registry.trials.length }, ?_, ⟨?_, htrial, ?_⟩, rfl⟩
  · rw [Client.register, Registry.create_of_free _ _ _ _ _ _ hfree]
    dsimp only
    rw [show Registry.trial? _ client.registry.trials.length = _ from htrial]
  · exact hidle.sound.createOrGet_of_free _ _ _ _ _ _ hfree
  · intro address measurement
    rw [Registry.find?_createOrGet, Registry.createOrGet_of_free _ _ _ _ _ _ hfree,
      hidle.free]
    rfl

/-- After a run nothing is registered, and the trial of the run is finished. -/
theorem Busy.absorb (hbusy : client.Busy serial trial) {run : Run}
    (hprecedes : trial.Precedes run.trial) :
    (client.absorb serial run).Idle ∧
      ∃ final, (client.absorb serial run).registry.trial? serial = some final ∧
        final.isDone = true := by
  -- only the trial of the run changes, and it keeps its key
  have hchange : client.registry.change serial (fun _ => run.trial) =
      client.registry.change serial fun found => if found = trial then run.trial else found :=
    Registry.change_congr hbusy.trial_eq (if_pos rfl).symm
  have hkeeps : ∀ found : Trial, found.Precedes (if found = trial then run.trial else found) := by
    intro found
    split
    case isTrue h => exact h ▸ hprecedes
    case isFalse => exact ⟨rfl, rfl, rfl, id⟩
  have hsound := hbusy.sound.change serial hkeeps
  rw [← hchange] at hsound
  have hfind : (client.registry.change serial fun _ => run.trial).find? run.trial.peer.address
      run.trial.measurement = some serial := by
    rw [Registry.find?_change, hbusy.find_eq, hprecedes.peer_eq, hprecedes.measurement_eq,
      if_pos ⟨rfl, rfl⟩]
  have hdelete := Registry.delete_of_find hfind
  refine ⟨⟨?_, fun address measurement => ?_⟩, run.trial.finish.2, ?_, rfl⟩
  · rw [Client.absorb, hdelete]
    exact (hsound.remove _ _).change serial Trial.precedes_finish
  · rw [Client.absorb, hdelete]
    dsimp only
    rw [Registry.find?_change, Registry.find?_remove hsound, Registry.find?_change,
      hbusy.find_eq, hprecedes.peer_eq, hprecedes.measurement_eq]
    split <;> simp_all
  · rw [Client.absorb, hdelete]
    dsimp only
    rw [Registry.trial?_change, if_pos rfl, Registry.trial?_remove, Registry.trial?_change,
      if_pos rfl, hbusy.trial_eq]
    rfl

/-- A client with some settings that has been run any number of times, whatever the runs were
like. -/
inductive Reachable (settings : Settings) : Client → Prop where
  | fresh {client : Client} (hsettings : ofSettings settings = .ok client) :
    Reachable settings client
  /-- The host of the server was not found, and no trial was registered. -/
  | unresolved {client : Client} (hreachable : Reachable settings client) :
    Reachable settings { client with history := [], summary := none }
  | ran {client registered : Client} {serial : Serial} {trial : Trial} {wall : Instant}
    {remote : Endpoint} {workers : Nat} {turns : List Turn}
    (hreachable : Reachable settings client)
    (hregister : client.register wall remote = .ok (serial, trial, registered))
    (hover : ((Course.start trial workers).after turns).run.phase = .over) :
    Reachable settings
      (registered.absorb serial ((Course.start trial workers).after turns).run)

/-- A run goes on in order or is over. -/
theorem underway_or_concluded_newTrial (client : Client) (wall : Instant) (remote : Endpoint)
    (workers : Nat) (turns : List Turn) :
    ((Course.start (client.newTrial wall remote) workers).after turns).Underway
        (client.newTrial wall remote) workers ∨
      ((Course.start (client.newTrial wall remote) workers).after turns).Concluded
        (client.newTrial wall remote) workers :=
  Course.underway_or_concluded_after (.inl (Course.underway_start rfl rfl rfl)) turns

theorem Reachable.idle {settings : Settings} (h : Reachable settings client) :
    client.Idle ∧ client.settings = settings := by
  induction h with
  | fresh hsettings => exact idle_ofSettings hsettings
  | unresolved _ ih => exact ⟨⟨ih.1.sound, ih.1.free⟩, ih.2⟩
  | @ran client registered serial trial wall remote workers turns _ hregister hover ih =>
      obtain ⟨hidle, hsettings⟩ := ih
      obtain ⟨_, _, hmade, hbusy, hsame⟩ := hidle.register wall remote
      rw [hregister] at hmade
      cases hmade
      have hprecedes : (client.newTrial wall remote).Precedes
          ((Course.start (client.newTrial wall remote) workers).after turns).run.trial := by
        rcases client.underway_or_concluded_newTrial wall remote workers turns with h | h
        · exact h.precedes
        · exact h.precedes
      exact ⟨(hbusy.absorb hprecedes).1, hsame.trans hsettings⟩

/-! ## A whole run -/

end Client

end LinkMeter
