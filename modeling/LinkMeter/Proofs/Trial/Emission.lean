import LinkMeter.Proofs.Trial.Batch
import LinkMeter.Proofs.Trial.Steady

/-!
# What an act emits and receives

An act on a trial emits at most one outcome (`Trial.emitted?`) and receives some
that were emitted before (`Trial.received`).  An emission is `crowded` if it
meets a full queue.  As long as none is and the queue is open, what was received
and what is queued is what was emitted, in order, and the latest outcome is the
one that was emitted last (`Trial.passes_perform`).
-/

namespace LinkMeter.Trial

/-- The outcome that an act emits. -/
def emitted? (trial : Trial) : Act → Option Outcome
  | .add sample => if trial.reducer.isNone then some sample else none
  | .emit outcome => some outcome
  | .publish now => (trial.publish now).1.outcome?
  | _ => none

/-- The outcomes that an act takes from the queue for the reporter. -/
def received (trial : Trial) : Act → List Outcome
  | .receive => trial.receive.1.toList
  | .drain => trial.queue
  | _ => []

/-- Whether an act emits into a full queue. -/
def crowds (trial : Trial) (act : Act) : Bool :=
  (trial.emitted? act).isSome && decide (queueCapacity ≤ trial.queue.length)

/-- From one state of a trial to a later one some outcomes are received, and at most one is emitted
into a queue that has room for it, unless it is crowded. -/
structure Passes (before : Trial) (received : List Outcome) (crowded : Bool) (after : Trial) :
    Prop where
  precedes : before.Precedes after
  isClosed_eq : after.isClosed = before.isClosed
  passed : ∃ emitted : Option Outcome, after.latest = emitted.or before.latest ∧
    (before.isClosed = false → crowded = false →
      received ++ after.queue = before.queue ++ emitted.toList)

variable {trial : Trial}

theorem Passes.refl (trial : Trial) : trial.Passes [] false trial where
  precedes := ⟨rfl, rfl, rfl, id⟩
  isClosed_eq := rfl
  passed := ⟨none, rfl, fun _ _ => (List.append_nil _).symm⟩

/-- A tick of the clock in front passes nothing on. -/
theorem Passes.of_tick {later : Trial} {received : List Outcome} {crowded : Bool}
    {now : Pacing.Instant} (h : (trial.tick now).Passes received crowded later) :
    trial.Passes received crowded later where
  precedes := ⟨h.precedes.peer_eq, h.precedes.measurement_eq, h.precedes.interval_eq,
    h.precedes.isDone_of_isDone⟩
  isClosed_eq := h.isClosed_eq
  passed := h.passed

/-- What was emitted last is the latest, whatever was received in between. -/
theorem Passes.latest_eq {before after : Trial} {received history : List Outcome} {crowded : Bool}
    (hpasses : before.Passes received crowded after) (hopen : before.isClosed = false)
    (hroom : crowded = false)
    (hlatest : before.latest = (history ++ before.queue).getLast?) :
    after.latest = (history ++ received ++ after.queue).getLast? := by
  obtain ⟨emitted, hemitted, hqueue⟩ := hpasses.passed
  rw [List.append_assoc, hqueue hopen hroom, ← List.append_assoc, List.getLast?_append, ← hlatest,
    hemitted]
  cases emitted <;> rfl

theorem isClosed_enqueue (trial : Trial) (outcome : Outcome) :
    (trial.enqueue outcome).isClosed = trial.isClosed := by
  rw [enqueue]
  split <;> rfl

theorem passes_emit (trial : Trial) (outcome : Outcome) :
    trial.Passes [] (trial.crowds (.emit outcome)) (trial.emit outcome) where
  precedes := precedes_emit trial outcome
  isClosed_eq := isClosed_enqueue _ outcome
  passed := by
    refine ⟨some outcome, latest_emit trial outcome, fun hopen hroom => ?_⟩
    apply queue_enqueue
    · exact hopen
    · simpa [crowds, emitted?] using hroom

theorem passes_add (trial : Trial) (sample : Outcome) :
    trial.Passes [] (trial.crowds (.add sample)) (trial.add sample) := by
  cases hreducer : trial.reducer with
  | none =>
      have hcrowds : trial.crowds (.add sample) = trial.crowds (.emit sample) := by
        simp [crowds, emitted?, hreducer]
      have hadd : trial.add sample = trial.emit sample := by rw [add, hreducer]
      rw [hcrowds, hadd]
      exact passes_emit trial sample
  | some reducer =>
      -- the sample waits in the buffer, and the queue stays
      have hadd : trial.add sample = { trial with buffered := trial.buffered ++ [sample] } :=
        foldl_add hreducer [sample]
      rw [hadd]
      exact ⟨⟨rfl, rfl, rfl, id⟩, rfl, none, rfl, fun _ _ => (List.append_nil _).symm⟩

theorem latest_publish (trial : Trial) (now : Pacing.Instant) :
    (trial.publish now).2.latest = (trial.publish now).1.outcome?.or trial.latest := by
  rw [publish]
  cases trial.reducer with
  | none => rfl
  | some reducer =>
      dsimp only
      cases trial.buffered.isEmpty with
      | true => rfl
      | false =>
          simp only [Bool.false_eq_true, if_false]
          cases reducer.reduce? (trial.publishSeconds now) trial.buffered with
          | none => rfl
          | some outcome => exact latest_emit _ outcome

theorem isClosed_publish (trial : Trial) (now : Pacing.Instant) :
    (trial.publish now).2.isClosed = trial.isClosed := by
  cases hreducer : trial.reducer with
  | none => rw [publish, hreducer]
  | some reducer => exact (publish_spec hreducer now).2.2.2

theorem passes_publish (trial : Trial) (now : Pacing.Instant) :
    trial.Passes [] (trial.crowds (.publish now)) (trial.publish now).2 where
  precedes := precedes_publish trial now
  isClosed_eq := isClosed_publish trial now
  passed := by
    refine ⟨_, latest_publish trial now, fun hopen hroom => queue_publish hopen now fun hsome => ?_⟩
    simpa [crowds, emitted?, hsome] using hroom

/-- Closing the queue apart, every act passes on what it receives and emits. -/
theorem passes_perform (trial : Trial) {act : Act} (hact : act ≠ .close) :
    trial.Passes (trial.received act) (trial.crowds act) (trial.perform act) := by
  cases act with
  | add sample => exact passes_add trial sample
  | emit outcome => exact passes_emit trial outcome
  | publish now => exact passes_publish trial now
  | receive =>
      obtain ⟨hqueue, -, -, hclosed⟩ := trial.receive_spec
      have hlatest : trial.receive.2.latest = trial.latest := by
        rw [receive]
        split <;> rfl
      refine ⟨precedes_receive trial, hclosed, none, hlatest, fun _ _ => ?_⟩
      rw [Option.toList_none, List.append_nil]
      exact hqueue
  | close => exact absurd rfl hact
  | finish => exact ⟨precedes_finish trial, rfl, none, rfl, fun _ _ => (List.append_nil _).symm⟩
  | drain => exact ⟨⟨rfl, rfl, rfl, id⟩, rfl, none, rfl, fun _ _ => rfl⟩
  | claim | touch now | setDormant | tick now =>
      exact ⟨precedes_perform trial _, rfl, none, rfl, fun _ _ => (List.append_nil _).symm⟩

end LinkMeter.Trial
