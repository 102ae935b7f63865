import LinkMeter.Trial.Basic

/-!
# Batches

A publication takes the whole buffer as one batch (`Trial.batch?`), emits what
the batch is reduced to, and leaves the buffer empty (`Trial.publish_spec`).
What it emits enters the queue as long as the queue is open and has room
(`Trial.queue_publish`), and the reporter receives from the head of the queue
(`Trial.receive_spec`).
-/

namespace LinkMeter

open Pacing (Instant)

/-- What a publication takes from the buffer, with the seconds that it covers. -/
structure Batch where
  seconds : UInt64
  samples : List Outcome
  deriving DecidableEq

/-- The outcome that a batch is reduced to, if its totals fit. -/
def Batch.reduce? (reducer : Reducer) (batch : Batch) : Option Outcome :=
  reducer.reduce? batch.seconds batch.samples

/-- The samples of a batch, if it cannot be reduced. -/
def Batch.lost (reducer : Reducer) (batch : Batch) : List Outcome :=
  match batch.reduce? reducer with
  | some _ => []
  | none => batch.samples

namespace Trial

variable {trial : Trial} {reducer : Reducer}

/-- The batch that a publication takes, if there is anything to take. -/
def batch? (trial : Trial) (now : Instant) : Option Batch :=
  if trial.buffered.isEmpty then none else some ⟨trial.publishSeconds now, trial.buffered⟩

theorem samples_batch? (trial : Trial) (now : Instant) :
    (trial.batch? now).toList.flatMap Batch.samples = trial.buffered := by
  rw [batch?]
  split
  case isTrue hempty => exact (List.isEmpty_iff.mp hempty).symm
  case isFalse => exact List.flatMap_singleton ..

/-- Adding samples only puts them into the buffer. -/
theorem foldl_add (hreducer : trial.reducer = some reducer) (samples : List Outcome) :
    samples.foldl add trial = { trial with buffered := trial.buffered ++ samples } := by
  induction samples generalizing trial with
  | nil => rw [List.foldl_nil, List.append_nil]
  | cons sample samples ih =>
      have hadd : trial.add sample = { trial with buffered := trial.buffered ++ [sample] } := by
        rw [add, hreducer]
      have hnext : (trial.add sample).reducer = some reducer := by rw [hadd, hreducer]
      rw [List.foldl_cons, ih hnext, hadd, List.append_assoc, List.singleton_append]

theorem enqueue_eq (trial : Trial) (outcome : Outcome) :
    trial.enqueue outcome = { trial with queue := (trial.enqueue outcome).queue } := by
  rw [enqueue]
  split <;> rfl

/-- An outcome enters an open queue that has room. -/
theorem queue_enqueue (hopen : trial.isClosed = false)
    (hroom : trial.queue.length < queueCapacity) (outcome : Outcome) :
    (trial.enqueue outcome).queue = trial.queue ++ [outcome] := by
  have hfull : ¬ (trial.isClosed || decide (trial.queue.length ≥ queueCapacity)) := by
    rw [hopen, Bool.false_or, decide_eq_true_eq]
    omega
  rw [enqueue, if_neg hfull]

/-- A trial without a reducer queues a sample as it is. -/
theorem add_of_direct (hdirect : trial.reducer = none) (hopen : trial.isClosed = false)
    (hroom : trial.queue.length < queueCapacity) (sample : Outcome) :
    trial.add sample =
      { trial with latest := some sample, queue := trial.queue ++ [sample] } := by
  have hqueue : ({ trial with latest := some sample }.enqueue sample).queue =
      trial.queue ++ [sample] := by
    apply queue_enqueue
    · exact hopen
    · exact hroom
  have hemit : trial.add sample = trial.emit sample := by rw [add, hdirect]
  rw [hemit, emit, enqueue_eq, hqueue]

theorem queue_foldl_add (hdirect : trial.reducer = none) (hopen : trial.isClosed = false)
    {samples : List Outcome} (hroom : trial.queue.length + samples.length ≤ queueCapacity) :
    (samples.foldl add trial).queue = trial.queue ++ samples := by
  induction samples generalizing trial with
  | nil => rw [List.foldl_nil, List.append_nil]
  | cons sample samples ih =>
      rw [List.length_cons] at hroom
      rw [List.foldl_cons, add_of_direct hdirect hopen (by omega), ih]
      · rw [List.append_assoc, List.singleton_append]
      · exact hdirect
      · exact hopen
      · rw [List.length_append, List.length_singleton]
        omega

/-- What a publication emits is the reduced batch, and the buffer is empty after it. -/
theorem publish_spec (hreducer : trial.reducer = some reducer) (now : Instant) :
    (trial.publish now).1.outcome? = (trial.batch? now).bind (Batch.reduce? reducer) ∧
      (trial.publish now).2.buffered = [] ∧ (trial.publish now).2.reducer = some reducer ∧
      (trial.publish now).2.isClosed = trial.isClosed := by
  simp only [publish, hreducer, batch?]
  cases hempty : trial.buffered.isEmpty with
  | true => exact ⟨rfl, rfl, rfl, rfl⟩
  | false =>
      simp only [Bool.false_eq_true, if_false, Option.bind_some, Batch.reduce?]
      cases reducer.reduce? (trial.publishSeconds now) trial.buffered with
      | none => exact ⟨rfl, rfl, rfl, rfl⟩
      | some outcome =>
          dsimp only
          rw [emit, enqueue_eq]
          exact ⟨rfl, rfl, rfl, rfl⟩

/-- What a publication emits enters the queue, unless it is closed or full. -/
theorem queue_publish (hopen : trial.isClosed = false) (now : Instant)
    (hroom : (trial.publish now).1.outcome?.isSome → trial.queue.length < queueCapacity) :
    (trial.publish now).2.queue = trial.queue ++ (trial.publish now).1.outcome?.toList := by
  revert hroom
  rw [publish]
  cases trial.reducer with
  | none => exact fun _ => (List.append_nil _).symm
  | some reducer =>
      dsimp only
      cases trial.buffered.isEmpty with
      | true => exact fun _ => (List.append_nil _).symm
      | false =>
          simp only [Bool.false_eq_true, if_false]
          cases reducer.reduce? (trial.publishSeconds now) trial.buffered with
          | none => exact fun _ => (List.append_nil _).symm
          | some outcome =>
              intro hroom
              apply queue_enqueue
              · exact hopen
              · exact hroom rfl

/-- What is received was at the head of the queue. -/
theorem receive_spec (trial : Trial) :
    trial.receive.1.toList ++ trial.receive.2.queue = trial.queue ∧
      trial.receive.2.buffered = trial.buffered ∧ trial.receive.2.reducer = trial.reducer ∧
      trial.receive.2.isClosed = trial.isClosed := by
  rw [receive]
  split
  case h_1 => exact ⟨rfl, rfl, rfl, rfl⟩
  case h_2 outcome rest hqueue => exact ⟨hqueue.symm, rfl, rfl, rfl⟩

end Trial

end LinkMeter
