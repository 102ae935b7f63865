import LinkMeter.Proofs.Transfer.Tally
import LinkMeter.Proofs.Trial.Batch

/-!
# From tallies to reports

Tallies count, and hand samples over to a trial; the trial buffers them,
reduces its buffer now and then and queues the outcome; a reporter receives it.
`Pipeline` is a trial with its tallies and with a record of what has passed so
far, and its events come in any order.

Every sample passes exactly once (`Flows`): the batches that were reduced and
the buffer are the added samples, in their order.  What a tally counts is
either still in it or was added (`Balanced`).  What was emitted is either still
queued or was reported, if no emission met a full queue (`Delivers`).  One event
preserves each of these, and so does a run.
-/

namespace LinkMeter

open Pacing (Instant)
open Transfer (Counting Tally)

/-- A trial with its tallies, and what has passed so far. -/
structure Pipeline where
  trial : Trial
  tallies : List Tally
  /-- The units and bytes of every count. -/
  counts : List (UInt64 × UInt64) := []
  added : List Outcome := []
  /-- What publications took from the buffer. -/
  batches : List Batch := []
  emitted : List Outcome := []
  /-- What the reporter received. -/
  reported : List Outcome := []
  /-- Whether an emission met a full queue. -/
  crowded : Bool := false
  deriving DecidableEq

namespace Pipeline

/-- What happens to a trial and its tallies. -/
inductive Event where
  /-- A tally counts; its flush period is over or not. -/
  | count (place : ℕ) (units bytes : UInt64) (due : Bool)
  | flush (place : ℕ)
  /-- A failure is added. -/
  | fail (reason : String)
  | tick (now : Instant)
  | publish (now : Instant)
  /-- The reporter receives one outcome. -/
  | receive
  /-- The reporter receives everything that is queued. -/
  | drain
  | finish
  deriving DecidableEq

/-- A new trial with empty tallies. -/
def start (now : Instant) (measurement : Measurement) (peer : Endpoint) (request : Request)
    (interval : ℕ) (reducer : Reducer) (countings : List Counting) : Pipeline where
  trial := Trial.start now measurement peer request (some reducer) interval
  tallies := countings.map fun counting => { counting }

/-- Adds samples to the trial. -/
def add (pipeline : Pipeline) (samples : List Outcome) : Pipeline :=
  { pipeline with
    trial := samples.foldl Trial.add pipeline.trial
    added := pipeline.added ++ samples }

/-- Publishes what is buffered. -/
def publish (pipeline : Pipeline) (now : Instant) : Pipeline :=
  let (publication, trial) := pipeline.trial.publish now
  { pipeline with
    trial := trial
    batches := pipeline.batches ++ (pipeline.trial.batch? now).toList
    emitted := pipeline.emitted ++ publication.outcome?.toList
    crowded := pipeline.crowded ||
      publication.outcome?.isSome && Trial.queueCapacity ≤ pipeline.trial.queue.length }

/-- The pipeline after an event.  A count that its tally cannot hold does not happen. -/
def step (pipeline : Pipeline) : Event → Pipeline
  | .count place units bytes due =>
    match pipeline.tallies[place]? with
    | none => pipeline
    | some tally =>
      match tally.add? units bytes due with
      | none => pipeline
      | some (samples, tally) =>
        { pipeline with
          counts := pipeline.counts ++ [(units, bytes)]
          tallies := pipeline.tallies.set place tally : Pipeline }.add samples
  | .flush place =>
    match pipeline.tallies[place]? with
    | none => pipeline
    | some tally =>
      { pipeline with tallies := pipeline.tallies.set place tally.flush.2 : Pipeline }.add
        tally.flush.1
  | .fail reason => pipeline.add [.failed reason]
  | .tick now => { pipeline with trial := pipeline.trial.tick now }
  | .publish now => pipeline.publish now
  | .receive =>
    { pipeline with
      trial := pipeline.trial.receive.2
      reported := pipeline.reported ++ pipeline.trial.receive.1.toList }
  | .drain =>
    { pipeline with
      trial := pipeline.trial.drain.2
      reported := pipeline.reported ++ pipeline.trial.drain.1 }
  | .finish => { pipeline with trial := pipeline.trial.finish.2 }

/-- The pipeline after some events. -/
def run (events : List Event) (pipeline : Pipeline) : Pipeline := events.foldl step pipeline

variable {pipeline : Pipeline} {reducer : Reducer} {counting : Counting}

/-- A count changes the trial by adding samples at most. -/
theorem step_count (pipeline : Pipeline) (place : ℕ) (units bytes : UInt64) (due : Bool) :
    ∃ counts tallies samples, pipeline.step (.count place units bytes due) =
      { pipeline with counts := counts, tallies := tallies : Pipeline }.add samples := by
  have hnothing : pipeline = pipeline.add [] := by rw [add, List.append_nil, List.foldl_nil]
  rw [step]
  split
  case h_1 => exact ⟨_, _, [], hnothing⟩
  case h_2 =>
    split
    case h_1 => exact ⟨_, _, [], hnothing⟩
    case h_2 => exact ⟨_, _, _, rfl⟩

/-- A flush changes the trial by adding samples at most. -/
theorem step_flush (pipeline : Pipeline) (place : ℕ) :
    ∃ tallies samples, pipeline.step (.flush place) =
      { pipeline with tallies := tallies : Pipeline }.add samples := by
  have hnothing : pipeline = pipeline.add [] := by rw [add, List.append_nil, List.foldl_nil]
  rw [step]
  split
  case h_1 => exact ⟨_, [], hnothing⟩
  case h_2 => exact ⟨_, _, rfl⟩

/-! ## Samples pass once -/

/-- What was taken and what is buffered is what was added, and every batch was reduced once. -/
structure Flows (reducer : Reducer) (pipeline : Pipeline) : Prop where
  reducer_eq : pipeline.trial.reducer = some reducer
  added_eq : pipeline.batches.flatMap Batch.samples ++ pipeline.trial.buffered = pipeline.added
  emitted_eq : pipeline.emitted = pipeline.batches.filterMap (Batch.reduce? reducer)

theorem Flows.add (hflows : pipeline.Flows reducer) (samples : List Outcome) :
    (pipeline.add samples).Flows reducer := by
  have htrial := Trial.foldl_add hflows.reducer_eq samples
  refine ⟨?_, ?_, hflows.emitted_eq⟩
  · rw [Pipeline.add, htrial]
    exact hflows.reducer_eq
  · rw [Pipeline.add, htrial, ← hflows.added_eq]
    exact (List.append_assoc ..).symm

theorem Flows.publish (hflows : pipeline.Flows reducer) (now : Instant) :
    (pipeline.publish now).Flows reducer := by
  obtain ⟨houtcome, hbuffered, hreducer, -⟩ := Trial.publish_spec hflows.reducer_eq now
  refine ⟨hreducer, ?_, ?_⟩
  · have hsamples := pipeline.trial.samples_batch? now
    rw [Pipeline.publish]
    dsimp only
    rw [hbuffered, List.flatMap_append, hsamples, List.append_nil, hflows.added_eq]
  · rw [Pipeline.publish]
    dsimp only
    rw [houtcome, List.filterMap_append, ← hflows.emitted_eq]
    cases pipeline.trial.batch? now with
    | none => rfl
    | some batch =>
        rw [Option.bind_some, Option.toList_some, List.filterMap_cons, List.filterMap_nil]
        cases batch.reduce? reducer <;> rfl

theorem Flows.step (hflows : pipeline.Flows reducer) (event : Event) :
    (pipeline.step event).Flows reducer := by
  obtain ⟨hreducer, hadded, hemitted⟩ := hflows
  cases event with
  | count place units bytes due =>
      obtain ⟨counts, tallies, samples, hstep⟩ := pipeline.step_count place units bytes due
      rw [hstep]
      apply Flows.add
      exact ⟨hreducer, hadded, hemitted⟩
  | flush place =>
      obtain ⟨tallies, samples, hstep⟩ := pipeline.step_flush place
      rw [hstep]
      apply Flows.add
      exact ⟨hreducer, hadded, hemitted⟩
  | fail reason => exact Flows.add ⟨hreducer, hadded, hemitted⟩ _
  | publish now => exact Flows.publish ⟨hreducer, hadded, hemitted⟩ now
  | receive =>
      obtain ⟨-, hbuffered, hsame, -⟩ := pipeline.trial.receive_spec
      exact ⟨hsame.trans hreducer, hbuffered.symm ▸ hadded, hemitted⟩
  | tick | drain | finish => exact ⟨hreducer, hadded, hemitted⟩

theorem flows_run (hflows : pipeline.Flows reducer) (events : List Event) :
    (run events pipeline).Flows reducer := by
  induction events generalizing pipeline with
  | nil => exact hflows
  | cons event events ih => exact ih (hflows.step event)

/-! ## Outcomes are reported once -/

/-- What is reported and what is queued is what was emitted, if the queue always had room. -/
structure Delivers (pipeline : Pipeline) : Prop where
  isClosed_eq : pipeline.trial.isClosed = false
  emitted_eq : pipeline.crowded = false →
    pipeline.reported ++ pipeline.trial.queue = pipeline.emitted

theorem Delivers.add (hdelivers : pipeline.Delivers)
    (hreducer : pipeline.trial.reducer = some reducer) (samples : List Outcome) :
    (pipeline.add samples).Delivers := by
  have htrial := Trial.foldl_add hreducer samples
  refine ⟨?_, fun hroom => ?_⟩
  · rw [Pipeline.add, htrial]
    exact hdelivers.isClosed_eq
  · rw [Pipeline.add, htrial]
    exact hdelivers.emitted_eq hroom

theorem Delivers.publish (hdelivers : pipeline.Delivers)
    (hreducer : pipeline.trial.reducer = some reducer) (now : Instant) :
    (pipeline.publish now).Delivers := by
  obtain ⟨-, -, -, hclosed⟩ := Trial.publish_spec hreducer now
  refine ⟨hclosed.trans hdelivers.isClosed_eq, fun hroom => ?_⟩
  have hcrowded : (pipeline.crowded || (pipeline.trial.publish now).1.outcome?.isSome &&
      Trial.queueCapacity ≤ pipeline.trial.queue.length) = false := hroom
  obtain ⟨hbefore, hnow⟩ := Bool.or_eq_false_iff.mp hcrowded
  have hfree : (pipeline.trial.publish now).1.outcome?.isSome →
      pipeline.trial.queue.length < Trial.queueCapacity := by
    intro hsome
    rw [hsome, Bool.true_and, decide_eq_false_iff_not] at hnow
    exact Nat.lt_of_not_le hnow
  have hqueue := Trial.queue_publish hdelivers.isClosed_eq now hfree
  rw [Pipeline.publish]
  dsimp only
  rw [hqueue, ← List.append_assoc, hdelivers.emitted_eq hbefore]

theorem Delivers.step (hdelivers : pipeline.Delivers) (hflows : pipeline.Flows reducer)
    (event : Event) : (pipeline.step event).Delivers := by
  have hreducer := hflows.reducer_eq
  obtain ⟨hclosed, hemitted⟩ := hdelivers
  cases event with
  | count place units bytes due =>
      obtain ⟨counts, tallies, samples, hstep⟩ := pipeline.step_count place units bytes due
      rw [hstep]
      apply Delivers.add
      · exact ⟨hclosed, hemitted⟩
      · exact hreducer
  | flush place =>
      obtain ⟨tallies, samples, hstep⟩ := pipeline.step_flush place
      rw [hstep]
      apply Delivers.add
      · exact ⟨hclosed, hemitted⟩
      · exact hreducer
  | fail reason => exact Delivers.add ⟨hclosed, hemitted⟩ hreducer _
  | publish now => exact Delivers.publish ⟨hclosed, hemitted⟩ hreducer now
  | receive =>
      obtain ⟨hqueue, -, -, hsame⟩ := pipeline.trial.receive_spec
      refine ⟨hsame.trans hclosed, fun hroom => ?_⟩
      rw [Pipeline.step]
      dsimp only
      rw [List.append_assoc, hqueue, hemitted hroom]
  | drain => exact ⟨hclosed, fun hroom => (List.append_nil _).trans (hemitted hroom)⟩
  | tick | finish => exact ⟨hclosed, hemitted⟩

theorem delivers_run (hdelivers : pipeline.Delivers) (hflows : pipeline.Flows reducer)
    (events : List Event) : (run events pipeline).Delivers := by
  induction events generalizing pipeline with
  | nil => exact hdelivers
  | cons event events ih => exact ih (hdelivers.step hflows event) (hflows.step event)

/-! ## Counts pass once -/

/-- What was counted was added or is still held by the tallies, all of which count in one way. -/
structure Balanced (counting : Counting) (pipeline : Pipeline) : Prop where
  counting_eq : ∀ tally ∈ pipeline.tallies, tally.counting = counting
  feeds : ∀ outcome ∈ pipeline.added, counting.Feeds outcome
  counted_eq : ∀ quantity : Quantity,
    quantity.total pipeline.added + quantity.pending pipeline.tallies =
      quantity.counted counting pipeline.counts

/-- A tally is replaced, and samples are added that move what it does not hold any more. -/
private theorem Balanced.replace (hbalanced : pipeline.Balanced counting) {place : ℕ}
    {tally next : Tally} (hplace : pipeline.tallies[place]? = some tally)
    (hcounting : next.counting = tally.counting) {samples : List Outcome}
    (hfeeds : ∀ outcome ∈ samples, tally.counting.Feeds outcome)
    {counts : List (UInt64 × UInt64)}
    (hmoved : ∀ quantity : Quantity,
      quantity.total samples + quantity.ofTally next + quantity.counted counting pipeline.counts =
        quantity.ofTally tally + quantity.counted counting counts) :
    ({ pipeline with
        counts := counts
        tallies := pipeline.tallies.set place next : Pipeline }.add samples).Balanced counting := by
  have hkind : tally.counting = counting :=
    hbalanced.counting_eq tally (List.mem_of_getElem? hplace)
  refine ⟨?_, ?_, ?_⟩
  · intro other hother
    rcases List.mem_or_eq_of_mem_set hother with hold | rfl
    · exact hbalanced.counting_eq other hold
    · exact hcounting.trans hkind
  · intro outcome houtcome
    rcases List.mem_append.mp houtcome with hold | hnew
    · exact hbalanced.feeds outcome hold
    · exact hkind ▸ hfeeds outcome hnew
  · intro quantity
    have hbefore := hbalanced.counted_eq quantity
    have hset := quantity.pending_set hplace next
    have hchange := hmoved quantity
    rw [Pipeline.add]
    dsimp only
    rw [Quantity.total_append]
    omega

theorem balanced_start (now : Instant) (measurement : Measurement) (peer : Endpoint)
    (request : Request) (interval : ℕ) (counting : Counting) (workers : ℕ) :
    (start now measurement peer request interval counting.reducer
      (List.replicate workers counting)).Balanced counting := by
  have hnew : ∀ tally : Tally,
      tally ∈ (List.replicate workers counting).map (fun kind => ({ counting := kind } : Tally)) →
      tally = { counting } := by
    intro tally htally
    obtain ⟨kind, hkind, rfl⟩ := List.mem_map.mp htally
    rw [List.eq_of_mem_replicate hkind]
  refine ⟨?_, fun _ hnone => absurd hnone List.not_mem_nil, fun quantity => ?_⟩
  · intro tally htally
    rw [hnew tally htally]
  · refine (Nat.zero_add _).trans (Quantity.pending_eq_zero ?_)
    intro tally htally
    rw [hnew tally htally]
    exact ⟨rfl, rfl⟩

theorem Balanced.step (hbalanced : pipeline.Balanced counting) (event : Event) :
    (pipeline.step event).Balanced counting := by
  obtain ⟨hcounting, hfeeds, hcounted⟩ := hbalanced
  cases event with
  | count place units bytes due =>
      rw [Pipeline.step]
      split
      case h_1 => exact ⟨hcounting, hfeeds, hcounted⟩
      case h_2 tally hplace =>
        split
        case h_1 => exact ⟨hcounting, hfeeds, hcounted⟩
        case h_2 samples next hadd =>
          obtain ⟨hkind, hsamples, hmoved⟩ := Transfer.Tally.add?_spec hadd
          refine Balanced.replace ⟨hcounting, hfeeds, hcounted⟩ hplace hkind hsamples ?_
          intro quantity
          have hcounts := quantity.counted_append_singleton counting pipeline.counts units bytes
          have hsame := hmoved quantity
          rw [hcounting tally (List.mem_of_getElem? hplace)] at hsame
          omega
  | flush place =>
      rw [Pipeline.step]
      split
      case h_1 => exact ⟨hcounting, hfeeds, hcounted⟩
      case h_2 tally hplace =>
        have hkind : tally.flush.2.counting = tally.counting := rfl
        refine Balanced.replace ⟨hcounting, hfeeds, hcounted⟩ hplace hkind tally.feeds_flush ?_
        intro quantity
        rw [Quantity.total_flush, Quantity.ofTally_flush, Nat.add_zero]
  | fail reason =>
      refine ⟨hcounting, ?_, fun quantity => ?_⟩
      · intro outcome houtcome
        rcases List.mem_append.mp houtcome with hold | hnew
        · exact hfeeds outcome hold
        · exact List.mem_singleton.mp hnew ▸ .failed reason
      · rw [Pipeline.step, Pipeline.add]
        dsimp only
        rw [Quantity.total_append, Quantity.total_cons, Quantity.ofReport_failed,
          Quantity.total_nil]
        exact hcounted quantity
  | tick | publish | receive | drain | finish => exact ⟨hcounting, hfeeds, hcounted⟩

theorem balanced_run (hbalanced : pipeline.Balanced counting) (events : List Event) :
    (run events pipeline).Balanced counting := by
  induction events generalizing pipeline with
  | nil => exact hbalanced
  | cons event events ih => exact ih (hbalanced.step event)

/-! ## From counts to the summary -/

/-- The samples of the batches that could not be reduced. -/
def lost (reducer : Reducer) (pipeline : Pipeline) : List Outcome :=
  pipeline.batches.flatMap (Batch.lost reducer)

/-- Batches are reduced with their totals, or lost. -/
private theorem total_batches {batches : List Batch}
    (hfed : ∀ batch ∈ batches, ∀ outcome ∈ batch.samples, counting.Feeds outcome)
    (quantity : Quantity) :
    quantity.total (batches.filterMap (Batch.reduce? counting.reducer)) +
        quantity.total (batches.flatMap (Batch.lost counting.reducer)) =
      quantity.total (batches.flatMap Batch.samples) := by
  induction batches with
  | nil => rfl
  | cons batch batches ih =>
      have hfirst := hfed batch (List.mem_cons_self ..)
      have hothers := ih fun other hother => hfed other (List.mem_cons_of_mem _ hother)
      rw [List.flatMap_cons, List.flatMap_cons, Quantity.total_append, Quantity.total_append,
        Batch.lost]
      cases hreduce : batch.reduce? counting.reducer with
      | none =>
          rw [List.filterMap_cons_none hreduce]
          dsimp only
          omega
      | some outcome =>
          have hsame := Quantity.total_eq_of_reduce? hfirst hreduce quantity
          rw [List.filterMap_cons_some hreduce, Quantity.total_cons, Quantity.total_nil]
          omega

/-- Whatever was counted was emitted or lost, or is buffered or held by the tallies. -/
theorem Balanced.total_emitted (hbalanced : pipeline.Balanced counting)
    (hflows : pipeline.Flows counting.reducer) (quantity : Quantity) :
    quantity.total pipeline.emitted + quantity.total (pipeline.lost counting.reducer) +
        quantity.total pipeline.trial.buffered + quantity.pending pipeline.tallies =
      quantity.counted counting pipeline.counts := by
  have hfed : ∀ batch ∈ pipeline.batches, ∀ outcome ∈ batch.samples, counting.Feeds outcome := by
    intro batch hbatch outcome houtcome
    apply hbalanced.feeds
    rw [← hflows.added_eq]
    exact List.mem_append_left _ (List.mem_flatMap.mpr ⟨batch, hbatch, houtcome⟩)
  have hbatches := total_batches hfed quantity
  have hadded := congrArg quantity.total hflows.added_eq
  have hcounted := hbalanced.counted_eq quantity
  rw [Quantity.total_append] at hadded
  rw [hflows.emitted_eq, lost]
  omega

/-- Nothing is lost as long as the counted totals fit. -/
theorem Balanced.lost_eq_nil (hbalanced : pipeline.Balanced counting)
    (hflows : pipeline.Flows counting.reducer)
    (hfits : ∀ quantity : Quantity, quantity.counted counting pipeline.counts < UInt64.size) :
    pipeline.lost counting.reducer = [] := by
  apply List.flatMap_eq_nil_iff.mpr
  intro batch hbatch
  -- the samples of one batch are among those added, so its totals fit as well
  obtain ⟨before, after, hsplit⟩ := List.append_of_mem hbatch
  have hadded := hflows.added_eq
  rw [hsplit, List.flatMap_append, List.flatMap_cons] at hadded
  have hfed : ∀ outcome ∈ batch.samples, counting.Feeds outcome := by
    intro outcome houtcome
    apply hbalanced.feeds
    rw [← hadded]
    simp only [List.mem_append]
    exact .inl (.inr (.inl houtcome))
  have hbatchFits : ∀ quantity : Quantity, quantity.total batch.samples < UInt64.size := by
    intro quantity
    have hcounted := hbalanced.counted_eq quantity
    have hlt := hfits quantity
    rw [← hadded] at hcounted
    simp only [Quantity.total_append] at hcounted
    omega
  obtain ⟨reduced, hreduced⟩ := Quantity.exists_reduce? hfed hbatchFits batch.seconds
  rw [Batch.lost, Batch.reduce?, hreduced]

/-- The last publication, with what is received behind it. -/
def closing (last : Instant) (deliveries : ℕ) : List Event :=
  .publish last :: (List.replicate deliveries .receive ++ [.drain])

theorem run_receive (pipeline : Pipeline) (deliveries : ℕ) :
    (run (List.replicate deliveries .receive) pipeline).trial.buffered = pipeline.trial.buffered ∧
      (run (List.replicate deliveries .receive) pipeline).tallies = pipeline.tallies ∧
      (run (List.replicate deliveries .receive) pipeline).counts = pipeline.counts := by
  induction deliveries generalizing pipeline with
  | zero => exact ⟨rfl, rfl, rfl⟩
  | succ deliveries ih =>
      obtain ⟨hbuffered, htallies, hcounts⟩ := ih (pipeline.step .receive)
      obtain ⟨-, hsame, -, -⟩ := pipeline.trial.receive_spec
      exact ⟨hbuffered.trans hsame, htallies, hcounts⟩

theorem run_closing (hflows : pipeline.Flows reducer) (last : Instant) (deliveries : ℕ) :
    (run (closing last deliveries) pipeline).trial.buffered = [] ∧
      (run (closing last deliveries) pipeline).trial.queue = [] ∧
      (run (closing last deliveries) pipeline).tallies = pipeline.tallies ∧
      (run (closing last deliveries) pipeline).counts = pipeline.counts := by
  obtain ⟨-, hempty, -, -⟩ := Trial.publish_spec hflows.reducer_eq last
  obtain ⟨hbuffered, htallies, hcounts⟩ := (pipeline.publish last).run_receive deliveries
  have hrun : run (closing last deliveries) pipeline =
      (run (List.replicate deliveries .receive) (pipeline.publish last)).step .drain := by
    rw [run, closing, List.foldl_cons, List.foldl_append, run]
    rfl
  rw [hrun]
  exact ⟨hbuffered.trans hempty, rfl, htallies, hcounts⟩

/-- With nothing on its way, the summary of what was reported tells what was counted. -/
theorem Balanced.exists_summary (hbalanced : pipeline.Balanced counting)
    (hflows : pipeline.Flows counting.reducer) (hdelivers : pipeline.Delivers)
    (hbuffered : pipeline.trial.buffered = []) (hqueue : pipeline.trial.queue = [])
    (hroom : pipeline.crowded = false)
    (hflushed : ∀ tally ∈ pipeline.tallies, tally.units = 0 ∧ tally.bytes = 0)
    (hfits : ∀ quantity : Quantity, quantity.counted counting pipeline.counts < UInt64.size)
    (duration : Span) (workers : ℕ) :
    ∃ summary, Summary.ofOutcomes? pipeline.reported duration workers = some summary ∧
      ∀ quantity : Quantity,
        quantity.ofSummary summary = quantity.counted counting pipeline.counts := by
  -- nothing is queued, so what was reported is what was emitted
  have hemitted : pipeline.reported = pipeline.emitted := by
    rw [← hdelivers.emitted_eq hroom, hqueue, List.append_nil]
  have htotal : ∀ quantity : Quantity,
      quantity.total pipeline.reported = quantity.counted counting pipeline.counts := by
    intro quantity
    have haccount := hbalanced.total_emitted hflows quantity
    rw [hbalanced.lost_eq_nil hflows hfits, hbuffered, Quantity.pending_eq_zero hflushed,
      Quantity.total_nil] at haccount
    rw [hemitted]
    omega
  obtain ⟨summary, hsummary, -, -, htells⟩ :=
    Summary.exists_ofOutcomes? (fun quantity => htotal quantity ▸ hfits quantity) duration workers
  exact ⟨summary, hsummary, fun quantity => (htells quantity).trans (htotal quantity)⟩

/-- At any time, the batches that were taken and the buffer are the added samples in their order,
and what was emitted is what these batches were reduced to.

If the reducer belongs to the tallies, whatever was counted was emitted or lost, or is buffered or
held by the tallies, and nothing is lost as long as the counted totals fit 64 bits.  Then a last
publication after the tallies were flushed, and the deliveries behind it, bring all that was counted
to the summary, if no emission met a full queue. -/
theorem exactlyOnce_run (now : Instant) (measurement : Measurement) (peer : Endpoint)
    (request : Request) (interval : ℕ) :
    (∀ (reducer : Reducer) (countings : List Counting) (events : List Event),
      let pipeline := run events (start now measurement peer request interval reducer countings)
      pipeline.batches.flatMap Batch.samples ++ pipeline.trial.buffered = pipeline.added ∧
        pipeline.emitted = pipeline.batches.filterMap (Batch.reduce? reducer)) ∧
    ∀ (counting : Counting) (workers : ℕ) (events : List Event),
      let pipeline := run events (start now measurement peer request interval counting.reducer
        (List.replicate workers counting))
      (∀ quantity : Quantity,
        quantity.total pipeline.emitted + quantity.total (pipeline.lost counting.reducer) +
            quantity.total pipeline.trial.buffered + quantity.pending pipeline.tallies =
          quantity.counted counting pipeline.counts) ∧
      ((∀ quantity : Quantity, quantity.counted counting pipeline.counts < UInt64.size) →
        pipeline.lost counting.reducer = [] ∧
        ∀ (last : Instant) (deliveries : ℕ) (duration : Span) (left : ℕ),
          let ended := run (closing last deliveries) pipeline
          (∀ tally ∈ pipeline.tallies, tally.units = 0 ∧ tally.bytes = 0) →
          ended.crowded = false →
          ∃ summary, Summary.ofOutcomes? ended.reported duration left = some summary ∧
            ∀ quantity : Quantity,
              quantity.ofSummary summary = quantity.counted counting pipeline.counts) := by
  have hstart : ∀ (reducer : Reducer) (countings : List Counting),
      (start now measurement peer request interval reducer countings).Flows reducer :=
    fun _ _ => ⟨rfl, rfl, rfl⟩
  constructor
  · intro reducer countings events pipeline
    have hflows := flows_run (hstart reducer countings) events
    exact ⟨hflows.added_eq, hflows.emitted_eq⟩
  · intro counting workers events pipeline
    have hflows : pipeline.Flows counting.reducer := flows_run (hstart _ _) events
    have hbalanced : pipeline.Balanced counting := balanced_run (balanced_start ..) events
    refine ⟨hbalanced.total_emitted hflows, fun hfits => ⟨hbalanced.lost_eq_nil hflows hfits, ?_⟩⟩
    intro last deliveries duration left ended hflushed hroom
    have hdelivers : pipeline.Delivers :=
      delivers_run ⟨rfl, fun _ => rfl⟩ (hstart counting.reducer _) events
    obtain ⟨hbuffered, hqueue, htallies, hcounts⟩ := run_closing hflows last deliveries
    have hended := (balanced_run hbalanced (closing last deliveries)).exists_summary
      (flows_run hflows _) (delivers_run hdelivers hflows _) hbuffered hqueue hroom
    rw [htallies, hcounts] at hended
    exact hended hflushed hfits duration left

/-- Two tallies count five and seven bytes around a batch of one failure. -/
theorem exactlyOnce_run_twelve :
    let events : List Event :=
      [.count 0 0 5 false, .fail "refused", .publish 10, .count 1 0 7 true, .receive, .flush 0,
        .finish]
    let pipeline := run events
      (start 0 ⟨.tcp, .bandwidth⟩ default default 1_000_000_000 .bandwidth [.bytes, .bytes])
    let ended := run (closing 2_000_000_000 1) pipeline
    ended.emitted = [.failed "refused", .ok (.bandwidth 12 96)] ∧
    ∃ summary, Summary.ofOutcomes? ended.reported (Span.ofSeconds 2) 2 = some summary ∧
      Quantity.bytes.ofSummary summary = 12 := by
  intro events pipeline ended
  obtain ⟨-, hpassed⟩ := exactlyOnce_run 0 ⟨.tcp, .bandwidth⟩ default default 1_000_000_000
  have hfits : ∀ quantity : Quantity,
      quantity.counted .bytes pipeline.counts < UInt64.size := by
    intro quantity
    cases quantity <;> decide
  have hflushed : ∀ tally ∈ pipeline.tallies, tally.units = 0 ∧ tally.bytes = 0 := by decide
  obtain ⟨-, hclosing⟩ := (hpassed .bytes 2 events).2 hfits
  obtain ⟨summary, hsummary, htells⟩ :=
    hclosing 2_000_000_000 1 (Span.ofSeconds 2) 2 hflushed (by decide)
  exact ⟨by decide, summary, hsummary, htells .bytes⟩

end Pipeline

end LinkMeter
