import LinkMeter.Client.Work
import LinkMeter.Proofs.Wire.Handshake

/-!
# Which round trips are reported

`Transfer.Completes` says how many round trips complete on a stream and what ends
them.  It follows the stream and the signal to stop alone: it knows of no batch,
and treats the round trips that warm the connection up like the others.

All round trips after those are measured, and they go into batches in their order
(`Measured.Filled`).  A measurement that is told to stop reports every one of
them; one whose stream fails reports those of the full batches and no other
(`Client.reported_latencyWork`).
-/

namespace LinkMeter

open Wire

namespace Transfer

/-! ## Round trips on a stream -/

/-- What ends a sequence of round trips. -/
inductive Halt where
  /-- The signal to stop, which may come while a round trip is on its way. -/
  | stopped
  | failed (fault : IoFault)
  deriving DecidableEq

namespace Halt

def fault? : Halt → Option IoFault
  | stopped => none
  | failed fault => some fault

end Halt

namespace RoundTripPlan

/-- Whether there is a pause after a round trip. -/
def pausesAfter (plan : RoundTripPlan) (round : ℕ) : Bool :=
  plan.pauses && decide (plan.warmup ≤ round)

end RoundTripPlan

section Course

variable (chance : Chance) (plan : RoundTripPlan)

/-- A sink in front of a round trip. -/
def sinkBefore (round : ℕ) (sink : Sink) : Sink := sink.tell (chance.toldBefore round)

/-- A sink behind a round trip and the pause that may follow. -/
def sinkAfter (round : ℕ) (sink : Sink) : Sink :=
  sink.tell (plan.pausesAfter round && chance.toldAfter round)

/-- Whether the signal to stop is followed in front of a round trip. -/
def haltsBefore (round : ℕ) (sink : Sink) : Bool :=
  (sinkBefore chance round sink).stopped && chance.stopBefore round

/-- Whether the signal to stop is followed in the pause behind a round trip. -/
def haltsAfter (round : ℕ) (sink : Sink) : Bool :=
  plan.pausesAfter round && (sinkAfter chance plan round sink).stopped && chance.stopAfter round

/-- From a round on, so many round trips complete, and then something ends them. -/
inductive Completes : ℕ → Source → Sink → ℕ → Halt → Prop where
  | stopBefore {round : ℕ} {source : Source} {sink : Sink}
      (hhalts : haltsBefore chance round sink = true) : Completes round source sink 0 .stopped
  /-- The round trip does not come back, until the measurement is told to stop. -/
  | silent {round : ℕ} {source rest : Source} {sink after : Sink}
      (hgoes : haltsBefore chance round sink = false)
      (hexchange : exchange plan.messageSize source (sinkBefore chance round sink) =
        (.waiting, rest, after)) :
      Completes round source sink 0 .stopped
  | failed {round : ℕ} {source rest : Source} {sink after : Sink} {fault : IoFault}
      (hgoes : haltsBefore chance round sink = false)
      (hexchange : exchange plan.messageSize source (sinkBefore chance round sink) =
        (.failed fault, rest, after)) :
      Completes round source sink 0 (.failed fault)
  | stopAfter {round : ℕ} {source rest : Source} {sink after : Sink}
      (hgoes : haltsBefore chance round sink = false)
      (hexchange : exchange plan.messageSize source (sinkBefore chance round sink) =
        (.done (), rest, after))
      (hhalts : haltsAfter chance plan round after = true) :
      Completes round source sink 1 .stopped
  | next {round count : ℕ} {source rest : Source} {sink after : Sink} {halt : Halt}
      (hgoes : haltsBefore chance round sink = false)
      (hexchange : exchange plan.messageSize source (sinkBefore chance round sink) =
        (.done (), rest, after))
      (hon : haltsAfter chance plan round after = false)
      (hlater : Completes (round + 1) rest (sinkAfter chance plan round after) count halt) :
      Completes round source sink (count + 1) halt

variable {chance plan}

/-- Round trips come to an end on every stream, since each takes something away from it. -/
theorem exists_completes (hsize : 0 < plan.messageSize) (round : ℕ) (source : Source)
    (sink : Sink) : ∃ count halt, Completes chance plan round source sink count halt := by
  generalize hleft : source.size = left
  induction left using Nat.strongRecOn generalizing round source sink with
  | ind left ih =>
    cases hgoes : haltsBefore chance round sink with
    | true => exact ⟨0, .stopped, .stopBefore hgoes⟩
    | false =>
      rcases hexchange : exchange plan.messageSize source (sinkBefore chance round sink) with
        ⟨_ | fault | _, rest, after⟩
      · cases hon : haltsAfter chance plan round after with
        | true => exact ⟨1, .stopped, .stopAfter hgoes hexchange hon⟩
        | false =>
          have hlt : rest.size < left := hleft ▸ size_lt_of_exchange hsize hexchange
          obtain ⟨count, halt, hlater⟩ :=
            ih rest.size hlt (round + 1) rest (sinkAfter chance plan round after) rfl
          exact ⟨count + 1, halt, .next hgoes hexchange hon hlater⟩
      · exact ⟨0, .failed fault, .failed hgoes hexchange⟩
      · exact ⟨0, .stopped, .silent hgoes hexchange⟩

end Course

/-! ## Measuring them -/

namespace Measured

/-- Measures some more round trips. -/
def recordEach (batchSize : ℕ) (lasting : ℕ → Span) : ℕ → Measured → Measured
  | 0, measured => measured
  | count + 1, measured =>
    recordEach batchSize lasting count
      (measured.record batchSize (lasting measured.roundTrips.length))

/-- Ends a measurement. -/
def conclude (measured : Measured) : Halt → Measured
  | .stopped => measured.finish
  | .failed fault => measured.fail fault

end Measured

section Measuring

variable {chance : Chance} {plan : RoundTripPlan} {round count : ℕ} {source : Source}
  {sink : Sink} {halt : Halt}

/-- Past the warm-up, all round trips that complete are measured. -/
theorem measureFrom_of_completes (lasting : ℕ → Span) (hsize : 0 < plan.messageSize)
    (hwarm : plan.warmup ≤ round)
    (hcompletes : Completes chance plan round source sink count halt) (measured : Measured) :
    measureFrom chance plan lasting round source sink measured =
      (measured.recordEach plan.batchSize lasting count).conclude halt := by
  have hpauses : ∀ {round}, plan.warmup ≤ round → plan.pausesAfter round = plan.pauses := by
    intro round hwarm
    rw [RoundTripPlan.pausesAfter, decide_eq_true hwarm, Bool.and_true]
  induction hcompletes generalizing measured with
  | stopBefore hhalts =>
      rw [measureFrom, dif_neg (Nat.ne_of_gt hsize)]
      exact if_pos hhalts
  | silent hgoes hexchange =>
      rw [measureFrom, dif_neg (Nat.ne_of_gt hsize)]
      refine (if_neg (Bool.not_eq_true _ ▸ hgoes)).trans ?_
      split
      case h_1 heq => cases hexchange.symm.trans heq
      case h_2 heq => rfl
      case h_3 heq => cases hexchange.symm.trans heq
  | failed hgoes hexchange =>
      rw [measureFrom, dif_neg (Nat.ne_of_gt hsize)]
      refine (if_neg (Bool.not_eq_true _ ▸ hgoes)).trans ?_
      split
      case h_1 heq =>
        cases hexchange.symm.trans heq
        rfl
      case h_2 heq => cases hexchange.symm.trans heq
      case h_3 heq => cases hexchange.symm.trans heq
  | stopAfter hgoes hexchange hhalts =>
      rw [measureFrom, dif_neg (Nat.ne_of_gt hsize)]
      refine (if_neg (Bool.not_eq_true _ ▸ hgoes)).trans ?_
      rw [haltsAfter, sinkAfter, hpauses hwarm] at hhalts
      split
      case h_1 heq => cases hexchange.symm.trans heq
      case h_2 heq => cases hexchange.symm.trans heq
      case h_3 heq =>
        cases hexchange.symm.trans heq
        exact if_pos hhalts
  | next hgoes hexchange hon hlater ih =>
      rw [measureFrom, dif_neg (Nat.ne_of_gt hsize)]
      refine (if_neg (Bool.not_eq_true _ ▸ hgoes)).trans ?_
      rw [haltsAfter, sinkAfter, hpauses hwarm] at hon
      rw [sinkAfter, hpauses hwarm] at ih
      split
      case h_1 heq => cases hexchange.symm.trans heq
      case h_2 heq => cases hexchange.symm.trans heq
      case h_3 heq =>
        cases hexchange.symm.trans heq
        exact (if_neg (Bool.not_eq_true _ ▸ hon)).trans (ih (Nat.le_succ_of_le hwarm) _)

theorem tell_false (sink : Sink) : sink.tell false = sink := by
  rw [Sink.tell, Bool.or_false]

/-- The warm-up takes the round trips that it needs, or it ends as the round trips do. -/
theorem warmUp_of_completes {left : ℕ} (hleft : round + left = plan.warmup)
    (hcompletes : Completes chance plan round source sink count halt) :
    (count < left ∧
        warmUp chance plan.messageSize left round source sink = .error halt.fault?) ∨
      left ≤ count ∧ ∃ rest after,
        warmUp chance plan.messageSize left round source sink = .ok (rest, after) ∧
          Completes chance plan plan.warmup rest after (count - left) halt := by
  induction left generalizing round source sink count with
  | zero =>
      rw [Nat.add_zero] at hleft
      exact .inr ⟨Nat.zero_le _, source, sink, rfl, hleft ▸ hcompletes⟩
  | succ left ih =>
      -- there is no pause during the warm-up, so nothing ends it between two round trips
      have hpauses : plan.pausesAfter round = false := by
        rw [RoundTripPlan.pausesAfter, decide_eq_false (by omega), Bool.and_false]
      cases hcompletes with
      | stopBefore hhalts =>
          left
          exact ⟨Nat.succ_pos _, by rw [warmUp]; exact if_pos hhalts⟩
      | silent hgoes hexchange =>
          left
          refine ⟨Nat.succ_pos _, ?_⟩
          rw [warmUp]
          refine (if_neg (Bool.not_eq_true _ ▸ hgoes)).trans ?_
          rw [← sinkBefore, hexchange]
          rfl
      | failed hgoes hexchange =>
          left
          refine ⟨Nat.succ_pos _, ?_⟩
          rw [warmUp]
          refine (if_neg (Bool.not_eq_true _ ▸ hgoes)).trans ?_
          rw [← sinkBefore, hexchange]
          rfl
      | stopAfter hgoes hexchange hhalts =>
          rw [haltsAfter, hpauses] at hhalts
          exact absurd hhalts (by simp)
      | @next _ count _ rest _ after _ hgoes hexchange hon hlater =>
          have hon : warmUp chance plan.messageSize (left + 1) round source sink =
              warmUp chance plan.messageSize left (round + 1) rest after := by
            rw [warmUp]
            refine (if_neg (Bool.not_eq_true _ ▸ hgoes)).trans ?_
            rw [← sinkBefore, hexchange]
          rw [sinkAfter, hpauses, Bool.false_and, tell_false] at hlater
          rw [hon, Nat.add_lt_add_iff_right, Nat.add_le_add_iff_right, Nat.add_sub_add_right]
          exact ih (by omega) hlater

/-- A measurement measures the round trips that complete past the warm-up. -/
theorem measure_of_completes (lasting : ℕ → Span) (hsize : 0 < plan.messageSize)
    (hcompletes : Completes chance plan 0 source sink count halt) :
    measure chance plan lasting source sink =
      (({} : Measured).recordEach plan.batchSize lasting (count - plan.warmup)).conclude halt := by
  rcases warmUp_of_completes (Nat.zero_add _) hcompletes with
      ⟨hshort, hwarm⟩ | ⟨-, rest, after, hwarm, hlater⟩
  · rw [measure, hwarm, Nat.sub_eq_zero_of_le (Nat.le_of_lt hshort)]
    cases halt <;> rfl
  · rw [measure, hwarm]
    exact measureFrom_of_completes lasting hsize (Nat.le_refl _) hlater {}

end Measuring

/-! ## Batches -/

namespace Measured

variable {measured : Measured} {batchSize : ℕ} {batches : List (List Span)}

/-- The measured round trips fill batches of one size in their order, and those that are left fill
no other. -/
structure Filled (batchSize : ℕ) (batches : List (List Span)) (measured : Measured) : Prop where
  samples_eq : measured.samples = batches.map Outcome.roundTrips
  full : ∀ batch ∈ batches, batch.length = batchSize
  flatten_eq : batches.flatten ++ measured.unfinished = measured.roundTrips
  short : measured.unfinished.length < batchSize
  fault_eq : measured.fault = none

theorem Filled.record (hfilled : measured.Filled batchSize batches) (roundTrip : Span) :
    ∃ batches, (measured.record batchSize roundTrip).Filled batchSize batches := by
  have hshort := hfilled.short
  rw [Measured.record]
  dsimp only
  split
  case isTrue hfull =>
    refine ⟨batches ++ [measured.unfinished ++ [roundTrip]], ?_, ?_, ?_, ?_, hfilled.fault_eq⟩
    · rw [List.map_append, hfilled.samples_eq]
      rfl
    · intro batch hbatch
      rcases List.mem_append.1 hbatch with hold | hnew
      · exact hfilled.full batch hold
      · rw [List.mem_singleton.1 hnew, hfull]
    · rw [List.append_nil, List.flatten_append, List.flatten_singleton, ← List.append_assoc,
        hfilled.flatten_eq]
    · exact Nat.zero_lt_of_lt hshort
  case isFalse hpartly =>
    refine ⟨batches, hfilled.samples_eq, hfilled.full, ?_, ?_, hfilled.fault_eq⟩
    · rw [← List.append_assoc, hfilled.flatten_eq]
    · rw [List.length_append, List.length_singleton] at hpartly ⊢
      omega

theorem roundTrips_record (measured : Measured) (batchSize : ℕ) (roundTrip : Span) :
    (measured.record batchSize roundTrip).roundTrips = measured.roundTrips ++ [roundTrip] := by
  rw [Measured.record]
  dsimp only
  split <;> rfl

theorem Filled.recordEach (hfilled : measured.Filled batchSize batches) (lasting : ℕ → Span)
    (count : ℕ) :
    ∃ batches, (measured.recordEach batchSize lasting count).Filled batchSize batches := by
  induction count generalizing measured batches with
  | zero => exact ⟨batches, hfilled⟩
  | succ count ih =>
      obtain ⟨more, hmore⟩ := hfilled.record (lasting measured.roundTrips.length)
      exact ih hmore

/-- Round trips are measured one after the other. -/
theorem roundTrips_recordEach {place : ℕ} {lasting : ℕ → Span}
    (hmeasured : measured.roundTrips = (List.range place).map lasting) (count : ℕ) :
    (measured.recordEach batchSize lasting count).roundTrips =
      (List.range (place + count)).map lasting := by
  induction count generalizing measured place with
  | zero => exact hmeasured
  | succ count ih =>
      have hnext : (measured.record batchSize (lasting measured.roundTrips.length)).roundTrips =
          (List.range (place + 1)).map lasting := by
        rw [roundTrips_record, hmeasured, List.length_map, List.length_range, List.range_succ,
          List.map_append, List.map_singleton]
      rw [Measured.recordEach, ih hnext, Nat.add_right_comm, Nat.add_assoc]

/-- The full batches have the largest multiple of their size. -/
theorem Filled.flatten_eq_take (hfilled : measured.Filled batchSize batches) :
    batches.flatten =
      measured.roundTrips.take (measured.roundTrips.length / batchSize * batchSize) := by
  have hlength : batches.flatten.length = batches.length * batchSize := by
    rw [List.length_flatten, List.map_congr_left hfilled.full, List.map_const',
      List.sum_replicate_nat]
  have hcount : measured.roundTrips.length / batchSize = batches.length := by
    rw [← hfilled.flatten_eq, List.length_append, hlength, Nat.add_comm,
      Nat.add_mul_div_right _ _ (Nat.zero_lt_of_lt hfilled.short),
      Nat.div_eq_of_lt hfilled.short, Nat.zero_add]
  rw [hcount, ← hlength, ← hfilled.flatten_eq, List.take_left']
  rfl

/-- Every batch but the last one has one size, and no batch is larger. -/
def Even (batchSize : ℕ) (batches : List (List Span)) : Prop :=
  (∀ batch ∈ batches.dropLast, batch.length = batchSize) ∧
    ∀ batch ∈ batches, 0 < batch.length ∧ batch.length ≤ batchSize

theorem Filled.even (hfilled : measured.Filled batchSize batches) : Even batchSize batches := by
  constructor
  · exact fun batch hbatch => hfilled.full batch ((List.dropLast_sublist _).subset hbatch)
  · intro batch hbatch
    rw [hfilled.full batch hbatch]
    exact ⟨Nat.zero_lt_of_lt hfilled.short, Nat.le_refl _⟩

theorem Filled.even_append (hfilled : measured.Filled batchSize batches)
    (hsome : measured.unfinished ≠ []) : Even batchSize (batches ++ [measured.unfinished]) := by
  constructor
  · rw [List.dropLast_concat]
    exact hfilled.full
  · intro batch hbatch
    rcases List.mem_append.1 hbatch with hold | hnew
    · exact hfilled.even.2 batch hold
    · rw [List.mem_singleton.1 hnew]
      exact ⟨List.length_pos_iff.2 hsome, Nat.le_of_lt hfilled.short⟩

/-- The round trips that are handed over: all of them at a signal to stop, and those of the full
batches if the stream fails. -/
theorem Filled.conclude (hfilled : measured.Filled batchSize batches) (halt : Halt) :
    (measured.conclude halt).fault = halt.fault? ∧
      ∃ batches, (measured.conclude halt).samples = batches.map Outcome.roundTrips ∧
        Even batchSize batches ∧
        (halt = .stopped → batches.flatten = measured.roundTrips) ∧
        ∀ fault, halt = .failed fault → batches.flatten =
          measured.roundTrips.take (measured.roundTrips.length / batchSize * batchSize) := by
  cases halt with
  | failed fault =>
      exact ⟨rfl, batches, hfilled.samples_eq, hfilled.even, (fun h => by cases h),
        fun _ _ => hfilled.flatten_eq_take⟩
  | stopped =>
      rw [Measured.conclude, Measured.finish]
      split
      case isTrue hnone =>
        refine ⟨hfilled.fault_eq, batches, hfilled.samples_eq, hfilled.even, fun _ => ?_,
          fun _ h => by cases h⟩
        rw [← hfilled.flatten_eq, List.isEmpty_iff.1 hnone, List.append_nil]
      case isFalse hsome =>
        refine ⟨hfilled.fault_eq, batches ++ [measured.unfinished], ?_,
          hfilled.even_append fun h => hsome (List.isEmpty_iff.2 h), fun _ => ?_,
          fun _ h => by cases h⟩
        · rw [List.map_append, hfilled.samples_eq]
          rfl
        · rw [List.flatten_append, List.flatten_singleton, hfilled.flatten_eq]

end Measured

end Transfer

namespace Client

open Transfer

/-- The round trips that a worker adds to its trial, once its handshake is done.  After the ones
that warm the connection up it measures all others, and adds them in batches of the size that was
asked for.  If it is told to stop, it adds all of them, the last ones in a smaller batch.  If its
stream fails, it adds the full batches, and the measured round trips behind them are lost. -/
theorem reported_latencyWork (trial : Trial) (connection : Connection) {source : Source}
    {sink : Sink}
    (hshaken : clientHandshake trial.measurement trial.request connection.source
      connection.sink = (.done (), source, sink)) :
    let plan := RoundTripPlan.ofRequest trial.request
    let batchSize := max 1 trial.request.roundTrips.toNat
    let work := latencyWork trial (.ok connection)
    (∃ count halt, Completes connection.chance plan 0 source sink count halt) ∧
    ∀ count halt, Completes connection.chance plan 0 source sink count halt →
      let measured := count - trial.request.warmup.toNat
      ∃ batches : List (List Span),
        work.deeds = batches.map (fun batch => .add (.roundTrips batch)) ∧
        (∀ batch ∈ batches.dropLast, batch.length = batchSize) ∧
        (∀ batch ∈ batches, 0 < batch.length ∧ batch.length ≤ batchSize) ∧
        (halt = .stopped → work.parting = .returns ∧
          batches.flatten = (List.range measured).map connection.lasting) ∧
        ∀ fault, halt = .failed fault → work.parting = .fails (.io fault) ∧
          batches.flatten =
            (List.range (measured / batchSize * batchSize)).map connection.lasting := by
  intro plan batchSize work
  have hsize : 0 < plan.messageSize := Nat.lt_of_lt_of_le Nat.one_pos (Nat.le_max_left _ _)
  have hpos : 0 < batchSize := Nat.lt_of_lt_of_le Nat.one_pos (Nat.le_max_left _ _)
  have hnew : ({} : Measured).Filled batchSize [] :=
    ⟨rfl, fun _ h => absurd h List.not_mem_nil, rfl, hpos, rfl⟩
  constructor
  · exact exists_completes hsize 0 source sink
  intro count halt hcompletes measured
  let recorded := ({} : Measured).recordEach batchSize connection.lasting measured
  have hroundTrips : recorded.roundTrips = (List.range measured).map connection.lasting := by
    have hfirst : ({} : Measured).roundTrips = (List.range 0).map connection.lasting := rfl
    exact (Measured.roundTrips_recordEach hfirst measured).trans (by rw [Nat.zero_add])
  have hwork : work = .adding (recorded.conclude halt).samples (recorded.conclude halt).fault := by
    show afterHandshake _ _ _ = _
    rw [afterHandshake, hshaken]
    dsimp only
    rw [measure_of_completes connection.lasting hsize hcompletes]
    rfl
  obtain ⟨full, hfilled⟩ := hnew.recordEach connection.lasting measured
  obtain ⟨hfault, batches, hsamples, heven, hstopped, hfailed⟩ := hfilled.conclude halt
  rw [hfault, hsamples] at hwork
  refine ⟨batches, ?_, heven.1, heven.2, ?_, ?_⟩
  · rw [hwork]
    exact List.map_map
  · rintro rfl
    exact ⟨by rw [hwork]; rfl, (hstopped rfl).trans hroundTrips⟩
  · rintro fault rfl
    refine ⟨by rw [hwork]; rfl, (hfailed fault rfl).trans ?_⟩
    show recorded.roundTrips.take (recorded.roundTrips.length / batchSize * batchSize) = _
    rw [hroundTrips, List.length_map, List.length_range, ← List.map_take, List.take_range,
      Nat.min_eq_left (Nat.div_mul_le_self _ _)]

/-- Three measured round trips in batches of two, after which the peer falls silent. -/
theorem reported_latencyWork_three :
    let request : Request := { bufferSize := 4, warmup := 1, roundTrips := 2 }
    let trial := Trial.start 0 .tcpLatency ⟨.loopback, 8888, 0⟩ request (some .latency) 0
    let source : Source := [.chunk (List.replicate 16 0), .silence]
    let sink : Sink := { written := (asking .tcpLatency request).framed }
    let connection : Connection :=
      { source := .chunk acceptance.framed :: source
        lasting := fun place => Span.ofSeconds (UInt64.ofNat place) }
    clientHandshake trial.measurement trial.request connection.source connection.sink =
      (.done (), source, sink) ∧
    Completes .still (RoundTripPlan.ofRequest request) 0 source sink 4 .stopped ∧
    ∃ batches : List (List Span),
      (latencyWork trial (.ok connection)).deeds =
        batches.map (fun batch => .add (.roundTrips batch)) ∧
      (∀ batch ∈ batches.dropLast, batch.length = 2) ∧
      batches.flatten = [Span.ofSeconds 0, Span.ofSeconds 1, Span.ofSeconds 2] := by
  intro request trial source sink connection
  have hshaken : clientHandshake trial.measurement trial.request connection.source
      connection.sink = (.done (), source, sink) := rfl
  have hcompletes :
      Completes .still (RoundTripPlan.ofRequest request) 0 source sink 4 .stopped := by
    refine .next rfl rfl rfl (.next rfl rfl rfl (.next rfl rfl rfl (.next rfl rfl rfl ?_)))
    exact .silent rfl rfl
  obtain ⟨-, hreports⟩ := reported_latencyWork trial connection hshaken
  obtain ⟨batches, hdeeds, hfull, -, hstopped, -⟩ := hreports 4 .stopped hcompletes
  exact ⟨hshaken, hcompletes, batches, hdeeds, hfull, (hstopped rfl).2⟩

/-- Two round trips are measured before the peer closes the connection, and neither is reported:
they fill no batch. -/
theorem unreported_latencyWork :
    let request : Request := { bufferSize := 4, warmup := 1, roundTrips := 5 }
    let trial := Trial.start 0 .tcpLatency ⟨.loopback, 8888, 0⟩ request (some .latency) 0
    let source : Source := [.chunk (List.replicate 12 0)]
    let sink : Sink := { written := (asking .tcpLatency request).framed }
    let connection : Connection :=
      { source := .chunk acceptance.framed :: source
        lasting := fun place => Span.ofSeconds (UInt64.ofNat place) }
    clientHandshake trial.measurement trial.request connection.source connection.sink =
      (.done (), source, sink) ∧
    Completes .still (RoundTripPlan.ofRequest request) 0 source sink (1 + 2)
      (.failed .endedEarly) ∧
    (latencyWork trial (.ok connection)).deeds = [] ∧
    ¬ ∃ batches : List (List Span),
      (latencyWork trial (.ok connection)).deeds =
        batches.map (fun batch => .add (.roundTrips batch)) ∧
      batches.flatten = (List.range 2).map connection.lasting := by
  intro request trial source sink connection
  have hshaken : clientHandshake trial.measurement trial.request connection.source
      connection.sink = (.done (), source, sink) := rfl
  have hcompletes : Completes .still (RoundTripPlan.ofRequest request) 0 source sink (1 + 2)
      (.failed .endedEarly) :=
    .next rfl rfl rfl (.next rfl rfl rfl (.next rfl rfl rfl (.failed rfl rfl)))
  have hnone : (latencyWork trial (.ok connection)).deeds = [] := by
    show (afterHandshake _ _ _).deeds = _
    rw [afterHandshake, hshaken]
    dsimp only
    have hmeasure := measure_of_completes connection.lasting (show 0 < 4 by decide) hcompletes
    exact congrArg (fun measured => (Work.adding measured.samples measured.fault).deeds) hmeasure
  refine ⟨hshaken, hcompletes, hnone, ?_⟩
  rintro ⟨batches, hdeeds, hflatten⟩
  rw [hnone] at hdeeds
  obtain rfl := List.map_eq_nil_iff.1 hdeeds.symm
  cases hflatten

end Client

end LinkMeter
