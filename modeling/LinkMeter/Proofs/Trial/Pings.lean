import LinkMeter.Proofs.Latency.Percentiles
import LinkMeter.Proofs.Trial.Outlet
import Mathlib.Data.List.ReduceOption

/-!
# Pings in batches

A ping is one sample, whether it was answered or lost, and failures may stand
between pings.  A batch with a ping is reduced to one count of all its pings
(`Ping.reduce?_cases`); a batch of failures alone is reduced to its first failure,
and holds no ping.

So however publications cut the pings of a trial, each published count tells one
segment of them (`Ping.Tells`), and the segments with what is still buffered are
all pings in their order (`Trial.exists_segments_published`).
-/

namespace LinkMeter

namespace Ping

/-- What one ping counts. -/
def countOf : Option Span → PingCount
  | some roundTrip => { sent := 1, received := 1, roundTrips := [roundTrip] }
  | none => { sent := 1, lost := 1 }

/-- The pings in a batch: for each its round trip, or nothing if it was lost. -/
def attemptsOf (batch : List Outcome) : List (Option Span) :=
  (Reducer.pingCounts batch).map fun count => count.roundTrips.head?

/-- A sample of a trial that pings: a ping or a failure. -/
def IsSample (outcome : Outcome) : Prop :=
  (∃ attempt, outcome = .pingAttempt attempt) ∨ ∃ reason, outcome = .failed reason

/-- What a count says of the pings that it counts. -/
structure Tells (attempts : List (Option Span)) (count : PingCount) : Prop where
  sent_eq : count.sent.toNat = attempts.length
  received_eq : count.received.toNat = attempts.reduceOption.length
  lost_eq : count.lost.toNat = attempts.countP (·.isNone)
  roundTrips_eq : count.roundTrips = []
  latency_eq : count.latency = LatencyStats.ofSamples? attempts.reduceOption

variable {batch : List Outcome} {attempts : List (Option Span)}

/-! ## Samples -/

@[simp] theorem attemptsOf_nil : attemptsOf [] = [] := rfl

@[simp] theorem attemptsOf_append (first second : List Outcome) :
    attemptsOf (first ++ second) = attemptsOf first ++ attemptsOf second := by
  rw [attemptsOf, Reducer.pingCounts, List.filterMap_append, List.map_append]
  rfl

@[simp] theorem attemptsOf_pingAttempt (attempt : Option Span) :
    attemptsOf [.pingAttempt attempt] = [attempt] := by
  cases attempt <;> rfl

@[simp] theorem attemptsOf_failed (reason : String) : attemptsOf [.failed reason] = [] := rfl

theorem attemptsOf_map (attempts : List (Option Span)) :
    attemptsOf (attempts.map .pingAttempt) = attempts := by
  induction attempts with
  | nil => rfl
  | cons attempt rest ih =>
    rw [List.map_cons, ← List.singleton_append, attemptsOf_append, ih, attemptsOf_pingAttempt]
    rfl

theorem length_attemptsOf_le (batch : List Outcome) : (attemptsOf batch).length ≤ batch.length := by
  rw [attemptsOf, List.length_map]
  exact List.length_filterMap_le _ _

theorem pingCounts_eq (hsamples : ∀ outcome ∈ batch, IsSample outcome) :
    Reducer.pingCounts batch = (attemptsOf batch).map countOf := by
  rw [attemptsOf, List.map_map]
  refine (List.map_id' _).symm.trans (List.map_congr_left fun count hcount => ?_)
  obtain ⟨outcome, houtcome, hpicked⟩ := List.mem_filterMap.1 hcount
  rcases hsamples outcome houtcome with ⟨attempt, rfl⟩ | ⟨reason, rfl⟩
  · cases attempt <;> (cases hpicked; rfl)
  · cases hpicked

/-- A batch that holds no success holds no ping. -/
theorem attemptsOf_of_failures (hsamples : ∀ outcome ∈ batch, IsSample outcome)
    (hfailures : batch.any (·.success) = false) : attemptsOf batch = [] := by
  have hnone : Reducer.pingCounts batch = [] := by
    refine List.filterMap_eq_nil_iff.2 fun outcome houtcome => ?_
    rcases hsamples outcome houtcome with ⟨attempt, rfl⟩ | ⟨reason, rfl⟩
    · have hsuccess := List.any_eq_false.1 hfailures _ houtcome
      cases attempt <;> exact absurd rfl hsuccess
    · rfl
  rw [attemptsOf, hnone, List.map_nil]

/-! ## Totals -/

theorem sum_sent (attempts : List (Option Span)) :
    Count.sum ((attempts.map countOf).map (·.sent)) = attempts.length := by
  induction attempts with
  | nil => rfl
  | cons attempt rest ih =>
    have hone : (countOf attempt).sent.toNat = 1 := by cases attempt <;> rfl
    simp only [Count.sum, List.map_cons, List.foldr_cons, hone, List.length_cons] at ih ⊢
    rw [ih, Nat.add_comm]

theorem sum_received (attempts : List (Option Span)) :
    Count.sum ((attempts.map countOf).map (·.received)) = attempts.reduceOption.length := by
  induction attempts with
  | nil => rfl
  | cons attempt rest ih =>
    simp only [Count.sum, List.map_cons, List.foldr_cons] at ih ⊢
    rw [ih]
    cases attempt with
    | none => exact Nat.zero_add _
    | some roundTrip => exact Nat.add_comm _ _

theorem sum_lost (attempts : List (Option Span)) :
    Count.sum ((attempts.map countOf).map (·.lost)) = attempts.countP (·.isNone) := by
  induction attempts with
  | nil => rfl
  | cons attempt rest ih =>
    simp only [Count.sum, List.map_cons, List.foldr_cons] at ih ⊢
    rw [ih, List.countP_cons]
    cases attempt with
    | none => exact Nat.add_comm _ _
    | some roundTrip => exact Nat.zero_add _

theorem flatMap_roundTrips (attempts : List (Option Span)) :
    (attempts.map countOf).flatMap (·.roundTrips) = attempts.reduceOption := by
  induction attempts with
  | nil => rfl
  | cons attempt rest ih =>
    rw [List.map_cons, List.flatMap_cons, ih]
    cases attempt <;> rfl

/-- Pings that fit a counter have a count. -/
theorem exists_totalPings? (hsamples : ∀ outcome ∈ batch, IsSample outcome)
    (hfew : (attemptsOf batch).length < UInt64.size) :
    ∃ count, Reducer.totalPings? batch = some count ∧ Tells (attemptsOf batch) count := by
  have hsentSmall : Count.sum (((attemptsOf batch).map countOf).map (·.sent)) < UInt64.size := by
    rwa [sum_sent]
  have hreceivedSmall :
      Count.sum (((attemptsOf batch).map countOf).map (·.received)) < UInt64.size := by
    rw [sum_received]
    exact (List.reduceOption_length_le _).trans_lt hfew
  have hlostSmall : Count.sum (((attemptsOf batch).map countOf).map (·.lost)) < UInt64.size := by
    rw [sum_lost]
    exact List.countP_le_length.trans_lt hfew
  obtain ⟨sent, hsent, hsentEq⟩ := Count.exists_total? hsentSmall
  obtain ⟨received, hreceived, hreceivedEq⟩ := Count.exists_total? hreceivedSmall
  obtain ⟨lost, hlost, hlostEq⟩ := Count.exists_total? hlostSmall
  refine ⟨{ sent, received, lost
            latency := LatencyStats.ofSamples? (attemptsOf batch).reduceOption }, ?_,
    hsentEq.trans (sum_sent _), hreceivedEq.trans (sum_received _), hlostEq.trans (sum_lost _),
    rfl, rfl⟩
  simp only [Reducer.totalPings?, pingCounts_eq hsamples, hsent, hreceived, hlost,
    flatMap_roundTrips, Option.bind_eq_bind, Option.bind_some, Option.pure_def]

/-- A batch is reduced to the count of its pings, or to a failure if it has none. -/
theorem reduce?_cases (hsamples : ∀ outcome ∈ batch, IsSample outcome) (hsome : batch ≠ [])
    (hfew : (attemptsOf batch).length < UInt64.size) (seconds : UInt64) :
    (∃ count, Reducer.ping.reduce? seconds batch = some (.ok (.ping count)) ∧
      Tells (attemptsOf batch) count) ∨
    attemptsOf batch = [] ∧
      ∃ reason, Reducer.ping.reduce? seconds batch = some (.failed reason) := by
  rw [Reducer.reduce?, Reducer.firstFailure?]
  cases hany : batch.any (·.success) with
  | true =>
    obtain ⟨count, hcount, htells⟩ := exists_totalPings? hsamples hfew
    left
    refine ⟨count, ?_, htells⟩
    simp only [if_true, Reducer.reportOn?, hcount, Option.map_some]
  | false =>
    right
    refine ⟨attemptsOf_of_failures hsamples hany, ?_⟩
    obtain ⟨first, rest, rfl⟩ := List.exists_cons_of_ne_nil hsome
    rcases hsamples first List.mem_cons_self with ⟨attempt, rfl⟩ | ⟨reason, rfl⟩
    · cases attempt <;> simp [Outcome.pingAttempt, Outcome.ok] at hany
    · exact ⟨reason, rfl⟩

/-! ## Counts -/

/-- A count of the pings of one batch: each was answered or lost, and the statistics are those of
the round trips that were received, if there are any. -/
structure Reports (attempts : List (Option Span)) (count : PingCount) : Prop
    extends Tells attempts count where
  balance : count.sent.toNat = count.received.toNat + count.lost.toNat
  latency_eq_none_iff : count.latency = none ↔ count.received = 0
  latency_mem : ∀ stats ∈ count.latency, stats.count = count.received ∧
    some stats.least ∈ attempts ∧ some stats.greatest ∈ attempts ∧
      ∀ percentile, some (stats.percentile percentile) ∈ attempts

theorem Tells.reports {count : PingCount} (htells : Tells attempts count) :
    Reports attempts count := by
  refine { htells with balance := ?_, latency_eq_none_iff := ?_, latency_mem := ?_ }
  · rw [htells.sent_eq, htells.received_eq, htells.lost_eq, List.countP_eq_length_filter]
    exact List.length_eq_reduceOption_length_add_filter_none
  · rw [htells.latency_eq, ← UInt64.toNat_inj, htells.received_eq, UInt64.toNat_zero,
      List.length_eq_zero_iff]
    constructor
    · intro hnone
      by_contra hsome
      obtain ⟨stats, hstats, -⟩ := LatencyStats.exists_describes hsome
      rw [hnone] at hstats
      cases hstats
    · intro hnone
      rw [hnone]
      rfl
  · intro stats hstats
    rw [htells.latency_eq] at hstats
    have hsome : attempts.reduceOption ≠ [] := by
      rintro hnone
      rw [hnone] at hstats
      cases hstats
    obtain ⟨found, hfound, hdescribes⟩ := LatencyStats.exists_describes hsome
    cases hfound.symm.trans hstats
    obtain ⟨hleast, hgreatest, hpercentile⟩ := hdescribes.mem hsome
    refine ⟨?_, List.reduceOption_mem_iff.1 hleast, List.reduceOption_mem_iff.1 hgreatest,
      fun percentile => List.reduceOption_mem_iff.1 (hpercentile percentile)⟩
    rw [hdescribes.count_eq, ← htells.received_eq, UInt64.ofNat_toNat]

/-- What some counts tell together. -/
theorem sums_of_reports {segments : List (List (Option Span))} {counts : List PingCount}
    (hreports : segments.Forall₂ Reports counts) :
    (counts.map (·.sent.toNat)).sum = segments.flatten.length ∧
      (counts.map (·.received.toNat)).sum = segments.flatten.countP (·.isSome) ∧
      (counts.map (·.lost.toNat)).sum = segments.flatten.countP (·.isNone) := by
  induction hreports with
  | nil => exact ⟨rfl, rfl, rfl⟩
  | @cons segment count segments counts hreport _ ih =>
    obtain ⟨hsent, hreceived, hlost⟩ := ih
    have hanswered : count.received.toNat = segment.countP (·.isSome) := by
      rw [hreport.received_eq, List.reduceOption_length_eq, List.countP_eq_length_filter]
    simp only [List.map_cons, List.sum_cons, List.flatten_cons, List.length_append,
      List.countP_append, hsent, hreceived, hlost, hreport.sent_eq, hanswered, hreport.lost_eq,
      and_self]

end Ping

/-! ## Publications -/

namespace Trial

open Pacing (Instant)

/-- The samples that some acts add. -/
def added (acts : List Act) : List Outcome :=
  acts.filterMap fun
    | .add sample => some sample
    | _ => none

theorem added_append (first second : List Act) :
    added (first ++ second) = added first ++ added second := List.filterMap_append

/-- The outcomes that are published in the course of some acts. -/
def published (trial : Trial) : List Act → List Outcome
  | [] => []
  | .publish now :: rest =>
    (trial.publish now).1.outcome?.toList ++ (trial.publish now).2.published rest
  | act :: rest => (trial.perform act).published rest

variable {trial : Trial}

/-- A publication publishes at most one count, which tells all pings in the buffer. -/
theorem exists_segments_publish (hreducer : trial.reducer = some .ping)
    (hsamples : ∀ outcome ∈ trial.buffered, Ping.IsSample outcome)
    (hfew : trial.buffered.length < UInt64.size) (now : Instant) :
    ∃ segments : List (List (Option Span)),
      segments.Forall₂ Ping.Tells (Reducer.pingCounts (trial.publish now).1.outcome?.toList) ∧
        segments.flatten = Ping.attemptsOf trial.buffered := by
  rw [(publish_spec hreducer now).1, batch?]
  cases hempty : trial.buffered.isEmpty with
  | true => exact ⟨[], .nil, by rw [List.isEmpty_iff.1 hempty]; rfl⟩
  | false =>
    have hsome : trial.buffered ≠ [] := by
      rintro hnil
      rw [hnil] at hempty
      cases hempty
    simp only [Bool.false_eq_true, if_false, Option.bind_some, Batch.reduce?]
    have hfewPings := (Ping.length_attemptsOf_le trial.buffered).trans_lt hfew
    rcases Ping.reduce?_cases hsamples hsome hfewPings (trial.publishSeconds now) with
        ⟨count, hcount, htells⟩ | ⟨hnone, reason, hreason⟩
    · rw [hcount]
      exact ⟨[Ping.attemptsOf trial.buffered], .cons htells .nil, List.flatten_singleton⟩
    · rw [hreason, hnone]
      exact ⟨[], .nil, rfl⟩

/-- However publications cut the pings of a trial, the published counts tell them in their order,
up to those that are still buffered. A count covers one batch, so it is the buffer alone that has
to fit a counter. -/
theorem exists_segments_published (hreducer : trial.reducer = some .ping) {acts : List Act}
    (hsamples : ∀ outcome ∈ trial.buffered ++ added acts, Ping.IsSample outcome)
    (hfew : ∀ earlier, earlier <+: acts →
      (earlier.foldl perform trial).buffered.length < UInt64.size) :
    ∃ segments : List (List (Option Span)),
      segments.Forall₂ Ping.Tells (Reducer.pingCounts (trial.published acts)) ∧
        segments.flatten ++ Ping.attemptsOf (acts.foldl perform trial).buffered =
          Ping.attemptsOf (trial.buffered ++ added acts) := by
  induction acts generalizing trial with
  | nil => exact ⟨[], .nil, by simp [added]⟩
  | cons act rest ih =>
    have hreducerAfter := (trial.reducer_perform act).trans hreducer
    have hfewAfter : ∀ earlier, earlier <+: rest →
        (earlier.foldl perform (trial.perform act)).buffered.length < UInt64.size :=
      fun earlier hearlier => hfew (act :: earlier) (List.cons_prefix_cons.2 ⟨rfl, hearlier⟩)
    have hquiet : (trial.perform act).buffered = trial.buffered → added (act :: rest) = added rest →
        ∃ segments : List (List (Option Span)),
          segments.Forall₂ Ping.Tells (Reducer.pingCounts ((trial.perform act).published rest)) ∧
            segments.flatten ++ Ping.attemptsOf (rest.foldl perform (trial.perform act)).buffered =
              Ping.attemptsOf (trial.buffered ++ added (act :: rest)) := by
      intro hbuffered hnone
      rw [hnone, ← hbuffered] at hsamples ⊢
      exact ih hreducerAfter hsamples hfewAfter
    cases act with
    | add sample =>
      have hbuffered : (trial.perform (.add sample)).buffered = trial.buffered ++ [sample] := by
        rw [perform, add, hreducer]
      have hall : (trial.perform (.add sample)).buffered ++ added rest =
          trial.buffered ++ added (.add sample :: rest) := by
        rw [hbuffered, List.append_assoc]
        rfl
      rw [← hall] at hsamples ⊢
      exact ih hreducerAfter hsamples hfewAfter
    | publish now =>
      have hbuffered : (trial.perform (.publish now)).buffered = [] :=
        (publish_spec hreducer now).2.1
      have hadded : added (.publish now :: rest) = added rest := rfl
      rw [hadded] at hsamples ⊢
      obtain ⟨segments, hsegments, hflatten⟩ := trial.exists_segments_publish hreducer
        (fun outcome hmem => hsamples outcome (List.mem_append_left _ hmem))
        (hfew [] List.nil_prefix) now
      have hrest := ih hreducerAfter
      rw [hbuffered, List.nil_append] at hrest
      obtain ⟨more, hmore, hlater⟩ := hrest
        (fun outcome hmem => hsamples outcome (List.mem_append_right _ hmem)) hfewAfter
      refine ⟨segments ++ more, ?_, ?_⟩
      · rw [published, Reducer.pingCounts, List.filterMap_append]
        exact List.rel_append hsegments hmore
      · rw [List.flatten_append, List.append_assoc, hflatten, Ping.attemptsOf_append]
        exact congrArg _ hlater
    | emit outcome => exact hquiet (buffered_emit trial outcome) rfl
    | receive => exact hquiet trial.receive_spec.2.1 rfl
    | claim | drain | close | finish | touch now | setDormant | tick now => exact hquiet rfl rfl

end Trial

end LinkMeter
