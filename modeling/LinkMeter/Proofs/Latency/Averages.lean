import LinkMeter.Proofs.Latency.Percentiles
import LinkMeter.Trial.Basic
import Mathlib.Data.List.Forall2

/-!
# The mean and the jitter of a batch

The mean lies between the least and the greatest sample, and the jitter is at most
their distance.  Both are quotients of sums, rounded down, so the bounds are bounds
of the sums (`LatencyStats.totalNanos_bounds`, `LatencyStats.totalDistance_le`).

The sum of distances goes over pairs of neighbours.  It is the same for the batch
read backwards and for a batch that is moved as a whole.

A trial that measures latency publishes these statistics of all round trips in its
buffer, so it does not matter how they were cut into samples.
-/

namespace LinkMeter

namespace LatencyStats

variable {samples : List Span} {stats : LatencyStats}

/-! ## Sums over a batch -/

theorem nanos_cutNanos {nanos : ℕ} (hsmall : nanos < 2 ^ 64) : (cutNanos nanos).nanos = nanos := by
  have hword : nanos < UInt64.size := hsmall
  rw [cutNanos, Span.ofNanos, min_eq_left (by omega)]
  exact UInt64.toNat_ofNat_of_lt' hword

theorem totalNanos_eq (samples : List Span) : totalNanos samples = (samples.map Span.nanos).sum :=
  rfl

theorem totalNanos_append (first second : List Span) :
    totalNanos (first ++ second) = totalNanos first + totalNanos second := by
  rw [totalNanos_eq, List.map_append, List.sum_append]
  rfl

theorem totalNanos_bounds {least greatest : Span}
    (hbounds : ∀ sample ∈ samples, least ≤ sample ∧ sample ≤ greatest) :
    samples.length * least.nanos ≤ totalNanos samples ∧
      totalNanos samples ≤ samples.length * greatest.nanos := by
  rw [totalNanos_eq]
  induction samples with
  | nil => simp
  | cons sample rest ih =>
    obtain ⟨hleast, hgreatest⟩ := hbounds sample List.mem_cons_self
    obtain ⟨hlow, hhigh⟩ := ih fun other hmem => hbounds other (List.mem_cons_of_mem _ hmem)
    rw [Span.le_iff] at hleast hgreatest
    rw [List.map_cons, List.sum_cons, List.length_cons, Nat.succ_mul, Nat.succ_mul]
    omega

/-! ## Sums over neighbours -/

theorem distance_eq_natAbs (first second : Span) :
    first.distance second = ((first.nanos : ℤ) - second.nanos).natAbs := by
  rw [Span.distance]
  omega

theorem distance_comm (first second : Span) : first.distance second = second.distance first :=
  Nat.add_comm _ _

theorem totalDistance_eq : (samples : List Span) → totalDistance samples =
    (List.zipWith (fun first second => ((first.nanos : ℤ) - second.nanos).natAbs) samples
      samples.tail).sum
  | [] | [_] => rfl
  | first :: second :: rest => by
    rw [totalDistance, totalDistance_eq (second :: rest), distance_eq_natAbs]
    rfl

/-- A batch of `n` samples has `n - 1` pairs of neighbours. -/
theorem totalDistance_le {least greatest : Span}
    (hbounds : ∀ sample ∈ samples, least ≤ sample ∧ sample ≤ greatest) :
    totalDistance samples ≤ (samples.length - 1) * (greatest.nanos - least.nanos) := by
  fun_induction totalDistance samples with
  | case1 first second rest ih =>
    have hfirst := hbounds first (by simp)
    have hsecond := hbounds second (by simp)
    have hrest := ih fun sample hmem => hbounds sample (List.mem_cons_of_mem _ hmem)
    have hpair : first.distance second ≤ greatest.nanos - least.nanos := by
      simp only [Span.le_iff] at hfirst hsecond
      rw [Span.distance]
      omega
    simp only [List.length_cons, Nat.add_sub_cancel] at hrest ⊢
    rw [Nat.succ_mul]
    omega
  | case2 => exact Nat.zero_le _

theorem totalDistance_concat (samples : List Span) (last next : Span) :
    totalDistance (samples ++ [last, next]) =
      totalDistance (samples ++ [last]) + last.distance next := by
  induction samples with
  | nil => simp [totalDistance]
  | cons first rest ih =>
    cases rest with
    | nil => simp [totalDistance]
    | cons second rest =>
      simp only [List.cons_append, totalDistance] at ih ⊢
      omega

theorem totalDistance_reverse :
    (samples : List Span) → totalDistance samples.reverse = totalDistance samples
  | [] | [_] => rfl
  | first :: second :: rest => by
    have ih := totalDistance_reverse (second :: rest)
    rw [List.reverse_cons] at ih
    rw [List.reverse_cons, List.reverse_cons, List.append_assoc, List.singleton_append,
      totalDistance_concat, ih, distance_comm, totalDistance, Nat.add_comm]

theorem nanos_of_add? {first second sum : Span} (hsum : first.add? second = some sum) :
    sum.nanos = first.nanos + second.nanos := by
  rw [Span.add?, Span.ofNanos?] at hsum
  split at hsum
  · cases hsum
    rfl
  · cases hsum

/-- Moving all samples by the same offset leaves their distances. -/
theorem totalDistance_moved {offset : Span} {moved : List Span}
    (hmoved : samples.Forall₂ (fun sample later => sample.add? offset = some later) moved) :
    totalDistance moved = totalDistance samples := by
  induction hmoved with
  | nil => rfl
  | @cons first movedFirst rest movedRest hfirst hrest ih =>
    cases hrest with
    | nil => rfl
    | @cons second movedSecond rest movedRest hsecond hrest =>
      have hpair : movedFirst.distance movedSecond = first.distance second := by
        rw [Span.distance, Span.distance, nanos_of_add? hfirst, nanos_of_add? hsecond]
        omega
      rw [totalDistance, totalDistance, hpair, ih]

/-! ## The averages of a batch -/

/-- Nothing is cut off where the samples fit 64 bits. -/
theorem Describes.averages (hstats : stats.Describes samples) (hsome : samples ≠ [])
    (hsmall : ∀ sample ∈ samples, sample.nanos < 2 ^ 64) :
    stats.mean.nanos = totalNanos samples / samples.length ∧
      stats.least ≤ stats.mean ∧ stats.mean ≤ stats.greatest ∧
      stats.jitter.nanos = totalDistance samples / (samples.length - 1) ∧
      stats.jitter.nanos ≤ stats.greatest.nanos - stats.least.nanos := by
  have hcount := List.length_pos_iff.2 hsome
  obtain ⟨hlow, hhigh⟩ := totalNanos_bounds fun sample hmem => hstats.bounds hmem
  have hgreatest := hsmall _ (hstats.mem hsome).2.1
  have hmeanHigh : totalNanos samples / samples.length ≤ stats.greatest.nanos :=
    Nat.div_le_of_le_mul hhigh
  have hmean : stats.mean.nanos = totalNanos samples / samples.length := by
    rw [hstats.mean_eq, nanos_cutNanos (hmeanHigh.trans_lt hgreatest)]
  have hspread : totalDistance samples / (samples.length - 1) ≤
      stats.greatest.nanos - stats.least.nanos :=
    Nat.div_le_of_le_mul (totalDistance_le fun sample hmem => hstats.bounds hmem)
  have hjitter : stats.jitter.nanos = totalDistance samples / (samples.length - 1) := by
    rw [hstats.jitter_eq]
    split
    case isTrue hone => simp [hone]
    case isFalse => exact nanos_cutNanos (by omega)
  refine ⟨hmean, ?_, ?_, hjitter, hjitter ▸ hspread⟩
  · rw [Span.le_iff, hmean, Nat.le_div_iff_mul_le hcount, Nat.mul_comm]
    exact hlow
  · rw [Span.le_iff, hmean]
    exact hmeanHigh

/-- The jitter is a function of the number of samples and of their distances. -/
theorem Describes.jitter_congr {more : LatencyStats} {other : List Span}
    (hstats : stats.Describes samples) (hmore : more.Describes other)
    (hlength : other.length = samples.length)
    (hdistance : totalDistance other = totalDistance samples) : more.jitter = stats.jitter := by
  rw [hstats.jitter_eq, hmore.jitter_eq, hlength, hdistance]

/-- No sum over a batch leaves 128 bits. -/
theorem totals_lt (hmany : samples.length < 2 ^ 64)
    (hsmall : ∀ sample ∈ samples, sample.nanos < 2 ^ 64) :
    totalNanos samples < 2 ^ 128 ∧ totalDistance samples < 2 ^ 128 := by
  let limit : Span := ⟨2 ^ 64 - 1, by decide⟩
  have hbounds : ∀ sample ∈ samples, Span.zero ≤ sample ∧ sample ≤ limit := by
    intro sample hmem
    exact ⟨Nat.zero_le _, Nat.le_sub_one_of_lt (hsmall sample hmem)⟩
  have htotal := (totalNanos_bounds hbounds).2
  have hdistance := totalDistance_le hbounds
  simp only [Span.nanos_zero, Nat.sub_zero, limit] at htotal hdistance
  constructor <;> omega

end LatencyStats

/-! ## Batches of samples -/

namespace Reducer

variable {batch : List Outcome}

theorem allRoundTrips_append (first second : List Outcome) :
    allRoundTrips (first ++ second) = allRoundTrips first ++ allRoundTrips second :=
  List.flatMap_append

theorem allRoundTrips_map (rounds : List (List Span)) :
    allRoundTrips (rounds.map Outcome.roundTrips) = rounds.flatten := by
  rw [allRoundTrips, List.flatMap_map]
  exact List.flatMap_id

theorem reduce?_latency (hsome : batch.any (·.success) = true) (seconds : UInt64) :
    latency.reduce? seconds batch = some (.ok
      ((LatencyStats.ofSamples? (allRoundTrips batch)).elim .nothing .latency)) := by
  rw [reduce?, firstFailure?, if_pos hsome, reportOn?]
  cases LatencyStats.ofSamples? (allRoundTrips batch) <;> rfl

theorem any_success_of_round {before after : List Outcome} {rounds : List (List Span)}
    (hsome : rounds.flatten ≠ []) :
    (before ++ rounds.map Outcome.roundTrips ++ after).any (·.success) = true := by
  cases rounds with
  | nil => exact absurd rfl hsome
  | cons round rest => simp [Outcome.roundTrips, Outcome.ok]

end Reducer

namespace Trial

variable {trial : Trial}

/-- What is published depends on a buffer through its reduction alone. -/
theorem publish_congr {reducer : Reducer} {other : List Outcome}
    (hreducer : trial.reducer = some reducer) (hsome : trial.buffered ≠ []) (hother : other ≠ [])
    (hsame : ∀ seconds,
      reducer.reduce? seconds other = reducer.reduce? seconds trial.buffered)
    (now : Pacing.Instant) :
    { trial with buffered := other }.publish now = trial.publish now := by
  have hfull : trial.buffered.isEmpty = false := by simpa using hsome
  have hotherFull : other.isEmpty = false := by simpa using hother
  simp only [publish, hreducer, hfull, hotherFull, publishSeconds, hsame]

/-- How round trips are cut into samples does not matter to what is published. -/
theorem publish_recut {before after : List Outcome} {rounds other : List (List Span)}
    (hreducer : trial.reducer = some .latency)
    (hbuffered : trial.buffered = before ++ rounds.map Outcome.roundTrips ++ after)
    (hsome : rounds.flatten ≠ []) (hother : other.flatten = rounds.flatten)
    (now : Pacing.Instant) :
    { trial with buffered := before ++ other.map Outcome.roundTrips ++ after }.publish now =
      trial.publish now := by
  have hsuccess : trial.buffered.any (·.success) = true :=
    hbuffered ▸ Reducer.any_success_of_round hsome
  have hotherSuccess : (before ++ other.map Outcome.roundTrips ++ after).any (·.success) = true :=
    Reducer.any_success_of_round (hother ▸ hsome)
  apply publish_congr hreducer
  · rintro hempty
    simp [hempty] at hsuccess
  · rintro hempty
    simp [hempty] at hotherSuccess
  · intro seconds
    rw [Reducer.reduce?_latency hsuccess, Reducer.reduce?_latency hotherSuccess, hbuffered]
    simp only [Reducer.allRoundTrips_append, Reducer.allRoundTrips_map, hother]

end Trial

namespace LatencyStats

/-- The mean and the jitter of a batch that has samples, each of them below `2 ^ 64` nanoseconds.

The mean is the sum by the number of samples, rounded down, and lies between the least and the
greatest sample. The jitter is the sum of the distances between neighbours by the number of pairs,
and at most the distance between the least and the greatest sample. No sum leaves its 128 bits. The
batch read backwards and the batch moved by an offset have the same jitter.

Buffered round trips are reduced to these statistics, so a trial publishes the same however they
were cut into samples. -/
theorem mean_and_jitter (samples : List Span) (hsome : samples ≠ [])
    (hsmall : ∀ sample ∈ samples, sample.nanos < 2 ^ 64) :
    ∃ stats, ofSamples? samples = some stats ∧
      stats.mean.nanos = (samples.map Span.nanos).sum / samples.length ∧
      stats.least ≤ stats.mean ∧ stats.mean ≤ stats.greatest ∧
      stats.jitter.nanos = (List.zipWith
        (fun first second => ((first.nanos : ℤ) - second.nanos).natAbs) samples samples.tail).sum /
          (samples.length - 1) ∧
      (samples.length = 1 → stats.jitter = Span.zero) ∧
      stats.jitter.nanos ≤ stats.greatest.nanos - stats.least.nanos ∧
      (samples.length < 2 ^ 64 → stats.count.toNat = samples.length ∧
        totalNanos samples < 2 ^ 128 ∧ totalDistance samples < 2 ^ 128) ∧
      (∃ backwards, ofSamples? samples.reverse = some backwards ∧
        backwards.jitter = stats.jitter) ∧
      (∀ offset moved,
        samples.Forall₂ (fun sample later => sample.add? offset = some later) moved →
          ∃ later, ofSamples? moved = some later ∧ later.jitter = stats.jitter) ∧
      (∀ seconds batch, batch.any (·.success) = true →
        Reducer.latency.reduce? seconds batch = some (.ok
          ((ofSamples? (Reducer.allRoundTrips batch)).elim .nothing .latency))) ∧
      ∀ (trial : Trial) (now : Pacing.Instant) (before after : List Outcome)
        (rounds other : List (List Span)), trial.reducer = some .latency →
          trial.buffered = before ++ rounds.map Outcome.roundTrips ++ after →
          rounds.flatten ≠ [] → other.flatten = rounds.flatten →
          { trial with buffered := before ++ other.map Outcome.roundTrips ++ after }.publish now =
            trial.publish now := by
  obtain ⟨stats, hstats, hdescribes⟩ := exists_describes hsome
  obtain ⟨hmean, hlow, hhigh, hjitter, hspread⟩ := hdescribes.averages hsome hsmall
  refine ⟨stats, hstats, totalNanos_eq samples ▸ hmean, hlow, hhigh,
    totalDistance_eq samples ▸ hjitter, fun hone => ?_, hspread, fun hmany => ?_, ?_,
    fun offset moved hmoved => ?_,
    fun seconds batch hsuccess => Reducer.reduce?_latency hsuccess seconds,
    fun trial now before after rounds other hreducer hbuffered hrounds hother =>
      Trial.publish_recut hreducer hbuffered hrounds hother now⟩
  · rw [hdescribes.jitter_eq, if_pos hone]
  · refine ⟨?_, totals_lt hmany hsmall⟩
    rw [hdescribes.count_eq]
    exact UInt64.toNat_ofNat_of_lt' hmany
  · obtain ⟨backwards, hbackwards, hdescribesBack⟩ :=
      exists_describes (List.reverse_ne_nil_iff.2 hsome)
    exact ⟨backwards, hbackwards, hdescribes.jitter_congr hdescribesBack List.length_reverse
      (totalDistance_reverse samples)⟩
  · have hlength := hmoved.length_eq
    have hmovedSome : moved ≠ [] := by
      rintro rfl
      exact hsome (List.length_eq_zero_iff.1 hlength)
    obtain ⟨later, hlater, hdescribesLater⟩ := exists_describes hmovedSome
    exact ⟨later, hlater,
      hdescribes.jitter_congr hdescribesLater hlength.symm (totalDistance_moved hmoved)⟩

/-- Three samples, in one round or in two, backwards or moved by five milliseconds: neighbours are
fifteen milliseconds apart in the mean. -/
theorem mean_and_jitter_three :
    let samples := [10, 30, 20].map Span.ofMillis
    samples ≠ [] ∧ (∀ sample ∈ samples, sample.nanos < 2 ^ 64) ∧
    ∃ stats, ofSamples? samples = some stats ∧ stats.mean = Span.ofMillis 20 ∧
      stats.jitter = Span.ofMillis 15 ∧
      (∃ backwards, ofSamples? ([20, 30, 10].map Span.ofMillis) = some backwards ∧
        backwards.jitter = Span.ofMillis 15) ∧
      (∃ later, ofSamples? ([15, 35, 25].map Span.ofMillis) = some later ∧
        later.jitter = Span.ofMillis 15) ∧
      Reducer.latency.reduce? 1
          [.failed "the peer is gone", .roundTrips (samples.take 2), .roundTrips (samples.drop 2)] =
        some (.ok (.latency stats)) ∧
      ∀ trial : Trial, trial.reducer = some .latency →
        trial.buffered = [.failed "the peer is gone", .roundTrips samples] →
        { trial with buffered :=
          [.failed "the peer is gone", .roundTrips (samples.take 2),
            .roundTrips (samples.drop 2)] }.publish 0 = trial.publish 0 := by
  intro samples
  have hsome : samples ≠ [] := by decide
  have hsmall : ∀ sample ∈ samples, sample.nanos < 2 ^ 64 := by decide
  obtain ⟨stats, hstats, hmean, -, -, hjitter, -, -, -, ⟨backwards, hbackwards, hsame⟩, hmoved,
    hreduce, hcut⟩ := mean_and_jitter samples hsome hsmall
  have hfifteen : stats.jitter = Span.ofMillis 15 := Span.ext (hjitter.trans (by decide))
  obtain ⟨later, hlater, hlaterSame⟩ := hmoved (Span.ofMillis 5) ([15, 35, 25].map Span.ofMillis)
    (.cons (by decide) (.cons (by decide) (.cons (by decide) .nil)))
  refine ⟨hsome, hsmall, stats, hstats, Span.ext (hmean.trans (by decide)), hfifteen,
    ⟨backwards, hbackwards, hsame.trans hfifteen⟩, ⟨later, hlater, hlaterSame.trans hfifteen⟩, ?_,
    fun trial hreducer hbuffered => ?_⟩
  · rw [hreduce 1 _ (by decide)]
    exact congrArg (fun found : Option LatencyStats =>
      some (Outcome.ok (found.elim .nothing .latency))) hstats
  · exact hcut trial 0 [.failed "the peer is gone"] [] [samples] [samples.take 2, samples.drop 2]
      hreducer hbuffered (by decide) (by decide)

end LatencyStats

end LinkMeter
