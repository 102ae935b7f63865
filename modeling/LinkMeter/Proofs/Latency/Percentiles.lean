import LinkMeter.Proofs.Latency.Ranks
import Mathlib.Data.List.GetD

/-!
# Percentiles are order statistics

A batch is sorted, and its statistics but for the mean and the jitter are samples
at places of the sorted batch (`LatencyStats.Describes`).  The sample at a place is
the one of that rank (`LatencyStats.isRanked_placed`): fewer samples are less, and
at least so many are not greater.  A batch in another order sorts to the same, so
these statistics are the same (`LatencyStats.placed_of_perm`).
-/

namespace LinkMeter

/-- A sample with a rank, from one. -/
structure IsRanked (samples : List Span) (rank : ℕ) (sample : Span) : Prop where
  mem : sample ∈ samples
  countP_lt : samples.countP (fun other => decide (other < sample)) < rank
  le_countP : rank ≤ samples.countP fun other => decide (other ≤ sample)

namespace LatencyStats

variable {samples other : List Span} {stats more : LatencyStats}

/-! ## Sorted batches -/

theorem perm_sorted (samples : List Span) : (sorted samples).Perm samples :=
  List.mergeSort_perm samples _

theorem length_sorted (samples : List Span) : (sorted samples).length = samples.length :=
  (perm_sorted samples).length_eq

theorem pairwise_sorted (samples : List Span) : (sorted samples).Pairwise (· ≤ ·) := by
  have hsorted : (sorted samples).Pairwise fun first second => decide (first ≤ second) = true := by
    apply List.pairwise_mergeSort
    · simp only [decide_eq_true_eq, Span.le_iff]
      omega
    · simp only [Bool.or_eq_true, decide_eq_true_eq, Span.le_iff]
      omega
  exact hsorted.imp fun hle => of_decide_eq_true hle

/-- The order of measurement does not matter to the sorted batch. -/
theorem sorted_of_perm (hperm : other.Perm samples) : sorted other = sorted samples := by
  have hboth : (sorted other).Perm (sorted samples) :=
    ((perm_sorted other).trans hperm).trans (perm_sorted samples).symm
  refine hboth.eq_of_pairwise (fun first second _ _ hle hge => ?_) (pairwise_sorted other)
    (pairwise_sorted samples)
  exact Span.ext (Nat.le_antisymm hle hge)

/-! ## Places -/

/-- The sample at a place of the sorted batch, from zero. -/
def placed (samples : List Span) (place : ℕ) : Span := (sorted samples).getD place Span.zero

theorem placed_of_perm (hperm : other.Perm samples) (place : ℕ) :
    placed other place = placed samples place := by
  rw [placed, placed, sorted_of_perm hperm]

theorem placed_eq {place : ℕ} (hplace : place < (sorted samples).length) :
    placed samples place = (sorted samples)[place] := List.getD_eq_getElem _ _ hplace

theorem placed_mono {first second : ℕ} (hle : first ≤ second) (hplace : second < samples.length) :
    placed samples first ≤ placed samples second := by
  rw [← length_sorted] at hplace
  rw [placed_eq hplace, placed_eq (Nat.lt_of_le_of_lt hle hplace)]
  rcases Nat.lt_or_eq_of_le hle with hlt | rfl
  · exact List.pairwise_iff_getElem.1 (pairwise_sorted samples) _ _ _ hplace hlt
  · exact Nat.le_refl _

theorem exists_placed {sample : Span} (hmem : sample ∈ samples) :
    ∃ place < samples.length, placed samples place = sample := by
  obtain ⟨place, hplace, hsample⟩ := List.mem_iff_getElem.1 ((perm_sorted samples).mem_iff.2 hmem)
  exact ⟨place, length_sorted samples ▸ hplace, (placed_eq hplace).trans hsample⟩

/-- The samples behind a place are not less, and those up to it are not greater. -/
theorem isRanked_placed {place : ℕ} (hplace : place < samples.length) :
    IsRanked samples (place + 1) (placed samples place) := by
  have hperm := perm_sorted samples
  have hlength := length_sorted samples
  have hsorted : place < (sorted samples).length := hlength ▸ hplace
  refine ⟨?_, ?_, ?_⟩
  · rw [placed_eq hsorted]
    exact hperm.subset (List.getElem_mem hsorted)
  · have hbehind : ((sorted samples).drop place).countP
        (fun other => decide (other < placed samples place)) = 0 := by
      rw [List.countP_eq_zero]
      intro other hother
      obtain ⟨further, hfurther, rfl⟩ := List.mem_iff_getElem.1 hother
      rw [List.length_drop] at hfurther
      have hle := placed_mono (Nat.le_add_right place further) (by omega : _ < samples.length)
      rw [placed_eq (by omega : place + further < (sorted samples).length)] at hle
      rw [List.getElem_drop, decide_eq_true_eq, Span.lt_iff]
      exact Nat.not_lt.2 hle
    rw [← hperm.countP_eq, ← List.take_append_drop place (sorted samples), List.countP_append,
      hbehind]
    have htake := List.countP_le_length (p := fun other => decide (other < placed samples place))
      (l := (sorted samples).take place)
    rw [List.length_take] at htake
    omega
  · have hupto : ((sorted samples).take (place + 1)).countP
        (fun other => decide (other ≤ placed samples place)) = place + 1 := by
      have hall : ∀ other ∈ (sorted samples).take (place + 1),
          decide (other ≤ placed samples place) = true := by
        intro other hother
        obtain ⟨earlier, hearlier, rfl⟩ := List.mem_iff_getElem.1 hother
        rw [List.length_take] at hearlier
        have hle := placed_mono (by omega : earlier ≤ place) hplace
        rw [placed_eq (by omega : earlier < (sorted samples).length)] at hle
        rw [List.getElem_take, decide_eq_true_eq]
        exact hle
      rw [List.countP_eq_length.2 hall, List.length_take]
      omega
    rw [← hperm.countP_eq, ← List.take_append_drop (place + 1) (sorted samples),
      List.countP_append, hupto]
    exact Nat.le_add_right _ _

/-! ## The statistics of a batch -/

/-- A percentile as it is reported. -/
def percentile (stats : LatencyStats) : Percentile → Span
  | .p50 => stats.p50
  | .p90 => stats.p90
  | .p95 => stats.p95
  | .p99 => stats.p99
  | .p999 => stats.p999
  | .p9999 => stats.p9999

/-- What the statistics of a batch are. -/
structure Describes (stats : LatencyStats) (samples : List Span) : Prop where
  count_eq : stats.count = UInt64.ofNat samples.length
  mean_eq : stats.mean = cutNanos (totalNanos samples / samples.length)
  least_eq : stats.least = placed samples 0
  greatest_eq : stats.greatest = placed samples (samples.length - 1)
  percentile_eq : ∀ percentile : Percentile,
    stats.percentile percentile = placed samples (percentile.index samples.length)
  jitter_eq : stats.jitter =
    if samples.length = 1 then Span.zero
    else cutNanos (totalDistance samples / (samples.length - 1))

theorem exists_describes (hsome : samples ≠ []) :
    ∃ stats, ofSamples? samples = some stats ∧ stats.Describes samples := by
  have hempty : samples.isEmpty = false := by simpa using hsome
  rw [ofSamples?, hempty]
  refine ⟨_, rfl, rfl, rfl, ?_, ?_, fun percentile => ?_, rfl⟩
  · rw [placed, List.getD_eq_getElem?_getD, ← List.head?_eq_getElem?, ← List.headD_eq_head?_getD]
  · rw [placed, List.getD_eq_getElem?_getD, ← length_sorted, ← List.getLast?_eq_getElem?,
      ← List.getLastD_eq_getLast?]
  · cases percentile <;> rfl

/-- A batch in another order has the same statistics but for its jitter. -/
theorem Describes.eq_of_perm (hstats : stats.Describes samples) (hmore : more.Describes other)
    (hperm : other.Perm samples) : { more with jitter := stats.jitter } = stats := by
  have hlength := hperm.length_eq
  have htotal : totalNanos other = totalNanos samples := by
    rw [totalNanos, totalNanos]
    exact (hperm.map Span.nanos).foldr_eq 0
  have hpercentile : ∀ percentile : Percentile,
      more.percentile percentile = stats.percentile percentile := by
    intro percentile
    rw [hmore.percentile_eq, hstats.percentile_eq, hlength, placed_of_perm hperm]
  rw [LatencyStats.mk.injEq]
  refine ⟨?_, ?_, ?_, ?_, hpercentile .p50, hpercentile .p90, hpercentile .p95, hpercentile .p99,
    hpercentile .p999, hpercentile .p9999, rfl⟩
  · rw [hmore.count_eq, hstats.count_eq, hlength]
  · rw [hmore.mean_eq, hstats.mean_eq, hlength, htotal]
  · rw [hmore.least_eq, hstats.least_eq, placed_of_perm hperm]
  · rw [hmore.greatest_eq, hstats.greatest_eq, hlength, placed_of_perm hperm]

/-- No sample is less than the least one or greater than the greatest one. -/
theorem Describes.bounds (hstats : stats.Describes samples) {sample : Span}
    (hmem : sample ∈ samples) : stats.least ≤ sample ∧ sample ≤ stats.greatest := by
  obtain ⟨place, hplace, rfl⟩ := exists_placed hmem
  rw [hstats.least_eq, hstats.greatest_eq]
  exact ⟨placed_mono (Nat.zero_le _) hplace, placed_mono (by omega) (by omega)⟩

/-- Every statistic but the mean and the jitter is a sample. -/
theorem Describes.mem (hstats : stats.Describes samples) (hsome : samples ≠ []) :
    stats.least ∈ samples ∧ stats.greatest ∈ samples ∧
      ∀ percentile, stats.percentile percentile ∈ samples := by
  have hcount := List.length_pos_iff.2 hsome
  refine ⟨?_, ?_, fun percentile => ?_⟩
  · exact hstats.least_eq ▸ (isRanked_placed hcount).mem
  · exact hstats.greatest_eq ▸ (isRanked_placed (by omega : samples.length - 1 < _)).mem
  · exact hstats.percentile_eq percentile ▸ (isRanked_placed (percentile.index_lt hcount)).mem

/-- Where positions are exact, a higher percentile is not less. -/
theorem Describes.percentile_mono (hstats : stats.Describes samples) (hsome : samples ≠ [])
    (hexact : ∀ percentile : Percentile, percentile.IsExact samples.length)
    {first second : Percentile} (hle : first.hundredths ≤ second.hundredths) :
    stats.percentile first ≤ stats.percentile second := by
  have hcount := List.length_pos_iff.2 hsome
  have hfirst := first.succ_index_of_isExact hcount (hexact first)
  have hsecond := second.succ_index_of_isExact hcount (hexact second)
  have hrank := Percentile.rank_mono hle samples.length
  rw [hstats.percentile_eq, hstats.percentile_eq]
  exact placed_mono (by omega) (second.index_lt hcount)

/-- The statistics of a batch that has samples, in any order and with repetitions: the positions of
the percentiles are in the batch, the least and the greatest sample bound all others, and no
statistic but the jitter depends on the order of the samples.

Where positions are exact, which they are up to `2 ^ 36` samples, a percentile is the sample of its
rank: fewer samples are less, and at least so many are not greater. The percentiles rise from the
least sample to the greatest one. -/
theorem order_statistics (samples : List Span) (hsome : samples ≠ []) :
    (samples.length ≤ 2 ^ 36 → ∀ percentile : Percentile, percentile.IsExact samples.length) ∧
    ∃ stats, ofSamples? samples = some stats ∧
      stats.count = UInt64.ofNat samples.length ∧
      (∀ percentile : Percentile, percentile.index samples.length < samples.length) ∧
      (stats.least ∈ samples ∧ stats.greatest ∈ samples ∧
        ∀ sample ∈ samples, stats.least ≤ sample ∧ sample ≤ stats.greatest) ∧
      ((∀ percentile : Percentile, percentile.IsExact samples.length) →
        (∀ percentile : Percentile,
          IsRanked samples (percentile.rank samples.length) (stats.percentile percentile)) ∧
        stats.least ≤ stats.p50 ∧ stats.p50 ≤ stats.p90 ∧ stats.p90 ≤ stats.p95 ∧
          stats.p95 ≤ stats.p99 ∧ stats.p99 ≤ stats.p999 ∧ stats.p999 ≤ stats.p9999 ∧
          stats.p9999 ≤ stats.greatest) ∧
      ∀ other, other.Perm samples →
        ∃ more, ofSamples? other = some more ∧ { more with jitter := stats.jitter } = stats := by
  have hcount := List.length_pos_iff.2 hsome
  obtain ⟨stats, hstats, hdescribes⟩ := exists_describes hsome
  obtain ⟨hleast, hgreatest, hpercentile⟩ := hdescribes.mem hsome
  refine ⟨fun hfew percentile => percentile.isExact_of_le hfew, stats, hstats, hdescribes.count_eq,
    fun percentile => percentile.index_lt hcount,
    ⟨hleast, hgreatest, fun sample hmem => hdescribes.bounds hmem⟩, fun hexact => ⟨?_, ?_⟩, ?_⟩
  · intro percentile
    rw [hdescribes.percentile_eq, ← percentile.succ_index_of_isExact hcount (hexact percentile)]
    exact isRanked_placed (percentile.index_lt hcount)
  · have hmono : ∀ first second : Percentile, first.hundredths ≤ second.hundredths →
        stats.percentile first ≤ stats.percentile second :=
      fun _ _ hle => hdescribes.percentile_mono hsome hexact hle
    exact ⟨(hdescribes.bounds (hpercentile .p50)).1, hmono .p50 .p90 (by decide),
      hmono .p90 .p95 (by decide), hmono .p95 .p99 (by decide), hmono .p99 .p999 (by decide),
      hmono .p999 .p9999 (by decide), (hdescribes.bounds (hpercentile .p9999)).2⟩
  · intro other hperm
    have hother : other ≠ [] := by
      rintro rfl
      exact hsome hperm.nil_eq.symm
    obtain ⟨more, hmore, hdescribesMore⟩ := exists_describes hother
    exact ⟨more, hmore, hdescribes.eq_of_perm hdescribesMore hperm⟩

/-- Four samples, one of them twice: the median is the second of them, and the highest percentiles
are the third. -/
theorem order_statistics_four :
    let samples := [30, 10, 20, 10].map Span.ofMillis
    samples ≠ [] ∧ (∀ percentile : Percentile, percentile.IsExact samples.length) ∧
    ∃ stats, ofSamples? samples = some stats ∧ IsRanked samples 2 stats.p50 ∧
      IsRanked samples 3 stats.p9999 ∧ stats.p50 ≤ stats.p90 ∧
      ∃ more, ofSamples? ([10, 10, 20, 30].map Span.ofMillis) = some more ∧
        more.p50 = stats.p50 := by
  intro samples
  have hsome : samples ≠ [] := by decide
  obtain ⟨hfew, stats, hstats, -, -, -, hexact, hperm⟩ := order_statistics samples hsome
  have hpositions := hfew (by decide)
  obtain ⟨hranked, -, hrise, -⟩ := hexact hpositions
  obtain ⟨more, hmore, hsame⟩ := hperm ([10, 10, 20, 30].map Span.ofMillis) (by decide)
  have hsecond : Percentile.p50.rank samples.length = 2 := by decide +kernel
  have hthird : Percentile.p9999.rank samples.length = 3 := by decide +kernel
  have hmedian : more.p50 = stats.p50 := by rw [← hsame]
  exact ⟨hsome, hpositions, stats, hstats, hsecond ▸ hranked .p50, hthird ▸ hranked .p9999, hrise,
    more, hmore, hmedian⟩

end LatencyStats

end LinkMeter
