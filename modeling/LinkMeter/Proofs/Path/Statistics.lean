import LinkMeter.Proofs.Latency.Averages
import LinkMeter.Proofs.Path.Accounts
import Mathlib.Order.Bounds.Defs

/-!
# The statistics of a hop

A hop keeps no samples.  It holds the last, the least and the greatest round trip with their total
and their mean, and each answered probe brings these up to date (`Hop.Measures`).  The least and the
greatest both start at zero and are guarded in different ways: zero is no greater than any round
trip, so it may stand among the candidates for the greatest, but the first answer has to replace it
as the least.

Whatever is entered for a hop, its counters and its statistics are those of the probes
(`Hop.Summarizes`), as long as no counter wraps and the total stays in range.
-/

namespace LinkMeter

namespace Span

/-! ## Shares -/

theorem seconds_share (span : Span) (count : ℕ) :
    (span.share count).seconds = span.seconds / count := by
  rw [seconds, seconds, nanos_share, Nat.div_div_eq_div_mul, Nat.div_div_eq_div_mul, Nat.mul_comm]

/-- Seconds that do not divide evenly are carried into the nanoseconds, so a share of the two parts
is a share of the whole. -/
theorem subNanos_share (span : Span) {count : ℕ} (hcount : 0 < count) :
    (span.share count).subNanos = span.subNanos / count +
      (span.seconds % count * 1_000_000_000 + span.subNanos % count) / count := by
  have hshare : span.nanos / count = span.seconds / count * 1_000_000_000 +
      (span.seconds % count * 1_000_000_000 + span.subNanos) / count := by
    rw [← Nat.mul_add_div hcount]
    congr 1
    calc span.nanos = span.seconds * 1_000_000_000 + span.subNanos :=
          span.seconds_mul_add_subNanos.symm
      _ = (count * (span.seconds / count) + span.seconds % count) * 1_000_000_000 +
            span.subNanos := by rw [Nat.div_add_mod]
      _ = count * (span.seconds / count * 1_000_000_000) +
            (span.seconds % count * 1_000_000_000 + span.subNanos) := by ring
  have hcarry : (span.seconds % count * 1_000_000_000 + span.subNanos) / count < 1_000_000_000 := by
    have hrest : span.seconds % count < count := Nat.mod_lt _ hcount
    have hsub := span.subNanos_lt
    exact Nat.div_lt_of_lt_mul (by omega)
  have hparts : (span.seconds % count * 1_000_000_000 + span.subNanos) / count =
      span.subNanos / count +
        (span.seconds % count * 1_000_000_000 + span.subNanos % count) / count := by
    rw [← Nat.mul_add_div hcount]
    congr 1
    have hsub := Nat.div_add_mod span.subNanos count
    omega
  rw [← hparts, subNanos, nanos_share, hshare, Nat.mul_add_mod', Nat.mod_eq_of_lt hcarry]

theorem exists_add? {first second : Span} (hroom : first.nanos + second.nanos < 2 ^ 64 * 10 ^ 9) :
    ∃ sum, first.add? second = some sum ∧ sum.nanos = first.nanos + second.nanos :=
  ⟨⟨_, hroom⟩, dif_pos hroom, rfl⟩

end Span

namespace Hop

variable {hop : Hop} {roundTrips : List Span}

/-! ## Round trips -/

/-- A hop holds the statistics of the round trips of its answered probes. -/
structure Measures (roundTrips : List Span) (hop : Hop) : Prop where
  received_eq : hop.received.toNat = roundTrips.length
  last_eq : hop.last = roundTrips.getLastD Span.zero
  /-- There is nothing to compare the first round trip with. -/
  best_eq : roundTrips = [] → hop.best = Span.zero
  best_isLeast : roundTrips ≠ [] → IsLeast {roundTrip | roundTrip ∈ roundTrips} hop.best
  worst_isGreatest : IsGreatest {roundTrip | roundTrip ∈ Span.zero :: roundTrips} hop.worst
  total_eq : hop.total.nanos = LatencyStats.totalNanos roundTrips
  mean_eq : hop.mean = hop.total.share hop.received.toNat

theorem isLeast_concat {least : Span} (hleast : IsLeast {roundTrip | roundTrip ∈ roundTrips} least)
    (next : Span) :
    IsLeast {roundTrip | roundTrip ∈ roundTrips ++ [next]}
      (if next < least then next else least) := by
  obtain ⟨hmem, hle⟩ := hleast
  split
  case isTrue hless =>
    refine ⟨List.mem_concat_self, fun roundTrip hroundTrip => ?_⟩
    obtain hold | hnew := List.mem_append.mp hroundTrip
    · exact Nat.le_trans (Nat.le_of_lt hless) (hle hold)
    · exact Nat.le_of_eq (congrArg Span.nanos (List.mem_singleton.mp hnew).symm)
  case isFalse hless =>
    refine ⟨List.mem_append_left _ hmem, fun roundTrip hroundTrip => ?_⟩
    obtain hold | hnew := List.mem_append.mp hroundTrip
    · exact hle hold
    · exact List.mem_singleton.mp hnew ▸ Nat.le_of_not_lt hless

theorem isGreatest_concat {greatest : Span}
    (hgreatest : IsGreatest {roundTrip | roundTrip ∈ roundTrips} greatest) (next : Span) :
    IsGreatest {roundTrip | roundTrip ∈ roundTrips ++ [next]}
      (if next > greatest then next else greatest) := by
  obtain ⟨hmem, hge⟩ := hgreatest
  split
  case isTrue hmore =>
    refine ⟨List.mem_concat_self, fun roundTrip hroundTrip => ?_⟩
    obtain hold | hnew := List.mem_append.mp hroundTrip
    · exact Nat.le_trans (hge hold) (Nat.le_of_lt hmore)
    · exact Nat.le_of_eq (congrArg Span.nanos (List.mem_singleton.mp hnew))
  case isFalse hmore =>
    refine ⟨List.mem_append_left _ hmem, fun roundTrip hroundTrip => ?_⟩
    obtain hold | hnew := List.mem_append.mp hroundTrip
    · exact hge hold
    · exact List.mem_singleton.mp hnew ▸ Nat.le_of_not_lt hmore

theorem toNat_add_one {count : UInt32} (hroom : count.toNat + 1 < 2 ^ 32) :
    (count + 1).toNat = count.toNat + 1 := by
  rw [UInt32.toNat_add]
  exact Nat.mod_eq_of_lt hroom

/-- A hop with only its address has measured nothing. -/
theorem measures_nil (address : Option Address) : ({ address := address } : Hop).Measures [] where
  received_eq := rfl
  last_eq := rfl
  best_eq _ := rfl
  best_isLeast hsome := absurd rfl hsome
  worst_isGreatest := ⟨List.mem_singleton_self _, fun _ hzero =>
    Nat.le_of_eq (congrArg Span.nanos (List.mem_singleton.mp hzero))⟩
  total_eq := rfl
  mean_eq := Span.ext (Nat.zero_div _).symm

/-- The counter tells whether a round trip is the first one, as long as it does not wrap. -/
theorem Measures.received_add_one_iff (h : hop.Measures roundTrips)
    (hcount : hop.received.toNat + 1 < 2 ^ 32) : hop.received + 1 = 1 ↔ roundTrips = [] := by
  rw [← UInt32.toNat_inj, toNat_add_one hcount, h.received_eq, UInt32.toNat_one,
    Nat.add_eq_right, List.length_eq_zero_iff]

theorem Measures.isLeast_noteReply (h : hop.Measures roundTrips)
    (hcount : hop.received.toNat + 1 < 2 ^ 32) (roundTrip : Span) :
    IsLeast {other | other ∈ roundTrips ++ [roundTrip]} (hop.noteReply roundTrip).best := by
  -- the best of a hop without answers is zero, which no comparison would replace
  simp only [noteReply, h.received_add_one_iff hcount]
  by_cases hfirst : roundTrips = []
  · rw [if_pos (.inl hfirst), hfirst]
    exact ⟨List.mem_singleton_self _, fun _ hmem =>
      Nat.le_of_eq (congrArg Span.nanos (List.mem_singleton.mp hmem).symm)⟩
  · simp only [hfirst, false_or]
    exact isLeast_concat (h.best_isLeast hfirst) roundTrip

/-- One more round trip, as long as the counter and the total have room for it. -/
theorem Measures.recordReply (h : hop.Measures roundTrips) {roundTrip : Span}
    (hcount : hop.received.toNat + 1 < 2 ^ 32)
    (htotal : hop.total.nanos + roundTrip.nanos < 2 ^ 64 * 10 ^ 9) :
    hop.recordReply? roundTrip = some (hop.recordReply roundTrip) ∧
      (hop.recordReply roundTrip).Measures (roundTrips ++ [roundTrip]) := by
  obtain ⟨total, hadd, hsum⟩ := Span.exists_add? htotal
  have hchecked : hop.recordReply? roundTrip = some
      { hop.noteReply roundTrip with
        total := total
        mean := total.share (hop.received + 1).toNat } := by
    rw [recordReply?, hadd]
    rfl
  rw [Hop.recordReply, hchecked]
  refine ⟨rfl, ?_⟩
  exact {
    received_eq := by
      rw [List.length_append, List.length_singleton, ← h.received_eq]
      exact toNat_add_one hcount
    last_eq := List.getLastD_concat.symm
    best_eq := fun hnone => absurd hnone (List.concat_ne_nil _ _)
    best_isLeast := fun _ => h.isLeast_noteReply hcount roundTrip
    worst_isGreatest := isGreatest_concat h.worst_isGreatest roundTrip
    total_eq := by
      rw [LatencyStats.totalNanos_append, ← h.total_eq]
      exact hsum
    mean_eq := rfl }

theorem Measures.recordLoss (h : hop.Measures roundTrips) : hop.recordLoss.Measures roundTrips :=
  ⟨h.received_eq, h.last_eq, h.best_eq, h.best_isLeast, h.worst_isGreatest, h.total_eq, h.mean_eq⟩

theorem Measures.setName (h : hop.Measures roundTrips) (fullName : String) :
    (hop.setName fullName).Measures roundTrips :=
  ⟨h.received_eq, h.last_eq, h.best_eq, h.best_isLeast, h.worst_isGreatest, h.total_eq, h.mean_eq⟩

/-! ## What a hop without answers and one with answers holds -/

theorem Measures.zero (h : hop.Measures []) :
    hop.last = Span.zero ∧ hop.best = Span.zero ∧ hop.worst = Span.zero ∧
      hop.total = Span.zero ∧ hop.mean = Span.zero := by
  have htotal : hop.total = Span.zero := Span.ext h.total_eq
  refine ⟨h.last_eq, h.best_eq rfl, List.mem_singleton.mp h.worst_isGreatest.1, htotal, ?_⟩
  rw [h.mean_eq, htotal]
  exact Span.ext (Nat.zero_div _)

/-- Zero does not count once there is a round trip. -/
theorem Measures.isGreatest_worst (h : hop.Measures roundTrips) (hsome : roundTrips ≠ []) :
    IsGreatest {roundTrip | roundTrip ∈ roundTrips} hop.worst := by
  obtain ⟨hmem, hge⟩ := h.worst_isGreatest
  refine ⟨?_, fun roundTrip hroundTrip => hge (List.mem_cons_of_mem _ hroundTrip)⟩
  obtain hzero | hmem := List.mem_cons.mp hmem
  · -- a worst of zero is any of the round trips
    obtain ⟨first, hfirst⟩ := List.exists_mem_of_ne_nil _ hsome
    have hfirstZero : first = hop.worst := by
      have hle : first.nanos ≤ hop.worst.nanos := hge (List.mem_cons_of_mem _ hfirst)
      rw [hzero, Span.nanos_zero, Nat.le_zero] at hle
      exact Span.ext (by rw [hle, hzero, Span.nanos_zero])
    exact hfirstZero ▸ hfirst
  · exact hmem

theorem Measures.mean_bounds (h : hop.Measures roundTrips) (hsome : roundTrips ≠ []) :
    hop.best ≤ hop.mean ∧ hop.mean ≤ hop.worst := by
  obtain ⟨hlow, hhigh⟩ := LatencyStats.totalNanos_bounds fun roundTrip hroundTrip =>
    ⟨(h.best_isLeast hsome).2 hroundTrip, (h.isGreatest_worst hsome).2 hroundTrip⟩
  have hmean : hop.mean.nanos = LatencyStats.totalNanos roundTrips / roundTrips.length := by
    rw [h.mean_eq, Span.nanos_share, h.total_eq, h.received_eq]
  constructor
  · rw [Span.le_iff, hmean, Nat.le_div_iff_mul_le (List.length_pos_iff.2 hsome), Nat.mul_comm]
    exact hlow
  · rw [Span.le_iff, hmean]
    exact Nat.div_le_of_le_mul hhigh

/-! ## Entries -/

/-- What is entered for a hop. -/
inductive Entry where
  | reply (roundTrip : Span)
  | loss
  | name (fullName : String)

namespace Entry

/-- The round trip of an answered probe. -/
def roundTrip? : Entry → Option Span
  | reply roundTrip => some roundTrip
  | loss | name _ => none

def isLoss : Entry → Bool
  | loss => true
  | reply _ | name _ => false

def isProbe : Entry → Bool
  | reply _ | loss => true
  | name _ => false

end Entry

/-- The round trips of the answered probes. -/
def roundTripsOf (entries : List Entry) : List Span := entries.filterMap Entry.roundTrip?

/-- The hop after one more entry. -/
def enter (hop : Hop) : Entry → Hop
  | .reply roundTrip => hop.recordReply roundTrip
  | .loss => hop.recordLoss
  | .name fullName => hop.setName fullName

/-- The hop after one more entry, if the total stays in range. -/
def enter? (hop : Hop) : Entry → Option Hop
  | .reply roundTrip => hop.recordReply? roundTrip
  | .loss => some hop.recordLoss
  | .name fullName => some (hop.setName fullName)

variable {entries : List Entry}

@[simp] theorem roundTripsOf_concat (entries : List Entry) (entry : Entry) :
    roundTripsOf (entries ++ [entry]) = roundTripsOf entries ++ entry.roundTrip?.toList := by
  rw [roundTripsOf, List.filterMap_append]
  cases entry <;> rfl

/-- A probe is answered or lost. -/
theorem countP_isProbe (entries : List Entry) :
    entries.countP Entry.isProbe = (roundTripsOf entries).length + entries.countP Entry.isLoss := by
  induction entries with
  | nil => rfl
  | cons entry rest ih =>
      cases entry with
      | reply roundTrip =>
          have hanswered :
              roundTripsOf (.reply roundTrip :: rest) = roundTrip :: roundTripsOf rest := rfl
          rw [List.countP_cons_of_pos rfl, List.countP_cons_of_neg Bool.false_ne_true, ih,
            hanswered, List.length_cons]
          omega
      | loss =>
          rw [List.countP_cons_of_pos rfl, List.countP_cons_of_pos rfl, ih]
          rfl
      | name fullName =>
          rw [List.countP_cons_of_neg Bool.false_ne_true,
            List.countP_cons_of_neg Bool.false_ne_true, ih]
          rfl

/-- A hop says how many probes were sent, how many of them were lost, and what the others
measured. -/
structure Summarizes (entries : List Entry) (hop : Hop) : Prop
    extends Measures (roundTripsOf entries) hop where
  sent_eq : hop.sent.toNat = entries.countP Entry.isProbe
  lost_eq : hop.lost.toNat = entries.countP Entry.isLoss

theorem summarizes_nil (address : Option Address) :
    ({ address := address } : Hop).Summarizes [] :=
  ⟨measures_nil address, rfl, rfl⟩

theorem Summarizes.sent_eq_add (h : hop.Summarizes entries) :
    hop.sent.toNat = hop.received.toNat + hop.lost.toNat := by
  rw [h.sent_eq, h.received_eq, h.lost_eq, countP_isProbe]

/-- What one entry keeps. -/
theorem Summarizes.enter (h : hop.Summarizes entries) (entry : Entry)
    (hprobes : (entries ++ [entry]).countP Entry.isProbe < 2 ^ 32)
    (htotal : LatencyStats.totalNanos (roundTripsOf (entries ++ [entry])) < 2 ^ 64 * 10 ^ 9) :
    hop.enter? entry = some (hop.enter entry) ∧
      (hop.enter entry).Summarizes (entries ++ [entry]) := by
  -- no counter is ahead of the probes sent, so all have room for one more
  have hsent := h.sent_eq_add
  rw [List.countP_append, ← h.sent_eq] at hprobes
  rw [roundTripsOf_concat] at htotal
  cases entry with
  | reply roundTrip =>
      have hprobe : hop.sent.toNat + 1 < 2 ^ 32 := hprobes
      have hroom : hop.total.nanos + roundTrip.nanos < 2 ^ 64 * 10 ^ 9 := by
        rw [LatencyStats.totalNanos_append, ← h.total_eq] at htotal
        exact htotal
      obtain ⟨hchecked, hmeasures⟩ := h.toMeasures.recordReply (by omega) hroom
      obtain ⟨-, hnext, -, hlost⟩ := hop.recordReply_eq roundTrip
      refine ⟨hchecked, ?_, ?_, ?_⟩
      · rw [roundTripsOf_concat]
        exact hmeasures
      · rw [List.countP_append, ← h.sent_eq]
        show (hop.recordReply roundTrip).sent.toNat = _
        rw [hnext, toNat_add_one hprobe]
        rfl
      · rw [List.countP_append, ← h.lost_eq]
        show (hop.recordReply roundTrip).lost.toNat = _
        rw [hlost]
        rfl
  | loss =>
      have hprobe : hop.sent.toNat + 1 < 2 ^ 32 := hprobes
      refine ⟨rfl, ?_, ?_, ?_⟩
      · rw [roundTripsOf_concat, Entry.roundTrip?, Option.toList_none, List.append_nil]
        exact h.toMeasures.recordLoss
      · rw [List.countP_append, ← h.sent_eq]
        exact toNat_add_one hprobe
      · rw [List.countP_append, ← h.lost_eq]
        exact toNat_add_one (by omega)
  | name fullName =>
      refine ⟨rfl, ?_, ?_, ?_⟩
      · rw [roundTripsOf_concat, Entry.roundTrip?, Option.toList_none, List.append_nil]
        exact h.toMeasures.setName fullName
      · rw [List.countP_append, ← h.sent_eq]
        rfl
      · rw [List.countP_append, ← h.lost_eq]
        rfl

/-- What a run of entries keeps. -/
theorem Summarizes.enterAll (address : Option Address) (entries : List Entry)
    (hprobes : entries.countP Entry.isProbe < 2 ^ 32)
    (htotal : LatencyStats.totalNanos (roundTripsOf entries) < 2 ^ 64 * 10 ^ 9) :
    entries.foldlM Hop.enter? { address := address } =
        some (entries.foldl Hop.enter { address := address }) ∧
      (entries.foldl Hop.enter { address := address }).Summarizes entries := by
  induction entries using List.reverseRecOn with
  | nil => exact ⟨rfl, summarizes_nil address⟩
  | append_singleton earlier entry ih =>
      have hearlierProbes : earlier.countP Entry.isProbe < 2 ^ 32 := by
        rw [List.countP_append] at hprobes
        omega
      have hearlierTotal : LatencyStats.totalNanos (roundTripsOf earlier) < 2 ^ 64 * 10 ^ 9 := by
        rw [roundTripsOf_concat, LatencyStats.totalNanos_append] at htotal
        omega
      obtain ⟨hchecked, hsummarizes⟩ := ih hearlierProbes hearlierTotal
      obtain ⟨hstep, hnext⟩ := hsummarizes.enter entry hprobes htotal
      rw [List.foldlM_append, hchecked, List.foldl_append]
      refine ⟨?_, hnext⟩
      rw [Option.bind_eq_bind, Option.bind_some, List.foldlM_cons, hstep]
      rfl

/-- Whatever is entered for a new hop, with fewer than `2 ^ 32` probes and with round trips whose
sum is in range, every answer can be recorded, and in the end the counters and the statistics are
those of the probes.

The probes sent are those received and those lost. Without an answer all statistics are zero. With
one, the best and the worst are the least and the greatest of the recorded round trips, some of
which may be zero. The total is their sum, and the mean is the total by the number of answers,
rounded down to nanoseconds; dividing the seconds of the total first and carrying the rest gives the
same. The mean lies between the best and the worst. -/
theorem statistics_exact (address : Option Address) (entries : List Entry)
    (hprobes : entries.countP Entry.isProbe < 2 ^ 32)
    (htotal : ((roundTripsOf entries).map Span.nanos).sum < 2 ^ 64 * 10 ^ 9) :
    let hop := entries.foldl enter { address := address }
    entries.foldlM enter? { address := address } = some hop ∧
      hop.sent.toNat = entries.countP Entry.isProbe ∧
      hop.received.toNat = (roundTripsOf entries).length ∧
      hop.lost.toNat = entries.countP Entry.isLoss ∧
      hop.sent.toNat = hop.received.toNat + hop.lost.toNat ∧
      hop.last = (roundTripsOf entries).getLastD Span.zero ∧
      hop.total.nanos = ((roundTripsOf entries).map Span.nanos).sum ∧
      hop.mean.nanos = hop.total.nanos / hop.received.toNat ∧
      (hop.received = 0 → hop.last = Span.zero ∧ hop.best = Span.zero ∧ hop.worst = Span.zero ∧
        hop.total = Span.zero ∧ hop.mean = Span.zero) ∧
      (1 ≤ hop.received.toNat →
        IsLeast {roundTrip | roundTrip ∈ roundTripsOf entries} hop.best ∧
        IsGreatest {roundTrip | roundTrip ∈ roundTripsOf entries} hop.worst ∧
        hop.mean.seconds = hop.total.seconds / hop.received.toNat ∧
        hop.mean.subNanos = hop.total.subNanos / hop.received.toNat +
          (hop.total.seconds % hop.received.toNat * 1_000_000_000 +
            hop.total.subNanos % hop.received.toNat) / hop.received.toNat ∧
        hop.best ≤ hop.mean ∧ hop.mean ≤ hop.worst) := by
  intro hop
  obtain ⟨hchecked, h⟩ := Summarizes.enterAll address entries hprobes htotal
  refine ⟨hchecked, h.sent_eq, h.received_eq, h.lost_eq, h.sent_eq_add, h.last_eq, h.total_eq, ?_,
    fun hnone => ?_, fun hsome => ?_⟩
  · rw [h.mean_eq, Span.nanos_share]
  · have hempty : roundTripsOf entries = [] := by
      rw [← List.length_eq_zero_iff, ← h.received_eq, hnone]
      rfl
    exact Measures.zero (hempty ▸ h.toMeasures)
  · have hanswered : roundTripsOf entries ≠ [] := by
      rw [← List.length_pos_iff, ← h.received_eq]
      exact hsome
    refine ⟨h.best_isLeast hanswered, h.isGreatest_worst hanswered, ?_, ?_,
      h.mean_bounds hanswered⟩
    · rw [h.mean_eq, Span.seconds_share]
    · rw [h.mean_eq, Span.subNanos_share _ hsome]

/-- A round trip of no time between two others is the least of the three, and their mean is not
whole. -/
theorem statistics_exact_zero :
    let entries : List Entry := [.reply (Span.ofMillis 20), .name "gw1.example.net",
      .reply Span.zero, .loss, .reply (Span.ofMillis 3_000)]
    entries.countP Entry.isProbe < 2 ^ 32 ∧
    ((roundTripsOf entries).map Span.nanos).sum < 2 ^ 64 * 10 ^ 9 ∧
    ∃ hop, entries.foldlM enter? {} = some hop ∧
      hop.sent.toNat = 4 ∧ hop.received.toNat = 3 ∧ hop.lost.toNat = 1 ∧
      hop.last = Span.ofMillis 3_000 ∧ hop.best = Span.zero ∧ hop.worst = Span.ofMillis 3_000 ∧
      hop.total = Span.ofMillis 3_020 ∧ hop.mean.nanos = 1_006_666_666 ∧
      hop.best ≤ hop.mean ∧ hop.mean ≤ hop.worst := by
  intro entries
  have hprobes : entries.countP Entry.isProbe < 2 ^ 32 := by decide
  have htotal : ((roundTripsOf entries).map Span.nanos).sum < 2 ^ 64 * 10 ^ 9 := by decide
  obtain ⟨hchecked, hsent, hreceived, hlost, -, hlast, hsum, hmean, -, hanswered⟩ :=
    statistics_exact none entries hprobes htotal
  have hthree : (entries.foldl enter {}).received.toNat = 3 := hreceived
  obtain ⟨hbest, hworst, -, -, hbounds⟩ := hanswered (hthree ▸ by decide)
  have htotalNanos : (entries.foldl enter {}).total.nanos = 3_020_000_000 :=
    hsum.trans (by decide)
  refine ⟨hprobes, htotal, _, hchecked, hsent, hreceived, hlost, hlast, ?_, ?_,
    Span.ext htotalNanos, ?_, hbounds⟩
  · exact Span.ext (Nat.le_zero.mp (hbest.2 (by decide : Span.zero ∈ roundTripsOf entries)))
  · have hmem : Span.ofMillis 3_000 ∈ roundTripsOf entries := by decide
    have hbounded : ∀ roundTrip ∈ roundTripsOf entries, roundTrip ≤ Span.ofMillis 3_000 := by decide
    exact Span.ext (Nat.le_antisymm (hbounded _ hworst.1) (hworst.2 hmem))
  · rw [hmean, htotalNanos, hthree]

end Hop

end LinkMeter
