import LinkMeter.Outcome.Reduce
import LinkMeter.Outcome.Summary
import LinkMeter.Transfer.Tally
import Mathlib.Algebra.BigOperators.Group.List.Basic
import Mathlib.Algebra.Ring.Nat

/-!
# Totals

A run counts three quantities: bytes, packets and connections.  Every outcome
moves some amount of each (`Quantity.ofReport`), and so do the units and bytes
of a tally, depending on how they are counted (`Quantity.ofCount`).

Three steps keep the totals, the last two as long as they fit 64 bits:

* a sample moves what was counted (`ofReport_sample`);
* the reducer of the same kind turns a batch of such samples and of failures
  into one outcome with the totals of the batch (`total_eq_of_reduce?`).  A batch
  of failures alone becomes its first failure, and neither moved anything;
* the summary tells the totals of the outcomes (`Summary.exists_ofOutcomes?`).

A reducer adds up the reports of its own kind (`Reducer.ownTotals`), whatever else
is in the batch.  A trial of one kind is fed nothing else, so there these are the
totals of the batch (`ownTotals_of_feeds`).
-/

namespace LinkMeter

open Transfer (Counting)

/-! ## Quantities -/

/-- What a run counts in its totals. -/
inductive Quantity where
  | bytes
  | packets
  | connections
  deriving DecidableEq, Repr

namespace Quantity

/-- How much a report moves. -/
def ofReport : Quantity → Report → ℕ
  | bytes, report => report.bytesMoved.toNat
  | packets, report => report.packetsMoved.toNat
  | connections, report => report.connectionsMade.toNat

/-- How much units and bytes move that are counted in some way. -/
def ofCount : Quantity → Counting → UInt64 → UInt64 → ℕ
  | bytes, .bytes, _, size => size.toNat
  | bytes, .packets, _, size => size.toNat
  | packets, .packets, count, _ => count.toNat
  | connections, .connections, count, _ => count.toNat
  | _, _, _, _ => 0

/-- How much a summary tells. -/
def ofSummary : Quantity → Summary → ℕ
  | bytes, summary => summary.bytes.toNat
  | packets, summary => summary.packets.toNat
  | connections, summary => summary.connections.toNat

/-- How much some outcomes move. -/
def total (quantity : Quantity) (outcomes : List Outcome) : ℕ :=
  (outcomes.map fun outcome => quantity.ofReport outcome.report).sum

variable {quantity : Quantity}

@[simp] theorem total_nil : quantity.total [] = 0 := rfl

@[simp] theorem total_cons (outcome : Outcome) (outcomes : List Outcome) :
    quantity.total (outcome :: outcomes) =
      quantity.ofReport outcome.report + quantity.total outcomes := by
  rw [total, List.map_cons, List.sum_cons, total]

@[simp] theorem total_append (first second : List Outcome) :
    quantity.total (first ++ second) = quantity.total first + quantity.total second := by
  rw [total, List.map_append, List.sum_append, total, total]

theorem total_eq_zero {outcomes : List Outcome}
    (h : ∀ outcome ∈ outcomes, quantity.ofReport outcome.report = 0) :
    quantity.total outcomes = 0 := by
  apply List.sum_eq_zero
  intro amount hamount
  obtain ⟨outcome, houtcome, rfl⟩ := List.mem_map.mp hamount
  exact h outcome houtcome

/-! ## What a tally counts -/

@[simp] theorem ofReport_sample (counting : Counting) (units bytes : UInt64) :
    quantity.ofReport (counting.sample units bytes).report =
      quantity.ofCount counting units bytes := by
  cases quantity <;> cases counting <;> rfl

@[simp] theorem ofReport_failed (reason : String) :
    quantity.ofReport (Outcome.failed reason).report = 0 := by
  cases quantity <;> rfl

@[simp] theorem ofCount_zero (counting : Counting) : quantity.ofCount counting 0 0 = 0 := by
  cases quantity <;> cases counting <;> rfl

/-- Counts that fit together move what they move one after the other. -/
theorem ofCount_add (counting : Counting) {units bytes moreUnits moreBytes : UInt64}
    (hunits : (units + moreUnits).toNat = units.toNat + moreUnits.toNat)
    (hbytes : (bytes + moreBytes).toNat = bytes.toNat + moreBytes.toNat) :
    quantity.ofCount counting (units + moreUnits) (bytes + moreBytes) =
      quantity.ofCount counting units bytes + quantity.ofCount counting moreUnits moreBytes := by
  cases quantity <;> cases counting <;> first | exact hunits | exact hbytes | rfl

end Quantity

/-! ## What a reducer adds up -/

namespace Reducer

variable {reducer : Reducer} {quantity : Quantity} {batch : List Outcome}

/-- Whether a reducer adds up reports of a kind. -/
def owns : Reducer → Report → Bool
  | bandwidth, .bandwidth .. => true
  | connections, .connections .. => true
  | packets, .packets .. => true
  | server, .packets .. => true
  | _, _ => false

/-- What the reports of the reducer's own kind carry, whether their outcomes succeeded or not. -/
def ownTotals (reducer : Reducer) (batch : List Outcome) (quantity : Quantity) : ℕ :=
  quantity.total (batch.filter fun outcome => reducer.owns outcome.report)

@[simp] theorem ownTotals_nil : reducer.ownTotals [] quantity = 0 := rfl

theorem ownTotals_append (first second : List Outcome) :
    reducer.ownTotals (first ++ second) quantity =
      reducer.ownTotals first quantity + reducer.ownTotals second quantity := by
  rw [ownTotals, List.filter_append, Quantity.total_append, ownTotals, ownTotals]

theorem ownTotals_eq_zero
    (h : ∀ outcome ∈ batch, reducer.owns outcome.report → quantity.ofReport outcome.report = 0) :
    reducer.ownTotals batch quantity = 0 :=
  Quantity.total_eq_zero fun outcome houtcome =>
    have hmem := List.mem_filter.1 houtcome
    h outcome hmem.1 hmem.2

/-- Counts picked from the reports of the reducer's own kind sum up to its total. -/
theorem sum_eq_ownTotals {pick : Outcome → Option UInt64}
    (hpick : ∀ outcome : Outcome, (pick outcome).map UInt64.toNat =
      if reducer.owns outcome.report then some (quantity.ofReport outcome.report) else none)
    (batch : List Outcome) :
    Count.sum (batch.filterMap pick) = reducer.ownTotals batch quantity := by
  calc Count.sum (batch.filterMap pick)
      = (batch.filterMap fun outcome => (pick outcome).map UInt64.toNat).sum := by
        rw [← List.map_filterMap]
        rfl
    _ = (batch.filterMap fun outcome =>
          if reducer.owns outcome.report then some (quantity.ofReport outcome.report)
          else none).sum := by simp only [hpick]
    _ = reducer.ownTotals batch quantity := by
        rw [ownTotals, Quantity.total, ← List.filterMap_eq_map, List.filterMap_filter]
        rfl

theorem sum_byteCounts (batch : List Outcome) :
    Count.sum (byteCounts batch) = bandwidth.ownTotals batch .bytes := by
  refine sum_eq_ownTotals (fun outcome => ?_) batch
  obtain ⟨_, _, report⟩ := outcome
  cases report <;> rfl

theorem sum_connectionCounts (batch : List Outcome) :
    Count.sum (connectionCounts batch) = connections.ownTotals batch .connections := by
  refine sum_eq_ownTotals (fun outcome => ?_) batch
  obtain ⟨_, _, report⟩ := outcome
  cases report <;> rfl

theorem sum_packetCounts (batch : List Outcome) :
    Count.sum ((packetCounts batch).map (·.1)) = packets.ownTotals batch .packets ∧
      Count.sum ((packetCounts batch).map (·.2)) = packets.ownTotals batch .bytes := by
  rw [packetCounts, List.map_filterMap, List.map_filterMap]
  constructor
  · refine sum_eq_ownTotals (fun outcome => ?_) batch
    obtain ⟨_, _, report⟩ := outcome
    cases report <;> rfl
  · refine sum_eq_ownTotals (fun outcome => ?_) batch
    obtain ⟨_, _, report⟩ := outcome
    cases report <;> rfl

/-- There is a total of packets if both sums fit, and then it tells them. -/
theorem totalPackets?_eq_some_iff {count size : UInt64} :
    totalPackets? batch = some (count, size) ↔
      count.toNat = packets.ownTotals batch .packets ∧
        size.toNat = packets.ownTotals batch .bytes := by
  obtain ⟨hcounts, hsizes⟩ := sum_packetCounts batch
  rw [← hcounts, ← hsizes, ← Count.total?_eq_some_iff, ← Count.total?_eq_some_iff, totalPackets?]
  simp only [Option.bind_eq_bind, Option.bind_eq_some_iff, Option.pure_def, Option.some.injEq,
    Prod.mk.injEq]
  constructor
  · rintro ⟨_, hcount, _, hsize, rfl, rfl⟩
    exact ⟨hcount, hsize⟩
  · rintro ⟨hcount, hsize⟩
    exact ⟨count, hcount, size, hsize, rfl, rfl⟩

theorem exists_totalPackets? (hfits : ∀ quantity, packets.ownTotals batch quantity < UInt64.size) :
    ∃ count size, totalPackets? batch = some (count, size) ∧
      count.toNat = packets.ownTotals batch .packets ∧
      size.toNat = packets.ownTotals batch .bytes := by
  have hcount := UInt64.toNat_ofNat_of_lt' (hfits .packets)
  have hsize := UInt64.toNat_ofNat_of_lt' (hfits .bytes)
  exact ⟨_, _, totalPackets?_eq_some_iff.2 ⟨hcount, hsize⟩, hcount, hsize⟩

/-- A batch stands for its first outcome if it has one and none of them succeeded. -/
theorem firstFailure?_eq_some_iff {outcome : Outcome} :
    firstFailure? batch = some outcome ↔
      (∀ other ∈ batch, other.success = false) ∧ batch.head? = some outcome := by
  have hany : batch.any (·.success) = true ↔ ¬ ∀ other ∈ batch, other.success = false := by
    simp
  rw [firstFailure?]
  split
  case isTrue hsome =>
    rw [hany] at hsome
    exact iff_of_false (by simp) (fun h => hsome h.1)
  case isFalse hnone =>
    rw [hany, not_not] at hnone
    exact (and_iff_right hnone).symm

end Reducer

/-! ## Batches of one kind -/

namespace Transfer.Counting

/-- The reducer for samples that are counted in some way. -/
def reducer : Counting → Reducer
  | bytes => .bandwidth
  | packets => .packets
  | connections => .connections

/-- What comes to a trial whose samples are counted in one way. -/
inductive Feeds (counting : Counting) : Outcome → Prop
  | sample (units bytes : UInt64) : Feeds counting (counting.sample units bytes)
  | failed (reason : String) : Feeds counting (.failed reason)

theorem success_sample (counting : Counting) (units bytes : UInt64) :
    (counting.sample units bytes).success = true := by
  cases counting <;> rfl

theorem Feeds.ofReport_eq_zero {counting : Counting} {quantity : Quantity} {outcome : Outcome}
    (h : counting.Feeds outcome)
    (hnone : ∀ units bytes, quantity.ofCount counting units bytes = 0) :
    quantity.ofReport outcome.report = 0 := by
  cases h with
  | sample units bytes => rw [Quantity.ofReport_sample, hnone]
  | failed reason => exact Quantity.ofReport_failed reason

/-- Without a success, nothing was moved. -/
theorem Feeds.ofReport_of_not_success {counting : Counting} {outcome : Outcome}
    (h : counting.Feeds outcome) (hfailed : ¬ outcome.success) (quantity : Quantity) :
    quantity.ofReport outcome.report = 0 := by
  cases h with
  | sample units bytes => exact absurd (counting.success_sample units bytes) hfailed
  | failed reason => exact Quantity.ofReport_failed reason

end Transfer.Counting

/-! ## Reducing -/

namespace Quantity

variable {quantity : Quantity} {counting : Counting} {batch : List Outcome}

/-- What comes to a trial of one kind is all added up by the reducer of that kind. -/
theorem ownTotals_of_feeds (hfed : ∀ outcome ∈ batch, counting.Feeds outcome) :
    counting.reducer.ownTotals batch quantity = quantity.total batch := by
  induction batch with
  | nil => rfl
  | cons outcome batch ih =>
      obtain ⟨hfirst, hfed⟩ := List.forall_mem_cons.1 hfed
      rw [← List.singleton_append, Reducer.ownTotals_append, total_append, ih hfed]
      congr 1
      cases hfirst with
      | sample units bytes => cases counting <;> rfl
      | failed reason => cases counting <;> cases quantity <;> rfl

theorem sum_byteCounts (hfed : ∀ outcome ∈ batch, Counting.bytes.Feeds outcome) :
    Count.sum (Reducer.byteCounts batch) = bytes.total batch :=
  (Reducer.sum_byteCounts batch).trans (ownTotals_of_feeds hfed)

theorem sum_connectionCounts (hfed : ∀ outcome ∈ batch, Counting.connections.Feeds outcome) :
    Count.sum (Reducer.connectionCounts batch) = connections.total batch :=
  (Reducer.sum_connectionCounts batch).trans (ownTotals_of_feeds hfed)

/-- What is not counted is not moved. -/
theorem total_eq_zero_of_feeds (hfed : ∀ outcome ∈ batch, counting.Feeds outcome)
    (hnone : ∀ units bytes, quantity.ofCount counting units bytes = 0) :
    quantity.total batch = 0 :=
  total_eq_zero fun outcome houtcome => (hfed outcome houtcome).ofReport_eq_zero hnone

/-- The packets of a batch and their bytes are its totals. -/
theorem total_eq_of_totalPackets? (hfed : ∀ outcome ∈ batch, Counting.packets.Feeds outcome)
    {count size : UInt64} (h : Reducer.totalPackets? batch = some (count, size)) :
    count.toNat = packets.total batch ∧ size.toNat = bytes.total batch := by
  obtain ⟨hcount, hsize⟩ := Reducer.totalPackets?_eq_some_iff.1 h
  exact ⟨hcount.trans (ownTotals_of_feeds hfed), hsize.trans (ownTotals_of_feeds hfed)⟩

/-- A report on a batch tells the totals of the batch. -/
theorem total_eq_of_reportOn? (hfed : ∀ outcome ∈ batch, counting.Feeds outcome)
    {seconds : UInt64} {report : Report}
    (h : counting.reducer.reportOn? seconds batch = some report) (quantity : Quantity) :
    quantity.ofReport report = quantity.total batch := by
  cases counting with
  | bytes =>
      obtain ⟨moved, hmoved, rfl⟩ := Option.map_eq_some_iff.mp h
      rw [Count.total?_eq_some_iff, sum_byteCounts hfed] at hmoved
      cases quantity with
      | bytes => exact hmoved
      | packets | connections => exact (total_eq_zero_of_feeds hfed fun _ _ => rfl).symm
  | connections =>
      obtain ⟨made, hmade, rfl⟩ := Option.map_eq_some_iff.mp h
      rw [Count.total?_eq_some_iff, sum_connectionCounts hfed] at hmade
      cases quantity with
      | connections => exact hmade
      | bytes | packets => exact (total_eq_zero_of_feeds hfed fun _ _ => rfl).symm
  | packets =>
      obtain ⟨⟨count, size⟩, hboth, rfl⟩ := Option.map_eq_some_iff.mp h
      obtain ⟨hcount, hsize⟩ := total_eq_of_totalPackets? hfed hboth
      cases quantity with
      | packets => exact hcount
      | bytes => exact hsize
      | connections => exact (total_eq_zero_of_feeds hfed fun _ _ => rfl).symm

theorem exists_totalPackets? (hfed : ∀ outcome ∈ batch, Counting.packets.Feeds outcome)
    (hfits : ∀ quantity : Quantity, quantity.total batch < UInt64.size) :
    ∃ both, Reducer.totalPackets? batch = some both := by
  have hown (quantity : Quantity) : Reducer.packets.ownTotals batch quantity < UInt64.size :=
    (ownTotals_of_feeds hfed).trans_lt (hfits quantity)
  obtain ⟨_, _, hboth, -⟩ := Reducer.exists_totalPackets? hown
  exact ⟨_, hboth⟩

/-- There is a report on every batch whose totals fit. -/
theorem exists_reportOn? (hfed : ∀ outcome ∈ batch, counting.Feeds outcome)
    (hfits : ∀ quantity : Quantity, quantity.total batch < UInt64.size) (seconds : UInt64) :
    ∃ report, counting.reducer.reportOn? seconds batch = some report := by
  cases counting with
  | bytes =>
      obtain ⟨moved, hmoved, -⟩ := Count.exists_total? (sum_byteCounts hfed ▸ hfits .bytes)
      exact ⟨_, Option.map_eq_some_iff.mpr ⟨moved, hmoved, rfl⟩⟩
  | connections =>
      obtain ⟨made, hmade, -⟩ :=
        Count.exists_total? (sum_connectionCounts hfed ▸ hfits .connections)
      exact ⟨_, Option.map_eq_some_iff.mpr ⟨made, hmade, rfl⟩⟩
  | packets =>
      obtain ⟨both, hboth⟩ := exists_totalPackets? hfed hfits
      exact ⟨_, Option.map_eq_some_iff.mpr ⟨both, hboth, rfl⟩⟩

/-- A reduced batch keeps its totals. -/
theorem total_eq_of_reduce? (hfed : ∀ outcome ∈ batch, counting.Feeds outcome)
    {seconds : UInt64} {reduced : Outcome}
    (h : counting.reducer.reduce? seconds batch = some reduced) (quantity : Quantity) :
    quantity.ofReport reduced.report = quantity.total batch := by
  rw [Reducer.reduce?] at h
  cases hfirst : Reducer.firstFailure? batch with
  | some failure =>
      -- failures alone: the first one stands for all of them, and none moved anything
      rw [hfirst] at h
      obtain rfl := Option.some.inj h
      obtain ⟨hfailed, hhead⟩ := Reducer.firstFailure?_eq_some_iff.1 hfirst
      have hnothing : ∀ outcome ∈ batch, quantity.ofReport outcome.report = 0 :=
        fun outcome houtcome => (hfed outcome houtcome).ofReport_of_not_success
          (ne_true_of_eq_false (hfailed outcome houtcome)) quantity
      rw [hnothing failure (List.mem_of_head? hhead), total_eq_zero hnothing]
  | none =>
      rw [hfirst] at h
      obtain ⟨report, hreport, rfl⟩ := Option.map_eq_some_iff.mp h
      exact total_eq_of_reportOn? hfed hreport quantity

/-- Every batch whose totals fit is reduced. -/
theorem exists_reduce? (hfed : ∀ outcome ∈ batch, counting.Feeds outcome)
    (hfits : ∀ quantity : Quantity, quantity.total batch < UInt64.size) (seconds : UInt64) :
    ∃ reduced, counting.reducer.reduce? seconds batch = some reduced := by
  rw [Reducer.reduce?]
  cases Reducer.firstFailure? batch with
  | some failure => exact ⟨failure, rfl⟩
  | none =>
      obtain ⟨report, hreport⟩ := exists_reportOn? hfed hfits seconds
      exact ⟨.ok report, Option.map_eq_some_iff.mpr ⟨report, hreport, rfl⟩⟩

end Quantity

/-! ## Summing up -/

namespace Summary

/-- What reports move is totalled exactly, if it fits. -/
private theorem exists_moved {outcomes : List Outcome} {quantity : Quantity}
    {moved : Report → UInt64} (hmoved : ∀ report, quantity.ofReport report = (moved report).toNat)
    (hfits : quantity.total outcomes < UInt64.size) :
    ∃ total, Count.total? ((outcomes.map (·.report)).map moved) = some total ∧
      total.toNat = quantity.total outcomes := by
  have hsum : Count.sum ((outcomes.map (·.report)).map moved) = quantity.total outcomes := by
    calc Count.sum ((outcomes.map (·.report)).map moved)
        = (((outcomes.map (·.report)).map moved).map UInt64.toNat).sum := rfl
      _ = (outcomes.map fun outcome => (moved outcome.report).toNat).sum := by
          rw [List.map_map, List.map_map]
          rfl
      _ = quantity.total outcomes := by simp only [Quantity.total, hmoved]
  obtain ⟨total, htotal, htotalEq⟩ := Count.exists_total? (hsum ▸ hfits)
  exact ⟨total, htotal, htotalEq.trans hsum⟩

/-- Outcomes whose totals fit have a summary, which tells these totals. -/
theorem exists_ofOutcomes? {outcomes : List Outcome}
    (hfits : ∀ quantity : Quantity, quantity.total outcomes < UInt64.size) (duration : Span)
    (workers : ℕ) :
    ∃ summary, ofOutcomes? outcomes duration workers = some summary ∧
      summary.duration = duration ∧ summary.workers = workers ∧
      ∀ quantity : Quantity, quantity.ofSummary summary = quantity.total outcomes := by
  obtain ⟨bytes, hbytes, hbytesEq⟩ := exists_moved (fun _ => rfl) (hfits .bytes)
  obtain ⟨packets, hpackets, hpacketsEq⟩ := exists_moved (fun _ => rfl) (hfits .packets)
  obtain ⟨made, hmade, hmadeEq⟩ := exists_moved (fun _ => rfl) (hfits .connections)
  refine ⟨{ duration, workers, bytes, packets, connections := made
            bitsPerSecond := meanBits bytes duration }, ?_, rfl, rfl, ?_⟩
  · simp only [ofOutcomes?, hbytes, hpackets, hmade, Option.bind_eq_bind, Option.bind_some,
      Option.pure_def]
  · intro quantity
    cases quantity with
    | bytes => exact hbytesEq
    | packets => exact hpacketsEq
    | connections => exact hmadeEq

end Summary

end LinkMeter
