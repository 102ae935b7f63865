import LinkMeter.Proofs.Outcome.Account

/-!
# Reducing in pieces

The reducers of bytes, connections, packets and a server's datagrams add up what
reports of their own kind carry (`Reducer.ownTotals`) and tell these totals with
their rates (`Reducer.Tells`).  What a reducer tells is a function of its totals
alone, so the order of a batch does not matter, and a batch may be cut up and its
pieces reduced one by one.

A batch of failures takes another way: it becomes its first failure.  That piece
then tells nothing, which is right only if its failures carried nothing of the
reducer's own kind either; in a larger batch they would have been added up.
-/

namespace LinkMeter

/-- How much a published report tells.  A server's account of datagrams is no sample, so what it
tells is not counted among what samples move. -/
def Quantity.ofPublished : Quantity → Report → ℕ
  | quantity, .server size count bits rate => quantity.ofAccount (.server size count bits rate)
  | quantity, report => quantity.ofReport report

/-- How much an outcome tells.  A failure tells nothing, whatever it carries. -/
def Outcome.told (outcome : Outcome) (quantity : Quantity) : ℕ :=
  if outcome.success then quantity.ofPublished outcome.report else 0

namespace Reducer

/-- The reducers that tell totals and rates. -/
def additive : List Reducer := [bandwidth, connections, packets, server]

/-- A total per second, where less than one second counts as one. -/
def rateOf (total seconds : ℕ) : ℕ := total / max 1 seconds

/-- A number of bytes in bits, as far as 64 bits can tell. -/
def bitsIn (bytes : ℕ) : ℕ := min (8 * bytes) (UInt64.size - 1)

/-- A report of the reducer's kind tells some totals and their rates over some seconds. -/
inductive Tells (totals : Quantity → ℕ) (seconds : ℕ) : Reducer → Report → Prop
  | bandwidth {size bits : UInt64} (hsize : size.toNat = totals .bytes)
      (hbits : bits.toNat = rateOf (bitsIn (totals .bytes)) seconds) :
      Tells totals seconds .bandwidth (.bandwidth size bits)
  | connections {count rate : UInt64} (hcount : count.toNat = totals .connections)
      (hrate : rate.toNat = rateOf (totals .connections) seconds) :
      Tells totals seconds .connections (.connections count rate)
  | packets {count size rate bits : UInt64} (hcount : count.toNat = totals .packets)
      (hsize : size.toNat = totals .bytes) (hrate : rate.toNat = rateOf (totals .packets) seconds)
      (hbits : bits.toNat = rateOf (bitsIn (totals .bytes)) seconds) :
      Tells totals seconds .packets (.packets count size rate bits)
  | server {size count bits rate : UInt64} (hsize : size.toNat = totals .bytes)
      (hcount : count.toNat = totals .packets)
      (hbits : bits.toNat = rateOf (bitsIn (totals .bytes)) seconds)
      (hrate : rate.toNat = rateOf (totals .packets) seconds) :
      Tells totals seconds .server (.server size count bits rate)

variable {reducer : Reducer} {seconds : UInt64} {batch other : List Outcome}
  {quantity : Quantity} {outcome : Outcome} {report : Report}

/-! ## Rates -/

theorem toNat_perSecond (total seconds : UInt64) :
    (perSecond total seconds).toNat = rateOf total.toNat seconds.toNat := by
  have hmax : (max seconds 1).toNat = max 1 seconds.toNat := by
    rw [show max seconds 1 = if seconds ≤ 1 then 1 else seconds from rfl]
    split
    case isTrue hle => exact (Nat.max_eq_left (UInt64.le_iff_toNat_le.1 hle)).symm
    case isFalse hlt =>
      exact (Nat.max_eq_right (Nat.le_of_not_le (mt UInt64.le_iff_toNat_le.2 hlt))).symm
  rw [perSecond, UInt64.toNat_div, hmax, rateOf]

theorem toNat_bitsOf (bytes : UInt64) : (bitsOf bytes).toNat = bitsIn bytes.toNat := by
  rw [bitsOf, bitsIn]
  split
  case isTrue hfits =>
    have hproduct : (bytes * 8).toNat = bytes.toNat * 8 := by
      rw [UInt64.toNat_mul]
      exact Nat.mod_eq_of_lt hfits
    omega
  case isFalse hlarge =>
    rw [UInt64.toNat_ofNat_of_lt' (by decide)]
    exact (Nat.min_eq_right (by omega)).symm

/-! ## Reports -/

theorem owns_server (report : Report) : server.owns report = packets.owns report := by
  cases report <;> rfl

theorem ownTotals_server (batch : List Outcome) :
    server.ownTotals batch = packets.ownTotals batch := by
  funext quantity
  simp only [ownTotals, owns_server]

/-- A batch whose totals fit has a report, which tells them. -/
theorem exists_tells (hadditive : reducer ∈ additive)
    (hfits : ∀ quantity, reducer.ownTotals batch quantity < UInt64.size) (seconds : UInt64) :
    ∃ report, reducer.reportOn? seconds batch = some report ∧
      reducer.Tells (reducer.ownTotals batch) seconds.toNat report := by
  cases reducer with
  | latency | ping => exact absurd hadditive (by decide)
  | bandwidth =>
      obtain ⟨size, hsize, hsizeEq⟩ :=
        Count.exists_total? (sum_byteCounts batch ▸ hfits .bytes)
      rw [sum_byteCounts] at hsizeEq
      refine ⟨_, Option.map_eq_some_iff.2 ⟨size, hsize, rfl⟩, .bandwidth hsizeEq ?_⟩
      rw [toNat_perSecond, toNat_bitsOf, hsizeEq]
  | connections =>
      obtain ⟨count, hcount, hcountEq⟩ :=
        Count.exists_total? (sum_connectionCounts batch ▸ hfits .connections)
      rw [sum_connectionCounts] at hcountEq
      refine ⟨_, Option.map_eq_some_iff.2 ⟨count, hcount, rfl⟩, .connections hcountEq ?_⟩
      rw [toNat_perSecond, hcountEq]
  | packets =>
      obtain ⟨count, size, hboth, hcount, hsize⟩ := exists_totalPackets? hfits
      refine ⟨_, Option.map_eq_some_iff.2 ⟨_, hboth, rfl⟩, .packets hcount hsize ?_ ?_⟩
      · rw [toNat_perSecond, hcount]
      · rw [toNat_perSecond, toNat_bitsOf, hsize]
  | server =>
      rw [ownTotals_server] at hfits ⊢
      obtain ⟨count, size, hboth, hcount, hsize⟩ := exists_totalPackets? hfits
      refine ⟨_, Option.map_eq_some_iff.2 ⟨_, hboth, rfl⟩, .server hsize hcount ?_ ?_⟩
      · rw [toNat_perSecond, toNat_bitsOf, hsize]
      · rw [toNat_perSecond, hcount]

/-- The quantities that the reports of a reducer's kind carry. -/
def counts : Reducer → Quantity → Bool
  | bandwidth, .bytes => true
  | connections, .connections => true
  | packets, .bytes | packets, .packets => true
  | server, .bytes | server, .packets => true
  | _, _ => false

theorem ofReport_of_not_counts (hnone : reducer.counts quantity = false)
    (hown : reducer.owns report) : quantity.ofReport report = 0 := by
  cases reducer <;> cases report <;> try cases hown
  all_goals cases quantity <;> first | rfl | cases hnone

theorem ownTotals_of_not_counts (hnone : reducer.counts quantity = false) :
    reducer.ownTotals batch quantity = 0 :=
  ownTotals_eq_zero fun _ _ => ofReport_of_not_counts hnone

/-- A report tells the totals, and nothing of what its reducer does not add up. -/
theorem Tells.told {seconds : ℕ} (htells : reducer.Tells (reducer.ownTotals batch) seconds report)
    (quantity : Quantity) :
    (Outcome.ok report).told quantity = reducer.ownTotals batch quantity := by
  cases htells with
  | bandwidth hsize =>
      cases quantity with
      | bytes => exact hsize
      | packets | connections => exact (ownTotals_of_not_counts rfl).symm
  | connections hcount =>
      cases quantity with
      | connections => exact hcount
      | bytes | packets => exact (ownTotals_of_not_counts rfl).symm
  | packets hcount hsize =>
      cases quantity with
      | packets => exact hcount
      | bytes => exact hsize
      | connections => exact (ownTotals_of_not_counts rfl).symm
  | server hsize hcount =>
      cases quantity with
      | packets => exact hcount
      | bytes => exact hsize
      | connections => exact (ownTotals_of_not_counts rfl).symm

/-! ## Batches -/

theorem firstFailure?_of_success (hsuccess : ∃ other ∈ batch, other.success = true) :
    firstFailure? batch = none :=
  if_pos (List.any_eq_true.2 hsuccess)

theorem reduce?_of_firstFailure? (hfirst : firstFailure? batch = none) :
    reducer.reduce? seconds batch = (reducer.reportOn? seconds batch).map Outcome.ok := by
  rw [reduce?, hfirst]

/-- Only a batch without a success is reduced to a failure. -/
theorem reduce?_failed_iff :
    (reducer.reduce? seconds batch = some outcome ∧ outcome.success = false) ↔
      (∀ other ∈ batch, other.success = false) ∧ batch.head? = some outcome := by
  rw [← firstFailure?_eq_some_iff]
  cases hfirst : firstFailure? batch with
  | some failure =>
      obtain ⟨hfailed, hhead⟩ := firstFailure?_eq_some_iff.1 hfirst
      rw [reduce?, hfirst]
      constructor
      · exact And.left
      · intro heq
        obtain rfl := Option.some.inj heq
        exact ⟨rfl, hfailed failure (List.mem_of_head? hhead)⟩
  | none =>
      rw [reduce?_of_firstFailure? hfirst]
      refine iff_of_false ?_ (by simp)
      rintro ⟨hreduced, hfailed⟩
      obtain ⟨report, -, rfl⟩ := Option.map_eq_some_iff.1 hreduced
      cases hfailed

theorem exists_reduce?_ok (hadditive : reducer ∈ additive) (hfirst : firstFailure? batch = none)
    (hfits : ∀ quantity, reducer.ownTotals batch quantity < UInt64.size) (seconds : UInt64) :
    ∃ report, reducer.reduce? seconds batch = some (.ok report) ∧
      reducer.Tells (reducer.ownTotals batch) seconds.toNat report := by
  obtain ⟨report, hreport, htells⟩ := exists_tells hadditive hfits seconds
  refine ⟨report, ?_, htells⟩
  rw [reduce?_of_firstFailure? hfirst, hreport, Option.map_some]

/-- The failures of a batch carry nothing. -/
def Plain (batch : List Outcome) : Prop :=
  ∀ outcome ∈ batch, outcome.success = false → outcome.report = .nothing

/-- If failures carry nothing, what a batch is reduced to tells its totals either way. -/
theorem exists_told (hadditive : reducer ∈ additive) (hplain : Plain batch)
    (hfits : ∀ quantity, reducer.ownTotals batch quantity < UInt64.size) (seconds : UInt64) :
    ∃ outcome, reducer.reduce? seconds batch = some outcome ∧
      ∀ quantity, outcome.told quantity = reducer.ownTotals batch quantity := by
  cases hfirst : firstFailure? batch with
  | some failure =>
      obtain ⟨hfailed, hhead⟩ := firstFailure?_eq_some_iff.1 hfirst
      refine ⟨failure, by rw [reduce?, hfirst], fun quantity => ?_⟩
      have hnone : reducer.ownTotals batch quantity = 0 := by
        refine ownTotals_eq_zero fun other hother _ => ?_
        rw [hplain other hother (hfailed other hother)]
        cases quantity <;> rfl
      rw [hnone, Outcome.told, hfailed failure (List.mem_of_head? hhead)]
      rfl
  | none =>
      obtain ⟨report, hreduced, htells⟩ := exists_reduce?_ok hadditive hfirst hfits seconds
      exact ⟨.ok report, hreduced, htells.told⟩

/-! ## Pieces and orders -/

/-- Pieces of a batch, each reduced over its own seconds, tell the totals of the batch together. -/
theorem exists_told_pieces (hadditive : reducer ∈ additive)
    {pieces : List (UInt64 × List Outcome)} (hplain : Plain (pieces.flatMap (·.2)))
    (hfits : ∀ quantity, reducer.ownTotals (pieces.flatMap (·.2)) quantity < UInt64.size) :
    ∃ parts : List Outcome,
      pieces.map (fun piece => reducer.reduce? piece.1 piece.2) = parts.map some ∧
      ∀ quantity, (parts.map (·.told quantity)).sum =
        reducer.ownTotals (pieces.flatMap (·.2)) quantity := by
  induction pieces with
  | nil => exact ⟨[], rfl, fun _ => rfl⟩
  | cons piece pieces ih =>
      simp only [List.flatMap_cons, ownTotals_append] at hfits ⊢
      rw [List.flatMap_cons] at hplain
      obtain ⟨part, hpart, htold⟩ := exists_told hadditive
        (fun outcome houtcome => hplain outcome (List.mem_append_left _ houtcome))
        (fun quantity => Nat.lt_of_le_of_lt (Nat.le_add_right _ _) (hfits quantity)) piece.1
      obtain ⟨parts, hparts, hsum⟩ := ih
        (fun outcome houtcome => hplain outcome (List.mem_append_right _ houtcome))
        (fun quantity => Nat.lt_of_le_of_lt (Nat.le_add_left _ _) (hfits quantity))
      refine ⟨part :: parts, ?_, fun quantity => ?_⟩
      · rw [List.map_cons, hpart, hparts, List.map_cons]
      · rw [List.map_cons, List.sum_cons, htold, hsum]

theorem total?_perm {counts others : List UInt64} (hperm : counts.Perm others) :
    Count.total? counts = Count.total? others := by
  have hsum : Count.sum counts = Count.sum others := (hperm.map UInt64.toNat).sum_eq
  rw [Count.total?, Count.total?, hsum]

theorem totalPackets?_perm (hperm : batch.Perm other) :
    totalPackets? batch = totalPackets? other := by
  have hcounts : (packetCounts batch).Perm (packetCounts other) := hperm.filterMap _
  rw [totalPackets?, totalPackets?, total?_perm (hcounts.map _), total?_perm (hcounts.map _)]

theorem reportOn?_perm (hadditive : reducer ∈ additive) (hperm : batch.Perm other)
    (seconds : UInt64) : reducer.reportOn? seconds batch = reducer.reportOn? seconds other := by
  cases reducer with
  | latency | ping => exact absurd hadditive (by decide)
  | bandwidth =>
      have hcounts : (byteCounts batch).Perm (byteCounts other) := hperm.filterMap _
      rw [reportOn?, reportOn?, total?_perm hcounts]
  | connections =>
      have hcounts : (connectionCounts batch).Perm (connectionCounts other) := hperm.filterMap _
      rw [reportOn?, reportOn?, total?_perm hcounts]
  | packets | server => rw [reportOn?, reportOn?, totalPackets?_perm hperm]

/-- The order of a batch with a success does not matter. -/
theorem reduce?_perm (hadditive : reducer ∈ additive) (hperm : batch.Perm other)
    (hsuccess : ∃ outcome ∈ batch, outcome.success = true) (seconds : UInt64) :
    reducer.reduce? seconds other = reducer.reduce? seconds batch := by
  have hother : ∃ outcome ∈ other, outcome.success = true :=
    hsuccess.imp fun _ houtcome => ⟨hperm.mem_iff.1 houtcome.1, houtcome.2⟩
  rw [reduce?_of_firstFailure? (firstFailure?_of_success hsuccess),
    reduce?_of_firstFailure? (firstFailure?_of_success hother),
    reportOn?_perm hadditive hperm]

/-- A reducer that adds up, over any number of seconds.  A batch is reduced to a failure exactly if
it holds one outcome at least and no success, and then it is its first outcome as it stands.  Any
other batch whose totals fit is reduced to a success that tells the totals of the reducer's own kind
and their rates.  If failures carry nothing, a batch may be cut into pieces and each piece reduced
by itself, over its own seconds: the totals of the pieces, of which a failure tells none, add up to
what the whole batch is reduced to.  The order of a batch with a success does not matter. -/
theorem reduces_additively {reducer : Reducer} (hadditive : reducer ∈ additive)
    (seconds : UInt64) :
    (∀ batch,
      (∀ outcome, (reducer.reduce? seconds batch = some outcome ∧ outcome.success = false) ↔
        (∀ other ∈ batch, other.success = false) ∧ batch.head? = some outcome) ∧
      ((batch = [] ∨ ∃ other ∈ batch, other.success = true) →
        (∀ quantity, reducer.ownTotals batch quantity < UInt64.size) →
        ∃ report, reducer.reduce? seconds batch = some (.ok report) ∧
          reducer.Tells (reducer.ownTotals batch) seconds.toNat report)) ∧
    (∀ pieces : List (UInt64 × List Outcome), Plain (pieces.flatMap (·.2)) →
      (∀ quantity, reducer.ownTotals (pieces.flatMap (·.2)) quantity < UInt64.size) →
      ∃ (whole : Outcome) (parts : List Outcome),
        reducer.reduce? seconds (pieces.flatMap (·.2)) = some whole ∧
        pieces.map (fun piece => reducer.reduce? piece.1 piece.2) = parts.map some ∧
        ∀ quantity, (parts.map (·.told quantity)).sum = whole.told quantity) ∧
    ∀ batch other, batch.Perm other → (∃ outcome ∈ batch, outcome.success = true) →
      reducer.reduce? seconds other = reducer.reduce? seconds batch := by
  refine ⟨fun batch => ⟨fun outcome => reduce?_failed_iff, fun hsuccess hfits => ?_⟩,
    fun pieces hplain hfits => ?_,
    fun batch other hperm hsuccess => reduce?_perm hadditive hperm hsuccess seconds⟩
  · refine exists_reduce?_ok hadditive ?_ hfits seconds
    rcases hsuccess with rfl | hsome
    · rfl
    · exact firstFailure?_of_success hsome
  · obtain ⟨whole, hwhole, htold⟩ := exists_told hadditive hplain hfits seconds
    obtain ⟨parts, hparts, hsum⟩ := exists_told_pieces hadditive hplain hfits
    exact ⟨whole, parts, hwhole, hparts,
      fun quantity => (hsum quantity).trans (htold quantity).symm⟩

/-- Packets over less than a second: two failures, then samples with one of another kind and a
failure among them, then one more sample. -/
theorem reduces_additively_mixed :
    let pieces : List (UInt64 × List Outcome) :=
      [(1, [.failed "refused", .failed "reset"]),
        (2, [.packets 3 100, .bytes 7, .failed "reset"]), (0, [.packets 5 11])]
    let batch := pieces.flatMap (·.2)
    (packets ∈ additive ∧ Plain batch ∧
      (∀ quantity, packets.ownTotals batch quantity < UInt64.size) ∧
      ∃ outcome ∈ batch, outcome.success = true) ∧
    (packets.reduce? 0 [.failed "refused", .failed "reset"] = some (.failed "refused") ∧
      ∃ report, packets.reduce? 0 batch = some (.ok report) ∧
        packets.Tells (packets.ownTotals batch) 0 report) ∧
    (∃ (whole : Outcome) (parts : List Outcome), packets.reduce? 0 batch = some whole ∧
      pieces.map (fun piece => packets.reduce? piece.1 piece.2) = parts.map some ∧
      (parts.map (·.told .bytes)).sum = whole.told .bytes) ∧
    packets.reduce? 0 batch.reverse = packets.reduce? 0 batch := by
  intro pieces batch
  have hadditive : packets ∈ additive := by decide
  have hplain : Plain batch := by
    unfold Plain
    decide
  have hfits : ∀ quantity, packets.ownTotals batch quantity < UInt64.size := by
    intro quantity
    cases quantity <;> decide
  have hsuccess : ∃ outcome ∈ batch, outcome.success = true := by decide
  obtain ⟨hreduced, hpieces, horder⟩ := reduces_additively hadditive 0
  refine ⟨⟨hadditive, hplain, hfits, hsuccess⟩, ⟨?_, ?_⟩, ?_, ?_⟩
  · exact (((hreduced _).1 _).2 ⟨by decide, rfl⟩).1
  · exact (hreduced batch).2 (.inr hsuccess) hfits
  · obtain ⟨whole, parts, hwhole, hparts, hsum⟩ := hpieces pieces hplain hfits
    exact ⟨whole, parts, hwhole, hparts, hsum .bytes⟩
  · exact horder batch batch.reverse batch.reverse_perm.symm hsuccess

end Reducer

end LinkMeter
