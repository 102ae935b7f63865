import LinkMeter.Proofs.Transfer.Tally
import LinkMeter.Proofs.Trial.Batch

/-!
# A server's account of datagrams

A server samples datagrams as packets and publishes an account of them.  An
account tells the totals of the samples that it was reduced from, and there is
one as long as the totals fit (`Trial.publish_account`).
-/

namespace LinkMeter

open Pacing (Instant)
open Transfer (Counting Tally)

/-- How much an account of a server tells. -/
def Quantity.ofAccount : Quantity → Report → ℕ
  | .bytes, .server size _ _ _ => size.toNat
  | .packets, .server _ count _ _ => count.toNat
  | _, _ => 0

/-- The outcome is a sample of packets. -/
def Outcome.IsPackets (outcome : Outcome) : Prop :=
  ∃ count size, outcome = .packets count size

theorem Outcome.IsPackets.feeds {outcome : Outcome} (h : outcome.IsPackets) :
    Counting.packets.Feeds outcome := by
  obtain ⟨count, size, rfl⟩ := h
  exact .sample count size

/-- The outcome is an account of a server. -/
def Outcome.IsAccount (outcome : Outcome) : Prop :=
  ∃ size count bits rate, outcome = .ok (.server size count bits rate)

namespace Transfer.Tally

theorem isPackets_flush {tally : Tally} (hcounting : tally.counting = .packets) :
    ∀ outcome ∈ tally.flush.1, outcome.IsPackets := by
  intro outcome houtcome
  rw [flush, hcounting] at houtcome
  split at houtcome
  case isTrue => exact ⟨_, _, List.mem_singleton.mp houtcome⟩
  case isFalse => exact absurd houtcome List.not_mem_nil

theorem isPackets_add? {tally next : Tally} (hcounting : tally.counting = .packets)
    {units bytes : UInt64} {due : Bool} {samples : List Outcome}
    (h : tally.add? units bytes due = some (samples, next)) :
    ∀ outcome ∈ samples, outcome.IsPackets := by
  rw [add?] at h
  split at h
  case h_2 => exact absurd h (by simp)
  case h_1 =>
    cases due with
    | true =>
        obtain rfl : _ = samples := congrArg Prod.fst (Option.some.inj h)
        exact isPackets_flush hcounting
    | false =>
        obtain rfl : [] = samples := congrArg Prod.fst (Option.some.inj h)
        exact fun _ hnone => absurd hnone List.not_mem_nil

/-- A tally that cannot count packets would not fit with them. -/
theorem exists_overflow_of_add? {tally : Tally} (hcounting : tally.counting = .packets)
    {units bytes : UInt64} {due : Bool} (h : tally.add? units bytes due = none) :
    ∃ quantity : Quantity,
      UInt64.size ≤ quantity.ofTally tally + quantity.ofCount .packets units bytes := by
  have hnone : ∀ first second : UInt64, Count.add? first second = none →
      UInt64.size ≤ first.toNat + second.toNat := by
    intro first second hnone
    rw [Count.add?, Count.ofNat?] at hnone
    split at hnone
    case isTrue => exact absurd hnone (by simp)
    case isFalse hfits => exact Nat.le_of_not_lt hfits
  cases hunits : Count.add? tally.units units with
  | none =>
      refine ⟨.packets, ?_⟩
      rw [Quantity.ofTally, hcounting]
      exact hnone _ _ hunits
  | some count =>
      cases hbytes : Count.add? tally.bytes bytes with
      | none =>
          refine ⟨.bytes, ?_⟩
          rw [Quantity.ofTally, hcounting]
          exact hnone _ _ hbytes
      | some size =>
          rw [add?, hunits, hbytes] at h
          exact absurd h (by simp)

end Transfer.Tally

namespace Reducer

variable {batch : List Outcome} {seconds : UInt64}

theorem reduce?_of_packets (hpackets : ∀ outcome ∈ batch, outcome.IsPackets) (hne : batch ≠ []) :
    Reducer.server.reduce? seconds batch =
      (Reducer.server.reportOn? seconds batch).map Outcome.ok := by
  obtain ⟨first, rest, rfl⟩ := List.exists_cons_of_ne_nil hne
  obtain ⟨count, size, rfl⟩ := hpackets first List.mem_cons_self
  rfl

/-- What packets are reduced to is an account that tells their totals. -/
theorem account_of_reduce? (hpackets : ∀ outcome ∈ batch, outcome.IsPackets) (hne : batch ≠ [])
    {reduced : Outcome} (h : Reducer.server.reduce? seconds batch = some reduced) :
    reduced.IsAccount ∧
      ∀ quantity : Quantity, quantity.ofAccount reduced.report = quantity.total batch := by
  rw [reduce?_of_packets hpackets hne] at h
  obtain ⟨report, hreport, rfl⟩ := Option.map_eq_some_iff.mp h
  obtain ⟨⟨count, size⟩, hboth, rfl⟩ := Option.map_eq_some_iff.mp hreport
  have hfed : ∀ outcome ∈ batch, Counting.packets.Feeds outcome :=
    fun outcome houtcome => (hpackets outcome houtcome).feeds
  obtain ⟨hcount, hsize⟩ := Quantity.total_eq_of_totalPackets? hfed hboth
  refine ⟨⟨_, _, _, _, rfl⟩, fun quantity => ?_⟩
  cases quantity with
  | bytes => exact hsize
  | packets => exact hcount
  | connections => exact (Quantity.total_eq_zero_of_feeds hfed fun _ _ => rfl).symm

/-- Packets that cannot be reduced have a total that does not fit. -/
theorem exists_overflow_of_reduce? (hpackets : ∀ outcome ∈ batch, outcome.IsPackets)
    (h : Reducer.server.reduce? seconds batch = none) :
    ∃ quantity : Quantity, UInt64.size ≤ quantity.total batch := by
  by_contra hnone
  have hfits : ∀ quantity : Quantity, quantity.total batch < UInt64.size :=
    fun quantity => Nat.lt_of_not_le fun hle => hnone ⟨quantity, hle⟩
  have hne : batch ≠ [] := by
    rintro rfl
    exact absurd h (by simp [reduce?, firstFailure?, reportOn?, totalPackets?, packetCounts,
      Count.total?, Count.sum, Count.ofNat?, UInt64.size])
  obtain ⟨both, hboth⟩ := Quantity.exists_totalPackets?
    (fun outcome houtcome => (hpackets outcome houtcome).feeds) hfits
  rw [reduce?_of_packets hpackets hne, reportOn?, hboth] at h
  exact absurd h (by simp)

end Reducer

/-- A publication of packets empties the buffer.  It has nothing to tell, or tells an account of the
buffer, or cannot. -/
theorem Trial.publish_account {trial : Trial} (hreducer : trial.reducer = some .server)
    (hpackets : ∀ outcome ∈ trial.buffered, outcome.IsPackets) (now : Instant) :
    (trial.publish now).2.buffered = [] ∧
      ((trial.buffered = [] ∧ (trial.publish now).1 = .nothing) ∨
        (∃ outcome, (trial.publish now).1 = .emitted outcome ∧ outcome.IsAccount ∧
          ∀ quantity : Quantity,
            quantity.ofAccount outcome.report = quantity.total trial.buffered) ∨
        ((trial.publish now).1 = .overflowed ∧
          ∃ quantity : Quantity, UInt64.size ≤ quantity.total trial.buffered)) := by
  refine ⟨(Trial.publish_spec hreducer now).2.1, ?_⟩
  simp only [publish, hreducer]
  cases hbuffered : trial.buffered with
  | nil => exact .inl ⟨rfl, rfl⟩
  | cons first rest =>
      rw [← hbuffered]
      have hne : trial.buffered ≠ [] := by simp [hbuffered]
      rw [show trial.buffered.isEmpty = false by simp [hbuffered]]
      simp only [Bool.false_eq_true, if_false]
      cases hreduce : Reducer.server.reduce? (trial.publishSeconds now) trial.buffered with
      | some outcome =>
          exact .inr (.inl ⟨outcome, rfl, Reducer.account_of_reduce? hpackets hne hreduce⟩)
      | none => exact .inr (.inr ⟨rfl, Reducer.exists_overflow_of_reduce? hpackets hreduce⟩)

end LinkMeter
