import LinkMeter.Path.Monitor
import Mathlib.Data.List.Basic
import Mathlib.Data.List.Count

/-!
# The account of a hop

A hop tells what came of its probes (`Hop.Tells`): its address is that of the
first one who answered, the answers from there are received, and all other
probes are lost.  The counters of a hop wrap, so they are exact while there are
fewer than `UInt32.size` probes.

A discovery and the monitoring after it count in different ways
(`Hop.ofFinding`, `Hop.absorb`).  Both keep the account (`Hop.tells_ofFinding`,
`Hop.Tells.absorb`), and neither a name nor a total out of range touches it.
-/

namespace LinkMeter

open Icmp (Finding ProbeId)

namespace Hop

/-- Whether a probe was answered by the one at an address, if there is one. -/
def isAnsweredBy (address : Option Address) (finding : Finding) : Bool :=
  finding.peer?.isSome && finding.peer? == address

/-- The counters of a hop are those of the probes sent to it. -/
structure Counts (findings : List Finding) (hop : Hop) : Prop where
  sent_eq : hop.sent = .ofNat findings.length
  received_eq : hop.received = .ofNat (findings.countP (isAnsweredBy hop.address))
  lost_eq : hop.lost = .ofNat (findings.countP (!isAnsweredBy hop.address ·))

/-- A hop says what came of the probes sent to it. -/
structure Tells (findings : List Finding) (hop : Hop) : Prop extends Counts findings hop where
  address_eq : hop.address = findings.findSome? Finding.peer?

variable {findings : List Finding} {finding : Finding} {hop : Hop}

/-! ## Counting one more probe -/

/-- An answered probe is counted as such, whether its round trip can be added or not. -/
theorem recordReply_eq (hop : Hop) (roundTrip : Span) :
    (hop.recordReply roundTrip).address = hop.address ∧
      (hop.recordReply roundTrip).sent = hop.sent + 1 ∧
      (hop.recordReply roundTrip).received = hop.received + 1 ∧
      (hop.recordReply roundTrip).lost = hop.lost := by
  rw [recordReply, recordReply?]
  cases hop.total.add? roundTrip <;> exact ⟨rfl, rfl, rfl, rfl⟩

theorem Counts.recordReply (h : hop.Counts findings)
    (hanswered : isAnsweredBy hop.address finding = true) (roundTrip : Span) :
    (hop.recordReply roundTrip).Counts (findings ++ [finding]) := by
  obtain ⟨haddress, hsent, hreceived, hlost⟩ := hop.recordReply_eq roundTrip
  refine ⟨?_, ?_, ?_⟩
  · rw [hsent, h.sent_eq, List.length_append, UInt32.ofNat_add]
    rfl
  · rw [hreceived, haddress, h.received_eq, List.countP_append, UInt32.ofNat_add,
      List.countP_singleton, if_pos hanswered]
    rfl
  · rw [hlost, haddress, h.lost_eq, List.countP_append, List.countP_singleton, hanswered]
    rfl

theorem Counts.recordLoss (h : hop.Counts findings)
    (hlost : isAnsweredBy hop.address finding = false) :
    hop.recordLoss.Counts (findings ++ [finding]) := by
  refine ⟨?_, ?_, ?_⟩
  · show hop.sent + 1 = _
    rw [h.sent_eq, List.length_append, UInt32.ofNat_add]
    rfl
  · show hop.received = .ofNat (List.countP (isAnsweredBy hop.address) _)
    rw [h.received_eq, List.countP_append, List.countP_singleton, hlost]
    rfl
  · show hop.lost + 1 = .ofNat (List.countP (!isAnsweredBy hop.address ·) _)
    rw [h.lost_eq, List.countP_append, List.countP_singleton, hlost, UInt32.ofNat_add]
    rfl

/-- As long as nobody answered, an address that is adopted has not answered either. -/
theorem Counts.adopt (h : hop.Counts findings)
    (hsilent : findings.findSome? Finding.peer? = none) (address : Address) :
    ({ hop with address := some address } : Hop).Counts findings := by
  have hanswers : ∀ finding ∈ findings,
      isAnsweredBy (some address) finding = isAnsweredBy hop.address finding := by
    intro finding hfinding
    have hnone : finding.peer? = none := List.findSome?_eq_none_iff.mp hsilent finding hfinding
    rw [isAnsweredBy, isAnsweredBy, hnone]
    rfl
  refine ⟨h.sent_eq, h.received_eq.trans (congrArg _ ?_), h.lost_eq.trans (congrArg _ ?_)⟩
  · exact List.countP_congr fun finding hfinding => by rw [hanswers finding hfinding]
  · exact List.countP_congr fun finding hfinding => by rw [hanswers finding hfinding]

/-! ## The account -/

/-- A name is no part of the account. -/
theorem Tells.setName (h : hop.Tells findings) (fullName : String) :
    (hop.setName fullName).Tells findings :=
  ⟨⟨h.sent_eq, h.received_eq, h.lost_eq⟩, h.address_eq⟩

theorem Tells.withName (h : hop.Tells findings) (names : Path.Names) :
    (Path.withName names hop).Tells findings := by
  rw [Path.withName]
  split
  case h_1 => exact h.setName _
  case h_2 => exact h

theorem tells_nil : ({} : Hop).Tells [] := ⟨⟨rfl, rfl, rfl⟩, rfl⟩

/-- Who answers first gives the hop its address, for good. -/
theorem findSome?_peer?_snoc (findings : List Finding) (finding : Finding) :
    (findings ++ [finding]).findSome? Finding.peer? =
      (findings.findSome? Finding.peer?).or finding.peer? := by
  rw [List.findSome?_append]
  cases finding <;> rfl

/-- The hop that adopts the address of the first one who answers. -/
theorem Tells.adopt (h : hop.Tells findings) (haddress : hop.address = none) {answer : Icmp.Answer}
    (roundTrip : Span) (peer : Address) :
    ({ hop with address := some peer }.recordReply roundTrip).Tells
      (findings ++ [Finding.answered answer roundTrip peer]) where
  toCounts := by
    have hsilent : findings.findSome? Finding.peer? = none := h.address_eq ▸ haddress
    exact (h.toCounts.adopt hsilent peer).recordReply (by simp [isAnsweredBy, Finding.peer?])
      roundTrip
  address_eq := by
    rw [(recordReply_eq _ roundTrip).1, findSome?_peer?_snoc, ← h.address_eq, haddress]
    rfl

theorem Tells.absorb (h : hop.Tells findings) (names : Path.Names) (finding : Finding) :
    (hop.absorb names finding).Tells (findings ++ [finding]) := by
  cases finding with
  | lost =>
      refine ⟨h.toCounts.recordLoss rfl, ?_⟩
      rw [findSome?_peer?_snoc, ← h.address_eq]
      exact (Option.or_none ..).symm
  | answered answer roundTrip peer =>
      cases haddress : hop.address with
      | none =>
          rw [Hop.absorb, haddress]
          exact (h.adopt haddress roundTrip peer).withName names
      | some address =>
          have hkeep : hop.address =
              (findings ++ [Finding.answered answer roundTrip peer]).findSome? Finding.peer? := by
            rw [findSome?_peer?_snoc, ← h.address_eq, haddress]
            rfl
          rw [Hop.absorb, haddress]
          dsimp only
          split
          case isTrue hpeer =>
            have hown :
                isAnsweredBy hop.address (Finding.answered answer roundTrip peer) = true := by
              simp [isAnsweredBy, haddress, Finding.peer?, hpeer]
            refine ⟨h.toCounts.recordReply hown roundTrip, ?_⟩
            rw [(recordReply_eq hop roundTrip).1, hkeep]
          case isFalse hpeer =>
            have hother :
                isAnsweredBy hop.address (Finding.answered answer roundTrip peer) = false := by
              simp [isAnsweredBy, haddress, Finding.peer?, Ne.symm hpeer]
            exact ⟨h.toCounts.recordLoss hother, hkeep⟩

/-- The discovery counts the first probe as the monitoring would. -/
theorem tells_ofFinding (finding : Finding) : (ofFinding finding).Tells [finding] := by
  cases finding with
  | answered answer roundTrip peer => exact tells_nil.adopt rfl roundTrip peer
  | lost => exact ⟨tells_nil.toCounts.recordLoss rfl, rfl⟩

/-- What a hop shows of its probes while its counters do not wrap. -/
structure Reports (findings : List Finding) (hop : Hop) : Prop where
  address_eq : hop.address = findings.findSome? Finding.peer?
  sent_eq : hop.sent.toNat = findings.length
  received_eq : hop.received.toNat = findings.countP (isAnsweredBy hop.address)
  lost_eq : hop.lost.toNat = findings.countP (!isAnsweredBy hop.address ·)

theorem Tells.reports (h : hop.Tells findings) (hfew : findings.length < UInt32.size) :
    hop.Reports findings := by
  have hcount : ∀ p : Finding → Bool, findings.countP p < UInt32.size := fun p =>
    Nat.lt_of_le_of_lt List.countP_le_length hfew
  refine ⟨h.address_eq, ?_, ?_, ?_⟩
  · rw [h.sent_eq, UInt32.toNat_ofNat_of_lt' hfew]
  · rw [h.received_eq, UInt32.toNat_ofNat_of_lt' (hcount _)]
  · rw [h.lost_eq, UInt32.toNat_ofNat_of_lt' (hcount _)]

end Hop

namespace Path

/-- What comes of the first probes of some hops, from a place on. -/
def attemptsFrom {State : Type} (probe : Prober State) : ℕ → ℕ → State → List Attempt
  | 0, _, _ => []
  | count + 1, place, state =>
    let (attempt, state) := probe ⟨UInt8.ofNat place, 0⟩ state
    attempt :: attemptsFrom probe count (place + 1) state

/-- The hops that a discovery finds are those of its first probes, one for each. -/
theorem discoverFrom_ok {State : Type} {probe : Prober State} {names : Names}
    {destination : Address} {left : ℕ} {hops found : List Hop} {state rest : State}
    (hfound : discoverFrom probe names destination left hops state = (.ok found, rest)) :
    ∃ firsts : List Finding,
      (attemptsFrom probe firsts.length hops.length state).map settle = firsts.map .ok ∧
        found = hops ++ firsts.map fun finding => withName names (Hop.ofFinding finding) := by
  induction left generalizing hops state with
  | zero => simp [discoverFrom] at hfound
  | succ left ih =>
      rw [discoverFrom] at hfound
      cases hsettle : settle (probe ⟨UInt8.ofNat hops.length, 0⟩ state).1 with
      | error failure => simp [hsettle] at hfound
      | ok finding =>
          simp only [hsettle] at hfound
          split at hfound
          case isTrue =>
            refine ⟨[finding], by simp [attemptsFrom, hsettle], ?_⟩
            exact (Except.ok.inj (congrArg Prod.fst hfound)).symm
          case isFalse =>
            obtain ⟨firsts, hattempts, hall⟩ := ih hfound
            rw [List.length_append, List.length_singleton] at hattempts
            refine ⟨finding :: firsts, ?_, ?_⟩
            · rw [List.length_cons, attemptsFrom, List.map_cons, hsettle, hattempts]
              rfl
            · rw [hall, List.append_assoc]
              rfl

end Path

end LinkMeter
