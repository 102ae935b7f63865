import LinkMeter.Client.Run
import Mathlib.Data.List.Basic

/-!
# The walk of a discovery

A discovery walks along a path and ends at the first hop whose probe decides it:
the destination replies there (`Path.Arrives`), or the probe fails fatally
(`Path.Breaks`).  Whatever else comes of a probe lengthens the walk and nothing
more: answers of strangers and of routers, answers of the destination that are
no replies, losses, and failures that concern one probe.

The first probes of the hops are sent in their order, whatever the prober makes
of them (`Path.stateAt`), so the walk is told by what comes of each of them
(`Path.attemptAt`) up to the one that decides.
-/

namespace LinkMeter

open Icmp (Finding ProbeId)

/-! ## Hops after one probe -/

namespace Hop

/-- What a hop shows of its only probe. -/
def once : Path.Attempt → Hop
  | .ok (.answered _ roundTrip peer) =>
    { address := some peer, sent := 1, received := 1, last := roundTrip, best := roundTrip
      worst := roundTrip, total := roundTrip, mean := roundTrip }
  | .ok .lost | .error _ => { sent := 1, lost := 1 }

/-- The first round trip of a hop is its total, and each of its statistics. -/
theorem recordReply_first (peer : Address) (roundTrip : Span) (answer : Icmp.Answer) :
    ({ address := some peer : Hop }.recordReply roundTrip) =
      once (.ok (.answered answer roundTrip peer)) := by
  have htotal : Span.zero.add? roundTrip = some roundTrip := by
    rw [Span.add?, Span.ofNanos?, Span.nanos_zero, Nat.zero_add, dif_pos roundTrip.nanos_lt]
  have hworst : (if roundTrip > Span.zero then roundTrip else Span.zero) = roundTrip := by
    split
    case isTrue => rfl
    case isFalse hzero =>
      refine Span.ext ?_
      rw [gt_iff_lt, Span.lt_iff, Span.nanos_zero] at hzero
      rw [Span.nanos_zero]
      omega
  have hmean : roundTrip.share 1 = roundTrip := Span.ext (Nat.div_one _)
  rw [recordReply, recordReply?, htotal]
  have hfirst : (0 : UInt32) + 1 = 1 := rfl
  simp only [noteReply, once, Option.map_some, Option.getD_some, hworst, hfirst, true_or, if_true]
  rw [show (1 : UInt32).toNat = 1 from rfl, hmean]

theorem ofFinding_settled {attempt : Path.Attempt} {finding : Finding}
    (hsettle : Path.settle attempt = .ok finding) : ofFinding finding = once attempt := by
  cases attempt with
  | ok found =>
      obtain rfl : found = finding := Except.ok.inj hsettle
      cases found with
      | answered answer roundTrip peer => exact recordReply_first peer roundTrip answer
      | lost => rfl
  | error failure =>
      rw [Path.settle] at hsettle
      split at hsettle
      · cases hsettle
      · cases hsettle
        rfl

end Hop

namespace Path

/-! ## What decides a walk -/

/-- The destination itself replied. -/
def Arrives (destination : Address) (attempt : Attempt) : Prop :=
  ∃ roundTrip, attempt = .ok (.answered .reply roundTrip destination)

/-- The probe failed, and the discovery fails with it. -/
def Breaks (failure : Failure) (attempt : Attempt) : Prop :=
  attempt = .error failure ∧ failure.isFatal = true

/-- The walk goes on behind the probe. -/
def Passes (destination : Address) (attempt : Attempt) : Prop :=
  ¬ Arrives destination attempt ∧ ∀ failure, ¬ Breaks failure attempt

variable {State : Type} {probe : Prober State} {names : Names} {destination : Address}
  {attempt : Attempt} {failure : Failure} {state : State}

theorem isReplyFrom_iff {finding : Finding} :
    finding.isReplyFrom destination = true ↔ Arrives destination (.ok finding) := by
  cases finding with
  | lost => simp [Finding.isReplyFrom, Arrives]
  | answered answer roundTrip peer =>
      cases answer <;> simp [Finding.isReplyFrom, Arrives]

theorem settle_of_breaks (hbreaks : Breaks failure attempt) : settle attempt = .error failure := by
  obtain ⟨rfl, hfatal⟩ := hbreaks
  rw [settle, if_pos hfatal]

/-- A probe that decides nothing leaves a finding that is no reply of the destination. -/
theorem settle_of_passes (hpasses : Passes destination attempt) :
    ∃ finding, settle attempt = .ok finding ∧ finding.isReplyFrom destination = false := by
  obtain ⟨harrives, hbreaks⟩ := hpasses
  cases attempt with
  | ok finding =>
      refine ⟨finding, rfl, ?_⟩
      rw [← Bool.not_eq_true, isReplyFrom_iff]
      exact harrives
  | error failure =>
      have hmild : ¬ failure.isFatal = true := fun hfatal => hbreaks failure ⟨rfl, hfatal⟩
      exact ⟨.lost, by rw [settle, if_neg hmild], rfl⟩

theorem passes_iff : Passes destination attempt ↔
    (match settle attempt with
      | .ok finding => !finding.isReplyFrom destination
      | .error _ => false) = true := by
  constructor
  · intro hpasses
    obtain ⟨finding, hsettle, hother⟩ := settle_of_passes hpasses
    simp only [hsettle, hother, Bool.not_false]
  · intro hgoes
    constructor
    · rintro ⟨roundTrip, rfl⟩
      have hreply := isReplyFrom_iff.2 (⟨roundTrip, rfl⟩ : Arrives destination _)
      simp [settle, hreply] at hgoes
    · intro failure hbreaks
      rw [settle_of_breaks hbreaks] at hgoes
      cases hgoes

instance : Decidable (Passes destination attempt) := decidable_of_iff _ passes_iff.symm

/-- The hops before one of them, by their places. -/
theorem forall_hop_lt_iff {last : UInt8} {p : UInt8 → Prop} :
    (∀ hop < last, p hop) ↔ ∀ place < last.toNat, p (UInt8.ofNat place) := by
  constructor
  · intro hhops place hplace
    refine hhops _ ?_
    rw [UInt8.lt_iff_toNat_lt, UInt8.toNat_ofNat_of_lt' (Nat.lt_trans hplace last.toNat_lt)]
    exact hplace
  · intro hplaces hop hhop
    rw [← UInt8.ofNat_toNat (x := hop)]
    exact hplaces hop.toNat (UInt8.lt_iff_toNat_lt.1 hhop)

/-! ## One step of a walk -/

theorem discoverFrom_of_passes {left : ℕ} {hops : List Hop}
    (hpasses : Passes destination (probe ⟨UInt8.ofNat hops.length, 0⟩ state).1) :
    discoverFrom probe names destination (left + 1) hops state =
      discoverFrom probe names destination left
        (hops ++ [withName names (Hop.once (probe ⟨UInt8.ofNat hops.length, 0⟩ state).1)])
        (probe ⟨UInt8.ofNat hops.length, 0⟩ state).2 := by
  obtain ⟨finding, hsettle, hother⟩ := settle_of_passes hpasses
  simp only [discoverFrom, hsettle, hother, Hop.ofFinding_settled hsettle, Bool.false_eq_true,
    if_false]

theorem discoverFrom_of_arrives {left : ℕ} {hops : List Hop}
    (harrives : Arrives destination (probe ⟨UInt8.ofNat hops.length, 0⟩ state).1) :
    discoverFrom probe names destination (left + 1) hops state =
      (.ok (hops ++ [withName names (Hop.once (probe ⟨UInt8.ofNat hops.length, 0⟩ state).1)]),
        (probe ⟨UInt8.ofNat hops.length, 0⟩ state).2) := by
  obtain ⟨roundTrip, hattempt⟩ := harrives
  have hsettle : settle (probe ⟨UInt8.ofNat hops.length, 0⟩ state).1 =
      .ok (.answered .reply roundTrip destination) := by rw [hattempt]; rfl
  have hreply : Finding.isReplyFrom destination (.answered .reply roundTrip destination) = true :=
    isReplyFrom_iff.2 ⟨roundTrip, rfl⟩
  simp only [discoverFrom, hsettle, hreply, Hop.ofFinding_settled hsettle, if_true]

theorem discoverFrom_of_breaks {left : ℕ} {hops : List Hop}
    (hbreaks : Breaks failure (probe ⟨UInt8.ofNat hops.length, 0⟩ state).1) :
    discoverFrom probe names destination (left + 1) hops state =
      (.error failure, (probe ⟨UInt8.ofNat hops.length, 0⟩ state).2) := by
  simp only [discoverFrom, settle_of_breaks hbreaks]

/-! ## The whole walk -/

/-- A prober after the first probes of so many hops. -/
def stateAt (probe : Prober State) (state : State) : ℕ → State
  | 0 => state
  | place + 1 => (probe ⟨UInt8.ofNat place, 0⟩ (stateAt probe state place)).2

/-- What comes of the first probe of a hop, after those of the hops before it. -/
def attemptAt (probe : Prober State) (state : State) (place : ℕ) : Attempt :=
  (probe ⟨UInt8.ofNat place, 0⟩ (stateAt probe state place)).1

/-- The hops that some attempts show, one for each. -/
def hopsOf (names : Names) (attempts : ℕ → Attempt) (count : ℕ) : List Hop :=
  (List.range count).map fun place => withName names (Hop.once (attempts place))

@[simp] theorem length_hopsOf (names : Names) (attempts : ℕ → Attempt) (count : ℕ) :
    (hopsOf names attempts count).length = count := by
  rw [hopsOf, List.length_map, List.length_range]

theorem hopsOf_succ (names : Names) (attempts : ℕ → Attempt) (count : ℕ) :
    hopsOf names attempts (count + 1) =
      hopsOf names attempts count ++ [withName names (Hop.once (attempts count))] := by
  rw [hopsOf, List.range_succ, List.map_append]
  rfl

theorem hopsOf_congr (names : Names) {first second : ℕ → Attempt} {count : ℕ}
    (heq : ∀ place < count, first place = second place) :
    hopsOf names first count = hopsOf names second count :=
  List.map_congr_left fun place hplace => by rw [heq place (List.mem_range.1 hplace)]

/-- As long as no probe decides, the walk gets one hop further with each. -/
theorem discoverFrom_hopsOf (names : Names) (count left : ℕ)
    (hpasses : ∀ place < count, Passes destination (attemptAt probe state place)) :
    discoverFrom probe names destination (count + left) [] state =
      discoverFrom probe names destination left (hopsOf names (attemptAt probe state) count)
        (stateAt probe state count) := by
  induction count generalizing left with
  | zero => rw [Nat.zero_add]; rfl
  | succ count ih =>
      have hhere := hpasses count (Nat.lt_succ_self count)
      rw [Nat.add_assoc, Nat.add_comm 1 left,
        ih (left + 1) fun place hplace => hpasses place (Nat.lt_succ_of_lt hplace),
        discoverFrom_of_passes (by rwa [length_hopsOf])]
      simp only [length_hopsOf, hopsOf_succ]
      rfl

variable {maxHops : UInt8} {place : ℕ}

/-- The walk ends at the first hop where the destination replies. -/
theorem discover_of_arrives (names : Names) (hplace : place < maxHops.toNat)
    (hpasses : ∀ earlier < place, Passes destination (attemptAt probe state earlier))
    (harrives : Arrives destination (attemptAt probe state place)) :
    discover probe names destination maxHops state =
      (.ok (hopsOf names (attemptAt probe state) (place + 1)),
        stateAt probe state (place + 1)) := by
  obtain ⟨left, hleft⟩ := Nat.exists_eq_add_of_lt hplace
  rw [discover, hleft, Nat.add_assoc, discoverFrom_hopsOf names place (left + 1) hpasses,
    discoverFrom_of_arrives (by rwa [length_hopsOf]), hopsOf_succ]
  simp only [length_hopsOf]
  rfl

/-- The walk ends at the first fatal failure. -/
theorem discover_of_breaks (names : Names) (hplace : place < maxHops.toNat)
    (hpasses : ∀ earlier < place, Passes destination (attemptAt probe state earlier))
    (hbreaks : Breaks failure (attemptAt probe state place)) :
    discover probe names destination maxHops state =
      (.error failure, stateAt probe state (place + 1)) := by
  obtain ⟨left, hleft⟩ := Nat.exists_eq_add_of_lt hplace
  rw [discover, hleft, Nat.add_assoc, discoverFrom_hopsOf names place (left + 1) hpasses,
    discoverFrom_of_breaks (by rwa [length_hopsOf])]
  simp only [length_hopsOf]
  rfl

/-- A walk that nothing decides probes every hop, and the destination does not respond. -/
theorem discover_of_passes (names : Names)
    (hpasses : ∀ place < maxHops.toNat, Passes destination (attemptAt probe state place)) :
    discover probe names destination maxHops state =
      (.error (.unresponsive destination), stateAt probe state maxHops.toNat) := by
  rw [discover, ← Nat.add_zero maxHops.toNat, discoverFrom_hopsOf names _ 0 hpasses]
  rfl

/-! ## Probers that answer each hop in a way of its own -/

/-- The first probes of so many hops, in order. -/
def firstProbes (count : ℕ) : List ProbeId :=
  (List.range count).map fun place => ⟨UInt8.ofNat place, 0⟩

theorem firstProbes_succ (count : ℕ) :
    firstProbes (count + 1) = firstProbes count ++ [⟨UInt8.ofNat count, 0⟩] := by
  rw [firstProbes, List.range_succ, List.map_append]
  rfl

/-- A prober whose answers depend on the hop alone, and which notes its probes. -/
def answering (answer : UInt8 → Attempt) : Prober (List ProbeId) := fun probe sent =>
  (answer probe.hop, sent ++ [probe])

theorem stateAt_answering (answer : UInt8 → Attempt) (count : ℕ) :
    stateAt (answering answer) [] count = firstProbes count := by
  induction count with
  | zero => rfl
  | succ count ih => rw [stateAt, ih, firstProbes_succ]; rfl

namespace Script

/-- What comes of the next probe of a hop. -/
def answerOf (script : Script) (hop : UInt8) : Attempt :=
  ((script.next? hop).map (·.1)).getD (.ok .lost)

theorem answerOf_eq (script : Script) (hop : UInt8) :
    script.answerOf hop = (((script.answers.lookup hop).bind List.head?).getD (.ok .lost)) := by
  rw [answerOf, next?]
  split
  case h_1 attempt rest hlookup => rw [hlookup]; rfl
  case h_2 hnone =>
    cases hlookup : script.answers.lookup hop with
    | none => rfl
    | some list =>
        cases list with
        | nil => rfl
        | cons attempt rest => exact absurd hlookup (hnone attempt rest)

theorem send_eq (script : Script) (probe : ProbeId) :
    send probe script = (script.answerOf probe.hop,
      (((script.next? probe.hop).map (·.2)).getD script).note probe) := by
  rw [send, answerOf]
  cases script.next? probe.hop <;> rfl

/-- A probe of a hop uses up no answer of another one. -/
theorem answerOf_send {script : Script} {probe : ProbeId} {hop : UInt8} (hhop : hop ≠ probe.hop) :
    (send probe script).2.answerOf hop = script.answerOf hop := by
  have hlookup : ∀ answers : List (UInt8 × List Attempt),
      (answers.map fun entry =>
        if entry.1 = probe.hop then (entry.1, entry.2.drop 1) else entry).lookup hop =
          answers.lookup hop := by
    intro answers
    induction answers with
    | nil => rfl
    | cons entry answers ih =>
        obtain ⟨number, list⟩ := entry
        by_cases hnumber : number = probe.hop
        · have hother : (hop == number) = false := beq_eq_false_iff_ne.2 (hnumber ▸ hhop)
          simp only [List.map_cons, if_pos hnumber, List.lookup_cons, hother, ih]
        · simp only [List.map_cons, if_neg hnumber, List.lookup_cons, ih]
  rw [send_eq]
  dsimp only
  rw [answerOf_eq _ hop, answerOf_eq script hop, next?]
  split
  · exact congrArg (fun found => (found.bind List.head?).getD (.ok .lost)) (hlookup _)
  · rfl

theorem calls_send (script : Script) (probe : ProbeId) :
    (send probe script).2.calls = script.calls ++ [probe] := by
  rw [send_eq, next?]
  split <;> rfl

/-- A script answers the first probe of each hop as if there were no other. -/
theorem stateAt_send (script : Script) (count : ℕ) (hcount : count ≤ 256) :
    (stateAt send script count).calls = script.calls ++ firstProbes count ∧
      ∀ hop : UInt8, count ≤ hop.toNat →
        (stateAt send script count).answerOf hop = script.answerOf hop := by
  induction count with
  | zero => exact ⟨(List.append_nil _).symm, fun _ _ => rfl⟩
  | succ count ih =>
      obtain ⟨hcalls, hanswers⟩ := ih (Nat.le_of_succ_le hcount)
      constructor
      · rw [stateAt, calls_send, hcalls, firstProbes_succ, List.append_assoc]
      · intro hop hle
        have hhop : hop ≠ UInt8.ofNat count := by
          rintro rfl
          rw [UInt8.toNat_ofNat_of_lt' hcount] at hle
          omega
        rw [stateAt, answerOf_send hhop, hanswers hop (Nat.le_of_succ_le hle)]

theorem attemptAt_send (script : Script) {place : ℕ} (hplace : place < 256) :
    attemptAt send script place = script.answerOf (UInt8.ofNat place) := by
  rw [attemptAt, send_eq]
  refine (stateAt_send script place (Nat.le_of_lt hplace)).2 _ (Nat.le_of_eq ?_)
  exact (UInt8.toNat_ofNat_of_lt' hplace).symm

end Script

/-! ## The result of a walk, and what is told of it -/

/-- What the worker of a discovery does: it emits the hops once, or fails. -/
def workOf : Except Failure (List Hop) → Client.Work
  | .ok hops => { deeds := [.emit (.path hops)] }
  | .error failure => .failing failure

/-- With these answers of the hops, a walk comes to a result after so many probes: one of each of
the first hops, in order.  Its trial gets the hops as one outcome, and nothing if it fails. -/
structure Walks (answer : UInt8 → Attempt) (names : Names) (destination : Address)
    (maxHops : UInt8) (result : Except Failure (List Hop)) (count : ℕ) : Prop where
  discover_eq :
    discover (answering answer) names destination maxHops [] = (result, firstProbes count)
  work_eq : ∀ script : Script, (∀ hop, script.answerOf hop = answer hop) →
    (Client.pathWork names destination maxHops script).1 = workOf result ∧
      (Client.pathWork names destination maxHops script).2.calls =
        script.calls ++ firstProbes count
  trial_eq : ∀ trial, (workOf result).deeds.foldl Client.Deed.apply trial =
    match result with
    | .ok hops => trial.emit (.path hops)
    | .error _ => trial

/-- Two probers with the same answers walk alike, so a result of every prober is one of those. -/
theorem walks_of_discover {answer : UInt8 → Attempt} {result : Except Failure (List Hop)}
    {count : ℕ} (hcount : count ≤ maxHops.toNat)
    (hdiscover : ∀ {State : Type} (probe : Prober State) (state : State),
      (∀ place < maxHops.toNat, attemptAt probe state place = answer (UInt8.ofNat place)) →
      discover probe names destination maxHops state = (result, stateAt probe state count)) :
    Walks answer names destination maxHops result count where
  discover_eq := by
    rw [hdiscover (answering answer) [] fun _ _ => rfl, stateAt_answering]
  work_eq := by
    intro script hanswers
    have hfits : maxHops.toNat < 256 := maxHops.toNat_lt
    have hattempts : ∀ place < maxHops.toNat,
        attemptAt Script.send script place = answer (UInt8.ofNat place) := by
      intro place hplace
      rw [Script.attemptAt_send script (Nat.lt_trans hplace hfits), hanswers]
    have hcalls := (Script.stateAt_send script count (Nat.le_trans hcount (Nat.le_of_lt hfits))).1
    rw [Client.pathWork, hdiscover Script.send script hattempts]
    cases result with
    | ok hops => exact ⟨rfl, hcalls⟩
    | error failure => exact ⟨rfl, hcalls⟩
  trial_eq := fun trial => by cases result <;> rfl

/-- A walk ends where the destination itself replies, with the hops up to there, each of which shows
what came of its one probe; at the first fatal failure, with that; or behind the last hop, where the
destination does not respond.  No hop is probed behind the one that decides. -/
theorem discover_exact (answer : UInt8 → Attempt) (names : Names) (destination : Address)
    (maxHops : UInt8) :
    (∀ last < maxHops, Arrives destination (answer last) →
      (∀ hop < last, Passes destination (answer hop)) →
      Walks answer names destination maxHops
        (.ok (hopsOf names (fun place => answer (UInt8.ofNat place)) (last.toNat + 1)))
        (last.toNat + 1)) ∧
    (∀ last < maxHops, ∀ failure, Breaks failure (answer last) →
      (∀ hop < last, Passes destination (answer hop)) →
      Walks answer names destination maxHops (.error failure) (last.toNat + 1)) ∧
    ((∀ hop < maxHops, Passes destination (answer hop)) →
      Walks answer names destination maxHops (.error (.unresponsive destination))
        maxHops.toNat) := by
  refine ⟨fun last hlast harrives hpasses => ?_, fun last hlast failure hbreaks hpasses => ?_,
    fun hpasses => ?_⟩
  · have hlt : last.toNat < maxHops.toNat := UInt8.lt_iff_toNat_lt.1 hlast
    refine walks_of_discover hlt fun probe state hattempts => ?_
    rw [← hopsOf_congr names fun place hplace => hattempts place (Nat.lt_of_lt_of_le hplace hlt)]
    refine discover_of_arrives names hlt (fun earlier hearlier => ?_) ?_
    · rw [hattempts earlier (Nat.lt_trans hearlier hlt)]
      exact forall_hop_lt_iff.1 hpasses earlier hearlier
    · rwa [hattempts _ hlt, UInt8.ofNat_toNat]
  · have hlt : last.toNat < maxHops.toNat := UInt8.lt_iff_toNat_lt.1 hlast
    refine walks_of_discover hlt fun probe state hattempts => ?_
    refine discover_of_breaks names hlt (fun earlier hearlier => ?_) ?_
    · rw [hattempts earlier (Nat.lt_trans hearlier hlt)]
      exact forall_hop_lt_iff.1 hpasses earlier hearlier
    · rwa [hattempts _ hlt, UInt8.ofNat_toNat]
  · refine walks_of_discover (Nat.le_refl _) fun probe state hattempts => ?_
    refine discover_of_passes names fun place hplace => ?_
    rw [hattempts place hplace]
    exact forall_hop_lt_iff.1 hpasses place hplace

/-- A destination that drops a probe, a stranger's reply and a failed probe do not end a walk, the
reply of the destination does; three hops are not enough for it, and a refused socket ends a walk
that was at its second hop. -/
theorem discover_exact_detour :
    let destination := Address.v4 ⟨192, 0, 2, 7⟩
    let stranger := Address.v4 ⟨192, 0, 2, 8⟩
    let attempts : List Attempt :=
      [.ok (.answered .timeExceeded (.ofSeconds 1) destination),
        .ok (.answered .reply (.ofSeconds 2) stranger), .error (.io (.other "no buffers")),
        .ok (.answered .reply (.ofSeconds 3) destination)]
    let refusal : Attempt := .error (.permissionDenied "raw socket")
    let answer (hop : UInt8) := attempts.getD hop.toNat refusal
    let refusing (hop : UInt8) := [Except.ok Finding.lost].getD hop.toNat refusal
    (Arrives destination (answer 3) ∧ (∀ hop < (3 : UInt8), Passes destination (answer hop)) ∧
      ∃ hops : List Hop, Walks answer Names.none destination 30 (.ok hops) 4 ∧
        (hops.map fun hop => (hop.address, hop.received, hop.lost)) =
          [(some destination, 1, 0), (some stranger, 1, 0), (none, 0, 1),
            (some destination, 1, 0)]) ∧
      Walks answer Names.none destination 3 (.error (.unresponsive destination)) 3 ∧
      (Breaks (.permissionDenied "raw socket") (refusing 1) ∧
        (∀ hop < (1 : UInt8), Passes destination (refusing hop)) ∧
        Walks refusing Names.none destination 30 (.error (.permissionDenied "raw socket")) 2) := by
  intro destination stranger attempts refusal answer refusing
  have harrives : Arrives destination (answer 3) := ⟨.ofSeconds 3, rfl⟩
  have hpasses : ∀ hop < (3 : UInt8), Passes destination (answer hop) :=
    forall_hop_lt_iff.2 (by decide +kernel)
  have hlost : ∀ hop < (1 : UInt8), Passes destination (refusing hop) :=
    forall_hop_lt_iff.2 (by decide +kernel)
  have hbreaks : Breaks (.permissionDenied "raw socket") (refusing 1) := ⟨rfl, rfl⟩
  obtain ⟨harrived, -, -⟩ := discover_exact answer Names.none destination 30
  obtain ⟨-, -, hunresponsive⟩ := discover_exact answer Names.none destination 3
  obtain ⟨-, hbroken, -⟩ := discover_exact refusing Names.none destination 30
  exact ⟨⟨harrives, hpasses, _, harrived 3 (by decide) harrives hpasses, by decide +kernel⟩,
    hunresponsive hpasses, hbreaks, hlost, hbroken 1 (by decide) _ hbreaks hlost⟩

end Path

end LinkMeter
