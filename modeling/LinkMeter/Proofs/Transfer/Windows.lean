import LinkMeter.Proofs.Pacing.Budget
import LinkMeter.Proofs.Transfer.Pumps

/-!
# The windows of a sender

A pump that sends keeps no account of its windows.  `Transfer.Logs` puts one
beside it: a ledger that records what the stream took, call by call, and says
before which calls the pump sleeps.  Every course of a pump has such a log
(`Transfer.exists_logs_sendFrom`), and the ledger is one of those whose windows
are known to carry the budget to the byte.

What the log says shows on the stream (`Transfer.KeepsTo`).  The calls before
which the pump slept stand where a multiple of the budget has been taken, and no
call crosses such a place; a pump without a budget never sleeps.
-/

namespace LinkMeter

open Wire (Acceptance)

namespace Pacing.Ledger

variable {rate : UInt64} {buffer : Nat} {ledger next : Ledger} {recording : Recording}

/-! ## Recordings -/

/-- The bytes recorded in all windows. -/
def total (ledger : Ledger) : Nat := ledger.completed.sum + ledger.current

/-- Whether a recording leads to a pause that is not over yet. -/
def sleeps (ledger : Ledger) (recording : Recording) : Bool :=
  { ledger.pacer with lastTick := recording.lastTick }.sleeps recording.bytes recording.now

theorem pacer_of_record? (hrecord : ledger.record? recording = some next) :
    next.pacer = { ledger.pacer with lastTick := recording.lastTick }.record recording.bytes
      recording.now recording.resumed := by
  obtain ⟨pacer, hpacer, rfl⟩ := Option.map_eq_some_iff.1 hrecord
  have heq : pacer = { ledger.pacer with lastTick := recording.lastTick }.record recording.bytes
      recording.now recording.resumed := by
    rw [Pacer.record?] at hpacer
    split at hpacer
    · cases hpacer
    · exact (Option.some.inj hpacer).symm
  rw [← heq]
  split <;> rfl

theorem total_of_record? (hrecord : ledger.record? recording = some next) :
    next.total = ledger.total + recording.bytes := by
  obtain ⟨pacer, -, rfl⟩ := Option.map_eq_some_iff.1 hrecord
  split
  · exact (Nat.add_assoc _ _ _).symm
  · simp only [total, List.sum_append, List.sum_singleton]
    omega

/-- After a pause a new window is open. -/
theorem current_of_sleeps (hrecord : ledger.record? recording = some next)
    (hsleeps : ledger.sleeps recording = true) : next.current = 0 := by
  obtain ⟨pacer, -, rfl⟩ := Option.map_eq_some_iff.1 hrecord
  split
  case h_1 hnone =>
    rw [pauseFor] at hnone
    rw [sleeps, Pacer.sleeps, hnone] at hsleeps
    cases hsleeps
  case h_2 => rfl

/-! ## Rates too low for a budget -/

/-- Without a budget there is one window, which never ends, and every call may offer the buffer. -/
theorem Reachable.unlimited (hrate : rate.toNat / 8 = 0) (hreach : Reachable rate buffer ledger) :
    ledger.pacer.budget = 0 ∧ ledger.pacer.allowance = buffer ∧ ledger.completed = [] := by
  induction hreach with
  | opened lastTick now =>
      exact ⟨hrate, by simp [Pacer.begin, Pacer.withBudget, firstChunk, hrate], rfl⟩
  | @recorded ledger next recording _ _ hrecord ih =>
      obtain ⟨hbudget, hallowance, hcompleted⟩ := ih
      have hunlimited : Pacer.isUnlimited { ledger.pacer with lastTick := recording.lastTick } =
          true := beq_iff_eq.2 hbudget
      have hpacer := pacer_of_record? hrecord
      rw [Pacer.record, if_pos hunlimited] at hpacer
      have hpause : ledger.pauseFor recording = none := by
        rw [pauseFor, Pacer.pauseFor, if_pos hunlimited]
      obtain ⟨pacer, -, rfl⟩ := Option.map_eq_some_iff.1 hrecord
      rw [hpause] at hpacer ⊢
      rw [hpacer]
      exact ⟨hbudget, hallowance, hcompleted⟩

theorem Reachable.sleeps_eq_false (hrate : rate.toNat / 8 = 0)
    (hreach : Reachable rate buffer ledger) (recording : Recording) :
    ledger.sleeps recording = false := by
  have hunlimited : Pacer.isUnlimited { ledger.pacer with lastTick := recording.lastTick } =
      true := beq_iff_eq.2 (hreach.unlimited hrate).1
  rw [sleeps, Pacer.sleeps, Pacer.pauseFor, if_pos hunlimited]

theorem Reachable.one_le_allowance (hbuffer : 1 ≤ buffer) (hreach : Reachable rate buffer ledger) :
    1 ≤ ledger.pacer.allowance := by
  rcases Nat.eq_zero_or_pos (rate.toNat / 8) with hrate | hrate
  · rw [(hreach.unlimited hrate).2.1]
    exact hbuffer
  · exact (hreach.balanced hrate hbuffer).exact.allowance_pos

/-- A sender that writes at most what it is allowed can always record it. -/
theorem Reachable.exists_record? (hbuffer : 1 ≤ buffer) (hreach : Reachable rate buffer ledger)
    (hbytes : recording.bytes ≤ ledger.pacer.allowance) :
    ∃ next, ledger.record? recording = some next := by
  rcases Nat.eq_zero_or_pos (rate.toNat / 8) with hrate | hrate
  · have hunlimited : Pacer.isUnlimited { ledger.pacer with lastTick := recording.lastTick } =
        true := beq_iff_eq.2 (hreach.unlimited hrate).1
    exact ⟨_, by rw [record?, Pacer.record?, hunlimited]; rfl⟩
  · have hbalanced := hreach.balanced hrate hbuffer
    by_cases hspent : ledger.current + recording.bytes = rate.toNat / 8
    · exact ⟨_, hbalanced.record?_of_spent hbytes hspent⟩
    · exact ⟨_, hbalanced.record?_of_left hbytes hspent⟩

/-- All windows but the one that is open carried the budget. -/
theorem Reachable.total_mod (hbuffer : 1 ≤ buffer) (hrate : 1 ≤ rate.toNat / 8)
    (hreach : Reachable rate buffer ledger) :
    ledger.total % (rate.toNat / 8) = ledger.current := by
  have hbalanced := hreach.balanced hrate hbuffer
  have hcompleted : ledger.completed.sum = ledger.completed.length * (rate.toNat / 8) :=
    List.sum_eq_card_nsmul _ _ hbalanced.completed_eq
  have hlt : ledger.current < rate.toNat / 8 := by
    rw [← hbalanced.sent_eq, ← hbalanced.budget_eq]
    exact hbalanced.exact.sent_lt
  rw [total, hcompleted, Nat.add_comm, Nat.add_mul_mod_self_right, Nat.mod_eq_of_lt hlt]

end Pacing.Ledger

namespace Transfer

open Pacing (Instant Ledger Pacer Recording)

/-! ## Logs -/

/-- The course of a sender from one ledger to another, with the calls that it makes: what a stream
takes of a call is recorded, and decides whether the sender sleeps before the next one.  The flag
tells whether it slept before the first one. -/
inductive Logs (buffer : Nat) :
    Ledger → Bool → List Acceptance → List (Nat × Bool) → Ledger → Prop
  | ended (ledger : Ledger) (slept : Bool) (script : List Acceptance) :
      Logs buffer ledger slept script [] ledger
  /-- What the last call takes is not recorded any more. -/
  | last (ledger : Ledger) (slept : Bool) (script : List Acceptance) :
      Logs buffer ledger slept script [(offerSize ledger.pacer buffer, slept)] ledger
  | recorded {ledger next final : Ledger} {slept raises : Bool} {call : Acceptance}
      {script : List Acceptance} {offers : List (Nat × Bool)} (recording : Recording) :
      call.taken? (offerSize ledger.pacer buffer) = some (recording.bytes, raises) →
      0 < recording.bytes → ledger.record? recording = some next →
      Logs buffer next (ledger.sleeps recording) script offers final →
      Logs buffer ledger slept (call :: script) ((offerSize ledger.pacer buffer, slept) :: offers)
        final

variable {rate : UInt64} {buffer count size : Nat} {ledger final : Ledger} {slept raises : Bool}
  {script : List Acceptance} {offers : List (Nat × Bool)}

theorem le_of_taken? {call : Acceptance} (htaken : call.taken? size = some (count, raises)) :
    count ≤ size := by
  cases call with
  | take limit | takeAndStop limit =>
      obtain ⟨rfl, -⟩ := Prod.mk.inj (Option.some.inj htaken)
      exact Nat.min_le_right limit size
  | failure | silence => cases htaken

/-- A sender that may write some bytes offers no more than these. -/
theorem offerSize_le {pacer : Pacer} (hpos : 1 ≤ pacer.allowance) :
    offerSize pacer buffer ≤ pacer.allowance := by
  rw [offerSize]
  omega

/-- Every course of a sender can be logged. -/
theorem exists_logs_sendFrom (chance : Chance) (hbuffer : 1 ≤ buffer) (round : Nat)
    (script : List Acceptance) (hreach : ledger.Reachable rate buffer) (tally : Tally)
    (slept stopped : Bool) (sent : Sent) :
    ∃ offers final,
      (sendFrom chance buffer round script ledger.pacer tally slept stopped sent).offers =
        sent.offers ++ offers ∧ Logs buffer ledger slept script offers final := by
  induction script generalizing round ledger tally slept stopped sent with
  | nil =>
      rw [sendFrom]
      split
      · exact ⟨[], ledger, (List.append_nil _).symm, .ended ledger slept []⟩
      · exact ⟨_, ledger, rfl, .last ledger slept []⟩
  | cons call script ih =>
      have hlast : Logs buffer ledger slept (call :: script) _ ledger := .last ledger slept _
      rw [sendFrom]
      split
      · exact ⟨[], ledger, (List.append_nil _).symm, .ended ledger slept _⟩
      · dsimp only
        cases htaken : call.taken? (offerSize ledger.pacer buffer) with
        | none => exact ⟨_, ledger, rfl, hlast⟩
        | some taken =>
            obtain ⟨count, raises⟩ := taken
            dsimp only
            split
            case isTrue => exact ⟨_, ledger, rfl, hlast⟩
            case isFalse hcount =>
              split
              · exact ⟨_, ledger, rfl, hlast⟩
              · -- the pump records what was taken, and so does the ledger
                let recording : Recording :=
                  { bytes := count
                    lastTick := (chance.ticked round).getD ledger.pacer.lastTick
                    now := chance.recorded round
                    resumed := chance.resumed round }
                have hbytes : recording.bytes ≤ ledger.pacer.allowance :=
                  (le_of_taken? htaken).trans (offerSize_le (hreach.one_le_allowance hbuffer))
                obtain ⟨next, hrecord⟩ := hreach.exists_record? hbuffer hbytes
                have hpacer : next.pacer = _ := Ledger.pacer_of_record? hrecord
                obtain ⟨offers, final, hoffers, hlogs⟩ := ih (round + 1)
                  (.recorded recording hreach hbytes hrecord)
                  (tally.add 0 (UInt64.ofNat count) (chance.due round)).2 _ _ _
                rw [hpacer] at hoffers
                refine ⟨_ :: offers, final, hoffers.trans ?_,
                  .recorded recording htaken (Nat.pos_of_ne_zero hcount) hrecord hlogs⟩
                exact List.append_assoc _ _ _

/-! ## What shows on the stream -/

/-- At each call there is a ledger that holds what was taken before.  A sender that slept before
the call has just opened a window. -/
theorem Logs.exists_at (hbuffer : 1 ≤ buffer) (hreach : ledger.Reachable rate buffer)
    (hslept : slept = true → 1 ≤ rate.toNat / 8 ∧ ledger.current = 0)
    (hlogs : Logs buffer ledger slept script offers final) {before after : List (Nat × Bool)}
    {flag : Bool} (hoffers : offers = before ++ (size, flag) :: after) :
    ∃ held : Ledger, held.Reachable rate buffer ∧ size = offerSize held.pacer buffer ∧
      held.total = ledger.total + takenOf script before ∧
      (flag = true → 1 ≤ rate.toNat / 8 ∧ held.current = 0) ∧
      (before = [] ∧ flag = slept ∨ 0 < takenOf script before) := by
  induction hlogs generalizing before with
  | ended => simp at hoffers
  | last ledger slept script =>
      cases before with
      | nil =>
          obtain ⟨rfl, rfl⟩ := Prod.mk.inj (List.cons.inj hoffers).1
          exact ⟨ledger, hreach, rfl, by simp, hslept, .inl ⟨rfl, rfl⟩⟩
      | cons => simp at hoffers
  | @recorded ledger next _ slept _ call script _ recording htaken hpos hrecord _ ih =>
      cases before with
      | nil =>
          obtain ⟨rfl, rfl⟩ := Prod.mk.inj (List.cons.inj hoffers).1
          exact ⟨ledger, hreach, rfl, by simp, hslept, .inl ⟨rfl, rfl⟩⟩
      | cons first before =>
          obtain ⟨rfl, hrest⟩ := List.cons.inj hoffers
          have hbytes : recording.bytes ≤ ledger.pacer.allowance :=
            (le_of_taken? htaken).trans (offerSize_le (hreach.one_le_allowance hbuffer))
          have hrested : ledger.sleeps recording = true →
              1 ≤ rate.toNat / 8 ∧ next.current = 0 := by
            intro hsleeps
            refine ⟨Nat.pos_of_ne_zero fun hrate => ?_, Ledger.current_of_sleeps hrecord hsleeps⟩
            rw [hreach.sleeps_eq_false hrate] at hsleeps
            cases hsleeps
          obtain ⟨held, hheld, hsize, htotal, hflag, -⟩ :=
            ih (.recorded recording hreach hbytes hrecord) hrested hrest
          have htakenOf : takenOf (call :: script)
              ((offerSize ledger.pacer buffer, slept) :: before) =
                recording.bytes + takenOf script before := by
            simp [takenOf, htaken]
          rw [htakenOf]
          refine ⟨held, hheld, hsize, ?_, hflag, .inr (Nat.add_pos_left hpos _)⟩
          rw [htotal, Ledger.total_of_record? hrecord, Nat.add_assoc]

/-- What shows of a rate on a stream: no call crosses a place where a multiple of the budget has
been taken, and the sender sleeps at such places only; without a budget it never sleeps. -/
structure KeepsTo (rate : UInt64) (script : List Acceptance) (offers : List (Nat × Bool)) :
    Prop where
  metered : 8 ≤ rate.toNat → ∀ before size slept after,
    offers = before ++ (size, slept) :: after →
    takenOf script before % (rate.toNat / 8) + size ≤ rate.toNat / 8 ∧
      (slept = true → 0 < takenOf script before ∧ takenOf script before % (rate.toNat / 8) = 0)
  awake : rate.toNat < 8 → ∀ offer ∈ offers, offer.2 = false

/-- A sender whose course begins with a window keeps to its rate. -/
theorem Logs.keepsTo (hbuffer : 1 ≤ buffer) {lastTick now : Instant}
    (hlogs : Logs buffer { pacer := Pacer.begin lastTick now rate buffer } false script offers
      final) : KeepsTo rate script offers where
  metered := by
    intro hrate before size slept after hoffers
    have hbudget : 1 ≤ rate.toNat / 8 := (Nat.one_le_div_iff (by decide)).2 hrate
    obtain ⟨held, hheld, hsize, htotal, hflag, hbefore⟩ :=
      hlogs.exists_at hbuffer (.opened lastTick now) (by simp) hoffers
    have hmod := hheld.total_mod hbuffer hbudget
    rw [htotal, show Ledger.total { pacer := Pacer.begin lastTick now rate buffer } = 0 from rfl,
      Nat.zero_add] at hmod
    rw [hmod]
    constructor
    · have hbalanced := hheld.balanced hbudget hbuffer
      have hoffer : offerSize held.pacer buffer ≤ held.pacer.allowance :=
        offerSize_le hbalanced.exact.allowance_pos
      rw [hsize, ← hbalanced.sent_eq, ← hbalanced.budget_eq]
      exact hbalanced.exact.sent_add_le hoffer
    · intro hslept
      refine ⟨hbefore.resolve_left fun h => ?_, (hflag hslept).2⟩
      rw [hslept] at h
      cases h.2
  awake := by
    rintro hrate ⟨size, slept⟩ hoffer
    obtain ⟨before, after, hoffers⟩ := List.append_of_mem hoffer
    obtain ⟨held, -, -, -, hflag, -⟩ :=
      hlogs.exists_at hbuffer (.opened lastTick now) (by simp) hoffers
    rw [← Bool.not_eq_true]
    intro hslept
    exact absurd (hflag hslept).1 (by omega)

theorem Logs.reachable (hbuffer : 1 ≤ buffer) (hreach : ledger.Reachable rate buffer)
    (hlogs : Logs buffer ledger slept script offers final) : final.Reachable rate buffer := by
  induction hlogs with
  | ended | last => exact hreach
  | recorded recording htaken _ hrecord _ ih =>
      have hbytes := (le_of_taken? htaken).trans (offerSize_le (hreach.one_le_allowance hbuffer))
      exact ih (.recorded recording hreach hbytes hrecord)

/-- However a sender is paced, each window that it completes carries the budget. -/
theorem exists_logs_send? (hbuffer : 1 ≤ buffer) (chance : Chance) (lastTick now : Instant)
    (rate : UInt64) (script : List Acceptance) :
    ∃ sent ledger, send? chance lastTick now rate buffer script = some sent ∧
      Logs buffer { pacer := Pacer.begin lastTick now rate buffer } false script sent.offers
        ledger ∧
      (∀ total ∈ ledger.completed, total = rate.toNat / 8) ∧ KeepsTo rate script sent.offers := by
  have hopened : Ledger.Reachable rate buffer _ := .opened lastTick now
  obtain ⟨offers, ledger, hoffers, hlogs⟩ := exists_logs_sendFrom chance hbuffer 0 script hopened
    { counting := .bytes } false false {}
  rw [List.nil_append] at hoffers
  refine ⟨_, ledger, if_neg (Nat.ne_of_gt hbuffer), hoffers ▸ hlogs, fun total htotal => ?_,
    hoffers ▸ hlogs.keepsTo hbuffer⟩
  have hreach := hlogs.reachable hbuffer hopened
  rcases Nat.eq_zero_or_pos (rate.toNat / 8) with hrate | hrate
  · rw [(hreach.unlimited hrate).2.2] at htotal
    cases htotal
  · exact (hreach.balanced hrate hbuffer).completed_eq total htotal

end Transfer

end LinkMeter
