import LinkMeter.Proofs.Transfer.Windows
import LinkMeter.Proofs.Wire.Layout
import LinkMeter.Settings.Basic

/-!
# What a configured rate limits

A bandwidth that is configured reaches the sender as it is: the request carries
it, and so does the message that the request travels in.  The sender makes bytes
of it, rounded down, and takes a budget of none for no limit.  So a rate of at
least eight bits per second caps every window, the last one with the call that
is not recorded any more included (`Transfer.Logs.takenOf_eq`), and a lower one
limits nothing (`Transfer.send?_of_low`).
-/

namespace LinkMeter

open Pacing (Instant Ledger Pacer)
open Wire (Acceptance)

namespace Pacing.Pacer

/-- A rate that makes no byte is like no limit. -/
theorem begin_of_low {rate : UInt64} (hlow : rate.toNat < 8) (lastTick now : Instant)
    (buffer : Nat) : begin lastTick now rate buffer = begin lastTick now 0 buffer := by
  rw [begin, begin, Nat.div_eq_of_lt hlow]
  rfl

theorem isUnlimited_begin_iff {rate : UInt64} {lastTick now : Instant} {buffer : Nat} :
    (begin lastTick now rate buffer).isUnlimited = true ↔ rate.toNat < 8 := by
  rw [isUnlimited, beq_iff_eq, begin, withBudget, Nat.div_eq_zero_iff]
  omega

end Pacing.Pacer

namespace Transfer

variable {rate : UInt64} {buffer : Nat} {ledger final : Ledger} {slept : Bool}
  {script : List Acceptance} {offers : List (Nat × Bool)}

theorem send?_of_low (hlow : rate.toNat < 8) (chance : Chance) (lastTick now : Instant)
    (buffer : Nat) (script : List Acceptance) :
    send? chance lastTick now rate buffer script = send? chance lastTick now 0 buffer script := by
  rw [send?, send?, Pacer.begin_of_low hlow]

/-- What a stream takes is what the ledger counts and what is taken of the last call. -/
theorem Logs.takenOf_eq (hlogs : Logs buffer ledger slept script offers final) :
    ∃ last ≤ offerSize final.pacer buffer,
      ledger.total + takenOf script offers = final.total + last := by
  induction hlogs with
  | ended ledger slept script => exact ⟨0, Nat.zero_le _, by rw [takenOf_nil]⟩
  | last ledger slept script =>
      refine ⟨takenOf script _, ?_, rfl⟩
      cases script with
      | nil => exact Nat.zero_le _
      | cons call script =>
          rw [takenOf, takenOf_nil, Nat.add_zero]
          cases htaken : call.taken? (offerSize ledger.pacer buffer) with
          | none => exact Nat.zero_le _
          | some taken => exact le_of_taken? htaken
  | recorded recording htaken _ hrecord _ ih =>
      obtain ⟨last, hlast, htotal⟩ := ih
      refine ⟨last, hlast, ?_⟩
      rw [takenOf, htaken, ← htotal, Ledger.total_of_record? hrecord, Nat.add_assoc]
      rfl

/-- The bytes that a stream takes in each window: in those that the sender completes, and in the one
that is open when it ends. -/
structure Windows (rate : UInt64) (buffer : Nat) (lastTick now : Instant)
    (script : List Acceptance) (offers : List (Nat × Bool)) (windows : List Nat) : Prop where
  exists_logs : ∃ ledger last,
    Logs buffer { pacer := Pacer.begin lastTick now rate buffer } false script offers ledger ∧
      windows = ledger.completed ++ [ledger.current + last]
  sum_eq : windows.sum = takenOf script offers

/-- A budget caps every window. -/
theorem exists_windows (hbuffer : 1 ≤ buffer) (chance : Chance) (lastTick now : Instant)
    (rate : UInt64) (script : List Acceptance) :
    ∃ sent windows, send? chance lastTick now rate buffer script = some sent ∧
      Windows rate buffer lastTick now script sent.offers windows ∧
      (8 ≤ rate.toNat → ∀ window ∈ windows, window ≤ rate.toNat / 8) ∧
      (rate.toNat < 8 → windows.length = 1) := by
  obtain ⟨sent, ledger, hsent, hlogs, hcompleted, -⟩ :=
    exists_logs_send? hbuffer chance lastTick now rate script
  obtain ⟨last, hlast, htotal⟩ := hlogs.takenOf_eq
  have hreach := hlogs.reachable hbuffer (.opened lastTick now)
  refine ⟨sent, _, hsent, ⟨⟨ledger, last, hlogs, rfl⟩, ?_⟩, fun hrate window hwindow => ?_,
    fun hlow => ?_⟩
  · have hstart : Ledger.total { pacer := Pacer.begin lastTick now rate buffer } = 0 := rfl
    rw [hstart, Nat.zero_add] at htotal
    rw [htotal, Ledger.total, List.sum_append, List.sum_singleton, Nat.add_assoc]
  · have hbudget : 1 ≤ rate.toNat / 8 := (Nat.one_le_div_iff (by decide)).2 hrate
    have hbalanced := hreach.balanced hbudget hbuffer
    rcases List.mem_append.1 hwindow with hdone | hopen
    · exact Nat.le_of_eq (hcompleted window hdone)
    · rw [List.mem_singleton.1 hopen, ← hbalanced.sent_eq, ← hbalanced.budget_eq]
      exact hbalanced.exact.sent_add_le (hlast.trans (offerSize_le hbalanced.exact.allowance_pos))
  · have hnone : ledger.completed = [] := (hreach.unlimited (Nat.div_eq_of_lt hlow)).2.2
    rw [hnone]
    rfl

/-- A configured bandwidth is the rate of the request, and the request arrives as it was sent.  From
eight bits per second on it limits the sender: no window takes more than its bytes per second.
Below that the sender is not limited, and does just what it does without a bandwidth: all bytes go
into the one window that it opens. -/
theorem bandwidth_caps {settings : Settings} (hbandwidth : settings.bandwidth = some rate) :
    let request := settings.request
    (request.rate = rate ∧ ∀ version rest,
      Wire.Message.ofBytes (Wire.Message.encode ⟨version, .request settings.measurement request⟩ ++
          rest) = .ok ⟨version, .request settings.measurement request⟩) ∧
    ∀ (lastTick now : Instant) (buffer : Nat), 1 ≤ buffer →
      ((Pacer.begin lastTick now request.rate buffer).isUnlimited = true ↔ rate.toNat < 8) ∧
      ∀ chance script, ∃ sent windows,
        send? chance lastTick now request.rate buffer script = some sent ∧
        Windows rate buffer lastTick now script sent.offers windows ∧
        (8 ≤ rate.toNat → ∀ window ∈ windows, window ≤ max 1 (rate.toNat / 8)) ∧
        (rate.toNat < 8 → windows.length = 1 ∧
          send? chance lastTick now 0 buffer script = some sent) := by
  intro request
  have hrate : request.rate = rate := by
    rw [show request.rate = settings.bandwidth.getD 0 from rfl, hbandwidth]
    rfl
  refine ⟨⟨hrate, fun version rest => Wire.Message.ofBytes_encode _ rest⟩,
    fun lastTick now buffer hbuffer => ?_⟩
  rw [hrate]
  refine ⟨Pacer.isUnlimited_begin_iff, fun chance script => ?_⟩
  obtain ⟨sent, windows, hsent, hwindows, hcapped, hone⟩ :=
    exists_windows hbuffer chance lastTick now rate script
  refine ⟨sent, windows, hsent, hwindows, fun hhigh window hwindow => ?_,
    fun hlow => ⟨hone hlow, ?_⟩⟩
  · exact (hcapped hhigh window hwindow).trans (Nat.le_max_right _ _)
  · rw [← send?_of_low hlow, hsent]

/-- A bandwidth of 87 bits per second lets ten bytes through in a window, in calls of which the
stream takes a part. -/
theorem bandwidth_caps_ten :
    let settings : Settings := { bandwidth := some 87 }
    let script : List Acceptance := [.take 7, .take 16, .take 16, .take 2]
    settings.bandwidth = some 87 ∧ (Pacer.begin 3 5 settings.request.rate 16).isUnlimited = false ∧
      ∃ sent windows, send? .still 3 5 settings.request.rate 16 script = some sent ∧
        sent.total = 22 ∧ Windows 87 16 3 5 script sent.offers windows ∧
        ∀ window ∈ windows, window ≤ 10 := by
  intro settings script
  have hbandwidth : settings.bandwidth = some 87 := rfl
  obtain ⟨-, hcaps⟩ := bandwidth_caps hbandwidth
  obtain ⟨hlimited, hsends⟩ := hcaps 3 5 16 (by decide)
  obtain ⟨sent, windows, hsent, hwindows, hcapped, -⟩ := hsends .still script
  have htotal : (send? .still 3 5 settings.request.rate 16 script).map (·.total) = some 22 := by
    decide
  rw [hsent] at htotal
  refine ⟨hbandwidth, ?_, sent, windows, hsent, Option.some.inj htotal, hwindows, hcapped (by decide)⟩
  rw [← Bool.not_eq_true, hlimited]
  decide

/-- Seven bits per second are not nothing, and still the sender is not limited: both calls go into
one window, which takes 32 bytes. -/
theorem unlimited_seven :
    let settings : Settings := { bandwidth := some 7 }
    let script : List Acceptance := [.take 16, .take 16]
    0 < (7 : UInt64) ∧ (Pacer.begin 0 0 settings.request.rate 16).isUnlimited = true ∧
      (∃ sent, send? .still 0 0 settings.request.rate 16 script = some sent ∧
        Windows 7 16 0 0 script sent.offers [32]) ∧
      ¬ 32 ≤ max 1 (7 / 8) := by
  intro settings script
  have hbuffer : 1 ≤ 16 := by decide
  obtain ⟨sent, windows, hsent, hwindows, -, hone⟩ :=
    exists_windows hbuffer .still 0 0 7 script
  have hoffers : (send? .still 0 0 7 16 script).map (·.offers) =
      some [(16, false), (16, false), (16, false)] := by decide
  rw [hsent] at hoffers
  obtain ⟨window, rfl⟩ := List.length_eq_one_iff.1 (hone (by decide))
  have hsum := hwindows.sum_eq
  rw [show sent.offers = _ from Option.some.inj hoffers, List.sum_singleton] at hsum
  obtain rfl : window = 32 := hsum
  exact ⟨by decide, by decide, ⟨sent, hsent, hwindows⟩, by decide⟩

end Transfer

end LinkMeter
