import LinkMeter.Proofs.Pacing.Budget
import Mathlib.Data.Finset.Card
import Mathlib.Order.Interval.Finset.Nat
import Mathlib.Tactic.Ring

/-!
# A stale clock still caps the rate

While the statistics clock does not tick, the boundaries of the windows keep
following its last tick by one second after another.  A window may spend its
budget early, and the sender then pauses until the boundary; or it may run long
past the boundary, and the next one opens at once, somewhere inside a period.
In both cases no two windows open between the same two boundaries
(`Pacer.Paced.countP_le_one`), which caps what can be recorded by any time: one
budget, and one more for each boundary passed (`Pacer.Paced.recordedBy_add_le`).

Boundaries are counted by `passed`.  A window opened at an instant ends at the
boundary numbered by what that instant has passed, so each window has passed
more boundaries than the one before (`Pacer.Paced.pairwise_passed`).  The
invariant of a call is `Pacer.Capped`, which asks less than `Pacer.Exact`: the
buffer may be empty, and the window may have spent its budget.
-/

namespace LinkMeter.Pacing

/-! ## Boundaries -/

section Boundaries

variable {lastTick now later : Instant} {index : Nat}

/-- The boundaries behind a tick, from the first one on. -/
def boundary (lastTick : Instant) (index : Nat) : Instant :=
  firstBoundary lastTick + period * index

/-- An instant is one of the boundaries behind a tick. -/
def IsBoundary (lastTick now : Instant) : Prop := ∃ index, now = boundary lastTick index

theorem isBoundary_iff :
    firstBoundary lastTick ≤ now ∧ (now - firstBoundary lastTick) % period = 0 ↔
      IsBoundary lastTick now := by
  constructor
  · rintro ⟨hfirst, hmod⟩
    refine ⟨(now - firstBoundary lastTick) / period, ?_⟩
    rw [boundary, Nat.mul_div_cancel' (Nat.dvd_of_mod_eq_zero hmod), Nat.add_sub_cancel' hfirst]
  · rintro ⟨index, rfl⟩
    exact ⟨Nat.le_add_right _ _, by rw [boundary, Nat.add_sub_cancel_left, Nat.mul_mod_right]⟩

instance : DecidablePred (IsBoundary lastTick) := fun _ => decidable_of_iff _ isBoundary_iff

/-- The boundaries behind a tick that come after one instant and by another. -/
def boundariesIn (lastTick now later : Instant) : Finset Instant :=
  (Finset.Ioc now later).filter (IsBoundary lastTick)

/-- How many boundaries have come by an instant. -/
def passed (lastTick now : Instant) : Nat :=
  if now < firstBoundary lastTick then 0 else (now - firstBoundary lastTick) / period + 1

/-- Seconds behind a tick are counted in 32 bits. -/
def clockSpan : Nat := 0x1_0000_0000 * period

theorem boundary_le_iff : boundary lastTick index ≤ now ↔ index < passed lastTick now := by
  simp only [boundary, passed, period]
  unfold Instant at *
  split <;> omega

theorem lt_boundary_iff : now < boundary lastTick index ↔ passed lastTick now ≤ index := by
  rw [← Nat.not_le, boundary_le_iff, Nat.not_lt]

theorem passed_mono (lastTick : Instant) (hlater : now ≤ later) :
    passed lastTick now ≤ passed lastTick later := by
  rw [← lt_boundary_iff]
  exact Nat.lt_of_le_of_lt hlater (lt_boundary_iff.2 (Nat.le_refl _))

theorem boundary_injective (lastTick : Instant) : Function.Injective (boundary lastTick) := by
  intro index other heq
  simp only [boundary, period] at heq
  unfold Instant at *
  omega

/-- The boundaries between two instants are those that the later one has passed and the earlier
one has not. -/
theorem boundariesIn_eq (lastTick now later : Instant) :
    boundariesIn lastTick now later =
      (Finset.Ico (passed lastTick now) (passed lastTick later)).map
        ⟨boundary lastTick, boundary_injective lastTick⟩ := by
  ext instant
  simp only [boundariesIn, Finset.mem_filter, Finset.mem_Ioc, Finset.mem_map, Finset.mem_Ico,
    Function.Embedding.coeFn_mk]
  constructor
  · rintro ⟨⟨hafter, hby⟩, index, rfl⟩
    exact ⟨index, ⟨lt_boundary_iff.1 hafter, boundary_le_iff.1 hby⟩, rfl⟩
  · rintro ⟨index, ⟨hafter, hby⟩, rfl⟩
    exact ⟨⟨lt_boundary_iff.2 hafter, boundary_le_iff.2 hby⟩, index, rfl⟩

theorem card_boundariesIn (lastTick now later : Instant) :
    (boundariesIn lastTick now later).card = passed lastTick later - passed lastTick now := by
  rw [boundariesIn_eq, Finset.card_map, Nat.card_Ico]

/-- The number of the first boundary after an instant fits its 32 bits. -/
def Numbered (lastTick now : Instant) : Prop :=
  ∃ index < 0x1_0000_0000, now < boundary lastTick index

theorem numbered_iff : Numbered lastTick now ↔ passed lastTick now < 0x1_0000_0000 := by
  constructor
  · rintro ⟨index, hindex, hlt⟩
    exact Nat.lt_of_le_of_lt (lt_boundary_iff.1 hlt) hindex
  · intro hpassed
    exact ⟨_, hpassed, lt_boundary_iff.2 (Nat.le_refl _)⟩

theorem Numbered.of_le (hnumbered : Numbered lastTick later) (hlater : now ≤ later) :
    Numbered lastTick now := by
  rw [numbered_iff] at hnumbered ⊢
  exact Nat.lt_of_le_of_lt (passed_mono lastTick hlater) hnumbered

theorem numbered_of_lt_clockSpan (hspan : now < lastTick + clockSpan) :
    Numbered lastTick now := by
  refine ⟨0xFFFF_FFFF, by decide, ?_⟩
  simp only [clockSpan, boundary, firstBoundary, boundaryOffset, period] at hspan ⊢
  unfold Instant at *
  omega

/-- While the number fits, the next boundary is the first one not passed. -/
theorem nextBoundary_eq (hnumbered : Numbered lastTick now) :
    nextBoundary lastTick now = boundary lastTick (passed lastTick now) := by
  rw [numbered_iff] at hnumbered
  simp only [nextBoundary, passed] at hnumbered ⊢
  by_cases hfirst : now < firstBoundary lastTick
  · rw [if_pos hfirst, if_pos hfirst]
    rfl
  · rw [if_neg hfirst] at hnumbered
    rw [if_neg hfirst, if_neg hfirst, Nat.mod_eq_of_lt hnumbered]
    rfl

/-- A wait lasts to the first boundary not passed. -/
theorem add_waitFrom (hnumbered : Numbered lastTick now) :
    now + waitFrom lastTick now = boundary lastTick (passed lastTick now) := by
  have hlt : now < boundary lastTick (passed lastTick now) := lt_boundary_iff.2 (Nat.le_refl _)
  rw [waitFrom, nextBoundary_eq hnumbered, Nat.add_sub_cancel' (Nat.le_of_lt hlt)]

/-- What opens after the wait of a window has passed one more boundary. -/
theorem passed_lt_of_wait (hspan : now < lastTick + clockSpan)
    (hwait : now + waitFrom lastTick now ≤ later) :
    passed lastTick now < passed lastTick later := by
  rwa [add_waitFrom (numbered_of_lt_clockSpan hspan), boundary_le_iff] at hwait

end Boundaries

namespace Pacer

/-! ## One call -/

/-- A limited pacer: what is recorded and what is allowed stay within the budget, and its window
lasts to the next boundary. -/
structure Capped (pacer : Pacer) : Prop where
  budget_pos : 0 < pacer.budget
  budget_lt : pacer.budget < UInt64.size
  sent_le : pacer.sent + pacer.allowance ≤ pacer.budget
  wait_eq : pacer.wait = waitFrom pacer.lastTick pacer.start

theorem capped_withBudget (lastTick now : Instant) {budget : Nat} (buffer : Nat)
    (hbudget : 0 < budget) (hlt : budget < UInt64.size) :
    (withBudget lastTick now budget buffer).Capped where
  budget_pos := hbudget
  budget_lt := hlt
  sent_le := by
    simp only [withBudget, firstChunk]
    split <;> omega
  wait_eq := rfl

/-! ## A run -/

/-- A call that records bytes, with the instants it goes through. -/
structure Call where
  bytes : Nat
  /-- When the bytes are handed over. -/
  called : Instant
  /-- When the age of the window is read. -/
  read : Instant
  /-- When the call is back; a new window opens then. -/
  resumed : Instant
  deriving DecidableEq, Inhabited

/-- The pacer after a call. -/
def after (pacer : Pacer) (call : Call) : Pacer := pacer.record call.bytes call.read call.resumed

/-- Records the bytes of all calls, if 64 bits can count them in each window. -/
def recordAll? (pacer : Pacer) (calls : List Call) : Option Pacer :=
  calls.foldlM (fun pacer call => pacer.record? call.bytes call.read call.resumed) pacer

/-- Calls of a sender that writes at most what it is allowed, from some time on.  Time never goes
backwards, and a pause is never cut short. -/
inductive Paced : Pacer → Instant → List Call → Prop
  | nil (pacer : Pacer) (time : Instant) : Paced pacer time []
  | cons {pacer : Pacer} {time : Instant} {call : Call} {calls : List Call} :
      call.bytes ≤ pacer.allowance → time ≤ call.called → call.called ≤ call.read →
      call.read + (pacer.pauseFor call.bytes call.read).getD 0 ≤ call.resumed →
      Paced (pacer.after call) call.resumed calls → Paced pacer time (call :: calls)

/-- A window, when it opened and how long it was meant to last then. -/
structure Window where
  opened : Instant
  wait : Nat
  deriving DecidableEq, Inhabited

def window (pacer : Pacer) : Window := ⟨pacer.start, pacer.wait⟩

/-- The windows that calls open, one for each pause. -/
def laterWindows (pacer : Pacer) : List Call → List Window
  | [] => []
  | call :: calls =>
    if (pacer.pauseFor call.bytes call.read).isSome then
      (pacer.after call).window :: (pacer.after call).laterWindows calls
    else (pacer.after call).laterWindows calls

/-- All windows of a run, with the one that was open at its start. -/
def windows (pacer : Pacer) (calls : List Call) : List Window :=
  pacer.window :: pacer.laterWindows calls

/-- The next window opens no earlier than at the end of the wait. -/
def Window.Before (window next : Window) : Prop := window.opened + window.wait ≤ next.opened

/-- The bytes handed over by some time. -/
def recordedBy (time : Instant) (calls : List Call) : Nat :=
  ((calls.filter (·.called ≤ time)).map Call.bytes).sum

variable {pacer : Pacer} {call : Call} {calls : List Call} {time : Instant}

@[simp] theorem recordedBy_nil : recordedBy time [] = 0 := rfl

theorem recordedBy_cons :
    recordedBy time (call :: calls) =
      (if call.called ≤ time then call.bytes else 0) + recordedBy time calls := by
  by_cases hcalled : call.called ≤ time <;> simp [recordedBy, hcalled]

/-- An allowed call keeps the window, or opens another one after the whole wait. -/
theorem Capped.after_cases (hcapped : pacer.Capped) (calls : List Call)
    (hstart : pacer.start ≤ call.read)
    (hpause : call.read + (pacer.pauseFor call.bytes call.read).getD 0 ≤ call.resumed) :
    (pacer.after call).Capped ∧ (pacer.after call).lastTick = pacer.lastTick ∧
      (pacer.after call).budget = pacer.budget ∧ (pacer.after call).start ≤ call.resumed ∧
      ((pacer.windows (call :: calls) = (pacer.after call).windows calls ∧
          (pacer.after call).start = pacer.start ∧
          (pacer.after call).sent = pacer.sent + call.bytes) ∨
        (pacer.windows (call :: calls) = pacer.window :: (pacer.after call).windows calls ∧
          pacer.window.Before (pacer.after call).window ∧
          (pacer.after call).start = call.resumed ∧ (pacer.after call).sent = 0)) := by
  rcases Nat.lt_or_ge (pacer.sent + call.bytes) pacer.budget with hleft | hspent
  · have hnone := pauseFor_of_left hleft call.read
    have hafter : pacer.after call = _ := record_of_left hleft call.read call.resumed
    rw [hnone, Option.getD_none, Nat.add_zero] at hpause
    have hwindows : pacer.windows (call :: calls) = (pacer.after call).windows calls := by
      rw [windows, laterWindows, hnone, windows, hafter]
      rfl
    have hroom : pacer.sent + call.bytes +
        min (pacer.budget - (pacer.sent + call.bytes)) pacer.buffer ≤ pacer.budget := by omega
    rw [hafter] at hwindows ⊢
    exact ⟨⟨hcapped.budget_pos, hcapped.budget_lt, hroom, hcapped.wait_eq⟩, rfl, rfl,
      hstart.trans hpause, .inl ⟨hwindows, rfl, rfl⟩⟩
  · have hsome := pauseFor_of_spent hcapped.budget_pos hspent call.read
    have hafter : pacer.after call = _ :=
      record_of_spent hcapped.budget_pos hspent call.read call.resumed
    rw [hsome, Option.getD_some] at hpause
    have hwindows : pacer.windows (call :: calls) =
        pacer.window :: (pacer.after call).windows calls := by
      rw [windows, laterWindows, hsome, Option.isSome_some, if_pos rfl, windows]
    have hbefore : pacer.start + pacer.wait ≤ call.resumed := by
      unfold Instant at *
      omega
    rw [hafter] at hwindows ⊢
    exact ⟨capped_withBudget _ _ _ hcapped.budget_pos hcapped.budget_lt, rfl, rfl, Nat.le_refl _,
      .inr ⟨hwindows, hbefore, rfl, rfl⟩⟩

namespace Paced

/-- Allowed bytes never go beyond what 64 bits can count. -/
theorem isSome_recordAll? (hpaced : Paced pacer time calls) (hcapped : pacer.Capped)
    (htime : pacer.start ≤ time) : (pacer.recordAll? calls).isSome := by
  induction hpaced with
  | nil pacer time => rfl
  | cons hbytes hlater hread hpause _ ih =>
      have hstart := htime.trans (hlater.trans hread)
      obtain ⟨hnext, -, -, hopened, -⟩ := hcapped.after_cases [] hstart hpause
      have hle := (Nat.add_le_add_left hbytes _).trans hcapped.sent_le
      rw [recordAll?, List.foldlM_cons, record?_eq hle hcapped.budget_lt]
      exact ih hnext hopened

/-- Each window opens after the whole wait of the one before it. -/
theorem isChain_windows (hpaced : Paced pacer time calls) (hcapped : pacer.Capped)
    (htime : pacer.start ≤ time) : (pacer.windows calls).IsChain Window.Before := by
  induction hpaced with
  | nil pacer time => exact .singleton _
  | cons hbytes hlater hread hpause _ ih =>
      have hstart := htime.trans (hlater.trans hread)
      obtain ⟨hnext, -, -, hopened, hkept | hnew⟩ := hcapped.after_cases _ hstart hpause
      · rw [hkept.1]
        exact ih hnext hopened
      · rw [hnew.1]
        exact .cons_cons hnew.2.1 (ih hnext hopened)

/-- The wait of a window is taken from the clock when it opens. -/
theorem wait_of_mem_windows (hpaced : Paced pacer time calls) (hcapped : pacer.Capped)
    (htime : pacer.start ≤ time) {window : Window} (hmem : window ∈ pacer.windows calls) :
    window.wait = waitFrom pacer.lastTick window.opened := by
  induction hpaced with
  | nil pacer time =>
      rw [List.mem_singleton.1 hmem]
      exact hcapped.wait_eq
  | cons hbytes hlater hread hpause _ ih =>
      have hstart := htime.trans (hlater.trans hread)
      obtain ⟨hnext, htick, -, hopened, hkept | hnew⟩ := hcapped.after_cases _ hstart hpause
      · rw [← htick]
        exact ih hnext hopened (hkept.1 ▸ hmem)
      · rw [hnew.1, List.mem_cons] at hmem
        rcases hmem with rfl | hmem
        · exact hcapped.wait_eq
        · rw [← htick]
          exact ih hnext hopened hmem

/-- A later window has passed more boundaries. -/
theorem pairwise_passed (hpaced : Paced pacer time calls) (hcapped : pacer.Capped)
    (htime : pacer.start ≤ time)
    (hspan : ∀ window ∈ pacer.windows calls, window.opened < pacer.lastTick + clockSpan) :
    (pacer.windows calls).Pairwise fun window next =>
      passed pacer.lastTick window.opened < passed pacer.lastTick next.opened := by
  have htrans : IsTrans Window Window.Before :=
    ⟨fun first second third hfirst hsecond =>
      hfirst.trans ((Nat.le_add_right _ _).trans hsecond)⟩
  have hpairwise := (hpaced.isChain_windows hcapped htime).pairwise
  refine hpairwise.imp_of_mem fun hwindow _ hbefore => ?_
  rw [Window.Before, hpaced.wait_of_mem_windows hcapped htime hwindow] at hbefore
  exact passed_lt_of_wait (hspan _ hwindow) hbefore

/-- Nothing is handed over before a run starts. -/
theorem recordedBy_eq_zero (hpaced : Paced pacer time calls) {instant : Instant}
    (hinstant : instant < time) : recordedBy instant calls = 0 := by
  induction hpaced with
  | nil pacer time => rfl
  | cons _ hlater hread hpause _ ih =>
      have hcalled := Nat.lt_of_lt_of_le hinstant hlater
      have hresumed := Nat.lt_of_lt_of_le hcalled
        (hread.trans ((Nat.le_add_right _ _).trans hpause))
      rw [recordedBy_cons, if_neg (Nat.not_le.2 hcalled), Nat.zero_add]
      exact ih hresumed

/-- What is in the window and what is recorded by some time take one budget, and one more for
each boundary passed since the window opened. -/
theorem recordedBy_add_le (hpaced : Paced pacer time calls) (hcapped : pacer.Capped)
    (htime : pacer.start ≤ time)
    (hspan : ∀ window ∈ pacer.windows calls, window.opened < pacer.lastTick + clockSpan)
    {instant : Instant} (hinstant : pacer.start ≤ instant) :
    pacer.sent + recordedBy instant calls ≤
      pacer.budget * (1 + (passed pacer.lastTick instant - passed pacer.lastTick pacer.start)) := by
  induction hpaced with
  | nil pacer time =>
      have hsent := hcapped.sent_le
      rw [recordedBy_nil]
      exact Nat.le_trans (by omega) (Nat.le_mul_of_pos_right _ (by omega))
  | @cons pacer time call calls hbytes hlater hread hpause hpaced ih =>
      have hstart := htime.trans (hlater.trans hread)
      have hsent := hcapped.sent_le
      obtain ⟨hnext, htick, hbudget, hopened, hcases⟩ :=
        hcapped.after_cases calls hstart hpause
      rw [htick, hbudget] at ih
      rw [recordedBy_cons]
      rcases hcases with ⟨hwindows, hsame, hcount⟩ | ⟨hwindows, hbefore, hresumed, hempty⟩
      · have hrest := ih hnext hopened (hwindows ▸ hspan) (hsame ▸ hinstant)
        rw [hsame, hcount] at hrest
        refine Nat.le_trans ?_ hrest
        split <;> omega
      · have hspent : pacer.sent + (if call.called ≤ instant then call.bytes else 0) ≤
            pacer.budget := by
          split <;> omega
        by_cases hlate : instant < call.resumed
        · -- the next window opens too late to count
          rw [hpaced.recordedBy_eq_zero hlate, Nat.add_zero]
          exact hspent.trans (Nat.le_mul_of_pos_right _ (by omega))
        · -- the next window has passed one more boundary, which pays for this one
          have hinstant' : (pacer.after call).start ≤ instant := hresumed ▸ Nat.le_of_not_lt hlate
          have hrest := ih hnext hopened
            (fun window hmem => hspan window (hwindows ▸ List.mem_cons_of_mem _ hmem)) hinstant'
          have hless : passed pacer.lastTick pacer.start <
              passed pacer.lastTick (pacer.after call).start := by
            refine passed_lt_of_wait (hspan pacer.window (hwindows ▸ List.mem_cons_self)) ?_
            rw [← hcapped.wait_eq]
            exact hbefore
          have hmore := passed_mono pacer.lastTick hinstant'
          rw [hempty, Nat.zero_add] at hrest
          calc pacer.sent + ((if call.called ≤ instant then call.bytes else 0) +
                recordedBy instant calls)
              ≤ pacer.budget + pacer.budget * (1 + (passed pacer.lastTick instant -
                  passed pacer.lastTick (pacer.after call).start)) := by omega
            _ = pacer.budget * (2 + (passed pacer.lastTick instant -
                  passed pacer.lastTick (pacer.after call).start)) := by ring
            _ ≤ pacer.budget * (1 + (passed pacer.lastTick instant -
                  passed pacer.lastTick pacer.start)) := Nat.mul_le_mul_left _ (by omega)

/-- Of windows that have passed ever more boundaries, at most one has passed just so many. -/
theorem countP_le_one (hpaced : Paced pacer time calls) (hcapped : pacer.Capped)
    (htime : pacer.start ≤ time)
    (hspan : ∀ window ∈ pacer.windows calls, window.opened < pacer.lastTick + clockSpan)
    (keep : Window → Bool) (count : Nat)
    (hkeep : ∀ window, keep window → passed pacer.lastTick window.opened = count) :
    (pacer.windows calls).countP keep ≤ 1 := by
  have hpairwise := (hpaced.pairwise_passed hcapped htime hspan).filter keep
  have hkept : ∀ window ∈ (pacer.windows calls).filter keep,
      passed pacer.lastTick window.opened = count :=
    fun window hmem => hkeep window (List.mem_filter.1 hmem).2
  rw [List.countP_eq_length_filter]
  rcases hfilter : (pacer.windows calls).filter keep with _ | ⟨first, _ | ⟨second, rest⟩⟩
  · exact Nat.zero_le _
  · exact Nat.le_refl _
  · rw [hfilter] at hpairwise hkept
    have hlt := List.rel_of_pairwise_cons hpairwise List.mem_cons_self
    rw [hkept first List.mem_cons_self,
      hkept second (List.mem_cons_of_mem _ List.mem_cons_self)] at hlt
    exact absurd hlt (Nat.lt_irrefl _)

end Paced

/-- A sender paced by a clock that does not tick.  All that it hands over can be counted.  Each of
its windows opens after the whole wait of the one before, so that no two open between the same two
boundaries, nor before the first.  By any time it has handed over at most one budget, and one more
for each boundary since its start. -/
theorem rate_capped {rate : UInt64} {buffer : Nat} {lastTick start : Instant} {calls : List Call}
    (hrate : 1 ≤ rate.toNat / 8)
    (hpaced : Paced (begin lastTick start rate buffer) start calls)
    (hspan : ∀ window ∈ (begin lastTick start rate buffer).windows calls,
      window.opened < lastTick + clockSpan) :
    ((begin lastTick start rate buffer).recordAll? calls).isSome ∧
    ((begin lastTick start rate buffer).windows calls).IsChain Window.Before ∧
    ((begin lastTick start rate buffer).windows calls).countP
        (fun window => window.opened < boundary lastTick 0) ≤ 1 ∧
    (∀ index, ((begin lastTick start rate buffer).windows calls).countP
        (fun window => boundary lastTick index ≤ window.opened ∧
          window.opened < boundary lastTick (index + 1)) ≤ 1) ∧
    ∀ instant, start ≤ instant → recordedBy instant calls ≤
      rate.toNat / 8 * (1 + (boundariesIn lastTick start instant).card) := by
  have hlt : rate.toNat / 8 < UInt64.size :=
    Nat.lt_of_le_of_lt (Nat.div_le_self _ _) rate.toNat_lt
  have hcapped : (begin lastTick start rate buffer).Capped :=
    capped_withBudget lastTick start buffer hrate hlt
  have htime : (begin lastTick start rate buffer).start ≤ start := Nat.le_refl _
  refine ⟨hpaced.isSome_recordAll? hcapped htime, hpaced.isChain_windows hcapped htime, ?_, ?_, ?_⟩
  · refine hpaced.countP_le_one hcapped htime hspan _ 0 fun window hkeep => ?_
    exact Nat.le_zero.1 (lt_boundary_iff.1 (of_decide_eq_true hkeep))
  · intro index
    refine hpaced.countP_le_one hcapped htime hspan _ (index + 1) fun window hkeep => ?_
    obtain ⟨hfrom, hto⟩ := of_decide_eq_true hkeep
    exact Nat.le_antisymm (lt_boundary_iff.1 hto) (boundary_le_iff.1 hfrom)
  · intro instant hinstant
    have hle := hpaced.recordedBy_add_le hcapped htime hspan hinstant
    rw [card_boundariesIn]
    exact (Nat.le_add_left _ _).trans hle

/-- The clock ticked two seconds before the start.  The first window is cut short by the boundary
50 ms later, the second runs almost a second over its boundary, and the third opens at once: three
budgets by then, for two boundaries. -/
theorem rate_capped_stale :
    let calls : List Call :=
      [⟨1000, 2_010_000_000, 2_010_000_000, 2_050_000_000⟩,
        ⟨600, 2_900_000_000, 2_900_000_000, 2_900_000_000⟩,
        ⟨400, 4_000_000_000, 4_000_000_000, 4_000_000_000⟩,
        ⟨1000, 4_000_000_000, 4_000_000_001, 4_050_000_000⟩]
    (1 ≤ (8000 : UInt64).toNat / 8 ∧ Paced (begin 0 2_000_000_000 8000 1000) 2_000_000_000 calls ∧
      ∀ window ∈ (begin 0 2_000_000_000 8000 1000).windows calls,
        window.opened < 0 + clockSpan) ∧
    recordedBy 4_000_000_000 calls = 3000 ∧
    recordedBy 4_000_000_000 calls ≤
      1000 * (1 + (boundariesIn 0 2_000_000_000 4_000_000_000).card) := by
  intro calls
  have hpaced : Paced (begin 0 2_000_000_000 8000 1000) 2_000_000_000 calls := by
    refine .cons (by decide) (by decide) (by decide) (by decide) ?_
    refine .cons (by decide) (by decide) (by decide) (by decide) ?_
    refine .cons (by decide) (by decide) (by decide) (by decide) ?_
    exact .cons (by decide) (by decide) (by decide) (by decide) (.nil _ _)
  have hspan : ∀ window ∈ (begin 0 2_000_000_000 8000 1000).windows calls,
      window.opened < 0 + clockSpan := by decide
  obtain ⟨-, -, -, -, hcap⟩ := rate_capped (by decide) hpaced hspan
  rw [show (8000 : UInt64).toNat / 8 = 1000 from rfl] at hcap
  exact ⟨⟨by decide, hpaced, hspan⟩, by simp [calls, recordedBy], hcap 4_000_000_000 (by decide)⟩

end Pacer

end LinkMeter.Pacing
