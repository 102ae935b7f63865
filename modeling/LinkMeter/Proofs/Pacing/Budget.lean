import LinkMeter.Transfer.Pump

/-!
# The budget of a window is spent exactly

A paced sender may write less than it is allowed, at any instants and with the
statistics clock ticking in between.  Still every window that ends carries its
budget to the byte: the allowance never exceeds what is left, and a window ends
only when nothing is left.

The account is kept beside the pacer.  A `Ledger` adds up what is recorded
between two pauses, and never looks at what the pacer counts itself.  The
invariant is `Pacer.Exact`, that some of the budget is left and bounds the
allowance; `Pacer.record_of_spent` and `Pacer.record_of_left` are the two ways
on from there.
-/

namespace LinkMeter.Pacing

/-! ## One record -/

namespace Pacer

section Limited

variable {pacer : Pacer} {bytes : Nat}

theorem isUnlimited_eq_false (hbudget : 0 < pacer.budget) : pacer.isUnlimited = false :=
  beq_eq_false_iff_ne.2 (Nat.ne_of_gt hbudget)

/-- A limited sender goes on while some of the budget is left, and pauses otherwise. -/
theorem next_count (hbudget : 0 < pacer.budget) (bytes : Nat) (now : Instant) :
    (pacer.count bytes).next now =
      if pacer.sent + bytes < pacer.budget then
        .send (min (pacer.budget - (pacer.sent + bytes)) pacer.buffer)
      else .pause (pacer.wait - (now - pacer.start)) := by
  show step pacer.budget (pacer.sent + bytes) pacer.buffer (now - pacer.start) pacer.wait = _
  rw [step, if_neg (Nat.ne_of_gt hbudget)]

theorem pauseFor_of_left (hleft : pacer.sent + bytes < pacer.budget) (now : Instant) :
    pacer.pauseFor bytes now = none := by
  have hbudget : 0 < pacer.budget := Nat.zero_lt_of_lt hleft
  simp [pauseFor, isUnlimited_eq_false hbudget, next_count hbudget, hleft]

theorem pauseFor_of_spent (hbudget : 0 < pacer.budget)
    (hspent : pacer.budget ≤ pacer.sent + bytes) (now : Instant) :
    pacer.pauseFor bytes now = some (pacer.wait - (now - pacer.start)) := by
  simp [pauseFor, isUnlimited_eq_false hbudget, next_count hbudget, Nat.not_lt.2 hspent]

theorem record_of_left (hleft : pacer.sent + bytes < pacer.budget) (now afterPause : Instant) :
    pacer.record bytes now afterPause =
      { pacer with
        sent := pacer.sent + bytes
        allowance := min (pacer.budget - (pacer.sent + bytes)) pacer.buffer } := by
  have hbudget : 0 < pacer.budget := Nat.zero_lt_of_lt hleft
  rw [record, isUnlimited_eq_false hbudget, enforce, next_count hbudget, if_pos hleft]
  rfl

theorem record_of_spent (hbudget : 0 < pacer.budget)
    (hspent : pacer.budget ≤ pacer.sent + bytes) (now afterPause : Instant) :
    pacer.record bytes now afterPause =
      withBudget pacer.lastTick afterPause pacer.budget pacer.buffer := by
  rw [record, isUnlimited_eq_false hbudget, enforce, next_count hbudget,
    if_neg (Nat.not_lt.2 hspent)]
  rfl

/-- A record within the budget fits the 64 bits in which the window is counted. -/
theorem record?_eq (hle : pacer.sent + bytes ≤ pacer.budget) (hlt : pacer.budget < UInt64.size)
    (now afterPause : Instant) :
    pacer.record? bytes now afterPause = some (pacer.record bytes now afterPause) := by
  have hfits : ¬ pacer.sent + bytes ≥ UInt64.size := by omega
  simp [record?, hfits]

end Limited

/-- A limited pacer inside a window: some of its budget is left, and the next write is bounded
by what is left and by the buffer. -/
structure Exact (pacer : Pacer) : Prop where
  buffer_pos : 0 < pacer.buffer
  budget_lt : pacer.budget < UInt64.size
  sent_lt : pacer.sent < pacer.budget
  allowance_eq : pacer.allowance = min pacer.buffer (pacer.budget - pacer.sent)

variable {pacer : Pacer} {bytes : Nat}

theorem exact_withBudget (lastTick now : Instant) {budget buffer : Nat} (hbudget : 0 < budget)
    (hlt : budget < UInt64.size) (hbuffer : 0 < buffer) :
    (withBudget lastTick now budget buffer).Exact where
  buffer_pos := hbuffer
  budget_lt := hlt
  sent_lt := hbudget
  allowance_eq := by
    simp only [withBudget, firstChunk]
    split <;> omega

theorem Exact.tick (hexact : pacer.Exact) (lastTick : Instant) :
    ({ pacer with lastTick := lastTick } : Pacer).Exact :=
  ⟨hexact.buffer_pos, hexact.budget_lt, hexact.sent_lt, hexact.allowance_eq⟩

/-- What is allowed never goes beyond the budget. -/
theorem Exact.sent_add_le (hexact : pacer.Exact) (hbytes : bytes ≤ pacer.allowance) :
    pacer.sent + bytes ≤ pacer.budget := by
  have hsent := hexact.sent_lt
  have hallowance := hexact.allowance_eq
  omega

theorem Exact.allowance_pos (hexact : pacer.Exact) : 0 < pacer.allowance := by
  have hbuffer := hexact.buffer_pos
  have hsent := hexact.sent_lt
  have hallowance := hexact.allowance_eq
  omega

theorem Exact.allowance_le (hexact : pacer.Exact) : pacer.allowance ≤ pacer.buffer := by
  have hallowance := hexact.allowance_eq
  omega

/-- The sender pauses exactly when the window has carried its budget. -/
theorem Exact.pauseFor_eq (hexact : pacer.Exact) (hbytes : bytes ≤ pacer.allowance)
    (now : Instant) :
    pacer.pauseFor bytes now =
      if pacer.sent + bytes = pacer.budget then some (pacer.wait - (now - pacer.start))
      else none := by
  rcases Nat.lt_or_eq_of_le (hexact.sent_add_le hbytes) with hleft | hspent
  · rw [pauseFor_of_left hleft, if_neg (Nat.ne_of_lt hleft)]
  · rw [pauseFor_of_spent (Nat.zero_lt_of_lt hexact.sent_lt) (Nat.le_of_eq hspent.symm),
      if_pos hspent]

theorem Exact.record (hexact : pacer.Exact) (hbytes : bytes ≤ pacer.allowance)
    (now afterPause : Instant) : (pacer.record bytes now afterPause).Exact := by
  rcases Nat.lt_or_eq_of_le (hexact.sent_add_le hbytes) with hleft | hspent
  · rw [record_of_left hleft]
    exact ⟨hexact.buffer_pos, hexact.budget_lt, hleft, Nat.min_comm _ _⟩
  · have hbudget := Nat.zero_lt_of_lt hexact.sent_lt
    rw [record_of_spent hbudget (Nat.le_of_eq hspent.symm)]
    exact exact_withBudget _ _ hbudget hexact.budget_lt hexact.buffer_pos

end Pacer

/-! ## The account of a run -/

/-- One call that records bytes, with what the clocks say meanwhile. -/
structure Recording where
  bytes : Nat
  /-- The last tick of the statistics clock. -/
  lastTick : Instant
  /-- When the bytes are recorded. -/
  now : Instant
  /-- When the pause is over, if there is one. -/
  resumed : Instant
  deriving DecidableEq, Inhabited

/-- A pacer, with the bytes recorded in each of its windows. -/
structure Ledger where
  pacer : Pacer
  /-- The bytes recorded since the last pause. -/
  current : Nat := 0
  /-- The bytes recorded in each window before that. -/
  completed : List Nat := []
  deriving DecidableEq, Inhabited

namespace Ledger

/-- The pause that a recording leads to. -/
def pauseFor (ledger : Ledger) (recording : Recording) : Option Nat :=
  { ledger.pacer with lastTick := recording.lastTick }.pauseFor recording.bytes recording.now

/-- The ledger after a recording, if 64 bits can count its bytes. -/
def record? (ledger : Ledger) (recording : Recording) : Option Ledger :=
  ({ ledger.pacer with lastTick := recording.lastTick }.record? recording.bytes recording.now
      recording.resumed).map fun pacer =>
    match ledger.pauseFor recording with
    | none => { ledger with pacer := pacer, current := ledger.current + recording.bytes }
    | some _ =>
      { pacer := pacer, current := 0
        completed := ledger.completed ++ [ledger.current + recording.bytes] }

/-- The ledgers that a sender can come to that writes at most what it is allowed. -/
inductive Reachable (rate : UInt64) (buffer : Nat) : Ledger → Prop
  | opened (lastTick now : Instant) :
      Reachable rate buffer { pacer := Pacer.begin lastTick now rate buffer }
  | recorded {ledger next : Ledger} (recording : Recording) : Reachable rate buffer ledger →
      recording.bytes ≤ ledger.pacer.allowance → ledger.record? recording = some next →
      Reachable rate buffer next

/-- The pacer counts what the ledger counts, and all windows before carried the budget. -/
structure Balanced (budget buffer : Nat) (ledger : Ledger) : Prop where
  exact : ledger.pacer.Exact
  budget_eq : ledger.pacer.budget = budget
  buffer_eq : ledger.pacer.buffer = buffer
  sent_eq : ledger.pacer.sent = ledger.current
  completed_eq : ∀ total ∈ ledger.completed, total = budget

variable {budget buffer : Nat} {ledger : Ledger} {recording : Recording}

theorem Balanced.pauseFor_eq (hbalanced : ledger.Balanced budget buffer)
    (hbytes : recording.bytes ≤ ledger.pacer.allowance) :
    ledger.pauseFor recording =
      if ledger.current + recording.bytes = budget then
        some (ledger.pacer.wait - (recording.now - ledger.pacer.start))
      else none := by
  have hpause := (hbalanced.exact.tick recording.lastTick).pauseFor_eq hbytes recording.now
  rw [pauseFor, hpause, ← hbalanced.sent_eq, ← hbalanced.budget_eq]

/-- A recording inside a window keeps the window. -/
theorem Balanced.record?_of_left (hbalanced : ledger.Balanced budget buffer)
    (hbytes : recording.bytes ≤ ledger.pacer.allowance)
    (hleft : ledger.current + recording.bytes ≠ budget) :
    ledger.record? recording = some { ledger with
      pacer := { ledger.pacer with
        lastTick := recording.lastTick
        sent := ledger.current + recording.bytes
        allowance := min (budget - (ledger.current + recording.bytes)) buffer }
      current := ledger.current + recording.bytes } := by
  have hexact := hbalanced.exact.tick recording.lastTick
  have hlt := Nat.lt_of_le_of_ne (hexact.sent_add_le hbytes) fun hspent =>
    hleft (by rwa [← hbalanced.sent_eq, ← hbalanced.budget_eq])
  rw [record?, Pacer.record?_eq (hexact.sent_add_le hbytes) hexact.budget_lt,
    Pacer.record_of_left hlt, hbalanced.pauseFor_eq hbytes, if_neg hleft, ← hbalanced.sent_eq,
    ← hbalanced.budget_eq, ← hbalanced.buffer_eq]
  rfl

/-- A recording that spends the budget completes the window and opens the next one. -/
theorem Balanced.record?_of_spent (hbalanced : ledger.Balanced budget buffer)
    (hbytes : recording.bytes ≤ ledger.pacer.allowance)
    (hspent : ledger.current + recording.bytes = budget) :
    ledger.record? recording = some
      { pacer := Pacer.withBudget recording.lastTick recording.resumed budget buffer
        completed := ledger.completed ++ [budget] } := by
  have hexact := hbalanced.exact.tick recording.lastTick
  have heq : ledger.pacer.sent + recording.bytes = ledger.pacer.budget := by
    rw [hbalanced.sent_eq, hspent, hbalanced.budget_eq]
  rw [record?, Pacer.record?_eq (hexact.sent_add_le hbytes) hexact.budget_lt,
    Pacer.record_of_spent (Nat.zero_lt_of_lt hexact.sent_lt) (Nat.le_of_eq heq.symm),
    hbalanced.pauseFor_eq hbytes, if_pos hspent, hspent, ← hbalanced.budget_eq,
    ← hbalanced.buffer_eq]
  rfl

theorem Balanced.record (hbalanced : ledger.Balanced budget buffer) {next : Ledger}
    (hbytes : recording.bytes ≤ ledger.pacer.allowance)
    (hrecord : ledger.record? recording = some next) : next.Balanced budget buffer := by
  have hexact := hbalanced.exact
  have hbudget := hbalanced.budget_eq
  by_cases hspent : ledger.current + recording.bytes = budget
  · rw [hbalanced.record?_of_spent hbytes hspent] at hrecord
    cases hrecord
    -- the next window opens with the same budget and an empty count
    have hpositive : 0 < budget := hbudget ▸ Nat.zero_lt_of_lt hexact.sent_lt
    refine ⟨Pacer.exact_withBudget _ _ hpositive (hbudget ▸ hexact.budget_lt)
      (hbalanced.buffer_eq ▸ hexact.buffer_pos), rfl, rfl, rfl, ?_⟩
    intro total htotal
    rcases List.mem_append.1 htotal with hold | hnew
    · exact hbalanced.completed_eq total hold
    · exact List.mem_singleton.1 hnew
  · have hnext := (hexact.tick recording.lastTick).record hbytes recording.now recording.resumed
    rw [hbalanced.record?_of_left hbytes hspent] at hrecord
    cases hrecord
    refine ⟨?_, hbudget, hbalanced.buffer_eq, rfl, hbalanced.completed_eq⟩
    have hle := hexact.sent_add_le hbytes
    have hsent := hbalanced.sent_eq
    have hbuffer := hbalanced.buffer_eq
    refine ⟨hexact.buffer_pos, hexact.budget_lt, ?_, ?_⟩
    · dsimp only
      omega
    · dsimp only
      omega

theorem Reachable.balanced {rate : UInt64} (hrate : 1 ≤ rate.toNat / 8) (hbuffer : 1 ≤ buffer)
    (hreach : Reachable rate buffer ledger) : ledger.Balanced (rate.toNat / 8) buffer := by
  induction hreach with
  | opened lastTick now =>
      have hlt : rate.toNat / 8 < UInt64.size :=
        Nat.lt_of_le_of_lt (Nat.div_le_self _ _) rate.toNat_lt
      exact ⟨Pacer.exact_withBudget lastTick now hrate hlt hbuffer, rfl, rfl, rfl, by simp⟩
  | recorded recording _ hbytes hrecord ih => exact ih.record hbytes hrecord

/-- At any time some of the budget is left, the allowance is what is left of it or the whole
buffer, and a sender offers just the allowance; all completed windows carried the budget.  Every
allowed recording can be counted.  It completes the window exactly when it spends the budget:
then the sender pauses for what is left of the window and opens the next one. -/
theorem budget_exact {rate : UInt64} (hrate : 1 ≤ rate.toNat / 8) (hbuffer : 1 ≤ buffer)
    (hreach : Reachable rate buffer ledger) :
    (ledger.pacer.sent = ledger.current ∧ ledger.current < rate.toNat / 8 ∧
      ledger.pacer.allowance = min buffer (rate.toNat / 8 - ledger.pacer.sent)) ∧
    (1 ≤ ledger.pacer.allowance ∧ ledger.pacer.allowance ≤ buffer ∧
      Transfer.offerSize ledger.pacer buffer = ledger.pacer.allowance) ∧
    (∀ total ∈ ledger.completed, total = rate.toNat / 8) ∧
    ∀ recording : Recording, recording.bytes ≤ ledger.pacer.allowance →
      ∃ next, ledger.record? recording = some next ∧
        if ledger.current + recording.bytes = rate.toNat / 8 then
          ledger.pauseFor recording =
              some (ledger.pacer.wait - (recording.now - ledger.pacer.start)) ∧
            next.completed = ledger.completed ++ [rate.toNat / 8] ∧ next.current = 0 ∧
            next.pacer = Pacer.begin recording.lastTick recording.resumed rate buffer
        else
          ledger.pauseFor recording = none ∧ next.completed = ledger.completed ∧
            next.current = ledger.current + recording.bytes ∧
            next.pacer.start = ledger.pacer.start ∧ next.pacer.wait = ledger.pacer.wait := by
  have hbalanced := hreach.balanced hrate hbuffer
  have hexact := hbalanced.exact
  have hsent := hbalanced.sent_eq
  have hlt : ledger.current < rate.toNat / 8 := by
    rw [← hsent, ← hbalanced.budget_eq]
    exact hexact.sent_lt
  have hallowance : ledger.pacer.allowance = min buffer (rate.toNat / 8 - ledger.pacer.sent) := by
    rw [hexact.allowance_eq, hbalanced.buffer_eq, hbalanced.budget_eq]
  have hle : ledger.pacer.allowance ≤ buffer := hbalanced.buffer_eq ▸ hexact.allowance_le
  have hoffer : Transfer.offerSize ledger.pacer buffer = ledger.pacer.allowance := by
    have hpos := hexact.allowance_pos
    rw [Transfer.offerSize]
    omega
  refine ⟨⟨hsent, hlt, hallowance⟩, ⟨hexact.allowance_pos, hle, hoffer⟩,
    hbalanced.completed_eq, ?_⟩
  intro recording hbytes
  have hpause := hbalanced.pauseFor_eq hbytes
  by_cases hspent : ledger.current + recording.bytes = rate.toNat / 8
  · refine ⟨_, hbalanced.record?_of_spent hbytes hspent, ?_⟩
    rw [if_pos hspent] at hpause ⊢
    exact ⟨hpause, rfl, rfl, rfl⟩
  · refine ⟨_, hbalanced.record?_of_left hbytes hspent, ?_⟩
    rw [if_neg hspent] at hpause ⊢
    exact ⟨hpause, rfl, rfl, rfl, rfl⟩

/-- A budget of ten bytes is spent in writes of six and four through a buffer of eight, of which
the second is short; the window has carried ten bytes. -/
theorem budget_exact_ten :
    let ledger : Ledger :=
      { pacer := Pacer.begin 5 90 80 8, current := 0, completed := [10] }
    1 ≤ (80 : UInt64).toNat / 8 ∧ Reachable 80 8 ledger ∧ (∀ total ∈ ledger.completed, total = 10) ∧
      Transfer.offerSize ledger.pacer 8 = 8 := by
  have hreach : Reachable 80 8
      { pacer := Pacer.begin 5 90 80 8, current := 0, completed := [10] } :=
    .recorded ⟨4, 5, 40, 90⟩ (.recorded ⟨6, 3, 20, 20⟩ (.opened 0 10) (by decide) rfl)
      (by decide) rfl
  have hexact := budget_exact (by decide) (by decide) hreach
  exact ⟨by decide, hreach, hexact.2.2.1, hexact.2.1.2.2⟩

end Ledger

end LinkMeter.Pacing
