import LinkMeter.Proofs.Server.Intake

/-!
# The account of an address

The trials of an address account for its datagrams together, however often a
sweep has taken one of them out and another one has taken its place
(`Intake.Conserved.sum_openedFor`).

Between the last datagram of a trial and its last publication there is the tally
of its address.  A flush empties it, and it stays empty for the trial as long as
nothing is counted for it (`Intake.Forgoes`); nothing is counted for a trial that
a sweep has taken out.  So its next publication tells all that is left
(`Intake.conservation_run`).
-/

namespace LinkMeter

open Pacing (Instant)

namespace Intake

variable {intake : Intake}

/-! ## Trials that nothing is counted for -/

/-- The event is no datagram from the address. -/
def Event.Spares (address : Address) : Event → Prop
  | .datagram peer _ _ => peer.address ≠ address
  | _ => True

/-- The event counts a datagram for the trial with a number. -/
def CountsFor (intake : Intake) (serial : Serial) : Event → Prop
  | .datagram peer _ _ => (intake.server.counterFor peer).1 = serial
  | _ => False

/-- The second intake comes after the first one and holds no more for a trial. -/
structure Forgoes (before after : Intake) (serial : Serial) : Prop where
  continues : before.registry.Continues after.registry
  registers : after.registry.Registers serial → before.registry.Registers serial
  pending_le : ∀ quantity,
    after.server.pending quantity serial ≤ before.server.pending quantity serial
  holds_le : ∀ quantity,
    after.server.holds quantity serial ≤ before.server.holds quantity serial

theorem Forgoes.refl (intake : Intake) (serial : Serial) : intake.Forgoes intake serial where
  continues := (Registry.Steady.refl _).continues
  registers := id
  pending_le := fun _ => Nat.le_refl _
  holds_le := fun _ => Nat.le_refl _

theorem Forgoes.trans {first second third : Intake} {serial : Serial}
    (hfirst : first.Forgoes second serial) (hsecond : second.Forgoes third serial) :
    first.Forgoes third serial where
  continues := hfirst.continues.trans hsecond.continues
  registers := fun h => hfirst.registers (hsecond.registers h)
  pending_le := fun quantity => (hsecond.pending_le quantity).trans (hfirst.pending_le quantity)
  holds_le := fun quantity => (hsecond.holds_le quantity).trans (hfirst.holds_le quantity)

/-- Only a datagram makes the server hold more for a trial, or register it. -/
theorem Conserved.forgoes_step (h : intake.Conserved) {event : Event} {serial : Serial}
    (hnot : ¬ intake.CountsFor serial event) : intake.Forgoes (intake.step event) serial := by
  cases event with
  | datagram peer length due =>
      have hne : serial ≠ (intake.server.counterFor peer).1 := fun heq => hnot heq.symm
      rw [Intake.step]
      split
      case h_1 after hcount =>
        obtain ⟨-, hcontinues, hkeys, hheld⟩ := h.tidy.countDatagram?_spec hcount
        refine ⟨hcontinues, ?_, fun quantity => (hheld quantity serial).2 hne, fun quantity => ?_⟩
        · rintro ⟨address, measurement, hfind⟩
          rw [registry, hkeys] at hfind
          split at hfind
          · exact absurd (Option.some.inj hfind).symm hne
          · exact ⟨address, measurement, hfind⟩
        · rw [(hheld quantity serial).1, if_neg hne, Nat.add_zero]
      case h_2 => exact ⟨(Registry.Steady.refl _).continues, id, fun _ => Nat.le_refl _,
        fun _ => Nat.le_refl _⟩
  | flush =>
      obtain ⟨-, hsteady, hheld⟩ := h.tidy.flushTallies_spec
      refine ⟨hsteady.continues, (hsteady.shrinks h.tidy.sound).registers,
        fun quantity => ?_, fun quantity => ?_⟩
      · exact (hheld quantity serial).2 ▸ Nat.zero_le _
      · exact Nat.le_of_eq (hheld quantity serial).1
  | sweep now dormantAfter deleteAfter =>
      refine ⟨Registry.continues_sweep intake.registry now dormantAfter deleteAfter,
        (Registry.shrinks_sweep h.tidy.sound now dormantAfter deleteAfter).registers,
        fun quantity => Nat.le_refl _, fun quantity => Nat.le_of_eq ?_⟩
      rw [Intake.step, Server.holds, Server.buffers, Registry.buffered_sweep]
      rfl
  | publish other now =>
      rw [Intake.step]
      split
      case h_1 => exact Forgoes.refl intake serial
      case h_2 trial htrial =>
        obtain ⟨-, hsteady, hbuffered⟩ := h.tidy.publish htrial now
        refine ⟨hsteady.continues, (hsteady.shrinks h.tidy.sound).registers,
          fun quantity => Nat.le_refl _, fun quantity => Nat.add_le_add_right ?_ _⟩
        rw [Server.buffers, registry, hbuffered]
        split
        · exact Nat.zero_le _
        · exact Nat.le_refl _
  | clock now wall => exact ⟨(Registry.Steady.refl _).continues, id, fun _ => Nat.le_refl _,
      fun _ => Nat.le_refl _⟩

/-- Datagrams are counted for trials of their address. -/
theorem Conserved.address_of_counterFor (h : intake.Conserved) {peer : Endpoint} {trial : Trial}
    (htrial : intake.registry.trial? (intake.server.counterFor peer).1 = some trial) :
    trial.peer.address = peer.address := by
  obtain ⟨found, hfound, haddress⟩ := h.tidy.exists_counterFor peer
  obtain ⟨later, hlater, hon⟩ := (h.tidy.counterFor_spec peer).2.1 _ trial htrial
  rw [hfound] at hlater
  cases hlater
  exact (congrArg Endpoint.address hon.peer_eq.symm).trans haddress

/-- As long as nothing comes from its address, nothing is counted for a trial. -/
theorem Conserved.forgoes_run_of_spares (h : intake.Conserved) {serial : Serial} {trial : Trial}
    (htrial : intake.registry.trial? serial = some trial) {events : List Event}
    (hspares : ∀ event ∈ events, event.Spares trial.peer.address) :
    intake.Forgoes (intake.run events) serial := by
  induction events generalizing intake trial with
  | nil => exact Forgoes.refl intake serial
  | cons event events ih =>
      have hnot : ¬ intake.CountsFor serial event := by
        intro hcounts
        cases event with
        | datagram peer length due =>
            obtain rfl : (intake.server.counterFor peer).1 = serial := hcounts
            exact hspares _ List.mem_cons_self (h.address_of_counterFor htrial).symm
        | _ => exact hcounts
      have hstep := h.forgoes_step hnot
      obtain ⟨later, hlater, hon⟩ := hstep.continues serial trial htrial
      refine hstep.trans (ih (h.step event) hlater fun event hevent => ?_)
      rw [hon.peer_eq]
      exact hspares event (List.mem_cons_of_mem _ hevent)

/-- Nothing is counted any more for a trial that has left. -/
theorem Conserved.forgoes_run_of_unregistered (h : intake.Conserved) {serial : Serial}
    {trial : Trial} (htrial : intake.registry.trial? serial = some trial)
    (hleft : ¬ intake.registry.Registers serial) (events : List Event) :
    intake.Forgoes (intake.run events) serial := by
  induction events generalizing intake trial with
  | nil => exact Forgoes.refl intake serial
  | cons event events ih =>
      have hnot : ¬ intake.CountsFor serial event := by
        intro hcounts
        cases event with
        | datagram peer length due =>
            -- the trial that counts is registered, or it is a new one
            have hcounter : (intake.server.counterFor peer).1 = serial := hcounts
            rw [Server.counterFor] at hcounter
            split at hcounter
            case h_1 found hfind =>
              obtain rfl : found = serial := hcounter
              exact hleft ⟨_, _, hfind⟩
            case h_2 hfree =>
              rw [Server.fst_openTrial, Server.created,
                Registry.createOrGet_of_free _ _ _ _ _ _ hfree] at hcounter
              exact absurd (Registry.lt_of_trial? htrial) (hcounter ▸ Nat.lt_irrefl _)
        | _ => exact hcounts
      have hstep := h.forgoes_step hnot
      obtain ⟨later, hlater, -⟩ := hstep.continues serial trial htrial
      exact hstep.trans (ih (h.step event) hlater fun hagain => hleft (hstep.registers hagain))

/-- A trial whose tally was handed over before it left has published everything with its next
publication. -/
theorem Conserved.holds_eq_zero_of_publish (h : intake.Conserved) {serial : Serial}
    {trial : Trial} (htrial : intake.registry.trial? serial = some trial)
    (hpending : ∀ quantity, intake.server.pending quantity serial = 0) (now : Instant)
    (quantity : Quantity) :
    (intake.step (.publish serial now)).server.holds quantity serial = 0 := by
  obtain ⟨-, -, hbuffered⟩ := h.tidy.publish htrial now
  have hempty : (intake.step (.publish serial now)).server.registry.buffered serial = [] := by
    rw [Intake.step, htrial]
    exact (hbuffered serial).trans (if_pos rfl)
  have hsame : (intake.step (.publish serial now)).server.pending quantity serial =
      intake.server.pending quantity serial := by
    rw [Intake.step, htrial]
    rfl
  rw [Server.holds, Server.buffers, hempty, hsame, hpending]
  rfl

/-! ## The account of an address -/

/-- The trials of an address have everything that was counted from it, but what is in its tally. -/
theorem Conserved.sum_openedFor (h : intake.Conserved) (quantity : Quantity) (address : Address) :
    ((intake.openedFor address).map fun serial => intake.publishedBy quantity serial +
        intake.lostBy quantity serial + intake.server.buffers quantity serial).sum +
      intake.pendingAt quantity address = intake.countedFrom quantity address := by
  have hpending : intake.pendingAt quantity address =
      ((intake.openedFor address).map (intake.server.pending quantity)).sum := by
    refine Eq.trans ?_ (sum_fibers (intake.nodup_openedFor address) intake.server.tallies
      (fun entry => entry.2.1) fun entry => quantity.ofTally entry.2.2).symm
    refine congrArg List.sum (List.map_congr_left fun entry hentry => if_congr ?_ rfl rfl)
    obtain ⟨trial, htrial, howner⟩ := h.tidy.owner entry hentry
    rw [mem_openedFor]
    constructor
    · rintro rfl
      exact ⟨trial, htrial, howner⟩
    · rintro ⟨found, hfound, haddress⟩
      rw [show intake.registry.trial? entry.2.1 = some trial from htrial] at hfound
      cases hfound
      exact howner.symm.trans haddress
  calc ((intake.openedFor address).map fun serial => intake.publishedBy quantity serial +
          intake.lostBy quantity serial + intake.server.buffers quantity serial).sum +
        intake.pendingAt quantity address
      = ((intake.openedFor address).map fun serial => intake.publishedBy quantity serial +
          intake.lostBy quantity serial + intake.server.holds quantity serial).sum := by
        rw [hpending, ← List.sum_map_add]
        simp only [Server.holds, Nat.add_assoc]
    _ = ((intake.openedFor address).map (intake.countedFor quantity)).sum := by
        simp only [h.balance]
    _ = intake.countedFrom quantity address := by
        refine (sum_fibers (intake.nodup_openedFor address) intake.counted (fun entry => entry.1)
          fun entry => entry.2.amount quantity).trans ?_
        refine congrArg List.sum (List.map_congr_left fun entry hentry => if_congr ?_ rfl rfl)
        obtain ⟨trial, htrial, hpeer⟩ := h.attributed entry hentry
        rw [mem_openedFor]
        constructor
        · rintro ⟨found, hfound, haddress⟩
          rw [htrial] at hfound
          cases hfound
          exact hpeer.symm.trans haddress
        · rintro rfl
          exact ⟨trial, htrial, hpeer⟩

/-- Nothing from an address is refused, and its trials lose nothing, if what came from it fits. -/
theorem Conserved.eq_zero_of_fits (h : intake.Conserved) {address : Address}
    (hfits : ∀ quantity, intake.receivedFrom quantity address < UInt64.size)
    (quantity : Quantity) :
    intake.refusedFrom quantity address = 0 ∧
      ∀ serial ∈ intake.openedFor address, intake.lostBy quantity serial = 0 := by
  obtain ⟨hrefused, hlost⟩ := h.fits address hfits
  constructor
  · refine List.sum_eq_zero fun amount hamount => ?_
    obtain ⟨datagram, hdatagram, rfl⟩ := List.mem_map.1 hamount
    exact if_neg (hrefused datagram hdatagram)
  · intro serial hserial
    obtain ⟨trial, htrial, haddress⟩ := mem_openedFor.1 hserial
    refine List.sum_eq_zero fun amount hamount => ?_
    obtain ⟨entry, hentry, rfl⟩ := List.mem_map.1 hamount
    refine if_neg ?_
    rintro rfl
    obtain ⟨found, hfound, hother⟩ := hlost entry hentry
    rw [htrial] at hfound
    cases hfound
    exact hother haddress

theorem run_append (intake : Intake) (first second : List Event) :
    intake.run (first ++ second) = (intake.run first).run second := List.foldl_append

/-- A trial that gets no datagram between a flush and the sweep that takes it out has published
everything with its next publication. -/
theorem Conserved.holds_eq_zero_of_left (h : intake.Conserved) {address : Address}
    {serial : Serial} {between : List Event} {now : Instant} {dormantAfter deleteAfter : ℕ}
    (hfind : (intake.step .flush).registry.find? address .udpServer = some serial)
    (hspares : ∀ event ∈ between, event.Spares address)
    (hfree : ((intake.step .flush).run
      (between ++ [.sweep now dormantAfter deleteAfter])).registry.find? address .udpServer = none)
    (later last : List Event) (instant : Instant) (quantity : Quantity) :
    let after := (intake.step .flush).run (between ++ .sweep now dormantAfter deleteAfter ::
      later ++ .publish serial instant :: last)
    serial ∈ after.openedFor address ∧ after.server.holds quantity serial = 0 := by
  let flushed := intake.step .flush
  let left := flushed.run (between ++ [.sweep now dormantAfter deleteAfter])
  let swept := left.run later
  let told := swept.step (.publish serial instant)
  have hflushed : flushed.Conserved := h.step .flush
  have hleft : left.Conserved := hflushed.run _
  have hswept : swept.Conserved := hleft.run later
  have htold : told.Conserved := hswept.step _
  obtain ⟨trial, htrial, haddress, -⟩ := hflushed.tidy.sound.trial _ _ _ hfind
  -- until the trial leaves, its tally stays empty
  have hnone : ∀ quantity, flushed.server.pending quantity serial = 0 :=
    fun quantity => (h.tidy.flushTallies_spec.2.2 quantity serial).2
  have hstays : flushed.Forgoes left serial := by
    refine hflushed.forgoes_run_of_spares htrial fun event hevent => ?_
    rcases List.mem_append.1 hevent with hmem | hmem
    · exact haddress ▸ hspares event hmem
    · rw [List.mem_singleton.1 hmem]
      exact trivial
  obtain ⟨gone, hgone, hon⟩ := hstays.continues serial trial htrial
  have hout : ¬ left.registry.Registers serial := by
    intro hregisters
    have hkey := (hleft.tidy.sound.registers_iff hgone).1 hregisters
    rw [hon.peer_eq, haddress, (hleft.tidy.kind _ _ hgone).1] at hkey
    exact absurd (hkey.symm.trans hfree) (by simp)
  -- once it has left, nothing is counted for it, before its publication or after it
  have hwaits : left.Forgoes swept serial := hleft.forgoes_run_of_unregistered hgone hout later
  obtain ⟨waiting, hwaiting, -⟩ := hwaits.continues serial gone hgone
  have hpublishes : swept.Forgoes told serial := hswept.forgoes_step id
  obtain ⟨done, hdone, -⟩ := hpublishes.continues serial waiting hwaiting
  have hends : told.Forgoes (told.run last) serial :=
    htold.forgoes_run_of_unregistered hdone
      (fun hagain => hout (hwaits.registers (hpublishes.registers hagain))) last
  have hrun : flushed.run (between ++ .sweep now dormantAfter deleteAfter :: later ++
      .publish serial instant :: last) = told.run last := by
    rw [run_append, List.append_cons, run_append]
    rfl
  show _ ∈ (flushed.run _).openedFor address ∧ (flushed.run _).server.holds quantity serial = 0
  rw [hrun]
  constructor
  · obtain ⟨final, hfinal, hlast⟩ :=
      (((hstays.trans hwaits).trans hpublishes).trans hends).continues serial trial htrial
    exact mem_openedFor.2 ⟨final, hfinal, hlast.peer_eq ▸ haddress⟩
  · refine Nat.le_zero.1 ((hends.holds_le quantity).trans (Nat.le_of_eq ?_))
    refine hswept.holds_eq_zero_of_publish hwaiting (fun quantity => ?_) instant quantity
    exact Nat.le_zero.1 (((hstays.trans hwaits).pending_le quantity).trans
      (Nat.le_of_eq (hnone quantity)))

/-- After any run, every datagram was counted once or refused, and it was counted for a trial of
its address.  What the trials that were ever opened for an address published, lost and buffer,
together with the tally and the refused datagrams of the address, is all that came from it; and
nothing is lost or refused as long as it fits into 64 bits.  If a trial gets no datagram between a
flush and the sweep that takes it out, its next publication leaves nothing of it unpublished. -/
theorem conservation_run (interval : ℕ) (events : List Event) :
    let start : Intake := { server := { interval } }
    let intake := start.run events
    intake.received.Perm (intake.counted.map (·.2) ++ intake.refused) ∧
    (∀ entry ∈ intake.counted, ∃ trial, intake.registry.trial? entry.1 = some trial ∧
      trial.measurement = .udpServer ∧ trial.peer.address = entry.2.peer.address) ∧
    (∀ entry ∈ intake.server.tallies, ∃ trial, intake.registry.trial? entry.2.1 = some trial ∧
      trial.measurement = .udpServer ∧ trial.peer.address = entry.1) ∧
    (∀ entry ∈ intake.published, entry.2.IsAccount) ∧
    (∀ quantity serial, intake.publishedBy quantity serial + intake.lostBy quantity serial +
      intake.server.holds quantity serial = intake.countedFor quantity serial) ∧
    (∀ quantity address,
      ((intake.openedFor address).map fun serial => intake.publishedBy quantity serial +
          intake.lostBy quantity serial + intake.server.buffers quantity serial).sum +
        intake.pendingAt quantity address + intake.refusedFrom quantity address =
          intake.receivedFrom quantity address) ∧
    (∀ address, (∀ quantity, intake.receivedFrom quantity address < UInt64.size) →
      ∀ quantity,
        ((intake.openedFor address).map fun serial => intake.publishedBy quantity serial +
            intake.server.buffers quantity serial).sum +
          intake.pendingAt quantity address = intake.receivedFrom quantity address) ∧
    ∀ (address : Address) (serial : Serial) (before between later last : List Event)
      (now instant : Instant) (dormantAfter deleteAfter : ℕ),
      events = before ++ .flush :: (between ++ .sweep now dormantAfter deleteAfter :: later ++
        .publish serial instant :: last) →
      (start.run (before ++ [.flush])).registry.find? address .udpServer = some serial →
      (∀ event ∈ between, event.Spares address) →
      (start.run (before ++ .flush :: (between ++
        [.sweep now dormantAfter deleteAfter]))).registry.find? address .udpServer = none →
      ∀ quantity, intake.server.holds quantity serial = 0 ∧
        intake.publishedBy quantity serial + intake.lostBy quantity serial =
          intake.countedFor quantity serial ∧
        ((∀ other, intake.receivedFrom other address < UInt64.size) →
          intake.publishedBy quantity serial = intake.countedFor quantity serial) := by
  intro start intake
  have h : intake.Conserved := (conserved_start interval).run events
  refine ⟨h.received_perm, fun entry hentry => ?_, fun entry hentry => ?_, h.accounts, h.balance,
    fun quantity address => ?_, fun address hfits quantity => ?_, ?_⟩
  · obtain ⟨trial, htrial, haddress⟩ := h.attributed entry hentry
    exact ⟨trial, htrial, (h.tidy.kind _ _ htrial).1, haddress⟩
  · obtain ⟨trial, htrial, haddress⟩ := h.tidy.owner entry hentry
    exact ⟨trial, htrial, (h.tidy.kind _ _ htrial).1, haddress⟩
  · rw [h.sum_openedFor, h.received_eq]
  · obtain ⟨hrefused, hlost⟩ := h.eq_zero_of_fits hfits quantity
    rw [h.received_eq, hrefused, Nat.add_zero, ← h.sum_openedFor]
    refine congrArg (· + _) (congrArg List.sum (List.map_congr_left fun serial hserial => ?_))
    rw [hlost serial hserial, Nat.add_zero]
  · intro address serial before between later last now instant dormantAfter deleteAfter hevents
      hfind hspares hfree quantity
    rw [run_append] at hfind hfree
    have hbefore : (start.run before).Conserved := (conserved_start interval).run before
    obtain ⟨hopened, hheld⟩ :=
      hbefore.holds_eq_zero_of_left hfind hspares hfree later last instant quantity
    have hrun : intake = ((start.run before).step .flush).run (between ++
        .sweep now dormantAfter deleteAfter :: later ++ .publish serial instant :: last) := by
      show start.run events = _
      rw [hevents, run_append]
      rfl
    rw [← hrun] at hopened hheld
    have hbalance := h.balance quantity serial
    rw [hheld, Nat.add_zero] at hbalance
    refine ⟨hheld, hbalance, fun hfits => ?_⟩
    rw [(h.eq_zero_of_fits hfits quantity).2 serial hopened, Nat.add_zero] at hbalance
    exact hbalance

/-- A sweep takes out the trials of two addresses, of which the first one sends once more.  The
trial that left before has published what came until then. -/
theorem conservation_run_replaced :
    let first : Endpoint := ⟨.loopback, 5000, 0⟩
    let second : Endpoint := ⟨.v4 ⟨10, 0, 0, 1⟩, 5000, 0⟩
    let before : List Event :=
      [.datagram first 100 false, .datagram second 7 true, .datagram first 50 false]
    let between : List Event := [.datagram second 9 false]
    let later : List Event := [.datagram first 20 false]
    let last : List Event := [.flush, .publish 1 5_000_000_000]
    let start : Intake := { server := {} }
    let intake := start.run (before ++ .flush :: (between ++
      .sweep 3_000_000_000 Registry.dormantAfter Registry.deleteAfter :: later ++
        .publish 0 4_000_000_000 :: last))
    intake.openedFor first.address = [0, 2] ∧
      intake.server.holds .bytes 0 = 0 ∧ intake.publishedBy .bytes 0 = 150 ∧
      intake.publishedBy .packets 0 = 2 ∧ intake.server.buffers .bytes 2 = 20 ∧
      ((intake.openedFor first.address).map fun serial => intake.publishedBy .bytes serial +
          intake.server.buffers .bytes serial).sum + intake.pendingAt .bytes first.address =
        intake.receivedFrom .bytes first.address ∧
      intake.receivedFrom .bytes first.address = 170 := by
  intro first second before between later last start intake
  obtain ⟨-, -, -, -, -, -, hfitting, hleft⟩ := conservation_run 1_000_000_000
    (before ++ .flush :: (between ++
      .sweep 3_000_000_000 Registry.dormantAfter Registry.deleteAfter :: later ++
        .publish 0 4_000_000_000 :: last))
  have hfits : ∀ quantity, intake.receivedFrom quantity first.address < UInt64.size := by
    intro quantity
    cases quantity <;> decide +kernel
  have hspares : ∀ event ∈ between, event.Spares first.address := by
    intro event hevent
    rw [List.mem_singleton.1 hevent, Event.Spares]
    decide
  obtain ⟨hheld, -, hpublished⟩ := hleft first.address 0 before between later last 3_000_000_000
    4_000_000_000 Registry.dormantAfter Registry.deleteAfter rfl (by decide +kernel) hspares
    (by decide +kernel) .bytes
  have hcounted : intake.countedFor .bytes 0 = 150 := by decide +kernel
  exact ⟨by decide +kernel, hheld, (hpublished hfits).trans hcounted, by decide +kernel,
    by decide +kernel, hfitting first.address hfits .bytes, by decide +kernel⟩

end Intake

end LinkMeter
