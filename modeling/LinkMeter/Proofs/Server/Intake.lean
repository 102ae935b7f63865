import LinkMeter.Proofs.Server.Tallies

/-!
# Datagrams on their way to an account

`Intake` is a server with a record of the datagrams that came to it, of the
trials that they were counted for, and of what these trials published.  The
events are datagrams of any length from anywhere, ticks that hand the tallies
over, sweeps and publications, in any order.

Whatever was counted for a trial was published by it or is held for it by the
server, and a trial counts datagrams of its own address only.  Every event keeps
this (`Intake.Conserved.step`).
-/

namespace LinkMeter

open Pacing (Instant)
open Transfer (Counting)

/-! ## Sums by key -/

section Sums

variable {Entry Key : Type} [DecidableEq Key]

/-- Summing entries by keys sums the entries that have one of the keys. -/
theorem sum_fibers {keys : List Key} (hkeys : keys.Nodup) (entries : List Entry)
    (key : Entry → Key) (amount : Entry → ℕ) :
    (keys.map fun one => (entries.map fun entry =>
      if key entry = one then amount entry else 0).sum).sum =
        (entries.map fun entry => if key entry ∈ keys then amount entry else 0).sum := by
  have hone : ∀ {keys : List Key}, keys.Nodup → ∀ (found : Key) (value : ℕ),
      (keys.map fun one => if found = one then value else 0).sum =
        if found ∈ keys then value else 0 := by
    intro keys hkeys found value
    induction keys with
    | nil => rfl
    | cons first rest ih =>
        obtain ⟨hfirst, hrest⟩ := List.nodup_cons.1 hkeys
        rw [List.map_cons, List.sum_cons, ih hrest]
        by_cases h : found = first
        · subst h
          simp [hfirst]
        · simp [h]
  induction entries with
  | nil => simp
  | cons entry entries ih =>
      simp only [List.map_cons, List.sum_cons, List.sum_map_add]
      rw [hone hkeys, ih]

end Sums

/-! ## The record -/

/-- A datagram that came to a server. -/
structure Datagram where
  peer : Endpoint
  length : UInt64
  deriving DecidableEq

/-- How much a datagram counts: one packet, and its length in bytes. -/
def Datagram.amount : Quantity → Datagram → ℕ
  | .packets, _ => 1
  | .bytes, datagram => datagram.length.toNat
  | .connections, _ => 0

theorem Datagram.ofCount_eq_amount (quantity : Quantity) (peer : Endpoint) (length : UInt64) :
    quantity.ofCount .packets 1 length = amount quantity ⟨peer, length⟩ := by
  cases quantity <;> rfl

/-- A server with a record of its datagrams. -/
structure Intake where
  server : Server
  received : List Datagram := []
  /-- The datagrams that were counted, with the trial that counts them. -/
  counted : List (Serial × Datagram) := []
  /-- The datagrams that no tally could hold. -/
  refused : List Datagram := []
  published : List (Serial × Outcome) := []
  /-- What could not be published because it did not fit. -/
  lost : List (Serial × List Outcome) := []

namespace Intake

inductive Event where
  /-- A datagram comes; the flush period of the tally that counts it is over or not. -/
  | datagram (peer : Endpoint) (length : UInt64) (due : Bool)
  | flush
  | sweep (now : Instant) (dormantAfter deleteAfter : ℕ)
  | publish (serial : Serial) (now : Instant)
  | clock (now wall : Instant)

def registry (intake : Intake) : Registry := intake.server.registry

def step (intake : Intake) : Event → Intake
  | .datagram peer length due =>
    match intake.server.countDatagram? peer length due with
    | some after =>
      { intake with
        server := after
        received := intake.received ++ [⟨peer, length⟩]
        counted := intake.counted ++ [((intake.server.counterFor peer).1, ⟨peer, length⟩)] }
    | none =>
      { intake with
        received := intake.received ++ [⟨peer, length⟩]
        refused := intake.refused ++ [⟨peer, length⟩] }
  | .flush => { intake with server := intake.server.flushTallies }
  | .sweep now dormantAfter deleteAfter =>
    { intake with server := { intake.server with
        registry := (intake.registry.sweep now dormantAfter deleteAfter).2 } }
  | .publish serial now =>
    match intake.registry.trial? serial with
    | none => intake
    | some trial =>
      { intake with
        server := { intake.server with
          registry := intake.registry.change serial fun trial => (trial.publish now).2 }
        published := intake.published ++ ((trial.publish now).1.outcome?.toList.map (serial, ·))
        lost := intake.lost ++
          if (trial.publish now).1 = .overflowed then [(serial, trial.buffered)] else [] }
  | .clock now wall => { intake with server := { intake.server with now := now, wall := wall } }

def run (events : List Event) (intake : Intake) : Intake := events.foldl step intake

/-! ## Amounts -/

section Amounts

variable (intake : Intake) (quantity : Quantity)

def receivedFrom (address : Address) : ℕ :=
  (intake.received.map fun datagram =>
    if datagram.peer.address = address then datagram.amount quantity else 0).sum

def refusedFrom (address : Address) : ℕ :=
  (intake.refused.map fun datagram =>
    if datagram.peer.address = address then datagram.amount quantity else 0).sum

def countedFrom (address : Address) : ℕ :=
  (intake.counted.map fun entry =>
    if entry.2.peer.address = address then entry.2.amount quantity else 0).sum

def countedFor (serial : Serial) : ℕ :=
  (intake.counted.map fun entry =>
    if entry.1 = serial then entry.2.amount quantity else 0).sum

def publishedBy (serial : Serial) : ℕ :=
  (intake.published.map fun entry =>
    if entry.1 = serial then quantity.ofAccount entry.2.report else 0).sum

def lostBy (serial : Serial) : ℕ :=
  (intake.lost.map fun entry => if entry.1 = serial then quantity.total entry.2 else 0).sum

/-- How much the tally of an address holds. -/
def pendingAt (address : Address) : ℕ :=
  (intake.server.tallies.map fun entry =>
    if entry.1 = address then quantity.ofTally entry.2.2 else 0).sum

end Amounts

/-- All trials that were ever opened for an address. -/
def openedFor (intake : Intake) (address : Address) : List Serial :=
  (List.range intake.registry.trials.length).filter fun serial =>
    (intake.registry.trial? serial).any fun trial => trial.peer.address = address

theorem mem_openedFor {intake : Intake} {address : Address} {serial : Serial} :
    serial ∈ intake.openedFor address ↔
      ∃ trial, intake.registry.trial? serial = some trial ∧ trial.peer.address = address := by
  rw [openedFor, Registry.mem_filter_trial?]
  simp only [decide_eq_true_eq]

theorem nodup_openedFor (intake : Intake) (address : Address) :
    (intake.openedFor address).Nodup :=
  List.nodup_range.filter _

/-! ## Conservation -/

/-- Everything that came from an address was counted for a trial of it or refused, and what was
counted for a trial was published by it, was lost by it, or is held for it.  Nothing from an
address is refused or lost as long as what came from it fits into a count. -/
structure Conserved (intake : Intake) : Prop where
  tidy : intake.server.Tidy
  attributed : ∀ entry ∈ intake.counted, ∃ trial,
    intake.registry.trial? entry.1 = some trial ∧ trial.peer.address = entry.2.peer.address
  accounts : ∀ entry ∈ intake.published, entry.2.IsAccount
  balance : ∀ quantity serial, intake.publishedBy quantity serial +
    intake.lostBy quantity serial + intake.server.holds quantity serial =
      intake.countedFor quantity serial
  received_perm : intake.received.Perm (intake.counted.map (·.2) ++ intake.refused)
  fits : ∀ address, (∀ quantity, intake.receivedFrom quantity address < UInt64.size) →
    (∀ datagram ∈ intake.refused, datagram.peer.address ≠ address) ∧
      ∀ entry ∈ intake.lost, ∃ trial,
        intake.registry.trial? entry.1 = some trial ∧ trial.peer.address ≠ address

theorem conserved_start (interval : ℕ) : ({ server := { interval } } : Intake).Conserved where
  tidy := {
    sound := Registry.sound_empty
    kind := fun _ _ h => absurd h (by simp [Registry.trial?])
    packets := fun _ _ h => absurd h (by simp [Registry.buffered, Registry.trial?])
    nodup := List.nodup_nil
    counting := fun _ h => absurd h List.not_mem_nil
    owner := fun _ h => absurd h List.not_mem_nil }
  attributed := fun _ h => absurd h List.not_mem_nil
  accounts := fun _ h => absurd h List.not_mem_nil
  balance := fun _ _ => rfl
  received_perm := List.Perm.refl []
  fits := fun _ _ => ⟨fun _ h => absurd h List.not_mem_nil, fun _ h => absurd h List.not_mem_nil⟩

variable {intake : Intake}

theorem Conserved.received_eq (h : intake.Conserved) (quantity : Quantity) (address : Address) :
    intake.receivedFrom quantity address =
      intake.countedFrom quantity address + intake.refusedFrom quantity address := by
  rw [receivedFrom, (h.received_perm.map _).sum_eq, List.map_append, List.map_map,
    List.sum_append]
  rfl

theorem Conserved.attributed_of_continues (h : intake.Conserved) {registry : Registry}
    (hcontinues : intake.registry.Continues registry) :
    ∀ entry ∈ intake.counted, ∃ trial,
      registry.trial? entry.1 = some trial ∧ trial.peer.address = entry.2.peer.address := by
  intro entry hentry
  obtain ⟨trial, htrial, haddress⟩ := h.attributed entry hentry
  obtain ⟨later, hlater, hon⟩ := hcontinues _ trial htrial
  exact ⟨later, hlater, hon.peer_eq ▸ haddress⟩

theorem Conserved.fits_of_continues (h : intake.Conserved) {registry : Registry}
    (hcontinues : intake.registry.Continues registry) {address : Address}
    (hfits : ∀ quantity, intake.receivedFrom quantity address < UInt64.size) :
    (∀ datagram ∈ intake.refused, datagram.peer.address ≠ address) ∧
      ∀ entry ∈ intake.lost, ∃ trial,
        registry.trial? entry.1 = some trial ∧ trial.peer.address ≠ address := by
  refine ⟨(h.fits address hfits).1, fun entry hentry => ?_⟩
  obtain ⟨trial, htrial, haddress⟩ := (h.fits address hfits).2 entry hentry
  obtain ⟨later, hlater, hon⟩ := hcontinues _ trial htrial
  exact ⟨later, hlater, hon.peer_eq ▸ haddress⟩

/-- Nothing is held for a trial that did not come from its address. -/
theorem Conserved.holds_le (h : intake.Conserved) {registry : Registry} {serial : Serial}
    {trial : Trial} (hcontinues : intake.registry.Continues registry)
    (htrial : registry.trial? serial = some trial) (quantity : Quantity) :
    intake.server.holds quantity serial ≤ intake.receivedFrom quantity trial.peer.address := by
  calc intake.server.holds quantity serial
      ≤ intake.countedFor quantity serial := by
        rw [← h.balance]
        exact Nat.le_add_left _ _
    _ ≤ intake.countedFrom quantity trial.peer.address := by
        refine List.sum_le_sum fun entry hentry => ?_
        split
        case isFalse => exact Nat.zero_le _
        case isTrue hserial =>
          obtain ⟨later, hlater, haddress⟩ := h.attributed_of_continues hcontinues entry hentry
          rw [hserial, htrial] at hlater
          cases hlater
          rw [if_pos haddress.symm]
    _ ≤ intake.receivedFrom quantity trial.peer.address := by
        rw [h.received_eq]
        exact Nat.le_add_right _ _

/-- What happens on the server apart from datagrams and publications only has to keep what the
server holds. -/
theorem Conserved.keep (h : intake.Conserved) {server : Server} (htidy : server.Tidy)
    (hcontinues : intake.registry.Continues server.registry)
    (hholds : ∀ quantity serial,
      server.holds quantity serial = intake.server.holds quantity serial) :
    ({ intake with server := server } : Intake).Conserved where
  tidy := htidy
  attributed := h.attributed_of_continues hcontinues
  accounts := h.accounts
  balance := by
    intro quantity serial
    have hbalance := h.balance quantity serial
    rw [← hholds] at hbalance
    exact hbalance
  received_perm := h.received_perm
  fits := fun _ hfits => h.fits_of_continues hcontinues hfits

theorem Conserved.count (h : intake.Conserved) {peer : Endpoint} {length : UInt64} {due : Bool}
    {after : Server} (hcount : intake.server.countDatagram? peer length due = some after) :
    ({ intake with
        server := after
        received := intake.received ++ [⟨peer, length⟩]
        counted := intake.counted ++
          [((intake.server.counterFor peer).1, ⟨peer, length⟩)] } : Intake).Conserved := by
  obtain ⟨htidy, hcontinues, hkeys, hheld⟩ := h.tidy.countDatagram?_spec hcount
  have hkey := hkeys peer.address .udpServer
  rw [if_pos ⟨rfl, rfl⟩] at hkey
  obtain ⟨trial, htrial, haddress, -⟩ := htidy.sound.trial _ _ _ hkey
  refine ⟨htidy, fun entry hentry => ?_, h.accounts, fun quantity serial => ?_, ?_,
    fun address hfits => ?_⟩
  · rcases List.mem_append.1 hentry with hold | hnew
    · exact h.attributed_of_continues hcontinues entry hold
    · rw [List.mem_singleton.1 hnew]
      exact ⟨trial, htrial, haddress⟩
  · have hbalance := h.balance quantity serial
    have hserial := (hheld quantity serial).1
    rw [Datagram.ofCount_eq_amount quantity peer length, if_congr eq_comm rfl rfl] at hserial
    simp only [publishedBy, lostBy, countedFor, List.map_append, List.sum_append, List.map_cons,
      List.map_nil, List.sum_cons, List.sum_nil] at hbalance ⊢
    omega
  · rw [List.map_append, List.append_assoc]
    refine (h.received_perm.append_right _).trans ?_
    rw [List.append_assoc]
    exact List.perm_append_comm.append_left _
  · refine h.fits_of_continues hcontinues fun quantity => Nat.lt_of_le_of_lt ?_ (hfits quantity)
    simp only [receivedFrom, List.map_append, List.sum_append]
    exact Nat.le_add_right _ _

/-- A datagram is refused only if what came from its address does not fit into a count. -/
theorem Conserved.refuse (h : intake.Conserved) {peer : Endpoint} {length : UInt64} {due : Bool}
    (hcount : intake.server.countDatagram? peer length due = none) :
    ({ intake with
        received := intake.received ++ [⟨peer, length⟩]
        refused := intake.refused ++ [⟨peer, length⟩] } : Intake).Conserved := by
  refine ⟨h.tidy, h.attributed, h.accounts, h.balance, ?_, fun address hfits => ?_⟩
  · rw [← List.append_assoc]
    exact h.received_perm.append_right _
  · have hreceived : ∀ quantity, intake.receivedFrom quantity address +
        (if peer.address = address then Datagram.amount quantity ⟨peer, length⟩ else 0) <
          UInt64.size := by
      intro quantity
      simpa [receivedFrom] using hfits quantity
    obtain ⟨hrefused, hlost⟩ := h.fits address fun quantity =>
      Nat.lt_of_le_of_lt (Nat.le_add_right _ _) (hreceived quantity)
    refine ⟨fun datagram hdatagram => ?_, hlost⟩
    rcases List.mem_append.1 hdatagram with hold | hnew
    · exact hrefused datagram hold
    · rw [List.mem_singleton.1 hnew]
      intro (hsame : peer.address = address)
      subst hsame
      -- what is held for the trial came from the address as well, so there is room
      obtain ⟨quantity, hoverflow⟩ := h.tidy.exists_overflow hcount
      obtain ⟨trial, htrial, haddress⟩ := h.tidy.exists_counterFor peer
      have hheld := h.holds_le (h.tidy.counterFor_spec peer).2.1 htrial quantity
      have hfit := hreceived quantity
      rw [if_pos rfl] at hfit
      rw [haddress] at hheld
      rw [Datagram.ofCount_eq_amount quantity peer length] at hoverflow
      omega

section Publication

variable {serial : Serial} {trial : Trial}

theorem Conserved.publish_account (h : intake.Conserved)
    (htrial : intake.registry.trial? serial = some trial) (now : Instant) :
    (trial.buffered = [] ∧ (trial.publish now).1 = .nothing) ∨
      (∃ outcome, (trial.publish now).1 = .emitted outcome ∧ outcome.IsAccount ∧
        ∀ quantity : Quantity,
          quantity.ofAccount outcome.report = quantity.total trial.buffered) ∨
      ((trial.publish now).1 = .overflowed ∧
        ∃ quantity : Quantity, UInt64.size ≤ quantity.total trial.buffered) := by
  have hpackets : ∀ outcome ∈ trial.buffered, outcome.IsPackets :=
    Registry.buffered_of_trial? htrial ▸ h.tidy.packets serial
  exact (Trial.publish_account (h.tidy.kind serial trial htrial).2 hpackets now).2

/-- What a trial buffers goes into the account that it tells, or is lost as it is. -/
theorem Conserved.told_add_lost (h : intake.Conserved)
    (htrial : intake.registry.trial? serial = some trial) (now : Instant) (quantity : Quantity)
    (other : Serial) :
    (((trial.publish now).1.outcome?.toList.map (serial, ·)).map fun entry =>
        if entry.1 = other then quantity.ofAccount entry.2.report else 0).sum +
      ((if (trial.publish now).1 = .overflowed then [(serial, trial.buffered)] else []).map
        fun entry => if entry.1 = other then quantity.total entry.2 else 0).sum =
      if serial = other then quantity.total trial.buffered else 0 := by
  rcases h.publish_account htrial now with ⟨hnone, heq⟩ | ⟨emitted, heq, -, hamount⟩ | ⟨heq, -⟩
  · simp [heq, hnone, Publication.outcome?, Quantity.total_nil]
  · simp [heq, Publication.outcome?, hamount]
  · simp [heq, Publication.outcome?]

/-- Nothing is lost unless more came from the address than fits into a count. -/
theorem Conserved.exists_overflow_of_publish (h : intake.Conserved)
    (htrial : intake.registry.trial? serial = some trial) {now : Instant}
    (hlose : (trial.publish now).1 = .overflowed) :
    ∃ quantity, UInt64.size ≤ intake.receivedFrom quantity trial.peer.address := by
  rcases h.publish_account htrial now with ⟨-, heq⟩ | ⟨emitted, heq, -⟩ | ⟨-, quantity, hoverflow⟩
  · exact absurd (heq.symm.trans hlose) (by simp)
  · exact absurd (heq.symm.trans hlose) (by simp)
  · refine ⟨quantity, Nat.le_trans hoverflow ?_⟩
    calc quantity.total trial.buffered
        = intake.server.buffers quantity serial :=
          congrArg quantity.total (Registry.buffered_of_trial? htrial).symm
      _ ≤ intake.server.holds quantity serial := Nat.le_add_right _ _
      _ ≤ intake.receivedFrom quantity trial.peer.address :=
          h.holds_le (Registry.Steady.refl _).continues htrial quantity

/-- A publication tells everything that the trial buffers, unless this does not fit into a count. -/
theorem Conserved.publish (h : intake.Conserved)
    (htrial : intake.registry.trial? serial = some trial) (now : Instant) :
    ({ intake with
        server := { intake.server with
          registry := intake.registry.change serial fun trial => (trial.publish now).2 }
        published := intake.published ++ ((trial.publish now).1.outcome?.toList.map (serial, ·))
        lost := intake.lost ++
          if (trial.publish now).1 = .overflowed then [(serial, trial.buffered)] else []
      } : Intake).Conserved := by
  obtain ⟨htidy, hsteady, hbuffered⟩ := h.tidy.publish htrial now
  have hbefore : intake.registry.buffered serial = trial.buffered :=
    Registry.buffered_of_trial? htrial
  refine ⟨htidy, h.attributed_of_continues hsteady.continues, fun entry hentry => ?_,
    fun quantity other => ?_, h.received_perm, fun address hfits => ?_⟩
  · rcases List.mem_append.1 hentry with hold | hnew
    · exact h.accounts entry hold
    · obtain ⟨outcome, houtcome, rfl⟩ := List.mem_map.1 hnew
      rcases h.publish_account htrial now with ⟨-, heq⟩ | ⟨emitted, heq, haccount, -⟩ | ⟨heq, -⟩
      · exact absurd houtcome (by simp [heq, Publication.outcome?])
      · have hsame : outcome = emitted := by simpa [heq, Publication.outcome?] using houtcome
        exact hsame ▸ haccount
      · exact absurd houtcome (by simp [heq, Publication.outcome?])
  · have htold := h.told_add_lost htrial now quantity other
    have hbalance := h.balance quantity other
    have hother := congrArg quantity.total (hbuffered other)
    simp only [publishedBy, lostBy, countedFor, Server.holds, Server.buffers, Server.pending,
      List.map_append, List.sum_append] at hbalance ⊢
    by_cases hserial : serial = other
    · subst hserial
      rw [if_pos rfl, Quantity.total_nil] at hother
      rw [if_pos rfl] at htold
      have hheld := congrArg quantity.total hbefore
      simp only [registry] at *
      omega
    · rw [if_neg (Ne.symm hserial)] at hother
      rw [if_neg hserial] at htold
      simp only [registry] at *
      omega
  · obtain ⟨hrefused, hlost⟩ := h.fits_of_continues hsteady.continues hfits
    refine ⟨hrefused, fun entry hentry => ?_⟩
    rcases List.mem_append.1 hentry with hold | hnew
    · exact hlost entry hold
    · split at hnew
      case isFalse => exact absurd hnew List.not_mem_nil
      case isTrue hlose =>
        obtain rfl := List.mem_singleton.1 hnew
        obtain ⟨later, hlater, hon⟩ := hsteady.trial serial trial htrial
        refine ⟨later, hlater, hon.peer_eq ▸ ?_⟩
        rintro rfl
        obtain ⟨quantity, hoverflow⟩ := h.exists_overflow_of_publish htrial hlose
        exact absurd (hfits quantity) (Nat.not_lt.2 hoverflow)

end Publication

theorem Conserved.step (h : intake.Conserved) (event : Event) : (intake.step event).Conserved := by
  cases event with
  | datagram peer length due =>
      cases hcount : intake.server.countDatagram? peer length due with
      | some after => simpa only [Intake.step, hcount] using h.count hcount
      | none => simpa only [Intake.step, hcount] using h.refuse hcount
  | flush =>
      obtain ⟨htidy, hsteady, hheld⟩ := h.tidy.flushTallies_spec
      exact h.keep htidy hsteady.continues fun quantity serial => (hheld quantity serial).1
  | sweep now dormantAfter deleteAfter =>
      refine h.keep (h.tidy.sweep now dormantAfter deleteAfter)
        (Registry.continues_sweep intake.registry now dormantAfter deleteAfter)
        fun quantity serial => ?_
      rw [Server.holds, Server.buffers, Registry.buffered_sweep]
      rfl
  | publish serial now =>
      cases htrial : intake.registry.trial? serial with
      | none => simpa only [Intake.step, htrial] using h
      | some trial => simpa only [Intake.step, htrial] using h.publish htrial now
  | clock now wall =>
      exact h.keep ⟨h.tidy.sound, h.tidy.kind, h.tidy.packets, h.tidy.nodup, h.tidy.counting,
        h.tidy.owner⟩ (Registry.Steady.refl _).continues fun _ _ => rfl

theorem Conserved.run (h : intake.Conserved) (events : List Event) :
    (intake.run events).Conserved := by
  induction events generalizing intake with
  | nil => exact h
  | cons event events ih => exact ih (h.step event)

end Intake

end LinkMeter
