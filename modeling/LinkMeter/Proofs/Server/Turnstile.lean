import LinkMeter.Proofs.Outcome.Totals
import LinkMeter.Proofs.Registry.Buffers
import LinkMeter.Proofs.Registry.Spared
import LinkMeter.Server.Basic

/-!
# Connections that are counted

A connection without a handshake opens the counting trial of its address, adds
itself to it, holds it for two seconds and gives it back.  `Turnstile` is a
registry with the connections that do this, its guests; they take their steps in
any order, while time passes, the trials publish, and others use the registry
under other keys.  A timer that is due is served before time goes on.

Everything that is claimed about a counting trial follows from one number, that
of the guests which hold it.  The trial has that many references, it is
registered if and only if the number is positive, and it is finished if and only
if the number is zero; what it published and buffers are the guests that were
added to it (`Turnstile.Tended`).  A guest arrives, is added and leaves at three
moments, and each of them moves the number and the references together:

* an arrival finds the trial of its address, or opens one that nobody has asked
  for before (`Kept.tended_of_found`, `Kept.tended_of_free`);
* a guest is added while it holds the trial, so the trial is still running
  (`Kept.add`);
* a guest leaves when its timer is due, and the last one takes the trial out and
  finishes it (`Kept.expire`).

Publications move what is buffered to what is published (`Kept.publish`).
Everything else leaves the counting trials as they are, and `Tended.congr`
settles it.  `Kept` adds the clock: a timer that runs is at most two seconds old,
because time does not pass beyond a timer that is due.
-/

namespace LinkMeter

open Pacing (Instant)
open Transfer (Counting)

namespace Registry

variable {registry : Registry} {serial : Serial} {trial : Trial}

/-- A reference to a registered trial is one of several, or the last one, which takes the trial out
and finishes it. -/
theorem release_of_registered (hsound : registry.Sound)
    (htrial : registry.trial? serial = some trial)
    (hfind : registry.find? trial.peer.address trial.measurement = some serial) :
    (1 < trial.references ∧
        (registry.release serial).2.trial? serial = some trial.release.2 ∧
        (registry.release serial).2.find? trial.peer.address trial.measurement = some serial) ∨
      (trial.references ≤ 1 ∧
        (registry.release serial).2.trial? serial = some trial.release.2.finish.2 ∧
        (registry.release serial).2.find? trial.peer.address trial.measurement = none) := by
  rcases Nat.lt_or_ge 1 trial.references with hshared | hlast
  · rw [release_of_shared htrial hshared]
    exact .inl ⟨hshared, by simp [htrial], hfind⟩
  · rw [release_of_last htrial hfind hlast]
    refine .inr ⟨hlast, ?_, ?_⟩
    · rw [delete_of_find (by rwa [find?_change])]
      simp [trial?_remove, htrial]
    · rw [find?_delete (hsound.change serial Trial.precedes_release), if_pos ⟨rfl, rfl⟩]

/-- Giving back takes nothing else out. -/
theorem find?_release_iff_of_ne (hsound : registry.Sound) {other : Serial} (hother : other ≠ serial)
    (address : Address) (measurement : Measurement) :
    (registry.release serial).2.find? address measurement = some other ↔
      registry.find? address measurement = some other := by
  refine ⟨find?_of_find?_release hsound, fun hfind => ?_⟩
  unfold release
  split
  case h_1 => exact hfind
  case h_2 trial htrial =>
    dsimp only
    split
    · exact hfind
    · split
      case isFalse => exact hfind
      case isTrue hregistered =>
        have hchange : (registry.change serial fun _ => trial.release.2) =
            registry.change serial fun trial => trial.release.2 := change_congr htrial rfl
        rw [hchange] at hregistered ⊢
        rw [find?_delete (hsound.change serial Trial.precedes_release), if_neg, find?_change]
        · exact hfind
        · rintro ⟨rfl, rfl⟩
          rw [find?_change, hfind] at hregistered
          exact hother (Option.some.inj hregistered)

end Registry

/-- A publication empties the buffer.  It has nothing to tell, or tells what the buffer moves, or
cannot. -/
theorem Trial.publish_feeds {trial : Trial} {counting : Counting}
    (hreducer : trial.reducer = some counting.reducer)
    (hfed : ∀ outcome ∈ trial.buffered, counting.Feeds outcome) (now : Instant) :
    (trial.publish now).2.buffered = [] ∧
      ((trial.buffered = [] ∧ (trial.publish now).1 = .nothing) ∨
        (∃ outcome, (trial.publish now).1 = .emitted outcome ∧
          ∀ quantity : Quantity,
            quantity.ofReport outcome.report = quantity.total trial.buffered) ∨
        ((trial.publish now).1 = .overflowed ∧
          ∃ quantity : Quantity, UInt64.size ≤ quantity.total trial.buffered)) := by
  refine ⟨(Trial.publish_spec hreducer now).2.1, ?_⟩
  simp only [publish, hreducer]
  cases hempty : trial.buffered.isEmpty with
  | true => exact .inl ⟨List.isEmpty_iff.mp hempty, rfl⟩
  | false =>
      simp only [Bool.false_eq_true, if_false]
      cases hreduce : counting.reducer.reduce? (trial.publishSeconds now) trial.buffered with
      | some outcome =>
          exact .inr (.inl ⟨outcome, rfl, Quantity.total_eq_of_reduce? hfed hreduce⟩)
      | none =>
          refine .inr (.inr ⟨rfl, ?_⟩)
          by_contra hfits
          obtain ⟨reduced, hreduced⟩ := Quantity.exists_reduce? hfed
            (fun quantity => Nat.lt_of_not_le fun hle => hfits ⟨quantity, hle⟩)
            (trial.publishSeconds now)
          rw [hreduce] at hreduced
          contradiction

namespace Turnstile

/-! ## Guests and events -/

/-- How far a counted connection has come. -/
inductive Stage where
  /-- It has asked for the trial and is about to be counted. -/
  | opened
  /-- It was counted at some instant, and its timer runs since then. -/
  | lingering (since : Instant)
  /-- It was counted at some instant, and its timer went off. -/
  | left (since : Instant)
  deriving DecidableEq

/-- A connection that is counted, with the trial that counts it. -/
structure Guest where
  peer : Endpoint
  serial : Serial
  stage : Stage := .opened
  deriving DecidableEq

namespace Guest

/-- Whether it holds a reference to its trial. -/
def holds (guest : Guest) : Bool :=
  match guest.stage with
  | .opened | .lingering _ => true
  | .left _ => false

/-- The instant at which it was counted. -/
def since? (guest : Guest) : Option Instant :=
  match guest.stage with
  | .opened => none
  | .lingering since | .left since => some since

def isCounted (guest : Guest) : Bool := guest.since?.isSome

/-- The instant for which its timer is set. -/
def due? (guest : Guest) : Option Instant :=
  match guest.stage with
  | .lingering since => some (since + Server.lingerTime)
  | .opened | .left _ => none

end Guest

inductive Event where
  /-- A connection asks for the trial of its address. -/
  | arrive (peer : Endpoint) (wall : Instant)
  /-- It is added to the trial, and its timer starts. -/
  | add (place : ℕ)
  /-- Its timer goes off. -/
  | expire (place : ℕ)
  | publish (serial : Serial) (wall : Instant)
  /-- Those who serve a trial receive from it, tick its clock and so on. -/
  | serve (serial : Serial) (act : Trial.Act)
  | wait (nanos : ℕ)
  /-- Something happens to the registry under other keys. -/
  | aside (event : Registry.Event)
  deriving DecidableEq

/-- Whether an act neither emits nor adds nor finishes. -/
def isQuiet : Trial.Act → Bool
  | .claim | .receive | .drain | .close | .touch _ | .setDormant | .tick _ => true
  | .add _ | .emit _ | .publish _ | .finish => false

end Turnstile

/-- A registry with the connections that were counted. -/
structure Turnstile where
  interval : ℕ
  registry : Registry := {}
  now : Instant := 0
  guests : List Turnstile.Guest := []
  published : List (Serial × Outcome) := []
  /-- What could not be published because it did not fit. -/
  lost : List (Serial × List Outcome) := []
  /-- The trials that published when they were finished. -/
  closed : List Serial := []
  deriving DecidableEq

namespace Turnstile

/-- A guest moves on, and something happens to the registry. -/
def move (turnstile : Turnstile) (registry : Registry) (place : ℕ) (moved : Guest) : Turnstile :=
  { turnstile with registry, guests := turnstile.guests.set place moved }

/-- A counting trial publishes. -/
def tell (turnstile : Turnstile) (serial : Serial) (trial : Trial) (wall : Instant) : Turnstile :=
  { turnstile with
    registry := turnstile.registry.change serial fun trial => (trial.publish wall).2
    published := turnstile.published ++ ((trial.publish wall).1.outcome?.toList.map (serial, ·))
    lost := turnstile.lost ++
      if (trial.publish wall).1 = .overflowed then [(serial, trial.buffered)] else []
    closed := turnstile.closed ++ if trial.isDone then [serial] else [] }

/-- The registry after a connection has asked for its trial, with the number of the trial and
whether it is new. -/
def created (turnstile : Turnstile) (peer : Endpoint) (wall : Instant) :
    (Serial × Bool) × Registry :=
  turnstile.registry.createOrGet wall peer .tcpConnectionRate {}
    (Reducer.ofKind? .connectionRate) turnstile.interval

def step (turnstile : Turnstile) : Event → Turnstile
  | .arrive peer wall =>
    { turnstile with
      registry := (turnstile.created peer wall).2
      guests := turnstile.guests ++ [{ peer, serial := (turnstile.created peer wall).1.1 }] }
  | .add place =>
    match turnstile.guests[place]? with
    | some ⟨peer, serial, .opened⟩ =>
      turnstile.move (turnstile.registry.change serial (·.add (.connections 1))) place
        ⟨peer, serial, .lingering turnstile.now⟩
    | _ => turnstile
  | .expire place =>
    match turnstile.guests[place]? with
    | some ⟨peer, serial, .lingering since⟩ =>
      if since + Server.lingerTime ≤ turnstile.now then
        turnstile.move (turnstile.registry.release serial).2 place ⟨peer, serial, .left since⟩
      else turnstile
    | _ => turnstile
  | .publish serial wall =>
    match turnstile.registry.trial? serial with
    | none => turnstile
    | some trial =>
      if trial.measurement = .tcpConnectionRate then turnstile.tell serial trial wall
      else turnstile
  | .serve serial act =>
    if isQuiet act then
      { turnstile with
        registry := turnstile.registry.change serial fun trial => trial.perform act }
    else turnstile
  | .wait nanos =>
    if ∀ guest ∈ turnstile.guests, ∀ due ∈ guest.due?, turnstile.now + nanos ≤ due then
      { turnstile with now := turnstile.now + nanos }
    else turnstile
  | .aside event =>
    if event.Spares .tcpConnectionRate turnstile.registry then
      { turnstile with
        registry := (Population.step { registry := turnstile.registry } event).registry }
    else turnstile

def run (turnstile : Turnstile) (events : List Event) : Turnstile := events.foldl step turnstile

/-! ## What is counted -/

section Amounts

variable (turnstile : Turnstile)

/-- How many guests hold a trial. -/
def holders (serial : Serial) : ℕ :=
  turnstile.guests.countP fun guest => decide (guest.serial = serial) && guest.holds

/-- How many guests were added to a trial. -/
def countedFor (serial : Serial) : ℕ :=
  turnstile.guests.countP fun guest => decide (guest.serial = serial) && guest.isCounted

/-- How many guests from an address were added to a trial. -/
def countedFrom (address : Address) : ℕ :=
  turnstile.guests.countP fun guest => decide (guest.peer.address = address) && guest.isCounted

def publishedBy (serial : Serial) : ℕ :=
  (turnstile.published.map fun entry =>
    if entry.1 = serial then Quantity.connections.ofReport entry.2.report else 0).sum

def lostBy (serial : Serial) : ℕ :=
  (turnstile.lost.map fun entry =>
    if entry.1 = serial then Quantity.connections.total entry.2 else 0).sum

/-- The trials that published, whatever came of it. -/
def mentioned : List Serial :=
  turnstile.published.map (·.1) ++ turnstile.lost.map (·.1) ++ turnstile.closed

end Amounts

/-! ## The invariant -/

/-- A counting trial and its guests: it is registered and runs as long as one holds it. -/
structure Tended (turnstile : Turnstile) (serial : Serial) (trial : Trial) : Prop where
  reducer_eq : trial.reducer = some .connections
  references_eq : trial.references = turnstile.holders serial
  registered_iff : turnstile.registry.find? trial.peer.address .tcpConnectionRate = some serial ↔
    0 < turnstile.holders serial
  isDone_iff : trial.isDone = true ↔ turnstile.holders serial = 0
  samples : ∀ sample ∈ trial.buffered, sample = .connections 1
  balance : turnstile.publishedBy serial + turnstile.lostBy serial +
    Quantity.connections.total trial.buffered = turnstile.countedFor serial
  closed : serial ∈ turnstile.closed → trial.isDone = true ∧ trial.buffered = []

structure Kept (turnstile : Turnstile) : Prop where
  sound : turnstile.registry.Sound
  tended : ∀ serial trial, turnstile.registry.trial? serial = some trial →
    trial.measurement = .tcpConnectionRate → turnstile.Tended serial trial
  guest : ∀ guest ∈ turnstile.guests, ∃ trial,
    turnstile.registry.trial? guest.serial = some trial ∧
      trial.measurement = .tcpConnectionRate ∧ trial.peer.address = guest.peer.address
  mentioned : ∀ serial ∈ turnstile.mentioned, ∃ trial,
    turnstile.registry.trial? serial = some trial ∧ trial.measurement = .tcpConnectionRate
  timely : ∀ guest ∈ turnstile.guests, ∀ since,
    (guest.stage = .lingering since →
      since ≤ turnstile.now ∧ turnstile.now ≤ since + Server.lingerTime) ∧
    (guest.stage = .left since → since + Server.lingerTime ≤ turnstile.now)
  overflow : ∀ entry ∈ turnstile.lost, UInt64.size ≤ Quantity.connections.total entry.2

theorem kept_start (interval : ℕ) : ({ interval } : Turnstile).Kept where
  sound := Registry.sound_empty
  tended := fun _ _ htrial => absurd htrial (by simp [Registry.trial?])
  guest := by simp
  mentioned := by simp [Turnstile.mentioned]
  timely := by simp
  overflow := by simp

variable {turnstile after : Turnstile} {serial : Serial} {trial later : Trial}

/-- Nothing that concerns a trial has changed. -/
theorem Tended.congr (h : turnstile.Tended serial trial)
    (hreducer : later.reducer = trial.reducer) (hreferences : later.references = trial.references)
    (hdone : later.isDone = trial.isDone) (hbuffered : later.buffered = trial.buffered)
    (hfind : after.registry.find? later.peer.address .tcpConnectionRate = some serial ↔
      turnstile.registry.find? trial.peer.address .tcpConnectionRate = some serial)
    (hholders : after.holders serial = turnstile.holders serial)
    (hcounted : after.countedFor serial = turnstile.countedFor serial)
    (htold : after.publishedBy serial + after.lostBy serial =
      turnstile.publishedBy serial + turnstile.lostBy serial)
    (hclosed : serial ∈ after.closed → serial ∈ turnstile.closed) :
    after.Tended serial later where
  reducer_eq := hreducer.trans h.reducer_eq
  references_eq := by rw [hreferences, hholders, h.references_eq]
  registered_iff := by rw [hfind, hholders, h.registered_iff]
  isDone_iff := by rw [hdone, hholders, h.isDone_iff]
  samples := hbuffered ▸ h.samples
  balance := by rw [htold, hbuffered, hcounted, h.balance]
  closed := by
    rw [hdone, hbuffered]
    exact fun hmem => h.closed (hclosed hmem)

/-- Every counting trial is still there, with its key. -/
def Carries (before after : Registry) : Prop :=
  ∀ serial trial, before.trial? serial = some trial → trial.measurement = .tcpConnectionRate →
    ∃ later, after.trial? serial = some later ∧ later.measurement = .tcpConnectionRate ∧
      later.peer.address = trial.peer.address

theorem carries_of_continues {before after : Registry} (h : before.Continues after) :
    Carries before after := by
  intro serial trial htrial hkind
  obtain ⟨later, hlater, hon⟩ := h serial trial htrial
  exact ⟨later, hlater, hon.measurement_eq.trans hkind, by rw [hon.peer_eq]⟩

theorem Kept.guest_of_carries (h : turnstile.Kept) {registry : Registry}
    (hcarries : Carries turnstile.registry registry) {guest : Guest}
    (hguest : guest ∈ turnstile.guests) :
    ∃ trial, registry.trial? guest.serial = some trial ∧
      trial.measurement = .tcpConnectionRate ∧ trial.peer.address = guest.peer.address := by
  obtain ⟨trial, htrial, hkind, haddress⟩ := h.guest guest hguest
  obtain ⟨later, hlater, hsame, hpeer⟩ := hcarries _ trial htrial hkind
  exact ⟨later, hlater, hsame, hpeer.trans haddress⟩

theorem Kept.mentioned_of_carries (h : turnstile.Kept) {registry : Registry}
    (hcarries : Carries turnstile.registry registry) (hserial : serial ∈ turnstile.mentioned) :
    ∃ trial, registry.trial? serial = some trial ∧ trial.measurement = .tcpConnectionRate := by
  obtain ⟨trial, htrial, hkind⟩ := h.mentioned serial hserial
  obtain ⟨later, hlater, hsame, -⟩ := hcarries _ trial htrial hkind
  exact ⟨later, hlater, hsame⟩

/-! ## Asides and time -/

theorem Kept.aside (h : turnstile.Kept) {registry : Registry}
    (hspared : turnstile.registry.Spared .tcpConnectionRate registry) :
    ({ turnstile with registry := registry } : Turnstile).Kept := by
  have hcarries : Carries turnstile.registry registry := fun serial trial htrial hkind =>
    ⟨trial, (hspared.trial?_iff serial trial hkind).mpr htrial, hkind, rfl⟩
  refine ⟨hspared.sound, fun serial trial htrial hkind => ?_,
    fun guest hguest => h.guest_of_carries hcarries hguest,
    fun serial hserial => h.mentioned_of_carries hcarries hserial, h.timely, h.overflow⟩
  have hbefore := h.tended serial trial ((hspared.trial?_iff serial trial hkind).mp htrial) hkind
  exact hbefore.congr rfl rfl rfl rfl (by rw [hspared.find?_eq]) rfl rfl rfl id

theorem Kept.wait (h : turnstile.Kept) {nanos : ℕ}
    (hdue : ∀ guest ∈ turnstile.guests, ∀ due ∈ guest.due?, turnstile.now + nanos ≤ due) :
    ({ turnstile with now := turnstile.now + nanos } : Turnstile).Kept := by
  refine ⟨h.sound, fun serial trial htrial hkind => ?_, h.guest, h.mentioned, ?_, h.overflow⟩
  · exact (h.tended serial trial htrial hkind).congr rfl rfl rfl rfl Iff.rfl rfl rfl rfl id
  · intro guest hguest since
    obtain ⟨hlingers, hleft⟩ := h.timely guest hguest since
    refine ⟨fun hstage => ⟨(hlingers hstage).1.trans (Nat.le_add_right _ _), ?_⟩,
      fun hstage => (hleft hstage).trans (Nat.le_add_right _ _)⟩
    -- time does not pass beyond a timer that runs
    exact hdue guest hguest _ (by simp [Guest.due?, hstage])

/-! ## What is done to a trial -/

theorem buffered_perform_of_quiet {act : Trial.Act} (hquiet : isQuiet act = true) (trial : Trial) :
    (trial.perform act).buffered = trial.buffered := by
  cases act with
  | add | emit | publish | finish => contradiction
  | receive => exact trial.receive_spec.2.1
  | claim | drain | close | touch now | setDormant | tick now => rfl

theorem Kept.serve (h : turnstile.Kept) {act : Trial.Act} (hquiet : isQuiet act = true)
    (serial : Serial) :
    ({ turnstile with
      registry := turnstile.registry.change serial fun trial => trial.perform act } :
        Turnstile).Kept := by
  have hact : act ≠ .finish := by
    rintro rfl
    contradiction
  have hcontinues := turnstile.registry.continues_change serial
    fun trial => trial.precedes_perform act
  have hcarries := carries_of_continues hcontinues
  refine ⟨h.sound.change serial fun trial => trial.precedes_perform act, ?_,
    fun guest hguest => h.guest_of_carries hcarries hguest,
    fun serial hserial => h.mentioned_of_carries hcarries hserial, h.timely, h.overflow⟩
  intro other later hlater hkind
  rw [Registry.trial?_change] at hlater
  split at hlater
  case isTrue hserial =>
    subst hserial
    obtain ⟨old, hold, rfl⟩ := Option.map_eq_some_iff.mp hlater
    have hsteady := old.steady_perform hact
    exact (h.tended serial old hold (hsteady.measurement_eq ▸ hkind)).congr hsteady.reducer_eq
      hsteady.references_eq hsteady.isDone_eq (buffered_perform_of_quiet hquiet old)
      (by rw [hsteady.peer_eq]; rfl) rfl rfl rfl id
  case isFalse =>
    exact (h.tended other later hlater hkind).congr rfl rfl rfl rfl Iff.rfl rfl rfl rfl id

theorem Tended.feeds (h : turnstile.Tended serial trial) :
    ∀ sample ∈ trial.buffered, Counting.connections.Feeds sample := by
  intro sample hsample
  rw [h.samples sample hsample]
  exact .sample 1 0

/-- What a trial buffers goes into the outcome that it tells, or is lost as it is. -/
theorem Tended.told_add_lost (h : turnstile.Tended serial trial) (wall : Instant) (other : Serial) :
    (turnstile.tell serial trial wall).publishedBy other +
        (turnstile.tell serial trial wall).lostBy other =
      turnstile.publishedBy other + turnstile.lostBy other +
        if serial = other then Quantity.connections.total trial.buffered else 0 := by
  simp only [publishedBy, lostBy, tell, List.map_append, List.sum_append]
  rcases (Trial.publish_feeds h.reducer_eq h.feeds wall).2 with
      ⟨hnone, heq⟩ | ⟨emitted, heq, hamount⟩ | ⟨heq, -⟩
  · simp [heq, hnone, Publication.outcome?, Quantity.total_nil]
  · simp [heq, Publication.outcome?, hamount]
    omega
  · simp [heq, Publication.outcome?]
    omega

/-- Only more connections than fit into a count are lost. -/
theorem Tended.le_total_of_overflow (h : turnstile.Tended serial trial) {wall : Instant}
    (hlose : (trial.publish wall).1 = .overflowed) :
    UInt64.size ≤ Quantity.connections.total trial.buffered := by
  rcases (Trial.publish_feeds h.reducer_eq h.feeds wall).2 with
      ⟨-, heq⟩ | ⟨emitted, heq, -⟩ | ⟨-, quantity, hoverflow⟩
  · rw [heq] at hlose
    contradiction
  · rw [heq] at hlose
    contradiction
  · cases quantity with
    | connections => exact hoverflow
    | bytes | packets =>
        rw [Quantity.total_eq_zero_of_feeds h.feeds fun _ _ => rfl] at hoverflow
        exact absurd hoverflow (by decide)

theorem Kept.publish (h : turnstile.Kept)
    (htrial : turnstile.registry.trial? serial = some trial)
    (hkind : trial.measurement = .tcpConnectionRate) (wall : Instant) :
    (turnstile.tell serial trial wall).Kept := by
  have hbefore := h.tended serial trial htrial hkind
  have hcarries : Carries turnstile.registry (turnstile.tell serial trial wall).registry :=
    carries_of_continues (turnstile.registry.continues_change serial
      fun trial => trial.precedes_publish wall)
  have hclosed : ∀ other, other ∈ (turnstile.tell serial trial wall).closed →
      other ∈ turnstile.closed ∨ other = serial ∧ trial.isDone = true := by
    intro other hmem
    rcases List.mem_append.mp hmem with hold | hnew
    · exact .inl hold
    · split at hnew
      case isTrue hdone => exact .inr ⟨List.mem_singleton.mp hnew, hdone⟩
      case isFalse => exact absurd hnew List.not_mem_nil
  refine ⟨h.sound.change serial fun trial => trial.precedes_publish wall, ?_,
    fun guest hguest => h.guest_of_carries hcarries hguest, ?_, h.timely, ?_⟩
  · intro other later hlater hkind
    have htold := hbefore.told_add_lost wall other
    rw [tell, Registry.trial?_change] at hlater
    split at hlater
    case isTrue hserial =>
      -- its buffer is empty now, and went into what is published or lost
      subst hserial
      rw [htrial] at hlater
      obtain rfl := Option.some.inj hlater
      have hsteady := trial.steady_publish wall
      have hempty : (trial.publish wall).2.buffered = [] :=
        (Trial.publish_spec hbefore.reducer_eq wall).2.1
      refine ⟨hsteady.reducer_eq.trans hbefore.reducer_eq,
        hsteady.references_eq.trans hbefore.references_eq, ?_, ?_, by simp [hempty], ?_, ?_⟩
      · rw [hsteady.peer_eq]
        exact hbefore.registered_iff
      · rw [hsteady.isDone_eq]
        exact hbefore.isDone_iff
      · rw [htold, if_pos rfl, hempty, Quantity.total_nil, Nat.add_zero]
        exact hbefore.balance
      · intro hmem
        refine ⟨?_, hempty⟩
        rw [hsteady.isDone_eq]
        rcases hclosed serial hmem with hold | ⟨-, hdone⟩
        · exact (hbefore.closed hold).1
        · exact hdone
    case isFalse hother =>
      rw [if_neg hother, Nat.add_zero] at htold
      refine (h.tended other later hlater hkind).congr rfl rfl rfl rfl Iff.rfl rfl rfl htold ?_
      intro hmem
      exact (hclosed other hmem).resolve_right fun hsame => hother hsame.1.symm
  · intro other hmem
    -- whatever is new in the three records is about the trial that publishes
    have hcases : other ∈ turnstile.mentioned ∨ other = serial := by
      simp only [Turnstile.mentioned, tell, List.map_append, List.mem_append] at hmem ⊢
      rcases hmem with ((hold | htold) | (hold | hgone)) | (hold | hshut)
      · exact .inl (.inl (.inl hold))
      · obtain ⟨entry, hentry, rfl⟩ := List.mem_map.mp htold
        obtain ⟨outcome, -, rfl⟩ := List.mem_map.mp hentry
        exact .inr rfl
      · exact .inl (.inl (.inr hold))
      · split at hgone
        · exact .inr (List.mem_singleton.mp hgone)
        · exact absurd hgone List.not_mem_nil
      · exact .inl (.inr hold)
      · split at hshut
        · exact .inr (List.mem_singleton.mp hshut)
        · exact absurd hshut List.not_mem_nil
    rcases hcases with hold | rfl
    · exact h.mentioned_of_carries hcarries hold
    · obtain ⟨later, hlater, hsame, -⟩ := hcarries other trial htrial hkind
      exact ⟨later, hlater, hsame⟩
  · intro entry hentry
    rcases List.mem_append.mp hentry with hold | hnew
    · exact h.overflow entry hold
    · split at hnew
      case isTrue hlose =>
        obtain rfl := List.mem_singleton.mp hnew
        exact hbefore.le_total_of_overflow hlose
      case isFalse => exact absurd hnew List.not_mem_nil

/-! ## What a guest does -/

section Guests

variable {place : ℕ} {guest : Guest}

/-- The other guests of a trial stay as they are. -/
theorem countP_move_add (test : Guest → Bool) (moved : Guest)
    (hguest : turnstile.guests[place]? = some guest) (hserial : moved.serial = guest.serial)
    (registry : Registry) (other : Serial) :
    ((turnstile.move registry place moved).guests.countP fun guest =>
        decide (guest.serial = other) && test guest) +
        (if guest.serial = other ∧ test guest = true then 1 else 0) =
      (turnstile.guests.countP fun guest => decide (guest.serial = other) && test guest) +
        if guest.serial = other ∧ test moved = true then 1 else 0 := by
  have hset := countP_set_add hguest
    (fun guest => decide (guest.serial = other) && test guest) moved
  simp only [hserial, Bool.and_eq_true, decide_eq_true_eq] at hset
  exact hset

theorem holders_move_add (moved : Guest) (hguest : turnstile.guests[place]? = some guest)
    (hserial : moved.serial = guest.serial) (registry : Registry) (other : Serial) :
    (turnstile.move registry place moved).holders other +
        (if guest.serial = other ∧ guest.holds = true then 1 else 0) =
      turnstile.holders other + if guest.serial = other ∧ moved.holds = true then 1 else 0 :=
  countP_move_add Guest.holds moved hguest hserial registry other

theorem countedFor_move_add (moved : Guest) (hguest : turnstile.guests[place]? = some guest)
    (hserial : moved.serial = guest.serial) (registry : Registry) (other : Serial) :
    (turnstile.move registry place moved).countedFor other +
        (if guest.serial = other ∧ guest.isCounted = true then 1 else 0) =
      turnstile.countedFor other +
        if guest.serial = other ∧ moved.isCounted = true then 1 else 0 :=
  countP_move_add Guest.isCounted moved hguest hserial registry other

/-- A guest that holds a trial finds it registered and running. -/
theorem Kept.of_holds (h : turnstile.Kept) (hguest : guest ∈ turnstile.guests)
    (hholds : guest.holds = true) :
    ∃ trial, turnstile.registry.trial? guest.serial = some trial ∧
      trial.measurement = .tcpConnectionRate ∧ trial.peer.address = guest.peer.address ∧
      0 < turnstile.holders guest.serial ∧ trial.isDone = false ∧
      turnstile.registry.find? guest.peer.address .tcpConnectionRate = some guest.serial := by
  obtain ⟨trial, htrial, hkind, haddress⟩ := h.guest guest hguest
  have htended := h.tended guest.serial trial htrial hkind
  have hpos : 0 < turnstile.holders guest.serial :=
    List.countP_pos_iff.mpr ⟨guest, hguest, by simp [hholds]⟩
  refine ⟨trial, htrial, hkind, haddress, hpos, ?_, haddress ▸ htended.registered_iff.mpr hpos⟩
  rw [← Bool.not_eq_true, htended.isDone_iff]
  exact Nat.ne_of_gt hpos

theorem Kept.move (h : turnstile.Kept) (moved : Guest)
    (hguest : turnstile.guests[place]? = some guest) (hserial : moved.serial = guest.serial)
    (hpeer : moved.peer = guest.peer)
    {registry : Registry} (hsound : registry.Sound) (hcarries : Carries turnstile.registry registry)
    (htended : ∀ other trial, registry.trial? other = some trial →
      trial.measurement = .tcpConnectionRate →
      (turnstile.move registry place moved).Tended other trial)
    (htimely : ∀ since,
      (moved.stage = .lingering since →
        since ≤ turnstile.now ∧ turnstile.now ≤ since + Server.lingerTime) ∧
      (moved.stage = .left since → since + Server.lingerTime ≤ turnstile.now)) :
    (turnstile.move registry place moved).Kept where
  sound := hsound
  tended := htended
  guest := by
    intro other hother
    rcases List.mem_or_eq_of_mem_set hother with hold | rfl
    · exact h.guest_of_carries hcarries hold
    · rw [hserial, hpeer]
      exact h.guest_of_carries hcarries (List.mem_of_getElem? hguest)
  mentioned := fun serial hmem => h.mentioned_of_carries hcarries hmem
  timely := by
    intro other hother
    rcases List.mem_or_eq_of_mem_set hother with hold | rfl
    · exact h.timely other hold
    · exact htimely
  overflow := h.overflow

/-- A guest is added to a trial that it holds, so the trial is running. -/
theorem Kept.add (h : turnstile.Kept) {peer : Endpoint}
    (hguest : turnstile.guests[place]? = some ⟨peer, serial, .opened⟩) :
    (turnstile.move (turnstile.registry.change serial (·.add (.connections 1))) place
      ⟨peer, serial, .lingering turnstile.now⟩).Kept := by
  obtain ⟨trial, htrial, hkind, -, -, hrunning, -⟩ :=
    h.of_holds (List.mem_of_getElem? hguest) rfl
  change turnstile.registry.trial? serial = some trial at htrial
  have hbefore := h.tended serial trial htrial hkind
  have hadd : trial.add (.connections 1) =
      { trial with buffered := trial.buffered ++ [.connections 1] } := by
    rw [Trial.add, hbefore.reducer_eq]
  refine h.move ⟨peer, serial, .lingering turnstile.now⟩ hguest rfl rfl
    (h.sound.change serial fun trial => trial.precedes_add (.connections 1))
    (carries_of_continues (turnstile.registry.continues_change serial
      fun trial => trial.precedes_add (.connections 1)))
    (fun other later hlater hkind => ?_) (fun since => ⟨fun hstage => ?_, by simp⟩)
  · have hholders := holders_move_add ⟨peer, serial, .lingering turnstile.now⟩ hguest rfl
      (turnstile.registry.change serial (·.add (.connections 1))) other
    have hcounted := countedFor_move_add ⟨peer, serial, .lingering turnstile.now⟩ hguest rfl
      (turnstile.registry.change serial (·.add (.connections 1))) other
    have hsame := Nat.add_right_cancel hholders
    simp only [Guest.isCounted, Guest.since?, Option.isSome_none, Option.isSome_some,
      Bool.false_eq_true, and_false, if_false, and_true, Nat.add_zero] at hcounted
    rw [Registry.trial?_change] at hlater
    split at hlater
    case isTrue hserial =>
      -- one more was added, and one more is buffered
      subst hserial
      rw [htrial, Option.map_some, hadd] at hlater
      obtain rfl := Option.some.inj hlater
      refine ⟨hbefore.reducer_eq, hbefore.references_eq.trans hsame.symm,
        hbefore.registered_iff.trans (by rw [hsame]), hbefore.isDone_iff.trans (by rw [hsame]),
        ?_, ?_, ?_⟩
      · intro sample hsample
        rcases List.mem_append.mp hsample with hold | hnew
        · exact hbefore.samples sample hold
        · exact List.mem_singleton.mp hnew
      · rw [if_pos rfl] at hcounted
        rw [hcounted, ← hbefore.balance, Quantity.total_append, ← Nat.add_assoc]
        rfl
      · intro hmem
        exact absurd (hbefore.closed hmem).1 (by simp [hrunning])
    case isFalse hother =>
      rw [if_neg hother, Nat.add_zero] at hcounted
      exact (h.tended other later hlater hkind).congr rfl rfl rfl rfl Iff.rfl hsame hcounted
        rfl id
  · cases hstage
    exact ⟨Nat.le_refl _, Nat.le_add_right _ _⟩

/-- A guest gives its trial back, and the last one takes it out and finishes it. -/
theorem Kept.expire (h : turnstile.Kept) {peer : Endpoint} {since : Instant}
    (hguest : turnstile.guests[place]? = some ⟨peer, serial, .lingering since⟩)
    (hdue : since + Server.lingerTime ≤ turnstile.now) :
    (turnstile.move (turnstile.registry.release serial).2 place
      ⟨peer, serial, .left since⟩).Kept := by
  obtain ⟨trial, htrial, hkind, haddress, hpos, hrunning, hfind⟩ :=
    h.of_holds (List.mem_of_getElem? hguest) rfl
  change turnstile.registry.trial? serial = some trial at htrial
  change 0 < turnstile.holders serial at hpos
  have hbefore := h.tended serial trial htrial hkind
  have hregistered :
      turnstile.registry.find? trial.peer.address trial.measurement = some serial := by
    rw [haddress, hkind]
    exact hfind
  refine h.move ⟨peer, serial, .left since⟩ hguest rfl rfl
    (Registry.evolves_release h.sound serial).sound
    (carries_of_continues (turnstile.registry.continues_release serial))
    (fun other later hlater hkind => ?_) (fun _ => ⟨by simp, fun hstage => ?_⟩)
  · have hholders := holders_move_add ⟨peer, serial, .left since⟩ hguest rfl
      (turnstile.registry.release serial).2 other
    have hcounted := Nat.add_right_cancel (countedFor_move_add ⟨peer, serial, .left since⟩ hguest
      rfl (turnstile.registry.release serial).2 other)
    by_cases hother : other = serial
    · subst hother
      have hreferences := hbefore.references_eq
      simp only [Guest.holds, true_and, Bool.false_eq_true, if_true, if_false, Nat.add_zero]
        at hholders
      rw [← hholders] at hreferences
      have hclosed : other ∉ turnstile.closed := fun hmem =>
        absurd (hbefore.closed hmem).1 (by simp [hrunning])
      rcases Registry.release_of_registered h.sound htrial hregistered with
          ⟨hshared, hafter, hstays⟩ | ⟨hlast, hafter, hgone⟩
      -- others hold the trial: it stays registered and goes on
      · rw [hafter] at hlater
        obtain rfl := Option.some.inj hlater
        have hleft := Nat.lt_of_succ_lt_succ (hreferences ▸ hshared)
        exact ⟨hbefore.reducer_eq, congrArg (· - 1) hreferences,
          iff_of_true (hkind ▸ hstays) hleft,
          iff_of_false (by simp [Trial.release, hrunning]) (Nat.ne_of_gt hleft),
          hbefore.samples, hcounted ▸ hbefore.balance, fun hmem => absurd hmem hclosed⟩
      -- this was the last one: the trial is out and finished
      · rw [hafter] at hlater
        obtain rfl := Option.some.inj hlater
        have hnobody := Nat.le_zero.mp (Nat.le_of_succ_le_succ (hreferences ▸ hlast))
        have hfree : (turnstile.registry.release other).2.find? trial.peer.address
            .tcpConnectionRate = none := hkind ▸ hgone
        exact ⟨hbefore.reducer_eq, congrArg (· - 1) hreferences,
          iff_of_false (fun hfound => nomatch hfree.symm.trans hfound)
            (Nat.not_lt.mpr (Nat.le_of_eq hnobody)),
          iff_of_true rfl hnobody, hbefore.samples, hcounted ▸ hbefore.balance,
          fun hmem => absurd hmem hclosed⟩
    -- another trial has the guests and the key that it had
    · rw [Registry.trial?_release_of_ne hother] at hlater
      rw [if_neg fun h => hother h.1.symm, if_neg fun h => hother h.1.symm] at hholders
      exact (h.tended other later hlater hkind).congr rfl rfl rfl rfl
        (Registry.find?_release_iff_of_ne h.sound hother _ _) hholders hcounted rfl id
  · cases hstage
    exact hdue

end Guests

/-! ## Newcomers -/

/-- A trial that does not exist yet has no guests and has published nothing. -/
theorem Kept.unused (h : turnstile.Kept) (hnone : turnstile.registry.trial? serial = none) :
    turnstile.holders serial = 0 ∧ turnstile.countedFor serial = 0 ∧
      turnstile.publishedBy serial = 0 ∧ turnstile.lostBy serial = 0 ∧
      serial ∉ turnstile.closed := by
  have hguests : ∀ guest ∈ turnstile.guests, guest.serial ≠ serial := by
    rintro guest hguest rfl
    obtain ⟨trial, htrial, -⟩ := h.guest guest hguest
    rw [hnone] at htrial
    contradiction
  have hsilent : serial ∉ turnstile.mentioned := by
    intro hmem
    obtain ⟨trial, htrial, -⟩ := h.mentioned serial hmem
    rw [hnone] at htrial
    contradiction
  simp only [Turnstile.mentioned, List.mem_append, List.mem_map, not_or, not_exists,
    not_and] at hsilent
  obtain ⟨⟨hpublished, hlost⟩, hclosed⟩ := hsilent
  refine ⟨?_, ?_, ?_, ?_, hclosed⟩
  · exact List.countP_eq_zero.mpr fun guest hguest => by simp [hguests guest hguest]
  · exact List.countP_eq_zero.mpr fun guest hguest => by simp [hguests guest hguest]
  · refine List.sum_eq_zero fun amount hamount => ?_
    obtain ⟨entry, hentry, rfl⟩ := List.mem_map.mp hamount
    exact if_neg (hpublished entry hentry)
  · refine List.sum_eq_zero fun amount hamount => ?_
    obtain ⟨entry, hentry, rfl⟩ := List.mem_map.mp hamount
    exact if_neg (hlost entry hentry)

section Newcomers

variable (turnstile) (peer : Endpoint) (wall : Instant)

theorem holders_arrive (other : Serial) :
    (turnstile.step (.arrive peer wall)).holders other = turnstile.holders other +
      if (turnstile.created peer wall).1.1 = other then 1 else 0 := by
  rw [holders, step, List.countP_append, List.countP_singleton]
  simp [holders, Guest.holds]

theorem countedFor_arrive (other : Serial) :
    (turnstile.step (.arrive peer wall)).countedFor other = turnstile.countedFor other := by
  rw [countedFor, step, List.countP_append, List.countP_singleton]
  simp [countedFor, Guest.isCounted, Guest.since?]

variable {turnstile}

/-- A guest shares the trial that others of its address hold. -/
theorem Kept.tended_of_found (h : turnstile.Kept) {found other : Serial} {later : Trial}
    (hfound : turnstile.registry.find? peer.address .tcpConnectionRate = some found)
    (hlater : (turnstile.step (.arrive peer wall)).registry.trial? other = some later)
    (hkind : later.measurement = .tcpConnectionRate) :
    (turnstile.step (.arrive peer wall)).Tended other later := by
  have hcreated : turnstile.created peer wall =
      ((found, false), turnstile.registry.change found Trial.acquire) :=
    Registry.createOrGet_of_find _ _ _ _ _ _ hfound
  have hregistry : (turnstile.step (.arrive peer wall)).registry =
      turnstile.registry.change found Trial.acquire := congrArg Prod.snd hcreated
  have hholders := turnstile.holders_arrive peer wall other
  have hcounted := turnstile.countedFor_arrive peer wall other
  rw [hcreated] at hholders
  rw [hregistry, Registry.trial?_change] at hlater
  split at hlater
  case isTrue hother =>
    subst hother
    obtain ⟨old, hold, rfl⟩ := Option.map_eq_some_iff.mp hlater
    have hbefore := h.tended found old hold hkind
    obtain ⟨trial, htrial, haddress, -⟩ := h.sound.trial _ _ _ hfound
    rw [hold] at htrial
    obtain rfl := Option.some.inj htrial
    -- what is registered has a holder, so the trial is running
    have hpos : 0 < turnstile.holders found := hbefore.registered_iff.mp (haddress ▸ hfound)
    have hrunning : ¬ old.isDone = true := by
      rw [hbefore.isDone_iff]
      exact Nat.ne_of_gt hpos
    rw [if_pos rfl] at hholders
    refine ⟨hbefore.reducer_eq, ?_, iff_of_true ?_ ?_, iff_of_false hrunning ?_, hbefore.samples,
      hcounted ▸ hbefore.balance, hbefore.closed⟩
    · rw [hholders, ← hbefore.references_eq]
      rfl
    · rw [hregistry, Registry.find?_change]
      exact haddress ▸ hfound
    · rw [hholders]
      exact Nat.succ_pos _
    · rw [hholders]
      exact Nat.succ_ne_zero _
  case isFalse hother =>
    rw [if_neg hother, Nat.add_zero] at hholders
    exact (h.tended other later hlater hkind).congr rfl rfl rfl rfl
      (by rw [hregistry, Registry.find?_change]) hholders hcounted rfl id

/-- A guest that finds no trial of its address is the only one of a new trial. -/
theorem Kept.tended_of_free (h : turnstile.Kept) {other : Serial} {later : Trial}
    (hfree : turnstile.registry.find? peer.address .tcpConnectionRate = none)
    (hlater : (turnstile.step (.arrive peer wall)).registry.trial? other = some later)
    (hkind : later.measurement = .tcpConnectionRate) :
    (turnstile.step (.arrive peer wall)).Tended other later := by
  have hnew : (turnstile.created peer wall).1.1 = turnstile.registry.trials.length :=
    congrArg (·.1.1) (Registry.createOrGet_of_free _ _ _ _ _ _ hfree)
  have hfind : ∀ address, (turnstile.step (.arrive peer wall)).registry.find? address
      .tcpConnectionRate = if address = peer.address then some turnstile.registry.trials.length
        else turnstile.registry.find? address .tcpConnectionRate := by
    intro address
    have hkeys := turnstile.registry.find?_createOrGet wall peer .tcpConnectionRate {}
      (Reducer.ofKind? .connectionRate) turnstile.interval address .tcpConnectionRate
    simp only [and_true] at hkeys
    exact hnew ▸ hkeys
  have hholders := turnstile.holders_arrive peer wall other
  have hcounted := turnstile.countedFor_arrive peer wall other
  rw [hnew] at hholders
  change (turnstile.created peer wall).2.trial? other = some later at hlater
  rw [created, Registry.trial?_createOrGet_of_free _ _ _ _ _ _ hfree] at hlater
  split at hlater
  case isTrue hother =>
    subst hother
    obtain rfl := Option.some.inj hlater
    -- the number is new, so it has no guests and no past
    have hnone : turnstile.registry.trial? turnstile.registry.trials.length = none :=
      List.getElem?_eq_none (Nat.le_refl _)
    obtain ⟨hnobody, huncounted, hpublished, hlost, hclosed⟩ := h.unused hnone
    rw [if_pos rfl, hnobody] at hholders
    refine ⟨rfl, hholders.symm, iff_of_true ?_ ?_, iff_of_false nofun ?_, nofun, ?_,
      fun hmem => absurd hmem hclosed⟩
    · rw [hfind]
      exact if_pos rfl
    · rw [hholders]
      exact Nat.one_pos
    · rw [hholders]
      exact Nat.one_ne_zero
    · change turnstile.publishedBy _ + turnstile.lostBy _ + 0 = _
      rw [hcounted, huncounted, hpublished, hlost]
  case isFalse hother =>
    rw [if_neg (Ne.symm hother), Nat.add_zero] at hholders
    refine (h.tended other later hlater hkind).congr rfl rfl rfl rfl ?_ hholders hcounted rfl id
    rw [hfind]
    split
    case isTrue haddress =>
      rw [haddress, hfree]
      exact iff_of_false (fun hsame => hother (Option.some.inj hsame).symm) nofun
    case isFalse => exact Iff.rfl

theorem Kept.arrive (h : turnstile.Kept) : (turnstile.step (.arrive peer wall)).Kept := by
  have hsound : (turnstile.step (.arrive peer wall)).registry.Sound :=
    (Registry.evolves_createOrGet _ _ _ _ _ _ h.sound).sound
  have hcarries : Carries turnstile.registry (turnstile.step (.arrive peer wall)).registry :=
    carries_of_continues (turnstile.registry.continues_createOrGet _ _ _ _ _ _)
  have hfind : (turnstile.step (.arrive peer wall)).registry.find? peer.address .tcpConnectionRate =
      some (turnstile.created peer wall).1.1 :=
    (Registry.find?_createOrGet _ _ _ _ _ _ _ _).trans (if_pos ⟨rfl, rfl⟩)
  refine ⟨hsound, fun other later hlater hkind => ?_, fun guest hguest => ?_,
    fun serial hmem => h.mentioned_of_carries hcarries hmem, fun guest hguest => ?_, h.overflow⟩
  · cases hbefore : turnstile.registry.find? peer.address .tcpConnectionRate with
    | some found => exact h.tended_of_found peer wall hbefore hlater hkind
    | none => exact h.tended_of_free peer wall hbefore hlater hkind
  · rcases List.mem_append.mp hguest with hold | hnew
    · exact h.guest_of_carries hcarries hold
    · obtain rfl := List.mem_singleton.mp hnew
      obtain ⟨trial, htrial, haddress, hkind⟩ := hsound.trial _ _ _ hfind
      exact ⟨trial, htrial, hkind, haddress⟩
  · rcases List.mem_append.mp hguest with hold | hnew
    · exact h.timely guest hold
    · obtain rfl := List.mem_singleton.mp hnew
      simp

end Newcomers

/-! ## Runs -/

theorem Kept.step (h : turnstile.Kept) (event : Event) : (turnstile.step event).Kept := by
  cases event with
  | arrive peer wall => exact h.arrive peer wall
  | add place =>
      unfold Turnstile.step
      dsimp only
      split
      case h_1 hguest => exact h.add hguest
      case h_2 => exact h
  | expire place =>
      unfold Turnstile.step
      dsimp only
      split
      case h_1 hguest =>
        split
        case isTrue hdue => exact h.expire hguest hdue
        case isFalse => exact h
      case h_2 => exact h
  | publish serial wall =>
      unfold Turnstile.step
      dsimp only
      split
      case h_1 => exact h
      case h_2 htrial =>
        split
        case isTrue hkind => exact h.publish htrial hkind wall
        case isFalse => exact h
  | serve serial act =>
      unfold Turnstile.step
      dsimp only
      split
      case isTrue hquiet => exact h.serve hquiet serial
      case isFalse => exact h
  | wait nanos =>
      unfold Turnstile.step
      dsimp only
      split
      case isTrue hdue => exact h.wait hdue
      case isFalse => exact h
  | aside event =>
      unfold Turnstile.step
      dsimp only
      split
      case isTrue hspares => exact h.aside (Registry.spared_step h.sound (by decide) hspares [])
      case isFalse => exact h

theorem Kept.run (h : turnstile.Kept) (events : List Event) : (turnstile.run events).Kept := by
  induction events generalizing turnstile with
  | nil => exact h
  | cons event events ih => exact ih (h.step event)

end Turnstile

end LinkMeter
