import LinkMeter.Proofs.Server.Intake
import LinkMeter.Proofs.Server.Lingering

/-!
# Every connection is counted

What the counting trials of an address publish and buffer adds up to the
connections that were counted from it, and one of them is registered exactly as
long as a connection was counted less than two seconds ago.  When the last of
them is over and has published, every connection has been published
(`Turnstile.counted_run`).

The invariant `Turnstile.Kept` speaks of one trial; the sums over all trials of
an address come from it because the trials share the guests of the address among
them (`Kept.sum_countedFor`).  When a trial is registered is a matter of its
guests and the clock (`Kept.find?_iff`), and of the instants at which a server
counted its connections (`Mirrors.exists_of_find?`).
-/

namespace LinkMeter

open Pacing (Instant)

theorem countP_eq_sum {α : Type} (entries : List α) (test : α → Bool) :
    entries.countP test = (entries.map fun entry => if test entry then 1 else 0).sum := by
  induction entries with
  | nil => rfl
  | cons entry entries ih =>
      rw [List.countP_cons, List.map_cons, List.sum_cons, ih, Nat.add_comm]

namespace Turnstile

namespace Guest

/-- It was counted less than two seconds ago. -/
def IsRecent (guest : Guest) (now : Instant) : Prop :=
  ∃ since, guest.since? = some since ∧ now < since + 2_000_000_000

/-- It takes one of its steps at this instant: it has asked for the trial and is about to be
counted, or its timer is due and about to go off. -/
def IsBusy (guest : Guest) (now : Instant) : Prop :=
  guest.stage = .opened ∨ ∃ since, guest.stage = .lingering since ∧ now = since + 2_000_000_000

def hasLeft (guest : Guest) : Bool :=
  match guest.stage with
  | .left _ => true
  | .opened | .lingering _ => false

end Guest

/-! ## The trials of an address -/

/-- All counting trials that were ever opened for an address. -/
def openedFor (turnstile : Turnstile) (address : Address) : List Serial :=
  (List.range turnstile.registry.trials.length).filter fun serial =>
    (turnstile.registry.trial? serial).any fun trial =>
      trial.measurement = .tcpConnectionRate ∧ trial.peer.address = address

variable {turnstile : Turnstile} {address : Address} {serial : Serial}

theorem mem_openedFor :
    serial ∈ turnstile.openedFor address ↔ ∃ trial, turnstile.registry.trial? serial = some trial ∧
      trial.measurement = .tcpConnectionRate ∧ trial.peer.address = address := by
  rw [openedFor, Registry.mem_filter_trial?]
  simp only [decide_eq_true_eq]

theorem nodup_openedFor (turnstile : Turnstile) (address : Address) :
    (turnstile.openedFor address).Nodup :=
  List.nodup_range.filter _

/-- A guest is counted by a trial of its address. -/
theorem Kept.mem_openedFor_iff (h : turnstile.Kept) {guest : Guest}
    (hguest : guest ∈ turnstile.guests) :
    guest.serial ∈ turnstile.openedFor address ↔ guest.peer.address = address := by
  obtain ⟨trial, htrial, hkind, haddress⟩ := h.guest guest hguest
  rw [mem_openedFor]
  constructor
  · rintro ⟨found, hfound, -, hsame⟩
    rw [htrial] at hfound
    obtain rfl := Option.some.inj hfound
    exact haddress.symm.trans hsame
  · exact fun hsame => ⟨trial, htrial, hkind, haddress.trans hsame⟩

theorem Kept.sum_countedFor (h : turnstile.Kept) (address : Address) :
    ((turnstile.openedFor address).map turnstile.countedFor).sum =
      turnstile.countedFrom address := by
  have hone : ∀ serial, turnstile.countedFor serial = (turnstile.guests.map fun guest =>
      if guest.serial = serial then if guest.isCounted then 1 else 0 else 0).sum := by
    intro serial
    rw [countedFor, countP_eq_sum]
    simp only [Bool.and_eq_true, decide_eq_true_eq, ite_and]
  have hall : turnstile.countedFrom address = (turnstile.guests.map fun guest =>
      if guest.peer.address = address then if guest.isCounted then 1 else 0 else 0).sum := by
    rw [countedFrom, countP_eq_sum]
    simp only [Bool.and_eq_true, decide_eq_true_eq, ite_and]
  rw [funext hone, hall]
  refine (sum_fibers (turnstile.nodup_openedFor address) turnstile.guests Guest.serial
    fun guest => if guest.isCounted then 1 else 0).trans ?_
  exact congrArg List.sum (List.map_congr_left fun guest hguest =>
    if_congr (h.mem_openedFor_iff hguest) rfl rfl)

/-- The counting trials of an address account for every connection that came from it. -/
theorem Kept.sum_openedFor (h : turnstile.Kept) (address : Address) :
    ((turnstile.openedFor address).map fun serial =>
      turnstile.publishedBy serial + turnstile.lostBy serial +
        Quantity.connections.total (turnstile.registry.buffered serial)).sum =
      turnstile.countedFrom address := by
  rw [← h.sum_countedFor]
  refine congrArg List.sum (List.map_congr_left fun serial hserial => ?_)
  obtain ⟨trial, htrial, hkind, -⟩ := mem_openedFor.mp hserial
  rw [Registry.buffered_of_trial? htrial]
  exact (h.tended serial trial htrial hkind).balance

/-- Nothing is lost as long as the connections from an address fit into a count. -/
theorem Kept.lostBy_eq_zero (h : turnstile.Kept)
    (hfits : turnstile.countedFrom address < UInt64.size)
    (hserial : serial ∈ turnstile.openedFor address) : turnstile.lostBy serial = 0 := by
  obtain ⟨trial, htrial, hkind, -⟩ := mem_openedFor.mp hserial
  have hsmall : turnstile.lostBy serial < UInt64.size :=
    calc turnstile.lostBy serial
        ≤ turnstile.countedFor serial := by
          rw [← (h.tended serial trial htrial hkind).balance]
          omega
      _ ≤ turnstile.countedFrom address := by
          refine List.countP_mono_left fun guest hguest hcounted => ?_
          simp only [Bool.and_eq_true, decide_eq_true_eq] at hcounted ⊢
          obtain ⟨rfl, hcounted⟩ := hcounted
          exact ⟨(h.mem_openedFor_iff hguest).mp hserial, hcounted⟩
      _ < UInt64.size := hfits
  refine List.sum_eq_zero fun amount hamount => ?_
  have hle : amount ≤ turnstile.lostBy serial := List.le_sum_of_mem hamount
  obtain ⟨entry, hentry, rfl⟩ := List.mem_map.mp hamount
  split
  case isFalse => rfl
  case isTrue hsame =>
    rw [if_pos hsame] at hle
    exact absurd hsmall (Nat.not_lt.mpr ((h.overflow entry hentry).trans hle))

/-! ## When a trial is registered -/

/-- The guests that hold a trial are those that were counted less than two seconds ago and those
that are busy. -/
theorem Kept.holds_iff (h : turnstile.Kept) {guest : Guest} (hguest : guest ∈ turnstile.guests) :
    guest.holds = true ↔ guest.IsRecent turnstile.now ∨ guest.IsBusy turnstile.now := by
  have htimely := h.timely guest hguest
  rw [Server.lingerTime_eq] at htimely
  obtain ⟨peer, number, stage⟩ := guest
  cases stage with
  | opened => exact iff_of_true rfl (.inr (.inl rfl))
  | lingering since =>
      -- its timer is not overdue
      refine iff_of_true rfl ?_
      rcases Nat.lt_or_eq_of_le ((htimely since).1 rfl).2 with hbefore | hnow
      · exact .inl ⟨since, rfl, hbefore⟩
      · exact .inr (.inr ⟨since, rfl, hnow⟩)
  | left since =>
      -- its two seconds are over
      refine iff_of_false nofun ?_
      rintro (⟨instant, hsince, hbefore⟩ | hopened | ⟨instant, hlingers, -⟩)
      · obtain rfl := Option.some.inj hsince
        exact absurd hbefore (Nat.not_lt.mpr ((htimely since).2 rfl))
      · cases hopened
      · cases hlingers

/-- A counting trial is registered for an address as long as one of its guests was counted less than
two seconds ago or is busy. -/
theorem Kept.find?_iff (h : turnstile.Kept) :
    turnstile.registry.find? address .tcpConnectionRate = some serial ↔
      ∃ guest ∈ turnstile.guests, guest.peer.address = address ∧ guest.serial = serial ∧
        (guest.IsRecent turnstile.now ∨ guest.IsBusy turnstile.now) := by
  constructor
  · intro hfind
    obtain ⟨trial, htrial, rfl, hkind⟩ := h.sound.trial _ _ _ hfind
    have hheld := (h.tended serial trial htrial hkind).registered_iff.mp hfind
    obtain ⟨guest, hguest, hholds⟩ := List.countP_pos_iff.mp hheld
    simp only [Bool.and_eq_true, decide_eq_true_eq] at hholds
    obtain ⟨rfl, hholds⟩ := hholds
    obtain ⟨found, hfound, -, haddress⟩ := h.guest guest hguest
    rw [htrial] at hfound
    obtain rfl := Option.some.inj hfound
    exact ⟨guest, hguest, haddress.symm, rfl, (h.holds_iff hguest).mp hholds⟩
  · rintro ⟨guest, hguest, rfl, rfl, hnow⟩
    obtain ⟨-, -, -, -, -, -, hfind⟩ := h.of_holds hguest ((h.holds_iff hguest).mpr hnow)
    exact hfind

/-! ## When a server has one registered -/

section Servers

variable {arrivals : Arrivals} {server : Server}

/-- A connection is a guest that was counted when the connection was. -/
theorem Mirrors.exists_guest (h : turnstile.Mirrors arrivals server) {peer : Endpoint}
    {since : Instant} (harrival : (peer, since) ∈ arrivals) :
    ∃ guest ∈ turnstile.guests, guest.peer = peer ∧ guest.since? = some since := by
  have hcounted : (peer, some since) ∈
      turnstile.guests.map fun guest => (guest.peer, guest.since?) := by
    rw [h.guests_eq]
    exact List.mem_map_of_mem harrival
  obtain ⟨guest, hguest, hsame⟩ := List.mem_map.mp hcounted
  exact ⟨guest, hguest, congrArg Prod.fst hsame, congrArg Prod.snd hsame⟩

/-- A guest is a connection that was counted when the guest was. -/
theorem Mirrors.exists_arrival (h : turnstile.Mirrors arrivals server) {guest : Guest}
    (hguest : guest ∈ turnstile.guests) :
    ∃ since, (guest.peer, since) ∈ arrivals ∧ guest.since? = some since := by
  have hcounted : (guest.peer, guest.since?) ∈
      arrivals.map fun arrival => (arrival.1, some arrival.2) := by
    rw [← h.guests_eq]
    exact List.mem_map_of_mem hguest
  obtain ⟨⟨peer, since⟩, harrival, hsame⟩ := List.mem_map.mp hcounted
  obtain ⟨rfl, hsince⟩ := Prod.mk.inj hsame
  exact ⟨since, harrival, hsince.symm⟩

theorem Mirrors.countedFrom_eq (h : turnstile.Mirrors arrivals server) (address : Address) :
    turnstile.countedFrom address =
      arrivals.countP fun arrival => arrival.1.address = address := by
  have hpairs : turnstile.countedFrom address =
      (turnstile.guests.map fun guest => (guest.peer, guest.since?)).countP fun pair =>
        decide (pair.1.address = address) && pair.2.isSome := by
    rw [List.countP_map]
    rfl
  rw [hpairs, h.guests_eq, List.countP_map]
  exact congrArg (List.countP · arrivals) (funext fun _ => Bool.and_true _)

/-- A server has a counting trial registered while it counted a connection from the address less
than two seconds ago. -/
theorem Mirrors.find?_of_recent (h : turnstile.Mirrors arrivals server) {peer : Endpoint}
    {since : Instant} (harrival : (peer, since) ∈ arrivals)
    (hrecent : server.now < since + 2_000_000_000) :
    (server.registry.find? peer.address .tcpConnectionRate).isSome = true := by
  obtain ⟨guest, hguest, rfl, hsince⟩ := h.exists_guest harrival
  have hnow : guest.IsRecent turnstile.now := ⟨since, hsince, h.now_eq ▸ hrecent⟩
  rw [← h.registry_eq, h.kept.find?_iff.mpr ⟨guest, hguest, rfl, rfl, .inl hnow⟩]
  rfl

/-- A server has a counting trial registered only while it counted a connection from the address
less than two seconds ago, or the alarm of one is about to go off. -/
theorem Mirrors.exists_of_find? (h : turnstile.Mirrors arrivals server)
    (hfind : server.registry.find? address .tcpConnectionRate = some serial) :
    ∃ peer since, (peer, since) ∈ arrivals ∧ peer.address = address ∧
      (server.now < since + 2_000_000_000 ∨
        server.now = since + 2_000_000_000 ∧ ⟨server.now, .linger serial⟩ ∈ server.alarms) := by
  rw [← h.registry_eq, h.kept.find?_iff] at hfind
  obtain ⟨guest, hguest, rfl, rfl, hnow⟩ := hfind
  obtain ⟨since, harrival, hsince⟩ := h.exists_arrival hguest
  refine ⟨guest.peer, since, harrival, rfl, ?_⟩
  rw [h.now_eq] at hnow
  rcases hnow with ⟨instant, hcounted, hbefore⟩ | hopened | ⟨instant, hlingers, hnow⟩
  · rw [hsince] at hcounted
    obtain rfl := Option.some.inj hcounted
    exact .inl hbefore
  · -- no connection of a server is left between its two steps
    rw [Guest.since?, hopened] at hsince
    cases hsince
  · rw [Guest.since?, hlingers] at hsince
    obtain rfl := Option.some.inj hsince
    have hdue : guest.due? = some server.now := by
      rw [Guest.due?, hlingers, Server.lingerTime_eq, hnow]
    refine .inr ⟨hnow, List.count_pos_iff.mp ?_⟩
    rw [h.lingers_eq, List.countP_pos_iff]
    exact ⟨guest, hguest, by simp [hdue]⟩

/-- A connection whose handshake fails is counted. -/
theorem Reached.serve {interval : ℕ} (h : Reached interval arrivals server) (peer : Endpoint)
    (chance : Transfer.Chance) {source : Wire.Source} {sink : Wire.Sink} {failure : Failure}
    (hfailed : (Wire.serverHandshake source sink).1 = .failed failure) :
    Reached interval (arrivals ++ [(peer, server.now)])
      (server.serve peer chance source sink).2 := by
  rw [Server.serve]
  rcases hhandshake : Wire.serverHandshake source sink with ⟨handshake, rest, after⟩
  rw [hhandshake] at hfailed
  obtain rfl : handshake = .failed failure := hfailed
  exact h.connection peer

/-- After some time has passed a server has a counting trial registered exactly if it counted a
connection from the address less than two seconds before. -/
theorem Reached.find?_advance {interval : ℕ} (h : Reached interval arrivals server) (nanos : ℕ)
    (address : Address) :
    ((server.advance nanos).registry.find? address .tcpConnectionRate).isSome = true ↔
      ∃ peer since, (peer, since) ∈ arrivals ∧ peer.address = address ∧
        server.now + nanos < since + 2_000_000_000 := by
  have helapses := h.staffed.elapses_advance h.le_due nanos
  have hnow : (server.advance nanos).now = server.now + nanos := helapses.now_eq
  obtain ⟨events, hmirrors⟩ := (h.advance nanos).follows
  rw [← hnow]
  constructor
  · intro hsome
    obtain ⟨serial, hfind⟩ := Option.isSome_iff_exists.mp hsome
    obtain ⟨peer, since, harrival, haddress, hrecent | ⟨-, halarm⟩⟩ := hmirrors.exists_of_find? hfind
    · exact ⟨peer, since, harrival, haddress, hrecent⟩
    · -- an alarm for this instant has gone off by now
      have hlater : server.now + nanos < (server.advance nanos).now := helapses.lt_due _ halarm
      rw [hnow] at hlater
      exact absurd hlater (Nat.lt_irrefl _)
  · rintro ⟨peer, since, harrival, rfl, hrecent⟩
    exact hmirrors.find?_of_recent harrival hrecent

end Servers

/-! ## When all have left -/

theorem Kept.isDone_of_left (h : turnstile.Kept)
    (hleft : ∀ guest ∈ turnstile.guests, guest.peer.address = address → guest.hasLeft = true)
    (hserial : serial ∈ turnstile.openedFor address) {trial : Trial}
    (htrial : turnstile.registry.trial? serial = some trial) : trial.isDone = true := by
  obtain ⟨found, hfound, hkind, haddress⟩ := mem_openedFor.mp hserial
  rw [htrial] at hfound
  obtain rfl := Option.some.inj hfound
  rw [(h.tended serial trial htrial hkind).isDone_iff]
  refine List.countP_eq_zero.mpr fun guest hguest hholds => ?_
  simp only [Bool.and_eq_true, decide_eq_true_eq] at hholds
  obtain ⟨rfl, hholds⟩ := hholds
  have hgone := hleft guest hguest ((h.mem_openedFor_iff hguest).mp hserial)
  obtain ⟨peer, number, stage⟩ := guest
  cases stage with
  | opened | lingering => exact nomatch hgone
  | left => exact nomatch hholds

theorem Kept.sum_of_left (h : turnstile.Kept)
    (hleft : ∀ guest ∈ turnstile.guests, guest.peer.address = address → guest.hasLeft = true)
    (hclosed : ∀ serial ∈ turnstile.openedFor address, serial ∈ turnstile.closed) :
    ((turnstile.openedFor address).map fun serial =>
      turnstile.publishedBy serial + turnstile.lostBy serial).sum =
      turnstile.guests.countP fun guest => guest.peer.address = address := by
  have hcounted : turnstile.countedFrom address =
      turnstile.guests.countP fun guest => guest.peer.address = address := by
    refine List.countP_congr fun guest hguest => ?_
    simp only [Bool.and_eq_true, decide_eq_true_eq, and_iff_left_iff_imp]
    intro haddress
    have hgone := hleft guest hguest haddress
    obtain ⟨peer, number, stage⟩ := guest
    cases stage with
    | opened => exact nomatch hgone
    | lingering | left => rfl
  rw [← hcounted, ← h.sum_openedFor]
  refine congrArg List.sum (List.map_congr_left fun serial hserial => ?_)
  obtain ⟨trial, htrial, hkind, -⟩ := mem_openedFor.mp hserial
  have hempty := ((h.tended serial trial htrial hkind).closed (hclosed serial hserial)).2
  rw [Registry.buffered_of_trial? htrial, hempty, Quantity.total_nil, Nat.add_zero]

/-- Connections are counted in any order and at any times.  What the counting trials of an address
published and buffer is what was counted from the address, and what did not fit into a count.
Nobody is added to a finished trial.  A trial is registered exactly as long as one of its guests was
counted less than two seconds ago or takes one of its steps at this very instant.  When all have
left, their trials are finished, and after these have published once more every connection was
published.

A server that counted some connections, each at its instant, is at such a point, and it counts every
connection whose handshake fails.  It has a trial registered for an address while it counted a
connection from there less than two seconds ago; two seconds later it still has one only until the
alarm that is set for this instant has gone off.  When time passes on it, all alarms go off that are
due by then, so afterwards it has one registered exactly if it counted a connection less than two
seconds before. -/
theorem counted_run (interval : ℕ) :
    (∀ (events : List Event) (address : Address),
      let turnstile := run { interval } events
      (((turnstile.openedFor address).map fun serial =>
          turnstile.publishedBy serial + turnstile.lostBy serial +
            Quantity.connections.total (turnstile.registry.buffered serial)).sum =
          turnstile.countedFrom address ∧
        (∀ entry ∈ turnstile.lost, UInt64.size ≤ Quantity.connections.total entry.2) ∧
        (turnstile.countedFrom address < UInt64.size →
          ∀ serial ∈ turnstile.openedFor address, turnstile.lostBy serial = 0)) ∧
      (∀ guest ∈ turnstile.guests, guest.stage = .opened →
        ∃ trial, turnstile.registry.trial? guest.serial = some trial ∧ trial.isDone = false) ∧
      (∀ serial, turnstile.registry.find? address .tcpConnectionRate = some serial ↔
        ∃ guest ∈ turnstile.guests, guest.peer.address = address ∧ guest.serial = serial ∧
          (guest.IsRecent turnstile.now ∨ guest.IsBusy turnstile.now)) ∧
      ((∀ guest ∈ turnstile.guests, guest.peer.address = address → guest.hasLeft = true) →
        (∀ serial ∈ turnstile.openedFor address, ∀ trial,
          turnstile.registry.trial? serial = some trial → trial.isDone = true) ∧
        ((∀ serial ∈ turnstile.openedFor address, serial ∈ turnstile.closed) →
          ((turnstile.openedFor address).map fun serial =>
            turnstile.publishedBy serial + turnstile.lostBy serial).sum =
            turnstile.guests.countP fun guest => guest.peer.address = address))) ∧
    ∀ arrivals server, Reached interval arrivals server →
      (∃ events, (run { interval } events).Mirrors arrivals server ∧
        ∀ address, (run { interval } events).countedFrom address =
          arrivals.countP fun arrival => arrival.1.address = address) ∧
      (∀ peer since, (peer, since) ∈ arrivals → server.now < since + 2_000_000_000 →
        (server.registry.find? peer.address .tcpConnectionRate).isSome = true) ∧
      (∀ address serial, server.registry.find? address .tcpConnectionRate = some serial →
        ∃ peer since, (peer, since) ∈ arrivals ∧ peer.address = address ∧
          (server.now < since + 2_000_000_000 ∨
            server.now = since + 2_000_000_000 ∧
              ⟨server.now, .linger serial⟩ ∈ server.alarms)) ∧
      (∀ peer chance source sink failure,
        (Wire.serverHandshake source sink).1 = .failed failure →
        Reached interval (arrivals ++ [(peer, server.now)])
          (server.serve peer chance source sink).2) ∧
      ∀ nanos, Reached interval arrivals (server.advance nanos) ∧
        (server.advance nanos).now = server.now + nanos ∧
        ∀ address,
          ((server.advance nanos).registry.find? address .tcpConnectionRate).isSome = true ↔
            ∃ peer since, (peer, since) ∈ arrivals ∧ peer.address = address ∧
              server.now + nanos < since + 2_000_000_000 := by
  refine ⟨fun events address => ?_, fun arrivals server hreached => ?_⟩
  · have hkept := (kept_start interval).run events
    refine ⟨⟨hkept.sum_openedFor address, hkept.overflow,
        fun hfits _ => hkept.lostBy_eq_zero hfits⟩,
      fun guest hguest hopened => ?_, fun _ => hkept.find?_iff,
      fun hleft => ⟨fun _ hserial _ => hkept.isDone_of_left hleft hserial,
        hkept.sum_of_left hleft⟩⟩
    obtain ⟨trial, htrial, -, -, -, hrunning, -⟩ :=
      hkept.of_holds hguest (by rw [Guest.holds, hopened])
    exact ⟨trial, htrial, hrunning⟩
  · obtain ⟨events, hmirrors⟩ := hreached.follows
    refine ⟨⟨events, hmirrors, hmirrors.countedFrom_eq⟩, fun _ _ => hmirrors.find?_of_recent,
      fun _ _ => hmirrors.exists_of_find?, fun peer chance _ _ _ => hreached.serve peer chance,
      fun nanos => ⟨hreached.advance nanos, ?_, hreached.find?_advance nanos⟩⟩
    exact (hreached.staffed.elapses_advance hreached.le_due nanos).now_eq

/-- The second connection comes before the first one leaves, and the third finds them gone.  A server
that counts two of them has their trial registered until two seconds after the second, and one that
sends nothing is counted like them. -/
theorem counted_run_three :
    let peer : Endpoint := ⟨.loopback, 40000, 0⟩
    let events : List Event :=
      [.arrive peer 0, .add 0, .wait 1_500_000_000, .publish 0 1_000_000_000,
        .arrive peer 1_500_000_000, .add 1, .wait 500_000_000, .expire 0,
        .wait 1_500_000_000, .expire 1, .publish 0 3_500_000_000,
        .arrive peer 3_500_000_000, .add 2, .wait 2_000_000_000, .expire 2,
        .publish 1 5_500_000_000]
    let turnstile := run { interval := 1_000_000_000 } events
    let counting := ({ interval := 1_000_000_000 } : Server).countConnection peer
    let server := ({ counting with now := 1_500_000_000 } : Server).countConnection peer
    (turnstile.openedFor .loopback = [0, 1] ∧ turnstile.published.length = 3 ∧
      ((turnstile.openedFor .loopback).map fun serial =>
        turnstile.publishedBy serial + turnstile.lostBy serial).sum = 3) ∧
      (∃ events, (run { interval := 1_000_000_000 } events).Mirrors
        [(peer, 0), (peer, 1_500_000_000)] server) ∧
      (server.registry.find? .loopback .tcpConnectionRate).isSome = true ∧
      server.alarms.map Alarm.due = [2_000_000_000, 3_500_000_000] ∧
      Reached 1_000_000_000 [(peer, 0), (peer, 1_500_000_000), (peer, 1_500_000_000)]
        (server.serve peer .still [] {}).2 ∧
      ((server.advance 1_900_000_000).registry.find? .loopback .tcpConnectionRate).isSome = true ∧
      ((server.advance 2_000_000_000).registry.find? .loopback .tcpConnectionRate).isSome =
        false := by
  intro peer events turnstile counting server
  obtain ⟨hruns, hservers⟩ := counted_run 1_000_000_000
  obtain ⟨-, -, -, hleft⟩ := hruns events .loopback
  obtain ⟨-, hsum⟩ := hleft (by decide +kernel)
  have hthree := hsum (by decide +kernel)
  have hreached : Reached 1_000_000_000 [(peer, 0), (peer, 1_500_000_000)] server :=
    ((Reached.start.connection peer).clock 1_500_000_000 counting.wall (by decide +kernel)
      (by decide +kernel)).connection peer
  obtain ⟨⟨later, hmirrors, -⟩, hrecent, -, hserve, hadvance⟩ := hservers _ _ hreached
  have hnow : server.now = 1_500_000_000 := by decide +kernel
  have hsilent := hserve peer .still [] {} _ rfl
  rw [hnow] at hsilent
  refine ⟨⟨by decide +kernel, by decide +kernel, hthree.trans ?_⟩, ⟨later, hmirrors⟩,
    hrecent peer 1_500_000_000 (by decide) (by decide +kernel), by decide +kernel, hsilent, ?_, ?_⟩
  · decide +kernel
  · refine ((hadvance 1_900_000_000).2.2 .loopback).mpr
      ⟨peer, 1_500_000_000, by decide, rfl, ?_⟩
    rw [hnow]
    decide
  · refine Bool.eq_false_iff.mpr fun hsome => ?_
    obtain ⟨other, since, harrival, -, hbefore⟩ := ((hadvance 2_000_000_000).2.2 .loopback).mp hsome
    have hsince : since ≤ 1_500_000_000 := by
      rcases List.mem_pair.mp harrival with hfirst | hsecond
      · rw [(Prod.mk.inj hfirst).2]
        exact Nat.zero_le _
      · rw [(Prod.mk.inj hsecond).2]
    rw [hnow] at hbefore
    exact absurd (Nat.add_le_add_right hsince 2_000_000_000) (Nat.not_le.mpr hbefore)

end Turnstile

end LinkMeter
