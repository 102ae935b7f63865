import LinkMeter.Proofs.Outcome.Account
import LinkMeter.Proofs.Registry.Buffers
import LinkMeter.Proofs.Server.Opening
import LinkMeter.Server.Connection
import Mathlib.Algebra.Order.BigOperators.Group.List
import Mathlib.Algebra.Order.Group.Nat

/-!
# What a server holds back of datagrams

Between a datagram and the account that tells it, a server holds it in the tally
of its address or in the buffer of the trial that the tally belongs to
(`Server.holds`).  Handing tallies over moves amounts from the one to the other
and neither loses nor makes any (`Server.Tidy.holds_flushTallies`), and counting
a datagram adds its amount for one trial, which is a trial of its address
(`Server.Tidy.countDatagram?_spec`).
-/

namespace LinkMeter

open Pacing (Instant)
open Transfer (Tally)

/-! ## Sums over association lists -/

section Association

variable {Key Value : Type} [DecidableEq Key]

theorem sum_map_replace {entries : List (Key × Value)} (hkeys : (entries.map (·.1)).Nodup)
    {key : Key} {old : Value} (hold : entries.lookup key = some old) (new : Value)
    (amount : Key × Value → ℕ) :
    ((entries.map fun entry => if entry.1 = key then (key, new) else entry).map amount).sum +
        amount (key, old) =
      (entries.map amount).sum + amount (key, new) := by
  induction entries with
  | nil => exact absurd hold (by simp)
  | cons entry rest ih =>
      obtain ⟨first, value⟩ := entry
      obtain ⟨hfirst, hrest⟩ := List.nodup_cons.1 hkeys
      simp only [List.map_cons, List.sum_cons]
      by_cases h : first = key
      · -- the key does not occur a second time, so nothing else is replaced
        subst h
        have hvalue : value = old := by simpa using hold
        have hothers : (rest.map fun entry => if entry.1 = first then (first, new) else entry) =
            rest := by
          refine (List.map_congr_left fun other hother => if_neg ?_).trans (List.map_id _)
          intro h
          subst h
          exact hfirst (List.mem_map.2 ⟨other, hother, rfl⟩)
        rw [hothers, if_pos rfl, hvalue]
        omega
      · rw [List.lookup_cons, beq_false_of_ne (Ne.symm h)] at hold
        have hothers := ih hrest hold
        rw [if_neg h]
        omega

end Association

namespace Server

/-! ## Tidy servers -/

/-- All trials of the server count datagrams, and every tally counts for a trial of its address. -/
structure Tidy (server : Server) : Prop where
  sound : server.registry.Sound
  kind : ∀ serial trial, server.registry.trial? serial = some trial →
    trial.measurement = .udpServer ∧ trial.reducer = some .server
  packets : ∀ serial, ∀ outcome ∈ server.registry.buffered serial, outcome.IsPackets
  nodup : (server.tallies.map (·.1)).Nodup
  counting : ∀ entry ∈ server.tallies, entry.2.2.counting = .packets
  owner : ∀ entry ∈ server.tallies, ∃ trial,
    server.registry.trial? entry.2.1 = some trial ∧ trial.peer.address = entry.1

/-- How much the trial with a number buffers. -/
def buffers (server : Server) (quantity : Quantity) (serial : Serial) : ℕ :=
  quantity.total (server.registry.buffered serial)

/-- How much the tallies hold for the trial with a number. -/
def pending (server : Server) (quantity : Quantity) (serial : Serial) : ℕ :=
  (server.tallies.map fun entry =>
    if entry.2.1 = serial then quantity.ofTally entry.2.2 else 0).sum

/-- How much the server has counted for a trial and not published. -/
def holds (server : Server) (quantity : Quantity) (serial : Serial) : ℕ :=
  server.buffers quantity serial + server.pending quantity serial

/-- How much the tally of an address holds for the trial with a number. -/
def share (server : Server) (address : Address) (quantity : Quantity) (serial : Serial) : ℕ :=
  match server.tallies.lookup address with
  | none => 0
  | some (owner, tally) => if owner = serial then quantity.ofTally tally else 0

variable {server : Server} {quantity : Quantity}

theorem Tidy.steady (htidy : server.Tidy) {registry : Registry}
    (hsteady : server.registry.Steady registry)
    (hpackets : ∀ serial, ∀ outcome ∈ registry.buffered serial, outcome.IsPackets) :
    ({ server with registry := registry } : Server).Tidy where
  sound := (hsteady.shrinks htidy.sound).sound
  kind := by
    intro serial trial htrial
    obtain ⟨old, hold, hon⟩ := hsteady.old htrial
    rw [hon.measurement_eq, hon.reducer_eq]
    exact htidy.kind serial old hold
  packets := hpackets
  nodup := htidy.nodup
  counting := htidy.counting
  owner := by
    intro entry hentry
    obtain ⟨trial, htrial, haddress⟩ := htidy.owner entry hentry
    obtain ⟨later, hlater, hon⟩ := hsteady.trial _ trial htrial
    exact ⟨later, hlater, hon.peer_eq ▸ haddress⟩

/-- A sweep neither loses what the server holds nor takes it away from its trial. -/
theorem Tidy.sweep (htidy : server.Tidy) (now : Instant) (dormantAfter deleteAfter : ℕ) :
    ({ server with
        registry := (server.registry.sweep now dormantAfter deleteAfter).2 } : Server).Tidy := by
  have hsame := Registry.map_trial?_sweep
    (fun trial => (trial.peer, trial.measurement, trial.reducer)) (fun _ => rfl) (fun _ => rfl)
    server.registry now dormantAfter deleteAfter
  refine ⟨(Registry.shrinks_sweep htidy.sound now dormantAfter deleteAfter).sound, ?_, ?_,
    htidy.nodup, htidy.counting, ?_⟩
  · intro serial trial htrial
    have htold := hsame serial
    rw [htrial] at htold
    obtain ⟨old, hold, hparts⟩ := Option.map_eq_some_iff.1 htold.symm
    have hkind := htidy.kind serial old hold
    simp only [Prod.mk.injEq] at hparts
    rwa [hparts.2.1, hparts.2.2] at hkind
  · intro serial
    rw [Registry.buffered_sweep]
    exact htidy.packets serial
  · intro entry hentry
    obtain ⟨trial, htrial, haddress⟩ := htidy.owner entry hentry
    have htold := hsame entry.2.1
    rw [htrial] at htold
    obtain ⟨later, hlater, hparts⟩ := Option.map_eq_some_iff.1 htold
    simp only [Prod.mk.injEq] at hparts
    exact ⟨later, hlater, hparts.1 ▸ haddress⟩

/-- A trial of the server publishes what it buffers. -/
theorem Tidy.publish (htidy : server.Tidy) {serial : Serial} {trial : Trial}
    (htrial : server.registry.trial? serial = some trial) (now : Instant) :
    let registry := server.registry.change serial fun trial => (trial.publish now).2
    ({ server with registry := registry } : Server).Tidy ∧ server.registry.Steady registry ∧
      ∀ other, registry.buffered other =
        if other = serial then [] else server.registry.buffered other := by
  intro registry
  have hsteady : server.registry.Steady registry :=
    Registry.steady_change _ serial fun trial _ => trial.steady_publish now
  have hbuffered : ∀ other, registry.buffered other =
      if other = serial then [] else server.registry.buffered other :=
    Registry.buffered_publish htrial (htidy.kind serial trial htrial).2 now
  refine ⟨htidy.steady hsteady fun other => ?_, hsteady, hbuffered⟩
  rw [hbuffered]
  split
  · exact fun _ hnone => absurd hnone List.not_mem_nil
  · exact htidy.packets other

/-! ## Adding samples -/

theorem steady_addSamples (server : Server) (serial : Serial) (samples : List Outcome) :
    server.registry.Steady (server.addSamples serial samples).registry :=
  Registry.steady_change _ serial fun trial _ => trial.steady_foldl_add samples

theorem Tidy.buffered_addSamples (htidy : server.Tidy) {serial : Serial} {trial : Trial}
    (htrial : server.registry.trial? serial = some trial) (samples : List Outcome)
    (other : Serial) :
    (server.addSamples serial samples).registry.buffered other =
      server.registry.buffered other ++ if other = serial then samples else [] :=
  Registry.buffered_change_add htrial (htidy.kind serial trial htrial).2 samples other

theorem Tidy.addSamples (htidy : server.Tidy) {serial : Serial} {trial : Trial}
    (htrial : server.registry.trial? serial = some trial) {samples : List Outcome}
    (hsamples : ∀ outcome ∈ samples, outcome.IsPackets) :
    (server.addSamples serial samples).Tidy := by
  refine htidy.steady (server.steady_addSamples serial samples) ?_
  intro other outcome houtcome
  have hmem : outcome ∈ server.registry.buffered other ++ if other = serial then samples else [] :=
    htidy.buffered_addSamples htrial samples other ▸ houtcome
  rw [List.mem_append] at hmem
  rcases hmem with hold | hnew
  · exact htidy.packets other outcome hold
  · split at hnew
    · exact hsamples outcome hnew
    · exact absurd hnew List.not_mem_nil

theorem Tidy.buffers_addSamples (htidy : server.Tidy) {serial : Serial} {trial : Trial}
    (htrial : server.registry.trial? serial = some trial) (samples : List Outcome)
    (quantity : Quantity) (other : Serial) :
    (server.addSamples serial samples).buffers quantity other =
      server.buffers quantity other + if other = serial then quantity.total samples else 0 := by
  rw [buffers, htidy.buffered_addSamples htrial, Quantity.total_append, buffers]
  split <;> rfl

/-! ## Putting a tally -/

theorem mem_putTally {address : Address} {serial : Serial} {tally : Tally}
    {entry : Address × Serial × Tally}
    (hentry : entry ∈ (server.putTally address serial tally).tallies) :
    entry = (address, serial, tally) ∨ entry ∈ server.tallies ∧ entry.1 ≠ address := by
  unfold putTally at hentry
  split at hentry
  case isTrue =>
    obtain ⟨old, hold, rfl⟩ := List.mem_map.1 hentry
    split
    case isTrue => exact .inl rfl
    case isFalse h => exact .inr ⟨hold, h⟩
  case isFalse hnone =>
    rcases List.mem_append.1 hentry with hold | hnew
    · refine .inr ⟨hold, ?_⟩
      rintro rfl
      rw [List.lookup_isSome_iff] at hnone
      exact hnone ⟨_, hold, beq_self_eq_true _⟩
    · exact .inl (List.mem_singleton.1 hnew)

theorem registry_putTally (server : Server) (address : Address) (serial : Serial)
    (tally : Tally) : (server.putTally address serial tally).registry = server.registry := by
  unfold putTally
  split <;> rfl

theorem Tidy.nodup_putTally (htidy : server.Tidy) (address : Address) (serial : Serial)
    (tally : Tally) : ((server.putTally address serial tally).tallies.map (·.1)).Nodup := by
  unfold putTally
  split
  case isTrue =>
    dsimp only
    rw [keys_map_replace]
    exact htidy.nodup
  case isFalse hnone =>
    have hnot : address ∉ server.tallies.map (·.1) := by
      intro hmem
      obtain ⟨entry, hentry, rfl⟩ := List.mem_map.1 hmem
      rw [List.lookup_isSome_iff] at hnone
      exact hnone ⟨entry, hentry, beq_self_eq_true _⟩
    simp only [List.map_append, List.map_cons, List.map_nil]
    exact List.Nodup.append htidy.nodup (List.nodup_singleton _) (by simpa using hnot)

theorem Tidy.putTally (htidy : server.Tidy) {address : Address} {serial : Serial}
    {trial : Trial} (htrial : server.registry.trial? serial = some trial)
    (haddress : trial.peer.address = address) {tally : Tally}
    (hcounting : tally.counting = .packets) : (server.putTally address serial tally).Tidy := by
  have hregistry := server.registry_putTally address serial tally
  refine ⟨hregistry ▸ htidy.sound, hregistry ▸ htidy.kind, hregistry ▸ htidy.packets,
    htidy.nodup_putTally address serial tally, fun entry hentry => ?_, fun entry hentry => ?_⟩
  · rcases mem_putTally hentry with rfl | ⟨hold, -⟩
    · exact hcounting
    · exact htidy.counting entry hold
  · rw [hregistry]
    rcases mem_putTally hentry with rfl | ⟨hold, -⟩
    · exact ⟨trial, htrial, haddress⟩
    · exact htidy.owner entry hold

/-- The tally of an address takes the place of the one before. -/
theorem Tidy.pending_putTally (htidy : server.Tidy) (address : Address) (serial : Serial)
    (tally : Tally) (quantity : Quantity) (other : Serial) :
    (server.putTally address serial tally).pending quantity other +
        server.share address quantity other =
      server.pending quantity other + if serial = other then quantity.ofTally tally else 0 := by
  unfold Server.putTally pending share
  cases hlookup : server.tallies.lookup address with
  | none =>
      simp only [Option.isSome_none, Bool.false_eq_true, if_false, List.map_append, List.map_cons,
        List.map_nil, List.sum_append, List.sum_cons, List.sum_nil, Nat.add_zero]
  | some entry =>
      simp only [Option.isSome_some, if_true]
      exact sum_map_replace htidy.nodup hlookup (serial, tally) fun entry =>
        if entry.2.1 = other then quantity.ofTally entry.2.2 else 0

theorem share_le_pending (server : Server) (address : Address) (quantity : Quantity)
    (serial : Serial) : server.share address quantity serial ≤ server.pending quantity serial := by
  unfold share pending
  split
  case h_1 => exact Nat.zero_le _
  case h_2 owner tally hlookup =>
    refine List.le_sum_of_mem (List.mem_map.2 ⟨_, mem_of_lookup hlookup, rfl⟩)

theorem share_of_lookup {address : Address} {owner : Serial} {tally : Tally}
    (hlookup : server.tallies.lookup address = some (owner, tally)) (quantity : Quantity)
    (serial : Serial) :
    server.share address quantity serial =
      if serial = owner then quantity.ofTally tally else 0 := by
  rw [share, hlookup]
  exact if_congr eq_comm rfl rfl

/-! ## Handing tallies over -/

/-- Handing the tally of an address over moves amounts into a buffer, and leaves nothing in the
tally. -/
theorem Tidy.flushTally_spec (htidy : server.Tidy) (address : Address) :
    (server.flushTally address).Tidy ∧
      server.registry.Steady (server.flushTally address).registry ∧
      (∀ quantity serial, (server.flushTally address).holds quantity serial =
        server.holds quantity serial ∧
        (server.flushTally address).pending quantity serial ≤ server.pending quantity serial) ∧
      ∀ entry ∈ (server.flushTally address).tallies,
        (entry ∈ server.tallies ∧ entry.1 ≠ address) ∨
          ∀ quantity : Quantity, quantity.ofTally entry.2.2 = 0 := by
  unfold flushTally
  cases hlookup : server.tallies.lookup address with
  | none =>
      refine ⟨htidy, Registry.Steady.refl _, fun _ _ => ⟨rfl, Nat.le_refl _⟩, ?_⟩
      intro entry hentry
      refine .inl ⟨hentry, ?_⟩
      rintro rfl
      have hsome : (server.tallies.lookup entry.1).isSome :=
        List.lookup_isSome_iff.2 ⟨entry, hentry, beq_self_eq_true _⟩
      rw [hlookup] at hsome
      exact absurd hsome (by simp)
  | some found =>
      obtain ⟨owner, tally⟩ := found
      have hentry := mem_of_lookup hlookup
      have hcounting := htidy.counting _ hentry
      obtain ⟨trial, htrial, haddress⟩ := htidy.owner _ hentry
      have hadded := htidy.addSamples htrial (Tally.isPackets_flush hcounting)
      have hsteady := server.steady_addSamples owner tally.flush.1
      obtain ⟨later, hlater, hon⟩ := hsteady.trial owner trial htrial
      have hempty : tally.flush.2.counting = .packets := hcounting
      have hput := hadded.putTally hlater (hon.peer_eq ▸ haddress) hempty
      let added := server.addSamples owner tally.flush.1
      let flushed := added.putTally address owner tally.flush.2
      have hregistry : flushed.registry = added.registry := added.registry_putTally ..
      -- the share of the address goes from the tally into the buffer
      have hmoved : ∀ quantity serial,
          flushed.buffers quantity serial =
            server.buffers quantity serial + server.share address quantity serial ∧
          flushed.pending quantity serial + server.share address quantity serial =
            server.pending quantity serial := by
        intro quantity serial
        constructor
        · rw [buffers, hregistry, share_of_lookup hlookup]
          exact (htidy.buffers_addSamples htrial tally.flush.1 quantity serial).trans
            (by rw [Quantity.total_flush])
        · have hpending := hadded.pending_putTally address owner tally.flush.2 quantity serial
          rw [Quantity.ofTally_flush, ite_self, Nat.add_zero] at hpending
          exact hpending
      show flushed.Tidy ∧ _
      refine ⟨hput, hregistry ▸ hsteady, fun quantity serial => ?_, fun entry hentry => ?_⟩
      · obtain ⟨hbuffers, hpending⟩ := hmoved quantity serial
        show flushed.holds quantity serial = _ ∧ flushed.pending quantity serial ≤ _
        unfold holds
        omega
      · rcases mem_putTally hentry with rfl | hold
        · exact .inr fun quantity => Quantity.ofTally_flush tally
        · exact .inl hold

theorem pending_eq_zero
    (hempty : ∀ entry ∈ server.tallies, ∀ quantity : Quantity, quantity.ofTally entry.2.2 = 0)
    (quantity : Quantity) (serial : Serial) : server.pending quantity serial = 0 := by
  apply List.sum_eq_zero
  intro amount hamount
  obtain ⟨entry, hentry, rfl⟩ := List.mem_map.1 hamount
  rw [hempty entry hentry quantity, ite_self]

/-- What the tallies of some addresses hold is in the buffers when each had its turn. -/
theorem Tidy.foldl_flushTally_spec (htidy : server.Tidy) (addresses : List Address) :
    (addresses.foldl flushTally server).Tidy ∧
      server.registry.Steady (addresses.foldl flushTally server).registry ∧
      (∀ quantity serial, (addresses.foldl flushTally server).holds quantity serial =
        server.holds quantity serial) ∧
      ∀ entry ∈ (addresses.foldl flushTally server).tallies,
        (entry ∈ server.tallies ∧ entry.1 ∉ addresses) ∨
          ∀ quantity : Quantity, quantity.ofTally entry.2.2 = 0 := by
  induction addresses generalizing server with
  | nil =>
      exact ⟨htidy, Registry.Steady.refl _, fun _ _ => rfl,
        fun entry hentry => .inl ⟨hentry, List.not_mem_nil⟩⟩
  | cons address addresses ih =>
      obtain ⟨hfirst, hsteady, hheld, hentries⟩ := htidy.flushTally_spec address
      obtain ⟨hlast, hon, hkept, hothers⟩ := ih hfirst
      refine ⟨hlast, hsteady.trans hon, fun quantity serial => ?_, fun entry hentry => ?_⟩
      · exact (hkept quantity serial).trans (hheld quantity serial).1
      · rcases hothers entry hentry with ⟨hmem, hnot⟩ | hempty
        · rcases hentries entry hmem with ⟨hold, hne⟩ | hempty
          · exact .inl ⟨hold, List.not_mem_cons_of_ne_of_not_mem hne hnot⟩
          · exact .inr hempty
        · exact .inr hempty

/-- Handing all tallies over leaves nothing in them, so those of finished trials can go. -/
theorem Tidy.flushTallies_spec (htidy : server.Tidy) :
    server.flushTallies.Tidy ∧ server.registry.Steady server.flushTallies.registry ∧
      ∀ quantity serial, server.flushTallies.holds quantity serial =
        server.holds quantity serial ∧ server.flushTallies.pending quantity serial = 0 := by
  obtain ⟨hall, hsteady, hheld, hentries⟩ :=
    htidy.foldl_flushTally_spec (server.tallies.map (·.1))
  let flushed := (server.tallies.map (·.1)).foldl flushTally server
  -- every address had its turn
  have hempty : ∀ entry ∈ flushed.tallies, ∀ quantity : Quantity,
      quantity.ofTally entry.2.2 = 0 := by
    intro entry hentry
    rcases hentries entry hentry with ⟨hold, hnot⟩ | hempty
    · exact absurd (List.mem_map.2 ⟨entry, hold, rfl⟩) hnot
    · exact hempty
  have hkept : ∀ entry ∈ server.flushTallies.tallies, entry ∈ flushed.tallies :=
    fun entry hentry => (List.mem_filter.1 hentry).1
  have hnone : ∀ quantity serial, server.flushTallies.pending quantity serial = 0 :=
    pending_eq_zero fun entry hentry => hempty entry (hkept entry hentry)
  refine ⟨?_, hsteady, fun quantity serial => ⟨?_, hnone quantity serial⟩⟩
  · exact ⟨hall.sound, hall.kind, hall.packets, hall.nodup.sublist (List.filter_sublist.map _),
      fun entry hentry => hall.counting entry (hkept entry hentry),
      fun entry hentry => hall.owner entry (hkept entry hentry)⟩
  · calc server.flushTallies.holds quantity serial
        = flushed.buffers quantity serial + 0 := by rw [holds, hnone]; rfl
      _ = flushed.holds quantity serial := by rw [holds, pending_eq_zero hempty]
      _ = server.holds quantity serial := hheld quantity serial

/-! ## Counting a datagram -/

/-- The trial that counts the datagrams of a peer, opened if there is none. -/
def counterFor (server : Server) (peer : Endpoint) : Serial × Server :=
  match server.registry.find? peer.address .udpServer with
  | some serial => (serial, server)
  | none => server.openTrial peer .udpServer {}

/-- A server after a trial of it noted a sign of life. -/
def touch (server : Server) (serial : Serial) : Server :=
  { server with registry := server.registry.change serial (·.touch server.wall) }

/-- The tally that counts a datagram of a peer, and the server that is about to put it back. -/
def readyFor (server : Server) (peer : Endpoint) : Tally × Server :=
  ((server.counterFor peer).2.touch (server.counterFor peer).1).tallyFor peer.address
    (server.counterFor peer).1

theorem countDatagram?_eq (server : Server) (peer : Endpoint) (length : UInt64) (due : Bool) :
    server.countDatagram? peer length due =
      ((server.readyFor peer).1.add? 1 length due).map fun added =>
        ((server.readyFor peer).2.addSamples (server.counterFor peer).1 added.1).putTally
          peer.address (server.counterFor peer).1 added.2 := rfl

theorem buffered_openTrial_of_free (server : Server) {peer : Endpoint}
    {measurement : Measurement} (request : Request)
    (hfree : server.registry.find? peer.address measurement = none) (serial : Serial) :
    (server.openTrial peer measurement request).2.registry.buffered serial =
      server.registry.buffered serial := by
  have hcreated : (server.created peer measurement request).2.buffered serial =
      server.registry.buffered serial :=
    Registry.buffered_createOrGet_of_free _ _ _ _ _ _ hfree serial
  obtain ⟨crews, heq⟩ := server.openTrial_eq peer measurement request
  rw [heq]
  dsimp only
  split
  · exact (Registry.buffered_change _ _ (fun trial => trial.claim.2) (fun _ => rfl) serial).trans
      hcreated
  · exact hcreated

/-- A trial that is opened for datagrams counts them. -/
theorem Tidy.openTrial_of_free (htidy : server.Tidy) {peer : Endpoint} (request : Request)
    (hfree : server.registry.find? peer.address .udpServer = none) :
    (server.openTrial peer .udpServer request).2.Tidy := by
  have hsteady := server.steady_openTrial peer .udpServer request
  have hcontinues := server.continues_openTrial peer .udpServer request
  have htallies := server.tallies_openTrial peer .udpServer request
  have hsound : (server.created peer .udpServer request).2.Sound :=
    htidy.sound.createOrGet_of_free _ _ _ _ _ _ hfree
  refine ⟨(hsteady.shrinks hsound).sound, ?_, ?_, htallies ▸ htidy.nodup,
    htallies ▸ htidy.counting, ?_⟩
  · intro serial trial htrial
    obtain ⟨old, hold, hon⟩ := hsteady.old htrial
    rw [hon.measurement_eq, hon.reducer_eq]
    rw [created, Registry.trial?_createOrGet_of_free _ _ _ _ _ _ hfree] at hold
    split at hold
    · cases hold
      exact ⟨rfl, rfl⟩
    · exact htidy.kind serial old hold
  · intro serial
    rw [server.buffered_openTrial_of_free request hfree]
    exact htidy.packets serial
  · rw [htallies]
    intro entry hentry
    obtain ⟨trial, htrial, haddress⟩ := htidy.owner entry hentry
    obtain ⟨later, hlater, hon⟩ := hcontinues _ trial htrial
    exact ⟨later, hlater, hon.peer_eq ▸ haddress⟩

/-- The trial that counts for a peer is registered for its address; nothing else is registered or
moved for it. -/
theorem Tidy.counterFor_spec (htidy : server.Tidy) (peer : Endpoint) :
    (server.counterFor peer).2.Tidy ∧
      server.registry.Continues (server.counterFor peer).2.registry ∧
      (∀ address measurement, (server.counterFor peer).2.registry.find? address measurement =
        if address = peer.address ∧ measurement = .udpServer then
          some (server.counterFor peer).1
        else server.registry.find? address measurement) ∧
      (server.counterFor peer).2.tallies = server.tallies ∧
      ∀ serial, (server.counterFor peer).2.registry.buffered serial =
        server.registry.buffered serial := by
  unfold counterFor
  cases hfind : server.registry.find? peer.address .udpServer with
  | some serial =>
      refine ⟨htidy, (Registry.Steady.refl _).continues, fun address measurement => ?_, rfl,
        fun _ => rfl⟩
      dsimp only
      by_cases h : address = peer.address ∧ measurement = .udpServer
      · rw [if_pos h, h.1, h.2, hfind]
      · rw [if_neg h]
  | none =>
      refine ⟨htidy.openTrial_of_free {} hfind, server.continues_openTrial peer .udpServer {},
        fun address measurement => ?_, server.tallies_openTrial peer .udpServer {},
        server.buffered_openTrial_of_free {} hfind⟩
      dsimp only
      rw [(server.steady_openTrial peer .udpServer {}).find?, fst_openTrial, created,
        Registry.find?_createOrGet]

theorem Tidy.exists_counterFor (htidy : server.Tidy) (peer : Endpoint) : ∃ trial,
    (server.counterFor peer).2.registry.trial? (server.counterFor peer).1 = some trial ∧
      trial.peer.address = peer.address := by
  obtain ⟨hopened, -, hkeys, -⟩ := htidy.counterFor_spec peer
  have hkey := hkeys peer.address .udpServer
  rw [if_pos ⟨rfl, rfl⟩] at hkey
  obtain ⟨trial, htrial, haddress, -⟩ := hopened.sound.trial _ _ _ hkey
  exact ⟨trial, htrial, haddress⟩

/-- A tally that is made for a trial holds what the address has counted for it; what the address
has counted for another trial is handed over to that one. -/
theorem Tidy.tallyFor_spec (htidy : server.Tidy) (address : Address) (serial : Serial) :
    (server.tallyFor address serial).1.counting = .packets ∧
      (server.tallyFor address serial).2.Tidy ∧
      server.registry.Steady (server.tallyFor address serial).2.registry ∧
      (server.tallyFor address serial).2.tallies = server.tallies ∧
      ∀ quantity other, (server.tallyFor address serial).2.buffers quantity other +
          (if other = serial then quantity.ofTally (server.tallyFor address serial).1 else 0) =
        server.buffers quantity other + server.share address quantity other := by
  unfold tallyFor
  cases hlookup : server.tallies.lookup address with
  | none =>
      refine ⟨rfl, htidy, Registry.Steady.refl _, rfl, fun quantity other => ?_⟩
      have hnothing : quantity.ofTally { counting := .packets } = 0 := Quantity.ofCount_zero _
      simp only [share, hlookup, hnothing, ite_self]
  | some entry =>
      obtain ⟨owner, tally⟩ := entry
      have hentry := mem_of_lookup hlookup
      have hcounting := htidy.counting _ hentry
      obtain ⟨trial, htrial, -⟩ := htidy.owner _ hentry
      have hshare := share_of_lookup hlookup
      dsimp only
      split
      case isTrue h =>
        subst h
        exact ⟨hcounting, htidy, Registry.Steady.refl _, rfl, fun quantity other => by
          rw [hshare]⟩
      case isFalse h =>
        refine ⟨rfl, htidy.addSamples htrial (Tally.isPackets_flush hcounting),
          server.steady_addSamples owner tally.flush.1, rfl, fun quantity other => ?_⟩
        have hnothing : quantity.ofTally { counting := .packets } = 0 := Quantity.ofCount_zero _
        rw [hshare, hnothing, ite_self, Nat.add_zero, ← Quantity.total_flush]
        exact htidy.buffers_addSamples htrial tally.flush.1 quantity other

/-- A server that is about to count a datagram has the tally for it, and holds what it held. -/
theorem Tidy.readyFor_spec (htidy : server.Tidy) (peer : Endpoint) :
    (server.readyFor peer).1.counting = .packets ∧ (server.readyFor peer).2.Tidy ∧
      server.registry.Continues (server.readyFor peer).2.registry ∧
      (∀ address measurement, (server.readyFor peer).2.registry.find? address measurement =
        if address = peer.address ∧ measurement = .udpServer then
          some (server.counterFor peer).1
        else server.registry.find? address measurement) ∧
      (server.readyFor peer).2.tallies = server.tallies ∧
      ∀ quantity other, (server.readyFor peer).2.buffers quantity other +
          (if other = (server.counterFor peer).1 then quantity.ofTally (server.readyFor peer).1
            else 0) =
        server.buffers quantity other + server.share peer.address quantity other := by
  obtain ⟨hfound, hcontinues, hkeys, htallies, hbuffered⟩ := htidy.counterFor_spec peer
  let serial := (server.counterFor peer).1
  let touched := (server.counterFor peer).2.touch serial
  have hsteady : (server.counterFor peer).2.registry.Steady touched.registry :=
    Registry.steady_change _ serial fun trial _ => ⟨rfl, rfl, rfl, rfl, rfl, rfl, rfl⟩
  have hsame : ∀ other, touched.registry.buffered other = server.registry.buffered other := by
    intro other
    rw [← hbuffered other]
    exact Registry.buffered_change _ serial
      (fun trial => trial.touch (server.counterFor peer).2.wall) (fun _ => rfl) other
  have htouched : touched.Tidy :=
    hfound.steady hsteady fun other => (hsame other).symm ▸ htidy.packets other
  obtain ⟨hcounting, hready, hon, hstill, hmoved⟩ := htouched.tallyFor_spec peer.address serial
  refine ⟨hcounting, hready, hcontinues.trans (hsteady.trans hon).continues, ?_,
    hstill.trans htallies, fun quantity other => ?_⟩
  · intro address measurement
    exact ((hsteady.trans hon).find? address measurement).trans (hkeys address measurement)
  · have hshare : touched.share peer.address quantity other =
        server.share peer.address quantity other := by
      unfold share
      rw [show touched.tallies = server.tallies from htallies]
    have hbuffers : touched.buffers quantity other = server.buffers quantity other := by
      rw [buffers, hsame, buffers]
    rw [← hshare, ← hbuffers]
    exact hmoved quantity other

/-- Counting a datagram adds its amount to what the server holds for one trial, which is the one
registered for its address. -/
theorem Tidy.countDatagram?_spec (htidy : server.Tidy) {peer : Endpoint} {length : UInt64}
    {due : Bool} {after : Server} (hcount : server.countDatagram? peer length due = some after) :
    after.Tidy ∧ server.registry.Continues after.registry ∧
      (∀ address measurement, after.registry.find? address measurement =
        if address = peer.address ∧ measurement = .udpServer then
          some (server.counterFor peer).1
        else server.registry.find? address measurement) ∧
      ∀ quantity serial,
        after.holds quantity serial = server.holds quantity serial +
          (if serial = (server.counterFor peer).1 then quantity.ofCount .packets 1 length else 0) ∧
        (serial ≠ (server.counterFor peer).1 →
          after.pending quantity serial ≤ server.pending quantity serial) := by
  obtain ⟨hcounting, hready, hcontinues, hkeys, htallies, hmoved⟩ := htidy.readyFor_spec peer
  rw [countDatagram?_eq] at hcount
  obtain ⟨⟨samples, next⟩, hadd, rfl⟩ := Option.map_eq_some_iff.1 hcount
  -- from here on, only what `readyFor_spec` tells of the tally and the server matters
  generalize (server.counterFor peer).1 = serial at *
  generalize (server.readyFor peer).1 = tally at *
  generalize (server.readyFor peer).2 = ready at *
  have hkey : ready.registry.find? peer.address .udpServer = some serial := by
    rw [hkeys, if_pos ⟨rfl, rfl⟩]
  obtain ⟨trial, htrial, haddress, -⟩ := hready.sound.trial _ _ _ hkey
  obtain ⟨hnext, -, hamount⟩ := Tally.add?_spec hadd
  let added := ready.addSamples serial samples
  let after := added.putTally peer.address serial next
  have hsteady : ready.registry.Steady added.registry := ready.steady_addSamples serial samples
  have hadded : added.Tidy := hready.addSamples htrial (Tally.isPackets_add? hcounting hadd)
  obtain ⟨later, hlater, hon⟩ := hsteady.trial serial trial htrial
  have hregistry : after.registry = added.registry := added.registry_putTally ..
  show after.Tidy ∧ _ ∧ (∀ address measurement, after.registry.find? address measurement = _) ∧
    ∀ quantity other, after.holds quantity other = _ ∧
      (_ → after.pending quantity other ≤ _)
  refine ⟨hadded.putTally hlater (hon.peer_eq ▸ haddress) (hnext.trans hcounting),
    hregistry ▸ hcontinues.trans hsteady.continues, ?_, fun quantity other => ?_⟩
  · intro address measurement
    rw [hregistry, hsteady.find?]
    exact hkeys address measurement
  · have hbuffers : after.buffers quantity other =
        ready.buffers quantity other + if other = serial then quantity.total samples else 0 := by
      rw [buffers, hregistry]
      exact hready.buffers_addSamples htrial samples quantity other
    have hpending : after.pending quantity other + server.share peer.address quantity other =
        server.pending quantity other + if serial = other then quantity.ofTally next else 0 := by
      have hput := hadded.pending_putTally peer.address serial next quantity other
      unfold share pending at hput ⊢
      rwa [show added.tallies = server.tallies from htallies] at hput
    have hbefore := hmoved quantity other
    have hsum := hamount quantity
    rw [hcounting] at hsum
    unfold holds
    by_cases hother : other = serial
    · rw [if_pos hother] at hbuffers hbefore ⊢
      rw [if_pos hother.symm] at hpending
      exact ⟨by omega, fun hne => absurd hother hne⟩
    · rw [if_neg hother] at hbuffers hbefore ⊢
      rw [if_neg (Ne.symm hother)] at hpending
      exact ⟨by omega, fun _ => by omega⟩

/-- A datagram that cannot be counted would not fit with what the server holds for its trial. -/
theorem Tidy.exists_overflow (htidy : server.Tidy) {peer : Endpoint} {length : UInt64}
    {due : Bool} (hcount : server.countDatagram? peer length due = none) :
    ∃ quantity : Quantity, UInt64.size ≤
      server.holds quantity (server.counterFor peer).1 +
        quantity.ofCount .packets 1 length := by
  obtain ⟨hcounting, -, -, -, -, hmoved⟩ := htidy.readyFor_spec peer
  rw [countDatagram?_eq, Option.map_eq_none_iff] at hcount
  obtain ⟨quantity, hoverflow⟩ := Tally.exists_overflow_of_add? hcounting hcount
  refine ⟨quantity, Nat.le_trans hoverflow (Nat.add_le_add_right ?_ _)⟩
  have hheld := hmoved quantity (server.counterFor peer).1
  have hshare := server.share_le_pending peer.address quantity (server.counterFor peer).1
  rw [if_pos rfl] at hheld
  unfold holds
  omega

end Server

end LinkMeter
