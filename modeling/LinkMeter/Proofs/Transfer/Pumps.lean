import LinkMeter.Proofs.Transfer.Tally
import LinkMeter.Proofs.Trial.Batch
import LinkMeter.Transfer.Pump

/-!
# Pumps account for every byte

A pump can end in many ways: it follows the signal to stop before or after an
operation, the stream ends or fails, or the stream takes nothing.  On each of
them the samples that it handed over move just what the stream took
(`Transfer.sends_sendFrom`) or delivered (`Transfer.receives_receiveFrom`), and
so does its total.

What the stream took is read off its own script, call by call with what was
offered (`takenOf`), and what it delivered off what is left of it
(`Wire.Source.content`); neither looks at what the pump counts.  The pump's side
is `Balanced`: its samples and its tally make up its total.  Every round keeps
that, and every way out hands the tally over (`Transfer.Accounts`).
-/

namespace LinkMeter

open Wire

/-! ## What arrives and what is gained -/

namespace Wire.Source

/-- All bytes that arrive on a stream, whatever happens between them. -/
def content : Source → Bytes
  | [] => []
  | .chunk bytes :: rest => bytes ++ content rest
  | .failure _ :: rest => content rest
  | .silence :: rest => content rest

theorem content_putBack (bytes : Bytes) (source : Source) :
    (putBack bytes source).content = bytes ++ source.content := by
  rw [putBack]
  split
  case isTrue hempty => rw [List.isEmpty_iff.1 hempty, List.nil_append]
  case isFalse => rfl

/-- A read takes away just the bytes that it gives. -/
theorem content_eq_of_read {capacity : Nat} {source rest : Source} {reading : Reading Bytes}
    (hread : source.read capacity = (reading, rest)) :
    source.content =
      (match reading with
        | .done bytes => bytes
        | .failed _ | .waiting => []) ++ rest.content := by
  obtain ⟨rfl, rfl⟩ := Prod.mk.inj hread
  match source with
  | [] => rfl
  | .failure fault :: rest => rfl
  | .silence :: rest => rfl
  | .chunk bytes :: rest =>
      simp only [content, content_putBack]
      rw [← List.append_assoc, List.take_append_drop]

end Wire.Source

/-- A trial gains some bytes by samples: they come into its buffer, or without a reducer into its
queue, if that is open and has room. -/
def Trial.Gains (trial : Trial) (samples : List Outcome) (count : Nat) : Prop :=
  match trial.reducer with
  | some _ =>
    Quantity.bytes.total (samples.foldl add trial).buffered =
      Quantity.bytes.total trial.buffered + count
  | none =>
    trial.isClosed = false → trial.queue.length + samples.length ≤ queueCapacity →
      Quantity.bytes.total (samples.foldl add trial).queue =
        Quantity.bytes.total trial.queue + count

theorem Trial.gains_total (trial : Trial) (samples : List Outcome) :
    trial.Gains samples (Quantity.bytes.total samples) := by
  unfold Gains
  split
  case h_1 reducer hreducer => rw [foldl_add hreducer, Quantity.total_append]
  case h_2 hdirect =>
    intro hopen hroom
    rw [queue_foldl_add hdirect hopen hroom, Quantity.total_append]

namespace Transfer

/-! ## Samples, tally and total -/

/-- What was handed over and what the tally holds make up the total. -/
structure Balanced (samples : List Outcome) (total : UInt64) (tally : Tally) : Prop where
  counting_eq : tally.counting = .bytes
  total_eq : Quantity.bytes.total samples + Quantity.bytes.ofTally tally = total.toNat

variable {samples : List Outcome} {total : UInt64} {tally : Tally} {count : Nat}

theorem balanced_start : Balanced [] 0 { counting := .bytes } := ⟨rfl, rfl⟩

theorem Balanced.ofTally_eq (hbalanced : Balanced samples total tally) :
    Quantity.bytes.ofTally tally = tally.bytes.toNat := by
  rw [Quantity.ofTally, hbalanced.counting_eq]
  rfl

theorem toNat_add_ofNat {total : UInt64} (hfits : total.toNat + count < UInt64.size) :
    (total + UInt64.ofNat count).toNat = total.toNat + count := by
  rw [UInt64.toNat_add, UInt64.toNat_ofNat_of_lt' (by omega), Nat.mod_eq_of_lt hfits]

/-- Counted bytes are handed over or held. -/
theorem Balanced.add (hbalanced : Balanced samples total tally)
    (hfits : total.toNat + count < UInt64.size) (due : Bool) :
    Balanced (samples ++ (tally.add 0 (UInt64.ofNat count) due).1) (total + UInt64.ofNat count)
      (tally.add 0 (UInt64.ofNat count) due).2 := by
  have htotal := hbalanced.total_eq
  -- the tally holds no more than the total, so it has room if the total has
  have hheld : tally.bytes.toNat + count < UInt64.size := by
    rw [hbalanced.ofTally_eq] at htotal
    omega
  have hadd : tally.add? 0 (UInt64.ofNat count) due =
      some ((tally.add 0 (UInt64.ofNat count) due).1,
        (tally.add 0 (UInt64.ofNat count) due).2) := by
    have hunits : Count.add? tally.units 0 = some tally.units := by
      rw [Count.add?, Count.ofNat?_eq_some_iff]
      rfl
    have hbytes : Count.add? tally.bytes (UInt64.ofNat count) =
        some (tally.bytes + UInt64.ofNat count) := by
      rw [Count.add?, Count.ofNat?_eq_some_iff, toNat_add_ofNat hheld,
        UInt64.toNat_ofNat_of_lt' (by omega)]
    rw [Tally.add?, hunits, hbytes]
  obtain ⟨hcounting, -, hmoved⟩ := Tally.add?_spec hadd
  refine ⟨hcounting.trans hbalanced.counting_eq, ?_⟩
  have hsize : Quantity.bytes.ofCount tally.counting 0 (UInt64.ofNat count) = count := by
    rw [hbalanced.counting_eq]
    exact UInt64.toNat_ofNat_of_lt' (by omega)
  have hmore := hmoved .bytes
  rw [Quantity.total_append, toNat_add_ofNat hfits, ← htotal]
  omega

/-- From what a pump counted so far to where it ends, its total grows by some amount, and is what
its samples move. -/
def Accounts (samples : List Outcome) (total : UInt64) (tally : Tally) (amount : Nat)
    (finalSamples : List Outcome) (finalTotal : UInt64) : Prop :=
  Balanced samples total tally → total.toNat + amount < UInt64.size →
    finalTotal.toNat = total.toNat + amount ∧
      Quantity.bytes.total finalSamples = finalTotal.toNat

/-- Once the tally is handed over the samples make up the total. -/
theorem accounts_flush (samples : List Outcome) (total : UInt64) (tally : Tally) :
    Accounts samples total tally 0 (samples ++ tally.flush.1) total := by
  intro hbalanced _
  rw [Quantity.total_append, Quantity.total_flush, hbalanced.total_eq]
  exact ⟨rfl, rfl⟩

/-- A pump that counts some bytes and then accounts for more accounts for all of them. -/
theorem Accounts.counted {amount : Nat} {finalSamples : List Outcome} {finalTotal : UInt64}
    {due : Bool}
    (haccounts : Accounts (samples ++ (tally.add 0 (UInt64.ofNat count) due).1)
      (total + UInt64.ofNat count) (tally.add 0 (UInt64.ofNat count) due).2 amount finalSamples
      finalTotal) :
    Accounts samples total tally (count + amount) finalSamples finalTotal := by
  intro hbalanced hfits
  have hcount : (total + UInt64.ofNat count).toNat = total.toNat + count :=
    toNat_add_ofNat (by omega)
  have hrest := haccounts (hbalanced.add (by omega) due)
  rw [hcount, Nat.add_assoc] at hrest
  exact hrest hfits

/-! ## Sending -/

/-- The bytes that calls take, each of what it is offered. -/
def takenOf : List Acceptance → List (Nat × Bool) → Nat
  | next :: script, (offered, _) :: offers =>
    ((next.taken? offered).map Prod.fst).getD 0 + takenOf script offers
  | _, _ => 0

@[simp] theorem takenOf_nil (script : List Acceptance) : takenOf script [] = 0 := by
  cases script <;> rfl

/-- A pump goes on from where it stands to where it ends: each slice that it offers holds some of
the buffer, and its total grows by what the stream takes. -/
def Sends (buffer : Nat) (script : List Acceptance) (tally : Tally) (sent final : Sent) : Prop :=
  ∃ offers, final.offers = sent.offers ++ offers ∧
    (∀ offer ∈ offers, 1 ≤ offer.1 ∧ offer.1 ≤ buffer) ∧
    Accounts sent.samples sent.total tally (takenOf script offers) final.samples final.total

section Sends

variable {buffer : Nat} {script : List Acceptance} {sent final : Sent}

theorem offerSize_bounds (pacer : Pacing.Pacer) (hbuffer : 1 ≤ buffer) :
    1 ≤ offerSize pacer buffer ∧ offerSize pacer buffer ≤ buffer := by
  rw [offerSize]
  omega

/-- A pump may end before a call. -/
theorem sends_finish (sent : Sent) (tally : Tally) (fault : Option IoFault) :
    Sends buffer script tally sent (sent.finish tally fault) := by
  refine ⟨[], (List.append_nil _).symm, by simp, ?_⟩
  rw [takenOf_nil]
  exact accounts_flush sent.samples sent.total tally

/-- A pump may end with a call that takes nothing. -/
theorem sends_offer {offer : Nat × Bool} (hoffer : 1 ≤ offer.1 ∧ offer.1 ≤ buffer)
    (hnothing : takenOf script [offer] = 0) (fault : Option IoFault) :
    Sends buffer script tally sent
      ({ sent with offers := sent.offers ++ [offer] }.finish tally fault) := by
  refine ⟨[offer], rfl, by simpa using hoffer, ?_⟩
  rw [hnothing]
  exact accounts_flush sent.samples sent.total tally

/-- A pump may go on after a call that takes some bytes. -/
theorem Sends.counted {next : Acceptance} {offer : Nat × Bool} {raises : Bool} (due : Bool)
    (hoffer : 1 ≤ offer.1 ∧ offer.1 ≤ buffer) (htaken : next.taken? offer.1 = some (count, raises))
    (hsends : Sends buffer script (tally.add 0 (UInt64.ofNat count) due).2
      { sent with
        offers := sent.offers ++ [offer]
        total := sent.total + UInt64.ofNat count
        samples := sent.samples ++ (tally.add 0 (UInt64.ofNat count) due).1 } final) :
    Sends buffer (next :: script) tally sent final := by
  obtain ⟨offers, hoffers, hbounds, haccounts⟩ := hsends
  refine ⟨offer :: offers, by simp [hoffers], ?_, ?_⟩
  · intro other hother
    rcases List.mem_cons.1 hother with rfl | hother
    · exact hoffer
    · exact hbounds other hother
  · have htakenOf : takenOf (next :: script) (offer :: offers) = count + takenOf script offers := by
      simp [takenOf, htaken]
    rw [htakenOf]
    exact haccounts.counted

/-- However a pump ends, it accounts for what the stream took. -/
theorem sends_sendFrom (chance : Chance) (hbuffer : 1 ≤ buffer) (round : Nat)
    (script : List Acceptance) (pacer : Pacing.Pacer) (tally : Tally) (slept stopped : Bool)
    (sent : Sent) :
    Sends buffer script tally sent
      (sendFrom chance buffer round script pacer tally slept stopped sent) := by
  have hoffer : 1 ≤ (offerSize pacer buffer, slept).1 ∧ (offerSize pacer buffer, slept).1 ≤ buffer :=
    offerSize_bounds pacer hbuffer
  induction script generalizing round pacer tally slept stopped sent with
  | nil =>
      rw [sendFrom]
      split
      · exact sends_finish sent tally none
      · exact sends_offer hoffer rfl none
  | cons next script ih =>
      -- the pump ends before the call, with the call, or after it, and else goes on
      rw [sendFrom]
      split
      · exact sends_finish sent tally none
      · dsimp only
        cases htaken : next.taken? (offerSize pacer buffer) with
        | none => exact sends_offer hoffer (by simp [takenOf, htaken]) next.fault?
        | some taken =>
            obtain ⟨count, raises⟩ := taken
            dsimp only
            split
            case isTrue hzero => exact sends_offer hoffer (by simp [takenOf, htaken, hzero]) none
            case isFalse =>
              refine Sends.counted (chance.due round) hoffer htaken ?_
              split
              · exact sends_finish _ _ none
              · exact ih _ _ _ _ _ _ (offerSize_bounds _ hbuffer)

theorem Sent.total_of_result {sent : Sent} {total : UInt64} (hresult : sent.result = .ok total) :
    sent.total = total := by
  rw [Sent.result] at hresult
  split at hresult
  · exact Except.ok.inj hresult
  · cases hresult

end Sends

/-! ## Receiving -/

/-- A pump goes on from where it stands to where it ends: its total grows by the bytes that it
takes from the stream. -/
def Receives (source : Source) (tally : Tally) (received final : Received) : Prop :=
  ∃ delivered, source.content = delivered ++ final.rest.content ∧
    Accounts received.samples received.total tally delivered.length final.samples final.total

theorem receives_finish {source rest : Source} (hrest : source.content = rest.content)
    (received : Received) (tally : Tally) (fault : Option IoFault) :
    Receives source tally received (received.finish tally fault rest) :=
  ⟨[], hrest, accounts_flush received.samples received.total tally⟩

theorem Receives.counted {source rest : Source} {tally : Tally} {received final : Received}
    {bytes : Bytes} (due : Bool) (hread : source.content = bytes ++ rest.content)
    (hreceives : Receives rest (tally.add 0 (UInt64.ofNat bytes.length) due).2
      { received with
        total := received.total + UInt64.ofNat bytes.length
        samples := received.samples ++ (tally.add 0 (UInt64.ofNat bytes.length) due).1 } final) :
    Receives source tally received final := by
  obtain ⟨delivered, hdelivered, haccounts⟩ := hreceives
  refine ⟨bytes ++ delivered, ?_, ?_⟩
  · rw [hread, hdelivered, List.append_assoc]
  · rw [List.length_append]
    exact haccounts.counted

/-- However a pump ends, it accounts for what the stream delivered. -/
theorem receives_receiveFrom (chance : Chance) (buffer round : Nat) (source : Source)
    (tally : Tally) (stopped : Bool) (received : Received) :
    Receives source tally received
      (receiveFrom chance buffer round source tally stopped received) := by
  fun_induction receiveFrom chance buffer round source tally stopped received with
  | case1 => exact receives_finish rfl _ _ _
  | case2 round source _ _ _ _ _ fault rest hread =>
      exact receives_finish (Source.content_eq_of_read hread) _ _ _
  | case3 round source _ _ _ _ _ rest hread =>
      exact receives_finish (Source.content_eq_of_read hread) _ _ _
  | case4 round source _ _ _ _ _ rest hread =>
      exact receives_finish (Source.content_eq_of_read hread) _ _ _
  | case5 round source tally _ received _ _ bytes rest hread _ _ size samples next hadd ih =>
      refine Receives.counted (chance.due round) (Source.content_eq_of_read hread) ?_
      rw [hadd]
      exact ih

theorem Received.total_of_result {received : Received} {total : UInt64}
    (hresult : received.result = .ok total) : received.total = total := by
  rw [Received.result] at hresult
  split at hresult
  · exact Except.ok.inj hresult
  · cases hresult

/-! ## Both ways -/

/-- A pump that sends for a trial returns, and offers slices of one byte to the whole buffer.  The
samples that it adds to the trial move what the stream took, whether the stream failed or not, and
the total that it returns is the same.  A pump that receives accounts for what the stream
delivered. -/
theorem pumps_account (chance : Chance) (trial : Trial) {buffer : Nat} (hbuffer : 1 ≤ buffer) :
    (∀ now script, ∃ sent,
      send? chance trial.lastTick now trial.request.rate buffer script = some sent ∧
      (∀ offer ∈ sent.offers, 1 ≤ offer.1 ∧ offer.1 ≤ buffer) ∧
      (takenOf script sent.offers < UInt64.size →
        Quantity.bytes.total sent.samples = takenOf script sent.offers ∧
        trial.Gains sent.samples (takenOf script sent.offers) ∧
        ∀ total, sent.result = .ok total → total.toNat = takenOf script sent.offers)) ∧
    ∀ source, ∃ delivered,
      source.content = delivered ++ (receive chance buffer source).rest.content ∧
      (delivered.length < UInt64.size →
        Quantity.bytes.total (receive chance buffer source).samples = delivered.length ∧
        trial.Gains (receive chance buffer source).samples delivered.length ∧
        ∀ total, (receive chance buffer source).result = .ok total →
          total.toNat = delivered.length) := by
  constructor
  · intro now script
    obtain ⟨offers, hoffers, hbounds, haccounts⟩ :=
      sends_sendFrom chance hbuffer 0 script
        (Pacing.Pacer.begin trial.lastTick now trial.request.rate buffer)
        { counting := .bytes } false false {}
    rw [List.nil_append] at hoffers
    subst hoffers
    refine ⟨_, if_neg (Nat.ne_of_gt hbuffer), hbounds, fun hfits => ?_⟩
    obtain ⟨htotal, hsamples⟩ := haccounts balanced_start (by simpa using hfits)
    replace htotal := htotal.trans (Nat.zero_add _)
    have hmoved := hsamples.trans htotal
    refine ⟨hmoved, hmoved ▸ trial.gains_total _, fun total hresult => ?_⟩
    rw [← Sent.total_of_result hresult, htotal]
  · intro source
    obtain ⟨delivered, hdelivered, haccounts⟩ :=
      receives_receiveFrom chance buffer 0 source { counting := .bytes } false {}
    refine ⟨delivered, hdelivered, fun hfits => ?_⟩
    obtain ⟨htotal, hsamples⟩ := haccounts balanced_start (by simpa using hfits)
    replace htotal := htotal.trans (Nat.zero_add _)
    have hmoved := hsamples.trans htotal
    refine ⟨hmoved, hmoved ▸ trial.gains_total _, fun total hresult => ?_⟩
    rw [← Received.total_of_result hresult]
    exact htotal

/-- A stream takes three bytes of four, then four, and fails; a stream delivers five bytes in two
reads and fails.  The trial gains the seven that were taken, and the five that were delivered. -/
theorem pumps_account_failed :
    let trial := Trial.start 0 default default {} (some .bandwidth) 0
    let script : List Acceptance := [.take 3, .take 9, .failure .endedEarly]
    let source : Source := [.chunk [1, 2, 3, 4, 5], .failure .endedEarly, .chunk [6]]
    let received := receive .still 4 source
    (∃ sent, send? .still 0 0 0 4 script = some sent ∧ sent.fault = some .endedEarly ∧
      takenOf script sent.offers = 7 ∧ takenOf script sent.offers < UInt64.size ∧
      trial.Gains sent.samples 7) ∧
    received.fault = some .endedEarly ∧
    source.content = [1, 2, 3, 4, 5] ++ received.rest.content ∧
    [1, 2, 3, 4, 5].length < UInt64.size ∧
    Quantity.bytes.total received.samples = 5 ∧ trial.Gains received.samples 5 := by
  intro trial script source received
  obtain ⟨hsend, hreceive⟩ := pumps_account .still trial (show 1 ≤ 4 by decide)
  obtain ⟨sent, hsent, -, haccounts⟩ := hsend 0 script
  obtain ⟨delivered, hdelivered, hgains⟩ := hreceive source
  -- both pumps stop short of what stands behind the failure
  have hrest : received.rest.content = [6] ∧ received.fault = some .endedEarly := by
    decide +kernel
  refine ⟨?_, hrest.2, by rw [hrest.1]; rfl, by decide, ?_⟩
  · have hfault : sent.fault = some .endedEarly ∧ takenOf script sent.offers = 7 := by
      obtain rfl := Option.some.inj hsent
      decide
    have hfits : takenOf script sent.offers < UInt64.size := by
      rw [hfault.2]
      decide
    exact ⟨sent, hsent, hfault.1, hfault.2, hfits, hfault.2 ▸ (haccounts hfits).2.1⟩
  · have hfive : delivered.length = 5 := by
      have hlength := congrArg List.length hdelivered
      have hcontent : source.content.length = 6 := rfl
      have hbehind : (receive .still 4 source).rest.content.length = 1 :=
        congrArg List.length hrest.1
      rw [List.length_append, hcontent, hbehind] at hlength
      omega
    obtain ⟨hmoved, hgained, -⟩ := hgains (by rw [hfive]; decide)
    exact ⟨hmoved.trans hfive, hfive ▸ hgained⟩

end Transfer

end LinkMeter
