import LinkMeter.Proofs.Wire.Sinks
import LinkMeter.Transfer.Pump

/-!
# Echoing whole messages

An echo reads a message to its end before it writes any of it, and looks for the
signal to stop only between two messages or while it waits for one.  So whatever
ends it on the reading side, all it has written are the first messages of the
input, each of them whole; only a sink that refuses bytes can cut a message.

The writing side is accounted for by the calls that were made.  As long as all of
them take bytes, the sink has just what was offered (`Sink.Carried`); the first
one that takes none is where writing ends (`Sink.Refused`).  `Echoed` has one case
for each end of an echo, and `echoed_echoFrom` shows by induction on the rounds
that there is no other.

A signal that comes while a message is being read is given as a stream that falls
silent there: the read waits, the signal ends the wait, and the bytes read so far
are dropped.
-/

namespace LinkMeter

open Wire

namespace Transfer

open Acceptance (obstacle)

/-- By a round, the signal to stop was raised: before the echo, by somebody else, or by a call on
the sink. -/
def Signalled (chance : Chance) (sink : Sink) (made : List Acceptance) (round : ℕ) : Prop :=
  sink.stopped = true ∨ (∃ earlier ≤ round, chance.toldBefore earlier = true) ∨
    ∃ call ∈ made, call.raises = true

/-- How an echo of some input ends that has echoed `first` messages before: what it returns, and the
sink that it leaves. -/
inductive Echoed (chance : Chance) (buffer : ℕ) (input : Bytes) (ending : Option IoFault)
    (sink : Sink) (first : ℕ) : Reading ℕ → Sink → Prop
  /-- The signal to stop was followed between two messages. -/
  | stopped {more : ℕ} {made : List Acceptance} {after : Sink}
      (hmore : more ≤ input.length / buffer)
      (hcarried : sink.Carried after made (input.take (buffer * more)))
      (hsignal : Signalled chance sink made (first + more)) :
      Echoed chance buffer input ending sink first (.done (first + more)) after
  /-- The stream ended, or it fell silent and the signal to stop came while the echo waited. -/
  | ended {made : List Acceptance} {after : Sink}
      (hending : ending = some .endedEarly ∨ ending = none)
      (hcarried : sink.Carried after made (input.take (buffer * (input.length / buffer)))) :
      Echoed chance buffer input ending sink first (.done (first + input.length / buffer)) after
  /-- The stream failed behind the input. -/
  | unread {fault : IoFault} {made : List Acceptance} {after : Sink}
      (hending : ending = some fault) (hfault : fault ≠ .endedEarly)
      (hcarried : sink.Carried after made (input.take (buffer * (input.length / buffer)))) :
      Echoed chance buffer input ending sink first (.failed fault) after
  /-- A call on the sink took nothing: it failed, or it never came back. -/
  | unwritten {count : ℕ} {made left : List Acceptance} {after : Sink}
      (hcount : count < buffer * (input.length / buffer))
      (hrefused : sink.Refused after made left (input.take count)) :
      Echoed chance buffer input ending sink first (.ofEnding (obstacle left)) after

section Rounds

variable {chance : Chance} {buffer first : ℕ} {input : Bytes} {ending : Option IoFault}
  {sink middle after : Sink} {made : List Acceptance} {reading : Reading ℕ}

/-- The signal was raised before a message was written, or in doing so, or later. -/
theorem Signalled.of_carried {round later : ℕ} {more : List Acceptance} (hround : round ≤ later)
    (hstopped : middle.stopped =
      ((sink.tell (chance.toldBefore round)).stopped || made.any (·.raises)))
    (hsignal : Signalled chance middle more later) :
    Signalled chance sink (made ++ more) later := by
  rcases hsignal with hmiddle | htold | ⟨call, hcall, hraises⟩
  · rw [hstopped, Sink.tell, Bool.or_eq_true, Bool.or_eq_true, List.any_eq_true] at hmiddle
    rcases hmiddle with (hsink | htold) | ⟨call, hcall, hraises⟩
    · exact .inl hsink
    · exact .inr (.inl ⟨round, hround, htold⟩)
    · exact .inr (.inr ⟨call, List.mem_append_left _ hcall, hraises⟩)
  · exact .inr (.inl htold)
  · exact .inr (.inr ⟨call, List.mem_append_right _ hcall, hraises⟩)

/-- One more message in front. -/
theorem Echoed.next (hbuffer : 1 ≤ buffer) (hmessage : buffer ≤ input.length)
    (hcarried : sink.Carried middle made (input.take buffer))
    (hstopped : middle.stopped =
      ((sink.tell (chance.toldBefore first)).stopped || made.any (·.raises)))
    (hechoed : Echoed chance buffer (input.drop buffer) ending middle (first + 1) reading after) :
    Echoed chance buffer input ending sink first reading after := by
  have hwhole : input.length / buffer = (input.drop buffer).length / buffer + 1 := by
    rw [List.length_drop]
    exact Nat.div_eq_sub_div hbuffer hmessage
  have htake (count : ℕ) : input.take (buffer * (count + 1)) =
      input.take buffer ++ (input.drop buffer).take (buffer * count) := by
    rw [Nat.mul_succ, Nat.add_comm, List.take_add]
  have hcount (count : ℕ) : first + 1 + count = first + (count + 1) := by omega
  cases hechoed with
  | stopped hmore hlater hsignal =>
      rw [hcount] at hsignal ⊢
      refine .stopped (by omega) ?_ (hsignal.of_carried (Nat.le_add_right _ _) hstopped)
      exact htake _ ▸ hcarried.trans hlater
  | ended hending hlater =>
      rw [hcount, ← hwhole]
      have hall := hcarried.trans hlater
      rw [← htake, ← hwhole] at hall
      exact .ended hending hall
  | unread hending hfault hlater =>
      have hall := hcarried.trans hlater
      rw [← htake, ← hwhole] at hall
      exact .unread hending hfault hall
  | @unwritten count _ _ _ hless hrefused =>
      have hall := hcarried.refused hrefused
      rw [← List.take_add] at hall
      refine .unwritten ?_ hall
      rw [hwhole, Nat.mul_succ]
      omega

/-- Without a whole message, what is behind the input ends the echo. -/
theorem echoed_of_short (hshort : input.length < buffer)
    (hcarried : sink.Carried after [] []) :
    (ending = some .endedEarly ∨ ending = none →
      Echoed chance buffer input ending sink first (.done first) after) ∧
    ∀ fault, ending = some fault → fault ≠ .endedEarly →
      Echoed chance buffer input ending sink first (.failed fault) after := by
  have hwhole : input.length / buffer = 0 := Nat.div_eq_of_lt hshort
  have hnone : sink.Carried after [] (input.take (buffer * (input.length / buffer))) := by
    rwa [hwhole, Nat.mul_zero, List.take_zero]
  constructor
  · intro hending
    have hended : Echoed chance buffer input ending sink first _ after := .ended hending hnone
    rwa [hwhole, Nat.add_zero] at hended
  · intro fault hending hfault
    exact .unread hending hfault hnone

/-- A sink that refuses bytes of the first message ends the echo. -/
theorem echoed_of_refused {count : ℕ} {left : List Acceptance} (hbuffer : 1 ≤ buffer)
    (hmessage : buffer ≤ input.length) (hcount : count < (input.take buffer).length)
    (hrefused : sink.Refused after made left ((input.take buffer).take count)) :
    Echoed chance buffer input ending sink first (.ofEnding (obstacle left)) after := by
  rw [List.length_take_of_le hmessage] at hcount
  rw [List.take_take, Nat.min_eq_left (Nat.le_of_lt hcount)] at hrefused
  refine .unwritten (Nat.lt_of_lt_of_le hcount ?_) hrefused
  exact Nat.le_mul_of_pos_right _ (Nat.div_pos hmessage hbuffer)

/-- However an echo ends, it is one of these ends. -/
theorem echoed_echoFrom (chance : Chance) {buffer : ℕ} (hbuffer : 1 ≤ buffer) (round : ℕ)
    (source : Source) (sink : Sink) {count : ℕ} (hcount : count = round) :
    Echoed chance buffer source.bytes source.ending sink round
      (echoFrom chance buffer round source sink count).1
      (echoFrom chance buffer round source sink count).2.2 := by
  fun_induction echoFrom chance buffer round source sink count with
  | case1 => omega
  | case2 round source before count sink _ hstops =>
      have hstopped : sink.stopped = true := (Bool.and_eq_true_iff.1 hstops).1
      have hsignal : Signalled chance before [] (round + 0) := by
        rcases Bool.or_eq_true_iff.1 hstopped with hbefore | htold
        · exact .inl hbefore
        · exact .inr (.inl ⟨round, Nat.le_refl _, htold⟩)
      subst hcount
      exact .stopped (Nat.zero_le _) (before.carried_tell _) hsignal
  | case3 round source before count sink _ _ rest hread =>
      obtain ⟨hshort, hending⟩ := Source.of_readExact_ne_done hread (by simp)
      rw [Reading.ofEnding_eq_failed_iff] at hending
      exact hcount ▸ (echoed_of_short hshort (before.carried_tell _)).1 (.inl hending)
  | case4 round source before count sink _ _ fault rest hfault hread =>
      obtain ⟨hshort, hending⟩ := Source.of_readExact_ne_done hread (by simp)
      rw [Reading.ofEnding_eq_failed_iff] at hending
      exact (echoed_of_short hshort (before.carried_tell _)).2 fault hending hfault
  | case5 round source before count sink _ _ rest hread =>
      obtain ⟨hshort, hending⟩ := Source.of_readExact_ne_done hread (by simp)
      rw [Reading.ofEnding_eq_waiting_iff] at hending
      exact hcount ▸ (echoed_of_short hshort (before.carried_tell _)).1 (.inr hending)
  | case6 round source before count sink _ _ message rest hread _ fault after hwrite =>
      obtain ⟨hmessage, rfl, -⟩ := Source.of_readExact_done hread
      obtain ⟨made, left, taken, htaken, hending, hrefused⟩ :=
        Sink.of_writeAll_ne_done hwrite (by simp)
      rw [Reading.ofEnding_eq_failed_iff, ← Reading.ofEnding_eq_failed_iff (α := ℕ)] at hending
      rw [← hending]
      exact echoed_of_refused hbuffer hmessage htaken ((before.carried_tell _).refused hrefused)
  | case7 round source before count sink _ _ message rest hread _ after hwrite =>
      obtain ⟨hmessage, rfl, -⟩ := Source.of_readExact_done hread
      obtain ⟨made, left, taken, htaken, hending, hrefused⟩ :=
        Sink.of_writeAll_ne_done hwrite (by simp)
      rw [Reading.ofEnding_eq_waiting_iff, ← Reading.ofEnding_eq_waiting_iff (α := ℕ)] at hending
      rw [← hending]
      exact echoed_of_refused hbuffer hmessage htaken ((before.carried_tell _).refused hrefused)
  | case8 round source before count sink _ _ message rest hread _ _ middle hwrite ih =>
      obtain ⟨hmessage, rfl, hbytes, hending⟩ := Source.of_readExact_done hread
      obtain ⟨made, hcarried, hstopped⟩ := Sink.of_writeAll_done hwrite
      rw [hbytes, hending] at ih
      subst hcount
      exact .next hbuffer hmessage ((before.carried_tell _).trans hcarried) hstopped (ih rfl)

/-- What is returned is how many messages were echoed, and these are whole. -/
theorem Echoed.written_of_done {reading : Reading ℕ} {count : ℕ}
    (hechoed : Echoed chance buffer input ending sink 0 reading after)
    (hdone : reading = .done count) :
    count ≤ input.length / buffer ∧
      after.written = sink.written ++ input.take (buffer * count) := by
  cases hechoed with
  | stopped hmore hcarried =>
      cases hdone
      rw [Nat.zero_add]
      exact ⟨hmore, hcarried.written_eq⟩
  | ended _ hcarried =>
      cases hdone
      rw [Nat.zero_add]
      exact ⟨Nat.le_refl _, hcarried.written_eq⟩
  | unread => cases hdone
  | unwritten => exact absurd hdone (Reading.ofEnding_ne_done _)

/-- With nobody who stops it and a willing sink, an echo gets through the whole input, and what is
behind the input decides what it returns. -/
theorem Echoed.of_willing (hechoed : Echoed chance buffer input ending sink 0 reading after)
    (hstopped : sink.stopped = false) (hnever : ∀ round, chance.toldBefore round = false)
    (hwilling : sink.Willing (buffer * (input.length / buffer))) :
    after.written = sink.written ++ input.take (buffer * (input.length / buffer)) ∧
      (reading = .done (input.length / buffer) ∧ (ending = some .endedEarly ∨ ending = none) ∨
        ∃ fault, reading = .failed fault ∧ ending = some fault ∧ fault ≠ .endedEarly) := by
  cases hechoed with
  | stopped _ hcarried hsignal =>
      exfalso
      rcases hsignal with hbefore | ⟨round, -, htold⟩ | ⟨call, hcall, hraises⟩
      · rw [hstopped] at hbefore
        cases hbefore
      · rw [hnever] at htold
        cases htold
      · rw [hwilling.raises_eq_false hcarried call hcall] at hraises
        cases hraises
  | ended hending hcarried =>
      rw [Nat.zero_add]
      exact ⟨hcarried.written_eq, .inl ⟨rfl, hending⟩⟩
  | unread hending hfault hcarried =>
      exact ⟨hcarried.written_eq, .inr ⟨_, rfl, hending, hfault⟩⟩
  | @unwritten count _ _ _ hcount hrefused =>
      have hle := hwilling.le_of_refused hrefused
      rw [List.length_take] at hle
      omega

end Rounds

/-- An echo of some input that is cut in any way, with anything behind it.

Without the signal to stop, and on a sink that takes bytes in any portions, it writes the whole
messages of the input.  At the end of the stream it returns how many there are and drops a message
that is cut off; so it does if the stream falls silent until the signal comes.  A failure of the
stream is returned.

In any case it ends in one of the ways of `Echoed`: by the signal between two messages, by what is
behind the input, or by a call that takes no bytes.  Only the last one is an end inside a message,
and its failure is returned.  What returns a number has written that many messages, each whole. -/
theorem echoes_whole_messages (chance : Chance) {buffer : ℕ} (hbuffer : 1 ≤ buffer) (sink : Sink)
    {input : Bytes} {pieces : List Bytes} (hcut : input.Cut pieces) {later : Source}
    (hlater : later.bytes = []) :
    ∃ reading rest after,
      echo chance buffer (Source.ofPieces pieces later) sink = (reading, rest, after) ∧
      (sink.stopped = false → (∀ round, chance.toldBefore round = false) →
        sink.Willing (buffer * (input.length / buffer)) →
        after.written = sink.written ++ input.take (buffer * (input.length / buffer)) ∧
        (later.ending = some .endedEarly ∨ later.ending = none →
          reading = .done (input.length / buffer)) ∧
        ∀ fault, later.ending = some fault → fault ≠ .endedEarly → reading = .failed fault) ∧
      (∀ count, reading = .done count → count ≤ input.length / buffer ∧
        after.written = sink.written ++ input.take (buffer * count)) ∧
      Echoed chance buffer input later.ending sink 0 reading after := by
  have hechoed := echoed_echoFrom chance hbuffer 0 (Source.ofPieces pieces later) sink rfl
  rw [Source.bytes_ofPieces hcut.ne_nil, Source.ending_ofPieces hcut.ne_nil, hcut.flatten_eq,
    hlater, List.append_nil] at hechoed
  refine ⟨_, _, _, rfl, fun hstopped hnever hwilling => ?_,
    fun count hdone => hechoed.written_of_done hdone, hechoed⟩
  obtain ⟨hwritten, hcases⟩ := hechoed.of_willing hstopped hnever hwilling
  refine ⟨hwritten, fun hended => ?_, fun fault hending hfault => ?_⟩
  · rcases hcases with ⟨hdone, -⟩ | ⟨fault, -, hending, hfault⟩
    · exact hdone
    · rcases hended with hended | hended
      · rw [hended] at hending
        exact absurd (Option.some.inj hending).symm hfault
      · rw [hended] at hending
        cases hending
  · rcases hcases with ⟨-, hended | hended⟩ | ⟨other, hfailed, hother, -⟩
    · rw [hended] at hending
      exact absurd (Option.some.inj hending).symm hfault
    · rw [hended] at hending
      cases hending
    · rw [hending] at hother
      rw [hfailed, Option.some.inj hother]

/-- Nine bytes in three pieces, in messages of four, on a sink that takes a byte or a few at each
call: two messages are echoed, and the ninth byte is dropped. -/
theorem echoes_whole_messages_nine :
    let pieces : List Bytes := [[1, 2, 3], [4, 5, 6, 7], [8, 9]]
    let sink : Sink := { script := some ([3, 2, 1, 1, 1, 1, 1, 1].map .take) }
    (Bytes.Cut [1, 2, 3, 4, 5, 6, 7, 8, 9] pieces ∧ sink.Willing 8) ∧
    ∃ rest after, echo .still 4 (Source.ofPieces pieces []) sink = (.done 2, rest, after) ∧
      after.written = [1, 2, 3, 4, 5, 6, 7, 8] := by
  intro pieces sink
  have hcut : Bytes.Cut [1, 2, 3, 4, 5, 6, 7, 8, 9] pieces := ⟨by decide, rfl⟩
  have hwilling : sink.Willing 8 := .inr ⟨_, rfl, by decide, by decide⟩
  have hnothing : Source.bytes [] = [] := rfl
  obtain ⟨reading, rest, after, hecho, hwhole, -, -⟩ :=
    echoes_whole_messages .still (show 1 ≤ 4 by decide) sink hcut hnothing
  obtain ⟨hwritten, hended, -⟩ := hwhole rfl (fun _ => rfl) hwilling
  obtain rfl := hended (.inl rfl)
  exact ⟨⟨hcut, hwilling⟩, rest, after, hecho, hwritten⟩

end Transfer

end LinkMeter
