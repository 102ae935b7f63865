import LinkMeter.Proofs.Wire.Streams
import Mathlib.Data.List.Basic

/-!
# The calls on a sink

Bytes are written by calls, each of which takes as many as it likes, and at least
one if it is to count.  As long as all calls take bytes, the sink has just what
was offered (`Sink.Carried`).  The first call that takes none is where writing
ends (`Sink.Refused`), and then the sink has a part of what was offered.

This holds of one string and of several that are written one after the other,
since the calls of each string begin where those of the string before ended.
-/

namespace LinkMeter.Wire

/-- A call that takes at least one byte of any that are offered. -/
def Acceptance.Takes (call : Acceptance) : Prop := ∃ limit, call.limit? = some limit ∧ limit ≠ 0

theorem Acceptance.room_of_not_takes {call : Acceptance} (h : ¬ call.Takes)
    (left : List Acceptance) : room (call :: left) = 0 := by
  rw [room]
  split
  case h_1 limit hlimit => exact if_pos (by_contra fun hpos => h ⟨limit, hlimit, hpos⟩)
  case h_2 => rfl

namespace Sink

/-- The calls to come, if there is a list of them. -/
def calls (sink : Sink) : List Acceptance := sink.script.getD []

/-- Some calls were made, all of which took bytes, and the sink has just these bytes more. -/
structure Carried (sink after : Sink) (made : List Acceptance) (bytes : Bytes) : Prop where
  calls_eq : sink.calls = made ++ after.calls
  isNone_eq : after.script.isNone = sink.script.isNone
  takes : ∀ call ∈ made, call.Takes
  /-- Each call took one byte at least. -/
  length_le : made.length ≤ bytes.length
  written_eq : after.written = sink.written ++ bytes

/-- Some calls were made that took just these bytes, and the next one took none. -/
def Refused (sink after : Sink) (made left : List Acceptance) (bytes : Bytes) : Prop :=
  ∃ middle : Sink, sink.Carried middle made bytes ∧ middle.script = some left ∧
    Acceptance.room left = 0 ∧ after.written = middle.written

variable {sink middle after : Sink} {made more left : List Acceptance} {bytes others : Bytes}

theorem carried_refl (sink : Sink) : sink.Carried sink [] [] :=
  ⟨rfl, rfl, by simp, Nat.le_refl _, (List.append_nil _).symm⟩

theorem Carried.trans (hfirst : sink.Carried middle made bytes)
    (hsecond : middle.Carried after more others) :
    sink.Carried after (made ++ more) (bytes ++ others) where
  calls_eq := by rw [hfirst.calls_eq, hsecond.calls_eq, List.append_assoc]
  isNone_eq := hsecond.isNone_eq.trans hfirst.isNone_eq
  takes := List.forall_mem_append.2 ⟨hfirst.takes, hsecond.takes⟩
  length_le := by
    rw [List.length_append, List.length_append]
    exact Nat.add_le_add hfirst.length_le hsecond.length_le
  written_eq := by rw [hsecond.written_eq, hfirst.written_eq, List.append_assoc]

theorem Carried.refused (hfirst : sink.Carried middle made bytes)
    (hsecond : middle.Refused after more left others) :
    sink.Refused after (made ++ more) left (bytes ++ others) := by
  obtain ⟨last, hcarried, hlast⟩ := hsecond
  exact ⟨last, hfirst.trans hcarried, hlast⟩

/-- Whoever tells the pump to stop changes nothing of what is written. -/
theorem carried_tell (sink : Sink) (told : Bool) : sink.Carried (sink.tell told) [] [] :=
  ⟨rfl, rfl, by simp, Nat.le_refl _, (List.append_nil _).symm⟩

/-- A call that takes bytes is made, and the others are left to the later calls. -/
theorem carried_of_limit? {call : Acceptance} {limit : ℕ} (hlimit : call.limit? = some limit)
    (hpos : limit ≠ 0) (hbytes : bytes ≠ []) (left : List Acceptance) (sink : Sink)
    (stopped : Bool) :
    Carried { sink with script := some (call :: left) }
      { sink with
        script := some left
        written := sink.written ++ bytes.take limit
        stopped := stopped } [call] (bytes.take limit) where
  calls_eq := rfl
  isNone_eq := rfl
  takes := by
    intro other hother
    rw [List.mem_singleton.1 hother]
    exact ⟨limit, hlimit, hpos⟩
  length_le := by
    have hlength : bytes.length ≠ 0 := by simpa using hbytes
    rw [List.length_singleton, List.length_take]
    omega
  written_eq := rfl

/-- Writing ends where it begins if the first call takes nothing. -/
theorem refused_of_room {script : List Acceptance} (hroom : Acceptance.room script = 0)
    (hbytes : bytes ≠ []) (sink : Sink) :
    ∃ made left after, ∃ count < bytes.length,
      writeAllWith script bytes sink = (.ofEnding (Acceptance.obstacle left), after) ∧
      Refused { sink with script := some script } after made left (bytes.take count) := by
  have hlength : 0 < bytes.length := List.length_pos_iff.2 hbytes
  obtain ⟨after, hwrite, hwritten⟩ := writeAllWith_of_lt (hroom ▸ hlength) sink
  rw [hroom] at hwritten
  exact ⟨[], script, after, 0, hlength, hwrite, _, carried_refl _, rfl, hroom,
    hwritten.trans (List.append_nil _)⟩

/-- The calls of a list take all bytes, or they take some until one takes none. -/
theorem writeAllWith_cases (script : List Acceptance) (bytes : Bytes) (sink : Sink) :
    (∃ made after, writeAllWith script bytes sink = (.done (), after) ∧
      Carried { sink with script := some script } after made bytes ∧
      after.stopped = (sink.stopped || made.any (·.raises))) ∨
    ∃ made left after, ∃ count < bytes.length,
      writeAllWith script bytes sink = (.ofEnding (Acceptance.obstacle left), after) ∧
      Refused { sink with script := some script } after made left (bytes.take count) := by
  induction script generalizing bytes sink with
  | nil =>
      by_cases hbytes : bytes = []
      · subst hbytes
        exact .inl ⟨[], _, writeAllWith_nil _ _, carried_refl _, by simp⟩
      · exact .inr (refused_of_room rfl hbytes sink)
  | cons call script ih =>
      by_cases hbytes : bytes = []
      · subst hbytes
        exact .inl ⟨[], _, writeAllWith_nil _ _, carried_refl _, by simp⟩
      by_cases htakes : call.Takes
      case neg => exact .inr (refused_of_room (Acceptance.room_of_not_takes htakes _) hbytes sink)
      obtain ⟨limit, hlimit, hpos⟩ := htakes
      have hcall := carried_of_limit? hlimit hpos hbytes script sink (sink.stopped || call.raises)
      rw [writeAllWith_of_limit? hlimit hpos hbytes]
      rcases ih (bytes.drop limit)
          { sink with
            written := sink.written ++ bytes.take limit
            stopped := sink.stopped || call.raises } with
        ⟨made, after, hwrite, hcarried, hstopped⟩ |
        ⟨made, left, after, count, hcount, hwrite, hrefused⟩
      · refine .inl ⟨call :: made, after, hwrite, ?_, ?_⟩
        · have hboth := hcall.trans hcarried
          rwa [List.take_append_drop] at hboth
        · rw [hstopped, List.any_cons, Bool.or_assoc]
      · refine .inr ⟨call :: made, left, after, limit + count, ?_, hwrite, ?_⟩
        · rw [List.length_drop] at hcount
          omega
        · rw [List.take_add]
          exact hcall.refused hrefused

/-- A sink takes all bytes, or its calls take some until one takes none. -/
theorem writeAll_cases (sink : Sink) (bytes : Bytes) :
    (∃ made after, sink.writeAll bytes = (.done (), after) ∧ sink.Carried after made bytes ∧
      after.stopped = (sink.stopped || made.any (·.raises))) ∨
    ∃ made left after, ∃ count < bytes.length,
      sink.writeAll bytes = (.ofEnding (Acceptance.obstacle left), after) ∧
      sink.Refused after made left (bytes.take count) := by
  obtain ⟨_ | script, written, stopped⟩ := sink
  · exact .inl ⟨[], _, rfl, ⟨rfl, rfl, by simp, Nat.zero_le _, rfl⟩, by simp⟩
  · exact writeAllWith_cases script bytes _

/-- Bytes that were written are all in the sink. -/
theorem of_writeAll_done (hwrite : sink.writeAll bytes = (.done (), after)) :
    ∃ made, sink.Carried after made bytes ∧
      after.stopped = (sink.stopped || made.any (·.raises)) := by
  rcases sink.writeAll_cases bytes with ⟨made, other, hother, hcarried⟩ |
    ⟨made, left, other, count, hcount, hother, hrefused⟩
  · rw [hwrite] at hother
    cases hother
    exact ⟨made, hcarried⟩
  · rw [hwrite] at hother
    exact absurd (congrArg Prod.fst hother).symm (Reading.ofEnding_ne_done _)

/-- If not all were written, a call took none. -/
theorem of_writeAll_ne_done {reading : Reading Unit}
    (hwrite : sink.writeAll bytes = (reading, after)) (hnone : reading ≠ .done ()) :
    ∃ made left, ∃ count < bytes.length, .ofEnding (Acceptance.obstacle left) = reading ∧
      sink.Refused after made left (bytes.take count) := by
  rcases sink.writeAll_cases bytes with ⟨made, other, hother, -⟩ |
    ⟨made, left, other, count, hcount, hother, hrefused⟩
  · rw [hwrite] at hother
    exact absurd (congrArg Prod.fst hother) hnone
  · rw [hwrite] at hother
    cases hother
    exact ⟨made, left, count, hcount, rfl, hrefused⟩

/-- Calls that each take some bytes and no signal: as many as there are bytes, so that these are
taken whatever portion each call takes. -/
def Willing (sink : Sink) (count : ℕ) : Prop :=
  sink.script = none ∨ ∃ limits : List ℕ,
    sink.script = some (limits.map .take) ∧ (∀ limit ∈ limits, limit ≠ 0) ∧ count ≤ limits.length

theorem Willing.raises_eq_false {count : ℕ} (hwilling : sink.Willing count)
    (hcarried : sink.Carried after made bytes) : ∀ call ∈ made, call.raises = false := by
  intro call hcall
  have hmem : call ∈ sink.calls := hcarried.calls_eq ▸ List.mem_append_left _ hcall
  rcases hwilling with hnone | ⟨limits, hlimits, -, -⟩
  · rw [calls, hnone] at hmem
    exact absurd hmem List.not_mem_nil
  · rw [calls, hlimits] at hmem
    obtain ⟨limit, -, rfl⟩ := List.mem_map.1 hmem
    rfl

/-- A willing sink refuses nothing of the bytes. -/
theorem Willing.le_of_refused {count : ℕ} (hwilling : sink.Willing count)
    (hrefused : sink.Refused after made left bytes) : count ≤ bytes.length := by
  obtain ⟨middle, hcarried, hleft, hroom, -⟩ := hrefused
  have hcalls := hcarried.calls_eq
  have hnone := hcarried.isNone_eq
  rw [hleft] at hnone
  rcases hwilling with hall | ⟨limits, hlimits, hpos, hcount⟩
  · rw [hall] at hnone
    cases hnone
  · rw [calls, calls, hlimits, hleft, Option.getD_some, Option.getD_some] at hcalls
    refine Nat.le_trans hcount (Nat.le_trans ?_ hcarried.length_le)
    cases left with
    | nil =>
        rw [List.append_nil] at hcalls
        exact Nat.le_of_eq (by rw [← hcalls, List.length_map])
    | cons call left =>
        -- the call that took nothing would be one of those that take something
        have hmem : call ∈ limits.map .take := hcalls ▸ by simp
        obtain ⟨limit, hlimit, rfl⟩ := List.mem_map.1 hmem
        have hzero := hpos limit hlimit
        rw [Acceptance.room] at hroom
        simp [Acceptance.limit?, hzero] at hroom

end Sink

end LinkMeter.Wire
