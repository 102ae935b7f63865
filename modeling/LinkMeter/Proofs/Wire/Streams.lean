import LinkMeter.Proofs.Wire.Pieces

/-!
# How far a stream goes

Whoever reads from a source meets its bytes and then the end, a failure or
silence (`Source.ending`).  However the bytes are cut, so many bytes can be read
if there are as many (`Source.readExact_of_le`), and otherwise the reader meets
what is behind them (`Source.readExact_of_lt`).

It is the same with writing.  The calls of a sink take some bytes
(`Sink.room`), and then one takes none (`Sink.obstacle`).
-/

namespace LinkMeter.Wire

/-- What an operation comes to that meets a failure, or silence. -/
def Reading.ofEnding {α : Type} : Option IoFault → Reading α
  | some fault => .failed fault
  | none => .waiting

section Reading

variable {α : Type} {ending : Option IoFault}

theorem Reading.ofEnding_eq_failed_iff {fault : IoFault} :
    (ofEnding ending : Reading α) = .failed fault ↔ ending = some fault := by
  cases ending <;> simp [ofEnding]

theorem Reading.ofEnding_eq_waiting_iff :
    (ofEnding ending : Reading α) = .waiting ↔ ending = none := by
  cases ending <;> simp [ofEnding]

theorem Reading.ofEnding_ne_done (value : α) : ofEnding ending ≠ .done value := by
  cases ending <;> simp [ofEnding]

end Reading

/-! ## Sources -/

namespace Source

/-- The failure that a reader meets behind the bytes, if it meets one: the end of the stream is a
failure to whoever wants more, and behind silence there is nothing. -/
def ending : Source → Option IoFault
  | [] => some .endedEarly
  | .chunk bytes :: rest => if bytes.isEmpty then some .endedEarly else ending rest
  | .failure fault :: _ => some fault
  | .silence :: _ => none

variable {source rest : Source} {count : Nat}

@[simp] theorem bytes_cons_chunk (chunk : Bytes) (rest : Source) :
    bytes (.chunk chunk :: rest) = if chunk = [] then [] else chunk ++ rest.bytes := by
  simp [bytes]

@[simp] theorem ending_cons_chunk (chunk : Bytes) (rest : Source) :
    ending (.chunk chunk :: rest) = if chunk = [] then some .endedEarly else rest.ending := by
  simp [ending]

@[simp] theorem bytes_putBack (head : Bytes) (source : Source) :
    (putBack head source).bytes = head ++ source.bytes := by
  unfold putBack
  by_cases hhead : head = [] <;> simp [hhead]

@[simp] theorem ending_putBack (head : Bytes) (source : Source) :
    (putBack head source).ending = source.ending := by
  unfold putBack
  by_cases hhead : head = [] <;> simp [hhead]

theorem bytes_ofPieces {pieces : List Bytes} (hpieces : ∀ piece ∈ pieces, piece ≠ [])
    (later : Source) : (ofPieces pieces later).bytes = pieces.flatten ++ later.bytes := by
  induction pieces with
  | nil => rfl
  | cons piece pieces ih =>
      obtain ⟨hpiece, hothers⟩ := List.forall_mem_cons.1 hpieces
      simp [hpiece, ih hothers]

theorem ending_ofPieces {pieces : List Bytes} (hpieces : ∀ piece ∈ pieces, piece ≠ [])
    (later : Source) : (ofPieces pieces later).ending = later.ending := by
  induction pieces with
  | nil => rfl
  | cons piece pieces ih =>
      obtain ⟨hpiece, hothers⟩ := List.forall_mem_cons.1 hpieces
      simp [hpiece, ih hothers]

/-- The bytes of a source arrive in pieces, before anything else. -/
theorem exists_ofPieces (source : Source) :
    ∃ pieces later, source.bytes.Cut pieces ∧ source = ofPieces pieces later := by
  -- a source without bytes arrives in no pieces
  have hnone : ∀ other : Source, other.bytes = [] →
      ∃ pieces later, other.bytes.Cut pieces ∧ other = ofPieces pieces later :=
    fun other hbytes => ⟨[], other, ⟨by simp, hbytes.symm⟩, rfl⟩
  induction source with
  | nil => exact hnone _ rfl
  | cons arrival source ih =>
      cases arrival with
      | failure fault => exact hnone _ rfl
      | silence => exact hnone _ rfl
      | chunk chunk =>
          by_cases hchunk : chunk = []
          · subst hchunk
            exact hnone _ rfl
          · obtain ⟨pieces, later, hcut, hsource⟩ := ih
            refine ⟨chunk :: pieces, later, ⟨?_, ?_⟩, by rw [hsource, ofPieces_cons]⟩
            · exact List.forall_mem_cons.2 ⟨hchunk, hcut.ne_nil⟩
            · rw [bytes_cons_chunk, if_neg hchunk, List.flatten_cons, hcut.flatten_eq]

/-- If there are as many bytes, they are read, and nothing else is. -/
theorem readExact_of_le (h : count ≤ source.bytes.length) :
    ∃ rest : Source, source.readExact count = (.done (source.bytes.take count), rest) ∧
      rest.bytes = source.bytes.drop count ∧ rest.ending = source.ending := by
  induction source generalizing count with
  | nil =>
      obtain rfl : count = 0 := Nat.le_zero.1 h
      exact ⟨[], rfl, rfl, rfl⟩
  | cons arrival source ih =>
      by_cases hcount : count = 0
      · subst hcount
        exact ⟨_, readExact_zero _, rfl, rfl⟩
      cases arrival with
      | failure fault => exact absurd (Nat.le_zero.1 h) hcount
      | silence => exact absurd (Nat.le_zero.1 h) hcount
      | chunk chunk =>
          by_cases hchunk : chunk = []
          · subst hchunk
            exact absurd (Nat.le_zero.1 h) hcount
          rw [bytes_cons_chunk, if_neg hchunk] at h ⊢
          rw [readExact, if_neg hcount, if_neg (by simpa using hchunk), ending_cons_chunk,
            if_neg hchunk]
          by_cases hle : count ≤ chunk.length
          · -- the chunk holds all that is asked for
            refine ⟨putBack (chunk.drop count) source, ?_, ?_, ending_putBack _ _⟩
            · rw [if_pos hle, List.take_append_of_le_length hle]
            · rw [bytes_putBack, List.drop_append_of_le_length hle]
          · rw [List.length_append] at h
            have hothers : count - chunk.length ≤ (Source.bytes source).length := by omega
            obtain ⟨rest, hread, hrest, hending⟩ := ih hothers
            have htake : chunk.take count = chunk := List.take_of_length_le (by omega)
            have hdrop : chunk.drop count = [] := List.drop_eq_nil_of_le (by omega)
            refine ⟨rest, ?_, ?_, hending⟩
            · rw [if_neg hle, hread, List.take_append, htake]
            · rw [hrest, List.drop_append, hdrop, List.nil_append]

/-- If there are not, the reader meets what is behind the bytes. -/
theorem readExact_of_lt (h : source.bytes.length < count) :
    ∃ rest : Source, source.readExact count = (.ofEnding source.ending, rest) := by
  induction source generalizing count with
  | nil =>
      have hcount : count ≠ 0 := Nat.ne_of_gt (Nat.zero_lt_of_lt h)
      exact ⟨[], by rw [readExact, if_neg hcount]; rfl⟩
  | cons arrival source ih =>
      have hcount : count ≠ 0 := Nat.ne_of_gt (Nat.zero_lt_of_lt h)
      cases arrival with
      | failure fault => exact ⟨source, by rw [readExact, if_neg hcount]; rfl⟩
      | silence => exact ⟨.silence :: source, by rw [readExact, if_neg hcount]; rfl⟩
      | chunk chunk =>
          rw [readExact, if_neg hcount, ending_cons_chunk]
          by_cases hchunk : chunk = []
          · exact ⟨source, by simp [hchunk, Reading.ofEnding]⟩
          rw [bytes_cons_chunk, if_neg hchunk, List.length_append] at h
          have hothers : (Source.bytes source).length < count - chunk.length := by omega
          obtain ⟨rest, hread⟩ := ih hothers
          refine ⟨rest, ?_⟩
          rw [if_neg (by simpa using hchunk), if_neg (by omega), if_neg hchunk, hread]
          cases ending source <;> rfl

/-- What was read is the head of the bytes. -/
theorem of_readExact_done {message : Bytes}
    (hread : source.readExact count = (.done message, rest)) :
    count ≤ source.bytes.length ∧ message = source.bytes.take count ∧
      rest.bytes = source.bytes.drop count ∧ rest.ending = source.ending := by
  rcases Nat.lt_or_ge source.bytes.length count with hshort | hlong
  · obtain ⟨other, hother⟩ := readExact_of_lt hshort
    rw [hread] at hother
    exact absurd (congrArg Prod.fst hother).symm (Reading.ofEnding_ne_done _)
  · obtain ⟨other, hother, hbytes, hending⟩ := readExact_of_le hlong
    rw [hread] at hother
    cases hother
    exact ⟨hlong, rfl, hbytes, hending⟩

/-- If nothing was read, there are not enough bytes, and the reader met what is behind them. -/
theorem of_readExact_ne_done {reading : Reading Bytes}
    (hread : source.readExact count = (reading, rest))
    (hnone : ∀ message, reading ≠ .done message) :
    source.bytes.length < count ∧ .ofEnding source.ending = reading := by
  rcases Nat.lt_or_ge source.bytes.length count with hshort | hlong
  · obtain ⟨other, hother⟩ := readExact_of_lt hshort
    rw [hread] at hother
    exact ⟨hshort, (congrArg Prod.fst hother).symm⟩
  · obtain ⟨other, hother, -⟩ := readExact_of_le hlong
    rw [hread] at hother
    exact absurd (congrArg Prod.fst hother) (hnone _)

end Source

/-! ## Sinks -/

namespace Acceptance

/-- How many bytes a call takes at most, if it takes part in the stream. -/
def limit? : Acceptance → Option Nat
  | take limit => some limit
  | takeAndStop limit => some limit
  | failure _ => none
  | silence => none

/-- How many bytes the calls of a list take before one that takes none. -/
def room : List Acceptance → Nat
  | [] => 0
  | next :: rest =>
    match next.limit? with
    | some limit => if limit = 0 then 0 else limit + room rest
    | none => 0

/-- The failure of the first call that takes no bytes, if that call returns. -/
def obstacle : List Acceptance → Option IoFault
  | [] => some .nothingWritten
  | next :: rest =>
    match next.limit? with
    | some limit => if limit = 0 then some .nothingWritten else obstacle rest
    | none => next.fault?

/-- Whether a call raises the signal to stop. -/
def raises : Acceptance → Bool
  | takeAndStop _ => true
  | _ => false

theorem taken?_of_limit? {next : Acceptance} {limit : Nat} (h : next.limit? = some limit)
    (offered : Nat) : next.taken? offered = some (min limit offered, next.raises) := by
  cases next with
  | take => cases h; rfl
  | takeAndStop => cases h; rfl
  | failure => exact absurd h (by simp [limit?])
  | silence => exact absurd h (by simp [limit?])

theorem taken?_of_none {next : Acceptance} (h : next.limit? = none) (offered : Nat) :
    next.taken? offered = none := by
  cases next with
  | take => exact absurd h (by simp [limit?])
  | takeAndStop => exact absurd h (by simp [limit?])
  | failure => rfl
  | silence => rfl

end Acceptance

namespace Sink

open Acceptance (obstacle)

theorem writeAllWith_nil (script : List Acceptance) (sink : Sink) :
    writeAllWith script [] sink = (.done (), { sink with script := some script }) := by
  cases script <;> rfl

variable {next : Acceptance} {script : List Acceptance} {bytes : Bytes}

/-- A call that takes bytes leaves the others to the later calls. -/
theorem writeAllWith_of_limit? {limit : Nat} (hlimit : next.limit? = some limit)
    (hpos : limit ≠ 0) (hbytes : bytes ≠ []) (sink : Sink) (script : List Acceptance) :
    writeAllWith (next :: script) bytes sink =
      writeAllWith script (bytes.drop limit)
        { sink with
          written := sink.written ++ bytes.take limit
          stopped := sink.stopped || next.raises } := by
  have htaken := Acceptance.taken?_of_limit? hlimit bytes.length
  obtain ⟨byte, others, rfl⟩ := List.exists_cons_of_ne_nil hbytes
  have hcount : min limit (byte :: others).length ≠ 0 := by
    rw [List.length_cons]
    omega
  rw [writeAllWith, htaken]
  · dsimp only
    rw [if_neg hcount, ← List.take_eq_take_min, ← List.drop_eq_drop_min]
  · exact hbytes

/-- Calls that take enough take all. -/
theorem writeAllWith_of_le (h : bytes.length ≤ Acceptance.room script) (sink : Sink) :
    ∃ after, writeAllWith script bytes sink = (.done (), after) ∧
      after.written = sink.written ++ bytes := by
  induction script generalizing bytes sink with
  | nil =>
      obtain rfl : bytes = [] := List.length_eq_zero_iff.1 (Nat.le_zero.1 h)
      exact ⟨_, writeAllWith_nil _ _, (List.append_nil _).symm⟩
  | cons next script ih =>
      by_cases hbytes : bytes = []
      · subst hbytes
        exact ⟨_, writeAllWith_nil _ _, (List.append_nil _).symm⟩
      have hpos : 0 < bytes.length := List.length_pos_iff.2 hbytes
      rw [Acceptance.room] at h
      split at h
      case h_2 => omega
      case h_1 limit hlimit =>
        split at h
        case isTrue => omega
        case isFalse hzero =>
          have hstep := writeAllWith_of_limit? hlimit hzero hbytes sink script
          have hothers : (bytes.drop limit).length ≤ Acceptance.room script := by
            rw [List.length_drop]
            omega
          obtain ⟨after, hwrite, hwritten⟩ := ih hothers
            { sink with
              written := sink.written ++ bytes.take limit
              stopped := sink.stopped || next.raises }
          refine ⟨after, hstep.trans hwrite, ?_⟩
          rw [hwritten, List.append_assoc, List.take_append_drop]

/-- Calls that do not take enough take what they can, up to the one that takes nothing. -/
theorem writeAllWith_of_lt (h : Acceptance.room script < bytes.length) (sink : Sink) :
    ∃ after, writeAllWith script bytes sink = (.ofEnding (obstacle script), after) ∧
      after.written = sink.written ++ bytes.take (Acceptance.room script) := by
  induction script generalizing bytes sink with
  | nil =>
      obtain ⟨byte, others, rfl⟩ := List.exists_cons_of_length_pos (Nat.zero_lt_of_lt h)
      exact ⟨_, rfl, (List.append_nil _).symm⟩
  | cons next script ih =>
      have hbytes : bytes ≠ [] := List.length_pos_iff.1 (Nat.zero_lt_of_lt h)
      rw [Acceptance.room] at h ⊢
      rw [obstacle]
      cases hlimit : next.limit? with
      | none =>
          obtain ⟨byte, others, rfl⟩ := List.exists_cons_of_ne_nil hbytes
          rw [writeAllWith, Acceptance.taken?_of_none hlimit]
          · cases next.fault? with
            | none => exact ⟨_, rfl, (List.append_nil _).symm⟩
            | some fault => exact ⟨_, rfl, (List.append_nil _).symm⟩
          · exact hbytes
      | some limit =>
          rw [hlimit] at h
          dsimp only at h ⊢
          by_cases hzero : limit = 0
          · subst hzero
            have htaken := Acceptance.taken?_of_limit? hlimit bytes.length
            obtain ⟨byte, others, rfl⟩ := List.exists_cons_of_ne_nil hbytes
            rw [writeAllWith, htaken]
            · exact ⟨_, rfl, by simp⟩
            · exact hbytes
          · rw [if_neg hzero] at h ⊢
            rw [if_neg hzero]
            have hstep := writeAllWith_of_limit? hlimit hzero hbytes sink script
            have hothers : Acceptance.room script < (bytes.drop limit).length := by
              rw [List.length_drop]
              omega
            obtain ⟨after, hwrite, hwritten⟩ := ih hothers
              { sink with
                written := sink.written ++ bytes.take limit
                stopped := sink.stopped || next.raises }
            refine ⟨after, hstep.trans hwrite, ?_⟩
            rw [hwritten, List.append_assoc, List.take_add]

/-- The calls of the sink take so many bytes. -/
def Accepts (sink : Sink) (count : Nat) : Prop :=
  ∀ script, sink.script = some script → count ≤ Acceptance.room script

/-- How many bytes the sink takes, if it does not take all that there are. -/
def room (sink : Sink) : Nat := Acceptance.room (sink.script.getD [])

/-- What a writer meets behind the bytes that the sink takes. -/
def ending (sink : Sink) : Option IoFault := obstacle (sink.script.getD [])

theorem writeAll_of_accepts {sink : Sink} {bytes : Bytes} (h : sink.Accepts bytes.length) :
    ∃ after, sink.writeAll bytes = (.done (), after) ∧ after.written = sink.written ++ bytes := by
  rw [writeAll]
  cases hscript : sink.script with
  | none => exact ⟨_, rfl, rfl⟩
  | some script => exact writeAllWith_of_le (h script hscript) sink

theorem writeAll_of_not_accepts {sink : Sink} {bytes : Bytes}
    (h : ¬ sink.Accepts bytes.length) :
    ∃ after, sink.writeAll bytes = (.ofEnding sink.ending, after) ∧
      after.written = sink.written ++ bytes.take sink.room := by
  rw [writeAll, ending, room]
  cases hscript : sink.script with
  | none => exact absurd (fun script hsome => by simp [hscript] at hsome) h
  | some script =>
      refine writeAllWith_of_lt (Nat.lt_of_not_le fun hle => h fun other hother => ?_) sink
      rw [hscript] at hother
      cases hother
      exact hle

end Sink

end LinkMeter.Wire
