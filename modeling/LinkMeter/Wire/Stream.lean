import LinkMeter.Bytes
import LinkMeter.Failure

/-!
# Byte streams

A stream is given by what its user meets.  A `Source` lists what arrives: chunks
of bytes, failures, and silence, after which nothing arrives and nothing ends.
The end of the list, and an empty chunk, are the end of the stream.  A chunk
larger than what is asked for is handed out in parts.

A `Sink` collects what is written to it.  It may come with a list that says, for
each call, how many bytes are taken, or that the call fails or never returns;
past the end of that list no byte is taken.  Without a list every byte is
taken.  Taking bytes may also raise the signal that tells a pump to stop.
-/

namespace LinkMeter.Wire

/-- The result of an operation on a stream. -/
inductive Reading (α : Type) where
  | done (value : α)
  | failed (fault : IoFault)
  /-- The operation never returns. -/
  | waiting
  deriving Inhabited

/-! ## Sources -/

/-- What the user of a stream meets next. -/
inductive Arrival where
  | chunk (bytes : Bytes)
  | failure (fault : IoFault)
  | silence
  deriving DecidableEq, Inhabited

/-- All that arrives on a stream, in order. -/
abbrev Source := List Arrival

namespace Source

/-- The number of bytes and events to come. -/
def size : Source → Nat
  | [] => 0
  | .chunk bytes :: rest => bytes.length + 1 + size rest
  | _ :: rest => 1 + size rest

/-- A source with bytes put back in front. -/
def putBack (bytes : Bytes) (source : Source) : Source :=
  if bytes.isEmpty then source else .chunk bytes :: source

/-- Up to `capacity` bytes; no bytes at all mean the end of the stream. -/
def read (capacity : Nat) : Source → Reading Bytes × Source
  | [] => (.done [], [])
  | .chunk bytes :: rest =>
    (.done (bytes.take capacity), putBack (bytes.drop capacity) rest)
  | .failure fault :: rest => (.failed fault, rest)
  | .silence :: rest => (.waiting, .silence :: rest)

/-- Exactly `count` bytes.  A stream that ends before has ended early. -/
def readExact (count : Nat) : Source → Reading Bytes × Source
  | [] => (if count = 0 then .done [] else .failed .endedEarly, [])
  | .chunk bytes :: rest =>
    if count = 0 then (.done [], .chunk bytes :: rest)
    else if bytes.isEmpty then (.failed .endedEarly, rest)
    else if count ≤ bytes.length then
      (.done (bytes.take count), putBack (bytes.drop count) rest)
    else
      match readExact (count - bytes.length) rest with
      | (.done more, rest) => (.done (bytes ++ more), rest)
      | (.failed fault, rest) => (.failed fault, rest)
      | (.waiting, rest) => (.waiting, rest)
  | .failure fault :: rest =>
    if count = 0 then (.done [], .failure fault :: rest) else (.failed fault, rest)
  | .silence :: rest =>
    if count = 0 then (.done [], .silence :: rest) else (.waiting, .silence :: rest)

theorem size_putBack_le (bytes : Bytes) (source : Source) :
    size (putBack bytes source) ≤ bytes.length + 1 + size source := by
  unfold putBack
  split
  · omega
  · simp [size]

/-- A read that returns bytes takes something away from the source. -/
theorem size_lt_of_read {capacity : Nat} {source rest : Source} {bytes : Bytes}
    (hread : source.read capacity = (.done bytes, rest)) (hbytes : bytes ≠ []) :
    rest.size < source.size := by
  cases source with
  | nil => simp_all [read]
  | cons arrival tail =>
    cases arrival with
    | failure fault => simp [read] at hread
    | silence => simp [read] at hread
    | chunk chunk =>
      simp only [read, Prod.mk.injEq, Reading.done.injEq] at hread
      obtain ⟨rfl, rfl⟩ := hread
      cases chunk with
      | nil => simp at hbytes
      | cons byte more =>
        cases capacity with
        | zero => simp at hbytes
        | succ capacity =>
          have hle := size_putBack_le (List.drop (capacity + 1) (byte :: more)) tail
          simp only [size, List.length_cons, List.drop_succ_cons, List.length_drop] at hle ⊢
          by_cases hempty : List.drop capacity more = []
          · simp [putBack, hempty]
          · have : 0 < (List.drop capacity more).length := List.length_pos_iff.mpr hempty
            omega

/-- Reading a positive number of bytes takes something away from the source. -/
theorem size_lt_of_readExact {count : Nat} {source rest : Source} {bytes : Bytes}
    (hcount : 0 < count) (hread : source.readExact count = (.done bytes, rest)) :
    rest.size < source.size := by
  induction source generalizing count bytes rest with
  | nil => simp [readExact, Nat.ne_of_gt hcount] at hread
  | cons arrival tail ih =>
    cases arrival with
    | failure fault => simp [readExact, Nat.ne_of_gt hcount] at hread
    | silence => simp [readExact, Nat.ne_of_gt hcount] at hread
    | chunk chunk =>
      simp only [readExact, Nat.ne_of_gt hcount, if_false] at hread
      split at hread
      · simp at hread
      · rename_i hchunk
        split at hread
        · simp only [Prod.mk.injEq, Reading.done.injEq] at hread
          obtain ⟨-, rfl⟩ := hread
          have hle := size_putBack_le (List.drop count chunk) tail
          simp only [size, List.length_drop] at hle ⊢
          by_cases hempty : List.drop count chunk = []
          · simp [putBack, hempty]
          · have : 0 < (List.drop count chunk).length := List.length_pos_iff.mpr hempty
            simp only [List.length_drop] at this
            omega
        · rename_i hlong
          split at hread <;> simp only [Prod.mk.injEq, reduceCtorEq, false_and] at hread
          rename_i more remaining hmore
          obtain ⟨-, rfl⟩ := hread
          have := ih (by omega) hmore
          simp only [size]
          omega

/-- The bytes that arrive before anything else happens. -/
def bytes : Source → Bytes
  | .chunk bytes :: rest => if bytes.isEmpty then [] else bytes ++ Source.bytes rest
  | _ => []

end Source

/-! ## Sinks -/

/-- What happens to one call that writes. -/
inductive Acceptance where
  /-- At most so many bytes are taken. -/
  | take (limit : Nat)
  /-- At most so many bytes are taken, and the signal to stop is raised. -/
  | takeAndStop (limit : Nat)
  | failure (fault : IoFault)
  | silence
  deriving DecidableEq, Inhabited

namespace Acceptance

/-- The bytes taken of a number offered, and whether the signal to stop is
raised; nothing if the call takes no part in the stream. -/
def taken? (offered : Nat) : Acceptance → Option (Nat × Bool)
  | take limit => some (min limit offered, false)
  | takeAndStop limit => some (min limit offered, true)
  | failure _ => none
  | silence => none

def fault? : Acceptance → Option IoFault
  | failure fault => some fault
  | _ => none

end Acceptance

/-- A stream that is written to. -/
structure Sink where
  /-- What happens to the calls to come, or nothing if all bytes are taken. -/
  script : Option (List Acceptance) := none
  written : Bytes := []
  /-- Whether the signal to stop was raised. -/
  stopped : Bool := false
  deriving Inhabited

namespace Sink

/-- The sink, with the signal to stop raised by somebody else if `told`. -/
def tell (sink : Sink) (told : Bool) : Sink := { sink with stopped := sink.stopped || told }

/-- Writes all bytes through the calls of a list. -/
def writeAllWith : List Acceptance → Bytes → Sink → Reading Unit × Sink
  | script, [], sink => (.done (), { sink with script := some script })
  | [], _, sink => (.failed .nothingWritten, { sink with script := some [] })
  | next :: rest, bytes, sink =>
    match next.taken? bytes.length with
    | none =>
      match next.fault? with
      | some fault => (.failed fault, { sink with script := some rest })
      | none => (.waiting, { sink with script := some (next :: rest) })
    | some (count, raises) =>
      let sink := { sink with
        written := sink.written ++ bytes.take count, stopped := sink.stopped || raises }
      if count = 0 then (.failed .nothingWritten, { sink with script := some rest })
      else writeAllWith rest (bytes.drop count) sink

def writeAll (sink : Sink) (bytes : Bytes) : Reading Unit × Sink :=
  match sink.script with
  | none => (.done (), { sink with written := sink.written ++ bytes })
  | some script => writeAllWith script bytes sink

end Sink

end LinkMeter.Wire
