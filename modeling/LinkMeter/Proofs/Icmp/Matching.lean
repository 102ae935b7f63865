import LinkMeter.Icmp.Match
import Mathlib.Tactic.Common

/-!
# Answers reach their own probe

Every answer to a probe is recognized, however long the headers in front of it
are and whatever follows (`classify_of_answers`), and no datagram answers two
probes (`classify_exclusive`).  The second holds because all that a datagram
can say about a probe stands in one place, its `subject?`, which depends on the
datagram alone.

Datagrams come from strangers, so no read may rely on their length.
`readDatagram?` takes every byte by its position and has no result when a
position is out of bounds; it always has one, and it is the same.
-/

namespace LinkMeter.Icmp

/-! ## Numbers of sixteen bits -/

theorem toNat_wordOf (high low : UInt8) :
    (wordOf high low).toNat = high.toNat * 256 + low.toNat := by
  have hhigh := high.toNat_lt
  have hlow := low.toNat_lt
  simp only [wordOf, UInt16.toNat_add, UInt16.toNat_mul, UInt8.toNat_toUInt16, UInt16.reduceToNat]
  omega

@[simp] theorem wordOf_wordBytes (word : UInt16) :
    wordOf (word / 256).toUInt8 (word % 256).toUInt8 = word := by
  have hword := word.toNat_lt
  rw [← UInt16.toNat_inj, toNat_wordOf]
  simp only [UInt16.toNat_toUInt8, UInt16.toNat_div, UInt16.toNat_mod, UInt16.reduceToNat]
  omega

@[simp] theorem ProbeId.ofSequence_sequence (probe : ProbeId) :
    ofSequence probe.sequence = probe := by
  have hattempt := probe.attempt.toNat_lt
  have hhop := probe.hop.toNat_lt
  have hsequence : probe.sequence.toNat = probe.hop.toNat * 256 + probe.attempt.toNat :=
    toNat_wordOf probe.hop probe.attempt
  obtain ⟨hop, attempt⟩ := probe
  simp only [ofSequence, mk.injEq, ← UInt8.toNat_inj, UInt16.toNat_toUInt8, UInt16.toNat_div,
    UInt16.toNat_mod, UInt16.reduceToNat, hsequence] at *
  omega

@[simp] theorem ProbeId.sequence_ofSequence (sequence : UInt16) :
    (ofSequence sequence).sequence = sequence :=
  wordOf_wordBytes sequence

/-! ## Echo messages -/

section Echo

variable {isV6 : Bool} {identifier sequence : UInt16} {body message : Bytes} {expected : Expected}

/-- The type and the two numbers of an echo request stand at fixed positions. -/
theorem exists_echoRequest (isV6 : Bool) (identifier sequence : UInt16) (body : Bytes) :
    ∃ high low, echoRequest isV6 identifier sequence body =
      requestType isV6 :: 0 :: high :: low ::
        (identifier / 256).toUInt8 :: (identifier % 256).toUInt8 ::
        (sequence / 256).toUInt8 :: (sequence % 256).toUInt8 :: body := by
  cases isV6
  · exact ⟨_, _, rfl⟩
  · exact ⟨_, _, rfl⟩

theorem Echo.ofBytes?_request (rest : Bytes) :
    ofBytes? ((echoRequest isV6 identifier sequence body).take 8 ++ rest) =
      some ⟨requestType isV6, identifier, sequence, rest⟩ := by
  obtain ⟨high, low, hrequest⟩ := exists_echoRequest isV6 identifier sequence body
  simp [hrequest, Echo.ofBytes?]

theorem Echo.ofBytes?_reply (type : UInt8) (rest : Bytes) :
    ofBytes? ((echoRequest isV6 identifier sequence body).set 0 type ++ rest) =
      some ⟨type, identifier, sequence, body ++ rest⟩ := by
  obtain ⟨high, low, hrequest⟩ := exists_echoRequest isV6 identifier sequence body
  simp [hrequest, Echo.ofBytes?]

theorem isOwnRequest_iff :
    isOwnRequest isV6 expected message = true ↔
      ∃ echo, Echo.ofBytes? message = some echo ∧ echo.type = requestType isV6 ∧
        echo.identifier = expected.identifier ∧ echo.sequence = expected.sequence := by
  unfold isOwnRequest
  cases Echo.ofBytes? message <;> simp [and_assoc]

theorem isReply_iff :
    isReply expected message = true ↔
      ∃ echo, Echo.ofBytes? message = some echo ∧ echo.identifier = expected.identifier ∧
        echo.sequence = expected.sequence ∧ expected.body <+: echo.body := by
  unfold isReply
  cases Echo.ofBytes? message <;> simp [and_assoc]

end Echo

/-! ## Answers -/

/-- A header of an IPv4 datagram: five to fifteen units of four bytes, as the low half of its
first byte says. -/
structure IsV4Header (header : Bytes) : Prop where
  le_length : 20 ≤ header.length
  length_eq : header.length = (header.headD 0 % 16).toNat * 4

/-- What stands in front of a message: in the IPv6 family, nothing. -/
def IsOuterHeader (isV6 : Bool) (header : Bytes) : Prop :=
  if isV6 then header = [] else IsV4Header header

/-- What stands in front of a quoted request: in the IPv6 family, any forty bytes. -/
def IsQuotedHeader (isV6 : Bool) (header : Bytes) : Prop :=
  if isV6 then header.length = 40 else IsV4Header header

/-- The type of a message that answers a probe. -/
def Answer.type (isV6 : Bool) : Answer → UInt8
  | .reply => if isV6 then 129 else 0
  | .timeExceeded => if isV6 then 3 else 11
  | .unreachable => if isV6 then 1 else 3

/-- The datagrams that answer a probe.  A reply is the request with another type, and perhaps more
bytes behind it; an error quotes at least the first eight bytes of the request. -/
inductive Answers (isV6 : Bool) (request : Bytes) : Answer → Bytes → Prop
  | reply {outer : Bytes} (trailing : Bytes) : IsOuterHeader isV6 outer →
      Answers isV6 request .reply
        (outer ++ (request.set 0 (Answer.reply.type isV6) ++ trailing))
  | error {answer : Answer} {outer rest inner : Bytes} (trailing : Bytes) :
      answer ≠ .reply → IsOuterHeader isV6 outer → rest.length = 7 → IsQuotedHeader isV6 inner →
      Answers isV6 request answer
        (outer ++ (answer.type isV6 :: rest ++ (inner ++ (request.take 8 ++ trailing))))

@[simp] theorem answerOfType?_type (isV6 : Bool) (answer : Answer) :
    answerOfType? isV6 (answer.type isV6) = some answer := by
  cases isV6 <;> cases answer <;> decide

theorem afterV4Header?_append {header : Bytes} (hheader : IsV4Header header) (rest : Bytes) :
    afterV4Header? (header ++ rest) = some rest := by
  obtain ⟨hle, hlength⟩ := hheader
  have hhead : (header ++ rest).headD 0 = header.headD 0 := by
    cases header with
    | nil => simp at hle
    | cons first rest => rfl
  simp only [afterV4Header?, hhead, ← hlength, List.length_append, List.drop_left]
  rw [if_neg (by omega), if_neg (by omega)]

/-- The message of a datagram is found behind its header. -/
theorem classify_append {isV6 : Bool} {outer message : Bytes} (houter : IsOuterHeader isV6 outer)
    (hmessage : 4 ≤ message.length) (expected : Expected) :
    classify isV6 expected (outer ++ message) = classifyMessage isV6 expected message := by
  cases isV6 with
  | true =>
      simp only [IsOuterHeader, if_true] at houter
      simp [houter, classify]
  | false =>
      have hafter := afterV4Header?_append houter message
      simp [classify, hafter, Nat.not_lt.2 hmessage]

/-- The quoted request is found behind its header. -/
theorem quotesRequest_append {isV6 : Bool} {front inner : Bytes} (hfront : front.length = 8)
    (hinner : IsQuotedHeader isV6 inner) (expected : Expected) (quote : Bytes) :
    quotesRequest isV6 expected (front ++ (inner ++ quote)) = isOwnRequest isV6 expected quote := by
  cases isV6 with
  | true =>
      simp only [IsQuotedHeader, if_true] at hinner
      have hlength : 48 = (front ++ inner).length := by
        rw [List.length_append, hfront, hinner]
      rw [quotesRequest, if_pos rfl, ← List.append_assoc, hlength, List.drop_left]
  | false =>
      have hafter := afterV4Header?_append hinner quote
      simp [quotesRequest, ← hfront, hafter]

/-- Every answer to a probe is recognized. -/
theorem classify_of_answers {isV6 : Bool} {identifier sequence : UInt16} {body datagram : Bytes}
    {answer : Answer}
    (hanswers : Answers isV6 (echoRequest isV6 identifier sequence body) answer datagram) :
    classify isV6 ⟨identifier, sequence, body⟩ datagram = some answer := by
  obtain ⟨high, low, hrequest⟩ := exists_echoRequest isV6 identifier sequence body
  cases hanswers with
  | reply trailing houter =>
      have hreply : isReply ⟨identifier, sequence, body⟩
          ((echoRequest isV6 identifier sequence body).set 0 (Answer.reply.type isV6) ++
            trailing) := by
        refine isReply_iff.2 ⟨_, Echo.ofBytes?_reply _ trailing, rfl, rfl, ?_⟩
        exact List.prefix_append body trailing
      have htype : ((echoRequest isV6 identifier sequence body).set 0 (Answer.reply.type isV6) ++
          trailing).headD 0 = Answer.reply.type isV6 := by
        simp [hrequest]
      rw [classify_append houter (by simp [hrequest]), classifyMessage, htype,
        answerOfType?_type, Option.filter_some, if_pos hreply]
  | @error _ outer rest inner trailing hnot houter hrest hinner =>
      have hquote : quotesRequest isV6 ⟨identifier, sequence, body⟩
          (answer.type isV6 :: rest ++ (inner ++
            ((echoRequest isV6 identifier sequence body).take 8 ++ trailing))) := by
        rw [quotesRequest_append (by simp [hrest]) hinner, isOwnRequest_iff]
        exact ⟨_, Echo.ofBytes?_request trailing, rfl, rfl, rfl⟩
      rw [classify_append houter (by simp; omega), classifyMessage, List.cons_append,
        List.headD_cons, answerOfType?_type, Option.filter_some]
      cases answer with
      | reply => exact absurd rfl hnot
      | timeExceeded => exact if_pos hquote
      | unreachable => exact if_pos hquote

/-! ## The subject of a datagram -/

/-- The message that a datagram carries. -/
def message? (isV6 : Bool) (datagram : Bytes) : Option Bytes :=
  if isV6 then some datagram else afterV4Header? datagram

/-- What an error message quotes. -/
def quoted? (isV6 : Bool) (message : Bytes) : Option Bytes :=
  if isV6 then some (message.drop 48) else afterV4Header? (message.drop 8)

/-- The echo message that a datagram speaks of: its own if its type is that of a reply, and the
quoted one if its type is that of an error. -/
def subject? (isV6 : Bool) (datagram : Bytes) : Option Echo :=
  (message? isV6 datagram).bind fun message =>
    if answerOfType? isV6 (message.headD 0) = some .reply then Echo.ofBytes? message
    else (quoted? isV6 message).bind Echo.ofBytes?

theorem exists_quoted {isV6 : Bool} {expected : Expected} {message : Bytes}
    (hquotes : quotesRequest isV6 expected message = true) :
    ∃ echo, (quoted? isV6 message).bind Echo.ofBytes? = some echo ∧
      echo.identifier = expected.identifier ∧ echo.sequence = expected.sequence := by
  cases isV6 with
  | true =>
      obtain ⟨echo, hecho, -, hsame⟩ := isOwnRequest_iff.1 hquotes
      exact ⟨echo, hecho, hsame⟩
  | false =>
      cases hafter : afterV4Header? (message.drop 8) with
      | none => simp [quotesRequest, hafter] at hquotes
      | some quote =>
          simp only [quotesRequest, Bool.false_eq_true, if_false, hafter] at hquotes
          obtain ⟨echo, hecho, -, hsame⟩ := isOwnRequest_iff.1 hquotes
          exact ⟨echo, by simpa [quoted?, hafter] using hecho, hsame⟩

/-- A probe is answered only by a datagram that speaks of it. -/
theorem exists_subject {isV6 : Bool} {expected : Expected} {datagram : Bytes} {answer : Answer}
    (hanswer : classify isV6 expected datagram = some answer) :
    ∃ echo, subject? isV6 datagram = some echo ∧
      echo.identifier = expected.identifier ∧ echo.sequence = expected.sequence := by
  -- where the message lies does not depend on the probe
  have hmessage : ∃ message, message? isV6 datagram = some message ∧
      classifyMessage isV6 expected message = some answer := by
    cases isV6 with
    | true => exact ⟨datagram, rfl, hanswer⟩
    | false =>
        simp only [classify, Bool.false_eq_true, if_false] at hanswer
        obtain ⟨message, hafter, hanswer⟩ := Option.bind_eq_some_iff.1 hanswer
        refine ⟨message, hafter, ?_⟩
        split at hanswer
        · cases hanswer
        · exact hanswer
  obtain ⟨message, hmessage, hclassify⟩ := hmessage
  rw [classifyMessage, Option.filter_eq_some_iff] at hclassify
  obtain ⟨htype, hmatches⟩ := hclassify
  simp only [subject?, hmessage, Option.bind_some, htype]
  cases answer with
  | reply =>
      obtain ⟨echo, hecho, hidentifier, hsequence, -⟩ := isReply_iff.1 hmatches
      exact ⟨echo, hecho, hidentifier, hsequence⟩
  | timeExceeded => exact exists_quoted hmatches
  | unreachable => exact exists_quoted hmatches

/-- No datagram answers two probes. -/
theorem classify_exclusive {isV6 : Bool} {first second : Expected} {datagram : Bytes}
    {answer : Answer} (hanswer : classify isV6 first datagram = some answer)
    (hother : first.identifier ≠ second.identifier ∨ first.sequence ≠ second.sequence) :
    classify isV6 second datagram = none := by
  obtain ⟨echo, hsubject, hidentifier, hsequence⟩ := exists_subject hanswer
  cases hsecond : classify isV6 second datagram with
  | none => rfl
  | some other =>
      -- both probes are the one that the datagram speaks of
      obtain ⟨same, hsame, hidentifier', hsequence'⟩ := exists_subject hsecond
      rw [hsubject, Option.some_inj] at hsame
      subst hsame
      rcases hother with hne | hne
      · exact absurd (hidentifier.symm.trans hidentifier') hne
      · exact absurd (hsequence.symm.trans hsequence') hne

/-! ## Reading by position

Where a string may be too short a length is checked first; all other reads have no result out of
bounds. -/

section Position

variable {isV6 : Bool} {expected : Expected} {bytes message : Bytes} {start count : Nat}

/-- The bytes from a position on. -/
def from? (bytes : Bytes) (start : Nat) : Option Bytes :=
  if start ≤ bytes.length then some (bytes.drop start) else none

/-- So many bytes from a position on. -/
def slice? (bytes : Bytes) (start count : Nat) : Option Bytes :=
  if start + count ≤ bytes.length then some ((bytes.drop start).take count) else none

/-- The identifier and the sequence number of an echo message. -/
def numbers? (message : Bytes) : Option (UInt16 × UInt16) := do
  let i ← message[4]?
  let j ← message[5]?
  let s ← message[6]?
  let t ← message[7]?
  return (wordOf i j, wordOf s t)

def readRequest? (isV6 : Bool) (expected : Expected) (header : Bytes) : Option Bool := do
  let type ← header[0]?
  if type ≠ requestType isV6 then return false
  let (identifier, sequence) ← numbers? header
  return identifier == expected.identifier && sequence == expected.sequence

/-- Whether a request stands at a position; there may be too few bytes for one. -/
def readRequestAt? (isV6 : Bool) (expected : Expected) (bytes : Bytes) (start : Nat) :
    Option Bool :=
  match slice? bytes start 8 with
  | some header => readRequest? isV6 expected header
  | none => return false

def readQuote? (isV6 : Bool) (expected : Expected) (message : Bytes) : Option Bool :=
  if isV6 then readRequestAt? isV6 expected message 48
  else
    match from? message 8 with
    | none => return false
    | some quoted =>
      if quoted.length < 20 then return false
      else do
        let first ← quoted[0]?
        readRequestAt? isV6 expected quoted ((first % 16).toNat * 4)

def readReply? (expected : Expected) (message : Bytes) : Option Bool :=
  if message.length < 8 then return false
  else do
    let (identifier, sequence) ← numbers? message
    let body ← from? message 8
    return identifier == expected.identifier && sequence == expected.sequence &&
      expected.body.isPrefixOf body

def readMessage? (isV6 : Bool) (expected : Expected) (message : Bytes) :
    Option (Option Answer) := do
  let type ← message[0]?
  match answerOfType? isV6 type with
  | none => return none
  | some answer =>
    let answers ← match answer with
      | .reply => readReply? expected message
      | .timeExceeded | .unreachable => readQuote? isV6 expected message
    return if answers then some answer else none

/-- How a datagram answers a probe, if no read is out of bounds. -/
def readDatagram? (isV6 : Bool) (expected : Expected) (datagram : Bytes) :
    Option (Option Answer) :=
  if isV6 then
    if datagram.length < 8 then return none else readMessage? isV6 expected datagram
  else if datagram.length < 20 then return none
  else do
    let first ← datagram[0]?
    match from? datagram ((first % 16).toNat * 4) with
    | none => return none
    | some message =>
      if message.length < 4 then return none else readMessage? isV6 expected message

theorem exists_of_le_length (hlength : 8 ≤ message.length) :
    ∃ type code high low i j s t body,
      message = type :: code :: high :: low :: i :: j :: s :: t :: body := by
  have hfront : (message.take 8).length = 8 := by simp [hlength]
  rw [← List.take_append_drop 8 message]
  match message.take 8, hfront with
  | [type, code, high, low, i, j, s, t], _ =>
      exact ⟨type, code, high, low, i, j, s, t, message.drop 8, rfl⟩

theorem Echo.ofBytes?_eq_none (hlength : message.length < 8) : ofBytes? message = none := by
  unfold ofBytes?
  split
  · simp only [List.length_cons] at hlength
    omega
  · rfl

theorem isOwnRequest_eq_false (hlength : message.length < 8) :
    isOwnRequest isV6 expected message = false := by
  rw [isOwnRequest, Echo.ofBytes?_eq_none hlength]

theorem readRequest?_take (hlength : 8 ≤ message.length) :
    readRequest? isV6 expected (message.take 8) = some (isOwnRequest isV6 expected message) := by
  obtain ⟨type, _, _, _, i, j, s, t, body, rfl⟩ := exists_of_le_length hlength
  by_cases htype : type = requestType isV6
  · simp [readRequest?, numbers?, isOwnRequest, Echo.ofBytes?, htype]
  · simp [readRequest?, isOwnRequest, Echo.ofBytes?, htype]

theorem readRequestAt?_eq :
    readRequestAt? isV6 expected bytes start =
      some (isOwnRequest isV6 expected (bytes.drop start)) := by
  have hdrop : (bytes.drop start).length = bytes.length - start := List.length_drop
  unfold readRequestAt? slice?
  by_cases hfits : start + 8 ≤ bytes.length
  · rw [if_pos hfits]
    exact readRequest?_take (by omega)
  · rw [if_neg hfits, isOwnRequest_eq_false (by omega)]
    rfl

/-- The length in the first byte of a header is taken only as far as the bytes reach. -/
theorem afterV4Header?_eq (hlength : 20 ≤ bytes.length) :
    ∃ first, bytes[0]? = some first ∧
      afterV4Header? bytes = from? bytes ((first % 16).toNat * 4) := by
  obtain ⟨first, rest, rfl⟩ :=
    List.exists_cons_of_length_pos (Nat.lt_of_lt_of_le (by decide) hlength)
  refine ⟨first, rfl, ?_⟩
  rw [afterV4Header?, if_neg (Nat.not_lt.2 hlength), List.headD_cons, from?]
  split
  · rw [if_neg (by omega)]
  · rw [if_pos (by omega)]

theorem afterV4Header?_eq_none (hlength : bytes.length < 20) : afterV4Header? bytes = none :=
  if_pos hlength

theorem readQuote?_eq :
    readQuote? isV6 expected message = some (quotesRequest isV6 expected message) := by
  cases isV6 with
  | true => exact readRequestAt?_eq
  | false =>
      simp only [readQuote?, quotesRequest, Bool.false_eq_true, if_false, from?]
      by_cases hfront : 8 ≤ message.length
      · rw [if_pos hfront]
        by_cases hquoted : (message.drop 8).length < 20
        · rw [afterV4Header?_eq_none hquoted]
          exact if_pos hquoted
        · obtain ⟨first, hfirst, hafter⟩ := afterV4Header?_eq (Nat.le_of_not_lt hquoted)
          simp only [if_neg hquoted, hfirst, Option.bind_eq_bind, Option.bind_some,
            readRequestAt?_eq, hafter, from?]
          by_cases hreach : (first % 16).toNat * 4 ≤ (message.drop 8).length
          · rw [if_pos hreach]
          · -- the header says to be longer than the quote, and no request is found on either side
            rw [if_neg hreach, List.drop_eq_nil_of_le (Nat.le_of_not_le hreach)]
            rfl
      · rw [if_neg hfront, List.drop_eq_nil_of_le (by omega)]
        rfl

theorem readReply?_eq : readReply? expected message = some (isReply expected message) := by
  by_cases hlength : message.length < 8
  · rw [readReply?, if_pos hlength, isReply, Echo.ofBytes?_eq_none hlength]
    rfl
  · obtain ⟨type, _, _, _, i, j, s, t, body, rfl⟩ := exists_of_le_length (Nat.le_of_not_lt hlength)
    simp only [readReply?, if_neg hlength]
    simp [numbers?, from?, isReply, Echo.ofBytes?]

/-- A message without a whole header answers no probe. -/
theorem classifyMessage_eq_none (hlength : message.length < 8) :
    classifyMessage isV6 expected message = none := by
  have hreply : isReply expected message = false := by
    rw [isReply, Echo.ofBytes?_eq_none hlength]
  have hquotes : quotesRequest isV6 expected message = false := by
    rw [quotesRequest, List.drop_eq_nil_of_le (by omega), List.drop_eq_nil_of_le (by omega)]
    cases isV6 <;> rfl
  rw [classifyMessage, Option.filter_eq_none_iff]
  intro answer _
  cases answer <;> simp [hreply, hquotes]

theorem readMessage?_eq (hlength : 0 < message.length) :
    readMessage? isV6 expected message = some (classifyMessage isV6 expected message) := by
  obtain ⟨type, rest, rfl⟩ := List.exists_cons_of_length_pos hlength
  rw [readMessage?, classifyMessage, List.headD_cons]
  cases htype : answerOfType? isV6 type with
  | none => simp [htype]
  | some answer => cases answer <;> simp [htype, readReply?_eq, readQuote?_eq, Option.filter_some]

/-- No read of a datagram is out of bounds. -/
theorem readDatagram?_eq :
    readDatagram? isV6 expected bytes = some (classify isV6 expected bytes) := by
  unfold readDatagram? classify
  cases isV6 with
  | true =>
      simp only [if_true]
      by_cases hlength : bytes.length < 8
      · rw [if_pos hlength, classifyMessage_eq_none hlength]
        rfl
      · rw [if_neg hlength]
        exact readMessage?_eq (by omega)
  | false =>
      simp only [Bool.false_eq_true, if_false]
      by_cases hlength : bytes.length < 20
      · rw [if_pos hlength, afterV4Header?_eq_none hlength]
        rfl
      · obtain ⟨first, hfirst, hafter⟩ := afterV4Header?_eq (Nat.le_of_not_lt hlength)
        simp only [if_neg hlength, hfirst, Option.bind_eq_bind, Option.bind_some, hafter]
        cases from? bytes ((first % 16).toNat * 4) with
        | none => rfl
        | some message =>
            simp only [Option.bind_some]
            split
            · rfl
            · exact readMessage?_eq (by omega)

end Position

/-! ## Complete and exclusive -/

/-- Probes are numbered one to one, and every answer to a probe is recognized.  Of any datagram
nothing is read out of bounds, and if it answers one probe, it answers none with another
identifier, hop or attempt. -/
theorem classify_complete_exclusive :
    (∀ probe, ProbeId.ofSequence probe.sequence = probe) ∧
    (∀ sequence, (ProbeId.ofSequence sequence).sequence = sequence) ∧
    (∀ isV6 identifier (probe : ProbeId) body answer datagram,
      Answers isV6 (echoRequest isV6 identifier probe.sequence body) answer datagram →
      classify isV6 ⟨identifier, probe.sequence, body⟩ datagram = some answer) ∧
    ∀ isV6 datagram,
      (∀ expected, readDatagram? isV6 expected datagram =
        some (classify isV6 expected datagram)) ∧
      ∀ (first second : Expected) answer, classify isV6 first datagram = some answer →
        first.identifier ≠ second.identifier ∨
          ProbeId.ofSequence first.sequence ≠ ProbeId.ofSequence second.sequence →
        classify isV6 second datagram = none := by
  refine ⟨ProbeId.ofSequence_sequence, ProbeId.sequence_ofSequence,
    fun _ _ _ _ _ _ => classify_of_answers,
    fun isV6 datagram => ⟨fun _ => readDatagram?_eq, ?_⟩⟩
  intro first second answer hanswer hother
  refine classify_exclusive hanswer (hother.imp_right fun hprobe hsequence => hprobe ?_)
  rw [hsequence]

/-- A router returns the third probe of hop two behind an IP header of 24 bytes, with one of 20
bytes in front of the quote; the probe before it is not answered. -/
theorem classify_complete_exclusive_hop :
    let request := echoRequest false 7 (ProbeId.sequence ⟨2, 3⟩) [1, 2, 3]
    let outer : Bytes := 0x46 :: List.replicate 23 0
    let inner : Bytes := 0x45 :: List.replicate 19 0
    let datagram := outer ++ (11 :: List.replicate 7 0 ++ (inner ++ (request.take 8 ++ [])))
    Answers false request .timeExceeded datagram ∧
      classify false ⟨7, ProbeId.sequence ⟨2, 3⟩, [1, 2, 3]⟩ datagram = some .timeExceeded ∧
      ((7 : UInt16) ≠ 7 ∨ ProbeId.ofSequence (ProbeId.sequence ⟨2, 3⟩) ≠
        ProbeId.ofSequence (ProbeId.sequence ⟨2, 2⟩)) ∧
      classify false ⟨7, ProbeId.sequence ⟨2, 2⟩, [1, 2, 3]⟩ datagram = none := by
  intro request outer inner datagram
  have hanswers : Answers false request .timeExceeded datagram :=
    .error [] (by decide) ⟨by decide, by decide⟩ rfl ⟨by decide, by decide⟩
  have hother : (7 : UInt16) ≠ 7 ∨ ProbeId.ofSequence (ProbeId.sequence ⟨2, 3⟩) ≠
      ProbeId.ofSequence (ProbeId.sequence ⟨2, 2⟩) := .inr (by decide)
  obtain ⟨-, -, hcomplete, hexclusive⟩ := classify_complete_exclusive
  have hanswer := hcomplete _ _ ⟨2, 3⟩ [1, 2, 3] _ _ hanswers
  exact ⟨hanswers, hanswer, hother,
    (hexclusive false datagram).2 _ ⟨7, ProbeId.sequence ⟨2, 2⟩, [1, 2, 3]⟩ _ hanswer hother⟩

end LinkMeter.Icmp
