import LinkMeter.Wire.Message
import Mathlib.Algebra.Order.Ring.Nat

/-!
# Decoding a field

`Takes decoder bytes value` says that a decoder takes a value from the head of
any string that begins with its bytes, and leaves the rest.  Decoders that
follow one another take their values one after the other (`Takes.bind`), so the
lemma of a record is a chain of the lemmas of its fields, in the order in which
they stand on the wire.

The converse says what a decoder takes its value from: a value that was decoded
stood at the head of the string (`eq_of_decodeUInt32` and its like), and values
that were decoded one after the other stood there one after the other
(`exists_of_bind`).
-/

namespace LinkMeter

/-! ## Numbers in bytes -/

namespace Bytes

theorem littleValue_little (width value : ℕ) :
    littleValue (little width value) = value % 256 ^ width := by
  induction width generalizing value with
  | zero => simp [little, littleValue, Nat.mod_one]
  | succ width ih =>
      have hbyte : (UInt8.ofNat (value % 256)).toNat = value % 256 := by simp
      rw [little, littleValue, ih, hbyte, Nat.pow_succ', Nat.mod_mul]

theorem bigValue_big (width value : ℕ) : bigValue (big width value) = value % 256 ^ width := by
  rw [bigValue, big, List.reverse_reverse, littleValue_little]

theorem little_littleValue (bytes : Bytes) : little bytes.length (littleValue bytes) = bytes := by
  induction bytes with
  | nil => rfl
  | cons byte bytes ih =>
      have hbyte := byte.toNat_lt
      have hmod : (byte.toNat + 256 * littleValue bytes) % 256 = byte.toNat := by omega
      have hdiv : (byte.toNat + 256 * littleValue bytes) / 256 = littleValue bytes := by omega
      rw [List.length_cons, little, littleValue, hmod, hdiv, ih, UInt8.ofNat_toNat]

theorem big_bigValue (bytes : Bytes) : big bytes.length (bigValue bytes) = bytes := by
  rw [big, bigValue, ← List.length_reverse, little_littleValue, List.reverse_reverse]

theorem littleValue_lt (bytes : Bytes) : littleValue bytes < 256 ^ bytes.length := by
  induction bytes with
  | nil => simp [littleValue]
  | cons byte bytes ih =>
      have hbyte := byte.toNat_lt
      rw [littleValue, List.length_cons, Nat.pow_succ]
      omega

end Bytes

/-! ## Spans in parts -/

namespace Span

variable (span : Span)

theorem toNat_seconds : (UInt64.ofNat span.seconds).toNat = span.seconds :=
  UInt64.toNat_ofNat_of_lt' span.seconds_lt

theorem toNat_subNanos : (UInt32.ofNat span.subNanos).toNat = span.subNanos :=
  UInt32.toNat_ofNat_of_lt' (Nat.lt_trans span.subNanos_lt (by decide))

theorem ofNanos?_eq_some_iff {nanos : ℕ} {span : Span} :
    ofNanos? nanos = some span ↔ span.nanos = nanos := by
  unfold ofNanos?
  constructor
  · intro h
    split at h
    case isTrue => exact congrArg Span.nanos (Option.some.inj h).symm
    case isFalse => exact absurd h (by simp)
  · rintro rfl
    rw [dif_pos span.nanos_lt]

/-- Seconds and nanoseconds make up the span that has all their nanoseconds. -/
theorem ofParts?_eq_some_iff {seconds : UInt64} {nanos : UInt32} {span : Span} :
    ofParts? seconds nanos = some span ↔
      span.nanos = seconds.toNat * 1_000_000_000 + nanos.toNat :=
  ofNanos?_eq_some_iff

end Span

namespace Wire

/-! ## Decoders -/

/-- The decoder takes the value from the head of every string that begins with the bytes. -/
def Takes {α : Type} (decoder : Decoder α) (bytes : Bytes) (value : α) : Prop :=
  ∀ rest, decoder (bytes ++ rest) = .ok (value, rest)

theorem Takes.bind {α β : Type} {decoder : Decoder α} {bytes : Bytes} {value : α}
    (h : Takes decoder bytes value) (rest : Bytes)
    (next : α × Bytes → Except CodecFault β) :
    (decoder (bytes ++ rest) >>= next) = next (value, rest) := by
  rw [h rest]
  rfl

/-- A decoder that takes a value from either of two equal strings takes the same value and leaves
the same rest. -/
theorem Takes.inj {α : Type} {decoder : Decoder α} {first second restOfFirst restOfSecond : Bytes}
    {value other : α} (hfirst : Takes decoder first value) (hsecond : Takes decoder second other)
    (h : first ++ restOfFirst = second ++ restOfSecond) :
    value = other ∧ restOfFirst = restOfSecond := by
  have htaken := hfirst restOfFirst
  rw [h, hsecond restOfSecond] at htaken
  cases htaken
  exact ⟨rfl, rfl⟩

theorem takes_nat {width value : ℕ} (h : value < 256 ^ width) :
    Takes (decodeNat width) (Bytes.little width value) value := by
  intro rest
  have hlength := Bytes.length_little width value
  have hshort : ¬ (Bytes.little width value ++ rest).length < width := by
    rw [List.length_append, hlength]
    omega
  rw [decodeNat, if_neg hshort, List.take_left' hlength, List.drop_left' hlength,
    Bytes.littleValue_little, Nat.mod_eq_of_lt h]

theorem takes_uint8 (value : UInt8) : Takes decodeUInt8 [value] value := by
  intro rest
  have hbyte : [value] = Bytes.little 1 value.toNat := by
    simp [Bytes.little]
  rw [decodeUInt8, hbyte, (takes_nat (by simpa using value.toNat_lt)).bind]
  simp [pure, Except.pure]

theorem takes_uint32 (value : UInt32) : Takes decodeUInt32 (encodeUInt32 value) value := by
  intro rest
  rw [decodeUInt32, encodeUInt32, (takes_nat (by simpa using value.toNat_lt)).bind]
  simp [pure, Except.pure]

theorem takes_uint64 (value : UInt64) : Takes decodeUInt64 (encodeUInt64 value) value := by
  intro rest
  rw [decodeUInt64, encodeUInt64, (takes_nat (by simpa using value.toNat_lt)).bind]
  simp [pure, Except.pure]

/-! ## Truth values and choices -/

theorem takes_bool (value : Bool) : Takes decodeBool (encodeBool value) value := by
  intro rest
  rw [decodeBool, encodeBool, (takes_uint8 _).bind]
  cases value <;> rfl

theorem takes_case {α : Type} {values : List α} {number : UInt32} {value : α}
    (hvalue : values[number.toNat]? = some value) :
    Takes (decodeCase values) (encodeUInt32 number) value := by
  intro rest
  rw [decodeCase, encodeUInt32, (takes_nat (by simpa using number.toNat_lt)).bind]
  dsimp only
  rw [hvalue]
  rfl

/-! ## What a value was decoded from -/

theorem exists_of_bind {ε α β : Type} {first : Except ε α} {next : α → Except ε β} {value : β}
    (h : (first >>= next) = .ok value) :
    ∃ middle, first = .ok middle ∧ next middle = .ok value := by
  cases first with
  | error fault => cases h
  | ok middle => exact ⟨middle, rfl, h⟩

variable {bytes rest : Bytes}

theorem eq_of_decodeNat {width value : ℕ} (h : decodeNat width bytes = .ok (value, rest)) :
    bytes = Bytes.little width value ++ rest ∧ value < 256 ^ width := by
  unfold decodeNat at h
  split at h
  case isTrue => cases h
  case isFalse hshort =>
    cases h
    have hlength : (bytes.take width).length = width := List.length_take_of_le (by omega)
    have hback := Bytes.little_littleValue (bytes.take width)
    have hlt := Bytes.littleValue_lt (bytes.take width)
    rw [hlength] at hback hlt
    rw [hback, List.take_append_drop]
    exact ⟨rfl, hlt⟩

theorem eq_of_decodeUInt8 {value : UInt8} (h : decodeUInt8 bytes = .ok (value, rest)) :
    bytes = value :: rest := by
  obtain ⟨⟨number, _⟩, hnumber, hvalue⟩ := exists_of_bind h
  cases hvalue
  obtain ⟨rfl, hlt⟩ := eq_of_decodeNat hnumber
  have hmod : number % 256 = number := Nat.mod_eq_of_lt (by simpa using hlt)
  simp [Bytes.little, hmod]

theorem eq_of_decodeUInt32 {value : UInt32} (h : decodeUInt32 bytes = .ok (value, rest)) :
    bytes = encodeUInt32 value ++ rest := by
  obtain ⟨⟨number, _⟩, hnumber, hvalue⟩ := exists_of_bind h
  cases hvalue
  obtain ⟨rfl, hlt⟩ := eq_of_decodeNat hnumber
  rw [encodeUInt32, UInt32.toNat_ofNat_of_lt' (by simpa using hlt)]

theorem eq_of_decodeUInt64 {value : UInt64} (h : decodeUInt64 bytes = .ok (value, rest)) :
    bytes = encodeUInt64 value ++ rest := by
  obtain ⟨⟨number, _⟩, hnumber, hvalue⟩ := exists_of_bind h
  cases hvalue
  obtain ⟨rfl, hlt⟩ := eq_of_decodeNat hnumber
  rw [encodeUInt64, UInt64.toNat_ofNat_of_lt' (by simpa using hlt)]

theorem eq_of_decodeBool {value : Bool} (h : decodeBool bytes = .ok (value, rest)) :
    bytes = (if value then 1 else 0) :: rest := by
  obtain ⟨⟨byte, _⟩, hbyte, hvalue⟩ := exists_of_bind h
  obtain rfl := eq_of_decodeUInt8 hbyte
  dsimp only at hvalue
  by_cases hzero : byte = 0
  · rw [if_pos hzero] at hvalue
    cases hvalue
    rw [hzero]
    rfl
  · rw [if_neg hzero] at hvalue
    by_cases hone : byte = 1
    · rw [if_pos hone] at hvalue
      cases hvalue
      rw [hone]
      rfl
    · rw [if_neg hone] at hvalue
      cases hvalue

theorem exists_of_decodeCase {α : Type} {values : List α} {value : α}
    (h : decodeCase values bytes = .ok (value, rest)) :
    ∃ number : UInt32, bytes = encodeUInt32 number ++ rest ∧
      values[number.toNat]? = some value := by
  obtain ⟨⟨number, _⟩, hnumber, hvalue⟩ := exists_of_bind h
  obtain ⟨rfl, hlt⟩ := eq_of_decodeNat hnumber
  have hback : (UInt32.ofNat number).toNat = number :=
    UInt32.toNat_ofNat_of_lt' (by simpa using hlt)
  dsimp only at hvalue
  split at hvalue
  case h_1 found hfound =>
    cases hvalue
    exact ⟨UInt32.ofNat number, by rw [encodeUInt32, hback], by rw [hback, hfound]⟩
  case h_2 => cases hvalue

end Wire

end LinkMeter
