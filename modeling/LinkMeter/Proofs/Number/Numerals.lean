import LinkMeter.Address.Text
import Mathlib.Data.Nat.Digits.Lemmas

/-!
# Numerals that are written and read

A numeral is written from the places of its number (`places`), in decimal or in
hexadecimal digits (`Decimal.render_eq`, `hexNumeral_eq`).  The places of a number
have the number as their value, begin with a zero only if the number is zero, and
are as few as the number allows.

A reader that takes digits as long as there are any gets the places back
(`spanDigits_map`), provided that what follows the numeral is no digit
(`Stops`).  A number of a fixed width is read from the texts that stand for it and
from no others (`Decimal.readBelow?_eq_some_iff`).
-/

namespace LinkMeter

/-- The digits of a number in a base, the highest first; zero has one. -/
def places (base n : ℕ) : List ℕ := if n = 0 then [0] else (Nat.digits base n).reverse

section Places

variable {base n : ℕ}

theorem places_of_lt (h : n < base) : places base n = [n] := by
  unfold places
  split
  case isTrue hzero => rw [hzero]
  case isFalse hzero => rw [Nat.digits_of_lt base n hzero h, List.reverse_singleton]

theorem places_of_le (hbase : 1 < base) (h : base ≤ n) :
    places base n = places base (n / base) ++ [n % base] := by
  have hpos : 0 < n := Nat.lt_of_lt_of_le (Nat.zero_lt_of_lt hbase) h
  have hrest : n / base ≠ 0 := (Nat.div_pos h (Nat.zero_lt_of_lt hbase)).ne'
  rw [places, places, if_neg hpos.ne', if_neg hrest, Nat.digits_def' hbase hpos,
    List.reverse_cons]

theorem places_ne_nil : places base n ≠ [] := by
  unfold places
  split
  · exact List.cons_ne_nil _ _
  · rwa [ne_eq, List.reverse_eq_nil_iff, Nat.digits_eq_nil_iff_eq_zero]

theorem lt_of_mem_places (hbase : 1 < base) {digit : ℕ} (hdigit : digit ∈ places base n) :
    digit < base := by
  unfold places at hdigit
  split at hdigit
  · rw [List.mem_singleton.1 hdigit]
    exact Nat.zero_lt_of_lt hbase
  · exact Nat.digits_lt_base hbase (List.mem_reverse.1 hdigit)

theorem length_places_le (hbase : 1 < base) {count : ℕ} (hcount : 0 < count)
    (h : n < base ^ count) : (places base n).length ≤ count := by
  unfold places
  split
  · exact hcount
  · rw [List.length_reverse]
    exact (Nat.digits_length_le_iff hbase n).2 h

/-- Only the number zero begins with a zero, and it has no other digit. -/
theorem length_places_of_head? (h : (places base n).head? = some 0) :
    (places base n).length = 1 := by
  unfold places at h ⊢
  split
  · rfl
  · next hzero =>
    -- the highest digit is the last one of those that begin with the lowest
    rw [if_neg hzero, List.head?_reverse, List.getLast?_eq_some_getLast
      (Nat.digits_ne_nil_iff_ne_zero.2 hzero)] at h
    exact absurd (Option.some.inj h) (Nat.getLast_digit_ne_zero base hzero)

theorem digitsValue_places (base n : ℕ) : digitsValue base (places base n) = n := by
  unfold places digitsValue
  split
  case isTrue hzero => simp [hzero]
  case isFalse =>
    rw [List.foldl_reverse]
    calc (Nat.digits base n).foldr (fun digit value => value * base + digit) 0
        = Nat.ofDigits base (Nat.digits base n) := by
          rw [Nat.ofDigits_eq_foldr]
          simp only [Nat.cast_id, Nat.add_comm, Nat.mul_comm]
      _ = n := Nat.ofDigits_digits base n

end Places

/-! ## Writing -/

theorem Decimal.render_eq (n : ℕ) : Decimal.render n = (places 10 n).map Decimal.digitChar := by
  fun_induction Decimal.render n with
  | case1 n h => rw [places_of_lt h, List.map_singleton]
  | case2 n h ih =>
      rw [places_of_le (by decide) (Nat.le_of_not_lt h), List.map_append, ih, List.map_singleton]

theorem Decimal.exists_render_cons (n : ℕ) :
    ∃ digit < 10, ∃ rest, Decimal.render n = Decimal.digitChar digit :: rest := by
  have hsome : places 10 n ≠ [] := places_ne_nil
  obtain ⟨digit, digits, hplaces⟩ := List.exists_cons_of_ne_nil hsome
  refine ⟨digit, lt_of_mem_places (by decide) (hplaces ▸ List.mem_cons_self),
    digits.map Decimal.digitChar, ?_⟩
  rw [Decimal.render_eq, hplaces, List.map_cons]

theorem hexNumeral_eq (n : ℕ) : hexNumeral n = (places 16 n).map hexDigit := by
  fun_induction hexNumeral n with
  | case1 n h => rw [places_of_lt h, List.map_singleton]
  | case2 n h ih =>
      rw [places_of_le (by decide) (Nat.le_of_not_lt h), List.map_append, ih, List.map_singleton]

/-! ## Reading -/

theorem Decimal.digitValue?_digitChar {digit : ℕ} (h : digit < 10) :
    Decimal.digitValue? (Decimal.digitChar digit) = some digit := by
  have hall : ∀ digit < 10, Decimal.digitValue? (Decimal.digitChar digit) = some digit := by decide
  exact hall digit h

/-- A digit is no other character. -/
theorem Decimal.digitChar_ne {digit : ℕ} (h : digit < 10) {c : Char}
    (hc : Decimal.digitValue? c = none) : Decimal.digitChar digit ≠ c := by
  rintro rfl
  rw [Decimal.digitValue?_digitChar h] at hc
  cases hc

theorem hexValue?_hexDigit {digit : ℕ} (h : digit < 16) :
    hexValue? (hexDigit digit) = some digit := by
  have hall : ∀ digit < 16, hexValue? (hexDigit digit) = some digit := by decide
  exact hall digit h

/-- No digit stands at the head of a text. -/
def Stops (digit? : Char → Option ℕ) (text : List Char) : Prop :=
  ∀ c ∈ text.head?, digit? c = none

/-- A run of digits is read to its end. -/
theorem spanDigits_map {digit? : Char → Option ℕ} {char : ℕ → Char} {digits : List ℕ}
    (hdigits : ∀ digit ∈ digits, digit? (char digit) = some digit) {rest : List Char}
    (hrest : Stops digit? rest) : spanDigits digit? (digits.map char ++ rest) = (digits, rest) := by
  induction digits with
  | nil =>
      cases rest with
      | nil => rfl
      | cons c rest => rw [List.map_nil, List.nil_append, spanDigits, hrest c rfl]
  | cons digit digits ih =>
      obtain ⟨hdigit, hdigits⟩ := List.forall_mem_cons.1 hdigits
      rw [List.map_cons, List.cons_append, spanDigits, hdigit]
      dsimp only
      rw [ih hdigits]

theorem spanDigits_render (n : ℕ) {rest : List Char} (hrest : Stops Decimal.digitValue? rest) :
    spanDigits Decimal.digitValue? (Decimal.render n ++ rest) = (places 10 n, rest) := by
  rw [Decimal.render_eq]
  exact spanDigits_map
    (fun _ hdigit => Decimal.digitValue?_digitChar (lt_of_mem_places (by decide) hdigit)) hrest

theorem spanDigits_hexNumeral (n : ℕ) {rest : List Char} (hrest : Stops hexValue? rest) :
    spanDigits hexValue? (hexNumeral n ++ rest) = (places 16 n, rest) := by
  rw [hexNumeral_eq]
  exact spanDigits_map
    (fun _ hdigit => hexValue?_hexDigit (lt_of_mem_places (by decide) hdigit)) hrest

/-- What a reader takes from a text and what it leaves are the text. -/
theorem spanDigits_suffix (digit? : Char → Option ℕ) (text : List Char) :
    (spanDigits digit? text).2 <:+ text := by
  induction text with
  | nil => exact List.suffix_refl _
  | cons c rest ih =>
      unfold spanDigits
      cases digit? c with
      | none => exact List.suffix_refl _
      | some digit => exact ih.trans (List.suffix_cons c rest)

/-- The number of a decimal numeral. -/
theorem Decimal.valueFrom_map {digits : List ℕ} (hdigits : ∀ digit ∈ digits, digit < 10)
    (start : ℕ) : Decimal.valueFrom start (digits.map Decimal.digitChar) =
      some (digits.foldl (fun value digit => value * 10 + digit) start) := by
  induction digits generalizing start with
  | nil => rfl
  | cons digit digits ih =>
      obtain ⟨hdigit, hdigits⟩ := List.forall_mem_cons.1 hdigits
      rw [List.map_cons, Decimal.valueFrom, Decimal.digitValue?_digitChar hdigit]
      exact ih hdigits _

theorem Decimal.read?_render (n : ℕ) : Decimal.read? (Decimal.render n) = some n := by
  rw [Decimal.read?, Decimal.render_eq, if_neg (by simpa using places_ne_nil),
    Decimal.valueFrom_map fun _ => lt_of_mem_places (by decide)]
  exact congrArg some (digitsValue_places 10 n)

theorem Decimal.eq_digitChar {c : Char} {digit : ℕ} (h : Decimal.digitValue? c = some digit) :
    digit < 10 ∧ c = Decimal.digitChar digit := by
  unfold Decimal.digitValue? at h
  split at h
  case isTrue hc =>
    obtain rfl := Option.some.inj h
    refine ⟨by omega, ?_⟩
    rw [Decimal.digitChar, Nat.add_sub_cancel' hc.1, Char.ofNat_toNat]
  case isFalse => cases h

/-- What has a number consists of digits. -/
theorem Decimal.exists_digits {text : List Char} {start n : ℕ}
    (h : Decimal.valueFrom start text = some n) :
    ∃ digits : List ℕ, (∀ digit ∈ digits, digit < 10) ∧ text = digits.map Decimal.digitChar := by
  induction text generalizing start with
  | nil => exact ⟨[], List.forall_mem_nil _, rfl⟩
  | cons c text ih =>
      obtain ⟨digit, hdigit, hrest⟩ := Option.bind_eq_some_iff.1 h
      obtain ⟨hlt, rfl⟩ := Decimal.eq_digitChar hdigit
      obtain ⟨digits, hdigits, rfl⟩ := ih hrest
      exact ⟨digit :: digits, List.forall_mem_cons.2 ⟨hlt, hdigits⟩, rfl⟩

/-! ## Numbers of a fixed width -/

/-- The text is a run of digits for the number, with any zeros in front. -/
def Decimal.IsNumeral (text : List Char) (n : ℕ) : Prop :=
  ∃ digits : List ℕ, digits ≠ [] ∧ (∀ digit ∈ digits, digit < 10) ∧
    text = digits.map Decimal.digitChar ∧ digitsValue 10 digits = n

/-- The text stands for the number, with a plus sign or without. -/
def Decimal.Writes (text : List Char) (n : ℕ) : Prop :=
  Decimal.IsNumeral text n ∨ ∃ digits, text = '+' :: digits ∧ Decimal.IsNumeral digits n

theorem Decimal.isNumeral_render (n : ℕ) : Decimal.IsNumeral (Decimal.render n) n :=
  ⟨places 10 n, places_ne_nil, fun _ => lt_of_mem_places (by decide), Decimal.render_eq n,
    digitsValue_places 10 n⟩

theorem Decimal.read?_eq_some_iff {text : List Char} {n : ℕ} :
    Decimal.read? text = some n ↔ Decimal.IsNumeral text n := by
  constructor
  · intro h
    unfold Decimal.read? at h
    split at h
    case isTrue => cases h
    case isFalse hsome =>
      obtain ⟨digits, hdigits, rfl⟩ := Decimal.exists_digits h
      rw [Decimal.valueFrom_map hdigits] at h
      exact ⟨digits, by simpa using hsome, hdigits, rfl, Option.some.inj h⟩
  · rintro ⟨digits, hsome, hdigits, rfl, rfl⟩
    rw [Decimal.read?, if_neg (by simpa using hsome), Decimal.valueFrom_map hdigits]
    rfl

/-- A sign is no digit. -/
theorem Decimal.not_isNumeral_plus (digits : List Char) (n : ℕ) :
    ¬ Decimal.IsNumeral ('+' :: digits) n := by
  rintro ⟨_, _, hdigits, htext, _⟩
  obtain ⟨digit, _, rfl, hplus, _⟩ := List.map_eq_cons_iff.1 htext.symm
  exact Decimal.digitChar_ne (hdigits digit List.mem_cons_self) (by decide) hplus

theorem Decimal.readBelow?_eq_some_iff {bound n : ℕ} {text : List Char} :
    Decimal.readBelow? bound text = some n ↔ n < bound ∧ Decimal.Writes text n := by
  unfold Decimal.readBelow? Decimal.Writes
  rw [Option.filter_eq_some_iff, Decimal.read?_eq_some_iff, and_comm, decide_eq_true_iff]
  refine and_congr_right fun _ => ?_
  split
  case h_1 rest =>
    constructor
    · exact fun h => .inr ⟨rest, rfl, h⟩
    · rintro (h | ⟨_, htext, h⟩)
      · exact absurd h (Decimal.not_isNumeral_plus rest n)
      · exact (List.cons.inj htext).2 ▸ h
  case h_2 hplus =>
    constructor
    · exact .inl
    · rintro (h | ⟨digits, rfl, _⟩)
      · exact h
      · exact absurd rfl (hplus digits)

end LinkMeter
