import LinkMeter.Json.Reader
import LinkMeter.Json.Writer
import LinkMeter.Proofs.Number.Numerals

/-!
# Values that are written and read

A value that denotes data (`Json.Data`) is read back from its text, whatever its
strings hold (`Json.parse_text`).  By induction on the value, a reader that meets
its text takes just that and leaves the rest (`Json.Reads`); what follows a value
is one of the characters that may stand behind a value, so a numeral cannot go
on.

The fuel of a reader is counted against the length of the text before it.
-/

namespace LinkMeter.Json

/-- The values that have a text of their own.  A number that is not natural is a text already, and
what is ill-formed has none. -/
inductive Data : Json → Prop
  | null : Data .null
  | bool (value : Bool) : Data (.bool value)
  | natural (value : ℕ) : Data (.natural value)
  | string (text : String) : Data (.string text)
  | array {items : List Json} (h : ∀ item ∈ items, Data item) : Data (.array items)
  | object {members : List (String × Json)} (h : ∀ member ∈ members, Data member.2) :
      Data (.object members)

/-! ## Strings -/

/-- A character is escaped by a letter, or by its four digits, or not at all. -/
theorem escapeChar_cases (c : Char) :
    (∃ letter, letter ≠ 'u' ∧ escapeLetter? letter = some c ∧ escapeChar c = ['\\', letter]) ∨
    (c.toNat < 32 ∧ escapeChar c =
      ['\\', 'u', '0', '0', hexDigit (c.toNat / 16), hexDigit (c.toNat % 16)]) ∨
    (c ≠ '"' ∧ c ≠ '\\' ∧ ¬ c.toNat < 32 ∧ escapeChar c = [c]) := by
  have hcode : ∀ {code : ℕ}, c.toNat = code → c = Char.ofNat code := fun h =>
    (Char.ofNat_toNat c).symm.trans (congrArg Char.ofNat h)
  unfold escapeChar
  split
  case isTrue h => exact .inl ⟨'"', by decide, by rw [h]; rfl, rfl⟩
  split
  case isTrue h => exact .inl ⟨'\\', by decide, by rw [h]; rfl, rfl⟩
  split
  case isTrue h => exact .inl ⟨'b', by decide, by rw [hcode h]; rfl, rfl⟩
  split
  case isTrue h => exact .inl ⟨'f', by decide, by rw [hcode h]; rfl, rfl⟩
  split
  case isTrue h => exact .inl ⟨'n', by decide, by rw [h]; rfl, rfl⟩
  split
  case isTrue h => exact .inl ⟨'r', by decide, by rw [h]; rfl, rfl⟩
  split
  case isTrue h => exact .inl ⟨'t', by decide, by rw [h]; rfl, rfl⟩
  split
  case isTrue h => exact .inr (.inl ⟨h, rfl⟩)
  case isFalse hquote hbackslash _ _ _ _ _ hplain =>
    exact .inr (.inr ⟨hquote, hbackslash, hplain, rfl⟩)

/-- Control characters are units of their own, and none is half of a surrogate pair. -/
theorem readEscape?_control {c : Char} (hc : c.toNat < 32) (rest : List Char) :
    readEscape? ('u' :: '0' :: '0' :: hexDigit (c.toNat / 16) :: hexDigit (c.toNat % 16) :: rest) =
      some (some c, rest) := by
  have hhigh : hexValue? (hexDigit (c.toNat / 16)) = some (c.toNat / 16) :=
    hexValue?_hexDigit (by omega)
  have hlow : hexValue? (hexDigit (c.toNat % 16)) = some (c.toNat % 16) :=
    hexValue?_hexDigit (by omega)
  have hunit : c.toNat / 16 * 16 + c.toNat % 16 = c.toNat := by omega
  have hnotHigh : isHighHalf c.toNat = false := by
    simp only [isHighHalf, Bool.and_eq_false_iff, decide_eq_false_iff_not]
    omega
  have hnotLow : isLowHalf c.toNat = false := by
    simp only [isLowHalf, Bool.and_eq_false_iff, decide_eq_false_iff_not]
    omega
  simp [readEscape?, readHex4?, show hexValue? '0' = some 0 from rfl, hhigh, hlow, hunit,
    hnotHigh, hnotLow, Char.ofNat_toNat]

/-- One character inside a string is read in one step. -/
theorem readStringFrom_escapeChar (c : Char) (fuel : ℕ) (reversed rest : List Char) :
    readStringFrom (fuel + 1) (some reversed) (escapeChar c ++ rest) =
      readStringFrom fuel (some (c :: reversed)) rest := by
  obtain ⟨letter, hletter, hread, hescape⟩ | ⟨hcontrol, hescape⟩ |
    ⟨hquote, hbackslash, hplain, hescape⟩ := escapeChar_cases c
  · have hone : readEscape? (letter :: rest) = some (some c, rest) := by
      rw [readEscape?, if_neg hletter, hread, Option.map_some]
    rw [hescape]
    simp [readStringFrom, hone]
  · rw [hescape]
    simp [readStringFrom, readEscape?_control hcontrol]
  · rw [hescape]
    simp [readStringFrom, hquote, hbackslash, hplain]

theorem readStringFrom_flatMap (text : List Char) {fuel : ℕ} (hfuel : text.length < fuel)
    (reversed rest : List Char) :
    readStringFrom fuel (some reversed) (text.flatMap escapeChar ++ '"' :: rest) =
      some (some (reversed.reverse ++ text), rest) := by
  induction text generalizing fuel reversed with
  | nil =>
      obtain ⟨fuel, rfl⟩ : ∃ fewer, fuel = fewer + 1 := ⟨fuel - 1, by omega⟩
      simp [readStringFrom]
  | cons c text ih =>
      obtain ⟨fuel, rfl⟩ : ∃ fewer, fuel = fewer + 1 := ⟨fuel - 1, by omega⟩
      rw [List.flatMap_cons, List.append_assoc, readStringFrom_escapeChar,
        ih (Nat.lt_of_succ_lt_succ hfuel), List.reverse_cons, List.append_assoc]
      rfl

theorem length_le_flatMap (text : List Char) : text.length ≤ (text.flatMap escapeChar).length := by
  induction text with
  | nil => exact Nat.le_refl _
  | cons c text ih =>
      have hpos : 0 < (escapeChar c).length := by
        obtain ⟨_, -, -, hescape⟩ | ⟨-, hescape⟩ | ⟨-, -, -, hescape⟩ := escapeChar_cases c <;>
          simp [hescape]
      rw [List.flatMap_cons, List.length_append, List.length_cons]
      omega

/-- A string is read to its closing quote. -/
theorem readString?_renderString (text : String) (rest : List Char) :
    readString? (text.toList.flatMap escapeChar ++ '"' :: rest) = some (some text, rest) := by
  have hlength := length_le_flatMap text.toList
  unfold readString?
  rw [readStringFrom_flatMap text.toList (by rw [List.length_append]; omega)]
  simp

/-! ## Numbers -/

/-- What may follow a value: nothing, or what stands between values and behind them. -/
def Ends (rest : List Char) : Prop := ∀ c ∈ rest.head?, c = ',' ∨ c = ']' ∨ c = '}'

theorem ends_cons {c : Char} (h : c = ',' ∨ c = ']' ∨ c = '}') (rest : List Char) :
    Ends (c :: rest) := by
  rintro _ ⟨⟩
  exact h

/-- No space and no digit may follow a value directly, and no part of a number. -/
theorem Ends.head {rest : List Char} (h : Ends rest) {c : Char} (hc : c ∈ rest.head?) :
    Decimal.isDigit c = false ∧ c ≠ '.' ∧ c ≠ 'e' ∧ c ≠ 'E' := by
  obtain rfl | rfl | rfl := h c hc <;> decide

theorem splitDigits_render (n : ℕ) {rest : List Char} (h : Ends rest) :
    splitDigits (Decimal.render n ++ rest) = (Decimal.render n, rest) := by
  have hdigits : ∀ c ∈ Decimal.render n, Decimal.isDigit c = true := by
    intro c hc
    rw [Decimal.render_eq, List.mem_map] at hc
    obtain ⟨digit, hdigit, rfl⟩ := hc
    rw [Decimal.isDigit, Decimal.digitValue?_digitChar (lt_of_mem_places (by decide) hdigit)]
    rfl
  have hrest : rest.takeWhile Decimal.isDigit = [] ∧ rest.dropWhile Decimal.isDigit = rest := by
    cases rest with
    | nil => exact ⟨rfl, rfl⟩
    | cons c rest => simp [(h.head rfl).1]
  unfold splitDigits
  rw [List.takeWhile_append_of_pos hdigits, List.dropWhile_append_of_pos hdigits, hrest.1, hrest.2,
    List.append_nil]

/-- The first digit of a numeral is a zero only if it is the only one. -/
theorem length_render_of_head? {n : ℕ} (h : (Decimal.render n).head? = some '0') :
    (Decimal.render n).length = 1 := by
  rw [Decimal.render_eq] at h ⊢
  rw [List.length_map]
  refine length_places_of_head? ?_
  rw [List.head?_map, Option.map_eq_some_iff] at h
  obtain ⟨digit, hdigit, hzero⟩ := h
  have hall : ∀ digit < 10, Decimal.digitChar digit = '0' → digit = 0 := by decide
  rw [hdigit, hall digit (lt_of_mem_places (by decide) (List.mem_of_mem_head? hdigit)) hzero]

theorem readMagnitude?_render (n : ℕ) {rest : List Char} (h : Ends rest) :
    readMagnitude? [] (Decimal.render n ++ rest) = some (natural n, rest) := by
  have hempty : (Decimal.render n).isEmpty = false := by
    simpa [Decimal.render_eq] using places_ne_nil
  have hwhole : readWhole? (Decimal.render n ++ rest) = some (Decimal.render n, rest) := by
    have hzero : ¬ ((Decimal.render n).head? = some '0' ∧ (Decimal.render n).length ≠ 1) :=
      fun hzero => hzero.2 (length_render_of_head? hzero.1)
    simp [readWhole?, readDigits?, splitDigits_render n h, hempty, hzero]
  have hfraction : readFraction? rest = some ([], rest) := by
    unfold readFraction?
    split
    · exact absurd rfl (h.head rfl).2.1
    · rfl
  have hexponent : readExponent? rest = some ([], rest) := by
    cases rest with
    | nil => rfl
    | cons c rest => simp [readExponent?, (h.head rfl).2.2.1, (h.head rfl).2.2.2]
  simp [readMagnitude?, hwhole, hfraction, hexponent, Decimal.read?_render]

/-! ## Values -/

/-- The first character of the text of a value. -/
theorem exists_render_cons {value : Json} (h : value.Data) :
    ∃ c text, value.render = c :: text ∧ isSpace c = false ∧ c ≠ ']' := by
  cases h with
  | null => exact ⟨'n', _, rfl, by decide, by decide⟩
  | bool value => cases value <;> exact ⟨_, _, rfl, by decide, by decide⟩
  | natural value =>
      obtain ⟨digit, hdigit, rest, hrender⟩ := Decimal.exists_render_cons value
      have hall : ∀ digit < 10, isSpace (Decimal.digitChar digit) = false ∧
          Decimal.digitChar digit ≠ ']' := by decide
      exact ⟨Decimal.digitChar digit, rest, hrender, hall digit hdigit⟩
  | string text => exact ⟨'"', _, rfl, by decide, by decide⟩
  | array h => exact ⟨'[', _, by rw [render]; rfl, by decide, by decide⟩
  | object h => exact ⟨'{', _, by rw [render]; rfl, by decide, by decide⟩

/-- A reader takes the text of the value and leaves the rest. -/
def Reads (value : Json) : Prop :=
  ∀ fuel rest, value.render.length ≤ fuel → Ends rest →
    readValue? (fuel + 1) (value.render ++ rest) = some (value, rest)

theorem skipSpace_cons {c : Char} (h : isSpace c = false) (rest : List Char) :
    skipSpace (c :: rest) = c :: rest := by
  rw [skipSpace, List.dropWhile_cons, h, if_neg Bool.false_ne_true]

theorem Ends.skipSpace_eq {rest : List Char} (h : Ends rest) : skipSpace rest = rest := by
  cases rest with
  | nil => rfl
  | cons c rest => obtain rfl | rfl | rfl := h c rfl <;> exact skipSpace_cons (by decide) rest

theorem reads_null : Reads null := fun _ _ _ _ => rfl

theorem reads_bool (value : Bool) : Reads (bool value) := fun _ _ _ _ => by cases value <;> rfl

theorem reads_natural (value : ℕ) : Reads (natural value) := by
  intro fuel rest _ hrest
  obtain ⟨digit, hdigit, more, hrender⟩ := Decimal.exists_render_cons value
  have hspace : isSpace (Decimal.digitChar digit) = false := by
    have hall : ∀ digit < 10, isSpace (Decimal.digitChar digit) = false := by decide
    exact hall digit hdigit
  -- a digit is none of the characters that another value begins with
  have hother : ∀ c, Decimal.digitValue? c = none → Decimal.digitChar digit ≠ c :=
    fun c => Decimal.digitChar_ne hdigit
  have hread := readMagnitude?_render value hrest
  rw [render]
  rw [hrender] at hread ⊢
  rw [List.cons_append] at hread ⊢
  rw [readValue?, skipSpace_cons hspace]
  dsimp only
  rw [if_neg (hother '"' rfl), if_neg (hother '[' rfl), if_neg (hother '{' rfl),
    if_neg (hother 'n' rfl), if_neg (hother 't' rfl), if_neg (hother 'f' rfl), readNumber?]
  · exact hread
  · exact fun _ h => hother '-' rfl (List.cons.inj h).1

theorem reads_string (text : String) : Reads (string text) := by
  intro fuel rest _ _
  have hread := readString?_renderString text rest
  simp [render, renderString, readValue?, skipSpace_cons (show isSpace '"' = false from rfl), hread]

/-! ## Arrays -/

/-- Items behind a comma each. -/
def renderMore (items : List Json) : List Char := items.flatMap fun item => ',' :: item.render

theorem renderItems_cons (item : Json) (items : List Json) :
    renderItems (item :: items) = item.render ++ renderMore items := by
  induction items generalizing item with
  | nil => simp [renderItems, renderMore]
  | cons next items ih => simp [renderItems, ih, renderMore]

theorem readItems?_of_reads {items : List Json} (hitems : ∀ item ∈ items, Reads item) {item : Json}
    (hitem : Reads item) {fuel : ℕ} (hfuel : (item.render ++ renderMore items).length ≤ fuel)
    (reversed : List Json) (rest : List Char) :
    readItems? (fuel + 2) reversed (item.render ++ (renderMore items ++ ']' :: rest)) =
      some (array (reversed.reverse ++ item :: items), rest) := by
  -- what is behind an item is shorter by a character at least, which pays for one more step
  induction items generalizing item fuel reversed with
  | nil =>
      have hends : Ends (']' :: rest) := ends_cons (.inr (.inl rfl)) rest
      have hread := hitem fuel (']' :: rest) (by simpa [renderMore] using hfuel) hends
      simp [readItems?, renderMore, hread, hends.skipSpace_eq]
  | cons next items ih =>
      obtain ⟨hnext, hitems⟩ := List.forall_mem_cons.1 hitems
      have hmore : renderMore (next :: items) = ',' :: (next.render ++ renderMore items) := rfl
      rw [hmore, List.length_append, List.length_cons] at hfuel
      obtain ⟨fuel, rfl⟩ : ∃ fewer, fuel = fewer + 1 := ⟨fuel - 1, by omega⟩
      have hends := ends_cons (.inl rfl) (next.render ++ (renderMore items ++ ']' :: rest))
      have hread := hitem (fuel + 1) _ (by omega) hends
      have hlater := ih hitems hnext (by omega : (next.render ++ renderMore items).length ≤ fuel)
        (item :: reversed)
      rw [hmore, List.cons_append, List.append_assoc, readItems?, hread]
      simp [hends.skipSpace_eq, hlater]

theorem reads_array {items : List Json} (hdata : ∀ item ∈ items, item.Data)
    (hitems : ∀ item ∈ items, Reads item) : Reads (array items) := by
  intro fuel rest hfuel _
  rw [render, List.length_append, List.length_cons, List.length_singleton] at hfuel
  rw [render, List.cons_append, List.cons_append, List.append_assoc, List.singleton_append,
    readValue?, skipSpace_cons (by decide)]
  cases items with
  | nil => rfl
  | cons item items =>
      obtain ⟨hitem, hitems⟩ := List.forall_mem_cons.1 hitems
      obtain ⟨c, text, hrender, hspace, hbracket⟩ :=
        exists_render_cons (hdata item List.mem_cons_self)
      rw [renderItems_cons] at hfuel ⊢
      obtain ⟨fuel, rfl⟩ : ∃ fewer, fuel = fewer + 2 := ⟨fuel - 2, by omega⟩
      have hread := readItems?_of_reads hitems hitem
        (by omega : (item.render ++ renderMore items).length ≤ fuel) [] rest
      rw [List.append_assoc]
      rw [hrender] at hread ⊢
      rw [List.cons_append] at hread ⊢
      dsimp only
      rw [if_neg (by decide), if_pos rfl, skipSpace_cons hspace]
      -- no item begins like the end of an empty array
      split
      case h_1 heq => exact absurd (List.cons.inj heq).1 hbracket
      case h_2 => exact hread

/-! ## Objects -/

/-- The text of a member. -/
def renderMember (member : String × Json) : List Char :=
  renderString member.1.toList ++ ':' :: member.2.render

/-- Members behind a comma each. -/
def renderMoreMembers (members : List (String × Json)) : List Char :=
  members.flatMap fun member => ',' :: renderMember member

theorem renderMembers_cons (member : String × Json) (members : List (String × Json)) :
    renderMembers (member :: members) = renderMember member ++ renderMoreMembers members := by
  induction members generalizing member with
  | nil => simp [renderMembers, renderMember, renderMoreMembers]
  | cons next members ih => simp [renderMembers, ih, renderMember, renderMoreMembers]

/-- A member as it is read: its name has a text. -/
def named (member : String × Json) : Option String × Json := (some member.1, member.2)

/-- Reading each item of a list undoes writing it. -/
theorem mapM_map {α β γ : Type} {read? : β → Option γ} {write : α → β} {result : α → γ}
    {items : List α} (h : ∀ item ∈ items, read? (write item) = some (result item)) :
    (items.map write).mapM read? = some (items.map result) := by
  induction items with
  | nil => rfl
  | cons item items ih =>
      obtain ⟨hitem, hitems⟩ := List.forall_mem_cons.1 h
      rw [List.map_cons, List.mapM_cons, hitem, ih hitems]
      rfl

theorem objectOfMembers_named (members : List (String × Json)) :
    objectOfMembers (members.reverse.map named) = object members := by
  have hnames : ∀ read? : Option String × Json → Option (String × Json),
      (∀ member, read? (named member) = some member) →
        (members.map named).mapM read? = some members := fun read? hread =>
    (mapM_map fun member _ => hread member).trans (congrArg some (List.map_id' members))
  unfold objectOfMembers
  rw [List.map_reverse, List.reverse_reverse, hnames]
  exact fun member => rfl

/-- A member is read up to what follows it, which tells whether there is another one. -/
theorem readMembers?_member {member : String × Json} (hmember : Reads member.2) {fuel : ℕ}
    (hfuel : (renderMember member).length ≤ fuel) {c : Char} {rest : List Char}
    (hends : Ends (c :: rest)) (reversed : List (Option String × Json)) :
    readMembers? (fuel + 2) reversed (renderMember member ++ c :: rest) =
      if c = ',' then readMembers? (fuel + 1) (named member :: reversed) rest
      else if c = '}' then some (objectOfMembers (named member :: reversed), rest)
      else none := by
  have hname := readString?_renderString member.1 (':' :: (member.2.render ++ c :: rest))
  have hread := hmember fuel _ (by simp [renderMember] at hfuel; omega) hends
  simp [readMembers?, renderMember, renderString,
    skipSpace_cons (show isSpace '"' = false from rfl),
    skipSpace_cons (show isSpace ':' = false from rfl), hname, hread, hends.skipSpace_eq, named]

theorem readMembers?_of_reads {members : List (String × Json)}
    (hmembers : ∀ member ∈ members, Reads member.2) {member : String × Json}
    (hmember : Reads member.2) {fuel : ℕ}
    (hfuel : (renderMember member ++ renderMoreMembers members).length ≤ fuel)
    (reversed : List (String × Json)) (rest : List Char) :
    readMembers? (fuel + 2) (reversed.map named)
        (renderMember member ++ (renderMoreMembers members ++ '}' :: rest)) =
      some (object (reversed.reverse ++ member :: members), rest) := by
  induction members generalizing member fuel reversed with
  | nil =>
      have hobject : objectOfMembers (named member :: reversed.map named) =
          object (reversed.reverse ++ [member]) := by
        rw [← objectOfMembers_named, List.reverse_append, List.reverse_reverse]
        rfl
      have hends : Ends ('}' :: rest) := ends_cons (.inr (.inr rfl)) rest
      rw [← hobject]
      exact readMembers?_member hmember (by simpa [renderMoreMembers] using hfuel) hends _
  | cons next members ih =>
      obtain ⟨hnext, hmembers⟩ := List.forall_mem_cons.1 hmembers
      have hmore : renderMoreMembers (next :: members) =
          ',' :: (renderMember next ++ renderMoreMembers members) := rfl
      rw [hmore, List.length_append, List.length_cons] at hfuel
      obtain ⟨fuel, rfl⟩ : ∃ fewer, fuel = fewer + 1 := ⟨fuel - 1, by omega⟩
      have hlater := ih hmembers hnext
        (by omega : (renderMember next ++ renderMoreMembers members).length ≤ fuel)
        (member :: reversed)
      have hends := ends_cons (.inl rfl)
        (renderMember next ++ (renderMoreMembers members ++ '}' :: rest))
      rw [hmore, List.cons_append, List.append_assoc, readMembers?_member hmember (by omega) hends,
        if_pos rfl]
      rw [List.reverse_cons, List.append_assoc] at hlater
      exact hlater

theorem reads_object {members : List (String × Json)}
    (hmembers : ∀ member ∈ members, Reads member.2) : Reads (object members) := by
  intro fuel rest hfuel _
  rw [render, List.length_append, List.length_cons, List.length_singleton] at hfuel
  rw [render, List.cons_append, List.cons_append, List.append_assoc, List.singleton_append,
    readValue?, skipSpace_cons (by decide)]
  cases members with
  | nil => rfl
  | cons member members =>
      obtain ⟨hmember, hmembers⟩ := List.forall_mem_cons.1 hmembers
      rw [renderMembers_cons] at hfuel ⊢
      obtain ⟨fuel, rfl⟩ : ∃ fewer, fuel = fewer + 2 := ⟨fuel - 2, by omega⟩
      have hread := readMembers?_of_reads hmembers hmember
        (by omega : (renderMember member ++ renderMoreMembers members).length ≤ fuel) [] rest
      have hquote : skipSpace (renderMember member ++ (renderMoreMembers members ++ '}' :: rest)) =
          renderMember member ++ (renderMoreMembers members ++ '}' :: rest) :=
        skipSpace_cons (show isSpace '"' = false from rfl) _
      rw [List.append_assoc]
      dsimp only
      rw [if_neg (by decide), if_neg (by decide), if_pos rfl, hquote]
      exact hread

/-! ## Texts -/

theorem Data.reads {value : Json} (h : value.Data) : Reads value := by
  induction h with
  | null => exact reads_null
  | bool value => exact reads_bool value
  | natural value => exact reads_natural value
  | string text => exact reads_string text
  | array hdata ih => exact reads_array hdata ih
  | object hdata ih => exact reads_object ih

/-- Every value that denotes data is read back from its text. -/
theorem parse_text {value : Json} (h : value.Data) : parse value.text = some value := by
  have hread := h.reads value.render.length [] (Nat.le_refl _) nofun
  rw [List.append_nil] at hread
  unfold parse text
  rw [String.toList_ofList]
  dsimp only
  rw [hread]
  rfl

end LinkMeter.Json
