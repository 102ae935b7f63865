import LinkMeter.Json.Value
import LinkMeter.Number.Decimal
import LinkMeter.Number.Hexadecimal

/-!
# Reading JSON

`Json.parse` accepts exactly one value, with blanks around it.  Numbers follow
the grammar strictly: no leading zeros, digits on both sides of a point and in
an exponent.  Strings hold no bare control characters, and their escapes are
the standard ones; a surrogate pair escapes one character.

The reading functions recurse with a fuel argument that starts above the length
of the text; every step takes a character away, so it never runs out.
-/

namespace LinkMeter.Json

/-- The characters that may stand between tokens. -/
def isSpace (c : Char) : Bool := c = ' ' || c = '\n' || c = '\t' || c = '\r'

/-- The text from its first character that is not a space. -/
def skipSpace (text : List Char) : List Char := text.dropWhile isSpace

/-! ## Strings -/

def readHex4? : List Char → Option (Nat × List Char)
  | a :: b :: c :: d :: rest => do
    let a ← hexValue? a
    let b ← hexValue? b
    let c ← hexValue? c
    let d ← hexValue? d
    return (((a * 16 + b) * 16 + c) * 16 + d, rest)
  | _ => none

/-- The character of an escape letter other than the one for code points. -/
def escapeLetter? (c : Char) : Option Char :=
  if c = '"' then some '"'
  else if c = '\\' then some '\\'
  else if c = '/' then some '/'
  else if c = 'b' then some (Char.ofNat 8)
  else if c = 'f' then some (Char.ofNat 12)
  else if c = 'n' then some '\n'
  else if c = 'r' then some '\r'
  else if c = 't' then some '\t'
  else none

/-- Whether a 16-bit unit is the first half of a surrogate pair. -/
def isHighHalf (unit : Nat) : Bool := 0xD800 ≤ unit && unit < 0xDC00

/-- Whether a 16-bit unit is the second half of a surrogate pair. -/
def isLowHalf (unit : Nat) : Bool := 0xDC00 ≤ unit && unit < 0xE000

/-- One escape behind its backslash: the character, or nothing for half of a
surrogate pair that stands alone, and the rest. -/
def readEscape? : List Char → Option (Option Char × List Char)
  | [] => none
  | c :: rest =>
    if c = 'u' then do
      let (unit, rest) ← readHex4? rest
      if isHighHalf unit then
        match rest with
        | '\\' :: 'u' :: next =>
          let (low, after) ← readHex4? next
          if isLowHalf low then
            return (some (Char.ofNat (0x10000 + (unit - 0xD800) * 0x400 + (low - 0xDC00))), after)
          else return (none, rest)
        | _ => return (none, rest)
      else if isLowHalf unit then return (none, rest)
      else return (some (Char.ofNat unit), rest)
    else (escapeLetter? c).map fun escaped => (some escaped, rest)

/-- The rest of a string behind its opening quote, with the characters read so
far in reverse: nothing in place of the text if an escape had none. -/
def readStringFrom : Nat → Option (List Char) → List Char →
    Option (Option (List Char) × List Char)
  | 0, _, _ => none
  | _ + 1, _, [] => none
  | fuel + 1, reversed, c :: rest =>
    if c = '"' then some (reversed.map List.reverse, rest)
    else if c = '\\' then
      match readEscape? rest with
      | some (escaped, rest) =>
        readStringFrom fuel (do return (← escaped) :: (← reversed)) rest
      | none => none
    else if c.toNat < 32 then none
    else readStringFrom fuel (reversed.map (c :: ·)) rest

/-- A string behind its opening quote. -/
def readString? (text : List Char) : Option (Option String × List Char) :=
  (readStringFrom (text.length + 1) (some []) text).map fun (chars, rest) =>
    (chars.map String.ofList, rest)

/-! ## Numbers -/

/-- The decimal digits at the head of a text, and the rest. -/
def splitDigits (text : List Char) : List Char × List Char :=
  (text.takeWhile Decimal.isDigit, text.dropWhile Decimal.isDigit)

/-- Digits that are there. -/
def readDigits? (text : List Char) : Option (List Char × List Char) :=
  let (digits, rest) := splitDigits text
  if digits.isEmpty then none else some (digits, rest)

/-- The fraction of a number, with its point; it may be absent. -/
def readFraction? : List Char → Option (List Char × List Char)
  | '.' :: rest => (readDigits? rest).map fun (digits, rest) => ('.' :: digits, rest)
  | text => some ([], text)

/-- The exponent of a number, with its letter and sign; it may be absent. -/
def readExponent? : List Char → Option (List Char × List Char)
  | c :: rest =>
    if c = 'e' || c = 'E' then
      let (sign, rest) := match rest with
        | '+' :: rest => (['+'], rest)
        | '-' :: rest => (['-'], rest)
        | _ => ([], rest)
      (readDigits? rest).map fun (digits, rest) => (c :: sign ++ digits, rest)
    else some ([], c :: rest)
  | [] => some ([], [])

/-- The whole part of a number: a zero alone or digits that do not start with
one. -/
def readWhole? (text : List Char) : Option (List Char × List Char) := do
  let (digits, rest) ← readDigits? text
  if digits.head? = some '0' ∧ digits.length ≠ 1 then none else some (digits, rest)

/-- A number without its sign. -/
def readMagnitude? (sign : List Char) (text : List Char) : Option (Json × List Char) := do
  let (whole, rest) ← readWhole? text
  let (fraction, rest) ← readFraction? rest
  let (exponent, rest) ← readExponent? rest
  if sign.isEmpty && fraction.isEmpty && exponent.isEmpty then
    let value ← Decimal.read? whole
    return (natural value, rest)
  else
    return (number (String.ofList (sign ++ whole ++ fraction ++ exponent)), rest)

def readNumber? : List Char → Option (Json × List Char)
  | '-' :: rest => readMagnitude? ['-'] rest
  | text => readMagnitude? [] text

/-! ## Values -/

/-- The rest of the text behind a word that it has to start with. -/
def dropWord? : List Char → List Char → Option (List Char)
  | [], text => some text
  | c :: word, d :: text => if c = d then dropWord? word text else none
  | _ :: _, [] => none

/-- An object from its members in reverse; a name without a text leaves it
without meaning. -/
def objectOfMembers (reversed : List (Option String × Json)) : Json :=
  match reversed.reverse.mapM fun (name, value) => name.map fun name => (name, value) with
  | some members => object members
  | none => illFormed

mutual

/-- One value at the head of a text, after spaces, and the rest. -/
def readValue? : Nat → List Char → Option (Json × List Char)
  | 0, _ => none
  | fuel + 1, text =>
    match skipSpace text with
    | [] => none
    | c :: rest =>
      if c = '"' then
        (readString? rest).map fun (text, rest) =>
          (match text with
            | some text => string text
            | none => illFormed, rest)
      else if c = '[' then
        match skipSpace rest with
        | ']' :: rest => some (array [], rest)
        | _ => readItems? fuel [] rest
      else if c = '{' then
        match skipSpace rest with
        | [] => none
        | d :: after =>
          if d = '}' then some (object [], after) else readMembers? fuel [] rest
      else if c = 'n' then (dropWord? "ull".toList rest).map (null, ·)
      else if c = 't' then (dropWord? "rue".toList rest).map (bool true, ·)
      else if c = 'f' then (dropWord? "alse".toList rest).map (bool false, ·)
      else readNumber? (c :: rest)

/-- The items of an array up to its bracket, in reverse behind those read. -/
def readItems? : Nat → List Json → List Char → Option (Json × List Char)
  | 0, _, _ => none
  | fuel + 1, reversed, text => do
    let (item, rest) ← readValue? fuel text
    match skipSpace rest with
    | ',' :: rest => readItems? fuel (item :: reversed) rest
    | ']' :: rest => some (array (item :: reversed).reverse, rest)
    | _ => none

/-- The members of an object up to its brace, in reverse behind those read. -/
def readMembers? : Nat → List (Option String × Json) → List Char → Option (Json × List Char)
  | 0, _, _ => none
  | fuel + 1, reversed, text =>
    match skipSpace text with
    | '"' :: rest => do
      let (name, rest) ← readString? rest
      match skipSpace rest with
      | ':' :: rest =>
        let (value, rest) ← readValue? fuel rest
        match skipSpace rest with
        | [] => none
        | c :: rest =>
          if c = ',' then readMembers? fuel ((name, value) :: reversed) rest
          else if c = '}' then some (objectOfMembers ((name, value) :: reversed), rest)
          else none
      | _ => none
    | _ => none

end

/-- The value that a whole text denotes. -/
def parse (text : String) : Option Json :=
  let chars := text.toList
  match readValue? (chars.length + 1) chars with
  | some (value, rest) => if (skipSpace rest).isEmpty then some value else none
  | none => none

end LinkMeter.Json
