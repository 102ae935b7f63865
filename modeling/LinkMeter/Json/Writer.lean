import LinkMeter.Json.Value
import LinkMeter.Number.Decimal
import LinkMeter.Number.Hexadecimal

/-!
# Writing JSON

The compact form: no blanks, members in order, and in strings only what has to
be escaped.  A quote and a backslash take a backslash, five control characters
have letters, the other control characters are written with four hexadecimal
digits, and every other character stands for itself.
-/

namespace LinkMeter.Json

/-- One character inside a string. -/
def escapeChar (c : Char) : List Char :=
  if c = '"' then ['\\', '"']
  else if c = '\\' then ['\\', '\\']
  else if c.toNat = 8 then ['\\', 'b']
  else if c.toNat = 12 then ['\\', 'f']
  else if c = '\n' then ['\\', 'n']
  else if c = '\r' then ['\\', 'r']
  else if c = '\t' then ['\\', 't']
  else if c.toNat < 32 then
    ['\\', 'u', '0', '0', hexDigit (c.toNat / 16), hexDigit (c.toNat % 16)]
  else [c]

/-- A string in quotes. -/
def renderString (text : List Char) : List Char := '"' :: text.flatMap escapeChar ++ ['"']

mutual

/-- The compact form of a value. -/
def render : Json → List Char
  | null => "null".toList
  | bool true => "true".toList
  | bool false => "false".toList
  | natural value => Decimal.render value
  | number text => text.toList
  | string text => renderString text.toList
  | array items => '[' :: renderItems items ++ [']']
  | object members => '{' :: renderMembers members ++ ['}']
  | illFormed => "null".toList

def renderItems : List Json → List Char
  | [] => []
  | [item] => render item
  | item :: next :: rest => render item ++ ',' :: renderItems (next :: rest)

def renderMembers : List (String × Json) → List Char
  | [] => []
  | [(name, value)] => renderString name.toList ++ ':' :: render value
  | (name, value) :: next :: rest =>
    renderString name.toList ++ ':' :: render value ++ ',' :: renderMembers (next :: rest)

end

/-- The compact form of a value as a string. -/
def text (value : Json) : String := String.ofList value.render

end LinkMeter.Json
