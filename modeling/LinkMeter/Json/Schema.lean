import LinkMeter.Json.Value

/-!
# Reading typed data out of JSON

The shapes that every format of this library is made of.

* A record is an object with known member names, or an array of all its fields
  in order.  A known member may appear once only; whether unknown members are
  passed over or refused is the format's choice.
* A choice is a string that names it, or an object whose single member is named
  after it and holds its content.  A choice without content may also be written
  with the content `null`.
* A missing field is told apart from one that is `null`; an optional field
  reads both as absent.
-/

namespace LinkMeter.Json

def asNatBelow? (bound : Nat) : Json → Option Nat
  | natural value => if value < bound then some value else none
  | _ => none

def asUInt8? (value : Json) : Option UInt8 := (asNatBelow? UInt8.size value).map UInt8.ofNat

def asUInt16? (value : Json) : Option UInt16 := (asNatBelow? UInt16.size value).map UInt16.ofNat

def asUInt32? (value : Json) : Option UInt32 := (asNatBelow? UInt32.size value).map UInt32.ofNat

def asUInt64? (value : Json) : Option UInt64 := (asNatBelow? UInt64.size value).map UInt64.ofNat

def asBool? : Json → Option Bool
  | bool value => some value
  | _ => none

def asString? : Json → Option String
  | string text => some text
  | _ => none

/-- An array whose items all have one shape. -/
def asList? {α : Type} (item? : Json → Option α) : Json → Option (List α)
  | array items => items.mapM item?
  | _ => none

/-- A value that may be `null`. -/
def asNullable? {α : Type} (content? : Json → Option α) : Json → Option (Option α)
  | null => some none
  | value => (content? value).map some

/-- A field that has to be there. -/
def required? {α : Type} (content? : Json → Option α) (field : Option Json) : Option α :=
  field.bind content?

/-- A field that may be missing or `null`. -/
def optional? {α : Type} (content? : Json → Option α) : Option Json → Option (Option α)
  | none => some none
  | some value => asNullable? content? value

/-- A field that has a default when it is missing. -/
def withDefault? {α : Type} (fallback : α) (content? : Json → Option α) : Option Json → Option α
  | none => some fallback
  | some value => content? value

/-- The only value of a list, if it has one; a list of several has no answer. -/
def atMostOne? : List Json → Option (Option Json)
  | [] => some none
  | [value] => some (some value)
  | _ => none

/-- The fields of a record in the order of their names.  With `closed`, unknown
members are refused. -/
def record? (names : List String) (closed : Bool) : Json → Option (List (Option Json))
  | object members =>
    if closed && members.any (fun (name, _) => !names.contains name) then none
    else names.mapM fun name => atMostOne? (membersNamed name members)
  | array items => if items.length = names.length then some (items.map some) else none
  | _ => none

/-- The name of a choice and its content. -/
def choice? : Json → Option (String × Option Json)
  | string name => some (name, none)
  | object [(name, content)] => some (name, some content)
  | _ => none

/-- The name of a choice that has no content. -/
def bareChoice? (value : Json) : Option String :=
  match choice? value with
  | some (name, none) => some name
  | some (name, some null) => some name
  | _ => none

/-- An optional value, `null` when it is absent. -/
def ofNullable {α : Type} (content : α → Json) : Option α → Json
  | none => null
  | some value => content value

def ofUInt8 (value : UInt8) : Json := natural value.toNat

def ofUInt16 (value : UInt16) : Json := natural value.toNat

def ofUInt32 (value : UInt32) : Json := natural value.toNat

def ofUInt64 (value : UInt64) : Json := natural value.toNat

end LinkMeter.Json
