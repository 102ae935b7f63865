/-!
# JSON values

A value as its text gives it: objects keep every member in the order written,
repeated names included, and a number is kept as a natural number when it is
written as one and as its own text otherwise, since no member of this library's
formats is a fraction.

A string may escape one half of a surrogate pair alone.  Such a string has no
text; it, and an object with such a name, is `Json.illFormed`: delimited
correctly, but without meaning as data.
-/

namespace LinkMeter

/-- A JSON value. -/
inductive Json where
  | null
  | bool (value : Bool)
  /-- A number written as digits alone. -/
  | natural (value : Nat)
  /-- Any other number, as written. -/
  | number (text : String)
  | string (text : String)
  | array (items : List Json)
  | object (members : List (String × Json))
  /-- A value that is delimited correctly but denotes no data. -/
  | illFormed
  deriving Inhabited

namespace Json

/-- The values of the members with one name, in the order written. -/
def membersNamed (name : String) (members : List (String × Json)) : List Json :=
  members.filterMap fun (key, value) => if key = name then some value else none

/-- The first member with a name, of an object. -/
def member? (name : String) : Json → Option Json
  | object members => (membersNamed name members).head?
  | _ => none

end Json

end LinkMeter
