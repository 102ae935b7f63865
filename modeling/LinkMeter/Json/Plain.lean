import LinkMeter.Json.Schema
import LinkMeter.Address.Text
import LinkMeter.Span

/-!
# Spans and addresses in JSON

A span is a record of its whole seconds and the nanoseconds above them, and no
other member is allowed.  Reading carries nanoseconds from one second up and
refuses seconds that leave 64 bits.  An address is a string.
-/

namespace LinkMeter

namespace Span

/-- A span as a record of two numbers. -/
def toJson (span : Span) : Json :=
  .object [("secs", .natural span.seconds), ("nanos", .natural span.subNanos)]

def ofJson? (value : Json) : Option Span := do
  match ← Json.record? ["secs", "nanos"] true value with
  | [seconds, nanos] =>
    let seconds ← Json.required? Json.asUInt64? seconds
    let nanos ← Json.required? Json.asUInt32? nanos
    ofParts? seconds nanos
  | _ => none

end Span

namespace Address

def toJson (address : Address) : Json := .string address.text

def ofJson? (value : Json) : Option Address := (Json.asString? value).bind ofText?

end Address

end LinkMeter
