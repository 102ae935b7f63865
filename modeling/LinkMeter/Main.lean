import LinkMeter.CommandLine.Run
import LinkMeter.Json.Writer
import Std.Time.Format

/-!
# The program

Carries out its command line and prints what that leaves behind.  What workers
and servers meet on a network is data to this library, and the program brings no
network along: it runs in the surroundings of an isolated host.
-/

namespace LinkMeter

/-- The present time, as it is written into JSON lines. -/
def presentTime : IO String := do
  return (Std.Time.DateTime.ofTimestamp (← Std.Time.Timestamp.now) .UTC).toISO8601String

def printEntry (json : Bool) (entry : Console.Entry) : IO Unit := do
  if json then
    let time := Json.string (← presentTime)
    match entry.toJson with
    | .object members => IO.println (Json.object (members ++ [("time", time)])).text
    | other => IO.println other.text
  else
    for line in entry.lines do
      IO.println line

end LinkMeter

/-- Carries out a command line and returns the exit code. -/
def main (words : List String) : IO UInt32 := do
  let completion := LinkMeter.CommandLine.run .isolated words
  for line in completion.lines do
    IO.println line
  for entry in completion.entries do
    LinkMeter.printEntry completion.json entry
  if let some complaint := completion.complaint then
    IO.eprintln complaint
  if completion.exitCode = 2 then
    for line in LinkMeter.CommandLine.helpLines do
      IO.eprintln line
  return completion.exitCode.toUInt32
