import LinkMeter.CommandLine.Arguments
import LinkMeter.CommandLine.Isolation

/-!
# Carrying out a command line

A command line is read, turned into settings, and carried out in the
surroundings that the program finds itself in.  What it leaves behind is an exit
code, what is printed, and a complaint if it failed: code 2 and no complaint of
this library for words that are not a command, code 1 for a failure.

A failure is reported by what the program was at, if it had begun, and the
failure as the cause of that.
-/

namespace LinkMeter.CommandLine

open Pacing (Instant)

/-- What a program finds around it. -/
structure Surroundings where
  /-- The instant from which ages are counted. -/
  wall : Instant := 0
  /-- How long a measurement takes. -/
  elapsed : Span := Span.zero
  lookUp : List Char → Except String Address
  /-- What the workers of a trial meet. -/
  works : Settings → Trial → List Client.Work
  /-- What comes of listening at an endpoint. -/
  listen : Endpoint → Except IoFault Unit

/-- What a program finds on an isolated host, as `Isolation` assumes it to be. -/
def Surroundings.isolated : Surroundings where
  lookUp := fun _ => .error "failed to lookup address information: Name or service not known"
  works := Client.isolatedWorks
  listen := fun endpoint =>
    match Isolation.listenFault? endpoint with
    | some fault => .error fault.ioFault
    | none => .ok ()

/-- What a program leaves behind. -/
structure Completion where
  exitCode : UInt8 := 0
  /-- Lines printed about the program itself. -/
  lines : List String := []
  /-- What was measured, as told to the console. -/
  entries : List Console.Entry := []
  /-- Whether entries are printed as JSON. -/
  json : Bool := false
  complaint : Option String := none
  deriving Inhabited

/-- The line that names the program and its version. -/
def versionLine : String := "ethrs 0.1.0"

def helpLines : List String :=
  ["Network performance measurement: bandwidth, connections, packets, latency, ping and traceroute",
    "", "Usage: ethrs <COMMAND>", "", "Commands:", "  server  Run in server mode",
    "  client  Run in client mode",
    "  help    Print this message or the help of the given subcommand(s)"]

/-- The complaint about a failure while the settings were checked. -/
def complaint (failure : Failure) : String := "Error: " ++ failure.message

/-- The complaint about a failure in the course of something. -/
def complaintDuring (activity : String) (failure : Failure) : String :=
  "Error: " ++ activity ++ " failed\n\nCaused by:\n    " ++ failure.message

/-- Gets out of a command line that is not carried out. -/
def Detour.completion : Detour → Completion
  | help => { lines := helpLines }
  | version => { lines := [versionLine] }
  | nothing => { exitCode := 2 }
  | misuse => { exitCode := 2 }

/-- The endpoint that a server is bound to. -/
def serverEndpoint (settings : Settings) : Endpoint :=
  ⟨settings.bindAddress.getD (.v4 ⟨0, 0, 0, 0⟩), settings.port, 0⟩

/-- Binds a server.  One that is bound serves until it is stopped. -/
def serve (surroundings : Surroundings) (settings : Settings) : Completion :=
  let endpoint := serverEndpoint settings
  match surroundings.listen endpoint with
  | .ok _ => { json := settings.json }
  | .error fault =>
    { exitCode := 1
      complaint := some (complaintDuring "server"
        (.connection ("Failed to bind TCP " ++ endpoint.text ++ ": " ++ fault.message))) }

def measure (surroundings : Surroundings) (settings : Settings) : Completion :=
  match Client.ofSettings settings with
  | .error failure => { exitCode := 1, complaint := some (complaint failure) }
  | .ok client =>
    match (client.run surroundings.wall surroundings.elapsed surroundings.lookUp
        (surroundings.works settings)).1 with
    | .error failure => { exitCode := 1, complaint := some (complaintDuring "test" failure) }
    | .ok run =>
      let printed : Completion := { entries := Client.entries run, json := settings.json }
      match run.result with
      | .error failure =>
        { printed with exitCode := 1, complaint := some (complaintDuring "test" failure) }
      | .ok _ => printed

def run (surroundings : Surroundings) (words : List String) : Completion :=
  match Command.read words with
  | .error detour => detour.completion
  | .ok (.serve asked) => serve surroundings asked.settings
  | .ok (.measure asked) => measure surroundings asked.settings

end LinkMeter.CommandLine
