import LinkMeter.CommandLine.Rate
import LinkMeter.CommandLine.Switch
import LinkMeter.Settings.Basic

/-!
# The commands of the program

The first word is the command: to serve, to measure, or to be helped.  The rest
are its switches and, for a measurement, the host to measure against.  What a
command line asks for is kept apart from the settings that follow from it
(`MeasureArguments.settings`), in which times are spans.
-/

namespace LinkMeter.CommandLine

structure ServeArguments where
  port : UInt16 := 8888
  bind : Option Address := none
  json : Bool := false
  deriving DecidableEq, Inhabited

structure MeasureArguments where
  server : String := ""
  port : UInt16 := 8888
  transport : Transport := .tcp
  kind : Kind := .bandwidth
  /-- In seconds. -/
  duration : UInt64 := 10
  threads : UInt32 := 1
  bufferSize : Option UInt32 := none
  bandwidth : Option UInt64 := none
  reverse : Bool := false
  roundTrips : UInt32 := 1000
  warmup : UInt32 := 1
  /-- In milliseconds. -/
  gap : Option UInt64 := none
  serviceType : UInt8 := 0
  /-- In seconds. -/
  interval : UInt64 := 1
  maxHops : UInt8 := 30
  /-- In milliseconds. -/
  timeout : UInt64 := 1000
  withoutNames : Bool := false
  json : Bool := false
  deriving DecidableEq, Inhabited

inductive Command where
  | serve (arguments : ServeArguments)
  | measure (arguments : MeasureArguments)
  deriving DecidableEq, Inhabited

/-! ## Values -/

/-- A number below a bound that is well below `2 ^ 63`: digits after an optional
sign, where only zero may have a minus sign. -/
def readSmall? (bound : Nat) (text : List Char) : Option Nat :=
  match text with
  | '-' :: digits => (Decimal.read? digits).filter (· = 0)
  | _ => Decimal.readBelow? bound text

/-- A 64-bit number: digits after an optional plus sign. -/
def readWord? (text : List Char) : Option UInt64 :=
  (Decimal.readBelow? UInt64.size text).map UInt64.ofNat

def readHalfWord? (text : List Char) : Option UInt32 :=
  (readSmall? UInt32.size text).map UInt32.ofNat

def readPort? (text : List Char) : Option UInt16 :=
  (readSmall? UInt16.size text).map UInt16.ofNat

def readByte? (text : List Char) : Option UInt8 := (readSmall? UInt8.size text).map UInt8.ofNat

def transportWord : Transport → String
  | .tcp => "tcp"
  | .udp => "udp"
  | .icmp => "icmp"

def readTransport? (text : List Char) : Option Transport :=
  Transport.all.find? (transportWord · == String.ofList text)

/-- The word for a kind of measurement that a client can be asked for. -/
def kindWord? : Kind → Option String
  | .server => none
  | .bandwidth => some "b"
  | .connectionRate => some "c"
  | .packetRate => some "p"
  | .latency => some "l"
  | .ping => some "pi"
  | .path => some "tr"
  | .pathMonitor => some "mtr"

def readKind? (text : List Char) : Option Kind :=
  Kind.all.find? (kindWord? · == some (String.ofList text))

/-! ## Commands -/

/-- The words behind the command to serve. -/
def serveGrammar : Grammar ServeArguments where
  switches := [
    ⟨"port", none, .value fun asked text => (readPort? text).map ({ asked with port := · })⟩,
    ⟨"bind", none, .value fun asked text => (Address.read? text).map fun address =>
      { asked with bind := some address }⟩,
    ⟨"json", some 'j', .flag ({ · with json := true })⟩]

/-- The words behind the command to measure. -/
def measureGrammar : Grammar MeasureArguments where
  operand := some fun asked host => { asked with server := host }
  switches := [
    ⟨"port", none, .value fun asked text => (readPort? text).map ({ asked with port := · })⟩,
    ⟨"protocol", some 'p', .value fun asked text =>
      (readTransport? text).map ({ asked with transport := · })⟩,
    ⟨"test", some 't', .value fun asked text => (readKind? text).map ({ asked with kind := · })⟩,
    ⟨"duration", some 'd', .value fun asked text =>
      (readWord? text).map ({ asked with duration := · })⟩,
    ⟨"threads", some 'n', .value fun asked text =>
      (readHalfWord? text).map ({ asked with threads := · })⟩,
    ⟨"length", some 'l', .value fun asked text => (readHalfWord? text).map fun size =>
      { asked with bufferSize := some size }⟩,
    ⟨"bandwidth", some 'b', .value fun asked text => (readRate text).toOption.map fun rate =>
      { asked with bandwidth := some rate }⟩,
    ⟨"reverse", some 'r', .flag ({ · with reverse := true })⟩,
    ⟨"iterations", some 'i', .value fun asked text =>
      (readHalfWord? text).map ({ asked with roundTrips := · })⟩,
    ⟨"warmup", some 'w', .value fun asked text =>
      (readHalfWord? text).map ({ asked with warmup := · })⟩,
    ⟨"gap", some 'g', .value fun asked text => (readWord? text).map fun gap =>
      { asked with gap := some gap }⟩,
    ⟨"tos", none, .value fun asked text =>
      (readByte? text).map ({ asked with serviceType := · })⟩,
    ⟨"interval", none, .value fun asked text =>
      (readWord? text).map ({ asked with interval := · })⟩,
    ⟨"max-hops", none, .value fun asked text =>
      (readByte? text).map ({ asked with maxHops := · })⟩,
    ⟨"timeout", none, .value fun asked text =>
      (readWord? text).map ({ asked with timeout := · })⟩,
    ⟨"no-dns", none, .flag ({ · with withoutNames := true })⟩,
    ⟨"json", some 'j', .flag ({ · with json := true })⟩]

/-- What a command line without a command comes to. -/
def readTopLevel (word : String) (rest : List String) : Detour :=
  match word.toList with
  | ['-', '-'] => if rest.isEmpty then .nothing else .misuse
  | '-' :: 'h' :: _ => .help
  | '-' :: 'V' :: _ => .version
  | _ => if word = "--help" then .help else if word = "--version" then .version else .misuse

/-- What a request for help about commands comes to. -/
def readHelp : List String → Detour
  | [] => .help
  | [topic] => if topic ∈ ["server", "client", "help"] then .help else .misuse
  | _ => .misuse

def Command.read : List String → Except Detour Command
  | [] => .error .nothing
  | "server" :: words => (serveGrammar.read {} words).map .serve
  | "client" :: words => (measureGrammar.read {} words).map .measure
  | "help" :: topics => .error (readHelp topics)
  | word :: rest => .error (readTopLevel word rest)

/-! ## Settings -/

def ServeArguments.settings (asked : ServeArguments) : Settings :=
  { Settings.forServer asked.port with json := asked.json, bindAddress := asked.bind }

def MeasureArguments.settings (asked : MeasureArguments) : Settings :=
  { Settings.forClient asked.server asked.port with
    transport := asked.transport
    kind := asked.kind
    duration := Span.ofSeconds asked.duration
    threads := asked.threads
    bufferSize := asked.bufferSize
    roundTrips := asked.roundTrips
    reverse := asked.reverse
    bandwidth := asked.bandwidth
    warmup := asked.warmup
    gap := asked.gap.map Span.ofMillis
    serviceType := asked.serviceType
    json := asked.json
    interval := Span.ofSeconds asked.interval
    maxHops := asked.maxHops
    probeTimeout := Span.ofMillis asked.timeout
    withoutNames := asked.withoutNames }

end LinkMeter.CommandLine
