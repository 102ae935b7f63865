/-!
# Switches and operands

The words behind a command are switches, values of switches, and operands.  A
long switch is two dashes and a name, its value the next word or what follows an
equals sign.  Short switches are single letters behind one dash, several of them
in one word; one that takes a value ends the word, and its value is the rest of
the word, with or without an equals sign in front, or else the next word.

A word that begins with a dash is never the value of the switch before it, but a
lone dash is an ordinary word.  Two dashes alone make operands of all words that
follow.  No switch may be given twice.

Words are read from left to right by one step each (`Progress.step`), so the
first reason to stop wins.
-/

namespace LinkMeter.CommandLine

/-- Why words are not carried out as a command. -/
inductive Detour where
  | help
  | version
  /-- Nothing is asked for at all. -/
  | nothing
  /-- The words are not a command. -/
  | misuse
  deriving DecidableEq, Inhabited, Repr

/-- What a switch does to the settings of type `α` read so far. -/
inductive Effect (α : Type) where
  | flag (set : α → α)
  /-- The switch takes a value, which it may not understand. -/
  | value (set : α → List Char → Option α)

structure Switch (α : Type) where
  name : String
  letter : Option Char := none
  effect : Effect α

/-- The words that a command understands besides the request for help. -/
structure Grammar (α : Type) where
  switches : List (Switch α)
  /-- What an operand does; a command without it takes no operand. -/
  operand : Option (α → String → α) := none

/-- What was read of some words. -/
structure Progress (α : Type) where
  settings : α
  /-- The names of the switches that were given. -/
  given : List String := []
  /-- A switch that waits for its value. -/
  pending : Option (Switch α) := none
  hasOperand : Bool := false
  onlyOperands : Bool := false

namespace Progress

variable {α : Type}

/-- Sets a switch that was not given before. -/
def give (progress : Progress α) (switch : Switch α) (settings : α) :
    Except Detour (Progress α) :=
  if progress.given.contains switch.name then .error .misuse
  else
    .ok { progress with
      settings := settings, given := switch.name :: progress.given, pending := none }

/-- Sets a switch to a value. -/
def giveValue (progress : Progress α) (switch : Switch α) (value : List Char) :
    Except Detour (Progress α) :=
  match switch.effect with
  | .flag _ => .error .misuse
  | .value set =>
    match set progress.settings value with
    | some settings => progress.give switch settings
    | none => .error .misuse

/-- Sets a switch that has no value of its own in its word: a flag, or one whose
value is the next word. -/
def giveBare (progress : Progress α) (switch : Switch α) : Except Detour (Progress α) :=
  match switch.effect with
  | .flag set => progress.give switch (set progress.settings)
  | .value _ => .ok { progress with pending := some switch }

/-- A text up to the first equals sign, and what follows that sign. -/
def splitEquals (text : List Char) : List Char × Option (List Char) :=
  match text.dropWhile (· ≠ '=') with
  | [] => (text, none)
  | _ :: value => (text.takeWhile (· ≠ '='), some value)

def readLong (grammar : Grammar α) (progress : Progress α) (text : List Char) :
    Except Detour (Progress α) :=
  let (name, value) := splitEquals text
  if name = "help".toList then .error (if value.isNone then .help else .misuse)
  else
    match grammar.switches.find? (·.name.toList == name), value with
    | some switch, some value => progress.giveValue switch value
    | some switch, none => progress.giveBare switch
    | none, _ => .error .misuse

/-- Reads short switches without their dash. -/
def readShort (grammar : Grammar α) (progress : Progress α) :
    List Char → Except Detour (Progress α)
  | [] => .ok progress
  | c :: rest =>
    if c = 'h' then .error .help
    else
      match grammar.switches.find? (·.letter == some c) with
      | none => .error .misuse
      | some switch =>
        match switch.effect, rest with
        | .flag _, rest =>
          match progress.giveBare switch with
          | .ok progress => readShort grammar progress rest
          | .error detour => .error detour
        | .value _, [] => progress.giveBare switch
        | .value _, '=' :: value => progress.giveValue switch value
        | .value _, value => progress.giveValue switch value

/-- Takes a word as an operand, of which there may be one. -/
def readOperand (grammar : Grammar α) (progress : Progress α) (word : String) :
    Except Detour (Progress α) :=
  match grammar.operand with
  | some set =>
    if progress.hasOperand then .error .misuse
    else .ok { progress with settings := set progress.settings word, hasOperand := true }
  | none => .error .misuse

def step (grammar : Grammar α) (progress : Progress α) (word : String) :
    Except Detour (Progress α) :=
  if progress.onlyOperands then progress.readOperand grammar word
  else
    match progress.pending, word.toList with
    | some _, '-' :: _ :: _ => .error .misuse
    | some switch, value => progress.giveValue switch value
    | none, ['-', '-'] => .ok { progress with onlyOperands := true }
    | none, '-' :: '-' :: text => progress.readLong grammar text
    | none, '-' :: c :: rest => progress.readShort grammar (c :: rest)
    | none, _ => progress.readOperand grammar word

/-- What was read when the words are over. -/
def finish (grammar : Grammar α) (progress : Progress α) : Except Detour α :=
  if progress.pending.isSome || (grammar.operand.isSome && !progress.hasOperand) then
    .error .misuse
  else .ok progress.settings

end Progress

/-- Reads the words behind a command, over the settings that hold without
them. -/
def Grammar.read {α : Type} (grammar : Grammar α) (defaults : α) (words : List String) :
    Except Detour α := do
  (← words.foldlM (Progress.step grammar) { settings := defaults }).finish grammar

end LinkMeter.CommandLine
