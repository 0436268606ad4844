import ContainerAttach.CommandLine.Grammar
import ContainerAttach.Keys.Notation

/-!
# The commands of the program

`attach` connects the terminal to a container, and `version` tells which program
this is.  How to log can be said before the command and after it, and what is
said after it counts.  The detach keys can also be chosen by a variable of the
environment, which an argument overrides.
-/

namespace ContainerAttach.CommandLine

/-- How log lines are written. -/
inductive LogFormat where
  | text
  | json
  deriving DecidableEq, Repr

/-- Which log lines are written. -/
inductive LogLevel where
  | error
  | warn
  | info
  | debug
  | trace
  deriving DecidableEq, Repr

/-- The formats by the names that the user gives them. -/
def LogFormat.named : List (String × LogFormat) :=
  [("text", .text), ("json", .json)]

/-- The levels by the names that the user gives them. -/
def LogLevel.named : List (String × LogLevel) :=
  [("error", .error), ("warn", .warn), ("info", .info), ("debug", .debug), ("trace", .trace)]

def LogLevel.name (level : LogLevel) : String :=
  ((named.find? fun entry => entry.2 == level).map Prod.fst).getD ""

/-- The arguments of `attach`. -/
structure AttachArguments where
  path : Bytes
  id : Option String := none
  detachKeys : String := KeyNotation.standard
  noStdin : Bool := false
  stopAfterStdinEof : Bool := false
  tty : Bool := false
  deriving DecidableEq, Repr

/-- A command with its arguments. -/
inductive Command where
  | attach (arguments : AttachArguments)
  | version (extended : Bool)
  deriving DecidableEq, Repr

/-- A whole command line. -/
structure Invocation where
  command : Command
  logFormat : LogFormat := .text
  logLevel : LogLevel := .warn
  deriving DecidableEq, Repr

/-! ## The grammars -/

/-- The switches that are allowed before the command and after it. -/
def commonSwitches : List Switch :=
  [⟨"log-format", none, .value (.oneOf (LogFormat.named.map Prod.fst))⟩,
   ⟨"log-level", none, .value (.oneOf (LogLevel.named.map Prod.fst))⟩,
   ⟨"help", some 'h', .help⟩]

def programGrammar : Grammar :=
  { switches := commonSwitches ++ [⟨"version", some 'V', .version⟩]
    commands := ["attach", "version", Grammar.helpCommand] }

def attachGrammar : Grammar :=
  { switches := commonSwitches ++
      [⟨"id", none, .value .any⟩,
       ⟨"detach-keys", none, .value .any⟩,
       ⟨"no-stdin", none, .flag⟩,
       ⟨"stop-after-stdin-eof", none, .flag⟩,
       ⟨"tty", none, .flag⟩]
    operand := some ⟨"path", .nonempty⟩ }

def versionGrammar : Grammar :=
  { switches := commonSwitches ++ [⟨"extended", none, .flag⟩] }

/-! ## Reading a command line -/

namespace Invocation

/-- The arguments of `attach` among those given.  Flags that exclude each other are reported
before an argument that is missing. -/
def attachArguments (given : Given) (keysVariable : Option String) :
    Except UsageError AttachArguments :=
  if given.hasFlag "no-stdin" && given.hasFlag "stop-after-stdin-eof" then .error .conflict
  else
    match given.value? "path" with
    | none => .error .missingArgument
    | some path =>
      .ok
        { path := path
          id := given.value? "id"
          detachKeys :=
            (given.value? "detach-keys").getD (keysVariable.getD KeyNotation.standard)
          noStdin := given.hasFlag "no-stdin"
          stopAfterStdinEof := given.hasFlag "stop-after-stdin-eof"
          tty := given.hasFlag "tty" }

/-- Reads a command from the words after its name, and gives what was given with it. -/
def readCommand (name : String) (words : List String) (keysVariable : Option String) :
    Except UsageError (Command × Given) :=
  if name = "attach" then
    match attachGrammar.read words with
    | .error error => .error error
    | .ok given =>
      (attachArguments given keysVariable).map fun arguments => (.attach arguments, given)
  else
    (versionGrammar.read words).map fun given => (.version (given.hasFlag "extended"), given)

/-- The value that is in force for a switch of the program: the one after the command, the
one before it, or the one that holds without any. -/
def inForce {α : Type} (named : List (String × α)) (otherwise : α) (name : String)
    (before after : Given) : α :=
  match (after.value? name).or (before.value? name) with
  | none => otherwise
  | some value => ((named.find? fun entry => entry.1 == value).map Prod.snd).getD otherwise

def parse (words : List String) (keysVariable : Option String) :
    Except UsageError Invocation :=
  match programGrammar.scanFrom {} words with
  | .error error => .error error
  | .ok (before, none) =>
    match before.resolve with
    | .error error => .error error
    | .ok before => .error (if before.isEmpty then .nothingGiven else .missingCommand)
  | .ok (before, some (name, words)) =>
    match readCommand name words keysVariable with
    | .error error => .error error
    | .ok (command, after) =>
      match before.resolve with
      | .error error => .error error
      | .ok before =>
        .ok
          { command := command
            logFormat := inForce LogFormat.named .text "log-format" before after
            logLevel := inForce LogLevel.named .warn "log-level" before after }

end Invocation

end ContainerAttach.CommandLine
