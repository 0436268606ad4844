/-!
# Command lines

A command line is a sequence of words.  A word that starts with two hyphens names
a switch, one that starts with a single hyphen is a cluster of one-letter
switches, and every other word is a command, the value of the switch before it,
or an operand.  Two hyphens alone make operands of all words after them.

A switch with a value takes it from behind an equals sign or from the next word.
What was given for it is looked at only when the next argument is recognised or
the command line ends, so an unknown word is reported before a bad value in front
of it.
-/

namespace ContainerAttach.CommandLine

/-- Why a command line is not carried out. -/
inductive UsageError where
  | helpWanted
  | versionWanted
  /-- Nothing at all was given where a command is needed. -/
  | nothingGiven
  | missingCommand
  | unknownCommand
  | unknownArgument
  /-- A switch without a value was given one. -/
  | needlessValue
  /-- A value is missing or not among those that are accepted. -/
  | badValue
  /-- An argument was given twice, or two that exclude each other. -/
  | conflict
  | missingArgument
  deriving DecidableEq, Repr

/-- The exit code.  Asking for help is no failure. -/
def UsageError.exitCode : UsageError → Nat
  | .helpWanted | .versionWanted => 0
  | _ => 2

/-! ## Words -/

/-- The form of a word. -/
inductive Word where
  | separator
  | long (name : String) (value : Option String)
  | letters (letters : List Char)
  | plain
  deriving DecidableEq, Repr

/-- A switch of several letters with what follows the first equals sign. -/
def Word.ofLong (rest : List Char) : Word :=
  .long (String.ofList (rest.takeWhile (· ≠ '=')))
    (match rest.dropWhile (· ≠ '=') with
      | _ :: value => some (String.ofList value)
      | [] => none)

/-- The form of a word.  A single hyphen is a plain word. -/
def Word.ofText (text : String) : Word :=
  match text.toList with
  | ['-', '-'] => .separator
  | '-' :: '-' :: rest => .ofLong rest
  | '-' :: c :: rest => .letters (c :: rest)
  | _ => .plain

/-! ## Grammars -/

/-- Which values are accepted. -/
inductive ValueRule where
  | any
  | nonempty
  | oneOf (values : List String)
  deriving DecidableEq, Repr

def ValueRule.accepts : ValueRule → String → Bool
  | .any, _ => true
  | .nonempty, value => !value.toList.isEmpty
  | .oneOf values, value => values.contains value

/-- What a switch does. -/
inductive Action where
  | flag
  | value (rule : ValueRule)
  | help
  | version
  deriving DecidableEq, Repr

/-- A switch.  Only switches without a value have a letter. -/
structure Switch where
  name : String
  letter : Option Char := none
  action : Action
  deriving DecidableEq, Repr

/-- An operand, of which a command takes at most one. -/
structure Operand where
  name : String
  rule : ValueRule
  deriving DecidableEq, Repr

/-- The arguments of one command, and its own commands. -/
structure Grammar where
  switches : List Switch
  operand : Option Operand := none
  commands : List String := []
  deriving DecidableEq, Repr

/-! ## What was given -/

/-- An argument whose value has not been looked at. -/
structure Pending where
  name : String
  rule : ValueRule
  value : Option String
  deriving DecidableEq, Repr

/-- The arguments read so far, and the one whose value is still open. -/
structure Given where
  flags : List String := []
  values : List (String × String) := []
  pending : Option Pending := none
  deriving DecidableEq, Repr

namespace Given

def hasFlag (given : Given) (name : String) : Bool :=
  given.flags.contains name

def value? (given : Given) (name : String) : Option String :=
  (given.values.find? fun entry => entry.1 == name).map Prod.snd

def isEmpty (given : Given) : Bool :=
  given.flags.isEmpty && given.values.isEmpty

/-- Takes the open argument in. -/
def resolve (given : Given) : Except UsageError Given :=
  match given.pending with
  | none => .ok given
  | some ⟨_, _, none⟩ => .error .badValue
  | some ⟨name, rule, some value⟩ =>
    if (given.value? name).isSome then .error .conflict
    else if rule.accepts value then
      .ok { given with values := given.values ++ [(name, value)], pending := none }
    else .error .badValue

def expect (given : Given) (pending : Pending) : Except UsageError Given :=
  match given.resolve with
  | .error error => .error error
  | .ok given => .ok { given with pending := some pending }

def addFlag (given : Given) (name : String) : Except UsageError Given :=
  if given.hasFlag name then .error .conflict
  else .ok { given with flags := given.flags ++ [name] }

/-- Does what a switch without a value asks for. -/
def act (given : Given) (switch : Switch) : Except UsageError Given :=
  match given.resolve with
  | .error error => .error error
  | .ok given =>
    match switch.action with
    | .flag => given.addFlag switch.name
    | .help => .error .helpWanted
    | .version => .error .versionWanted
    | .value _ => .error .badValue

end Given

/-! ## Reading the words -/

/-- The words read so far. -/
structure Scan where
  given : Given := {}
  /-- Whether the next plain word is a value. -/
  awaiting : Bool := false
  /-- Whether all words are operands from here on. -/
  trailing : Bool := false
  operandTaken : Bool := false
  deriving DecidableEq, Repr

namespace Grammar

def switch? (grammar : Grammar) (name : String) : Option Switch :=
  grammar.switches.find? fun switch => switch.name == name

def letter? (grammar : Grammar) (letter : Char) : Option Switch :=
  grammar.switches.find? fun switch => switch.letter == some letter

def readLong (grammar : Grammar) (scan : Scan) (name : String) (value : Option String) :
    Except UsageError Scan :=
  match grammar.switch? name with
  | none => .error .unknownArgument
  | some switch =>
    match switch.action, value with
    | .value rule, none =>
      (scan.given.expect ⟨name, rule, none⟩).map fun given =>
        { scan with given := given, awaiting := true }
    | .value rule, some value =>
      match scan.given.expect ⟨name, rule, some value⟩ with
      | .error error => .error error
      | .ok given => given.resolve.map fun given => { scan with given := given, awaiting := false }
    | _, some _ => .error .needlessValue
    | _, none =>
      (scan.given.act switch).map fun given => { scan with given := given, awaiting := false }

def readLetters (grammar : Grammar) (scan : Scan) : List Char → Except UsageError Scan
  | [] => .ok { scan with awaiting := false }
  | letter :: letters =>
    match grammar.letter? letter with
    | none => .error .unknownArgument
    | some switch =>
      match scan.given.act switch with
      | .error error => .error error
      | .ok given => readLetters grammar { scan with given := given } letters

/-- A word in the place of an operand.  Where commands are wanted it is a misspelt one, unless
it names a command that the two hyphens keep from being one. -/
def readOperand (grammar : Grammar) (scan : Scan) (word : String) : Except UsageError Scan :=
  match grammar.operand, scan.operandTaken with
  | some operand, false =>
    (scan.given.expect ⟨operand.name, operand.rule, some word⟩).map fun given =>
      { scan with given := given, awaiting := false, operandTaken := true }
  | _, _ =>
    if grammar.commands.isEmpty || (scan.trailing && grammar.commands.contains word) then
      .error .unknownArgument
    else .error .unknownCommand

def readValue (scan : Scan) (word : String) : Scan :=
  { scan with
    awaiting := false
    given :=
      { scan.given with
        pending := scan.given.pending.map fun pending => { pending with value := some word } } }

def readWord (grammar : Grammar) (scan : Scan) (word : String) : Except UsageError Scan :=
  if scan.trailing then grammar.readOperand scan word
  else
    match Word.ofText word with
    | .separator => .ok { scan with trailing := true }
    | .long name value => grammar.readLong scan name value
    | .letters letters => grammar.readLetters scan letters
    | .plain =>
      if scan.awaiting then .ok (readValue scan word) else grammar.readOperand scan word

def helpCommand : String := "help"

/-- What comes of asking for help on commands; none of them has commands of its own. -/
def help (grammar : Grammar) : List String → UsageError
  | [] => .helpWanted
  | name :: rest =>
    if grammar.commands.contains name && rest.isEmpty then .helpWanted else .unknownCommand

/-- Whether a word names a command where it stands. -/
def isCommand (grammar : Grammar) (scan : Scan) (word : String) : Bool :=
  !scan.trailing && !scan.awaiting && grammar.commands.contains word

/-- Reads the words up to a command, and gives the command with the words after it. -/
def scanFrom (grammar : Grammar) (scan : Scan) :
    List String → Except UsageError (Given × Option (String × List String))
  | [] => .ok (scan.given, none)
  | word :: rest =>
    if grammar.isCommand scan word then
      if word = helpCommand then .error (grammar.help rest)
      else .ok (scan.given, some (word, rest))
    else
      match grammar.readWord scan word with
      | .error error => .error error
      | .ok scan => scanFrom grammar scan rest

/-- Reads all the words of a command that has no commands of its own. -/
def read (grammar : Grammar) (words : List String) : Except UsageError Given :=
  match grammar.scanFrom {} words with
  | .error error => .error error
  | .ok (given, _) => given.resolve

end Grammar

end ContainerAttach.CommandLine
