import ContainerAttach.Proofs.CommandLine.Arguments

/-!
# What a grammar reads

A line consists of arguments and of what comes after them: nothing, two hyphens with one more
operand behind them or none, or a command, whose own words are not looked at.  A grammar has a
line if it accepts the arguments, if each value that is a word of its own can be told from a
switch, and if nothing is given twice (`Line.Fits`).  These are the lines that are read, and what
is found is what their arguments give (`scanFrom_iff`).

The obstacle is that a value is looked at late.  When its word is read it is only remembered as
open, and it is taken in when the next argument is recognised or the line is over, so nothing is
known of a scan in the middle of a line but what it will have taken in (`Scan.Reads`).  A line
that is read takes in all its values, and that is how an open value is known to be a good one
(`exists_resolve`).
-/

namespace ContainerAttach.CommandLine

/-! ## Lines -/

/-- What comes after the arguments: nothing, two hyphens, one more operand behind them, or a
command. -/
inductive LineEnd where
  | last
  | hyphens
  | behind (value : String)
  | command (name : String) (rest : List String)

namespace LineEnd

def words : LineEnd → List String
  | .last => []
  | .hyphens => ["--"]
  | .behind value => ["--", value]
  | .command name rest => name :: rest

def arguments : LineEnd → List Argument
  | .behind value => [.operand value]
  | _ => []

def command? : LineEnd → Option (String × List String)
  | .command name rest => some (name, rest)
  | _ => none

def Fits (grammar : Grammar) : LineEnd → Prop
  | .last | .hyphens => True
  | .behind value => (Argument.operand value).Accepted grammar
  | .command name _ => name ∈ grammar.commands ∧ name ≠ Grammar.helpCommand

end LineEnd

/-- The arguments of a command line, and what comes after them. -/
structure Line where
  arguments : List Argument
  ending : LineEnd

namespace Line

def words (line : Line) : List String :=
  wordsOf line.arguments ++ line.ending.words

/-- All arguments, with the one behind the two hyphens. -/
def all (line : Line) : List Argument :=
  line.arguments ++ line.ending.arguments

/-- A line that the grammar has: its arguments are accepted, they can be read, and no switch is
given twice and no second operand. -/
structure Fits (grammar : Grammar) (line : Line) : Prop where
  accepted : ∀ argument ∈ line.arguments, argument.Accepted grammar
  readable : ∀ argument ∈ line.arguments, argument.Readable
  ending : line.ending.Fits grammar
  once : (line.all.map Argument.name?).Nodup

end Line

/-! ## What a word can do -/

variable {grammar : Grammar} {arguments : List Argument} {name : String}

theorem exists_of_map_eq_ok {α β : Type} {result : Except UsageError α} {change : α → β}
    {changed : β} (hmap : result.map change = .ok changed) :
    ∃ value, result = .ok value ∧ change value = changed := by
  cases result with
  | error cause => exact absurd hmap (by simp [Except.map])
  | ok value => exact ⟨value, rfl, Except.ok.inj hmap⟩

namespace Given

theorem expect_eq_ok_iff {given after : Given} {pending : Pending} :
    given.expect pending = .ok after ↔
      ∃ before, given.resolve = .ok before ∧ after = { before with pending := some pending } := by
  unfold expect
  cases given.resolve with
  | error cause => simp
  | ok before => simp [eq_comm]

/-- Only a flag is remembered, and only once. -/
theorem act_eq_ok_iff {given after : Given} {switch : Switch} :
    given.act switch = .ok after ↔
      ∃ before, given.resolve = .ok before ∧ switch.action = .flag ∧
        before.hasFlag switch.name = false ∧
        after = { before with flags := before.flags ++ [switch.name] } := by
  unfold act
  cases given.resolve with
  | error cause => simp
  | ok before =>
      simp only [Except.ok.injEq, exists_eq_left']
      cases switch.action with
      | flag => cases hflag : before.hasFlag switch.name <;> simp [addFlag, hflag, eq_comm]
      | value | help | version => simp

/-- An open value is taken in if it is the first of its name and is accepted. -/
theorem resolve_eq_ok_iff {given after : Given} {rule : ValueRule} {value : String} :
    ({ given with pending := some ⟨name, rule, some value⟩ } : Given).resolve = .ok after ↔
      given.value? name = none ∧ rule.accepts value = true ∧
        after = { given with values := given.values ++ [(name, value)], pending := none } := by
  have hvalue : ({ given with pending := some ⟨name, rule, some value⟩ } : Given).value? name =
      given.value? name := rfl
  simp only [resolve, hvalue]
  cases given.value? name with
  | some => simp
  | none => cases rule.accepts value <;> simp [eq_comm]

end Given

/-- What a word can do where no value is awaited and no hyphens were given. -/
inductive Grammar.Step (grammar : Grammar) (scan : Scan) : String → Scan → Prop
  | hyphens : Step grammar scan "--" { scan with trailing := true }
  | flag {name : String} {letter : Option Char} {given : Given}
      (mem : ⟨name, letter, .flag⟩ ∈ grammar.switches) (resolved : scan.given.resolve = .ok given)
      (new : given.hasFlag name = false) :
      Step grammar scan ("--" ++ name)
        { scan with given := { given with flags := given.flags ++ [name] }, awaiting := false }
  | awaited {name : String} {letter : Option Char} {rule : ValueRule} {given : Given}
      (mem : ⟨name, letter, .value rule⟩ ∈ grammar.switches)
      (resolved : scan.given.resolve = .ok given) :
      Step grammar scan ("--" ++ name)
        { scan with given := { given with pending := some ⟨name, rule, none⟩ }, awaiting := true }
  | joined {name value : String} {letter : Option Char} {rule : ValueRule} {given : Given}
      (mem : ⟨name, letter, .value rule⟩ ∈ grammar.switches)
      (resolved : scan.given.resolve = .ok given) (new : given.value? name = none)
      (accepts : rule.accepts value = true) :
      Step grammar scan ("--" ++ name ++ "=" ++ value)
        { scan with
          given := { given with values := given.values ++ [(name, value)], pending := none }
          awaiting := false }
  | operand {word : String} {operand : Operand} {given : Given} (plain : IsPlain word)
      (operand_eq : grammar.operand = some operand) (free : scan.operandTaken = false)
      (resolved : scan.given.resolve = .ok given) :
      Step grammar scan word
        { scan with
          given := { given with pending := some ⟨operand.name, operand.rule, some word⟩ }
          awaiting := false
          operandTaken := true }

section Words

variable {scan after : Scan} {word : String}

theorem readOperand_eq_ok_iff :
    grammar.readOperand scan word = .ok after ↔
      ∃ operand given, grammar.operand = some operand ∧ scan.operandTaken = false ∧
        scan.given.resolve = .ok given ∧
        after = { scan with
          given := { given with pending := some ⟨operand.name, operand.rule, some word⟩ }
          awaiting := false
          operandTaken := true } := by
  unfold Grammar.readOperand
  split
  · next operand hoperand htaken =>
    rw [hoperand, htaken]
    unfold Given.expect
    cases scan.given.resolve with
    | error cause => simp [Except.map]
    | ok given => simp [Except.map, eq_comm]
  · next hother =>
    constructor
    · intro hread
      split at hread <;> exact absurd hread (by simp)
    · rintro ⟨operand, given, hoperand, htaken, -⟩
      exact absurd htaken (hother operand hoperand)

/-- A letter only asks for help or the version. -/
theorem readLetters_ne_ok (hregular : grammar.Regular) {letters : List Char} (hne : letters ≠ []) :
    grammar.readLetters scan letters ≠ .ok after := by
  intro hread
  cases letters with
  | nil => exact hne rfl
  | cons letter letters =>
      rw [Grammar.readLetters] at hread
      split at hread
      · exact absurd hread (by simp)
      · next switch hfound =>
        have hletter : switch.letter = some letter := by simpa using List.find?_some hfound
        have hasks := hregular.letters_ask switch (List.mem_of_find?_eq_some hfound)
          (by simp [hletter])
        split at hread
        · exact absurd hread (by simp)
        · next given hact =>
          obtain ⟨-, -, hflag, -⟩ := Given.act_eq_ok_iff.mp hact
          simp [hflag] at hasks

/-- A word in the form of a switch first has the open value taken in. -/
theorem step_of_readLong {value : Option String}
    (hread : grammar.readLong scan name value = .ok after) :
    (∃ given, scan.given.resolve = .ok given) ∧
      grammar.Step scan (value.elim ("--" ++ name) ("--" ++ name ++ "=" ++ ·)) after := by
  unfold Grammar.readLong at hread
  split at hread
  · exact absurd hread (by simp)
  · next switch hfound =>
    obtain ⟨hmem, rfl⟩ := mem_switches_of_switch? hfound
    obtain ⟨name, letter, action⟩ := switch
    cases action with
    | flag =>
        cases value with
        | some => exact absurd hread (by simp)
        | none =>
            obtain ⟨added, hact, rfl⟩ := exists_of_map_eq_ok hread
            obtain ⟨given, hresolve, -, hnew, rfl⟩ := Given.act_eq_ok_iff.mp hact
            exact ⟨⟨given, hresolve⟩, .flag hmem hresolve hnew⟩
    | value rule =>
        cases value with
        | none =>
            obtain ⟨expecting, hexpect, rfl⟩ := exists_of_map_eq_ok hread
            obtain ⟨given, hresolve, rfl⟩ := Given.expect_eq_ok_iff.mp hexpect
            exact ⟨⟨given, hresolve⟩, .awaited hmem hresolve⟩
        | some value =>
            dsimp only at hread
            split at hread
            · exact absurd hread (by simp)
            · next expecting hexpect =>
              obtain ⟨given, hresolve, rfl⟩ := Given.expect_eq_ok_iff.mp hexpect
              obtain ⟨taken, htaken, rfl⟩ := exists_of_map_eq_ok hread
              obtain ⟨hnew, haccepts, rfl⟩ := Given.resolve_eq_ok_iff.mp htaken
              exact ⟨⟨given, hresolve⟩, .joined hmem hresolve hnew haccepts⟩
    | help | version =>
        cases value with
        | some => exact absurd hread (by simp)
        | none =>
            obtain ⟨added, hact, -⟩ := exists_of_map_eq_ok hread
            obtain ⟨-, -, hflag, -⟩ := Given.act_eq_ok_iff.mp hact
            exact absurd hflag (by simp)

theorem readWord_eq_ok_iff (hregular : grammar.Regular) (hawaiting : scan.awaiting = false)
    (htrailing : scan.trailing = false) :
    grammar.readWord scan word = .ok after ↔ grammar.Step scan word after := by
  constructor
  · intro hread
    rw [Grammar.readWord, htrailing] at hread
    simp only [Bool.false_eq_true, if_false] at hread
    split at hread
    · next hform =>
      rw [Word.ofText_eq_separator_iff.mp hform]
      cases hread
      exact .hyphens
    · next name value hform =>
      rw [Word.eq_of_ofText_long hform]
      exact (step_of_readLong hread).2
    · next letters hform =>
      exact absurd hread (readLetters_ne_ok hregular (Word.ne_nil_of_ofText_letters hform))
    · next hform =>
      simp only [hawaiting, Bool.false_eq_true, if_false] at hread
      obtain ⟨operand, given, hoperand, hfree, hresolve, rfl⟩ := readOperand_eq_ok_iff.mp hread
      exact .operand (Word.ofText_eq_plain_iff.mp hform) hoperand hfree hresolve
  · intro hstep
    rw [Grammar.readWord, htrailing]
    simp only [Bool.false_eq_true, if_false]
    cases hstep with
    | hyphens => rfl
    | @flag name letter given mem resolved new =>
        have hact : scan.given.act ⟨name, letter, .flag⟩ = .ok _ :=
          Given.act_eq_ok_iff.mpr ⟨given, resolved, rfl, new, rfl⟩
        rw [Word.ofText_flag (hregular.name_ne _ mem) (hregular.name_plain _ mem)]
        simp only [Grammar.readLong, hregular.switch?_eq_some mem, hact]
        rfl
    | awaited mem resolved =>
        rw [Word.ofText_flag (hregular.name_ne _ mem) (hregular.name_plain _ mem)]
        simp only [Grammar.readLong, hregular.switch?_eq_some mem,
          Given.expect_eq_ok_iff.mpr ⟨_, resolved, rfl⟩]
        rfl
    | joined mem resolved new accepts =>
        rw [Word.ofText_joined (hregular.name_plain _ mem)]
        simp only [Grammar.readLong, hregular.switch?_eq_some mem,
          Given.expect_eq_ok_iff.mpr ⟨_, resolved, rfl⟩,
          Given.resolve_eq_ok_iff.mpr ⟨new, accepts, rfl⟩]
        rfl
    | operand plain operand_eq free resolved =>
        rw [Word.ofText_eq_plain_iff.mpr plain]
        simp only [hawaiting, Bool.false_eq_true, if_false]
        exact readOperand_eq_ok_iff.mpr ⟨_, _, operand_eq, free, resolved, rfl⟩

end Words

/-! ## One argument -/

/-- The words read so far are those of the arguments, and no value is awaited. -/
structure Scan.Reads (grammar : Grammar) (scan : Scan) (arguments : List Argument) : Prop where
  accepted : ∀ argument ∈ arguments, argument.Accepted grammar
  awaiting : scan.awaiting = false
  operandTaken : scan.operandTaken = true ↔ none ∈ arguments.map Argument.name?
  resolved : scan.given.resolve = .ok (Given.ofArguments grammar arguments)

namespace Scan.Reads

variable {scan after : Scan} {word : String} {argument : Argument}

theorem start (grammar : Grammar) : Reads grammar {} [] :=
  ⟨by simp, rfl, by simp, rfl⟩

/-- The argument is read if it is new to what was given and to the operand. -/
theorem concat (hreads : scan.Reads grammar arguments) (haccepted : argument.Accepted grammar)
    (hawaiting : after.awaiting = false)
    (htaken : after.operandTaken = true ↔ scan.operandTaken = true ∨ argument.name? = none)
    (hresolved : after.given.resolve = .ok (Given.ofArguments grammar (arguments ++ [argument]))) :
    after.Reads grammar (arguments ++ [argument]) := by
  refine ⟨?_, hawaiting, ?_, hresolved⟩
  · intro other hmem
    obtain hmem | hmem := List.mem_append.mp hmem
    · exact hreads.accepted other hmem
    · rwa [List.mem_singleton.mp hmem]
  · rw [htaken, hreads.operandTaken, List.map_append, List.mem_append, List.map_singleton,
      List.mem_singleton, eq_comm (a := none)]

theorem scanFrom_step (hcommand : grammar.isCommand scan word = false)
    (hread : grammar.readWord scan word = .ok after) (rest : List String) :
    grammar.scanFrom scan (word :: rest) = grammar.scanFrom after rest := by
  simp [Grammar.scanFrom, hcommand, hread]

/-- Behind the hyphens every word is an operand. -/
theorem scanFrom_behind (htrailing : scan.trailing = true)
    (hread : grammar.readOperand scan word = .ok after) (rest : List String) :
    grammar.scanFrom scan (word :: rest) = grammar.scanFrom after rest :=
  scanFrom_step (by simp [Grammar.isCommand, htrailing])
    (by rw [Grammar.readWord, if_pos htrailing, hread]) rest

/-- A value is read where it is awaited, whatever it is. -/
theorem scanFrom_value (hawaiting : scan.awaiting = true) (htrailing : scan.trailing = false)
    (hplain : IsPlain word) (rest : List String) :
    grammar.scanFrom scan (word :: rest) = grammar.scanFrom (Grammar.readValue scan word) rest := by
  refine scanFrom_step (by simp [Grammar.isCommand, hawaiting]) ?_ rest
  rw [Grammar.readWord, htrailing]
  simp only [Bool.false_eq_true, if_false, Word.ofText_eq_plain_iff.mpr hplain, hawaiting, if_true]

/-- An operand that is new to the arguments is taken in with its value still open. -/
theorem concat_operand (hregular : grammar.Regular) (hreads : scan.Reads grammar arguments)
    {operand : Operand} {value : String} (hoperand : grammar.operand = some operand)
    (haccepts : operand.rule.accepts value = true) (hnew : none ∉ arguments.map Argument.name?) :
    Reads grammar
      { scan with
        given := { Given.ofArguments grammar arguments with
          pending := some ⟨operand.name, operand.rule, some value⟩ }
        awaiting := false
        operandTaken := true } (arguments ++ [.operand value]) := by
  have hnone := (value?_operand_eq_none_iff hregular hreads.accepted hoperand).mpr hnew
  refine hreads.concat ⟨operand, hoperand, haccepts⟩ rfl (by simp [Argument.name?]) ?_
  rw [Given.ofArguments_concat]
  refine Given.resolve_eq_ok_iff.mpr ⟨hnone, haccepts, ?_⟩
  simp [Argument.flag?, Argument.namedValue?, hoperand]

theorem operandTaken_eq_false (hreads : scan.Reads grammar arguments)
    (hnew : none ∉ arguments.map Argument.name?) : scan.operandTaken = false :=
  Bool.eq_false_iff.mpr fun htaken => hnew (hreads.operandTaken.mp htaken)

/-- A new argument that can be read is read. -/
theorem exists_concat (hregular : grammar.Regular) (hreads : scan.Reads grammar arguments)
    (htrailing : scan.trailing = false) (haccepted : argument.Accepted grammar)
    (hreadable : argument.Readable) (hnew : argument.name? ∉ arguments.map Argument.name?) :
    ∃ after : Scan, after.Reads grammar (arguments ++ [argument]) ∧ after.trailing = false ∧
      ∀ rest, grammar.scanFrom scan (argument.words ++ rest) = grammar.scanFrom after rest := by
  have hword {word : String} {after : Scan} (hcommand : grammar.isCommand scan word = false)
      (hstep : grammar.Step scan word after) (rest : List String) :
      grammar.scanFrom scan (word :: rest) = grammar.scanFrom after rest :=
    scanFrom_step hcommand
      ((readWord_eq_ok_iff hregular hreads.awaiting htrailing).mpr hstep) rest
  cases argument with
  | flag name =>
      obtain ⟨letter, hmem⟩ := haccepted
      have hfree := (hasFlag_eq_false_iff hregular hreads.accepted hmem).mpr hnew
      refine ⟨_, hreads.concat ⟨letter, hmem⟩ ?_ ?_ ?_, ?_,
        hword (hregular.not_isCommand (not_isPlain_hyphens name) scan)
          (.flag hmem hreads.resolved hfree)⟩
      · rfl
      · simp [Argument.name?]
      · rw [Given.ofArguments_concat]
        simp [Given.resolve, Given.ofArguments, Argument.flag?, Argument.namedValue?]
      · exact htrailing
  | apart name value =>
      obtain ⟨letter, rule, hmem, haccepts⟩ := haccepted
      have hfree := (value?_eq_none_iff hregular hreads.accepted hmem).mpr hnew
      have hname := hword (hregular.not_isCommand (not_isPlain_hyphens name) scan)
        (.awaited hmem hreads.resolved)
      refine ⟨_, hreads.concat ⟨letter, rule, hmem, haccepts⟩ ?_ ?_ ?_, ?_, fun rest =>
        (hname (value :: rest)).trans (scanFrom_value rfl (by exact htrailing) hreadable rest)⟩
      · rfl
      · simp [Grammar.readValue, Argument.name?]
      · rw [Given.ofArguments_concat]
        refine (Given.resolve_eq_ok_iff.mpr ⟨hfree, haccepts, ?_⟩)
        simp [Argument.flag?, Argument.namedValue?]
      · exact htrailing
  | joined name value =>
      obtain ⟨letter, rule, hmem, haccepts⟩ := haccepted
      have hfree := (value?_eq_none_iff hregular hreads.accepted hmem).mpr hnew
      have hplain : ¬ IsPlain ("--" ++ name ++ "=" ++ value) := by
        rw [String.append_assoc, String.append_assoc]
        exact not_isPlain_hyphens _
      refine ⟨_, hreads.concat ⟨letter, rule, hmem, haccepts⟩ ?_ ?_ ?_, ?_,
        hword (hregular.not_isCommand hplain scan) (.joined hmem hreads.resolved hfree haccepts)⟩
      · rfl
      · simp [Argument.name?]
      · rw [Given.ofArguments_concat]
        simp [Given.resolve, Given.ofArguments, Argument.flag?, Argument.namedValue?]
      · exact htrailing
  | operand value =>
      obtain ⟨operand, hoperand, haccepts⟩ := haccepted
      have hcommand : grammar.isCommand scan value = false := by
        simp [Grammar.isCommand, hregular.no_command operand hoperand]
      exact ⟨_, hreads.concat_operand hregular hoperand haccepts hnew, htrailing,
        hword hcommand (.operand hreadable hoperand (hreads.operandTaken_eq_false hnew)
          hreads.resolved)⟩

theorem exists_append (hregular : grammar.Regular) (more : List Argument) :
    ∀ (scan : Scan) (arguments : List Argument), scan.Reads grammar arguments →
      scan.trailing = false →
      (∀ argument ∈ more, argument.Accepted grammar) → (∀ argument ∈ more, argument.Readable) →
      ((arguments ++ more).map Argument.name?).Nodup →
      ∃ after : Scan, after.Reads grammar (arguments ++ more) ∧ after.trailing = false ∧
        ∀ rest, grammar.scanFrom scan (wordsOf more ++ rest) = grammar.scanFrom after rest := by
  induction more with
  | nil =>
      intro scan arguments hreads htrailing _ _ _
      exact ⟨scan, by rwa [List.append_nil], htrailing, fun rest => rfl⟩
  | cons argument more ih =>
      intro scan arguments hreads htrailing haccepted hreadable hnodup
      rw [List.forall_mem_cons] at haccepted hreadable
      have hsplit : arguments ++ argument :: more = arguments ++ [argument] ++ more := by simp
      have hnew : argument.name? ∉ arguments.map Argument.name? := by
        rw [List.map_append, List.map_cons] at hnodup
        exact fun hmem => List.disjoint_of_nodup_append hnodup hmem List.mem_cons_self
      obtain ⟨mid, hmid, hmiddle, hfirst⟩ :=
        hreads.exists_concat hregular htrailing haccepted.1 hreadable.1 hnew
      obtain ⟨after, hafter, hend, hothers⟩ :=
        ih mid _ hmid hmiddle haccepted.2 hreadable.2 (hsplit ▸ hnodup)
      refine ⟨after, hsplit ▸ hafter, hend, fun rest => ?_⟩
      rw [wordsOf, List.flatMap_cons, List.append_assoc, hfirst]
      exact hothers rest

/-! ## The end of a line -/

theorem scanFrom_hyphens (hreads : scan.Reads grammar arguments) (hregular : grammar.Regular)
    (htrailing : scan.trailing = false) (rest : List String) :
    grammar.scanFrom scan ("--" :: rest) = grammar.scanFrom { scan with trailing := true } rest :=
  scanFrom_step (hregular.not_isCommand (not_isPlain_hyphens "") scan)
    ((readWord_eq_ok_iff hregular hreads.awaiting htrailing).mpr .hyphens) rest

theorem hyphens (hreads : scan.Reads grammar arguments) :
    Reads grammar { scan with trailing := true } arguments :=
  ⟨hreads.accepted, hreads.awaiting, hreads.operandTaken, hreads.resolved⟩

theorem exists_ending (hregular : grammar.Regular) (hreads : scan.Reads grammar arguments)
    (htrailing : scan.trailing = false) {ending : LineEnd} (hfits : ending.Fits grammar)
    (hnodup : ((arguments ++ ending.arguments).map Argument.name?).Nodup) :
    ∃ given, grammar.scanFrom scan ending.words = .ok (given, ending.command?) ∧
      given.resolve = .ok (Given.ofArguments grammar (arguments ++ ending.arguments)) := by
  cases ending with
  | last => exact ⟨_, rfl, by simpa [LineEnd.arguments] using hreads.resolved⟩
  | hyphens =>
      refine ⟨_, hreads.scanFrom_hyphens hregular htrailing [], ?_⟩
      simpa [LineEnd.arguments] using hreads.resolved
  | behind value =>
      obtain ⟨operand, hoperand, haccepts⟩ := hfits
      have hnew : none ∉ arguments.map Argument.name? := by
        rw [List.map_append] at hnodup
        exact fun hmem => List.disjoint_of_nodup_append hnodup hmem List.mem_cons_self
      have hread : grammar.readOperand { scan with trailing := true } value = .ok _ :=
        readOperand_eq_ok_iff.mpr ⟨operand, _, hoperand,
          hreads.hyphens.operandTaken_eq_false hnew, hreads.hyphens.resolved, rfl⟩
      exact ⟨_, (hreads.scanFrom_hyphens hregular htrailing [value]).trans
          (scanFrom_behind rfl hread []),
        (hreads.hyphens.concat_operand hregular hoperand haccepts hnew).resolved⟩
  | command name rest =>
      have hcommand : grammar.isCommand scan name = true := by
        simp [Grammar.isCommand, htrailing, hreads.awaiting, hfits.1]
      refine ⟨scan.given, ?_, by simpa [LineEnd.arguments] using hreads.resolved⟩
      simp [LineEnd.words, LineEnd.command?, Grammar.scanFrom, hcommand, hfits.2]

end Scan.Reads

/-! ## Nothing else is read -/

section Read

variable {scan : Scan} {words : List String} {given final : Given}
  {found : Option (String × List String)}

/-- Where the reading of a line goes on after its first word. -/
theorem scanFrom_cons_eq_ok {word : String} {rest : List String}
    (hscan : grammar.scanFrom scan (word :: rest) = .ok (given, found)) :
    (grammar.isCommand scan word = true ∧ word ≠ Grammar.helpCommand ∧ given = scan.given ∧
      found = some (word, rest)) ∨
    (grammar.isCommand scan word = false ∧ ∃ after, grammar.readWord scan word = .ok after ∧
      grammar.scanFrom after rest = .ok (given, found)) := by
  rw [Grammar.scanFrom] at hscan
  split at hscan
  · next hcommand =>
    split at hscan
    · exact absurd hscan (by simp)
    · next hhelp =>
      cases hscan
      exact .inl ⟨hcommand, hhelp, rfl, rfl⟩
  · next hcommand =>
    split at hscan
    · exact absurd hscan (by simp)
    · next after hread => exact .inr ⟨by simpa using hcommand, after, hread, hscan⟩

/-- A line is read only if the value that was open in front of it can be taken in. -/
theorem exists_resolve_of_trailing (htrailing : scan.trailing = true)
    (hscan : grammar.scanFrom scan words = .ok (given, found))
    (hresolve : given.resolve = .ok final) :
    ∃ before, scan.given.resolve = .ok before := by
  cases words with
  | nil =>
      cases hscan
      exact ⟨final, hresolve⟩
  | cons word rest =>
      obtain ⟨hcommand, -⟩ | ⟨-, after, hread, -⟩ := scanFrom_cons_eq_ok hscan
      · exact absurd hcommand (by simp [Grammar.isCommand, htrailing])
      · rw [Grammar.readWord, if_pos htrailing] at hread
        obtain ⟨operand, before, -, -, hbefore, -⟩ := readOperand_eq_ok_iff.mp hread
        exact ⟨before, hbefore⟩

theorem exists_resolve (hregular : grammar.Regular) (hawaiting : scan.awaiting = false)
    (hscan : grammar.scanFrom scan words = .ok (given, found))
    (hresolve : given.resolve = .ok final) :
    ∃ before, scan.given.resolve = .ok before := by
  cases htrailing : scan.trailing with
  | true => exact exists_resolve_of_trailing htrailing hscan hresolve
  | false =>
      cases words with
      | nil =>
          cases hscan
          exact ⟨final, hresolve⟩
      | cons word rest =>
          obtain ⟨-, -, rfl, -⟩ | ⟨-, after, hread, hrest⟩ := scanFrom_cons_eq_ok hscan
          · exact ⟨final, hresolve⟩
          · cases (readWord_eq_ok_iff hregular hawaiting htrailing).mp hread with
            | hyphens =>
                obtain ⟨before, hbefore⟩ := exists_resolve_of_trailing rfl hrest hresolve
                exact ⟨before, hbefore⟩
            | flag _ resolved | awaited _ resolved | joined _ resolved | operand _ _ _ resolved =>
                exact ⟨_, resolved⟩

/-- A value that is awaited is given in the next word. -/
theorem exists_value (hregular : grammar.Regular) (hawaiting : scan.awaiting = true)
    (htrailing : scan.trailing = false) (hopen : ∀ before, scan.given.resolve ≠ .ok before)
    (hscan : grammar.scanFrom scan words = .ok (given, found))
    (hresolve : given.resolve = .ok final) :
    ∃ value rest, words = value :: rest ∧ IsPlain value ∧
      grammar.scanFrom (Grammar.readValue scan value) rest = .ok (given, found) := by
  cases words with
  | nil =>
      cases hscan
      exact absurd hresolve (hopen final)
  | cons word rest =>
      obtain ⟨hcommand, -⟩ | ⟨-, after, hread, hrest⟩ := scanFrom_cons_eq_ok hscan
      · exact absurd hcommand (by simp [Grammar.isCommand, hawaiting])
      · rw [Grammar.readWord, htrailing] at hread
        simp only [Bool.false_eq_true, if_false] at hread
        split at hread
        · cases hread
          obtain ⟨before, hbefore⟩ := exists_resolve_of_trailing rfl hrest hresolve
          exact absurd hbefore (hopen before)
        · obtain ⟨⟨before, hbefore⟩, -⟩ := step_of_readLong hread
          exact absurd hbefore (hopen before)
        · next letters hform =>
          exact absurd hread (readLetters_ne_ok hregular (Word.ne_nil_of_ofText_letters hform))
        · next hform =>
          simp only [hawaiting, if_true] at hread
          cases hread
          exact ⟨word, rest, rfl, Word.ofText_eq_plain_iff.mp hform, hrest⟩

/-- Behind the hyphens there is one more operand at most. -/
theorem exists_behind (hregular : grammar.Regular) (hreads : scan.Reads grammar arguments)
    (htrailing : scan.trailing = true)
    (hscan : grammar.scanFrom scan words = .ok (given, found))
    (hresolve : given.resolve = .ok final) :
    found = none ∧
      ((words = [] ∧ final = Given.ofArguments grammar arguments) ∨
        ∃ value, words = [value] ∧ (Argument.operand value).Accepted grammar ∧
          none ∉ arguments.map Argument.name? ∧
          final = Given.ofArguments grammar (arguments ++ [.operand value])) := by
  cases words with
  | nil =>
      cases hscan
      exact ⟨rfl, .inl ⟨rfl, Except.ok.inj (hresolve.symm.trans hreads.resolved)⟩⟩
  | cons value rest =>
      obtain ⟨hcommand, -⟩ | ⟨-, after, hread, hrest⟩ := scanFrom_cons_eq_ok hscan
      · exact absurd hcommand (by simp [Grammar.isCommand, htrailing])
      · rw [Grammar.readWord, if_pos htrailing] at hread
        obtain ⟨operand, before, hoperand, hfree, hbefore, rfl⟩ := readOperand_eq_ok_iff.mp hread
        obtain rfl := Except.ok.inj (hbefore.symm.trans hreads.resolved)
        have hnew : none ∉ arguments.map Argument.name? := fun hmem =>
          Bool.false_ne_true (hfree.symm.trans (hreads.operandTaken.mpr hmem))
        cases rest with
        | cons other rest =>
            -- a second operand is refused
            obtain ⟨hcommand, -⟩ | ⟨-, later, hread', -⟩ := scanFrom_cons_eq_ok hrest
            · exact absurd hcommand (by simp [Grammar.isCommand, htrailing])
            · rw [Grammar.readWord, if_pos (by exact htrailing)] at hread'
              obtain ⟨-, -, -, htaken, -⟩ := readOperand_eq_ok_iff.mp hread'
              exact absurd htaken (by simp)
        | nil =>
            cases hrest
            obtain ⟨-, haccepts, -⟩ := Given.resolve_eq_ok_iff.mp hresolve
            have hresolved :=
              (hreads.concat_operand hregular hoperand haccepts hnew).resolved
            exact ⟨rfl, .inr ⟨value, rfl, ⟨operand, hoperand, haccepts⟩, hnew,
              Except.ok.inj (hresolve.symm.trans hresolved)⟩⟩

theorem nodup_concat {argument : Argument} (hnodup : (arguments.map Argument.name?).Nodup)
    (hnew : argument.name? ∉ arguments.map Argument.name?) :
    ((arguments ++ [argument]).map Argument.name?).Nodup := by
  rw [List.map_append, List.map_singleton, ← List.concat_eq_append]
  exact hnodup.concat hnew

/-- A line that is read is at its end, or its first words are those of a new argument. -/
theorem ends_or_exists_argument (hregular : grammar.Regular) (hreads : scan.Reads grammar arguments)
    (htrailing : scan.trailing = false) (hnodup : (arguments.map Argument.name?).Nodup)
    (hscan : grammar.scanFrom scan words = .ok (given, found))
    (hresolve : given.resolve = .ok final) :
    (∃ ending : LineEnd, ending.Fits grammar ∧ ending.words = words ∧ ending.command? = found ∧
      ((arguments ++ ending.arguments).map Argument.name?).Nodup ∧
      final = Given.ofArguments grammar (arguments ++ ending.arguments)) ∨
    ∃ (argument : Argument) (rest : List String), words = argument.words ++ rest ∧
      argument.Accepted grammar ∧ argument.Readable ∧
      argument.name? ∉ arguments.map Argument.name? := by
  have hfinal (hgiven : given = scan.given) : final = Given.ofArguments grammar arguments :=
    Except.ok.inj (hresolve.symm.trans (hgiven ▸ hreads.resolved))
  cases words with
  | nil =>
      cases hscan
      exact .inl ⟨.last, trivial, rfl, rfl, by simpa [LineEnd.arguments] using hnodup,
        by simpa [LineEnd.arguments] using hfinal rfl⟩
  | cons word rest =>
      obtain ⟨hcommand, hhelp, hgiven, rfl⟩ | ⟨-, after, hread, hrest⟩ := scanFrom_cons_eq_ok hscan
      · have hmem : word ∈ grammar.commands := by
          simp only [Grammar.isCommand, Bool.and_eq_true, List.contains_iff_mem] at hcommand
          exact hcommand.2
        exact .inl ⟨.command word rest, ⟨hmem, hhelp⟩, rfl, rfl,
          by simpa [LineEnd.arguments] using hnodup,
          by simpa [LineEnd.arguments] using hfinal hgiven⟩
      · cases (readWord_eq_ok_iff hregular hreads.awaiting htrailing).mp hread with
        | hyphens =>
            obtain ⟨rfl, ⟨rfl, hfinal⟩ | ⟨value, rfl, haccepted, hnew, hfinal⟩⟩ :=
              exists_behind hregular hreads.hyphens rfl hrest hresolve
            · exact .inl ⟨.hyphens, trivial, rfl, rfl, by simpa [LineEnd.arguments] using hnodup,
                by simpa [LineEnd.arguments] using hfinal⟩
            · exact .inl ⟨.behind value, haccepted, rfl, rfl, nodup_concat hnodup hnew, hfinal⟩
        | @flag name letter before mem resolved new =>
            obtain rfl := Except.ok.inj (resolved.symm.trans hreads.resolved)
            exact .inr ⟨.flag name, rest, rfl, ⟨letter, mem⟩, trivial,
              (hasFlag_eq_false_iff hregular hreads.accepted mem).mp new⟩
        | @joined name value letter rule before mem resolved new accepts =>
            obtain rfl := Except.ok.inj (resolved.symm.trans hreads.resolved)
            exact .inr ⟨.joined name value, rest, rfl, ⟨letter, rule, mem, accepts⟩, trivial,
              (value?_eq_none_iff hregular hreads.accepted mem).mp new⟩
        | @awaited name letter rule before mem resolved =>
            obtain rfl := Except.ok.inj (resolved.symm.trans hreads.resolved)
            obtain ⟨value, more, rfl, hplain, hmore⟩ :=
              exists_value hregular (by rfl) (by exact htrailing) (by simp [Given.resolve]) hrest
                hresolve
            obtain ⟨taken, htaken⟩ := exists_resolve hregular rfl hmore hresolve
            obtain ⟨hnew, haccepts, -⟩ := Given.resolve_eq_ok_iff.mp htaken
            exact .inr ⟨.apart name value, more, rfl, ⟨letter, rule, mem, haccepts⟩, hplain,
              (value?_eq_none_iff hregular hreads.accepted mem).mp hnew⟩
        | @operand _ operand before plain operand_eq free resolved =>
            obtain rfl := Except.ok.inj (resolved.symm.trans hreads.resolved)
            obtain ⟨taken, htaken⟩ := exists_resolve hregular rfl hrest hresolve
            obtain ⟨hnew, haccepts, -⟩ := Given.resolve_eq_ok_iff.mp htaken
            exact .inr ⟨.operand word, rest, rfl, ⟨operand, operand_eq, haccepts⟩, plain,
              (value?_operand_eq_none_iff hregular hreads.accepted operand_eq).mp hnew⟩

theorem Argument.words_ne_nil (argument : Argument) : argument.words ≠ [] := by
  cases argument <;> simp [Argument.words]

/-- The rest of a line that is read is a line of the grammar. -/
theorem exists_line (hregular : grammar.Regular) (hreads : scan.Reads grammar arguments)
    (htrailing : scan.trailing = false) (hnodup : (arguments.map Argument.name?).Nodup)
    (hscan : grammar.scanFrom scan words = .ok (given, found))
    (hresolve : given.resolve = .ok final) :
    ∃ line : Line, (∀ argument ∈ line.arguments, argument.Accepted grammar) ∧
      (∀ argument ∈ line.arguments, argument.Readable) ∧ line.ending.Fits grammar ∧
      ((arguments ++ line.all).map Argument.name?).Nodup ∧ line.words = words ∧
      line.ending.command? = found ∧ final = Given.ofArguments grammar (arguments ++ line.all) := by
  induction hlength : words.length using Nat.strongRecOn generalizing words scan arguments with
  | _ length ih =>
      obtain ⟨ending, hfits, rfl, hfound, hnodup, hfinal⟩ |
          ⟨argument, rest, rfl, haccepted, hreadable, hnew⟩ :=
        ends_or_exists_argument hregular hreads htrailing hnodup hscan hresolve
      · exact ⟨⟨[], ending⟩, by simp, by simp, hfits, hnodup, rfl, hfound, hfinal⟩
      · obtain ⟨after, hafter, hmiddle, hfirst⟩ :=
          hreads.exists_concat hregular htrailing haccepted hreadable hnew
        rw [hfirst] at hscan
        have hshorter : rest.length < length := by
          rw [← hlength, List.length_append]
          have := List.length_pos_iff.mpr argument.words_ne_nil
          omega
        obtain ⟨⟨others, ending⟩, hothers, hread, hending, hnodup', hwords, hfound, hfinal⟩ :=
          ih rest.length hshorter hafter hmiddle (nodup_concat hnodup hnew) hscan rfl
        refine ⟨⟨argument :: others, ending⟩, List.forall_mem_cons.mpr ⟨haccepted, hothers⟩,
          List.forall_mem_cons.mpr ⟨hreadable, hread⟩, hending, ?_, ?_, hfound, ?_⟩
        · simpa [Line.all] using hnodup'
        · rw [← hwords]
          simp [Line.words, wordsOf]
        · simpa [Line.all] using hfinal

/-- **A grammar reads its lines and nothing else.**  What it finds is what the arguments give,
and the command that the line ends with. -/
theorem scanFrom_iff (hregular : grammar.Regular) :
    (∃ given, grammar.scanFrom {} words = .ok (given, found) ∧ given.resolve = .ok final) ↔
      ∃ line : Line, line.Fits grammar ∧ line.words = words ∧ line.ending.command? = found ∧
        final = Given.ofArguments grammar line.all := by
  constructor
  · rintro ⟨given, hscan, hresolve⟩
    obtain ⟨line, haccepted, hreadable, hending, hnodup, hwords, hfound, hfinal⟩ :=
      exists_line hregular (Scan.Reads.start grammar) rfl List.nodup_nil hscan hresolve
    exact ⟨line, ⟨haccepted, hreadable, hending, by simpa using hnodup⟩, hwords, hfound,
      by simpa using hfinal⟩
  · rintro ⟨⟨arguments, ending⟩, ⟨haccepted, hreadable, hending, hnodup⟩, rfl, rfl, rfl⟩
    have hfront : (([] ++ arguments).map Argument.name?).Nodup := by
      rw [Line.all, List.map_append] at hnodup
      exact hnodup.of_append_left
    obtain ⟨after, hreads, htrailing, hfirst⟩ := Scan.Reads.exists_append hregular arguments {} []
      (.start grammar) rfl haccepted hreadable hfront
    obtain ⟨given, hlast, hresolve⟩ := hreads.exists_ending hregular htrailing hending hnodup
    exact ⟨given, (hfirst _).trans hlast, hresolve⟩

end Read

end ContainerAttach.CommandLine
