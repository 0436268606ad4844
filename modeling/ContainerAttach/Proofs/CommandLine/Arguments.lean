import ContainerAttach.CommandLine.Grammar
import Mathlib.Data.List.Nodup

/-!
# Arguments and the words they are written with

A grammar reads words one by one.  What the user writes are arguments: a flag, a switch
with its value, or an operand.  A flag and an operand are one word each; a value stands in the
next word, if that cannot be taken for a switch, or behind an equals sign.  The form of a word
(`Word.ofText`) tells these apart, and the text of a word can be told from its form.

What arguments give is remembered by names, flags apart from values (`Given.ofArguments`).  In a
grammar whose names all differ an argument is new to what was given exactly if its switch, or the
operand, was not given before, and the value of a name is the one that its argument gives
(`value?_eq_some_iff`), wherever the argument stands.
-/

namespace ContainerAttach.CommandLine

/-- An argument as it is written. -/
inductive Argument where
  | flag (name : String)
  /-- A switch with its value in the next word. -/
  | apart (name value : String)
  /-- A switch with its value behind an equals sign. -/
  | joined (name value : String)
  | operand (value : String)
  deriving DecidableEq, Repr

def Argument.words : Argument → List String
  | .flag name => ["--" ++ name]
  | .apart name value => ["--" ++ name, value]
  | .joined name value => ["--" ++ name ++ "=" ++ value]
  | .operand value => [value]

/-- The words of several arguments. -/
def wordsOf (arguments : List Argument) : List String :=
  arguments.flatMap Argument.words

/-- A text that no switch begins with. -/
def IsPlain (text : String) : Prop :=
  text = "-" ∨ text.toList.head? ≠ some '-'

instance (text : String) : Decidable (IsPlain text) :=
  inferInstanceAs (Decidable (_ ∨ _))

theorem not_isPlain_hyphens (rest : String) : ¬ IsPlain ("--" ++ rest) := by
  rintro (heq | hhead)
  · have hletters := congrArg String.toList heq
    simp at hletters
  · exact hhead (by simp)

/-! ## The form of a word -/

namespace Word

theorem ofText_eq_separator_iff {text : String} : ofText text = .separator ↔ text = "--" := by
  constructor
  · intro hform
    unfold ofText at hform
    split at hform
    · next hletters => exact String.toList_inj.mp hletters
    · exact absurd hform (by simp [ofLong])
    · exact absurd hform (by simp)
    · exact absurd hform (by simp)
  · rintro rfl
    rfl

theorem ofText_eq_plain_iff {text : String} : ofText text = .plain ↔ IsPlain text := by
  have hhyphen : text = "-" ↔ text.toList = ['-'] := by
    rw [← String.toList_inj]
    rfl
  rw [IsPlain, hhyphen, ofText]
  generalize text.toList = letters
  split
  · simp
  · simp [ofLong]
  · simp
  · next hlong hletters =>
    cases letters with
    | nil => simp
    | cons c rest =>
        by_cases hc : c = '-'
        · subst hc
          cases rest with
          | nil => simp
          | cons d rest => exact absurd rfl (hletters d rest)
        · simp [hc]

theorem ofText_of_hyphens {text : String} {letters : List Char}
    (htext : text.toList = '-' :: '-' :: letters) (hne : letters ≠ []) :
    ofText text = ofLong letters := by
  unfold ofText
  rw [htext]
  cases letters with
  | nil => exact absurd rfl hne
  | cons c rest => rfl

theorem ne_separator {letters : List Char} (hletters : '=' ∉ letters) :
    ∀ c ∈ letters, decide (c ≠ '=') = true := by
  intro c hc
  simpa using fun heq : c = '=' => hletters (heq ▸ hc)

theorem ofText_flag {name : String} (hne : name ≠ "") (hname : '=' ∉ name.toList) :
    ofText ("--" ++ name) = .long name none := by
  have htext : ("--" ++ name).toList = '-' :: '-' :: (name.toList ++ []) := by simp
  rw [ofText_of_hyphens htext (by simpa using hne), ofLong,
    List.takeWhile_append_of_pos (ne_separator hname),
    List.dropWhile_append_of_pos (ne_separator hname)]
  simp

theorem ofText_joined {name : String} (hname : '=' ∉ name.toList) (value : String) :
    ofText ("--" ++ name ++ "=" ++ value) = .long name (some value) := by
  have htext : ("--" ++ name ++ "=" ++ value).toList =
      '-' :: '-' :: (name.toList ++ '=' :: value.toList) := by simp
  rw [ofText_of_hyphens htext (by simp), ofLong,
    List.takeWhile_append_of_pos (ne_separator hname),
    List.dropWhile_append_of_pos (ne_separator hname)]
  simp

/-- The text of a word in the form of a switch. -/
theorem eq_of_ofText_long {text name : String} {value : Option String}
    (hform : ofText text = .long name value) :
    text = value.elim ("--" ++ name) ("--" ++ name ++ "=" ++ ·) := by
  unfold ofText at hform
  split at hform
  · exact absurd hform (by simp)
  · next letters _ hletters =>
    obtain ⟨rfl, rfl⟩ := Word.long.inj hform
    have hsplit := List.takeWhile_append_dropWhile (p := (· ≠ '=')) (l := letters)
    rw [← String.toList_inj, hletters]
    split
    · next c value hdrop =>
      have hc : c = '=' := by
        have := List.head?_dropWhile_not (· ≠ '=') letters
        rw [hdrop] at this
        simpa using this
      rw [hdrop, hc] at hsplit
      simp only [Option.elim_some, String.toList_append, String.toList_ofList]
      rw [List.append_assoc, List.append_assoc]
      exact congrArg ('-' :: '-' :: ·) hsplit.symm
    · next hdrop =>
      rw [hdrop, List.append_nil] at hsplit
      simp only [Option.elim_none, String.toList_append, String.toList_ofList]
      exact congrArg ('-' :: '-' :: ·) hsplit.symm
  · exact absurd hform (by simp)
  · exact absurd hform (by simp)

theorem ne_nil_of_ofText_letters {text : String} {letters : List Char}
    (hform : ofText text = .letters letters) : letters ≠ [] := by
  unfold ofText at hform
  split at hform
  · exact absurd hform (by simp)
  · exact absurd hform (by simp [ofLong])
  · cases hform
    exact List.cons_ne_nil _ _
  · exact absurd hform (by simp)

end Word

/-! ## Arguments of a grammar -/

/-- A grammar whose arguments can be told apart: its names differ and have no equals sign in
them, its letters do nothing but ask for help or the version, and it has an operand or commands
but not both. -/
structure Grammar.Regular (grammar : Grammar) : Prop where
  names_nodup : (grammar.switches.map Switch.name).Nodup
  name_ne : ∀ switch ∈ grammar.switches, switch.name ≠ ""
  name_plain : ∀ switch ∈ grammar.switches, '=' ∉ switch.name.toList
  letters_ask : ∀ switch ∈ grammar.switches, switch.letter ≠ none →
    switch.action = .help ∨ switch.action = .version
  operand_fresh : ∀ operand ∈ grammar.operand, ∀ switch ∈ grammar.switches,
    switch.name ≠ operand.name
  commands_plain : ∀ command ∈ grammar.commands, IsPlain command
  no_command : ∀ operand ∈ grammar.operand, grammar.commands = []

namespace Argument

/-- The switch of an argument; an operand has none. -/
def name? : Argument → Option String
  | .flag name | .apart name _ | .joined name _ => some name
  | .operand _ => none

def flag? : Argument → Option String
  | .flag name => some name
  | _ => none

/-- The value of an argument, with the name it is remembered by. -/
def namedValue? (grammar : Grammar) : Argument → Option (String × String)
  | .flag _ => none
  | .apart name value | .joined name value => some (name, value)
  | .operand value => grammar.operand.map fun operand => (operand.name, value)

/-- The argument gives a value to a switch, in one of the two ways to write it. -/
def Sets (argument : Argument) (name value : String) : Prop :=
  argument = .apart name value ∨ argument = .joined name value

theorem Sets.name?_eq {argument : Argument} {name value : String}
    (hsets : argument.Sets name value) : argument.name? = some name := by
  obtain rfl | rfl := hsets
  · rfl
  · rfl

/-- The grammar has the argument and accepts its value. -/
def Accepted (grammar : Grammar) : Argument → Prop
  | .flag name => ∃ letter, ⟨name, letter, .flag⟩ ∈ grammar.switches
  | .apart name value | .joined name value =>
    ∃ letter rule, ⟨name, letter, .value rule⟩ ∈ grammar.switches ∧ rule.accepts value = true
  | .operand value => ∃ operand, grammar.operand = some operand ∧ operand.rule.accepts value = true

/-- A value that is a word of its own is not taken for a switch. -/
def Readable : Argument → Prop
  | .flag _ | .joined _ _ => True
  | .apart _ value | .operand value => IsPlain value

end Argument

/-- What arguments give. -/
def Given.ofArguments (grammar : Grammar) (arguments : List Argument) : Given :=
  { flags := arguments.filterMap Argument.flag?
    values := arguments.filterMap (Argument.namedValue? grammar) }

/-! ## What is looked up in a grammar -/

variable {grammar : Grammar} {arguments : List Argument} {name : String}

namespace Grammar.Regular

theorem switch_ext (hregular : grammar.Regular) {first second : Switch}
    (hfirst : first ∈ grammar.switches) (hsecond : second ∈ grammar.switches)
    (hname : first.name = second.name) : first = second :=
  List.inj_on_of_nodup_map hregular.names_nodup hfirst hsecond hname

theorem switch?_eq_some (hregular : grammar.Regular) {switch : Switch}
    (hmem : switch ∈ grammar.switches) : grammar.switch? switch.name = some switch := by
  cases hfound : grammar.switch? switch.name with
  | none =>
      have := List.find?_eq_none.mp hfound switch hmem
      simp at this
  | some found =>
      have hname := List.find?_some hfound
      rw [hregular.switch_ext (List.mem_of_find?_eq_some hfound) hmem (by simpa using hname)]

theorem not_isCommand (hregular : grammar.Regular) {word : String} (hword : ¬ IsPlain word)
    (scan : Scan) : grammar.isCommand scan word = false := by
  have hmem : word ∉ grammar.commands := fun hmem => hword (hregular.commands_plain word hmem)
  simp [isCommand, hmem]

end Grammar.Regular

theorem mem_switches_of_switch? {switch : Switch} (hfound : grammar.switch? name = some switch) :
    switch ∈ grammar.switches ∧ switch.name = name :=
  ⟨List.mem_of_find?_eq_some hfound, by simpa using List.find?_some hfound⟩

/-! ## What is looked up in the arguments -/

namespace Given

theorem hasFlag_ofArguments :
    (ofArguments grammar arguments).hasFlag name = true ↔ .flag name ∈ arguments := by
  simp only [hasFlag, ofArguments, List.contains_iff_mem, List.mem_filterMap]
  constructor
  · rintro ⟨argument, hmem, hflag⟩
    cases argument with
    | flag other =>
        obtain rfl := Option.some.inj hflag
        exact hmem
    | apart | joined | operand => exact absurd hflag (by simp [Argument.flag?])
  · exact fun hmem => ⟨_, hmem, rfl⟩

theorem value?_ofArguments_eq_none_iff :
    (ofArguments grammar arguments).value? name = none ↔
      ∀ argument ∈ arguments, ∀ value, argument.namedValue? grammar ≠ some (name, value) := by
  simp only [value?, ofArguments, Option.map_eq_none_iff, List.find?_eq_none, List.mem_filterMap]
  constructor
  · intro hnone argument hmem value hentry
    exact hnone (name, value) ⟨argument, hmem, hentry⟩ (by simp)
  · rintro hnone ⟨other, value⟩ ⟨argument, hmem, hentry⟩ hother
    obtain rfl : other = name := by simpa using hother
    exact hnone argument hmem value hentry

theorem ofArguments_concat (grammar : Grammar) (arguments : List Argument) (argument : Argument) :
    ofArguments grammar (arguments ++ [argument]) =
      { flags := (ofArguments grammar arguments).flags ++ argument.flag?.toList
        values :=
          (ofArguments grammar arguments).values ++ (argument.namedValue? grammar).toList } := by
  simp only [ofArguments, List.filterMap_append, Given.mk.injEq, and_true]
  constructor
  · cases hflag : argument.flag? <;> simp [hflag]
  · cases hentry : argument.namedValue? grammar <;> simp [hentry]

end Given

/-- The switch of an accepted argument is one of the grammar. -/
theorem Argument.Accepted.exists_switch {argument : Argument}
    (haccepted : argument.Accepted grammar) (hname : argument.name? = some name) :
    ∃ switch ∈ grammar.switches, switch.name = name ∧
      (argument = .flag name ↔ switch.action = .flag) := by
  cases argument with
  | flag other =>
      obtain rfl := Option.some.inj hname
      obtain ⟨letter, hmem⟩ := haccepted
      exact ⟨_, hmem, rfl, by simp⟩
  | apart other value | joined other value =>
      obtain rfl := Option.some.inj hname
      obtain ⟨letter, rule, hmem, -⟩ := haccepted
      exact ⟨_, hmem, rfl, by simp⟩
  | operand => exact absurd hname (by simp [name?])

section New

variable (hregular : grammar.Regular)
  (haccepted : ∀ argument ∈ arguments, argument.Accepted grammar)

include hregular haccepted

/-- A flag is new if the switch is. -/
theorem hasFlag_eq_false_iff {letter : Option Char}
    (hmem : ⟨name, letter, .flag⟩ ∈ grammar.switches) :
    (Given.ofArguments grammar arguments).hasFlag name = false ↔
      some name ∉ arguments.map Argument.name? := by
  rw [← Bool.not_eq_true, Given.hasFlag_ofArguments, not_iff_not, List.mem_map]
  constructor
  · exact fun hflag => ⟨_, hflag, rfl⟩
  · rintro ⟨argument, hargument, hname⟩
    obtain ⟨switch, hswitch, hsame, hflag⟩ := (haccepted argument hargument).exists_switch hname
    rw [hregular.switch_ext hswitch hmem hsame] at hflag
    rwa [hflag.mpr rfl] at hargument

/-- A value is new if the switch is. -/
theorem value?_eq_none_iff {letter : Option Char} {rule : ValueRule}
    (hmem : ⟨name, letter, .value rule⟩ ∈ grammar.switches) :
    (Given.ofArguments grammar arguments).value? name = none ↔
      some name ∉ arguments.map Argument.name? := by
  rw [Given.value?_ofArguments_eq_none_iff, List.mem_map]
  constructor
  · rintro hnone ⟨argument, hargument, hname⟩
    obtain ⟨switch, hswitch, hsame, hflag⟩ := (haccepted argument hargument).exists_switch hname
    rw [hregular.switch_ext hswitch hmem hsame] at hflag
    cases argument with
    | flag other =>
        obtain rfl := Option.some.inj hname
        exact absurd (hflag.mp rfl) (by simp)
    | apart other value | joined other value =>
        obtain rfl := Option.some.inj hname
        exact hnone _ hargument value rfl
    | operand => exact absurd hname (by simp [Argument.name?])
  · intro hnew argument hargument value hentry
    cases argument with
    | flag => exact absurd hentry (by simp [Argument.namedValue?])
    | apart other value | joined other value =>
        obtain ⟨rfl, -⟩ := Prod.mk.inj (Option.some.inj hentry)
        exact hnew ⟨_, hargument, rfl⟩
    | operand =>
        -- the operand is remembered by a name that no switch has
        obtain ⟨operand, hoperand, hpair⟩ := Option.map_eq_some_iff.mp hentry
        obtain ⟨rfl, -⟩ := Prod.mk.inj hpair
        exact hregular.operand_fresh operand hoperand _ hmem rfl

/-- The operand is new if there was none. -/
theorem value?_operand_eq_none_iff {operand : Operand} (hoperand : grammar.operand = some operand) :
    (Given.ofArguments grammar arguments).value? operand.name = none ↔
      none ∉ arguments.map Argument.name? := by
  rw [Given.value?_ofArguments_eq_none_iff, List.mem_map]
  constructor
  · rintro hnone ⟨argument, hargument, hname⟩
    cases argument with
    | operand value => exact hnone _ hargument value (by simp [Argument.namedValue?, hoperand])
    | flag | apart | joined => exact absurd hname (by simp [Argument.name?])
  · intro hnew argument hargument value hentry
    cases argument with
    | flag => exact absurd hentry (by simp [Argument.namedValue?])
    | operand => exact hnew ⟨_, hargument, rfl⟩
    | apart other value | joined other value =>
        obtain ⟨letter, rule, hmem, -⟩ := haccepted _ hargument
        obtain ⟨hsame, -⟩ := Prod.mk.inj (Option.some.inj hentry)
        exact hregular.operand_fresh operand hoperand _ hmem hsame

end New

/-- Two values of one name are values of one switch, or of the operand. -/
theorem Argument.name?_eq_of_namedValue? (hregular : grammar.Regular) {first second : Argument}
    (hfirst : first.Accepted grammar) (hsecond : second.Accepted grammar) {value other : String}
    (hvalue : first.namedValue? grammar = some (name, value))
    (hother : second.namedValue? grammar = some (name, other)) : first.name? = second.name? := by
  -- the name of a switch is none of an operand
  have hswitch {argument : Argument} {value : String} (haccepted : argument.Accepted grammar)
      (hentry : argument.namedValue? grammar = some (name, value)) :
      (argument.name? = some name ∧ ∀ operand ∈ grammar.operand, name ≠ operand.name) ∨
        (argument.name? = none ∧ ∃ operand ∈ grammar.operand, name = operand.name) := by
    cases argument with
    | flag => exact absurd hentry (by simp [namedValue?])
    | apart given value | joined given value =>
        obtain ⟨rfl, -⟩ := Prod.mk.inj (Option.some.inj hentry)
        obtain ⟨letter, rule, hmem, -⟩ := haccepted
        exact .inl ⟨rfl, fun operand hoperand => hregular.operand_fresh operand hoperand _ hmem⟩
    | operand =>
        obtain ⟨operand, hoperand, hpair⟩ := Option.map_eq_some_iff.mp hentry
        exact .inr ⟨rfl, operand, hoperand, (Prod.mk.inj hpair).1.symm⟩
  obtain ⟨hname, hfresh⟩ | ⟨hname, operand, hoperand, hsame⟩ := hswitch hfirst hvalue <;>
    obtain ⟨hname', hfresh'⟩ | ⟨hname', operand', hoperand', hsame'⟩ := hswitch hsecond hother
  · rw [hname, hname']
  · exact absurd hsame' (hfresh operand' hoperand')
  · exact absurd hsame (hfresh' operand hoperand)
  · rw [hname, hname']

/-- The value of a name is the one that an argument gives. -/
theorem value?_eq_some_iff (hregular : grammar.Regular)
    (haccepted : ∀ argument ∈ arguments, argument.Accepted grammar)
    (hnodup : (arguments.map Argument.name?).Nodup) {value : String} :
    (Given.ofArguments grammar arguments).value? name = some value ↔
      ∃ argument ∈ arguments, argument.namedValue? grammar = some (name, value) := by
  have hgives {value : String}
      (hvalue : (Given.ofArguments grammar arguments).value? name = some value) :
      ∃ argument ∈ arguments, argument.namedValue? grammar = some (name, value) := by
    obtain ⟨⟨other, given⟩, hfound, rfl⟩ := Option.map_eq_some_iff.mp hvalue
    have hother : other = name := by simpa using List.find?_some hfound
    obtain ⟨argument, hmem, hentry⟩ := List.mem_filterMap.mp (List.mem_of_find?_eq_some hfound)
    exact ⟨argument, hmem, hother ▸ hentry⟩
  refine ⟨hgives, ?_⟩
  rintro ⟨argument, hmem, hentry⟩
  cases hvalue : (Given.ofArguments grammar arguments).value? name with
  | none => exact absurd hentry (Given.value?_ofArguments_eq_none_iff.mp hvalue argument hmem value)
  | some given =>
      obtain ⟨other, hother, hgiven⟩ := hgives hvalue
      have hname := Argument.name?_eq_of_namedValue? hregular (haccepted argument hmem)
        (haccepted other hother) hentry hgiven
      obtain rfl := List.inj_on_of_nodup_map hnodup hmem hother hname
      rw [(Prod.mk.inj (Option.some.inj (hentry.symm.trans hgiven))).2]

/-- A value of a switch comes from an argument that sets it. -/
theorem Argument.namedValue?_eq_some_iff {argument : Argument} {value : String}
    (hname : ∀ operand ∈ grammar.operand, operand.name ≠ name) :
    argument.namedValue? grammar = some (name, value) ↔ argument.Sets name value := by
  cases argument with
  | flag | apart | joined => simp [namedValue?, Sets]
  | operand given =>
      simp only [namedValue?, Sets, Option.map_eq_some_iff, Prod.mk.injEq, reduceCtorEq, or_self,
        iff_false]
      rintro ⟨operand, hoperand, hsame, -⟩
      exact hname operand hoperand hsame

theorem value?_switch_iff (hregular : grammar.Regular)
    (haccepted : ∀ argument ∈ arguments, argument.Accepted grammar)
    (hnodup : (arguments.map Argument.name?).Nodup)
    (hname : ∀ operand ∈ grammar.operand, operand.name ≠ name) {value : String} :
    (Given.ofArguments grammar arguments).value? name = some value ↔
      ∃ argument ∈ arguments, argument.Sets name value := by
  rw [value?_eq_some_iff hregular haccepted hnodup]
  exact exists_congr fun argument => and_congr_right fun _ =>
    Argument.namedValue?_eq_some_iff hname

end ContainerAttach.CommandLine
