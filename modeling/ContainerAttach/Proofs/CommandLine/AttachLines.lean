import ContainerAttach.CommandLine.Invocation
import ContainerAttach.Proofs.CommandLine.Concluding
import ContainerAttach.Proofs.CommandLine.Reading

/-!
# Command lines for a session

The program reads two lines, one within the other: its own ends with the command, and the words
behind it are the line of the command.  The switches that say how to log are in both grammars.
An `AttachLine` is such a pair, and it fits if both lines do and a path is given, so that nothing
is wrong with it but that it may have both flags that exclude each other.  Every accepted command
line is one (`AttachLine.exists_of_parse`), and what it is read as depends on the values and flags
that are given on each side of the command and not on their order (`AttachLine.parse_words`).

Arguments can stand in any order on their side of the command (`AttachLine.Reordered`), and one
that is common to both sides may change sides.  A switch that is given on both of them has the
value behind the command, so that argument has to stay there if the whole line is to mean the same
(`AttachLine.Rearranged`).  The command itself has no common switches and is the same in any case
(`AttachLine.Scattered`).
-/

namespace ContainerAttach.CommandLine

/-! ## The grammars -/

theorem regular_programGrammar : programGrammar.Regular where
  names_nodup := by decide
  name_ne := by decide
  name_plain := by decide +kernel
  letters_ask := by decide
  operand_fresh := by simp [programGrammar]
  commands_plain := by decide +kernel
  no_command := by simp [programGrammar]

theorem regular_attachGrammar : attachGrammar.Regular where
  names_nodup := by decide
  name_ne := by decide
  name_plain := by decide +kernel
  letters_ask := by decide
  operand_fresh := by
    simp only [attachGrammar, Option.mem_some_iff, forall_eq']
    decide
  commands_plain := by simp [attachGrammar]
  no_command := by simp [attachGrammar]

/-- In front of the command there are no flags, and no operand. -/
theorem not_accepted_flag (name : String) : ¬ (Argument.flag name).Accepted programGrammar := by
  rintro ⟨letter, hmem⟩
  exact absurd hmem (by simp [programGrammar, commonSwitches])

theorem not_accepted_operand (value : String) :
    ¬ (Argument.operand value).Accepted programGrammar := by
  rintro ⟨operand, hoperand, -⟩
  exact absurd hoperand (by simp [programGrammar])

/-- What may stand in front of the command may stand behind it. -/
theorem accepted_attachGrammar {argument : Argument}
    (haccepted : argument.Accepted programGrammar) :
    argument.Accepted attachGrammar := by
  cases argument with
  | flag name => exact absurd haccepted (not_accepted_flag name)
  | apart name value | joined name value =>
      obtain ⟨letter, rule, hmem, haccepts⟩ := haccepted
      refine ⟨letter, rule, ?_, haccepts⟩
      simp only [programGrammar, List.mem_append, List.mem_singleton] at hmem
      obtain hmem | hversion := hmem
      · exact List.mem_append_left _ hmem
      · exact absurd hversion (by simp)
  | operand value => exact absurd haccepted (not_accepted_operand value)

/-! ## Lines -/

/-- A command line for `attach`: the arguments in front of the command, and the line behind
it. -/
structure AttachLine where
  before : List Argument
  after : Line

namespace AttachLine

/-- The line as the program's own grammar has it. -/
def whole (line : AttachLine) : Line :=
  ⟨line.before, .command "attach" line.after.words⟩

def words (line : AttachLine) : List String :=
  line.whole.words

/-- A line that is valid but for flags that exclude each other. -/
structure Fits (line : AttachLine) : Prop where
  before : line.whole.Fits programGrammar
  after : line.after.Fits attachGrammar
  path : ∃ path, .operand path ∈ line.after.all

/-- The flags that exclude each other are both given. -/
def Conflicts (line : AttachLine) : Prop :=
  .flag "no-stdin" ∈ line.after.arguments ∧ .flag "stop-after-stdin-eof" ∈ line.after.arguments

/-- What is given in front of the command. -/
def givenBefore (line : AttachLine) : Given :=
  .ofArguments programGrammar line.before

/-- What is given behind the command. -/
def givenAfter (line : AttachLine) : Given :=
  .ofArguments attachGrammar line.after.all

def invocation (line : AttachLine) (arguments : AttachArguments) : Invocation :=
  { command := .attach arguments
    logFormat :=
      Invocation.inForce LogFormat.named .text "log-format" line.givenBefore line.givenAfter
    logLevel :=
      Invocation.inForce LogLevel.named .warn "log-level" line.givenBefore line.givenAfter }

variable {line : AttachLine} {words : List String} {keysVariable : Option String}

/-! ## Reading a line -/

theorem whole_all (line : AttachLine) : line.whole.all = line.before := by
  simp [whole, Line.all, LineEnd.arguments]

theorem command?_eq_none {ending : LineEnd} (hfits : ending.Fits attachGrammar) :
    ending.command? = none := by
  cases ending with
  | last | hyphens | behind => rfl
  | command name rest => exact absurd hfits.1 (by simp [attachGrammar])

theorem read_attachGrammar_iff {given : Given} :
    attachGrammar.read words = .ok given ↔
      ∃ line : Line, line.Fits attachGrammar ∧ line.words = words ∧
        given = .ofArguments attachGrammar line.all := by
  unfold Grammar.read
  constructor
  · intro hread
    split at hread
    · exact absurd hread (by simp)
    · next before found hscan =>
      obtain ⟨line, hfits, hwords, -, hgiven⟩ :=
        (scanFrom_iff regular_attachGrammar).mp ⟨before, hscan, hread⟩
      exact ⟨line, hfits, hwords, hgiven⟩
  · rintro ⟨line, hfits, hwords, hgiven⟩
    obtain ⟨before, hscan, hresolve⟩ := (scanFrom_iff regular_attachGrammar).mpr
      ⟨line, hfits, hwords, command?_eq_none hfits.ending, hgiven⟩
    rw [hscan]
    exact hresolve

/-- What the program makes of a line depends on what the arguments give. -/
theorem parse_words (hfits : line.Fits) (keysVariable : Option String) :
    Invocation.parse line.words keysVariable =
      (Invocation.attachArguments line.givenAfter keysVariable).map line.invocation := by
  obtain ⟨given, hscan, hresolve⟩ := (scanFrom_iff regular_programGrammar).mpr
    ⟨line.whole, hfits.before, rfl, rfl, rfl⟩
  have hread : attachGrammar.read line.after.words = .ok line.givenAfter :=
    read_attachGrammar_iff.mpr ⟨line.after, hfits.after, rfl, rfl⟩
  rw [whole_all] at hresolve
  unfold Invocation.parse Invocation.readCommand
  rw [words, hscan]
  simp only [LineEnd.command?, whole, if_true, hread]
  cases Invocation.attachArguments line.givenAfter keysVariable with
  | error cause => rfl
  | ok arguments =>
      simp only [Except.map, hresolve]
      rfl

/-- Arguments are complete with a path, unless two flags exclude each other. -/
theorem attachArguments_eq_ok {given : Given} {arguments : AttachArguments}
    (hattach : Invocation.attachArguments given keysVariable = .ok arguments) :
    ¬ (given.hasFlag "no-stdin" = true ∧ given.hasFlag "stop-after-stdin-eof" = true) ∧
      arguments.noStdin = given.hasFlag "no-stdin" ∧
      arguments.stopAfterStdinEof = given.hasFlag "stop-after-stdin-eof" ∧
      ∃ path, given.value? "path" = some path ∧ arguments.path = Bytes.ofText path := by
  unfold Invocation.attachArguments at hattach
  split at hattach
  · exact absurd hattach (by simp)
  · next hflags =>
    split at hattach
    · exact absurd hattach (by simp)
    · next path hpath =>
      cases hattach
      exact ⟨by simpa using hflags, rfl, rfl, path, hpath, rfl⟩

theorem namedValue?_path_iff {argument : Argument} (haccepted : argument.Accepted attachGrammar)
    {path : String} :
    argument.namedValue? attachGrammar = some ("path", path) ↔ argument = .operand path := by
  cases argument with
  | flag => simp [Argument.namedValue?]
  | operand => simp [Argument.namedValue?, attachGrammar]
  | apart name value | joined name value =>
      obtain ⟨letter, rule, hmem, -⟩ := haccepted
      have hfresh := regular_attachGrammar.operand_fresh _ rfl _ hmem
      simpa [Argument.namedValue?] using fun heq : name = "path" => absurd heq hfresh

theorem accepted_all (hfits : line.after.Fits attachGrammar) :
    ∀ argument ∈ line.after.all, argument.Accepted attachGrammar := by
  intro argument hmem
  obtain hmem | hmem := List.mem_append.mp hmem
  · exact hfits.accepted argument hmem
  · have hending := hfits.ending
    generalize line.after.ending = ending at hmem hending
    cases ending with
    | behind value =>
        rw [List.mem_singleton.mp hmem]
        exact hending
    | last | hyphens | command => exact absurd hmem List.not_mem_nil

theorem value?_path_iff (hfits : line.after.Fits attachGrammar) {path : String} :
    line.givenAfter.value? "path" = some path ↔ .operand path ∈ line.after.all := by
  have haccepted := accepted_all hfits
  rw [givenAfter, value?_eq_some_iff regular_attachGrammar haccepted hfits.once]
  constructor
  · rintro ⟨argument, hmem, hvalue⟩
    rwa [(namedValue?_path_iff (haccepted argument hmem)).mp hvalue] at hmem
  · exact fun hmem => ⟨_, hmem, (namedValue?_path_iff (haccepted _ hmem)).mpr rfl⟩

theorem hasFlag_givenAfter {name : String} :
    line.givenAfter.hasFlag name = true ↔ .flag name ∈ line.after.arguments := by
  rw [givenAfter, Given.hasFlag_ofArguments, Line.all, List.mem_append]
  refine or_iff_left ?_
  cases line.after.ending <;> simp [LineEnd.arguments]

/-- Without hyphens the line ends with its arguments. -/
theorem ending_of_not_mem (hfits : line.Fits) (hhyphens : "--" ∉ line.words) :
    line.after.ending = .last := by
  have hending := command?_eq_none hfits.after.ending
  have hnone : "--" ∉ line.after.ending.words := by
    intro hmem
    refine hhyphens (List.mem_append_right _ (List.mem_cons_of_mem _ ?_))
    exact List.mem_append_right _ hmem
  generalize line.after.ending = ending at hending hnone
  cases ending with
  | last => rfl
  | hyphens | behind => exact absurd List.mem_cons_self hnone
  | command => exact absurd hending (by simp [LineEnd.command?])

/-- Every command line for `attach` that is accepted is such a line. -/
theorem exists_of_parse {invocation : Invocation} {arguments : AttachArguments}
    (hparse : Invocation.parse words keysVariable = .ok invocation)
    (hcommand : invocation.command = .attach arguments) :
    ∃ line : AttachLine, line.Fits ∧ line.words = words ∧
      Invocation.attachArguments line.givenAfter keysVariable = .ok arguments := by
  unfold Invocation.parse at hparse
  split at hparse
  · exact absurd hparse (by simp)
  · split at hparse <;> exact absurd hparse (by simp)
  · next given name rest hscan =>
    split at hparse
    · exact absurd hparse (by simp)
    · next command after hread =>
      split at hparse
      · exact absurd hparse (by simp)
      · next before hresolve =>
        cases hparse
        obtain rfl : command = .attach arguments := hcommand
        obtain ⟨⟨front, ending⟩, hfits, rfl, hfound, -⟩ :=
          (scanFrom_iff regular_programGrammar).mp ⟨given, hscan, hresolve⟩
        obtain rfl : ending = .command name rest := by
          cases ending with
          | command => cases hfound; rfl
          | last | hyphens | behind => exact absurd hfound (by simp [LineEnd.command?])
        unfold Invocation.readCommand at hread
        split at hread
        · next hname =>
          subst hname
          split at hread
          · exact absurd hread (by simp)
          · next given hread' =>
            obtain ⟨line, hline, rfl, rfl⟩ := read_attachGrammar_iff.mp hread'
            obtain ⟨taken, hattach, htaken⟩ := exists_of_map_eq_ok hread
            cases htaken
            obtain ⟨-, -, -, path, hpath, -⟩ := attachArguments_eq_ok hattach
            exact ⟨⟨front, line⟩, ⟨hfits, hline, path, (value?_path_iff hline).mp hpath⟩, rfl,
              hattach⟩
        · obtain ⟨taken, -, htaken⟩ := exists_of_map_eq_ok hread
          exact absurd htaken (by simp)

/-- Of flags that exclude each other one can be given, and both are reported. -/
theorem attachArguments_of_conflicts (hconflicts : line.Conflicts) (keysVariable : Option String) :
    Invocation.attachArguments line.givenAfter keysVariable = .error .conflict := by
  have hfirst := hasFlag_givenAfter.mpr hconflicts.1
  have hsecond := hasFlag_givenAfter.mpr hconflicts.2
  rw [Invocation.attachArguments, hfirst, hsecond]
  rfl

theorem exists_attachArguments (hfits : line.Fits) (hconflicts : ¬ line.Conflicts)
    (keysVariable : Option String) :
    ∃ arguments, Invocation.attachArguments line.givenAfter keysVariable = .ok arguments := by
  obtain ⟨path, hpath⟩ := hfits.path
  have hflags : ¬ (line.givenAfter.hasFlag "no-stdin" &&
      line.givenAfter.hasFlag "stop-after-stdin-eof") = true := by
    rw [Bool.and_eq_true, hasFlag_givenAfter, hasFlag_givenAfter]
    exact hconflicts
  rw [Invocation.attachArguments, if_neg hflags, (value?_path_iff hfits.after).mpr hpath]
  exact ⟨_, rfl⟩

/-! ## The order of arguments -/

/-- The same arguments in another order, each on its side of the command and without hyphens
behind them. -/
structure Reordered (first second : AttachLine) : Prop where
  ending : first.after.ending = .last
  ending' : second.after.ending = .last
  before : first.before.Perm second.before
  after : first.after.arguments.Perm second.after.arguments

/-- The same arguments, which may change sides: in front of the command are only those that are
allowed there, and on neither side is one given twice. -/
structure Scattered (first second : AttachLine) : Prop where
  ending : first.after.ending = .last
  ending' : second.after.ending = .last
  all : (first.before ++ first.after.arguments).Perm (second.before ++ second.after.arguments)
  common : ∀ argument ∈ second.before, argument.Accepted programGrammar
  once_before : (second.before.map Argument.name?).Nodup
  once_after : (second.after.arguments.map Argument.name?).Nodup

/-- The same arguments, of which those that count still count: where a switch is given on both
sides, the argument behind the command stays there. -/
structure Rearranged (first second : AttachLine) : Prop extends Scattered first second where
  counts : ∀ argument ∈ first.after.arguments,
    argument.name? ∈ first.before.map Argument.name? → argument ∈ second.after.arguments

variable {first second : AttachLine}

theorem all_of_last (hlast : line.after.ending = .last) :
    line.after.all = line.after.arguments := by
  simp [Line.all, hlast, LineEnd.arguments]

/-- On each side a switch is given once, and there is one operand. -/
theorem Fits.once (hfits : line.Fits) :
    (line.before.map Argument.name?).Nodup ∧ (line.after.all.map Argument.name?).Nodup :=
  ⟨whole_all line ▸ hfits.before.once, hfits.after.once⟩

theorem Reordered.rearranged (hreordered : first.Reordered second) (hfits : first.Fits) :
    first.Rearranged second where
  ending := hreordered.ending
  ending' := hreordered.ending'
  all := hreordered.before.append hreordered.after
  common := fun argument hmem =>
    hfits.before.accepted argument (hreordered.before.mem_iff.mpr hmem)
  once_before := (hreordered.before.map _).nodup_iff.mp hfits.once.1
  once_after := (hreordered.after.map _).nodup_iff.mp
    (all_of_last hreordered.ending ▸ hfits.once.2)
  counts := fun _ hmem _ => hreordered.after.mem_iff.mp hmem

namespace Scattered

theorem mem_iff (hscattered : first.Scattered second) (argument : Argument) :
    argument ∈ first.before ∨ argument ∈ first.after.arguments ↔
      argument ∈ second.before ∨ argument ∈ second.after.arguments := by
  rw [← List.mem_append, ← List.mem_append]
  exact hscattered.all.mem_iff

/-- Only the arguments that are common to both sides can be on the other one. -/
theorem mem_after_iff (hscattered : first.Scattered second) (hfits : first.Fits)
    {argument : Argument} (hown : ¬ argument.Accepted programGrammar) :
    argument ∈ first.after.arguments ↔ argument ∈ second.after.arguments := by
  have hbefore : argument ∉ first.before :=
    fun hmem => hown (hfits.before.accepted argument hmem)
  have hbefore' : argument ∉ second.before := fun hmem => hown (hscattered.common argument hmem)
  have hboth := hscattered.mem_iff argument
  rwa [or_iff_right hbefore, or_iff_right hbefore'] at hboth

theorem fits (hscattered : first.Scattered second) (hfits : first.Fits) : second.Fits := by
  have hall (argument : Argument)
      (hmem : argument ∈ second.before ∨ argument ∈ second.after.arguments) :
      argument.Accepted attachGrammar ∧ argument.Readable := by
    obtain hmem | hmem := (hscattered.mem_iff _).mpr hmem
    · exact ⟨accepted_attachGrammar (hfits.before.accepted argument hmem),
        hfits.before.readable argument hmem⟩
    · exact ⟨hfits.after.accepted argument hmem, hfits.after.readable argument hmem⟩
  refine ⟨⟨hscattered.common, ?_, ?_, ?_⟩, ⟨?_, ?_, ?_, ?_⟩, ?_⟩
  · exact fun argument hmem => (hall argument (.inl hmem)).2
  · exact ⟨by simp [programGrammar], by decide⟩
  · rw [whole_all]
    exact hscattered.once_before
  · exact fun argument hmem => (hall argument (.inr hmem)).1
  · exact fun argument hmem => (hall argument (.inr hmem)).2
  · rw [hscattered.ending']
    trivial
  · rw [all_of_last hscattered.ending']
    exact hscattered.once_after
  · obtain ⟨path, hpath⟩ := hfits.path
    rw [all_of_last hscattered.ending] at hpath
    refine ⟨path, ?_⟩
    rw [all_of_last hscattered.ending']
    exact (hscattered.mem_after_iff hfits (not_accepted_operand path)).mp hpath

end Scattered

/-! ## What is given does not depend on the order -/

theorem not_accepted_of_namedValue? {name value : String} {argument : Argument}
    (hname : name ∉ programGrammar.switches.map Switch.name)
    (hvalue : argument.namedValue? attachGrammar = some (name, value)) :
    ¬ argument.Accepted programGrammar := by
  cases argument with
  | flag => exact absurd hvalue (by simp [Argument.namedValue?])
  | operand value => exact not_accepted_operand value
  | apart other given | joined other given =>
      obtain ⟨rfl, -⟩ := Prod.mk.inj (Option.some.inj hvalue)
      rintro ⟨letter, rule, hmem, -⟩
      exact hname (List.mem_map_of_mem hmem)

namespace Scattered

theorem hasFlag_eq (hscattered : first.Scattered second) (hfits : first.Fits) (name : String) :
    first.givenAfter.hasFlag name = second.givenAfter.hasFlag name := by
  rw [Bool.eq_iff_iff, hasFlag_givenAfter, hasFlag_givenAfter]
  exact hscattered.mem_after_iff hfits (not_accepted_flag name)

/-- A value of the command's own is given by the same argument. -/
theorem value?_eq (hscattered : first.Scattered second) (hfits : first.Fits) {name : String}
    (hname : name ∉ programGrammar.switches.map Switch.name) :
    first.givenAfter.value? name = second.givenAfter.value? name := by
  have hfits' := hscattered.fits hfits
  apply Option.ext
  intro value
  rw [givenAfter, value?_eq_some_iff regular_attachGrammar (accepted_all hfits.after) hfits.once.2,
    givenAfter, value?_eq_some_iff regular_attachGrammar (accepted_all hfits'.after) hfits'.once.2,
    all_of_last hscattered.ending, all_of_last hscattered.ending']
  refine exists_congr fun argument => and_congr_left fun hvalue => ?_
  exact hscattered.mem_after_iff hfits (not_accepted_of_namedValue? hname hvalue)

theorem attachArguments_eq (hscattered : first.Scattered second) (hfits : first.Fits)
    (keysVariable : Option String) :
    Invocation.attachArguments first.givenAfter keysVariable =
      Invocation.attachArguments second.givenAfter keysVariable := by
  have hpath := hscattered.value?_eq hfits (show "path" ∉ _ by decide)
  have hid := hscattered.value?_eq hfits (show "id" ∉ _ by decide)
  have hkeys := hscattered.value?_eq hfits (show "detach-keys" ∉ _ by decide)
  unfold Invocation.attachArguments
  rw [hscattered.hasFlag_eq hfits, hscattered.hasFlag_eq hfits, hscattered.hasFlag_eq hfits,
    hpath, hid, hkeys]

end Scattered

/-- The value of a switch that is allowed on both sides; the one behind the command counts. -/
def setting? (line : AttachLine) (name : String) : Option String :=
  (line.givenAfter.value? name).or (line.givenBefore.value? name)

theorem setting?_eq_some_iff (hfits : line.Fits) {name value : String} (hname : name ≠ "path") :
    line.setting? name = some value ↔
      (∃ argument ∈ line.after.all, argument.Sets name value) ∨
        (∀ other, ¬ ∃ argument ∈ line.after.all, argument.Sets name other) ∧
          ∃ argument ∈ line.before, argument.Sets name value := by
  have hbefore (value : String) : line.givenBefore.value? name = some value ↔
      ∃ argument ∈ line.before, argument.Sets name value :=
    value?_switch_iff regular_programGrammar hfits.before.accepted hfits.once.1
      (by simp [programGrammar])
  have hafter (value : String) : line.givenAfter.value? name = some value ↔
      ∃ argument ∈ line.after.all, argument.Sets name value :=
    value?_switch_iff regular_attachGrammar (accepted_all hfits.after) hfits.once.2
      (by simpa [attachGrammar] using hname.symm)
  rw [setting?, Option.or_eq_some_iff, Option.eq_none_iff_forall_ne_some, hbefore]
  simp only [ne_eq, hafter]

/-- A switch has a value if it is given one on either side. -/
theorem exists_setting?_iff (hfits : line.Fits) {name : String} (hname : name ≠ "path") :
    (∃ value, line.setting? name = some value) ↔
      ∃ value argument, (argument ∈ line.before ∨ argument ∈ line.after.all) ∧
        argument.Sets name value := by
  simp only [setting?_eq_some_iff hfits hname]
  constructor
  · rintro ⟨value, ⟨argument, hmem, hsets⟩ | ⟨-, argument, hmem, hsets⟩⟩
    · exact ⟨value, argument, .inr hmem, hsets⟩
    · exact ⟨value, argument, .inl hmem, hsets⟩
  · rintro ⟨value, argument, hmem | hmem, hsets⟩
    · by_cases hafter : ∃ other argument, argument ∈ line.after.all ∧ argument.Sets name other
      · obtain ⟨other, hother⟩ := hafter
        exact ⟨other, .inl hother⟩
      · exact ⟨value, .inr ⟨not_exists.mp hafter, argument, hmem, hsets⟩⟩
    · exact ⟨value, .inl ⟨argument, hmem, hsets⟩⟩

/-- Two arguments for one switch on one side are the same. -/
theorem eq_of_sets {arguments : List Argument} (honce : (arguments.map Argument.name?).Nodup)
    {argument other : Argument} {name value value' : String} (hmem : argument ∈ arguments)
    (hother : other ∈ arguments) (hsets : argument.Sets name value)
    (hsets' : other.Sets name value') : argument = other :=
  List.inj_on_of_nodup_map honce hmem hother (hsets.name?_eq.trans hsets'.name?_eq.symm)

namespace Rearranged

/-- The argument that counts still does. -/
theorem setting?_eq_some (hrearranged : first.Rearranged second) (hfits : first.Fits)
    {name value : String} (hname : name ≠ "path") (hsetting : first.setting? name = some value) :
    second.setting? name = some value := by
  have hscattered := hrearranged.toScattered
  rw [setting?_eq_some_iff (hscattered.fits hfits) hname, all_of_last hscattered.ending']
  have hafter := hfits.once.2
  rw [setting?_eq_some_iff hfits hname] at hsetting
  rw [all_of_last hscattered.ending] at hsetting hafter
  obtain ⟨argument, hmem, hsets⟩ | ⟨hnone, argument, hmem, hsets⟩ := hsetting
  · by_cases hstays : argument ∈ second.after.arguments
    · exact .inl ⟨argument, hstays, hsets⟩
    · have hmoved := ((hscattered.mem_iff _).mp (.inr hmem)).resolve_right hstays
      refine .inr ⟨?_, argument, hmoved, hsets⟩
      rintro value' ⟨other, hother, hsets'⟩
      obtain hother | hother' := (hscattered.mem_iff _).mpr (.inr hother)
      -- given on both sides, it would have stayed
      · refine hstays (hrearranged.counts argument hmem (List.mem_map.mpr ⟨other, hother, ?_⟩))
        rw [hsets.name?_eq, hsets'.name?_eq]
      · exact hstays (eq_of_sets hafter hmem hother' hsets hsets' ▸ hother)
  · by_cases hgiven : ∃ value' other, other ∈ second.after.arguments ∧ other.Sets name value'
    · obtain ⟨value', other, hother, hsets'⟩ := hgiven
      obtain hother' | hother' := (hscattered.mem_iff _).mpr (.inr hother)
      · exact .inl ⟨argument, eq_of_sets hfits.once.1 hmem hother' hsets hsets' ▸ hother, hsets⟩
      · exact absurd ⟨other, hother', hsets'⟩ (hnone value')
    · have hfree : argument ∉ second.after.arguments :=
        fun hmem => hgiven ⟨value, argument, hmem, hsets⟩
      exact .inr ⟨not_exists.mp hgiven, argument,
        ((hscattered.mem_iff _).mp (.inl hmem)).resolve_right hfree, hsets⟩

theorem setting?_eq (hrearranged : first.Rearranged second) (hfits : first.Fits) {name : String}
    (hname : name ≠ "path") : first.setting? name = second.setting? name := by
  have hscattered := hrearranged.toScattered
  cases hsetting : first.setting? name with
  | some value => rw [hrearranged.setting?_eq_some hfits hname hsetting]
  | none =>
      -- no argument gives the switch a value, wherever it stands
      have hexists := exists_setting?_iff hfits hname
      have hexists' := exists_setting?_iff (hscattered.fits hfits) hname
      simp only [all_of_last hscattered.ending, hscattered.mem_iff] at hexists
      rw [all_of_last hscattered.ending', ← hexists, hsetting] at hexists'
      exact (Option.eq_none_iff_forall_ne_some.mpr fun value hvalue =>
        absurd (hexists'.mp ⟨value, hvalue⟩) (by simp)).symm

theorem invocation_eq (hrearranged : first.Rearranged second) (hfits : first.Fits) :
    first.invocation = second.invocation := by
  have hformat := hrearranged.setting?_eq hfits (show "log-format" ≠ "path" by decide)
  have hlevel := hrearranged.setting?_eq hfits (show "log-level" ≠ "path" by decide)
  unfold setting? at hformat hlevel
  funext arguments
  simp only [invocation, Invocation.inForce, hformat, hlevel]

theorem parse_eq (hrearranged : first.Rearranged second) (hfits : first.Fits)
    (keysVariable : Option String) :
    Invocation.parse second.words keysVariable = Invocation.parse first.words keysVariable := by
  have hscattered := hrearranged.toScattered
  rw [parse_words hfits, parse_words (hscattered.fits hfits), hscattered.attachArguments_eq hfits,
    hrearranged.invocation_eq hfits]

end Rearranged

/-- The command is the same wherever its arguments stand. -/
theorem Scattered.command_eq (hscattered : first.Scattered second) (hfits : first.Fits)
    (keysVariable : Option String) :
    (Invocation.parse second.words keysVariable).map Invocation.command =
      (Invocation.parse first.words keysVariable).map Invocation.command := by
  rw [parse_words hfits, parse_words (hscattered.fits hfits), hscattered.attachArguments_eq hfits]
  cases Invocation.attachArguments second.givenAfter keysVariable <;> rfl

end AttachLine

/-- A session of the program ends with its input only if it has one. -/
theorem Terminal.stdin_of_stopAfterStdinEof (terminal : Terminal) {arguments : AttachArguments}
    (hflags : ¬ (arguments.noStdin = true ∧ arguments.stopAfterStdinEof = true)) (keys : Bytes)
    (stdin : List InputStep)
    (hstops : (terminal.config arguments keys stdin).stopAfterStdinEof = true) :
    (terminal.config arguments keys stdin).streams.stdin = some stdin :=
  if_neg fun hnone => hflags ⟨hnone, hstops⟩

open AttachLine in
/-- **What is accepted as a command line for `attach`.**  However the arguments stand, an input
that is not forwarded does not end the session, so a session that ends with its input has one.
The lines with both flags that have no other fault are refused for their conflict, and all
others are accepted, as they are given.  Their order does not matter on either side of the
command, nor does the side, unless another argument for a switch is the one that counts; and to
the command itself it never does. -/
theorem parse_attach (keysVariable : Option String) :
    (∀ words invocation arguments, Invocation.parse words keysVariable = .ok invocation →
      invocation.command = .attach arguments →
      ¬ (arguments.noStdin = true ∧ arguments.stopAfterStdinEof = true) ∧
      (∀ (terminal : Terminal) keys stdin,
        (terminal.config arguments keys stdin).stopAfterStdinEof = true →
          (terminal.config arguments keys stdin).streams.stdin = some stdin) ∧
      ∃ line : AttachLine, line.Fits ∧ line.words = words ∧
        ("--" ∉ words → line.after.ending = .last) ∧
        (arguments.noStdin = true ↔ .flag "no-stdin" ∈ line.after.arguments) ∧
        (arguments.stopAfterStdinEof = true ↔
          .flag "stop-after-stdin-eof" ∈ line.after.arguments)) ∧
    (∀ line : AttachLine, line.Fits →
      (line.Conflicts → Invocation.parse line.words keysVariable = .error .conflict) ∧
      (¬ line.Conflicts → ∃ invocation arguments,
        Invocation.parse line.words keysVariable = .ok invocation ∧
          invocation.command = .attach arguments)) ∧
    ∀ first second : AttachLine, first.Fits →
      (first.Reordered second →
        Invocation.parse second.words keysVariable = Invocation.parse first.words keysVariable) ∧
      (first.Rearranged second →
        Invocation.parse second.words keysVariable = Invocation.parse first.words keysVariable) ∧
      (first.Scattered second →
        (Invocation.parse second.words keysVariable).map Invocation.command =
          (Invocation.parse first.words keysVariable).map Invocation.command) := by
  refine ⟨?_, ?_, ?_⟩
  · intro words invocation arguments hparse hcommand
    obtain ⟨line, hfits, hwords, hattach⟩ := exists_of_parse hparse hcommand
    obtain ⟨hflags, hnoStdin, hstops, -⟩ := attachArguments_eq_ok hattach
    rw [← hnoStdin, ← hstops] at hflags
    refine ⟨hflags, fun terminal => terminal.stdin_of_stopAfterStdinEof hflags, line, hfits, hwords,
      fun hhyphens => ending_of_not_mem hfits (hwords ▸ hhyphens), ?_, ?_⟩
    · rw [hnoStdin, hasFlag_givenAfter]
    · rw [hstops, hasFlag_givenAfter]
  · intro line hfits
    rw [parse_words hfits]
    constructor
    · intro hconflicts
      rw [attachArguments_of_conflicts hconflicts]
      rfl
    · intro hconflicts
      obtain ⟨arguments, hattach⟩ := exists_attachArguments hfits hconflicts keysVariable
      rw [hattach]
      exact ⟨line.invocation arguments, arguments, rfl, rfl⟩
  · intro first second hfits
    exact ⟨fun hreordered => (hreordered.rearranged hfits).parse_eq hfits keysVariable,
      fun hrearranged => hrearranged.parse_eq hfits keysVariable,
      fun hscattered => hscattered.command_eq hfits keysVariable⟩

/-- The arguments of one line stand on both sides of the command and of the path, and those of
the second behind the command; the third has both flags, one on each side of the path. -/
theorem parse_attach_mixed :
    let first : AttachLine := ⟨[.joined "log-level" "debug"],
      ⟨[.flag "stop-after-stdin-eof", .operand "c/attach", .apart "id" "c"], .last⟩⟩
    let second : AttachLine := ⟨[],
      ⟨[.apart "id" "c", .joined "log-level" "debug", .flag "stop-after-stdin-eof",
        .operand "c/attach"], .last⟩⟩
    let third : AttachLine := ⟨[],
      ⟨[.flag "stop-after-stdin-eof", .operand "c/attach", .flag "no-stdin"], .last⟩⟩
    let arguments : AttachArguments :=
      { path := "c/attach", id := some "c", stopAfterStdinEof := true }
    first.Fits ∧ first.Rearranged second ∧
      Invocation.parse second.words none =
        .ok { command := .attach arguments, logLevel := .debug } ∧
      (({} : Terminal).config arguments [] []).streams.stdin = some [] ∧
      third.Fits ∧ third.Conflicts ∧ Invocation.parse third.words none = .error .conflict := by
  intro first second third arguments
  have hcommand (rest : List String) : (LineEnd.command "attach" rest).Fits programGrammar :=
    ⟨by decide, by decide⟩
  have hlevel : (Argument.joined "log-level" "debug").Accepted programGrammar :=
    ⟨none, .oneOf (LogLevel.named.map Prod.fst), by decide, rfl⟩
  have hid : (Argument.apart "id" "c").Accepted attachGrammar := ⟨none, .any, by decide, rfl⟩
  have hpath : (Argument.operand "c/attach").Accepted attachGrammar := ⟨_, rfl, by decide +kernel⟩
  have hstops : (Argument.flag "stop-after-stdin-eof").Accepted attachGrammar := ⟨none, by decide⟩
  have hnoStdin : (Argument.flag "no-stdin").Accepted attachGrammar := ⟨none, by decide⟩
  have hplain : IsPlain "c/attach" ∧ IsPlain "c" := by decide +kernel
  have hfirst : first.Fits :=
    ⟨⟨by simp [first, AttachLine.whole, hlevel],
        by simp [first, AttachLine.whole, Argument.Readable], hcommand _, by decide⟩,
      ⟨by simp [first, hstops, hpath, hid], by simp [first, Argument.Readable, hplain], trivial,
        by decide⟩,
      "c/attach", by decide⟩
  have hthird : third.Fits :=
    ⟨⟨by simp [third, AttachLine.whole], by simp [third, AttachLine.whole], hcommand _, by decide⟩,
      ⟨by simp [third, hstops, hpath, hnoStdin], by simp [third, Argument.Readable, hplain],
        trivial, by decide⟩,
      "c/attach", by decide⟩
  have hrearranged : first.Rearranged second :=
    ⟨⟨rfl, rfl, by decide, by simp [second], by decide, by decide⟩, by decide⟩
  have hconflicts : third.Conflicts := ⟨by decide, by decide⟩
  have hparse : Invocation.parse first.words none =
      .ok { command := .attach arguments, logLevel := .debug } := by decide +kernel
  obtain ⟨haccepted, hlines, horder⟩ := parse_attach none
  obtain ⟨-, hsession, -⟩ := haccepted first.words _ arguments hparse rfl
  exact ⟨hfirst, hrearranged, ((horder first second hfirst).2.1 hrearranged).trans hparse,
    hsession {} [] [] rfl, hthird, hconflicts, (hlines third hthird).1 hconflicts⟩

end ContainerAttach.CommandLine
