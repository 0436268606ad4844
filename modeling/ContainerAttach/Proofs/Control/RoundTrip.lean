import ContainerAttach.Proofs.Control.Arrangement

/-!
# Requests survive JSON

A request is printed as an object whose entries are its parts, so decoding what was printed
gives the request back, and different requests have different texts.  A text is a single
line, whatever the strings in the request are, and an announcement has an entry for the
exec session only if there is one.
-/

namespace ContainerAttach

open Json

/-! ## Printed texts -/

namespace Json

theorem noControl_printInt (value : Int) : NoControl (printInt value) := by
  have hdigits : NoControl (printNat value.natAbs) := by
    intro c hmem
    have hdigit := isDigit_of_mem_printNat hmem
    rw [Char.isDigit_iff_toNat] at hdigit
    exact Nat.le_trans (by decide) hdigit.1
  rw [printInt]
  split
  · exact List.forall_mem_cons.mpr ⟨by decide, hdigits⟩
  · exact hdigits

theorem noControl_print (value : Scalar) : NoControl value.print := by
  unfold Scalar.print
  split
  case h_4 value => exact noControl_printInt value
  case h_5 value => exact noControl_printText value
  all_goals simp [NoControl]

theorem noControl_printMembers (entries : List Json.Entry) :
    NoControl (printMembers (entries.map Json.Entry.toMember)) := by
  induction entries with
  | nil => exact nofun
  | cons entry entries ih =>
      have hentry : NoControl entry.toMember.print :=
        (noControl_printText entry.name).append
          (List.forall_mem_cons.mpr ⟨by decide, noControl_print entry.value⟩)
      cases entries with
      | nil => exact hentry
      | cons next entries => exact hentry.append (List.forall_mem_cons.mpr ⟨by decide, ih⟩)

/-- What is printed is a single line. -/
theorem noControl_printObject (entries : List Json.Entry) :
    NoControl (printObject (entries.map Json.Entry.toMember)) := by
  have hclosed : NoControl ['\x7d'] := by simp [NoControl]
  exact List.forall_mem_cons.mpr
    ⟨by decide, (noControl_printMembers entries).append hclosed⟩

/-! ## Names -/

/-- Lists the name of a member and passes over its value. -/
def listMember (names : List String) : Reader (List String) := fun text =>
  match readText text with
  | .error error => .error error
  | .ok (name, rest) => passOther (names ++ [name]) rest

theorem takes_listMember :
    TakesEntries listMember fun names entry => .ok (names ++ [entry.name]) := by
  refine takes_of_named _ (fun names text => rfl) ?_
  intro names entry before after valueText rest hbefore hafter hspelled hends
  exact passOther_spelled _ hbefore hafter hspelled hends

theorem foldlM_names (entries : List Json.Entry) (names : List String) :
    entries.foldlM (fun names entry => .ok (names ++ [entry.name])) names =
      (.ok (names ++ entries.map Json.Entry.name) : Except ReadError (List String)) := by
  induction entries generalizing names with
  | nil => simp [pure, Except.pure]
  | cons entry entries ih => simp [List.foldlM_cons, bind, Except.bind, ih]

/-- A text is not an object in two ways: the names in it are what they are. -/
theorem names_unique {entries entries' : List Json.Entry} {text : List Char}
    (hspelled : ObjectSpelled entries text) (hspelled' : ObjectSpelled entries' text) :
    entries.map Json.Entry.name = entries'.map Json.Entry.name := by
  -- one reader lists the names, and it sees only the text
  obtain ⟨body, after, hskip, -, hread⟩ := objectMembers_spelled takes_listMember hspelled []
  obtain ⟨body', after', hskip', -, hread'⟩ := objectMembers_spelled takes_listMember hspelled' []
  obtain rfl : body = body' := (List.cons.inj (hskip.symm.trans hskip')).2
  rw [hread, foldlM_names, foldlM_names] at hread'
  exact (Prod.mk.inj (Except.ok.inj hread')).1

end Json

/-! ## Printing and decoding -/

/-- What printing the values of a type and decoding them again is like. -/
structure Faithful {α : Type} (toJson : α → String) (ofJson : String → Except ReadError α) :
    Prop where
  /-- A printed value is decoded to itself. -/
  decoded (value : α) : ofJson (toJson value) = .ok value
  /-- Different values have different texts. -/
  distinct {first second : α} (hne : first ≠ second) : toJson first ≠ toJson second
  /-- There is no control character in a text. -/
  noControl (value : α) : NoControl (toJson value).toList

theorem Faithful.of_entries {α : Type} {toJson : α → String}
    {ofJson : String → Except ReadError α} {entriesOf : α → List Json.Entry}
    (htext : ∀ value,
      (toJson value).toList = printObject ((entriesOf value).map Json.Entry.toMember))
    (hdecoded : ∀ value text, ObjectSpelled (entriesOf value) (String.toList text) →
      ofJson text = .ok value) :
    Faithful toJson ofJson := by
  have hreads (value : α) : ofJson (toJson value) = .ok value := by
    refine hdecoded value _ ?_
    rw [htext]
    exact objectSpelled_printObject (entriesOf value)
  refine ⟨hreads, ?_, ?_⟩
  · intro first second hne heq
    have hfirst := hreads first
    rw [heq, hreads second] at hfirst
    exact hne (Except.ok.inj hfirst).symm
  · intro value
    rw [htext]
    exact noControl_printObject (entriesOf value)

theorem foreign_nil (names : List String) : Foreign names [] :=
  nofun

namespace TerminalSize

theorem toList_toJson (size : TerminalSize) :
    size.toJson.toList = printObject (size.entries.map Json.Entry.toMember) := by
  simp [toJson, print, members, entries, Json.Entry.toMember, Scalar.print, printInt_natCast]

theorem faithful : Faithful toJson ofJson := by
  refine .of_entries toList_toJson fun size text hspelled => ?_
  exact ofJson_of_perm hspelled (foreign_nil _) (.of_eq (List.append_nil _).symm)

end TerminalSize

namespace WindowSizeRequest

theorem toList_toJson (request : WindowSizeRequest) :
    request.toJson.toList = printObject (request.entries.map Json.Entry.toMember) := by
  simp [toJson, print, members, entries, TerminalSize.members, TerminalSize.entries,
    Json.Entry.toMember, Scalar.print, printInt_natCast]

theorem faithful : Faithful toJson ofJson := by
  refine .of_entries toList_toJson fun request text hspelled => ?_
  exact ofJson_of_perm hspelled (foreign_nil _) (.of_eq (List.append_nil _).symm) nofun

end WindowSizeRequest

namespace AttachRequest

/-- The entries of an announcement; a missing exec session is left out. -/
def entries (request : AttachRequest) : List Json.Entry :=
  request.entriesWith
    (request.execSession.map fun session => ⟨"exec_session", .text session⟩).toList

theorem toList_toJson (request : AttachRequest) :
    request.toJson.toList = printObject (request.entries.map Json.Entry.toMember) := by
  obtain ⟨id, path, session⟩ := request
  cases session with
  | none => simp [toJson, print, members, entries, entriesWith, Json.Entry.toMember, Scalar.print]
  | some session =>
      simp [toJson, print, members, entries, entriesWith, Json.Entry.toMember, Scalar.print]

theorem faithful : Faithful toJson ofJson := by
  refine .of_entries toList_toJson fun request text hspelled => ?_
  obtain ⟨id, path, session⟩ := request
  refine ofJson_of_perm hspelled ?_ (foreign_nil _) (.of_eq (List.append_nil _).symm)
  cases session with
  | none => exact .inr ⟨rfl, rfl⟩
  | some session => exact .inl rfl

theorem mem_names_entries (request : AttachRequest) :
    "exec_session" ∈ request.entries.map Json.Entry.name ↔
      request.execSession.isSome = true := by
  obtain ⟨id, path, session⟩ := request
  cases session with
  | none => simp [entries, entriesWith]
  | some session => simp [entries, entriesWith]

end AttachRequest

/-- Requests survive JSON, each as a single line.  The text of an announcement is an object, and
however it is taken apart it has a member for the exec session just if there is one. -/
theorem requests_survive_json :
    Faithful TerminalSize.toJson TerminalSize.ofJson ∧
      Faithful WindowSizeRequest.toJson WindowSizeRequest.ofJson ∧
      Faithful AttachRequest.toJson AttachRequest.ofJson ∧
      ∀ request : AttachRequest,
        (∃ given, ObjectSpelled given request.toJson.toList) ∧
          ∀ given, ObjectSpelled given request.toJson.toList →
            ("exec_session" ∈ given.map Json.Entry.name ↔
              request.execSession.isSome = true) := by
  refine ⟨TerminalSize.faithful, WindowSizeRequest.faithful, AttachRequest.faithful,
    fun request => ?_⟩
  have hspelled : ObjectSpelled request.entries request.toJson.toList := by
    rw [request.toList_toJson]
    exact objectSpelled_printObject request.entries
  refine ⟨⟨_, hspelled⟩, fun given hgiven => ?_⟩
  rw [names_unique hgiven hspelled]
  exact request.mem_names_entries

example : AttachRequest.toJson ⟨"a\"b", "/run/\n", none⟩ =
    "\x7b\"id\":\"a\\\"b\",\"socket_path\":\"/run/\\n\"\x7d" := by decide

end ContainerAttach
