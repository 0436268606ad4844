import ContainerAttach.Proofs.Control.Parts

/-!
# Requests as lists of entries

What a text is decoded to depends on its entries only, and of these on the values that each
name has: `TerminalSize.ofJson_eq_ok_iff`, `AttachRequest.ofJson_eq_ok_iff` and
`WindowSizeRequest.ofJson_eq_ok_iff` say which values have to be there.

A request to resize takes two passes.  The second one sees what the first has collected,
and takes of it what would be taken if only the size was wanted (`foldlM_collect_eq`).  The
passes differ in one thing from decoding a size at once: what is collected has to be told,
and for an integer that is too large for a floating-point number this is not possible.
-/

namespace ContainerAttach

open Json

/-! ## The size of a terminal -/

namespace TerminalSize

/-- Takes an entry into a size. -/
def Partial.take (parts : Partial) (entry : Json.Entry) : Except ReadError Partial :=
  (takePart "width" Scalar.toUInt16 parts.width entry).bind fun width =>
    (takePart "height" Scalar.toUInt16 parts.height entry).map fun height => ⟨width, height⟩

theorem takes_readMember : TakesEntries readMember Partial.take := by
  refine takes_of_named _ (fun parts text => rfl) ?_
  intro parts entry before after valueText rest hbefore hafter hspelled hends
  have hread := readUInt16_spelled hafter hspelled hends
  rw [Partial.take]
  split
  · next hname =>
      have hother : entry.name ≠ "height" := by
        rw [hname]
        decide
      rw [takePart_of_eq hname, takePart_of_ne hother, hname]
      exact readOnce_spelled _ _ (fun width => { parts with width := width }) hbefore hread
  · next hwidth =>
      rw [takePart_of_ne hwidth]
      split
      · next hname =>
          rw [takePart_of_eq hname, hname]
          exact readOnce_spelled _ _ (fun height => { parts with height := height }) hbefore hread
      · next hheight =>
          rw [passOther_spelled parts hbefore hafter hspelled hends, takePart_of_ne hheight]
          rfl

theorem Partial.take_of_ne {parts : Partial} {entry : Json.Entry} (hwidth : entry.name ≠ "width")
    (hheight : entry.name ≠ "height") : parts.take entry = .ok parts := by
  rw [take, takePart_of_ne hwidth, takePart_of_ne hheight]
  rfl

theorem readObject_eq (text : List Char) : readObject text =
    (objectMembers readMember {} text).bind fun read =>
      read.1.complete.map fun size => (size, read.2) := by
  rw [readObject]
  cases objectMembers readMember {} text with
  | ok read => rfl
  | error error => rfl

theorem ofJson_spelled {entries : List Json.Entry} {text : String}
    (hspelled : ObjectSpelled entries text.toList) :
    ofJson text = (entries.foldlM Partial.take {}).bind Partial.complete :=
  readAll_readRecord_spelled takes_readMember {} Partial.complete readObject readObject_eq _ _
    hspelled

/-- Each part looks at its own name. -/
theorem Partial.take_eq_ok_iff {parts parts' : Partial} {entry : Json.Entry} :
    parts.take entry = .ok parts' ↔
      takePart "width" Scalar.toUInt16 parts.width entry = .ok parts'.width ∧
        takePart "height" Scalar.toUInt16 parts.height entry = .ok parts'.height := by
  obtain ⟨width', height'⟩ := parts'
  simp [Partial.take, bind_eq_ok_iff, map_eq_ok_iff]

theorem foldlM_take_eq_ok_iff {entries : List Json.Entry} {parts parts' : Partial} :
    entries.foldlM Partial.take parts = .ok parts' ↔
      entries.foldlM (takePart "width" Scalar.toUInt16) parts.width = .ok parts'.width ∧
        entries.foldlM (takePart "height" Scalar.toUInt16) parts.height = .ok parts'.height := by
  induction entries generalizing parts with
  | nil =>
      obtain ⟨width, height⟩ := parts
      obtain ⟨width', height'⟩ := parts'
      simp only [foldlM_nil_eq_ok_iff, Partial.mk.injEq]
  | cons entry entries ih =>
      simp only [foldlM_cons_eq_ok_iff, Partial.take_eq_ok_iff, ih]
      constructor
      · rintro ⟨next, ⟨hwidth, hheight⟩, hwidths, hheights⟩
        exact ⟨⟨_, hwidth, hwidths⟩, _, hheight, hheights⟩
      · rintro ⟨⟨width, hwidth, hwidths⟩, height, hheight, hheights⟩
        exact ⟨⟨width, height⟩, ⟨hwidth, hheight⟩, hwidths, hheights⟩

theorem Partial.complete_eq_ok_iff {parts : Partial} {size : TerminalSize} :
    parts.complete = .ok size ↔
      parts.width = some size.width ∧ parts.height = some size.height := by
  obtain ⟨width, height⟩ := parts
  obtain ⟨width', height'⟩ := size
  cases width with
  | none => simp [Partial.complete, required]
  | some width =>
      cases height with
      | none => simp [Partial.complete, required]
      | some height => simp [Partial.complete, required]

/-- A size is decoded from the only value under each of its names. -/
theorem ofJson_eq_ok_iff {entries : List Json.Entry} {text : String}
    (hspelled : ObjectSpelled entries text.toList) {size : TerminalSize} :
    ofJson text = .ok size ↔
      valuesOf "width" entries = [.integer size.width.toNat] ∧
        valuesOf "height" entries = [.integer size.height.toNat] := by
  rw [ofJson_spelled hspelled, bind_eq_ok_iff, ← foldlM_size_eq_some, ← foldlM_size_eq_some]
  simp only [foldlM_take_eq_ok_iff, Partial.complete_eq_ok_iff]
  constructor
  · rintro ⟨parts, ⟨hwidth, hheight⟩, hsomeWidth, hsomeHeight⟩
    exact ⟨hsomeWidth ▸ hwidth, hsomeHeight ▸ hheight⟩
  · rintro ⟨hwidth, hheight⟩
    exact ⟨⟨_, _⟩, ⟨hwidth, hheight⟩, rfl, rfl⟩

end TerminalSize

/-! ## Announcements -/

namespace AttachRequest

/-- Takes an entry into an announcement. -/
def Partial.take (parts : Partial) (entry : Json.Entry) : Except ReadError Partial :=
  (takePart "id" (Scalar.toText "a string") parts.id entry).bind fun id =>
    (takePart "socket_path" (Scalar.toText "path string") parts.socketPath entry).bind fun path =>
      (takePart "exec_session" Scalar.toOption parts.execSession entry).map fun session =>
        ⟨id, path, session⟩

theorem takes_readMember : TakesEntries readMember Partial.take := by
  refine takes_of_named _ (fun parts text => rfl) ?_
  intro parts entry before after valueText rest hbefore hafter hspelled hends
  rw [Partial.take]
  split
  · next hname =>
      have hothers : entry.name ≠ "socket_path" ∧ entry.name ≠ "exec_session" := by
        rw [hname]
        decide
      have hread := readString_spelled "a string" hafter hspelled hends
      -- the other parts do not look at this entry
      rw [takePart_of_eq hname, takePart_of_ne hothers.1, takePart_of_ne hothers.2, hname]
      exact readOnce_spelled _ _ (fun id => { parts with id := id }) hbefore hread
  · next hid =>
      rw [takePart_of_ne hid]
      split
      · next hname =>
          have hother : entry.name ≠ "exec_session" := by
            rw [hname]
            decide
          have hread := readString_spelled "path string" hafter hspelled hends
          rw [takePart_of_eq hname, takePart_of_ne hother, hname]
          exact readOnce_spelled _ _ (fun path => { parts with socketPath := path }) hbefore hread
      · next hpath =>
          rw [takePart_of_ne hpath]
          split
          · next hname =>
              have hread := readOption_spelled hafter hspelled hends
              rw [takePart_of_eq hname, hname]
              exact readOnce_spelled _ _ (fun session => { parts with execSession := session })
                hbefore hread
          · next hsession =>
              rw [passOther_spelled parts hbefore hafter hspelled hends,
                takePart_of_ne hsession]
              rfl

theorem readObject_eq (text : List Char) : readObject text =
    (objectMembers readMember {} text).bind fun read =>
      read.1.complete.map fun request => (request, read.2) := by
  rw [readObject]
  cases objectMembers readMember {} text with
  | ok read => rfl
  | error error => rfl

theorem ofJson_spelled {entries : List Json.Entry} {text : String}
    (hspelled : ObjectSpelled entries text.toList) :
    ofJson text = (entries.foldlM Partial.take {}).bind Partial.complete :=
  readAll_readRecord_spelled takes_readMember {} Partial.complete readObject readObject_eq _ _
    hspelled

theorem Partial.take_eq_ok_iff {parts parts' : Partial} {entry : Json.Entry} :
    parts.take entry = .ok parts' ↔
      takePart "id" (Scalar.toText "a string") parts.id entry = .ok parts'.id ∧
        takePart "socket_path" (Scalar.toText "path string") parts.socketPath entry =
          .ok parts'.socketPath ∧
        takePart "exec_session" Scalar.toOption parts.execSession entry =
          .ok parts'.execSession := by
  simp only [Partial.take, bind_eq_ok_iff, map_eq_ok_iff]
  constructor
  · rintro ⟨id, hid, path, hpath, session, hsession, rfl⟩
    exact ⟨hid, hpath, hsession⟩
  · rintro ⟨hid, hpath, hsession⟩
    exact ⟨_, hid, _, hpath, _, hsession, rfl⟩

theorem foldlM_take_eq_ok_iff {entries : List Json.Entry} {parts parts' : Partial} :
    entries.foldlM Partial.take parts = .ok parts' ↔
      entries.foldlM (takePart "id" (Scalar.toText "a string")) parts.id = .ok parts'.id ∧
        entries.foldlM (takePart "socket_path" (Scalar.toText "path string")) parts.socketPath =
          .ok parts'.socketPath ∧
        entries.foldlM (takePart "exec_session" Scalar.toOption) parts.execSession =
          .ok parts'.execSession := by
  induction entries generalizing parts with
  | nil =>
      obtain ⟨id, path, session⟩ := parts
      obtain ⟨id', path', session'⟩ := parts'
      simp only [foldlM_nil_eq_ok_iff, Partial.mk.injEq]
  | cons entry entries ih =>
      simp only [foldlM_cons_eq_ok_iff, Partial.take_eq_ok_iff, ih]
      constructor
      · rintro ⟨next, ⟨hid, hpath, hsession⟩, hids, hpaths, hsessions⟩
        exact ⟨⟨_, hid, hids⟩, ⟨_, hpath, hpaths⟩, _, hsession, hsessions⟩
      · rintro ⟨⟨id, hid, hids⟩, ⟨path, hpath, hpaths⟩, session, hsession, hsessions⟩
        exact ⟨⟨id, path, session⟩, ⟨hid, hpath, hsession⟩, hids, hpaths, hsessions⟩

theorem Partial.complete_eq_ok_iff {parts : Partial} {request : AttachRequest} :
    parts.complete = .ok request ↔ parts.id = some request.id ∧
      parts.socketPath = some request.socketPath ∧
        parts.execSession.getD none = request.execSession := by
  obtain ⟨id, path, session⟩ := parts
  obtain ⟨id', path', session'⟩ := request
  cases id with
  | none => simp [Partial.complete, required]
  | some id =>
      cases path with
      | none => simp [Partial.complete, required]
      | some path => simp [Partial.complete, required]

/-- An announcement is decoded from the only value under each of its names, of which the last
one may be missing. -/
theorem ofJson_eq_ok_iff {entries : List Json.Entry} {text : String}
    (hspelled : ObjectSpelled entries text.toList) {request : AttachRequest} :
    ofJson text = .ok request ↔
      valuesOf "id" entries = [.text request.id] ∧
        valuesOf "socket_path" entries = [.text request.socketPath] ∧
        GivesOption (valuesOf "exec_session" entries) request.execSession := by
  rw [ofJson_spelled hspelled, bind_eq_ok_iff]
  simp only [foldlM_take_eq_ok_iff, Partial.complete_eq_ok_iff]
  constructor
  · rintro ⟨parts, ⟨hid, hpath, hsession⟩, hsomeId, hsomePath, hgiven⟩
    exact ⟨foldlM_text_eq_some.mp (hsomeId ▸ hid), foldlM_text_eq_some.mp (hsomePath ▸ hpath),
      foldlM_toOption_iff.mp ⟨_, hsession, hgiven⟩⟩
  · rintro ⟨hid, hpath, hsession⟩
    obtain ⟨given, hgiven, hsession⟩ := foldlM_toOption_iff.mpr hsession
    exact ⟨⟨_, _, given⟩, ⟨foldlM_text_eq_some.mpr hid, foldlM_text_eq_some.mpr hpath, hgiven⟩,
      rfl, rfl, hsession⟩

end AttachRequest

/-! ## Requests to resize -/

namespace WindowSizeRequest

/-- Collects an entry that is not the identifier. -/
def takeOther (others : List (String × Found)) (entry : Json.Entry) :
    Except ReadError (List (String × Found)) :=
  if entry.name = "id" then .ok others
  else entry.value.found.map fun found => others ++ [(entry.name, found)]

/-- Takes an entry into a request. -/
def Partial.take (parts : Partial) (entry : Json.Entry) : Except ReadError Partial :=
  (takePart "id" (Scalar.toText "a string") parts.id entry).bind fun id =>
    (takeOther parts.others entry).map fun others => ⟨id, others⟩

theorem takes_readMember : TakesEntries readMember Partial.take := by
  refine takes_of_named _ (fun parts text => rfl) ?_
  intro parts entry before after valueText rest hbefore hafter hspelled hends
  rw [Partial.take, takeOther]
  split
  · next hname =>
      have hread := readString_spelled "a string" hafter hspelled hends
      rw [takePart_of_eq hname, hname]
      exact readOnce_spelled _ _ (fun id => { parts with id := id }) hbefore hread
  · next hname =>
      rw [afterColon_blank hbefore, takePart_of_ne hname]
      simp only [readFound_spelled hafter hspelled hends]
      cases entry.value.found with
      | ok found => rfl
      | error error => rfl

theorem readObject_eq (text : List Char) : readObject text =
    (objectMembers readMember {} text).bind fun read =>
      read.1.complete.map fun request => (request, read.2) := by
  rw [readObject]
  cases objectMembers readMember {} text with
  | ok read => rfl
  | error error => rfl

theorem ofJson_spelled {entries : List Json.Entry} {text : String}
    (hspelled : ObjectSpelled entries text.toList) :
    ofJson text = (entries.foldlM Partial.take {}).bind Partial.complete :=
  readAll_readRecord_spelled takes_readMember {} Partial.complete readObject readObject_eq _ _
    hspelled

theorem Partial.take_eq_ok_iff {parts parts' : Partial} {entry : Json.Entry} :
    parts.take entry = .ok parts' ↔
      takePart "id" (Scalar.toText "a string") parts.id entry = .ok parts'.id ∧
        takeOther parts.others entry = .ok parts'.others := by
  obtain ⟨id', others'⟩ := parts'
  simp [Partial.take, bind_eq_ok_iff, map_eq_ok_iff]

theorem foldlM_take_eq_ok_iff {entries : List Json.Entry} {parts parts' : Partial} :
    entries.foldlM Partial.take parts = .ok parts' ↔
      entries.foldlM (takePart "id" (Scalar.toText "a string")) parts.id = .ok parts'.id ∧
        entries.foldlM takeOther parts.others = .ok parts'.others := by
  induction entries generalizing parts with
  | nil =>
      obtain ⟨id, others⟩ := parts
      obtain ⟨id', others'⟩ := parts'
      simp only [foldlM_nil_eq_ok_iff, Partial.mk.injEq]
  | cons entry entries ih =>
      simp only [foldlM_cons_eq_ok_iff, Partial.take_eq_ok_iff, ih]
      constructor
      · rintro ⟨next, ⟨hid, hother⟩, hids, hothers⟩
        exact ⟨⟨_, hid, hids⟩, _, hother, hothers⟩
      · rintro ⟨⟨id, hid, hids⟩, others, hother, hothers⟩
        exact ⟨⟨id, others⟩, ⟨hid, hother⟩, hids, hothers⟩

/-- What is collected can be told for every entry but the identifier. -/
theorem exists_takeOther_iff {entries : List Json.Entry} (others : List (String × Found)) :
    (∃ others', entries.foldlM takeOther others = .ok others') ↔
      ∀ entry ∈ entries, entry.name ≠ "id" → entry.value.Readable := by
  induction entries generalizing others with
  | nil => exact iff_of_true ⟨others, rfl⟩ (by simp)
  | cons entry entries ih =>
      simp only [foldlM_cons_eq_ok_iff, List.forall_mem_cons, takeOther]
      by_cases hname : entry.name = "id"
      · simp [hname, ih]
      · simp only [if_neg hname, map_eq_ok_iff]
        constructor
        · rintro ⟨others', next, ⟨found, hfound, rfl⟩, hrest⟩
          exact ⟨fun _ => ⟨found, hfound⟩, (ih _).mp ⟨others', hrest⟩⟩
        · rintro ⟨hentry, hrest⟩
          obtain ⟨found, hfound⟩ := hentry hname
          obtain ⟨others', hothers⟩ := (ih _).mpr hrest
          exact ⟨others', _, ⟨found, hfound, rfl⟩, hothers⟩

theorem collect_eq_take {entry : Json.Entry} {found : Found}
    (hfound : entry.value.found = .ok found) (parts : TerminalSize.Partial) :
    collect parts (entry.name, found) = parts.take entry := by
  have hsize : entry.value.toUInt16 = found.toUInt16 := by
    rw [Scalar.toUInt16, hfound]
    rfl
  rw [TerminalSize.Partial.take, collect]
  split
  · next hname =>
      have hother : entry.name ≠ "height" := by
        rw [hname]
        decide
      rw [takePart_of_eq hname, takePart_of_ne hother, takeOnce, hsize, hname]
      split
      · rfl
      · cases found.toUInt16 with
        | ok width => rfl
        | error error => rfl
  · next hwidth =>
      rw [takePart_of_ne hwidth]
      split
      · next hname =>
          rw [takePart_of_eq hname, takeOnce, hsize, hname]
          split
          · rfl
          · cases found.toUInt16 with
            | ok height => rfl
            | error error => rfl
      · next hheight =>
          rw [takePart_of_ne hheight]
          rfl

/-- The second pass takes what would be taken if only the size was wanted. -/
theorem foldlM_collect_eq {entries : List Json.Entry} {others others' : List (String × Found)}
    (hothers : entries.foldlM takeOther others = .ok others') (parts : TerminalSize.Partial) :
    others'.foldlM collect parts =
      (others.foldlM collect parts).bind (entries.foldlM TerminalSize.Partial.take) := by
  induction entries generalizing others with
  | nil =>
      obtain rfl := foldlM_nil_eq_ok_iff.mp hothers
      cases others'.foldlM collect parts with
      | ok parts => rfl
      | error error => rfl
  | cons entry entries ih =>
      obtain ⟨next, hnext, hrest⟩ := foldlM_cons_eq_ok_iff.mp hothers
      -- the entry was collected behind the others, so the second pass takes it next
      rw [ih hrest]
      rw [takeOther] at hnext
      split at hnext
      · next hname =>
          have hskip (parts : TerminalSize.Partial) : parts.take entry = .ok parts :=
            TerminalSize.Partial.take_of_ne (by simp [hname]) (by simp [hname])
          obtain rfl := Except.ok.inj hnext
          cases others.foldlM collect parts with
          | ok parts =>
              show entries.foldlM _ parts = (parts.take entry).bind _
              rw [hskip]
              rfl
          | error error => rfl
      · obtain ⟨found, hfound, rfl⟩ := map_eq_ok_iff.mp hnext
        rw [List.foldlM_append]
        cases others.foldlM collect parts with
        | ok parts =>
            show ((collect parts _).bind .ok).bind _ = (parts.take entry).bind _
            rw [collect_eq_take hfound]
            cases parts.take entry with
            | ok parts => rfl
            | error error => rfl
        | error error => rfl

theorem sizeOf_eq (others : List (String × Found)) :
    sizeOf others = (others.foldlM collect {}).bind TerminalSize.Partial.complete := by
  rw [sizeOf]
  cases others.foldlM collect {} with
  | ok parts => rfl
  | error error => rfl

theorem Partial.complete_eq_ok_iff {parts : Partial} {request : WindowSizeRequest} :
    parts.complete = .ok request ↔
      parts.id = some request.id ∧ sizeOf parts.others = .ok request.size := by
  obtain ⟨id, others⟩ := parts
  obtain ⟨id', size⟩ := request
  cases id with
  | none => simp [Partial.complete, required]
  | some id =>
      simp only [Partial.complete, required, map_eq_ok_iff, Option.some.injEq]
      constructor
      · rintro ⟨size, hsize, heq⟩
        cases heq
        exact ⟨rfl, hsize⟩
      · rintro ⟨rfl, hsize⟩
        exact ⟨size, hsize, rfl⟩

/-- A request to resize is decoded from the only value of its identifier and the size that is
decoded at once, if everything else can be told as well. -/
theorem ofJson_eq_ok_iff {entries : List Json.Entry} {text : String}
    (hspelled : ObjectSpelled entries text.toList) {request : WindowSizeRequest} :
    ofJson text = .ok request ↔
      valuesOf "id" entries = [.text request.id] ∧
        (∀ entry ∈ entries, entry.name ≠ "id" → entry.value.Readable) ∧
        TerminalSize.ofJson text = .ok request.size := by
  -- whatever the first pass has collected, the second one finds the size in it
  have hsize {others : List (String × Found)} (hothers : entries.foldlM takeOther [] = .ok others) :
      sizeOf others = TerminalSize.ofJson text := by
    rw [sizeOf_eq, TerminalSize.ofJson_spelled hspelled, foldlM_collect_eq hothers]
    rfl
  rw [ofJson_spelled hspelled, bind_eq_ok_iff, ← exists_takeOther_iff []]
  simp only [foldlM_take_eq_ok_iff, Partial.complete_eq_ok_iff]
  constructor
  · rintro ⟨parts, ⟨hid, hothers⟩, hsome, hcomplete⟩
    exact ⟨foldlM_text_eq_some.mp (hsome ▸ hid), ⟨_, hothers⟩, hsize hothers ▸ hcomplete⟩
  · rintro ⟨hid, ⟨others, hothers⟩, hcomplete⟩
    exact ⟨⟨_, others⟩, ⟨foldlM_text_eq_some.mpr hid, hothers⟩, rfl,
      (hsize hothers).trans hcomplete⟩

end WindowSizeRequest

end ContainerAttach
