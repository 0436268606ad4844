import ContainerAttach.Proofs.Control.Reading

/-!
# Requests in any arrangement

The members of a request may come in any order, and members of other names may stand
anywhere between them: the request that is decoded is the same.  A member that is needed
and not there is not made up, and an integer that is no size is not turned into one.

A request to resize asks more of foreign members than the others do.  They are collected
with the size, so what they are has to be told, and of an integer too large for a
floating-point number it cannot be.
-/

namespace ContainerAttach

open Json

namespace Json

/-! ## Values under a name -/

theorem valuesOf_append (name : String) (first second : List Json.Entry) :
    valuesOf name (first ++ second) = valuesOf name first ++ valuesOf name second := by
  simp [valuesOf]

theorem valuesOf_eq_nil_iff {name : String} {entries : List Json.Entry} :
    valuesOf name entries = [] ↔ ∀ entry ∈ entries, entry.name ≠ name := by
  simp [valuesOf]

theorem mem_valuesOf {name : String} {value : Scalar} {entries : List Json.Entry}
    (hmem : ⟨name, value⟩ ∈ entries) : value ∈ valuesOf name entries := by
  simpa [valuesOf] using ⟨⟨name, value⟩, ⟨hmem, rfl⟩, rfl⟩

/-- The entries have none of the names. -/
def Foreign (names : List String) (entries : List Json.Entry) : Prop :=
  ∀ entry ∈ entries, entry.name ∉ names

instance (names : List String) (entries : List Json.Entry) : Decidable (Foreign names entries) :=
  inferInstanceAs (Decidable (∀ entry ∈ entries, entry.name ∉ names))

/-- Neither the order nor foreign entries change the values under a name. -/
theorem Foreign.valuesOf_perm {names : List String} {foreign own given : List Json.Entry}
    (hforeign : Foreign names foreign) (hperm : given.Perm (own ++ foreign)) {name : String}
    (hname : name ∈ names) : (valuesOf name given).Perm (valuesOf name own) := by
  have hnone : valuesOf name foreign = [] := by
    rw [valuesOf_eq_nil_iff]
    rintro entry hmem rfl
    exact hforeign entry hmem hname
  have hvalues : (valuesOf name given).Perm (valuesOf name (own ++ foreign)) :=
    (hperm.filter _).map Json.Entry.value
  rwa [valuesOf_append, hnone, List.append_nil] at hvalues

/-! ## Failures -/

/-- Nothing is decoded. -/
def Fails {α : Type} (result : Except ReadError α) : Prop :=
  ∃ error, result = .error error

theorem fails_of_ne_ok {α : Type} {result : Except ReadError α}
    (hne : ∀ value, result ≠ .ok value) : Fails result := by
  cases result with
  | ok value => exact absurd rfl (hne value)
  | error error => exact ⟨error, rfl⟩

end Json

/-! ## The size of a terminal -/

namespace TerminalSize

/-- The entries of a size. -/
def entries (size : TerminalSize) : List Json.Entry :=
  [⟨"width", .integer size.width.toNat⟩, ⟨"height", .integer size.height.toNat⟩]

variable {given : List Json.Entry} {text : String}

theorem ofJson_of_perm (hspelled : ObjectSpelled given text.toList) {size : TerminalSize}
    {foreign : List Json.Entry} (hforeign : Foreign ["width", "height"] foreign)
    (hperm : given.Perm (size.entries ++ foreign)) : ofJson text = .ok size := by
  have hwidth := hforeign.valuesOf_perm hperm (List.mem_cons_self)
  have hheight := hforeign.valuesOf_perm hperm (List.mem_cons_of_mem _ List.mem_cons_self)
  rw [ofJson_eq_ok_iff hspelled]
  exact ⟨List.perm_singleton.mp hwidth, List.perm_singleton.mp hheight⟩

theorem fails_of_missing (hspelled : ObjectSpelled given text.toList) {name : String}
    (hname : name = "width" ∨ name = "height") (hmissing : ∀ entry ∈ given, entry.name ≠ name) :
    Fails (ofJson text) := by
  refine fails_of_ne_ok fun size hsize => ?_
  obtain ⟨hwidth, hheight⟩ := (ofJson_eq_ok_iff hspelled).mp hsize
  have hnone := valuesOf_eq_nil_iff.mpr hmissing
  obtain rfl | rfl := hname
  · exact List.cons_ne_nil _ _ (hwidth.symm.trans hnone)
  · exact List.cons_ne_nil _ _ (hheight.symm.trans hnone)

/-- An integer that is no size is not cut down to one. -/
theorem fails_of_out_of_range (hspelled : ObjectSpelled given text.toList) {name : String}
    (hname : name = "width" ∨ name = "height") {n : Int} (hrange : n < 0 ∨ 65535 < n)
    (hmem : ⟨name, .integer n⟩ ∈ given) : Fails (ofJson text) := by
  refine fails_of_ne_ok fun size hsize => ?_
  obtain ⟨hwidth, hheight⟩ := (ofJson_eq_ok_iff hspelled).mp hsize
  have hvalue := mem_valuesOf hmem
  have hsizes := And.intro size.width.toNat_lt size.height.toNat_lt
  obtain rfl | rfl := hname
  · rw [hwidth, List.mem_singleton, Scalar.integer.injEq] at hvalue
    omega
  · rw [hheight, List.mem_singleton, Scalar.integer.injEq] at hvalue
    omega

end TerminalSize

/-! ## Requests to resize -/

namespace WindowSizeRequest

/-- The entries of a request; those of the size are not set apart. -/
def entries (request : WindowSizeRequest) : List Json.Entry :=
  ⟨"id", .text request.id⟩ :: request.size.entries

variable {given : List Json.Entry} {text : String}

theorem readable_entries (request : WindowSizeRequest) :
    ∀ entry ∈ request.entries, entry.value.Readable := by
  have htext : (Scalar.text request.id).Readable := ⟨_, rfl⟩
  have hsize (size : UInt16) : (Scalar.integer size.toNat).Readable := by
    rw [Scalar.readable_integer_iff, Int.natAbs_natCast, wordBound, UInt64.size]
    have := size.toNat_lt
    omega
  simp [entries, TerminalSize.entries, htext, hsize]

section Arranged

variable {request : WindowSizeRequest} {foreign : List Json.Entry}

theorem size_ofJson_of_perm (hspelled : ObjectSpelled given text.toList)
    (hforeign : Foreign ["id", "width", "height"] foreign)
    (hperm : given.Perm (request.entries ++ foreign)) :
    TerminalSize.ofJson text = .ok request.size := by
  -- to a size the identifier is foreign as well
  have hothers : Foreign ["width", "height"] (⟨"id", .text request.id⟩ :: foreign) := by
    rintro entry hmem
    obtain rfl | hmem := List.mem_cons.mp hmem
    · simp
    · exact fun hname => hforeign entry hmem (List.mem_cons_of_mem _ hname)
  refine TerminalSize.ofJson_of_perm hspelled hothers (hperm.trans ?_)
  exact List.perm_middle.symm

theorem ofJson_of_perm (hspelled : ObjectSpelled given text.toList)
    (hforeign : Foreign ["id", "width", "height"] foreign)
    (hperm : given.Perm (request.entries ++ foreign))
    (hreadable : ∀ entry ∈ foreign, entry.value.Readable) : ofJson text = .ok request := by
  have hid := hforeign.valuesOf_perm hperm List.mem_cons_self
  rw [ofJson_eq_ok_iff hspelled]
  refine ⟨List.perm_singleton.mp hid, ?_, size_ofJson_of_perm hspelled hforeign hperm⟩
  intro entry hmem _
  obtain hown | hmem := List.mem_append.mp (hperm.mem_iff.mp hmem)
  · exact readable_entries request entry hown
  · exact hreadable entry hmem

/-- What stands under another name is collected, and so it has to be told. -/
theorem fails_of_not_readable (hspelled : ObjectSpelled given text.toList) {entry : Json.Entry}
    (hmem : entry ∈ given) (hname : entry.name ≠ "id") (hreadable : ¬entry.value.Readable) :
    Fails (ofJson text) := by
  refine fails_of_ne_ok fun request hrequest => ?_
  exact hreadable (((ofJson_eq_ok_iff hspelled).mp hrequest).2.1 entry hmem hname)

end Arranged

theorem fails_of_size_fails (hspelled : ObjectSpelled given text.toList)
    (hsize : Fails (TerminalSize.ofJson text)) : Fails (ofJson text) := by
  refine fails_of_ne_ok fun request hrequest => ?_
  obtain ⟨error, herror⟩ := hsize
  exact nomatch herror.symm.trans ((ofJson_eq_ok_iff hspelled).mp hrequest).2.2

theorem fails_of_missing (hspelled : ObjectSpelled given text.toList) {name : String}
    (hname : name ∈ ["id", "width", "height"]) (hmissing : ∀ entry ∈ given, entry.name ≠ name) :
    Fails (ofJson text) := by
  obtain rfl | hname := List.mem_cons.mp hname
  · refine fails_of_ne_ok fun request hrequest => ?_
    have hid := ((ofJson_eq_ok_iff hspelled).mp hrequest).1
    exact List.cons_ne_nil _ _ (hid.symm.trans (valuesOf_eq_nil_iff.mpr hmissing))
  · refine fails_of_size_fails hspelled (TerminalSize.fails_of_missing hspelled ?_ hmissing)
    simpa using hname

end WindowSizeRequest

/-! ## Announcements -/

namespace AttachRequest

/-- The entries of an announcement, with those that tell of the exec session. -/
def entriesWith (request : AttachRequest) (session : List Json.Entry) : List Json.Entry :=
  ⟨"id", .text request.id⟩ :: ⟨"socket_path", .text request.socketPath⟩ :: session

variable {given : List Json.Entry} {text : String}

theorem ofJson_of_perm (hspelled : ObjectSpelled given text.toList) {request : AttachRequest}
    {session foreign : List Json.Entry}
    (hsession : session = [⟨"exec_session", ofOption request.execSession⟩] ∨
      session = [] ∧ request.execSession = none)
    (hforeign : Foreign ["id", "socket_path", "exec_session"] foreign)
    (hperm : given.Perm (request.entriesWith session ++ foreign)) :
    ofJson text = .ok request := by
  have hid := hforeign.valuesOf_perm hperm List.mem_cons_self
  have hpath := hforeign.valuesOf_perm hperm (List.mem_cons_of_mem _ List.mem_cons_self)
  have hexec : (valuesOf "exec_session" given).Perm
      (valuesOf "exec_session" (request.entriesWith session)) :=
    hforeign.valuesOf_perm hperm (by simp)
  rw [ofJson_eq_ok_iff hspelled]
  obtain rfl | ⟨rfl, hnone⟩ := hsession
  · exact ⟨List.perm_singleton.mp hid, List.perm_singleton.mp hpath,
      .inr (List.perm_singleton.mp hexec)⟩
  · exact ⟨List.perm_singleton.mp hid, List.perm_singleton.mp hpath,
      .inl ⟨List.perm_nil.mp hexec, hnone⟩⟩

theorem fails_of_missing (hspelled : ObjectSpelled given text.toList) {name : String}
    (hname : name ∈ ["id", "socket_path"]) (hmissing : ∀ entry ∈ given, entry.name ≠ name) :
    Fails (ofJson text) := by
  refine fails_of_ne_ok fun request hrequest => ?_
  obtain ⟨hid, hpath, -⟩ := (ofJson_eq_ok_iff hspelled).mp hrequest
  have hnone := valuesOf_eq_nil_iff.mpr hmissing
  simp only [List.mem_cons, List.not_mem_nil, or_false] at hname
  obtain rfl | rfl := hname
  · exact List.cons_ne_nil _ _ (hid.symm.trans hnone)
  · exact List.cons_ne_nil _ _ (hpath.symm.trans hnone)

end AttachRequest

/-! ## Any arrangement -/

/-- What becomes of a text with the given entries that is read as a request to resize. -/
structure WindowSizeRequest.Decoding (given : List Json.Entry) (text : String) : Prop where
  /-- The entries of a request and foreign ones, in any order, are decoded to its size. -/
  size {request : WindowSizeRequest} {foreign : List Json.Entry}
    (names : Foreign ["id", "width", "height"] foreign)
    (arranged : given.Perm (request.entries ++ foreign)) :
    TerminalSize.ofJson text = .ok request.size
  /-- They are decoded to the request if what the foreign ones are can be told. -/
  request {request : WindowSizeRequest} {foreign : List Json.Entry}
    (names : Foreign ["id", "width", "height"] foreign)
    (arranged : given.Perm (request.entries ++ foreign))
    (readable : ∀ entry ∈ foreign, entry.value.Readable) :
    WindowSizeRequest.ofJson text = .ok request
  /-- Otherwise nothing is decoded. -/
  unreadable {request : WindowSizeRequest} {foreign : List Json.Entry}
    (names : Foreign ["id", "width", "height"] foreign)
    (arranged : given.Perm (request.entries ++ foreign))
    (unreadable : ∃ entry ∈ foreign, ¬entry.value.Readable) :
    Fails (WindowSizeRequest.ofJson text)
  /-- Every member has to be there. -/
  missing {name : String} (member : name ∈ ["id", "width", "height"])
    (missing : ∀ entry ∈ given, entry.name ≠ name) : Fails (WindowSizeRequest.ofJson text)
  /-- No integer becomes a size but those from 0 to 65535. -/
  outOfRange {name : String} (member : name ∈ ["width", "height"]) {n : Int}
    (range : n < 0 ∨ 65535 < n) (mem : ⟨name, .integer n⟩ ∈ given) :
    Fails (TerminalSize.ofJson text) ∧ Fails (WindowSizeRequest.ofJson text)

/-- What becomes of a text with the given entries that is read as an announcement. -/
structure AttachRequest.Decoding (given : List Json.Entry) (text : String) : Prop where
  /-- The entries of an announcement and foreign ones, in any order, are decoded to it.  That
  there is no exec session may be said or left out. -/
  request {request : AttachRequest} {session foreign : List Json.Entry}
    (told : session = [⟨"exec_session", ofOption request.execSession⟩] ∨
      session = [] ∧ request.execSession = none)
    (names : Foreign ["id", "socket_path", "exec_session"] foreign)
    (arranged : given.Perm (request.entriesWith session ++ foreign)) :
    AttachRequest.ofJson text = .ok request
  /-- The other members have to be there. -/
  missing {name : String} (member : name ∈ ["id", "socket_path"])
    (missing : ∀ entry ∈ given, entry.name ≠ name) : Fails (AttachRequest.ofJson text)

/-- What is decoded does not depend on how the members are arranged. -/
theorem requests_in_any_arrangement {given : List Json.Entry} {text : String}
    (hspelled : ObjectSpelled given text.toList) :
    WindowSizeRequest.Decoding given text ∧ AttachRequest.Decoding given text ∧
      ∀ value : Scalar, value.Readable ↔ ∀ n, value = .integer n →
        n.natAbs < wordBound ∨ (floatOf? n.natAbs).isSome = true := by
  refine ⟨?_, ?_, fun value => value.readable_iff⟩
  · constructor
    case size => exact WindowSizeRequest.size_ofJson_of_perm hspelled
    case request => exact WindowSizeRequest.ofJson_of_perm hspelled
    case unreadable =>
      rintro request foreign names arranged ⟨entry, hmem, hreadable⟩
      have hgiven := arranged.mem_iff.mpr (List.mem_append_right _ hmem)
      refine WindowSizeRequest.fails_of_not_readable hspelled hgiven ?_ hreadable
      rintro hname
      exact names entry hmem (by simp [hname])
    case missing => exact WindowSizeRequest.fails_of_missing hspelled
    case outOfRange =>
      intro name member n range mem
      have hsize := TerminalSize.fails_of_out_of_range hspelled (by simpa using member) range mem
      exact ⟨hsize, WindowSizeRequest.fails_of_size_fails hspelled hsize⟩
  · constructor
    case request => exact AttachRequest.ofJson_of_perm hspelled
    case missing => exact AttachRequest.fails_of_missing hspelled

/-- One text is a request to resize, a size and an announcement at once. -/
theorem requests_in_any_arrangement_mixed :
    let given : List Json.Entry := [⟨"height", .integer 40⟩, ⟨"socket_path", .text "/run/s"⟩,
      ⟨"width", .integer 120⟩, ⟨"exec_session", .null⟩, ⟨"id", .text "ctr"⟩]
    let text := "\x7b\"height\":40,\"socket_path\":\"/run/s\",\"width\":120," ++
      "\"exec_session\":null,\"id\":\"ctr\"\x7d"
    ObjectSpelled given text.toList ∧ WindowSizeRequest.ofJson text = .ok ⟨"ctr", 120, 40⟩ ∧
      TerminalSize.ofJson text = .ok ⟨120, 40⟩ ∧
      AttachRequest.ofJson text = .ok ⟨"ctr", "/run/s", none⟩ := by
  intro given text
  have htext : text.toList = printObject (given.map Json.Entry.toMember) := by decide
  have hspelled : ObjectSpelled given text.toList := htext ▸ objectSpelled_printObject given
  obtain ⟨hresize, hattach, hreadable⟩ := requests_in_any_arrangement hspelled
  have hresized : given.Perm (WindowSizeRequest.entries ⟨"ctr", 120, 40⟩ ++
      [⟨"socket_path", .text "/run/s"⟩, ⟨"exec_session", .null⟩]) := by
    decide
  have hannounced : given.Perm (AttachRequest.entriesWith ⟨"ctr", "/run/s", none⟩
      [⟨"exec_session", .null⟩] ++ [⟨"height", .integer 40⟩, ⟨"width", .integer 120⟩]) := by
    decide
  have htold : ∀ entry ∈ [(⟨"socket_path", .text "/run/s"⟩ : Json.Entry),
      ⟨"exec_session", .null⟩], entry.value.Readable := by
    intro entry hmem
    refine (hreadable entry.value).mpr fun n hn => ?_
    simp only [List.mem_cons, List.not_mem_nil, or_false] at hmem
    obtain rfl | rfl := hmem <;> exact nomatch hn
  exact ⟨hspelled, hresize.request (by decide) hresized htold,
    hresize.size (by decide) hresized, hattach.request (.inl rfl) (by decide) hannounced⟩

/-! ## Integers that cannot be told -/

/-- An integer of 401 digits is too large for a floating-point number. -/
theorem Json.floatOf?_ten_pow : floatOf? (Nat.pow 10 400) = none := by
  have hlength : (printNat (Nat.pow 10 400)).length = 401 := by decide +kernel
  -- a word holds twenty of the digits
  have habsorb : absorb 0 (printNat (Nat.pow 10 400)) = (Nat.pow 10 19, 20) := by decide +kernel
  have hpositive : ((Nat.pow 10 19).toUInt64.toFloat == 0) = false := by decide
  rw [floatOf?, habsorb, hlength]
  show scale? (Nat.pow 10 19).toUInt64.toFloat (401 - 20 : Nat) = none
  rw [scale?, if_neg (by decide), hpositive, if_neg Bool.false_ne_true]
  rfl

/-- Decoding a request to resize is not indifferent to foreign members of every size, although
decoding a size is. -/
theorem foreign_integer_too_large :
    let request : WindowSizeRequest := ⟨"a", 1, 2⟩
    let given : List Json.Entry := ⟨"x", .integer (Nat.pow 10 400)⟩ :: request.entries
    let text := String.ofList (printObject (given.map Json.Entry.toMember))
    ObjectSpelled given text.toList ∧ TerminalSize.ofJson text = .ok request.size ∧
      WindowSizeRequest.ofJson text ≠ .ok request := by
  intro request given text
  have hspelled : ObjectSpelled given text.toList := by
    rw [String.toList_ofList]
    exact objectSpelled_printObject given
  have hnames : Foreign ["id", "width", "height"] [⟨"x", .integer (Nat.pow 10 400)⟩] := by decide
  have harranged : given.Perm (request.entries ++ [⟨"x", .integer (Nat.pow 10 400)⟩]) :=
    (List.perm_append_singleton _ _).symm
  have hunreadable : ¬(Scalar.integer (Nat.pow 10 400)).Readable := by
    rw [Scalar.readable_integer_iff, Int.natAbs_natCast, floatOf?_ten_pow]
    decide +kernel
  refine ⟨hspelled, WindowSizeRequest.size_ofJson_of_perm hspelled hnames harranged, ?_⟩
  intro hrequest
  obtain ⟨error, herror⟩ := WindowSizeRequest.fails_of_not_readable hspelled
    List.mem_cons_self (by decide) hunreadable
  exact nomatch herror.symm.trans hrequest

end ContainerAttach
