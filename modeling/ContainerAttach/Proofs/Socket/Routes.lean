import ContainerAttach.Proofs.FileSystem.Links
import ContainerAttach.Proofs.Socket.Listening
import Mathlib.Data.List.Basic

/-!
# Two routes to a socket

A path that fits into an address is connected to as it stands, and a longer one by way of its
directory.  Either way there is a walk to what the path names, and what comes of the walk is told
under the path that the caller gave (`Network.connect_of_fits`, `Network.connect_of_long`).

The two walks end with the same name in the same directory, so they lead to the same.  They may
have different numbers of links left for it: a descriptor of the directory costs two of them, and
a path costs those that it goes through itself.
-/

namespace ContainerAttach

namespace Network

open FileSystem

variable {net : Network} {kind : SocketKind} {path : Bytes}

/-! ## What comes of a walk -/

/-- What comes of connecting to what a walk has led to. -/
def arrive (net : Network) (kind : SocketKind) :
    Except IoError Nat → Except IoError Handle × Network
  | .error cause => (.error cause, net)
  | .ok node =>
    if net.files.isSocket node then net.connectNode kind node else (.error (.os 111), net)

/-- What the caller is told of it.  A cause is reported under the path that was given. -/
def told (path : Bytes) :
    Except IoError Handle × Network → Except SocketError Handle × Network
  | (.ok handle, net) => (.ok handle, net)
  | (.error cause, net) => (.error (.connect path cause), net)

theorem connectAddress_of_name {find : Bytes → Except IoError Nat} {address : SocketAddress}
    {bytes : Bytes} (hname : address.name = .path bytes) :
    net.connectAddress kind find address = net.arrive kind (find bytes) := by
  unfold connectAddress nodeOfName
  rw [hname]
  dsimp only
  cases find bytes with
  | error cause => rfl
  | ok node =>
      dsimp only [arrive]
      split
      · next hsocket =>
        split at hsocket
        · exact nomatch hsocket
        · next hnode =>
          obtain rfl := Except.error.inj hsocket
          rw [if_neg hnode]
      · next hsocket =>
        split at hsocket
        · next hnode =>
          obtain rfl := Except.ok.inj hsocket
          rw [if_pos hnode]
        · exact nomatch hsocket

theorem resolve_of_acceptable {files : FileSystem} {follow : Bool} {bytes : Bytes}
    (hbytes : Acceptable bytes) :
    files.resolve follow bytes =
      files.walk follow linkLimit (startOf bytes) (Path.pieces bytes) := by
  rw [resolve, if_neg hbytes.ne_nil, if_neg (Nat.not_le.mpr hbytes.length_lt)]
  rfl

/-- A path that fits into an address is walked along as it stands. -/
theorem connect_of_fits (hfits : path.length < addressCapacity)
    (hpath : Acceptable path) :
    net.connect path kind =
      told path (net.arrive kind
        (net.files.walk true linkLimit (startOf path)
          (Path.pieces path))) := by
  obtain ⟨address, haddress⟩ := SocketAddress.exists_ofPath hfits
  have hname := SocketAddress.name_of_ofPath haddress hpath
  unfold connect
  rw [if_neg (Nat.not_le.mpr hfits), haddress]
  dsimp only
  rw [connectAddress_of_name hname, resolve_of_acceptable hpath]
  generalize net.arrive kind _ = outcome
  obtain ⟨_ | _, after⟩ := outcome <;> rfl

/-! ## By way of the directory -/

theorem zero_not_mem_digits (n : Nat) : (0 : UInt8) ∉ Bytes.ofText (toString n) := by
  have hdigit : ∀ code < 128, 0 < code → (0 : UInt8) ∉ String.utf8EncodeChar (Char.ofNat code) := by
    decide
  have htext : toString n = String.ofList (Nat.toDigits 10 n) := rfl
  rw [htext, Bytes.ofText_ofList, List.mem_flatMap]
  rintro ⟨c, hc, hzero⟩
  have hrange := Nat.isDigit_of_mem_toDigits (by decide) (by decide) hc
  have hcode : 48 ≤ c.toNat ∧ c.toNat ≤ 57 := by
    simpa [Char.isDigit, UInt32.le_iff_toNat_le] using hrange
  rw [← Char.ofNat_toNat c] at hzero
  exact hdigit c.toNat (by omega) (by omega) hzero

theorem zero_not_mem_descriptorPath (descriptor : Nat) :
    (0 : UInt8) ∉ descriptorPath descriptor := by
  have hfront : (0 : UInt8) ∉ Bytes.ofText "/proc/self/fd/" := by decide
  have hback : (0 : UInt8) ∉ Bytes.ofText "/" := by decide
  rw [descriptorPath, Bytes.ofText_append, Bytes.ofText_append, List.mem_append, List.mem_append]
  rintro ((hzero | hzero) | hzero)
  · exact hfront hzero
  · exact zero_not_mem_digits descriptor hzero
  · exact hback hzero

theorem ne_nil_descriptorPath (descriptor : Nat) (name : Bytes) :
    descriptorPath descriptor ++ name ≠ [] := by
  have hslash : Bytes.ofText "/" ≠ [] := by decide
  rw [descriptorPath, Bytes.ofText_append]
  exact List.append_ne_nil_of_left_ne_nil (List.append_ne_nil_of_right_ne_nil _ hslash) name

/-- A path that does not fit into an address leads to a plain name by way of a directory. -/
structure ByDirectory (files : FileSystem) (path : Bytes) (dir : Nat) (name : Bytes) : Prop where
  long : addressCapacity ≤ path.length
  ends : ∃ front, Path.pieces path = front ++ [name]
  opens : files.openNode (directoryOf path) = .ok dir

/-- A longer path is walked along from its directory, with two links less. -/
theorem connect_of_long {dir : Nat} {name : Bytes}
    (hroute : ByDirectory net.files path dir name)
    (hfits : (descriptorPath net.descriptor ++ name).length < addressCapacity) (hname : name ≠ [])
    (hdots : Path.isDots name = false) (hzero : (0 : UInt8) ∉ name) :
    net.connect path kind =
      told path (net.arrive kind
        (net.files.walk true (linkLimit - descriptorLinks) dir [name])) := by
  obtain ⟨hlong, ⟨front, hpieces⟩, hopens⟩ := hroute
  have hacceptable : Acceptable (descriptorPath net.descriptor ++ name) := by
    refine ⟨?_, ne_nil_descriptorPath net.descriptor name, ?_⟩
    · rw [Bool.eq_false_iff, ne_eq, List.contains_iff_mem, List.mem_append]
      exact fun hmem => hmem.elim (zero_not_mem_descriptorPath _) hzero
    · exact hfits.trans (by decide)
  obtain ⟨address, haddress⟩ := SocketAddress.exists_ofPath hfits
  have haddress_name := SocketAddress.name_of_ofPath haddress hacceptable
  have hslash : PathLetter.slash ∉ name :=
    Path.slash_not_mem_of_mem_pieces (hpieces ▸ List.mem_append_right front List.mem_cons_self)
  have hthrough : findThrough net.files dir net.descriptor
      (descriptorPath net.descriptor ++ name) =
        net.files.walk true (linkLimit - descriptorLinks) dir [name] := by
    rw [findThrough, List.drop_left, Path.pieces_of_slash_not_mem hslash]
  unfold connect connectByDirectory
  dsimp only
  rw [if_pos hlong, Path.fileName?_of_pieces hpieces hname hdots]
  dsimp only
  rw [hopens]
  dsimp only
  rw [if_neg (Nat.not_le.mpr hfits), haddress]
  dsimp only
  rw [connectAddress_of_name haddress_name, hthrough]
  generalize net.arrive kind _ = outcome
  obtain ⟨_ | _, after⟩ := outcome <;> rfl

/-! ## The same name in the same directory -/

/-- A path that goes through some pieces to a directory, and ends with a plain name there. -/
structure EndsWith (files : FileSystem) (bytes : Bytes) (front : List Bytes) (dir : Nat)
    (name : Bytes) : Prop where
  acceptable : Acceptable bytes
  pieces_eq : Path.pieces bytes = front ++ [name]
  name_ne : name ≠ []
  walks : files.Walks true linkLimit (startOf bytes) front dir
  directory : files.isDirectory dir = true

theorem exists_endsWith_of_place {files : FileSystem} {bytes name : Bytes} {dir : Nat}
    (hplace : files.place bytes = .ok ⟨dir, name, false⟩) (hdots : Path.isDots name = false) :
    ∃ front, EndsWith files bytes front dir name := by
  obtain ⟨hbytes, ⟨front, empties, hlast, hslashed, hwalks⟩, hdirectory, -⟩ :=
    reaches_of_place hplace hdots
  obtain rfl : empties = [] :=
    Decidable.byContradiction fun hempties => Bool.false_ne_true (hslashed.mpr hempties)
  exact ⟨front, hbytes, hlast.pieces_eq, hlast.name_ne, hwalks, hdirectory⟩

theorem EndsWith.letters {files : FileSystem} {bytes name : Bytes} {front : List Bytes}
    {dir : Nat} (hends : EndsWith files bytes front dir name) :
    ∀ piece ∈ front ++ [name], (0 : UInt8) ∉ piece := by
  have hzero := hends.acceptable.no_zero
  rw [Bool.eq_false_iff, ne_eq, List.contains_iff_mem] at hzero
  intro piece hpiece hmem
  exact hzero (Path.mem_of_mem_pieces (hends.pieces_eq ▸ hpiece) hmem).1

/-- The walk along the path takes some links on the way to the directory, and has the others
left there. -/
theorem EndsWith.exists_takes {files : FileSystem} {bytes name : Bytes} {front : List Bytes}
    {dir : Nat} (hends : EndsWith files bytes front dir name) :
    ∃ used ≤ linkLimit, files.Takes used (startOf bytes) front dir ∧
      files.walk true linkLimit (startOf bytes) (Path.pieces bytes) =
        files.walk true (linkLimit - used) dir [name] := by
  obtain ⟨used, hused, htakes⟩ := hends.walks.exists_takes
  refine ⟨used, hused, htakes, ?_⟩
  rw [hends.pieces_eq, ← htakes.walk_append true (linkLimit - used) [name] (List.cons_ne_nil _ _),
    Nat.add_sub_cancel' hused]

theorem arrive_of_le (net : Network) (kind : SocketKind) (dir : Nat) (name : Bytes)
    {fewer more : Nat} (hle : fewer ≤ more) :
    net.arrive kind (net.files.walk true more dir [name]) =
        net.arrive kind (net.files.walk true fewer dir [name]) ∨
      net.arrive kind (net.files.walk true fewer dir [name]) = (.error tooManyLinks, net) :=
  (walk_of_le hle [name]).imp (congrArg _) fun hfew => by rw [hfew, arrive]

/-- Connecting along a path that fits into an address and along one that does not comes to the
same, unless the one that has fewer links left for the name has too few.  The paths can only have
different numbers of links left, and that can only matter if the name is one of a link. -/
def Agree (net : Network) (kind : SocketKind) (dir : Nat) (name : Bytes)
    (short long : Bytes) : Prop :=
  ∃ used ≤ linkLimit,
    net.files.Takes used (startOf short)
      (Path.pieces short).dropLast dir ∧
    ∃ direct through : Except IoError Handle × Network,
      net.connect short kind = told short direct ∧
      net.connect long kind = told long through ∧
      (direct = through ∨
        descriptorLinks < used ∧ direct = (.error tooManyLinks, net) ∨
        used < descriptorLinks ∧ through = (.error tooManyLinks, net)) ∧
      ((∀ node target, net.files.child? dir name = some node →
        net.files.nodes[node]? ≠ some (.link target)) → direct = through)

theorem agree_of_routes {short long : Bytes} {dir : Nat} {name : Bytes}
    (hdots : Path.isDots name = false) (hshort : short.length < addressCapacity)
    (hplace : net.files.place short = .ok ⟨dir, name, false⟩)
    (hroute : ByDirectory net.files long dir name)
    (hfits : (descriptorPath net.descriptor ++ name).length < addressCapacity) :
    net.Agree kind dir name short long := by
  obtain ⟨front, hends⟩ := exists_endsWith_of_place hplace hdots
  obtain ⟨used, hused, htakes, hwalk⟩ := hends.exists_takes
  have hzero : (0 : UInt8) ∉ name := hends.letters name (by simp)
  refine ⟨used, hused, ?_, net.arrive kind (net.files.walk true (linkLimit - used) dir [name]),
    net.arrive kind (net.files.walk true (linkLimit - descriptorLinks) dir [name]), ?_,
    connect_of_long hroute hfits hends.name_ne hdots hzero, ?_, fun hlink => ?_⟩
  · rwa [hends.pieces_eq, List.dropLast_concat]
  · rw [connect_of_fits hshort hends.acceptable, hwalk]
  · rcases Nat.lt_trichotomy used descriptorLinks with hless | rfl | hmore
    · have hle : linkLimit - descriptorLinks ≤ linkLimit - used := by omega
      rcases net.arrive_of_le kind dir name hle with hsame | hfew
      · exact Or.inl hsame
      · exact Or.inr (Or.inr ⟨hless, hfew⟩)
    · exact Or.inl rfl
    · have hle : linkLimit - used ≤ linkLimit - descriptorLinks := by omega
      rcases net.arrive_of_le kind dir name hle with hsame | hfew
      · exact Or.inl hsame.symm
      · exact Or.inr (Or.inl ⟨hmore, hfew⟩)
  · have hidle := Path.isIdle_of_plain hends.name_ne hdots
    have hup : name ≠ [0x2e, 0x2e] := by
      rintro rfl
      exact absurd hdots (by decide)
    rw [walk_of_not_link hends.directory hidle hup hlink]

/-! ## Padding -/

/-- The second path says the same as the first, with idle pieces put in or left out before the
name at the end: dots between slashes, or slashes repeated. -/
structure Padded (path padded : Bytes) : Prop where
  isAbsolute_eq : Path.isAbsolute padded = Path.isAbsolute path
  steps_eq : Path.steps (Path.pieces padded) = Path.steps (Path.pieces path)
  ends_eq : (Path.pieces padded).getLast? = (Path.pieces path).getLast?

theorem directoryOf_of_plain {bytes name : Bytes} {front : List Bytes}
    (hpieces : Path.pieces bytes = front ++ [name]) (hname : name ≠ [])
    (hdots : Path.isDots name = false) :
    Path.Leads front (Path.isAbsolute bytes) (directoryOf bytes) := by
  have hidle := Path.isIdle_of_plain hname hdots
  obtain ⟨rfl, hparent⟩ | ⟨parent, hparent, hleads⟩ := Path.parent?_of_plain hpieces hidle
  · rw [directoryOf, hparent, Path.isAbsolute_eq_false hpieces hname]
    exact Path.leads_dot (by decide)
  · rw [directoryOf, hparent]
    split
    · next hnil => exact absurd (Option.some.inj hnil) hleads.ne_nil
    · next parent' hsome =>
      obtain rfl := Option.some.inj hsome
      exact hleads
    · next hnone => exact absurd hnone (by simp)

theorem Padded.exists_front {bytes padded name : Bytes} {front : List Bytes}
    (hpadded : Padded bytes padded) (hpieces : Path.pieces bytes = front ++ [name]) :
    ∃ back, Path.pieces padded = back ++ [name] ∧ Path.steps back = Path.steps front := by
  obtain ⟨back, last, hback⟩ : ∃ back last, Path.pieces padded = back ++ [last] :=
    ⟨_, _, (List.dropLast_concat_getLast (Path.pieces_ne_nil padded)).symm⟩
  have hends := hpadded.ends_eq
  have hsteps := hpadded.steps_eq
  rw [hback, hpieces, List.getLast?_concat, List.getLast?_concat, Option.some_inj] at hends
  subst hends
  rw [hback, hpieces, Path.steps_append, Path.steps_append] at hsteps
  exact ⟨back, hback, List.append_cancel_right hsteps⟩

/-- What a padded path leads to by way of its directory. -/
structure Padded.Ends (bytes padded : Bytes) (front back : List Bytes) (name : Bytes) : Prop where
  pieces_eq : Path.pieces padded = back ++ [name]
  steps_eq : Path.steps back = Path.steps front
  leads : Path.Leads back (Path.isAbsolute bytes) (directoryOf padded)
  zero_not_mem : (0 : UInt8) ∉ directoryOf padded

theorem Padded.exists_ends {files : FileSystem} {bytes padded name : Bytes} {front : List Bytes}
    {dir : Nat} (hpadded : Padded bytes padded) (hends : EndsWith files bytes front dir name)
    (hdots : Path.isDots name = false) : ∃ back, Padded.Ends bytes padded front back name := by
  obtain ⟨back, hback, hsteps⟩ := hpadded.exists_front hends.pieces_eq
  have hleads := directoryOf_of_plain hback hends.name_ne hdots
  refine ⟨back, hback, hsteps, hpadded.isAbsolute_eq ▸ hleads, fun hmem => ?_⟩
  obtain ⟨piece, hpiece, hin⟩ := hleads.mem 0 hmem (by decide) (by decide)
  rw [hsteps] at hpiece
  exact hends.letters piece (List.mem_append_left _ (List.mem_filter.mp hpiece).1) hin

/-- A padded path leads by way of the same directory, if the path of the directory is not too
long. -/
theorem Padded.Ends.byDirectory {files : FileSystem} {bytes padded name : Bytes}
    {front back : List Bytes} {dir : Nat} (hback : Padded.Ends bytes padded front back name)
    (hends : EndsWith files bytes front dir name) (hlong : addressCapacity ≤ padded.length)
    (hlength : (directoryOf padded).length < pathLimit) : ByDirectory files padded dir name := by
  have hstart : startOf (directoryOf padded) = startOf bytes := by
    rw [startOf, startOf, hback.leads.isAbsolute_eq]
  have hfind : files.find true (directoryOf padded) = .ok dir := by
    refine FileSystem.find_eq_ok_iff.mpr
      ⟨⟨by simpa using hback.zero_not_mem, hback.leads.ne_nil, hlength⟩, ?_⟩
    rw [hstart, walks_iff_of_steps hends.directory (hback.leads.steps_eq.trans hback.steps_eq)]
    exact hends.walks
  obtain ⟨parent, hnode⟩ := isDirectory_iff.mp hends.directory
  refine ⟨hlong, ⟨back, hback.pieces_eq⟩, ?_⟩
  rw [openNode, hfind]
  dsimp only
  rw [hnode]

/-- Otherwise the directory cannot be opened. -/
theorem Padded.Ends.connect_eq {bytes name : Bytes} {padded : Bytes} {front back : List Bytes}
    (hback : Padded.Ends bytes padded front back name) (hname : name ≠ [])
    (hdots : Path.isDots name = false) (hlong : addressCapacity ≤ padded.length)
    (hlength : pathLimit ≤ (directoryOf padded).length) :
    net.connect padded kind = (.error (.connect padded (.os 36)), net) := by
  have hopen : net.files.openNode (directoryOf padded) = .error (.os 36) := by
    have hcontains : (directoryOf padded).contains 0 = false := by
      simpa using hback.zero_not_mem
    rw [openNode, find, hcontains, resolve, if_neg hback.leads.ne_nil, if_pos hlength]
    rfl
  unfold connect connectByDirectory
  dsimp only
  rw [if_pos hlong, Path.fileName?_of_pieces hback.pieces_eq hname hdots]
  dsimp only
  rw [hopen]

/-- **The two routes to a socket agree.**  A path that fits into an address and one that does not,
but leads to the same plain name in the same directory, are connected to with the same outcome:
the same connection, or an error with the same cause, told under the path that was given.  Only
the number of links left for the name may differ, and the route that has fewer of them may run
out of them.

So it is with a path and the same path padded, as long as the path of its directory stays short
enough to be opened. -/
theorem connect_routes (net : Network) (kind : SocketKind) (short : Bytes) (dir : Nat)
    (name : Bytes) (hshort : short.length < addressCapacity)
    (hplace : net.files.place short = .ok ⟨dir, name, false⟩)
    (hdots : Path.isDots name = false)
    (hfits : (descriptorPath net.descriptor ++ name).length < addressCapacity) :
    (∀ long : Bytes, ByDirectory net.files long dir name →
      net.Agree kind dir name short long) ∧
    ∀ padded : Bytes, addressCapacity ≤ padded.length →
      Padded short padded →
      ((directoryOf padded).length < pathLimit →
        net.Agree kind dir name short padded) ∧
      (pathLimit ≤ (directoryOf padded).length →
        net.connect padded kind = (.error (.connect padded (.os 36)), net)) := by
  have hlongs : ∀ long : Bytes, ByDirectory net.files long dir name →
      net.Agree kind dir name short long := fun long hroute =>
    agree_of_routes hdots hshort hplace hroute hfits
  refine ⟨hlongs, fun padded hlong hpadded => ?_⟩
  obtain ⟨front, hends⟩ := exists_endsWith_of_place hplace hdots
  obtain ⟨back, hback⟩ := hpadded.exists_ends hends hdots
  exact ⟨fun hlength => hlongs padded (hback.byDirectory hends hlong hlength),
    fun hlength => hback.connect_eq hends.name_ne hdots hlong hlength⟩

/-! ## Out of links -/

/-- A name of one letter with so many dots and slashes before it that the path does not fit into
an address. -/
def dotted (letter : Char) : String :=
  String.ofList ((List.replicate 54 ['.', '/']).flatten ++ [letter])

/-- A listener at `t`, the link `l` to its own directory, and the link `s` that goes through `l`
again and again before it ends at `t`: following it takes 39 links. -/
def tangled : Network :=
  { files :=
      { nodes := [.directory 0, .directory 0, .socket standardMode, .link [0x2e],
          .link ((List.replicate 38 [0x6c, 0x2f]).flatten ++ [0x74])]
        entries := [⟨1, [0x73], 4⟩, ⟨1, [0x6c], 3⟩, ⟨1, [0x74], 2⟩] }
    listeners := [(0, ⟨.packet, [0x74], 2, []⟩)]
    nextListener := 1 }

theorem byDirectory_dotted_t : ByDirectory tangled.files (Bytes.ofText (dotted 't')) 1 [0x74] := by
  have hpath : Bytes.ofText (dotted 't') = (List.replicate 54 [0x2e, 0x2f]).flatten ++ [0x74] := by
    decide +kernel
  rw [hpath]
  exact ⟨by decide +kernel, ⟨List.replicate 54 [0x2e], by decide +kernel⟩, by cbv⟩

theorem byDirectory_dotted_s : ByDirectory tangled.files (Bytes.ofText (dotted 's')) 1 [0x73] := by
  have hpath : Bytes.ofText (dotted 's') = (List.replicate 54 [0x2e, 0x2f]).flatten ++ [0x73] := by
    decide +kernel
  rw [hpath]
  exact ⟨by decide +kernel, ⟨List.replicate 54 [0x2e], by decide +kernel⟩, by cbv⟩

/-- The path `t` with a dot and repeated slashes before it. -/
def slashed : String := String.ofList ('.' :: List.replicate 120 '/' ++ ['t'])

/-- The listener itself is reached along either path. -/
theorem connect_routes_listener :
    tangled.files.place (Bytes.ofText "t") = .ok ⟨1, [0x74], false⟩ ∧
    tangled.Agree .packet 1 [0x74] "t" (dotted 't') ∧
    Padded (Bytes.ofText "t") (Bytes.ofText slashed) ∧
    tangled.Agree .packet 1 [0x74] "t" slashed := by
  have hname : Bytes.ofText "t" = [0x74] := by decide +kernel
  have hplace : tangled.files.place (Bytes.ofText "t") = .ok ⟨1, [0x74], false⟩ := by
    rw [hname]
    cbv
  have hpadded : Padded (Bytes.ofText "t") (Bytes.ofText slashed) :=
    ⟨by decide +kernel, by decide +kernel, by decide +kernel⟩
  have hlength : (directoryOf (Bytes.ofText slashed)).length < pathLimit := by decide +kernel
  have hroutes := connect_routes tangled .packet "t" 1 [0x74] (by decide) hplace (by decide)
    (by decide +kernel)
  have hslashed := hroutes.2 slashed (by decide +kernel) hpadded
  exact ⟨hplace, hroutes.1 (dotted 't') byDirectory_dotted_t, hpadded, hslashed.1 hlength⟩

set_option maxRecDepth 1024 in
/-- The link is followed to the listener along its own path. -/
theorem connect_tangled : (tangled.connect "s" .packet).1 = .ok ⟨0, .near⟩ := by
  have hname : Bytes.ofText "s" = [0x73] := by decide +kernel
  have hwalk : tangled.files.walk true linkLimit (startOf (Bytes.ofText "s"))
      (Path.pieces (Bytes.ofText "s")) = .ok 2 := by
    rw [hname]
    cbv
  rw [connect_of_fits (by decide) ⟨by decide, by decide, by decide⟩, hwalk]
  rfl

/-- By way of the directory there are too few links left. -/
theorem connect_tangled_dotted :
    (tangled.connect (dotted 's') .packet).1 = .error (.connect (dotted 's') (.os 40)) := by
  have hwalk : tangled.files.walk true (linkLimit - descriptorLinks) 1 [[0x73]] =
      .error (.os 40) := by cbv
  rw [connect_of_long byDirectory_dotted_s (by decide +kernel) (by decide) (by decide)
    (by decide), hwalk]
  rfl

/-- Two paths to the same name in the same directory, of which only the first reaches what the
name stands for. -/
theorem routes_part_at_links :
    (Bytes.ofText "s").length < addressCapacity ∧
    tangled.files.place (Bytes.ofText "s") = .ok ⟨1, [0x73], false⟩ ∧
    ByDirectory tangled.files (Bytes.ofText (dotted 's')) 1 [0x73] ∧
    (descriptorPath tangled.descriptor ++ [0x73]).length < addressCapacity ∧
    Padded (Bytes.ofText "s") (Bytes.ofText (dotted 's')) ∧
    ¬ ∃ outcome, tangled.connect "s" .packet = told "s" outcome ∧
      tangled.connect (dotted 's') .packet = told (dotted 's') outcome := by
  have hname : Bytes.ofText "s" = [0x73] := by decide +kernel
  have hplace : tangled.files.place (Bytes.ofText "s") = .ok ⟨1, [0x73], false⟩ := by
    rw [hname]
    cbv
  refine ⟨by decide, hplace, byDirectory_dotted_s, by decide +kernel,
    ⟨by decide +kernel, by decide +kernel, by decide +kernel⟩, ?_⟩
  rintro ⟨⟨result, net⟩, hdirect, hthrough⟩
  have hreached := connect_tangled
  have hfailed := connect_tangled_dotted
  rw [hdirect] at hreached
  rw [hthrough] at hfailed
  cases result with
  | ok handle => exact absurd hfailed (by simp [told])
  | error cause => exact absurd hreached (by simp [told])

end Network

end ContainerAttach
