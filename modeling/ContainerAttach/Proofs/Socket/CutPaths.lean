import ContainerAttach.Proofs.Path.Components
import ContainerAttach.Proofs.Socket.Capacity

/-!
# Paths that are cut off

Nobody looks for zero bytes in a path before its address is made, so the operating system may read
another path from the address than the one that was given.  Connecting goes where the name leads
that is read (`Network.connect_of_wayTo`): a path with a zero byte in it reaches what the part
before it names.  Listening makes the socket file under that name and looks for it under the path
(`Network.listen_eq_listenAs`).  A path with a zero byte in it is never found, so listening fails
there, but only after the file has been made (`Network.listen_of_not_nameable`).

For all other paths the two are the same, and both act on the path that was given.
-/

namespace ContainerAttach

namespace Network

variable {net : Network} {path : Bytes} {kind : SocketKind} {mode : Nat}
  {refuses : ListenRefusals}

/-! ## Connecting -/

/-- What comes of connecting to a name. -/
def connectName (net : Network) (kind : SocketKind) (find : Bytes → Except IoError Nat) :
    SocketName → Except IoError Handle × Network
  | .abstract _ => (.error (.os 111), net)
  | .path bytes => net.arrive kind (find bytes)

theorem connectAddress_eq (find : Bytes → Except IoError Nat) (address : SocketAddress) :
    net.connectAddress kind find address = net.connectName kind find address.name := by
  cases hname : address.name with
  | abstract bytes =>
      unfold connectAddress nodeOfName
      rw [hname]
      rfl
  | path bytes => exact connectAddress_of_name hname

/-- Connecting goes by the name that is read from the address. -/
theorem connect_of_wayTo {way : Way} (hway : net.wayTo path = .ok way) :
    net.connect path kind = told path (net.connectName kind way.find (.ofPath way.given)) := by
  obtain ⟨address, haddress⟩ := SocketAddress.exists_ofPath (given_fits hway)
  rw [connect_eq_connectWith, connectWith, hway]
  dsimp only
  rw [haddress]
  dsimp only
  rw [connectAddress_eq, SocketAddress.name_eq haddress]

theorem wayTo_of_fits (hfits : path.length < addressCapacity) :
    net.wayTo path = .ok ⟨path, net.files.resolve true⟩ :=
  if_pos hfits

/-- A way to a path without zero bytes has none either. -/
theorem nameable_given {bytes : Bytes} {way : Way} (hbytes : Nameable bytes)
    (hway : net.wayTo bytes = .ok way) : Nameable way.given := by
  unfold wayTo at hway
  split at hway
  · obtain rfl := Except.ok.inj hway
    exact hbytes
  · split at hway
    · exact nomatch hway
    · next name hname =>
      split at hway
      · exact nomatch hway
      · dsimp only at hway
        split at hway
        · obtain rfl := Except.ok.inj hway
          refine ⟨ne_nil_descriptorPath _ _, ?_⟩
          rw [List.mem_append]
          rintro (hzero | hzero)
          · exact zero_not_mem_descriptorPath _ hzero
          · exact hbytes.no_zero (Path.mem_of_mem_fileName? hname hzero)
        · exact nomatch hway

/-! ## Listening -/

/-- Enters a socket file under a name. -/
def enterName (files : FileSystem) (mode : Nat) : SocketName → Except IoError FileSystem
  | .abstract _ => .ok files
  | .path bytes =>
    match files.create bytes (.socket mode) with
    | .ok files => .ok files
    | .error cause => .error (if cause = .os 17 then .os 98 else cause)

/-- Listens at a path, with the socket file under a name. -/
def listenAs (net : Network) (path : Bytes) (kind : SocketKind) (mode : Nat)
    (refuses : ListenRefusals) (name : SocketName) : Except SocketError Nat × Network :=
  match clearStale net.files path refuses with
  | .error cause => (.error (.bind path cause), net)
  | .ok files =>
    match refuses .openSocket with
    | some cause => (.error (.bind path cause), { net with files := files })
    | none =>
      match unlessRefused (refuses .bind) (enterName files net.creationMode name) with
      | .error cause => (.error (.bind path cause), { net with files := files })
      | .ok files => net.answer path kind (publish files path mode refuses)

theorem enterSocket_eq_enterName (files : FileSystem) (address : SocketAddress) (mode : Nat) :
    enterSocket files address mode = enterName files mode address.name := rfl

/-- Listening goes by the name that is read from the address to make the file, and by the path
to find it. -/
theorem listen_eq_listenAs (hfits : path.length < addressCapacity) :
    net.listen path kind mode refuses =
      net.listenAs path kind mode refuses (.ofPath path) := by
  obtain ⟨address, haddress⟩ := SocketAddress.exists_ofPath hfits
  rw [listen, if_neg (Nat.not_le.mpr hfits), listenAs]
  cases clearStale net.files path refuses with
  | error cause => rfl
  | ok files =>
      dsimp only
      rw [haddress]
      cases refuses .openSocket with
      | some cause => rfl
      | none =>
          have henter : enterSocket files address net.creationMode =
              enterName files net.creationMode (.ofPath path) := by
            rw [enterSocket_eq_enterName, SocketAddress.name_eq haddress]
          rw [← henter]
          rfl

/-- Why a path that is not nameable is never found. -/
def refusalOf (bytes : Bytes) : IoError :=
  if bytes = [] then .os 2 else FileSystem.zeroByteInPath

theorem find_of_not_nameable (files : FileSystem) (follow : Bool) {bytes : Bytes}
    (hbytes : ¬ Nameable bytes) : files.find follow bytes = .error (refusalOf bytes) := by
  by_cases hempty : bytes = []
  · rw [hempty]
    rfl
  · have hzero : (0 : UInt8) ∈ bytes := by
      by_contra hzero
      exact hbytes ⟨hempty, hzero⟩
    rw [FileSystem.find, if_pos (List.contains_iff_mem.mpr hzero), refusalOf, if_neg hempty]

/-- Listening fails at such a path, after the file has been made that the name says. -/
theorem listen_of_not_nameable (hfits : path.length < addressCapacity)
    (hpath : ¬ Nameable path) :
    net.listen path kind mode =
      match enterName net.files net.creationMode (.ofPath path) with
      | .error cause => (.error (.bind path cause), net)
      | .ok files =>
        (.error (.bind path (refusalOf path)), { net with files := files }) := by
  have hfind := fun files follow => find_of_not_nameable files follow hpath
  have hclear : clearStale net.files path = .ok net.files := by
    rw [clearStale, hfind]
    rfl
  rw [listen_eq_listenAs hfits, listenAs, hclear]
  dsimp only [unlessRefused]
  cases enterName net.files net.creationMode (.ofPath path) with
  | error cause => rfl
  | ok files =>
      dsimp only [publish, unlessRefused, FileSystem.setMode]
      rw [hfind]
      rfl

/-- So nobody ever listens at such a path, whatever is refused. -/
theorem nameable_of_listen {number : Nat}
    (hlisten : (net.listen path kind mode refuses).1 = .ok number) : Nameable path := by
  by_contra hpath
  have hacceptable : ¬ FileSystem.Acceptable path := by
    intro hacceptable
    obtain ⟨hzero, hempty, -⟩ := hacceptable
    exact hpath ⟨hempty, fun hmem => by
      rw [List.contains_iff_mem.mpr hmem] at hzero
      exact absurd hzero (by decide)⟩
  by_cases hfits : path.length < addressCapacity
  · rw [listen_eq_listenAs hfits, listenAs] at hlisten
    split at hlisten
    · exact nomatch hlisten
    · split at hlisten
      · exact nomatch hlisten
      · split at hlisten
        · exact nomatch hlisten
        · next files _ =>
          obtain ⟨cause, hpublish⟩ := publish_of_not_acceptable files hacceptable mode refuses
          rw [hpublish] at hlisten
          exact nomatch hlisten
  · rw [listen_of_long (Nat.not_lt.mp hfits)] at hlisten
    exact nomatch hlisten

/-! ## The law of names -/

/-- What is read from the address of a path. -/
structure ReadBack (path : Bytes) : Prop where
  name_eq : ∀ address, SocketAddress.ofPath path = .ok address → address.name = .ofPath path
  /-- It is the path itself only without a zero byte, and a file's name only if something stands
  before the first one. -/
  exact_iff : SocketName.ofPath path = .path path ↔ Nameable path
  file_iff : ∀ given, SocketName.ofPath path = .path given ↔
    given ≠ [] ∧ path.takeWhile (· != 0) = given
  /-- Two nameable paths are never taken for each other, but others are for such a path. -/
  apart : ∀ other, Nameable path → Nameable other →
    SocketName.ofPath path = .ofPath other → path = other
  taken : Nameable path → ∀ rest, SocketName.ofPath (path ++ 0 :: rest) = .ofPath path
  others : ¬ Nameable path → (∃ bytes, SocketName.ofPath path = .abstract bytes) ∨
    ∃ front rest, Nameable front ∧ path = front ++ 0 :: rest

/-- What connecting to a path and listening at it do, in terms of the name that is read. -/
structure Follows (net : Network) (path : Bytes) (kind : SocketKind) (mode : Nat) : Prop where
  connects : ∀ way, net.wayTo path = .ok way →
    net.connect path kind = told path (net.connectName kind way.find (.ofPath way.given))
  listens : ∀ refuses, path.length < addressCapacity →
    net.listen path kind mode refuses = net.listenAs path kind mode refuses (.ofPath path)
  /-- Of a nameable path it is the path, also if it is replaced by a shorter one. -/
  faithful : Nameable path → ∀ way, net.wayTo path = .ok way →
    SocketName.ofPath way.given = .path way.given
  listens_nameable : ∀ refuses number, (net.listen path kind mode refuses).1 = .ok number →
    SocketName.ofPath path = .path path
  /-- Connecting to a path that is cut off comes to the same as connecting to what is left of it,
  and listening there makes a file and fails. -/
  cut : ∀ (front : Bytes) (rest : Bytes), Nameable front →
    path = front ++ 0 :: rest →
    path.length < addressCapacity →
      (∃ outcome, net.connect path kind = told path outcome ∧
        net.connect front kind = told front outcome) ∧
      (∀ files, enterName net.files net.creationMode (.path front) = .ok files →
        net.listen path kind mode =
          (.error (.bind path FileSystem.zeroByteInPath), { net with files := files }))
  /-- Where nothing is left, there is nobody to connect to, and listening fails. -/
  nothing : ∀ bytes, SocketName.ofPath path = .abstract bytes →
    path.length < addressCapacity →
      net.connect path kind = (.error (.connect path (.os 111)), net) ∧
      net.listen path kind mode =
        (.error (.bind path (refusalOf path)), net)

theorem readBack (path : Bytes) : ReadBack path where
  name_eq _ haddress := SocketAddress.name_eq haddress
  exact_iff := SocketName.ofPath_eq_self_iff
  file_iff _ := SocketName.ofPath_eq_path_iff
  apart other hpath hother hsame := by
    rw [SocketName.ofPath_eq_self_iff.mpr hpath, SocketName.ofPath_eq_self_iff.mpr hother] at hsame
    exact SocketName.path.inj hsame
  taken hpath rest := by
    rw [SocketName.ofPath_cut hpath, SocketName.ofPath_eq_self_iff.mpr hpath]
  others := SocketName.ofPath_of_not_nameable

/-- Connecting to a path that is cut off comes to the same as connecting to what is left. -/
theorem connect_of_cut {front : Bytes} {rest : Bytes} (hfront : Nameable front)
    (hcut : path = front ++ 0 :: rest)
    (hfits : path.length < addressCapacity) :
    ∃ outcome, net.connect path kind = told path outcome ∧
      net.connect front kind = told front outcome := by
  have hshorter : front.length < addressCapacity := by
    have hlength := congrArg List.length hcut
    rw [List.length_append] at hlength
    omega
  have hname : SocketName.ofPath path = .ofPath front := by
    rw [hcut]
    exact (readBack front).taken hfront rest
  refine ⟨_, connect_of_wayTo (wayTo_of_fits hfits), ?_⟩
  rw [connect_of_wayTo (wayTo_of_fits hshorter), hname]

theorem listen_of_cut {front : Bytes} {rest : Bytes} {files : FileSystem}
    (hfront : Nameable front)
    (hcut : path = front ++ 0 :: rest)
    (hfits : path.length < addressCapacity)
    (henter : enterName net.files net.creationMode (.path front) = .ok files) :
    net.listen path kind mode =
      (.error (.bind path FileSystem.zeroByteInPath), { net with files := files }) := by
  have hpath : ¬ Nameable path := by
    intro hpath
    apply hpath.no_zero
    rw [hcut]
    exact List.mem_append_right _ List.mem_cons_self
  have hne : path ≠ [] := by
    rw [hcut]
    exact List.append_ne_nil_of_right_ne_nil _ (List.cons_ne_nil _ _)
  have hname : SocketName.ofPath path = .path front := by
    rw [hcut]
    exact SocketName.ofPath_cut hfront rest
  rw [listen_of_not_nameable hfits hpath, hname, henter, refusalOf, if_neg hne]

theorem not_nameable_of_abstract {path bytes : Bytes}
    (hname : SocketName.ofPath path = .abstract bytes) : ¬ Nameable path := by
  intro hpath
  exact nomatch hname.symm.trans (SocketName.ofPath_eq_self_iff.mpr hpath)

theorem follows (net : Network) (path : Bytes) (kind : SocketKind) (mode : Nat) :
    net.Follows path kind mode where
  connects _ hway := connect_of_wayTo hway
  listens _ hfits := listen_eq_listenAs hfits
  faithful hpath _ hway := SocketName.ofPath_eq_self_iff.mpr (nameable_given hpath hway)
  listens_nameable _ _ hlisten := SocketName.ofPath_eq_self_iff.mpr (nameable_of_listen hlisten)
  cut _ _ hfront hcut hfits := ⟨connect_of_cut hfront hcut hfits, fun _ henter =>
    listen_of_cut hfront hcut hfits henter⟩
  nothing bytes hname hfits := by
    constructor
    · rw [connect_of_wayTo (wayTo_of_fits hfits), hname]
      rfl
    · rw [listen_of_not_nameable hfits (not_nameable_of_abstract hname), hname]
      rfl

/-- **An address says what comes before the first zero byte of its path**, and connecting and
listening act on that.  It is the path itself if there is no zero byte in it. -/
theorem names_followed (net : Network) (path : Bytes) (kind : SocketKind) (mode : Nat) :
    (∀ bytes : Bytes, ReadBack bytes) ∧ net.Follows path kind mode :=
  ⟨readBack, net.follows path kind mode⟩

/-- Listening at a path with a zero byte after its first letter fails, and leaves a socket file
behind that has this letter as its name. -/
example :
    (({} : Network).listen "t\x00x" .packet).1 =
        .error (.bind "t\x00x" FileSystem.zeroByteInPath) ∧
      (({} : Network).listen "t\x00x" .packet).2.files.hasEntry (Bytes.ofText "t") = true := by
  have henter : enterName FileSystem.empty ({} : Network).creationMode (.path (Bytes.ofText "t")) =
      .ok (FileSystem.empty.enter 1 (Bytes.ofText "t") (.socket 0o755)) := by cbv
  have hcut : Bytes.ofText "t\x00x" = Bytes.ofText "t" ++ 0 :: [0x78] := by decide
  rw [listen_of_cut ⟨by decide, by decide⟩ hcut (by decide) henter]
  exact ⟨rfl, by cbv⟩

end Network

end ContainerAttach
