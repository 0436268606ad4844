import ContainerAttach.Proofs.Socket.Ownership
import ContainerAttach.Proofs.Socket.Routes

/-!
# What is put into an address

An address has room for 107 bytes and a closing zero.  Making one of a longer path fails, but
neither connecting nor listening ever comes to that: a path is put into an address as it stands
only if it fits, and a path that does not fit is replaced by one that is measured in its turn.

Connecting is taken apart for this into its two halves.  `Network.wayTo` says which bytes are put
into an address and how they are looked up, or why there is no way; `Network.connectWith` goes
that way with an address made by a function that is left open.  The function may do what it likes
with a path that does not fit, and connecting still comes to the same
(`Network.connectWith_eq_connect`).  Listening is treated alike.

So a path is too long exactly where there is no way to it, and `Network.addresses_within` says
which paths these are.
-/

namespace ContainerAttach

/-! ## Addresses -/

/-- An address has the path in its field and a zero byte behind it, and its length does not go
beyond the end of the field. -/
structure SocketAddress.Holds (address : SocketAddress) (path : Bytes) : Prop where
  field_length : address.field.length = addressCapacity
  take_field : address.field.take path.length = path
  closed : address.field[path.length]? = some 0
  length_eq : address.length = pathOffset + path.length + 1
  length_le : address.length ≤ pathOffset + addressCapacity

/-- A path that is shorter than the field has an address that holds it. -/
theorem SocketAddress.exists_holds {path : Bytes} (hfits : path.length < addressCapacity) :
    ∃ address, ofPath path = .ok address ∧ address.Holds path := by
  refine ⟨_, if_neg (Nat.not_le.mpr hfits), ?_, ?_, ?_, rfl, ?_⟩
  · rw [List.length_append, List.length_replicate]
    omega
  · exact List.take_left
  · rw [List.getElem?_append_right (Nat.le_refl _), Nat.sub_self,
      List.getElem?_replicate_of_lt (Nat.sub_pos_of_lt hfits)]
  · dsimp only
    omega

/-- The longest path takes the whole field, with its closing zero. -/
example : (SocketAddress.ofPath (List.replicate 107 0x61)).toOption.map SocketAddress.length =
    some (SocketAddress.pathOffset + addressCapacity) := by
  decide

/-- A function that makes the address of every path that fits into one. -/
def MakesAddresses (make : Bytes → Except IoError SocketAddress) : Prop :=
  ∀ path : Bytes, path.length < addressCapacity → make path = SocketAddress.ofPath path

namespace Network

variable {net : Network} {path : Bytes} {kind : SocketKind} {mode : Nat}
  {refuses : ListenRefusals} {make : Bytes → Except IoError SocketAddress}

/-! ## The way to a path -/

/-- The bytes that are put into an address, and how what they name is found. -/
structure Way where
  given : Bytes
  find : Bytes → Except IoError Nat

/-- The way to a path: along the path itself if it fits into an address, and otherwise by way of
its directory, if the name in it does. -/
def wayTo (net : Network) (path : Bytes) : Except RouteError Way :=
  if path.length < addressCapacity then .ok ⟨path, net.files.resolve true⟩
  else
    match Path.fileName? path with
    | none => .error .unsupported
    | some name =>
      match net.files.openNode (directoryOf path) with
      | .error cause => .error (.io cause)
      | .ok dir =>
        let short := descriptorPath net.descriptor ++ name
        if short.length < addressCapacity then
          .ok ⟨short, findThrough net.files dir net.descriptor⟩
        else .error .unsupported

/-- There is no way to a path that does not fit, if it has no plain name at its end, or if the
name does not fit although the directory can be opened. -/
def NoWay (net : Network) (path : Bytes) : Prop :=
  addressCapacity ≤ path.length ∧
    (Path.fileName? path = none ∨
      ∃ name dir, Path.fileName? path = some name ∧
        net.files.openNode (directoryOf path) = .ok dir ∧
        addressCapacity ≤ (descriptorPath net.descriptor ++ name).length)

theorem given_fits {bytes : Bytes} {way : Way} (hway : net.wayTo bytes = .ok way) :
    way.given.length < addressCapacity := by
  unfold wayTo at hway
  split at hway
  · next hfits =>
    obtain rfl := Except.ok.inj hway
    exact hfits
  · split at hway
    · exact nomatch hway
    · split at hway
      · exact nomatch hway
      · dsimp only at hway
        split at hway
        · next hfits =>
          obtain rfl := Except.ok.inj hway
          exact hfits
        · exact nomatch hway

theorem wayTo_eq_unsupported_iff {bytes : Bytes} :
    net.wayTo bytes = .error .unsupported ↔ net.NoWay bytes := by
  unfold wayTo NoWay
  split
  · next hfits => simp [Nat.not_le.mpr hfits]
  · next hlong =>
    split
    · next hname => simp [Nat.not_lt.mp hlong, hname]
    · next name hname =>
      split
      · next cause hopen => simp [hname, hopen]
      · next dir hopen =>
        dsimp only
        split
        · next hfits => simp [hname, hopen, Nat.not_le.mpr hfits, -List.length_append]
        · next hshort =>
          simp [Nat.not_lt.mp hlong, hname, hopen, Nat.not_lt.mp hshort, -List.length_append]

/-- Slashes alone have no name at their end. -/
example : ({} : Network).NoWay (List.replicate 108 0x2f) :=
  ⟨by decide, Or.inl (by decide +kernel)⟩

/-! ## Connecting -/

/-- What the caller is told if there is no way, or no connection at its end. -/
def RouteError.told (path : Bytes) : RouteError → SocketError
  | .unsupported => .pathTooLong path path.length addressCapacity
  | .io cause => .connect path cause

/-- Connects to a path, with a function that makes the address. -/
def connectWith (make : Bytes → Except IoError SocketAddress) (net : Network) (path : Bytes)
    (kind : SocketKind) : Except SocketError Handle × Network :=
  match net.wayTo path with
  | .error error => (.error (error.told path), net)
  | .ok way =>
    match make way.given with
    | .error cause => (.error (.connect path cause), net)
    | .ok address => told path (net.connectAddress kind way.find address)

theorem connect_eq_connectWith :
    net.connect path kind = connectWith SocketAddress.ofPath net path kind := by
  unfold connect connectWith wayTo
  dsimp only
  by_cases hfits : path.length < addressCapacity
  · rw [if_neg (Nat.not_le.mpr hfits), if_pos hfits]
    dsimp only
    cases SocketAddress.ofPath path with
    | error cause => rfl
    | ok address =>
        dsimp only
        generalize net.connectAddress kind _ address = outcome
        obtain ⟨_ | _, after⟩ := outcome <;> rfl
  · rw [if_pos (Nat.not_lt.mp hfits), if_neg hfits]
    unfold connectByDirectory
    cases Path.fileName? path with
    | none => rfl
    | some name =>
        dsimp only
        cases net.files.openNode (directoryOf path) with
        | error cause => rfl
        | ok dir =>
            dsimp only
            by_cases hshort : (descriptorPath net.descriptor ++ name).length < addressCapacity
            · rw [if_neg (Nat.not_le.mpr hshort), if_pos hshort]
              dsimp only
              cases SocketAddress.ofPath (descriptorPath net.descriptor ++ name) with
              | error cause => rfl
              | ok address =>
                  dsimp only
                  generalize net.connectAddress kind _ address = outcome
                  obtain ⟨_ | _, after⟩ := outcome <;> rfl
            · rw [if_pos (Nat.not_lt.mp hshort), if_neg hshort]
              rfl

/-- Connecting never asks for the address of a path that does not fit. -/
theorem connectWith_eq_connect (hmake : MakesAddresses make) :
    connectWith make net path kind = net.connect path kind := by
  rw [connect_eq_connectWith, connectWith, connectWith]
  cases hway : net.wayTo path with
  | error error => rfl
  | ok way =>
      dsimp only
      rw [hmake _ (given_fits hway)]

theorem connect_of_no_way (hnoway : net.NoWay path) :
    net.connect path kind =
      (.error (.pathTooLong path path.length addressCapacity), net) := by
  rw [connect_eq_connectWith, connectWith, wayTo_eq_unsupported_iff.mpr hnoway]
  rfl

/-- What goes wrong on a way, and why there may be none but for the length of the path, is told
as a connection that could not be made. -/
theorem connect_of_way (kind : SocketKind) (hway : ¬ net.NoWay path) :
    ∃ outcome, net.connect path kind = told path outcome := by
  rw [← wayTo_eq_unsupported_iff] at hway
  rw [connect_eq_connectWith, connectWith]
  cases hto : net.wayTo path with
  | error error =>
      cases error with
      | unsupported => exact absurd hto hway
      | io cause => exact ⟨(.error cause, net), rfl⟩
  | ok way =>
      dsimp only
      cases SocketAddress.ofPath way.given with
      | error cause => exact ⟨(.error cause, net), rfl⟩
      | ok address => exact ⟨_, rfl⟩

theorem error_of_told {outcome : Except IoError Handle × Network} {error : SocketError}
    (htold : (told path outcome).1 = .error error) : ∃ cause, error = .connect path cause := by
  obtain ⟨_ | _, after⟩ := outcome
  · exact ⟨_, (Except.error.inj htold).symm⟩
  · exact nomatch htold

/-! ## Listening -/

/-- Enters a socket at an address, and listens there. -/
def bindAt (net : Network) (path : Bytes) (kind : SocketKind) (mode : Nat)
    (refuses : ListenRefusals) (address : SocketAddress) : Except SocketError Nat × Network :=
  match unlessRefused (refuses .bind) (enterSocket net.files address net.creationMode) with
  | .error cause => (.error (.bind path cause), net)
  | .ok files => net.answer path kind (publish files path mode refuses)

/-- Listens at a path, with a function that makes the address. -/
def listenWith (make : Bytes → Except IoError SocketAddress) (net : Network) (path : Bytes)
    (kind : SocketKind) (mode : Nat) (refuses : ListenRefusals) :
    Except SocketError Nat × Network :=
  if addressCapacity ≤ path.length then
    (.error (.pathTooLong path path.length addressCapacity), net)
  else
    match clearStale net.files path refuses with
    | .error cause => (.error (.bind path cause), net)
    | .ok files =>
      match unlessRefused (refuses .openSocket) (make path) with
      | .error cause => (.error (.bind path cause), { net with files := files })
      | .ok address => bindAt { net with files := files } path kind mode refuses address

theorem answer_files (files : FileSystem) (outcome : Except IoError Nat × FileSystem) :
    answer { net with files } path kind outcome = net.answer path kind outcome := by
  obtain ⟨_ | _, after⟩ := outcome <;> rfl

theorem listen_eq_listenWith :
    net.listen path kind mode refuses =
      listenWith SocketAddress.ofPath net path kind mode refuses := by
  simp only [listen, listenWith, bindAt, answer_files]
  rfl

/-- Listening never asks for the address of a path that does not fit. -/
theorem listenWith_eq_listen (hmake : MakesAddresses make) :
    listenWith make net path kind mode refuses = net.listen path kind mode refuses := by
  rw [listen_eq_listenWith, listenWith, listenWith]
  split
  · rfl
  · next hlength => rw [hmake _ (Nat.not_le.mp hlength)]

theorem error_of_answer {outcome : Except IoError Nat × FileSystem} {error : SocketError}
    (hanswer : (net.answer path kind outcome).1 = .error error) :
    ∃ cause, error = .bind path cause := by
  obtain ⟨_ | _, after⟩ := outcome
  · exact ⟨_, (Except.error.inj hanswer).symm⟩
  · exact nomatch hanswer

theorem error_of_bindAt {address : SocketAddress} {error : SocketError}
    (hbind : (net.bindAt path kind mode refuses address).1 = .error error) :
    ∃ cause, error = .bind path cause := by
  unfold bindAt at hbind
  split at hbind
  · exact ⟨_, (Except.error.inj hbind).symm⟩
  · exact error_of_answer hbind

/-- What goes wrong with a path that fits is told as a socket that could not be bound. -/
theorem error_of_listen (hfits : path.length < addressCapacity)
    {error : SocketError} (hlisten : (net.listen path kind mode refuses).1 = .error error) :
    ∃ cause, error = .bind path cause := by
  rw [listen_eq_listenWith, listenWith, if_neg (Nat.not_le.mpr hfits)] at hlisten
  split at hlisten
  · exact ⟨_, (Except.error.inj hlisten).symm⟩
  · split at hlisten
    · exact ⟨_, (Except.error.inj hlisten).symm⟩
    · exact error_of_bindAt hlisten

/-! ## The limit -/

/-- What the size of an address means for connecting to a path. -/
structure ConnectsWithin (net : Network) (path : Bytes) (kind : SocketKind) : Prop where
  /-- What would be made of a path that does not fit makes no difference. -/
  indifferent : ∀ make, MakesAddresses make →
    connectWith make net path kind = net.connect path kind
  /-- What is put into an address fits, and the address holds it. -/
  holds : ∀ way, net.wayTo path = .ok way →
    ∃ address, SocketAddress.ofPath way.given = .ok address ∧ address.Holds way.given
  tooLong_iff : (∃ shown length limit,
      (net.connect path kind).1 = .error (.pathTooLong shown length limit)) ↔
    net.NoWay path
  /-- Every error is told under the path that was given, and with the true lengths. -/
  told : ∀ error, (net.connect path kind).1 = .error error →
    error = .pathTooLong path path.length addressCapacity ∨
      ∃ cause, error = .connect path cause

/-- What the size of an address means for listening at a path, whatever is refused meanwhile. -/
structure ListensWithin (net : Network) (path : Bytes) (kind : SocketKind) (mode : Nat) :
    Prop where
  /-- What would be made of a path that does not fit makes no difference. -/
  indifferent : ∀ make refuses, MakesAddresses make →
    listenWith make net path kind mode refuses = net.listen path kind mode refuses
  /-- A path that is put into an address fits, and the address holds it. -/
  holds : path.length < addressCapacity →
    ∃ address, SocketAddress.ofPath path = .ok address ∧
      address.Holds path
  tooLong_iff : ∀ refuses, (∃ shown length limit,
      (net.listen path kind mode refuses).1 = .error (.pathTooLong shown length limit)) ↔
    addressCapacity ≤ path.length
  /-- A path that does not fit is rejected whatever the files are, and nothing is changed. -/
  rejects : ∀ refuses, addressCapacity ≤ path.length →
    net.listen path kind mode refuses =
      (.error (.pathTooLong path path.length addressCapacity), net)

theorem connectsWithin (net : Network) (path : Bytes) (kind : SocketKind) :
    net.ConnectsWithin path kind where
  indifferent _ hmake := connectWith_eq_connect hmake
  holds _ hway := SocketAddress.exists_holds (given_fits hway)
  tooLong_iff := by
    constructor
    · rintro ⟨shown, length, limit, hlong⟩
      by_contra hway
      obtain ⟨outcome, houtcome⟩ := connect_of_way kind hway
      rw [houtcome] at hlong
      obtain ⟨cause, hcause⟩ := error_of_told hlong
      exact nomatch hcause
    · intro hnoway
      exact ⟨_, _, _, congrArg Prod.fst (connect_of_no_way hnoway)⟩
  told error herror := by
    by_cases hway : net.NoWay path
    · rw [connect_of_no_way hway] at herror
      exact Or.inl (Except.error.inj herror).symm
    · obtain ⟨outcome, houtcome⟩ := connect_of_way kind hway
      rw [houtcome] at herror
      exact Or.inr (error_of_told herror)

theorem listensWithin (net : Network) (path : Bytes) (kind : SocketKind) (mode : Nat) :
    net.ListensWithin path kind mode where
  indifferent _ _ hmake := listenWith_eq_listen hmake
  holds := SocketAddress.exists_holds
  tooLong_iff refuses := by
    constructor
    · rintro ⟨shown, length, limit, hlong⟩
      by_contra hfits
      obtain ⟨cause, hcause⟩ := error_of_listen (Nat.not_le.mp hfits) hlong
      exact nomatch hcause
    · intro hlong
      exact ⟨_, _, _, congrArg Prod.fst (listen_of_long hlong mode refuses)⟩
  rejects refuses hlong := listen_of_long hlong mode refuses

/-- **No path is put into an address that it does not fit into**, whether to connect or to listen.
A path is reported as too long, with its length and the limit, where it does not fit and there is
no shorter way to say it; listening looks for no other way. -/
theorem addresses_within (net : Network) (path : Bytes) (kind : SocketKind) (mode : Nat) :
    net.ConnectsWithin path kind ∧ net.ListensWithin path kind mode :=
  ⟨net.connectsWithin path kind, net.listensWithin path kind mode⟩

end Network

end ContainerAttach
