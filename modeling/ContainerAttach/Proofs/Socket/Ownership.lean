import ContainerAttach.Proofs.Socket.Listening

/-!
# Listeners destroy only what is theirs

Sockets are listened on and dropped in any order, at any paths, and others change the files in
between.  A listener owns its path while the path leads to the very socket that it made.  What
it knows of the socket is the number of its node; numbers are never used again, so no two
listeners know the same one (`Network.Sound`).

A listener that owns its path goes on to own it, unless it is dropped, or somebody else listens in
its place, or others take the socket away (`Network.Owns.happen`).  Another listener's end does not
matter, even if that one had the same path before.

The operating system may refuse any call in between.  A call to listen that has removed a socket
and is refused the rest has taken the place, although nobody owns it then.
-/

namespace ContainerAttach

namespace Network

open FileSystem

/-! ## Events -/

/-- What happens to the files and the listeners. -/
inductive ListenerEvent where
  | listen (path : Bytes) (kind : SocketKind) (mode : Nat)
      (refuses : ListenRefusals := fun _ => none)
  | drop (number : Nat) (refused : Bool := false)
  | outside (change : OutsideChange)

def happen (net : Network) : ListenerEvent → Network
  | .listen path kind mode refuses => (net.listen path kind mode refuses).2
  | .drop number refused => net.dropListener number refused
  | .outside change => { net with files := change.apply net.files }

def happenAll (net : Network) (events : List ListenerEvent) : Network :=
  events.foldl happen net

/-! ## Listeners by number -/

/-- The files are sound, and every listener has a socket of its own. -/
structure Sound (net : Network) : Prop where
  files : net.files.Sound
  number_lt : ∀ {number : Nat} {listener : Listener}, net.listener? number = some listener →
    number < net.nextListener
  socket : ∀ {number : Nat} {listener : Listener}, net.listener? number = some listener →
    net.files.isSocket listener.node = true
  distinct : ∀ {number other : Nat} {listener another : Listener},
    net.listener? number = some listener → net.listener? other = some another →
      listener.node = another.node → number = other

variable {net : Network} {path : Bytes} {kind : SocketKind} {number node : Nat}
variable {refuses : ListenRefusals}

theorem Sound.listener?_bound (hsound : net.Sound) (path : Bytes) (kind : SocketKind)
    (place : Place) (mode other : Nat) :
    (net.bound path kind place mode).listener? other =
      if other = net.nextListener then some ⟨kind, path, net.files.nodes.length, []⟩
      else net.listener? other := by
  have hsplit : (net.bound path kind place mode).listener? other =
      (net.listener? other).or (if net.nextListener = other then
        some ⟨kind, path, net.files.nodes.length, []⟩ else none) := by
    unfold listener? bound
    dsimp only
    rw [List.find?_append, Option.map_or]
    congr 1
    by_cases hother : net.nextListener = other <;> simp [hother]
  rw [hsplit]
  by_cases hother : other = net.nextListener
  · subst hother
    cases hlistener : net.listener? net.nextListener with
    | none => simp
    | some listener => exact absurd (hsound.number_lt hlistener) (Nat.lt_irrefl _)
  · rw [if_neg hother, if_neg (Ne.symm hother), Option.or_none]

theorem listener?_filter (net : Network) (connections : List Connection) (files : FileSystem)
    (number other : Nat) :
    listener?
        { net with
          connections
          files
          listeners := net.listeners.filter fun entry => entry.1 ≠ number } other =
      if other = number then none else net.listener? other := by
  unfold listener?
  dsimp only
  rw [List.find?_filter]
  by_cases hother : other = number
  · subst hother
    rw [if_pos rfl, Option.map_eq_none_iff, List.find?_eq_none]
    intro entry _
    simp
  · rw [if_neg hother]
    congr 2
    funext entry
    by_cases hentry : entry.1 = other
    · simp [hentry, hother]
    · simp [hentry]

/-! ## Soundness -/

theorem Sound.of_evolves (hsound : net.Sound) {files : FileSystem}
    (hevolves : net.files.Evolves files) : Sound { net with files } where
  files := hevolves.sound
  number_lt := hsound.number_lt
  socket hlistener := by
    have hsocket := hsound.socket hlistener
    exact (hevolves.isSocket_eq _ (lt_of_isSocket hsocket)).trans hsocket
  distinct := hsound.distinct

theorem Sound.bound (hsound : net.Sound) (path : Bytes) (kind : SocketKind) (place : Place)
    (mode : Nat) : (net.bound path kind place mode).Sound := by
  have hplaced : net.files.Placed (.socket mode) := trivial
  have hevolves := evolves_put hsound.files hplaced place
  -- the node of the new socket is past the nodes that the other listeners know
  have hfresh : ∀ {other : Nat} {listener : Listener}, net.listener? other = some listener →
      listener.node ≠ net.files.nodes.length := fun hlistener =>
    Nat.ne_of_lt (lt_of_isSocket (hsound.socket hlistener))
  refine ⟨hevolves.sound, ?_, ?_, ?_⟩
  · intro number listener hlistener
    rw [hsound.listener?_bound] at hlistener
    split at hlistener
    · next hnumber =>
      rw [hnumber]
      exact Nat.lt_succ_self _
    · exact Nat.lt_succ_of_lt (hsound.number_lt hlistener)
  · intro number listener hlistener
    rw [hsound.listener?_bound] at hlistener
    split at hlistener
    · obtain rfl := Option.some.inj hlistener
      exact isSocket_put ..
    · have hsocket := hsound.socket hlistener
      exact (hevolves.isSocket_eq _ (lt_of_isSocket hsocket)).trans hsocket
  · intro number other listener another hlistener hanother hsame
    rw [hsound.listener?_bound] at hlistener hanother
    split at hlistener
    · next hnumber =>
      obtain rfl := Option.some.inj hlistener
      split at hanother
      · next hother => exact hnumber.trans hother.symm
      · exact absurd hsame.symm (hfresh hanother)
    · split at hanother
      · obtain rfl := Option.some.inj hanother
        exact absurd hsame (hfresh hlistener)
      · exact hsound.distinct hlistener hanother hsame

theorem Sound.filter (hsound : net.Sound) {files : FileSystem} (hevolves : net.files.Evolves files)
    (connections : List Connection) (number : Nat) :
    Sound
      { net with
        connections
        files
        listeners := net.listeners.filter fun entry => entry.1 ≠ number } := by
  have hbefore : ∀ {other : Nat} {listener : Listener},
      listener?
        { net with
          connections
          files
          listeners := net.listeners.filter fun entry => entry.1 ≠ number } other =
        some listener → net.listener? other = some listener := by
    intro other listener hlistener
    rw [listener?_filter] at hlistener
    split at hlistener
    · exact nomatch hlistener
    · exact hlistener
  have hfiles := hsound.of_evolves hevolves
  exact ⟨hfiles.files, fun h => hfiles.number_lt (hbefore h), fun h => hfiles.socket (hbefore h),
    fun h h' => hfiles.distinct (hbefore h) (hbefore h')⟩

/-- Every event keeps a network sound. -/
theorem Sound.happen (hsound : net.Sound) (event : ListenerEvent) : (net.happen event).Sound := by
  cases event with
  | listen path kind mode refuses =>
      have hlistens := listens_listen hsound.files path kind mode refuses
      rw [Network.happen]
      generalize net.listen path kind mode refuses = result at hlistens
      cases hlistens with
      | fails cause => exact hsound
      | strays cause hidden vacant mode =>
          have hplaced : net.files.Placed (.socket mode) := trivial
          exact hsound.of_evolves (evolves_enter hsound.files hplaced _ _)
      | clears cause reaches plain node_eq socket refused =>
          exact hsound.of_evolves (evolves_removeEntry hsound.files _)
      | leaves cause reaches plain free mode refused =>
          have hplaced : net.files.Placed (.socket mode) := trivial
          exact hsound.of_evolves (evolves_put hsound.files hplaced _)
      | binds reaches plain free mode => exact hsound.bound path kind _ mode
  | drop number refused =>
      have hdrops := drops_dropListener hsound.files number refused
      rw [Network.happen]
      generalize net.dropListener number refused = after at hdrops
      cases hdrops with
      | absent absent => exact hsound
      | leaves listener_eq not_own connections =>
          exact hsound.filter (.refl hsound.files) connections _
      | removes listener_eq reaches plain node_eq socket connections =>
          exact hsound.filter (evolves_removeEntry hsound.files _) connections _
  | outside change => exact hsound.of_evolves (change.evolves hsound.files)

theorem Sound.happenAll (hsound : net.Sound) (events : List ListenerEvent) :
    (net.happenAll events).Sound := by
  induction events generalizing net with
  | nil => exact hsound
  | cons event events ih => exact ih (hsound.happen event)

/-- A listener stays what it was made as until it is dropped. -/
theorem Sound.listener?_happen (hsound : net.Sound) {listener : Listener}
    (hlistener : net.listener? number = some listener) {event : ListenerEvent}
    (hevent : ∀ refused, event ≠ .drop number refused) :
    (net.happen event).listener? number = some listener := by
  cases event with
  | listen path kind mode refuses =>
      have hlistens := listens_listen hsound.files path kind mode refuses
      rw [Network.happen]
      generalize net.listen path kind mode refuses = result at hlistens
      cases hlistens with
      | fails | strays | clears | leaves => exact hlistener
      | binds reaches plain free mode =>
          rw [hsound.listener?_bound, if_neg (Nat.ne_of_lt (hsound.number_lt hlistener))]
          exact hlistener
  | drop other refused =>
      have hother : number ≠ other := fun hsame => hevent refused (by rw [hsame])
      have hdrops := drops_dropListener hsound.files other refused
      rw [Network.happen]
      generalize net.dropListener other refused = after at hdrops
      cases hdrops with
      | absent absent => exact hlistener
      | leaves listener_eq not_own connections =>
          exact (listener?_filter net connections net.files other number).trans
            ((if_neg hother).trans hlistener)
      | @removes _ place listener_eq reaches plain node_eq socket connections =>
          exact (listener?_filter net connections (net.files.removeEntry place) other number).trans
            ((if_neg hother).trans hlistener)
  | outside change => exact hlistener

/-- A call to listen spares everything that is not a socket. -/
theorem spares_listen (hsound : net.files.Sound) (path : Bytes) (kind : SocketKind) (mode : Nat)
    (refuses : ListenRefusals) :
    net.files.Spares (net.listen path kind mode refuses).2.files := by
  have hlistens := listens_listen hsound path kind mode refuses
  generalize net.listen path kind mode refuses = result at hlistens
  cases hlistens with
  | fails cause => exact .refl _
  | strays cause hidden vacant mode => exact spares_enter vacant _
  | clears cause reaches plain node_eq socket refused =>
      exact spares_removeEntry (free_of_isSocket node_eq socket)
  | leaves cause reaches plain free mode refused => exact spares_put hsound free _
  | binds reaches plain free mode => exact spares_put hsound free _

theorem spares_dropListener (hsound : net.files.Sound) (number : Nat) (refused : Bool) :
    net.files.Spares (net.dropListener number refused).files := by
  have hdrops := drops_dropListener hsound number refused
  generalize net.dropListener number refused = after at hdrops
  cases hdrops with
  | absent absent => exact .refl _
  | leaves listener_eq not_own connections => exact .refl _
  | @removes _ place listener_eq reaches plain node_eq socket connections =>
      exact spares_removeEntry (free_of_isSocket node_eq socket)

/-- A call to listen takes no name away but that of a socket at the very end of its path. -/
theorem child?_listen (hsound : net.files.Sound) (path : Bytes) (kind : SocketKind) (mode : Nat)
    (refuses : ListenRefusals) {dir : Nat} {name : Bytes}
    (hchild : net.files.child? dir name = some node) :
    (net.listen path kind mode refuses).2.files.child? dir name = some node ∨
      net.files.isSocket node = true ∧ net.files.place path = .ok ⟨dir, name, false⟩ := by
  have hlistens := listens_listen hsound path kind mode refuses
  generalize net.listen path kind mode refuses = result at hlistens
  -- one name in one directory, and no slashes after it, are one place
  have htaken : ∀ {place : Place}, net.files.Reaches path place → Plain place →
      net.files.Free place → dir = place.dir ∧ name = place.name →
        net.files.isSocket node = true ∧ net.files.place path = .ok ⟨dir, name, false⟩ := by
    rintro place hreaches hplain hfree ⟨rfl, rfl⟩
    refine ⟨hfree node hchild, ?_⟩
    rw [place_of_reaches hreaches, ← hplain.not_slashed]
  cases hlistens with
  | fails cause => exact Or.inl hchild
  | @strays place cause hidden vacant mode =>
      dsimp only
      rw [child?_enter]
      split
      · next hsame =>
        obtain ⟨rfl, rfl⟩ := hsame
        exact nomatch vacant.symm.trans hchild
      · exact Or.inl hchild
  | @clears place _ cause reaches plain node_eq socket refused =>
      dsimp only
      rw [child?_removeEntry]
      split
      · next hsame =>
        exact Or.inr (htaken reaches plain (free_of_isSocket node_eq socket) hsame)
      · exact Or.inl hchild
  | @leaves place cause reaches plain free mode refused =>
      dsimp only
      rw [child?_put]
      split
      · next hsame => exact Or.inr (htaken reaches plain free hsame)
      · exact Or.inl hchild
  | @binds place reaches plain free mode =>
      unfold bound
      dsimp only
      rw [child?_put]
      split
      · next hsame => exact Or.inr (htaken reaches plain free hsame)
      · exact Or.inl hchild

/-- A path as long as an address, or longer, is not looked at. -/
theorem listen_of_long (hlength : addressCapacity ≤ path.length) (mode : Nat)
    (refuses : ListenRefusals) :
    net.listen path kind mode refuses =
      (.error (.pathTooLong path path.length addressCapacity), net) :=
  if_pos hlength

/-- A listener owns its path: the path leads to the very socket that it made. -/
structure Owns (net : Network) (number : Nat) (path : Bytes) (node : Nat) : Prop where
  listener : ∃ listener, net.listener? number = some listener ∧ listener.path = path ∧
    listener.node = node
  leads : net.files.find false path = .ok node

/-- The only name that goes when a listener is dropped is its own, and only if the listener
owns it. -/
theorem owns_of_dropListener (hsound : net.files.Sound) {refused : Bool} {dir : Nat}
    {name : Bytes}
    (hchanged :
      (net.dropListener number refused).files.child? dir name ≠ net.files.child? dir name) :
    ∃ path node, net.Owns number path node ∧ net.files.isSocket node = true ∧
      net.files.place path = .ok ⟨dir, name, false⟩ ∧
      net.files.child? dir name = some node ∧
      (net.dropListener number refused).files.child? dir name = none := by
  have hdrops := drops_dropListener hsound number refused
  generalize net.dropListener number refused = after at hdrops hchanged
  cases hdrops with
  | absent absent => exact absurd rfl hchanged
  | leaves listener_eq not_own connections => exact absurd rfl hchanged
  | @removes listener place listener_eq reaches plain node_eq socket connections =>
      dsimp only at hchanged ⊢
      rw [child?_removeEntry] at hchanged ⊢
      split at hchanged
      · next hsame =>
        obtain ⟨rfl, rfl⟩ := hsame
        have hplace := place_of_reaches reaches
        have hslashed := plain.not_slashed
        have hleads := (reaches.find_eq_ok_iff hslashed plain.not_dots).mpr node_eq
        refine ⟨listener.path, listener.node, ⟨⟨listener, listener_eq, rfl, rfl⟩, hleads⟩, socket,
          ?_, node_eq, if_pos ⟨rfl, rfl⟩⟩
        rw [hplace, ← hslashed]
      · exact absurd rfl hchanged

/-- A socket keeps its path as long as it keeps its name. -/
theorem find_of_spares {files after : FileSystem} {bytes : Bytes} (hsound : files.Sound)
    (hspares : files.Spares after) (hsocket : files.isSocket node = true)
    (hkept : ∀ place, files.Reaches bytes place → Plain place → files.nodeAt? place = some node →
      after.nodeAt? place = some node) (hfind : files.find false bytes = .ok node) :
    after.find false bytes = .ok node := by
  obtain ⟨place, hreaches, hslashed, hdots, hnode⟩ := (find_eq_socket_iff hsound hsocket).mp hfind
  have hafter := hreaches.of_spares hsound hspares
  exact (hafter.find_eq_ok_iff hslashed hdots).mpr (hkept place hreaches ⟨hslashed, hdots⟩ hnode)

/-- An event that does not take the path from the listener: the listener is not dropped, nobody
listens in its place, not even in vain, and the others leave the socket there. -/
def Harmless (net : Network) (number : Nat) (path : Bytes) (node : Nat) : ListenerEvent → Prop
  | .listen other kind mode refuses =>
    (net.listen other kind mode refuses).2.files = net.files ∨
      net.files.place other ≠ net.files.place path
  | .drop other _ => other ≠ number
  | .outside change => (change.apply net.files).find false path = .ok node

theorem Harmless.ne_drop {event : ListenerEvent} (hharmless : net.Harmless number path node event)
    (refused : Bool) : event ≠ .drop number refused := by
  rintro rfl
  exact hharmless rfl

/-- Somebody else listens. -/
theorem Sound.find_listen (hsound : net.Sound) (howns : net.Owns number path node)
    {other : Bytes} {mode : Nat}
    (hharmless : net.Harmless number path node (.listen other kind mode refuses)) :
    (net.listen other kind mode refuses).2.files.find false path = .ok node := by
  obtain ⟨⟨listener, hlistener, rfl, rfl⟩, hleads⟩ := howns
  refine find_of_spares hsound.files (spares_listen hsound.files other kind mode refuses)
    (hsound.socket hlistener) ?_ hleads
  intro place hreaches hplain hnode
  obtain hkept | ⟨-, hplace⟩ := child?_listen hsound.files other kind mode refuses hnode
  · exact hkept
  · obtain hsame | hother := hharmless
    · rw [hsame]
      exact hnode
    · rw [hplace, place_of_reaches hreaches, ← hplain.not_slashed] at hother
      exact absurd rfl hother

/-- Another listener is dropped: its socket is another one, whatever its path is. -/
theorem Sound.find_dropListener (hsound : net.Sound) (howns : net.Owns number path node)
    {refused : Bool} {other : Nat}
    (hother : other ≠ number) :
    (net.dropListener other refused).files.find false path = .ok node := by
  obtain ⟨⟨listener, hlistener, rfl, rfl⟩, hleads⟩ := howns
  refine find_of_spares hsound.files (spares_dropListener hsound.files other refused)
    (hsound.socket hlistener) ?_ hleads
  intro place hreaches hplain hnode
  -- a name that goes belongs to the listener that is dropped, and no two have the same socket
  refine Decidable.byContradiction fun hgone => ?_
  have hchanged : (net.dropListener other refused).files.child? place.dir place.name ≠
      net.files.child? place.dir place.name := fun hsame => hgone (hsame.trans hnode)
  obtain ⟨path, node, ⟨⟨another, hanother, -, rfl⟩, -⟩, -, -, hnode', -⟩ :=
    owns_of_dropListener hsound.files hchanged
  have hsame : another.node = listener.node := Option.some.inj (hnode'.symm.trans hnode)
  exact hother (hsound.distinct hanother hlistener hsame)

theorem Owns.happen (howns : net.Owns number path node) (hsound : net.Sound)
    {event : ListenerEvent} (hharmless : net.Harmless number path node event) :
    (net.happen event).Owns number path node := by
  obtain ⟨listener, hlistener, hpath, hnode⟩ := howns.listener
  refine ⟨⟨listener, hsound.listener?_happen hlistener hharmless.ne_drop, hpath, hnode⟩, ?_⟩
  cases event with
  | listen other kind mode refuses => exact hsound.find_listen howns hharmless
  | drop other refused => exact hsound.find_dropListener howns hharmless
  | outside change => exact hharmless

/-- None of the events takes the path from the listener. -/
def Undisturbed (number : Nat) (path : Bytes) (node : Nat) : Network → List ListenerEvent → Prop
  | _, [] => True
  | net, event :: events =>
    net.Harmless number path node event ∧ Undisturbed number path node (net.happen event) events

theorem Owns.happenAll {events : List ListenerEvent} (howns : net.Owns number path node)
    (hsound : net.Sound) (hevents : Undisturbed number path node net events) :
    (net.happenAll events).Owns number path node := by
  induction events generalizing net with
  | nil => exact howns
  | cons event events ih =>
      exact ih (howns.happen hsound hevents.1) (hsound.happen event) hevents.2

/-! ## The law -/

end Network

end ContainerAttach
