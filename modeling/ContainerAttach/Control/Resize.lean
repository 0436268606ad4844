import ContainerAttach.Control.Request

/-!
# Resizing

The size of the user's terminal travels in two steps.  A watch reads the size
once at the start and once more after each signal that it has changed, and passes
every successful reading on.  A notifier makes one request of each size that it is
passed.  Sizes are advisory: a reading or a request that fails is forgotten, and
the next one is made as if nothing had happened.
-/

namespace ContainerAttach

/-! ## The notifier -/

/-- What a notifier has done. -/
structure ResizeLog where
  requests : List WindowSizeRequest := []
  events : Nat := 0
  failures : Nat := 0
  deriving DecidableEq, Repr

namespace ResizeLog

/-- One size: one request, whether or not it fails.  Requests are numbered from zero. -/
def notify (id : String) (fails : Nat → Bool) (log : ResizeLog) (size : TerminalSize) :
    ResizeLog :=
  { requests := log.requests ++ [⟨id, size⟩]
    events := log.events + 1
    failures := if fails log.requests.length then log.failures + 1 else log.failures }

/-- What a notifier does with a sequence of sizes. -/
def ofSizes (id : String) (fails : Nat → Bool) (sizes : List TerminalSize) : ResizeLog :=
  sizes.foldl (notify id fails) {}

theorem ofSizes_concat (id : String) (fails : Nat → Bool) (sizes : List TerminalSize)
    (size : TerminalSize) :
    ofSizes id fails (sizes ++ [size]) = (ofSizes id fails sizes).notify id fails size := by
  rw [ofSizes, List.foldl_append]
  rfl

theorem requests_ofSizes (id : String) (fails : Nat → Bool)
    (sizes : List TerminalSize) :
    (ofSizes id fails sizes).requests = sizes.map fun size => ⟨id, size⟩ := by
  have hlater : ∀ log : ResizeLog, (sizes.foldl (notify id fails) log).requests =
      log.requests ++ sizes.map fun size => ⟨id, size⟩ := by
    induction sizes with
    | nil => exact fun log => (List.append_nil _).symm
    | cons size sizes ih =>
        intro log
        rw [List.foldl_cons, ih, List.map_cons]
        exact List.append_assoc log.requests [_] _
  exact hlater {}

end ResizeLog

/-! ## The watch -/

/-- What happens around a watch. -/
inductive WatchEvent where
  /-- The size is read, or reading it fails. -/
  | reading (size : Option TerminalSize)
  /-- Whoever was passed the sizes is gone. -/
  | listenerGone
  | stop
  deriving DecidableEq, Repr

/-- A watch, and the sizes that it has passed on. -/
structure SizeWatch where
  running : Bool := true
  listening : Bool := true
  sent : List TerminalSize := []
  deriving DecidableEq, Repr

namespace SizeWatch

/-- One event.  A size that nobody wants ends the watch; a failed reading does nothing. -/
def step (watch : SizeWatch) : WatchEvent → SizeWatch
  | .reading none => watch
  | .reading (some size) =>
    if watch.running then
      if watch.listening then { watch with sent := watch.sent ++ [size] }
      else { watch with running := false }
    else watch
  | .listenerGone => { watch with listening := false }
  | .stop => { watch with running := false }

def run (watch : SizeWatch) (events : List WatchEvent) : SizeWatch :=
  events.foldl step watch

/-- The sizes that a watch passes on, from the readings it makes. -/
def sizes (readings : List (Option TerminalSize)) : List TerminalSize :=
  (({} : SizeWatch).run (readings.map .reading)).sent

end SizeWatch

end ContainerAttach
