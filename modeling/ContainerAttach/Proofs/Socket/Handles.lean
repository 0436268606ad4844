import ContainerAttach.Socket.HalfClose

/-!
# The handles of one socket

A socket can have any number of handles.  Each of them can be cloned, asked to close the
write direction or to shut the socket down, and asked whether the write direction is
closed.  The handles share one flag and one socket, so what a handle answers depends on
what was asked of all handles before.

A history is a list of calls, each through a handle that exists by then
(`HandleCall.Possible`).  `Handles.run?` makes the calls and keeps for each of them the
answer and what was requested of the operating system on the way.  `Entry.Follows` says
what one call may answer and request, given only whether an earlier call through any
handle has closed the write direction.

Every call of every history follows that rule (`Handles.run?_law`), however the operating
system answers.  In particular a history closes the write direction by itself at most
once, and nothing but the shutdowns that it requests ever reaches the socket.
-/

namespace ContainerAttach

/-! ## Histories -/

/-- What is asked of a handle. -/
inductive HandleOperation where
  /-- Make one more handle, unless the operating system refuses. -/
  | clone (refusal : Option IoError)
  | closeWrite
  | shutdown
  | isClosed
  deriving DecidableEq, Repr

/-- Whether the write direction is closed after the operation, whatever it answers. -/
def HandleOperation.closes : HandleOperation → Bool
  | .closeWrite | .shutdown => true
  | _ => false

/-- A call through one of the handles, which are numbered in the order in which they were
made. -/
structure HandleCall where
  handle : Nat
  operation : HandleOperation
  deriving DecidableEq, Repr

inductive HandleAnswer where
  | cloned (handle : Nat)
  | ended (result : Except SocketError Unit)
  | closed (isClosed : Bool)

/-- A shutdown that the operating system was asked for, and its answer. -/
structure ShutRequest where
  how : Shutdown
  reply : Except IoError Unit

/-- A call, its answer, and what it requested of the operating system. -/
structure Entry where
  call : HandleCall
  answer : HandleAnswer
  requests : List ShutRequest

/-- A socket and the number of its handles. -/
structure Handles (σ : Type) where
  guarded : Guarded σ
  count : Nat := 1

/-- A way to shut a socket down that also keeps what it is asked for. -/
def keeping {σ : Type} (shut : Shutdown → σ → Except IoError Unit × σ) (how : Shutdown)
    (state : σ × List ShutRequest) : Except IoError Unit × σ × List ShutRequest :=
  match shut how state.1 with
  | (reply, socket) => (reply, socket, state.2 ++ [⟨how, reply⟩])

namespace Handles

variable {σ : Type} (shut : Shutdown → σ → Except IoError Unit × σ)

/-- Runs an operation of the socket, with its requests kept from now on. -/
def ask (handles : Handles σ) (call : HandleCall)
    (operation : Guarded (σ × List ShutRequest) →
      Except SocketError Unit × Guarded (σ × List ShutRequest)) : Entry × Handles σ :=
  match operation ⟨(handles.guarded.socket, []), handles.guarded.closed⟩ with
  | (result, ⟨(socket, requests), closed⟩) =>
    (⟨call, .ended result, requests⟩, { handles with guarded := ⟨socket, closed⟩ })

/-- One call.  There is none through a handle that has not been made yet. -/
def call? (handles : Handles σ) (call : HandleCall) : Option (Entry × Handles σ) :=
  if call.handle < handles.count then
    match call.operation with
    | .clone none =>
      some (⟨call, .cloned handles.count, []⟩, { handles with count := handles.count + 1 })
    | .clone (some cause) => some (⟨call, .ended (.error (.io cause)), []⟩, handles)
    | .isClosed => some (⟨call, .closed handles.guarded.closed, []⟩, handles)
    | .closeWrite => some (handles.ask call (Guarded.closeWrite (keeping shut)))
    | .shutdown => some (handles.ask call (Guarded.shutdown (keeping shut)))
  else none

/-- The calls of a history, one after the other. -/
def run? (handles : Handles σ) : List HandleCall → Option (List Entry × Handles σ)
  | [] => some ([], handles)
  | call :: calls =>
    match handles.call? shut call with
    | none => none
    | some (entry, handles) =>
      (handles.run? calls).map fun rest => (entry :: rest.1, rest.2)

end Handles

/-! ## The rules -/

/-- What a handle makes of the answer of the operating system.  A socket that turns out not
to be connected counts as closed, and every other failure is returned. -/
inductive Reported (wrap : IoError → SocketError) :
    Except IoError Unit → Except SocketError Unit → Prop
  | done : Reported wrap (.ok ()) (.ok ())
  | notConnected {cause : IoError} (kind_eq : cause.kind = .notConnected) :
      Reported wrap (.error cause) (.ok ())
  | failed {cause : IoError} (kind_ne : cause.kind ≠ .notConnected) :
      Reported wrap (.error cause) (.error (wrap cause))

/-- What a call answers and requests, given whether the write direction has been closed
before it through any handle. -/
inductive Entry.Follows (closed : Bool) : Entry → Prop
  | cloned (handle made : Nat) : Follows closed ⟨⟨handle, .clone none⟩, .cloned made, []⟩
  | refused (handle : Nat) (cause : IoError) :
      Follows closed ⟨⟨handle, .clone (some cause)⟩, .ended (.error (.io cause)), []⟩
  | isClosed (handle : Nat) : Follows closed ⟨⟨handle, .isClosed⟩, .closed closed, []⟩
  | closesAgain (handle : Nat) (closed_eq : closed = true) :
      Follows closed ⟨⟨handle, .closeWrite⟩, .ended (.ok ()), []⟩
  | closes (handle : Nat) (closed_eq : closed = false) {reply : Except IoError Unit}
      {result : Except SocketError Unit} (reported : Reported .closeWrite reply result) :
      Follows closed ⟨⟨handle, .closeWrite⟩, .ended result, [⟨.write, reply⟩]⟩
  | shutsDown (handle : Nat) {reply : Except IoError Unit} {result : Except SocketError Unit}
      (reported : Reported .io reply result) :
      Follows closed ⟨⟨handle, .shutdown⟩, .ended result, [⟨.both, reply⟩]⟩

def Entry.closes (entry : Entry) : Bool :=
  entry.call.operation.closes

/-- Every call goes through a handle that has been made by then. -/
def HandleCall.Possible (calls : List HandleCall) : Prop :=
  ∀ index, ∀ hindex : index < calls.length,
    calls[index].handle <
      1 + ((calls.take index).map HandleCall.operation).count (.clone none)

/-- The shutdowns that some operations lead to, if the write direction has not been closed
before them: the write direction alone if they begin to close it in that way, and both for
each shutdown. -/
def requestsOf (operations : List HandleOperation) : List Shutdown :=
  (if operations.find? HandleOperation.closes = some .closeWrite then [.write] else []) ++
    List.replicate (operations.count .shutdown) .both

/-- The operating system's answers to some shutdowns, and the socket after them. -/
def shutAll {σ : Type} (shut : Shutdown → σ → Except IoError Unit × σ) (socket : σ) :
    List Shutdown → List ShutRequest × σ
  | [] => ([], socket)
  | how :: rest =>
    match shut how socket with
    | (reply, socket) =>
      match shutAll shut socket rest with
      | (requests, socket) => (⟨how, reply⟩ :: requests, socket)

/-- What holds of a history that begins with a new socket. -/
structure HandleLaw {σ : Type} (shut : Shutdown → σ → Except IoError Unit × σ) (socket : σ)
    (calls : List HandleCall) (entries : List Entry) (after : Handles σ) : Prop where
  /-- Every call is answered. -/
  calls_eq : entries.map Entry.call = calls
  /-- What it answers and requests depends on whether an earlier one has closed the write
  direction, through whatever handle. -/
  follows : ∀ earlier entry later, entries = earlier ++ entry :: later →
    entry.Follows (earlier.any Entry.closes)
  /-- The write direction alone is closed by the first call that closes it, if at all. -/
  requests_eq : (entries.flatMap Entry.requests).map ShutRequest.how =
    requestsOf (calls.map HandleCall.operation)
  write_once : ((entries.flatMap Entry.requests).map ShutRequest.how).count .write ≤ 1
  /-- Nothing but these requests has reached the socket. -/
  socket_eq : shutAll shut socket (requestsOf (calls.map HandleCall.operation)) =
    (entries.flatMap Entry.requests, after.guarded.socket)

/-! ## One call -/

theorem Guarded.reported_report (wrap : IoError → SocketError) (reply : Except IoError Unit) :
    Reported wrap reply (report wrap reply) := by
  cases reply with
  | ok => exact .done
  | error cause =>
      by_cases hkind : cause.kind = .notConnected
      · rw [report, if_pos hkind]
        exact .notConnected hkind
      · rw [report, if_neg hkind]
        exact .failed hkind

/-- The shutdowns that some operations lead to, given whether the write direction has been
closed before them. -/
def requestsFrom (closed : Bool) (operations : List HandleOperation) : List Shutdown :=
  if closed then List.replicate (operations.count .shutdown) .both else requestsOf operations

theorem count_write_requestsOf_le (operations : List HandleOperation) :
    (requestsOf operations).count .write ≤ 1 := by
  have hboth : (List.replicate (operations.count .shutdown) Shutdown.both).count .write = 0 :=
    List.count_eq_zero.mpr fun hmem => by simp at hmem
  rw [requestsOf, List.count_append, hboth, Nat.add_zero]
  split <;> simp

theorem requestsFrom_cons (closed : Bool) (operation : HandleOperation)
    (operations : List HandleOperation) :
    requestsFrom closed (operation :: operations) =
      (match operation with
        | .closeWrite => if closed then [] else [.write]
        | .shutdown => [.both]
        | _ => []) ++ requestsFrom (closed || operation.closes) operations := by
  cases closed <;> cases operation <;>
    simp [requestsFrom, requestsOf, HandleOperation.closes, List.replicate_succ]

namespace Handles

variable {σ : Type} {shut : Shutdown → σ → Except IoError Unit × σ} {handles after : Handles σ}
  {call : HandleCall} {entry : Entry}

/-- What one call does, to the flag and to the socket too. -/
theorem call?_follows (hcall : handles.call? shut call = some (entry, after)) :
    entry.call = call ∧ entry.Follows handles.guarded.closed ∧
      after.guarded.closed = (handles.guarded.closed || call.operation.closes) ∧
      shutAll shut handles.guarded.socket (entry.requests.map ShutRequest.how) =
        (entry.requests, after.guarded.socket) ∧
      entry.requests.map ShutRequest.how =
        (match call.operation with
          | .closeWrite => if handles.guarded.closed then [] else [.write]
          | .shutdown => [.both]
          | _ => []) := by
  obtain ⟨⟨socket, closed⟩, count⟩ := handles
  obtain ⟨handle, operation⟩ := call
  unfold call? at hcall
  split at hcall
  · cases operation with
    | clone refusal =>
        cases refusal with
        | none =>
            obtain ⟨rfl, rfl⟩ := Prod.mk.inj (Option.some.inj hcall)
            exact ⟨rfl, .cloned handle count, (Bool.or_false _).symm, rfl, rfl⟩
        | some cause =>
            obtain ⟨rfl, rfl⟩ := Prod.mk.inj (Option.some.inj hcall)
            exact ⟨rfl, .refused handle cause, (Bool.or_false _).symm, rfl, rfl⟩
    | isClosed =>
        obtain ⟨rfl, rfl⟩ := Prod.mk.inj (Option.some.inj hcall)
        exact ⟨rfl, .isClosed handle, (Bool.or_false _).symm, rfl, rfl⟩
    | closeWrite =>
        obtain ⟨rfl, rfl⟩ := Prod.mk.inj (Option.some.inj hcall)
        cases closed with
        | true => exact ⟨rfl, .closesAgain handle rfl, rfl, rfl, rfl⟩
        | false =>
            have hreported := Guarded.reported_report .closeWrite (shut .write socket).1
            exact ⟨rfl, .closes handle rfl hreported, rfl, rfl, rfl⟩
    | shutdown =>
        obtain ⟨rfl, rfl⟩ := Prod.mk.inj (Option.some.inj hcall)
        have hreported := Guarded.reported_report .io (shut .both socket).1
        exact ⟨rfl, .shutsDown handle hreported, (Bool.or_true _).symm, rfl, rfl⟩
  · exact absurd hcall (by simp)

/-- A call through a handle that has been made is answered, and a clone that is not refused
makes one more. -/
theorem exists_call? (shut : Shutdown → σ → Except IoError Unit × σ)
    (hhandle : call.handle < handles.count) :
    ∃ entry after, handles.call? shut call = some (entry, after) ∧
      after.count = handles.count + [call.operation].count (.clone none) := by
  obtain ⟨handle, operation⟩ := call
  unfold call?
  rw [if_pos hhandle]
  cases operation with
  | clone refusal => cases refusal <;> exact ⟨_, _, rfl, rfl⟩
  | isClosed | closeWrite | shutdown => exact ⟨_, _, rfl, rfl⟩

end Handles

/-! ## Whole histories -/

theorem shutAll_append {σ : Type} {shut : Shutdown → σ → Except IoError Unit × σ}
    {socket middle last : σ} {first second : List Shutdown} {replies more : List ShutRequest}
    (hfirst : shutAll shut socket first = (replies, middle))
    (hsecond : shutAll shut middle second = (more, last)) :
    shutAll shut socket (first ++ second) = (replies ++ more, last) := by
  induction first generalizing socket replies with
  | nil =>
      obtain ⟨rfl, rfl⟩ := Prod.mk.inj hfirst
      exact hsecond
  | cons how first ih =>
      rcases hrest : shutAll shut (shut how socket).2 first with ⟨rest, reached⟩
      simp only [shutAll, hrest] at hfirst
      obtain ⟨rfl, rfl⟩ := Prod.mk.inj hfirst
      simp only [List.cons_append, shutAll, ih hrest]

namespace Handles

variable {σ : Type} {shut : Shutdown → σ → Except IoError Unit × σ}

/-- The calls of a history that begins with the given handles can be made. -/
theorem exists_run? (shut : Shutdown → σ → Except IoError Unit × σ) (calls : List HandleCall) :
    ∀ handles : Handles σ,
      (∀ index, ∀ hindex : index < calls.length,
        calls[index].handle <
          handles.count + ((calls.take index).map HandleCall.operation).count (.clone none)) →
      ∃ entries after, handles.run? shut calls = some (entries, after) := by
  induction calls with
  | nil => exact fun handles _ => ⟨[], handles, rfl⟩
  | cons call calls ih =>
      intro handles hpossible
      have hfirst : call.handle < handles.count := hpossible 0 (Nat.succ_pos _)
      obtain ⟨entry, middle, hcall, hcount⟩ := exists_call? shut hfirst
      have hrest : ∀ index, ∀ hindex : index < calls.length,
          calls[index].handle <
            middle.count + ((calls.take index).map HandleCall.operation).count (.clone none) := by
        intro index hindex
        have hlater := hpossible (index + 1) (Nat.succ_lt_succ hindex)
        rw [hcount]
        simp only [List.getElem_cons_succ, List.take_succ_cons,
          List.map_cons, List.count_cons, List.count_nil] at hlater ⊢
        omega
      obtain ⟨entries, after, hrun⟩ := ih middle hrest
      exact ⟨entry :: entries, after, by simp only [run?, hcall, hrun, Option.map_some]⟩

/-- The law of a history, for handles of which the flag may be set already. -/
theorem run?_follows (calls : List HandleCall) :
    ∀ {handles after : Handles σ} {entries : List Entry},
      handles.run? shut calls = some (entries, after) →
      entries.map Entry.call = calls ∧
      (∀ earlier entry later, entries = earlier ++ entry :: later →
        entry.Follows (handles.guarded.closed || earlier.any Entry.closes)) ∧
      (entries.flatMap Entry.requests).map ShutRequest.how =
        requestsFrom handles.guarded.closed (calls.map HandleCall.operation) ∧
      shutAll shut handles.guarded.socket
          ((entries.flatMap Entry.requests).map ShutRequest.how) =
        (entries.flatMap Entry.requests, after.guarded.socket) := by
  induction calls with
  | nil =>
      intro handles after entries hrun
      obtain ⟨rfl, rfl⟩ := Prod.mk.inj (Option.some.inj hrun)
      refine ⟨rfl, by simp, ?_, rfl⟩
      cases hclosed : handles.guarded.closed <;> rfl
  | cons call calls ih =>
      intro handles after entries hrun
      simp only [run?] at hrun
      split at hrun
      · exact absurd hrun (by simp)
      next entry middle hcall =>
      obtain ⟨⟨rest, last⟩, hrest, hentries⟩ := Option.map_eq_some_iff.mp hrun
      obtain ⟨rfl, rfl⟩ := Prod.mk.inj hentries
      obtain ⟨rfl, hfollows, hclosed, hsocket, hrequests⟩ := call?_follows hcall
      obtain ⟨hcalls, hlater, hmore, hafter⟩ := ih hrest
      have hall : ((entry :: rest).flatMap Entry.requests).map ShutRequest.how =
          entry.requests.map ShutRequest.how ++
            (rest.flatMap Entry.requests).map ShutRequest.how := by
        rw [List.flatMap_cons, List.map_append]
      refine ⟨by rw [List.map_cons, hcalls], ?_, ?_, ?_⟩
      · intro earlier other later hsplit
        cases earlier with
        | nil =>
            obtain ⟨rfl, -⟩ := List.cons.inj hsplit
            simpa using hfollows
        | cons first earlier =>
            obtain ⟨rfl, htail⟩ := List.cons.inj hsplit
            have hother := hlater earlier other later htail
            rw [hclosed] at hother
            rw [List.any_cons, ← Bool.or_assoc]
            exact hother
      · rw [hall, hrequests, hmore, hclosed, List.map_cons, requestsFrom_cons]
      · rw [hall]
        exact shutAll_append hsocket hafter

/-- **The write direction is closed once.**  Whatever is asked of the handles of a new
socket, in any order and through any of them, and however the operating system answers,
every call is answered by the rules, and only the first one that closes the write
direction can close it alone. -/
theorem run?_law (shut : Shutdown → σ → Except IoError Unit × σ) (socket : σ)
    {calls : List HandleCall} (hpossible : HandleCall.Possible calls) :
    ∃ entries after, ({ guarded := { socket := socket } } : Handles σ).run? shut calls =
        some (entries, after) ∧
      HandleLaw shut socket calls entries after := by
  obtain ⟨entries, after, hrun⟩ :=
    exists_run? shut calls { guarded := { socket := socket } } hpossible
  obtain ⟨hcalls, hfollows, hrequests, hsocket⟩ := run?_follows calls hrun
  have hrequests : (entries.flatMap Entry.requests).map ShutRequest.how =
      requestsOf (calls.map HandleCall.operation) := hrequests
  refine ⟨entries, after, hrun, hcalls, ?_, hrequests, ?_, ?_⟩
  · simpa using hfollows
  · rw [hrequests]
    exact count_write_requestsOf_le _
  · rw [← hrequests]
    exact hsocket

/-- The first close fails and counts all the same: it is seen through every handle, no other
close reaches the socket, and a later shutdown finds the socket gone. -/
theorem run?_law_failing_close :
    let shut : Shutdown → Bool → Except IoError Unit × Bool := fun _ asked =>
      (.error (.os (if asked then 107 else 5)), true)
    let calls : List HandleCall :=
      [⟨0, .clone none⟩, ⟨1, .isClosed⟩, ⟨1, .closeWrite⟩, ⟨1, .clone none⟩, ⟨2, .isClosed⟩,
        ⟨0, .closeWrite⟩, ⟨2, .shutdown⟩, ⟨0, .isClosed⟩]
    let entries : List Entry :=
      [⟨⟨0, .clone none⟩, .cloned 1, []⟩,
        ⟨⟨1, .isClosed⟩, .closed false, []⟩,
        ⟨⟨1, .closeWrite⟩, .ended (.error (.closeWrite (.os 5))), [⟨.write, .error (.os 5)⟩]⟩,
        ⟨⟨1, .clone none⟩, .cloned 2, []⟩,
        ⟨⟨2, .isClosed⟩, .closed true, []⟩,
        ⟨⟨0, .closeWrite⟩, .ended (.ok ()), []⟩,
        ⟨⟨2, .shutdown⟩, .ended (.ok ()), [⟨.both, .error (.os 107)⟩]⟩,
        ⟨⟨0, .isClosed⟩, .closed true, []⟩]
    HandleCall.Possible calls ∧
      HandleLaw shut false calls entries { guarded := ⟨true, true⟩, count := 3 } := by
  intro shut calls entries
  have hpossible : HandleCall.Possible calls := by
    unfold HandleCall.Possible
    decide
  have hmade : ({ guarded := { socket := false } } : Handles Bool).run? shut calls =
      some (entries, { guarded := ⟨true, true⟩, count := 3 }) := rfl
  obtain ⟨entries', after, hrun, hlaw⟩ := run?_law shut false hpossible
  obtain ⟨rfl, rfl⟩ := Prod.mk.inj (Option.some.inj (hmade.symm.trans hrun))
  exact ⟨hpossible, hlaw⟩

end Handles

end ContainerAttach
