import Mathlib.Logic.Relation
import Myio.Uv.Code

/-!
The moves the calls and callbacks of the libuv backend are made of.

A connect whose lookup is taken back, or whose socket is closed during the lookup, does not end as
the others do. Where `p` holds, a run may have such connects, and nothing is said about how tasks end.
-/

namespace Myio.Uv

open Function (update)

/-- A task record with nothing under way yet. -/
structure Fresh (k : Task) : Prop where
  done : k.done = false
  res : k.res = rPending
  req : k.req = .none
  ticking : k.ticking = false
  stopped : k.stopped = false
  connecting : k.connecting = false

/-- Two records of a task that differ in what only its memory and its timer are about. -/
structure Alike (k k' : Task) : Prop where
  kind : k'.kind = k.kind
  done : k'.done = k.done
  res : k'.res = k.res
  sock : k'.sock = k.sock
  connecting : k'.connecting = k.connecting
  req : k'.req = k.req
  stopped : k'.stopped = k.stopped
  ticking : k'.ticking = true → k.ticking = true

/-- The end of a task: its record before and after. -/
structure Ended (k k' : Task) : Prop where
  kind : k'.kind = k.kind
  done : k'.done = true
  req : k'.req = .none
  ticking : k'.ticking = false
  stays : k.stopped = true → k'.stopped = true

/-- A task ends without winning a socket, and is canceled iff it was stopped. -/
structure EndedBare (p : Prop) (k k' : Task) : Prop extends Ended k k' where
  sock : k'.sock = k.sock
  ptr : k'.res.ptr = none
  truth : p ∨ (k'.res.status = .canceled ↔ k'.stopped = true)

/-- A task ends with a socket. -/
structure EndedWith (p : Prop) (k k' : Task) (c : SockId) : Prop extends Ended k k' where
  sock : k'.sock = k.sock
  ptr : k'.res.ptr = some c
  status : k'.res.status = .ok
  stopped : p ∨ k'.stopped = false

namespace Io

/-- Writes a whole task record. -/
def setTask (io : Io) (t : TaskId) (k : Task) : Io := { io with task := update io.task t k }

/-- A change of nothing that the books are kept of. -/
structure Aside (io io' : Io) : Prop where
  ntask : io'.ntask = io.ntask
  nsock : io'.nsock = io.nsock
  task : ∀ t, Alike (io.task t) (io'.task t)
  made : ∀ t, io.ntask ≤ t → io'.task t = io.task t
  sock : ∀ s, io'.sock s = { io.sock s with reading := (io'.sock s).reading }
  opened : ∀ s, io.nsock ≤ s → io'.sock s = io.sock s
  claimed : ∀ s, io'.claimed s = true → io.claimed s = true
  held : ∀ t, io'.held t = true → io.held t = true

/-- The sockets that a `sock_close` closes, and the listener's books after it. -/
def shut (io : Io) (s : SockId) : Io :=
  let closes : SockId → Bool := fun c => c = s || c ∈ (io.sock s).pending
  { io with
    sock := fun c =>
      let k := if c = s then { io.sock s with pending := [], dropped := (io.sock s).dropped ++ (io.sock s).pending }
        else io.sock c
      if closes c && !k.closing then { k with closing := true, listening := false, reading := false } else k
    task := fun t =>
      if (io.task t).kind = .connect && (io.task t).req ≠ .none &&
          ((io.task t).sock.any fun c => closes c && !(io.sock c).closing)
      then { io.task t with stopped := true } else io.task t }

/-- A connect is in its lookup. -/
def lookingUp (io : Io) (t : TaskId) : Bool :=
  (io.task t).kind = .connect && !(io.task t).done && !(io.task t).connecting

inductive Move (p : Prop) : Io → Io → Prop
  | aside {io io'} (aside : Aside io io') : Move p io io'
  /-- A task is made that stands in no slot. -/
  | make {io} (k : Task) (fresh : Fresh k) (kind : k.kind ≠ .connect ∧ k.kind ≠ .accept ∧ k.kind ≠ .sockRead)
      (given : ∀ s, k.sock = some s → io.claimed s = true) : Move p io (io.taskNew k)
  | failed {io} (kind : Kind) (err : Int) (notConnect : kind ≠ .connect) :
      Move p io (io.taskNewFailed kind err)
  /-- The caller learns a socket. -/
  | claim {io} (t : TaskId) (s : SockId) (won : (io.task t).res.ptr = some s) :
      Move p io { io with claimed := update io.claimed s true }
  /-- A socket is made that nobody knows. -/
  | bare {io} : Move p io io.sockNew
  | listen {io} : Move p io { io.sockNew.modSock io.nsock ({ · with listening := true }) with
      claimed := update io.claimed io.nsock true }
  /-- A connect is made together with its socket. -/
  | lookup {io} : Move p io (io.taskNew { kind := .connect, sock := some io.nsock, req := .queued }).sockNew
  | waitRead {io} (s : SockId) (k : Task) (fresh : Fresh k) (kind : k.kind = .sockRead)
      (on : k.sock = some s) (given : io.claimed s = true) (free : (io.sock s).readTask = none) :
      Move p io ((io.taskNew k).modSock s ({ · with readTask := some io.ntask }))
  | waitAccept {io} (s : SockId) (given : io.claimed s = true) (free : (io.sock s).acceptTask = none)
      (empty : (io.sock s).pending = []) :
      Move p io ((io.taskNew { kind := .accept, sock := some s }).modSock s
        ({ · with acceptTask := some io.ntask }))
  /-- An accept is made and gets the connection parked first. -/
  | serve {io} (s c : SockId) (rest : List SockId) (k : Task)
      (ended : EndedWith p { kind := .accept, sock := some s } k c) (given : io.claimed s = true)
      (free : (io.sock s).acceptTask = none) (parked : (io.sock s).pending = c :: rest) :
      Move p io ((io.taskNew k).modSock s fun q =>
        { q with pending := rest, handed := q.handed ++ [(io.ntask, c)] })
  /-- A request is submitted. -/
  | request {io} (t : TaskId) (req : Req) (made : t < io.ntask) (before : (io.task t).done = false)
      (kind : ((io.task t).kind = .fs ∨ (io.task t).kind = .spawn) ∧ req = .queued ∨
        (io.task t).kind = .sockWrite ∧ req = .onHandle)
      (unstopped : (io.task t).stopped = false) : Move p io (io.modTask t ({ · with req }))
  | tick {io} (t : TaskId) (made : t < io.ntask) (before : (io.task t).done = false)
      (kind : (io.task t).kind = .timer) : Move p io (io.modTask t ({ · with ticking := true }))
  | start {io} (t : TaskId) (queued : (io.task t).req = .queued) :
      Move p io (io.modTask t ({ · with req := .working }))
  /-- `uv_cancel` takes a request back. -/
  | take {io} (t : TaskId) (queued : (io.task t).req = .queued)
      (allowed : p ∨ (io.task t).kind ≠ .connect) :
      Move p io (io.modTask t ({ · with req := .canceled, stopped := true }))
  /-- A lookup ends, and the handshake begins. -/
  | shake {io} (t : TaskId) (s : SockId) (kind : (io.task t).kind = .connect)
      (working : (io.task t).req = .working) (on : (io.task t).sock = some s)
      (alive : (io.sock s).closing = false) :
      Move p io (io.modTask t ({ · with connecting := true, req := .onHandle }))
  | closeSlot {io} (s : SockId) (t : TaskId) (inside : s < io.nsock) (kind : (io.task t).kind = .sockClose) :
      Move p io (io.modSock s ({ · with closeTask := some t }))
  /-- A task that stands in no slot ends. -/
  | ends {io} (t : TaskId) (k : Task) (made : t < io.ntask) (ended : EndedBare p (io.task t) k)
      (kind : (io.task t).kind ≠ .connect ∧ (io.task t).kind ≠ .accept ∧ (io.task t).kind ≠ .sockRead)
      (closes : p ∨ ((io.task t).kind = .sockClose → k.stopped = false)) : Move p io (io.setTask t k)
  | leaveRead {io} (s : SockId) (t : TaskId) (k : Task) (named : (io.sock s).readTask = some t)
      (ended : EndedBare p (io.task t) k) :
      Move p io ((io.setTask t k).modSock s ({ · with readTask := none }))
  | leaveAccept {io} (s : SockId) (t : TaskId) (k : Task) (named : (io.sock s).acceptTask = some t)
      (ended : EndedBare p (io.task t) k) :
      Move p io ((io.setTask t k).modSock s ({ · with acceptTask := none }))
  /-- A connect wins its socket. -/
  | connected {io} (t : TaskId) (s : SockId) (k : Task) (kind : (io.task t).kind = .connect)
      (before : (io.task t).done = false) (on : (io.task t).sock = some s)
      (ended : EndedWith p (io.task t) k s) : Move p io (io.setTask t k)
  /-- A connect fails, and forgets its socket. -/
  | connectEnds {io} (t : TaskId) (k : Task) (kind : (io.task t).kind = .connect)
      (before : (io.task t).done = false) (ended : Ended (io.task t) k) (sock : k.sock = none) (ptr : k.res.ptr = none)
      (truth : p ∨ (k.res.status = .canceled ↔ k.stopped = true)) : Move p io (io.setTask t k)
  | close {io} (s : SockId) (inside : s < io.nsock)
      (allowed : p ∨ ∀ t, io.lookingUp t = true → (io.task t).sock ≠ some s) :
      Move p io (io.sockDestroy s)
  | shut {io} (s : SockId) (inside : s < io.nsock) (given : io.claimed s = true) : Move p io (io.shut s)
  /-- A connection arrives at an accept that waits. -/
  | arriveHand {io} (s : SockId) (t : TaskId) (k : Task) (listens : (io.sock s).listening = true)
      (named : (io.sock s).acceptTask = some t) (ended : EndedWith p (io.task t) k io.nsock) :
      Move p io ((io.sockNew.setTask t k).modSock s fun q =>
        { q with arrived := q.arrived ++ [io.nsock], acceptTask := none
                 handed := q.handed ++ [(t, io.nsock)] })
  /-- A connection arrives, and no accept waits. -/
  | arrivePark {io} (s : SockId) (listens : (io.sock s).listening = true)
      (free : (io.sock s).acceptTask = none) :
      Move p io (io.sockNew.modSock s fun q =>
        { q with arrived := q.arrived ++ [io.nsock], pending := q.pending ++ [io.nsock] })
  /-- The memory of a socket is released. -/
  | closed {io} (s : SockId) (inside : s < io.nsock) (closing : (io.sock s).closing = true)
      (quiet : io.quiet s = true) :
      Move p io (io.modSock s fun q => { q with frees := q.frees + 1 })

/-- A sequence of moves. -/
def Moves (p : Prop) : Io → Io → Prop := Relation.ReflTransGen (Move p)

/-! ### What the moves change -/

variable {io io' : Io} {t u : TaskId} {s c : SockId}

@[simp] theorem modTask_task (io : Io) (t : TaskId) (f : Task → Task) (u : TaskId) :
    (io.modTask t f).task u = if u = t then f (io.task t) else io.task u := by
  simp [modTask, Function.update_apply]
@[simp] theorem modTask_sock (io : Io) (t : TaskId) (f : Task → Task) :
    (io.modTask t f).sock = io.sock := rfl
@[simp] theorem modTask_ntask (io : Io) (t : TaskId) (f : Task → Task) :
    (io.modTask t f).ntask = io.ntask := rfl
@[simp] theorem modTask_nsock (io : Io) (t : TaskId) (f : Task → Task) :
    (io.modTask t f).nsock = io.nsock := rfl
@[simp] theorem modTask_claimed (io : Io) (t : TaskId) (f : Task → Task) :
    (io.modTask t f).claimed = io.claimed := rfl
@[simp] theorem modTask_held (io : Io) (t : TaskId) (f : Task → Task) :
    (io.modTask t f).held = io.held := rfl

@[simp] theorem setTask_task (io : Io) (t : TaskId) (k : Task) (u : TaskId) :
    (io.setTask t k).task u = if u = t then k else io.task u := by
  simp [setTask, Function.update_apply]
@[simp] theorem setTask_sock (io : Io) (t : TaskId) (k : Task) : (io.setTask t k).sock = io.sock := rfl
@[simp] theorem setTask_ntask (io : Io) (t : TaskId) (k : Task) : (io.setTask t k).ntask = io.ntask := rfl
@[simp] theorem setTask_nsock (io : Io) (t : TaskId) (k : Task) : (io.setTask t k).nsock = io.nsock := rfl
@[simp] theorem setTask_claimed (io : Io) (t : TaskId) (k : Task) :
    (io.setTask t k).claimed = io.claimed := rfl
@[simp] theorem setTask_held (io : Io) (t : TaskId) (k : Task) : (io.setTask t k).held = io.held := rfl

@[simp] theorem modSock_task (io : Io) (s : SockId) (f : Sock → Sock) :
    (io.modSock s f).task = io.task := rfl
@[simp] theorem modSock_sock (io : Io) (s : SockId) (f : Sock → Sock) (c : SockId) :
    (io.modSock s f).sock c = if c = s then f (io.sock s) else io.sock c := by
  simp [modSock, Function.update_apply]
@[simp] theorem modSock_ntask (io : Io) (s : SockId) (f : Sock → Sock) :
    (io.modSock s f).ntask = io.ntask := rfl
@[simp] theorem modSock_nsock (io : Io) (s : SockId) (f : Sock → Sock) :
    (io.modSock s f).nsock = io.nsock := rfl
@[simp] theorem modSock_claimed (io : Io) (s : SockId) (f : Sock → Sock) :
    (io.modSock s f).claimed = io.claimed := rfl
@[simp] theorem modSock_held (io : Io) (s : SockId) (f : Sock → Sock) :
    (io.modSock s f).held = io.held := rfl

@[simp] theorem taskNew_task (io : Io) (k : Task) (u : TaskId) :
    (io.taskNew k).task u = if u = io.ntask then k else io.task u := by
  simp [taskNew, Function.update_apply]
@[simp] theorem taskNew_sock (io : Io) (k : Task) : (io.taskNew k).sock = io.sock := rfl
@[simp] theorem taskNew_ntask (io : Io) (k : Task) : (io.taskNew k).ntask = io.ntask + 1 := rfl
@[simp] theorem taskNew_nsock (io : Io) (k : Task) : (io.taskNew k).nsock = io.nsock := rfl
@[simp] theorem taskNew_claimed (io : Io) (k : Task) : (io.taskNew k).claimed = io.claimed := rfl
@[simp] theorem taskNew_held (io : Io) (k : Task) (u : TaskId) :
    (io.taskNew k).held u = if u = io.ntask then true else io.held u := by
  simp [taskNew, Function.update_apply]

@[simp] theorem sockNew_task (io : Io) : io.sockNew.task = io.task := rfl
@[simp] theorem sockNew_sock (io : Io) (c : SockId) :
    io.sockNew.sock c = if c = io.nsock then {} else io.sock c := by
  simp [sockNew, Function.update_apply]
@[simp] theorem sockNew_ntask (io : Io) : io.sockNew.ntask = io.ntask := rfl
@[simp] theorem sockNew_nsock (io : Io) : io.sockNew.nsock = io.nsock + 1 := rfl
@[simp] theorem sockNew_claimed (io : Io) : io.sockNew.claimed = io.claimed := rfl
@[simp] theorem sockNew_held (io : Io) : io.sockNew.held = io.held := rfl

end Io

end Myio.Uv
