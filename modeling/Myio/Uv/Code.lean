import Mathlib.Logic.Function.Basic
import Myio.Wq

/-!
The libuv backend.

libuv is the environment: its answers and the callback it runs next are part of a step's label, and
`libuv` says which of them its documentation allows. A submission for which there is no memory
leaves nothing behind and is no step.
-/

namespace Myio.Uv

open Function (update)

/-! ### Error codes -/

def UV_ECANCELED : Int := -125
def UV_EOF : Int := -4095

/-- libuv's own codes for what a resolver answers. -/
def UV_EAI_AGAIN : Int := -3001
def UV_EAI_BADFLAGS : Int := -3002
def UV_EAI_CANCELED : Int := -3003
def UV_EAI_FAIL : Int := -3004
def UV_EAI_FAMILY : Int := -3005
def UV_EAI_MEMORY : Int := -3006
def UV_EAI_NODATA : Int := -3007
def UV_EAI_NONAME : Int := -3008
def UV_EAI_OVERFLOW : Int := -3009
def UV_EAI_SERVICE : Int := -3010
def UV_EAI_SOCKTYPE : Int := -3011

/-- The platform's codes, as glibc has them. -/
def EAI_BADFLAGS : Int := -1
def EAI_NONAME : Int := -2
def EAI_AGAIN : Int := -3
def EAI_FAIL : Int := -4
def EAI_NODATA : Int := -5
def EAI_FAMILY : Int := -6
def EAI_SOCKTYPE : Int := -7
def EAI_SERVICE : Int := -8
def EAI_MEMORY : Int := -10
def EAI_OVERFLOW : Int := -12

/-- `uv_eai_to_system`. -/
def uvEaiToSystem (status : Int) : Int :=
  if status = UV_EAI_NONAME then EAI_NONAME
  else if status = UV_EAI_AGAIN then EAI_AGAIN
  else if status = UV_EAI_FAIL then EAI_FAIL
  else if status = UV_EAI_FAMILY then EAI_FAMILY
  else if status = UV_EAI_MEMORY then EAI_MEMORY
  else if status = UV_EAI_SERVICE then EAI_SERVICE
  else if status = UV_EAI_SOCKTYPE then EAI_SOCKTYPE
  else if status = UV_EAI_BADFLAGS then EAI_BADFLAGS
  else if status = UV_EAI_NODATA then EAI_NODATA
  else if status = UV_EAI_OVERFLOW then EAI_OVERFLOW
  else EAI_FAIL

/-! ### Records -/

/-- `enum task_kind`. -/
inductive Kind
  | fs
  | timer
  | spawn
  | connect
  | accept
  | sockRead
  | sockWrite
  | sockClose
  deriving DecidableEq, Repr

/-- Where libuv has a task's request. -/
inductive Req
  /-- There is none, or its callback has begun. -/
  | none
  /-- On the queue of the thread pool. -/
  | queued
  /-- With a thread of the pool. -/
  | working
  /-- Taken back by `uv_cancel`, with the callback still to come. -/
  | canceled
  /-- On the socket's handle. -/
  | onHandle
  deriving DecidableEq, Repr

/--
`uv_task`, with libuv's side of the request or timer inside it.

The last two fields are history: they record what happened and no code reads them.
-/
structure Task where
  kind : Kind
  done : Bool := false
  detached : Bool := false
  res : Result := rPending
  /-- `buf.len`, which is an `unsigned`. -/
  len : Nat := 0
  sock : Option SockId := none
  fnRet : Int := 0
  connecting : Bool := false
  timerClosed : Bool := false
  freeOnClose : Bool := false
  req : Req := .none
  /-- The timer is active. -/
  ticking : Bool := false
  /-- `uv_is_closing` of the timer. -/
  timerClosing : Bool := false
  /-- The operation was taken back, or its socket closed under it. -/
  stopped : Bool := false
  /-- How often the memory was released. -/
  frees : Nat := 0
  deriving DecidableEq, Repr

/--
`uv_sock`, with libuv's side of its handle.

The last four fields are history, as above.
-/
structure Sock where
  readTask : Option TaskId := none
  acceptTask : Option TaskId := none
  closeTask : Option TaskId := none
  /-- Accepted connections not yet claimed. -/
  pending : List SockId := []
  /-- `uv_is_closing` of the handle. -/
  closing : Bool := false
  listening : Bool := false
  reading : Bool := false
  /-- The connections taken from libuv, in order of arrival. -/
  arrived : List SockId := []
  /-- The accept tasks that got one, each with its connection. -/
  handed : List (TaskId × SockId) := []
  /-- The connections nobody had claimed when the listener was closed. -/
  dropped : List SockId := []
  frees : Nat := 0
  deriving DecidableEq, Repr

/-- For which call the loop is turning. -/
inductive Goal
  | step
  | free (t : TaskId)
  | destroy
  deriving DecidableEq, Repr

/-- Where the one user thread is. -/
inductive User
  | idle
  /-- Inside `uv_run`; `before` is what `ncompleted` was when the turn began. -/
  | turning (goal : Goal) (before : Nat)
  | destroyed
  deriving DecidableEq, Repr

/-- What a call returned. -/
inductive Ret
  | stepped (rc : Int)
  | canceled (rc : Int)
  deriving DecidableEq, Repr

/-- `uv_io`, with the user thread around it. -/
structure Io where
  task : TaskId → Task
  ntask : Nat
  sock : SockId → Sock
  nsock : Nat
  ncompleted : Nat
  user : User
  ret : Option Ret
  /-- The task handles the caller has neither freed nor detached. -/
  held : TaskId → Bool
  /-- The sockets whose pointer the caller has been given. -/
  claimed : SockId → Bool

namespace Io

/-- `myio_uv_new`. -/
def new : Io where
  task := fun _ => { kind := .fs }
  ntask := 0
  sock := fun _ => {}
  nsock := 0
  ncompleted := 0
  user := .idle
  ret := none
  held := fun _ => false
  claimed := fun _ => false

/-- Writes through a task pointer. -/
def modTask (io : Io) (t : TaskId) (f : Task → Task) : Io :=
  { io with task := update io.task t (f (io.task t)) }

/-- Writes through a socket pointer. -/
def modSock (io : Io) (s : SockId) (f : Sock → Sock) : Io :=
  { io with sock := update io.sock s (f (io.sock s)) }

/-- `task_new` with the arguments filled in; the task's name is the old `ntask`. -/
def taskNew (io : Io) (k : Task) : Io :=
  { io with task := update io.task io.ntask k, ntask := io.ntask + 1
            held := update io.held io.ntask true }

/-- `sock_new`; the socket's name is the old `nsock`. -/
def sockNew (io : Io) : Io :=
  { io with sock := update io.sock io.nsock {}, nsock := io.nsock + 1 }

/-- `free` of a task. -/
def taskFreeMem (io : Io) (t : TaskId) : Io := io.modTask t fun k => { k with frees := k.frees + 1 }

/-- History: an operation is taken back. -/
def stop (io : Io) (t : TaskId) : Io := io.modTask t ({ · with stopped := true })

/-! ### Closing handles -/

/-- A connect that has a request under way, on the given socket. -/
def connectsOn (s : SockId) (k : Task) : Bool :=
  k.kind = .connect && k.sock = some s && k.req ≠ .none

/-- `uv_close` of a socket's handle: whatever connects on it is stopped. -/
def uvClose (io : Io) (s : SockId) : Io :=
  { io.modSock s ({ · with closing := true, listening := false, reading := false }) with
    task := fun t => if connectsOn s (io.task t) then { io.task t with stopped := true } else io.task t }

/-- `sock_destroy`. -/
def sockDestroy (io : Io) (s : SockId) : Io := if (io.sock s).closing then io else io.uvClose s

/-- `uv_close` of a task's timer. -/
def timerClose (io : Io) (t : TaskId) : Io :=
  io.modTask t ({ · with ticking := false, timerClosing := true })

/-! ### Completion -/

/-- What `task_reap` and `impl_task_free` do at the end: a timer's memory waits for its handle. -/
def release (io : Io) (t : TaskId) : Io :=
  if (io.task t).kind = .timer ∧ (io.task t).timerClosed = false then
    let io := io.modTask t ({ · with freeOnClose := true })
    if (io.task t).timerClosing then io else io.timerClose t
  else io.taskFreeMem t

/-- `task_reap`. -/
def taskReap (io : Io) (t : TaskId) : Io :=
  match (io.task t).res.ptr with
  | some s => (io.sockDestroy s).release t
  | none => io.release t

/-- `task_finish`. -/
def taskFinish (io : Io) (t : TaskId) : Io :=
  let io := io.modTask t ({ · with done := true })
  let io := { io with ncompleted := (io.ncompleted + 1) % 2 ^ 32 }
  if (io.task t).detached then io.taskReap t else io

/-- The result `task_complete` stores. -/
def uvResult (r : Result) (n : Int) : Result :=
  if 0 ≤ n then { r with status := .ok, value := n }
  else if n = UV_ECANCELED then { r with status := .canceled }
  else { r with status := .error, error := toInt32 (-n) }

/-- `task_complete`. -/
def taskComplete (io : Io) (t : TaskId) (n : Int) : Io :=
  (io.modTask t fun k => { k with res := uvResult k.res n }).taskFinish t

/-- `task_new_failed`. -/
def taskNewFailed (io : Io) (kind : Kind) (err : Int) : Io :=
  io.taskNew { kind, done := true, res := rErr err }

/-- The end of a task that stands in a slot of its socket and is taken back. -/
def cancelSlot (io : Io) (t : TaskId) : Io := (io.stop t).taskComplete t UV_ECANCELED

/-- `sock_close_cb`. -/
def sockCloseCb (io : Io) (s : SockId) : Io :=
  let io := match (io.sock s).readTask with
    | some t => (io.cancelSlot t).modSock s ({ · with readTask := none })
    | none => io
  let io := match (io.sock s).acceptTask with
    | some t => (io.cancelSlot t).modSock s ({ · with acceptTask := none })
    | none => io
  let io := match (io.sock s).closeTask with
    | some t => io.taskComplete t 0
    | none => io
  io.modSock s fun k => { k with frees := k.frees + 1 }

/-! ### Files, timers and spawned functions -/

/-- A file operation: `rc` is what `uv_fs_open` and its like return. -/
def fsSubmit (io : Io) (len : Nat) (rc : Int) : Io :=
  let t := io.ntask
  let io := io.taskNew { kind := .fs, len := len % 2 ^ 32 }
  if rc < 0 then io.taskComplete t rc else io.modTask t ({ · with req := .queued })

def implOpen (io : Io) (rc : Int) : Io := io.fsSubmit 0 rc
def implClose (io : Io) (rc : Int) : Io := io.fsSubmit 0 rc
def implRead (io : Io) (len : Nat) (rc : Int) : Io := io.fsSubmit len rc
def implWrite (io : Io) (len : Nat) (rc : Int) : Io := io.fsSubmit len rc

/-- `fs_cb`. -/
def fsCb (io : Io) (t : TaskId) (result : Int) : Io :=
  (io.modTask t ({ · with req := .none })).taskComplete t result

/-- `timer_close_cb`. -/
def timerCloseCb (io : Io) (t : TaskId) : Io :=
  let io := io.modTask t ({ · with timerClosed := true })
  if (io.task t).freeOnClose then io.taskFreeMem t else io

/-- `timer_cb`. -/
def timerCb (io : Io) (t : TaskId) : Io := (io.timerClose t).taskComplete t 0

/-- `impl_sleep`; `rc` is what `uv_timer_start` returns. -/
def implSleep (io : Io) (rc : Int) : Io :=
  let t := io.ntask
  let io := io.taskNew { kind := .timer }
  if rc < 0 then (io.taskComplete t rc).timerClose t else io.modTask t ({ · with ticking := true })

/--
`after_work_cb`. What `work_cb` has stored on a thread of the pool is read nowhere before, and is
stored here.
-/
def afterWorkCb (io : Io) (t : TaskId) (status fnRet : Int) : Io :=
  let io := io.modTask t ({ · with req := .none })
  if status < 0 then io.taskComplete t status
  else
    let io := io.modTask t ({ · with fnRet })
    if 0 ≤ fnRet then io.taskComplete t fnRet
    else (io.modTask t fun k => { k with res := { k.res with status := .error, error := toInt32 (-fnRet) } })
      |>.taskFinish t

/-- `impl_spawn`; `rc` is what `uv_queue_work` returns. -/
def implSpawn (io : Io) (rc : Int) : Io :=
  let t := io.ntask
  let io := io.taskNew { kind := .spawn }
  if rc < 0 then io.taskComplete t rc else io.modTask t ({ · with req := .queued })

/-! ### Connecting -/

/-- The socket a task acts on; only read for the kinds that have one. -/
def sockOf (io : Io) (t : TaskId) : SockId := (io.task t).sock.getD 0

/-- `sock_destroy(t->sock); t->sock = NULL;` -/
def dropSock (io : Io) (t : TaskId) : Io :=
  (io.sockDestroy (io.sockOf t)).modTask t ({ · with sock := none })

/-- `connect_cb`. -/
def connectCb (io : Io) (t : TaskId) (status : Int) : Io :=
  let io := io.modTask t ({ · with req := .none })
  if status = 0 then
    (io.modTask t fun k => { k with res := { k.res with ptr := k.sock } }).taskComplete t 0
  else (io.dropSock t).taskComplete t status

/-- `task_fail_gai`. -/
def taskFailGai (io : Io) (t : TaskId) (status : Int) : Io :=
  (io.modTask t fun k =>
    { k with res := { k.res with status := .error, error := uvEaiToSystem status } }).taskFinish t

/-- `gai_cb`; `rc` is what `uv_tcp_connect` returns. -/
def gaiCb (io : Io) (t : TaskId) (status rc : Int) : Io :=
  let io := io.modTask t ({ · with req := .none })
  if status < 0 then (io.dropSock t).taskFailGai t status
  else
    let io := io.modTask t ({ · with connecting := true })
    if rc < 0 then (io.dropSock t).taskComplete t rc else io.modTask t ({ · with req := .onHandle })

/-- `impl_tcp_connect`; `rc` is what `uv_getaddrinfo` returns. -/
def implTcpConnect (io : Io) (rc : Int) : Io :=
  let t := io.ntask
  let io := (io.taskNew { kind := .connect, sock := some io.nsock }).sockNew
  if rc < 0 then (io.taskFailGai t rc).dropSock t else io.modTask t ({ · with req := .queued })

/-! ### Listening and accepting -/

/-- What becomes of a connection that libuv reports. -/
inductive Taking
  /-- There is no memory for a socket. -/
  | noMem
  /-- `uv_accept` fails. -/
  | refused
  | taken
  deriving DecidableEq, Repr

/-- An accept task gets a connection. -/
def hand (io : Io) (ls : SockId) (t : TaskId) (c : SockId) : Io :=
  let io := io.modSock ls fun k => { k with handed := k.handed ++ [(t, c)] }
  (io.modTask t fun k => { k with res := { k.res with ptr := some c } }).taskComplete t 0

/-- `connection_cb`. -/
def connectionCb (io : Io) (ls : SockId) (status : Int) (taking : Taking) : Io :=
  if status < 0 then
    match (io.sock ls).acceptTask with
    | some t => (io.modSock ls ({ · with acceptTask := none })).taskComplete t status
    | none => io
  else
    let c := io.nsock
    match taking with
    | .noMem => io
    | .refused => io.sockNew.sockDestroy c
    | .taken =>
      let io := io.sockNew.modSock ls fun k => { k with arrived := k.arrived ++ [c] }
      match (io.sock ls).acceptTask with
      | some t => (io.modSock ls ({ · with acceptTask := none })).hand ls t c
      | none => io.modSock ls fun k => { k with pending := (wqPush k.pending c).1 }

/-- `impl_tcp_listen`; `rc` is what the first call that fails returns, or 0. -/
def implTcpListen (io : Io) (rc : Int) : Io :=
  let s := io.nsock
  let io := io.sockNew
  if rc ≠ 0 then io.sockDestroy s
  else { io.modSock s ({ · with listening := true }) with claimed := update io.claimed s true }

/-- `impl_tcp_accept`. -/
def implTcpAccept (io : Io) (ls : SockId) : Io :=
  if (io.sock ls).acceptTask.isSome then io.taskNewFailed .accept EBUSY
  else
    let t := io.ntask
    let io := io.taskNew { kind := .accept, sock := some ls }
    match (io.sock ls).pending with
    | c :: _ => (io.modSock ls fun k => { k with pending := (wqPop k.pending).1 }).hand ls t c
    | [] => io.modSock ls ({ · with acceptTask := some t })

/-! ### Reading, writing and closing -/

/-- `read_cb`. -/
def readCb (io : Io) (s : SockId) (nread : Int) : Io :=
  if nread = 0 then io
  else
    let io := io.modSock s ({ · with reading := false })
    match (io.sock s).readTask with
    | none => io
    | some t =>
      (io.modSock s ({ · with readTask := none })).taskComplete t (if nread = UV_EOF then 0 else nread)

/-- `impl_sock_read`; `rc` is what `uv_read_start` returns. -/
def implSockRead (io : Io) (s : SockId) (len : Nat) (rc : Int) : Io :=
  if (io.sock s).readTask.isSome then io.taskNewFailed .sockRead EBUSY
  else
    let t := io.ntask
    let io := io.taskNew { kind := .sockRead, sock := some s, len := len % 2 ^ 32 }
    let io := io.modSock s ({ · with readTask := some t })
    if rc < 0 then (io.modSock s ({ · with readTask := none })).taskComplete t rc
    else io.modSock s ({ · with reading := true })

/-- `write_cb`; libuv hands on `UV_ECANCELED` for a write it has not sent before the close. -/
def writeCb (io : Io) (t : TaskId) (status : Int) : Io :=
  let io := io.modTask t ({ · with req := .none })
  let io := if status = UV_ECANCELED then io.stop t else io
  io.taskComplete t (if status < 0 then status else (io.task t).len)

/-- `impl_sock_write`; `rc` is what `uv_write` returns. -/
def implSockWrite (io : Io) (s : SockId) (len : Nat) (rc : Int) : Io :=
  let t := io.ntask
  let io := io.taskNew { kind := .sockWrite, sock := some s, len := len % 2 ^ 32 }
  if rc < 0 then io.taskComplete t rc else io.modTask t ({ · with req := .onHandle })

/-- The loop of `impl_sock_close` over the parked connections. -/
def dropPending (io : Io) (s : SockId) : List SockId → Io
  | [] => io
  | c :: rest =>
    let io := io.modSock s fun k => { k with pending := (wqPop k.pending).1, dropped := k.dropped ++ [c] }
    dropPending (io.sockDestroy c) s rest

/-- `impl_sock_close`. -/
def implSockClose (io : Io) (s : SockId) : Io :=
  let t := io.ntask
  let io := io.taskNew { kind := .sockClose }
  let io := match (io.sock s).readTask with
    | some u =>
      ((io.modSock s ({ · with reading := false })).cancelSlot u).modSock s ({ · with readTask := none })
    | none => io
  let io := match (io.sock s).acceptTask with
    | some u => (io.cancelSlot u).modSock s ({ · with acceptTask := none })
    | none => io
  let io := io.dropPending s (io.sock s).pending
  (io.modSock s ({ · with closeTask := some t })).sockDestroy s

/-! ### Canceling and freeing -/

/-- `uv_cancel`: a request still on the pool's queue is taken back. -/
def uvCancel (io : Io) (t : TaskId) : Io × Int :=
  if (io.task t).req = .queued then (io.modTask t ({ · with req := .canceled, stopped := true }), 0)
  else (io, -1)

/-- `impl_cancel`. -/
def implCancel (io : Io) (t : TaskId) : Io × Int :=
  if (io.task t).done then (io, -1)
  else
    match (io.task t).kind with
    | .timer => ((io.timerClose t).cancelSlot t, 0)
    | .fs | .spawn => io.uvCancel t
    | .connect =>
      if (io.task t).connecting = false then io.uvCancel t else (io.sockDestroy (io.sockOf t), 0)
    | .sockRead =>
      ((io.modSock (io.sockOf t) ({ · with reading := false, readTask := none })).cancelSlot t, 0)
    | .accept => ((io.modSock (io.sockOf t) ({ · with acceptTask := none })).cancelSlot t, 0)
    | .sockWrite | .sockClose => (io, -1)

/-- The caller gives a task handle up. -/
def dropHandle (io : Io) (t : TaskId) : Io := { io with held := update io.held t false }

/-- `impl_task_free`, up to its return or its first turn of the loop. -/
def implTaskFree (io : Io) (t : TaskId) : Io :=
  let io := if (io.task t).done then io else (io.implCancel t).1
  if (io.task t).done then (io.dropHandle t).release t
  else { io with user := .turning (.free t) io.ncompleted }

/-- `impl_task_detach`; the caller gives up the socket the task has won, too. -/
def implTaskDetach (io : Io) (t : TaskId) : Io :=
  let io := io.dropHandle t
  if (io.task t).done then
    match (io.task t).res.ptr with
    | some s => { io with claimed := update io.claimed s false }.taskReap t
    | none => io.taskReap t
  else io.modTask t ({ · with detached := true })

/-- `impl_task_result`: the caller learns the socket a task has won. -/
def implTaskResult (io : Io) (t : TaskId) : Io :=
  match (io.task t).res.ptr with
  | some s => { io with claimed := update io.claimed s true }
  | none => io

/-! ### Turns of the loop and teardown -/

/-- `uv_loop_alive`: something is active, or has a callback to come. -/
def alive (io : Io) : Bool :=
  ((List.range io.ntask).any fun t =>
    (io.task t).req ≠ .none || (io.task t).ticking ||
      ((io.task t).timerClosing && !(io.task t).timerClosed)) ||
  (List.range io.nsock).any fun s =>
    (io.sock s).listening || (io.sock s).reading || ((io.sock s).closing && (io.sock s).frees = 0)

/-- What `impl_step` returns after a turn. -/
def progress (io : Io) (before : Nat) : Bool := io.alive || io.ncompleted ≠ before

/-- The end of a turn, for the call it was made for. -/
def turnEnd (io : Io) (goal : Goal) (before : Nat) : Io :=
  match goal with
  | .step => { io with user := .idle, ret := some (.stepped (if io.progress before then 1 else 0)) }
  | .free t =>
    if io.progress before ∧ (io.task t).done = false
    then { io with user := .turning (.free t) io.ncompleted }
    else { (io.dropHandle t).release t with user := .idle }
  | .destroy => { io with user := .destroyed }

/-- `close_walk_cb` for the timers. -/
def walkTimers (io : Io) : List TaskId → Io
  | [] => io
  | t :: rest =>
    if (io.task t).kind = .timer ∧ (io.task t).timerClosing = false then
      let io := if (io.task t).detached then io.modTask t ({ · with freeOnClose := true }) else io
      walkTimers (io.timerClose t) rest
    else walkTimers io rest

/-- `close_walk_cb` for the sockets. -/
def walkSocks (io : Io) : List SockId → Io
  | [] => io
  | s :: rest => walkSocks (io.sockDestroy s) rest

/-- `impl_destroy`, up to `uv_run`. -/
def implDestroy (io : Io) : Io :=
  let io := io.walkTimers (List.range io.ntask)
  let io := io.walkSocks (List.range io.nsock)
  { io with user := .turning .destroy io.ncompleted }

/-! ### Steps -/

/-- A vtable call, with what libuv answers inside it. -/
inductive Call
  | open (rc : Int)
  | close (rc : Int)
  | read (len : Nat) (rc : Int)
  | write (len : Nat) (rc : Int)
  | sleep (rc : Int)
  | spawn (rc : Int)
  | tcpConnect (rc : Int)
  | tcpListen (rc : Int)
  | tcpAccept (ls : SockId)
  | sockRead (s : SockId) (len : Nat) (rc : Int)
  | sockWrite (s : SockId) (len : Nat) (rc : Int)
  | sockClose (s : SockId)
  | step
  | cancel (t : TaskId)
  | taskResult (t : TaskId)
  | taskFree (t : TaskId)
  | taskDetach (t : TaskId)
  | destroy
  deriving DecidableEq, Repr

/-- A callback of libuv's, with its arguments and what libuv answers inside it. -/
inductive Cb
  | fs (t : TaskId) (result : Int)
  | timer (t : TaskId)
  | timerClose (t : TaskId)
  | afterWork (t : TaskId) (status fnRet : Int)
  | gai (t : TaskId) (status rc : Int)
  | connect (t : TaskId) (status : Int)
  | connection (ls : SockId) (status : Int) (taking : Taking)
  | read (s : SockId) (nread : Int)
  | write (t : TaskId) (status : Int)
  | sockClose (s : SockId)
  deriving DecidableEq, Repr

inductive Label
  | user (call : Call)
  /-- A thread of libuv's pool takes a request off the queue. -/
  | pool (t : TaskId)
  | loop (cb : Cb)
  /-- `uv_run` returns. -/
  | turnEnd
  deriving DecidableEq, Repr

def call (io : Io) : Call → Io
  | .open rc => io.implOpen rc
  | .close rc => io.implClose rc
  | .read len rc => io.implRead len rc
  | .write len rc => io.implWrite len rc
  | .sleep rc => io.implSleep rc
  | .spawn rc => io.implSpawn rc
  | .tcpConnect rc => io.implTcpConnect rc
  | .tcpListen rc => io.implTcpListen rc
  | .tcpAccept ls => io.implTcpAccept ls
  | .sockRead s len rc => io.implSockRead s len rc
  | .sockWrite s len rc => io.implSockWrite s len rc
  | .sockClose s => io.implSockClose s
  | .step => { io with user := .turning .step io.ncompleted }
  | .cancel t => { (io.implCancel t).1 with ret := some (.canceled (io.implCancel t).2) }
  | .taskResult t => io.implTaskResult t
  | .taskFree t => io.implTaskFree t
  | .taskDetach t => io.implTaskDetach t
  | .destroy => io.implDestroy

def callback (io : Io) : Cb → Io
  | .fs t result => io.fsCb t result
  | .timer t => io.timerCb t
  | .timerClose t => io.timerCloseCb t
  | .afterWork t status fnRet => io.afterWorkCb t status fnRet
  | .gai t status rc => io.gaiCb t status rc
  | .connect t status => io.connectCb t status
  | .connection ls status taking => io.connectionCb ls status taking
  | .read s nread => io.readCb s nread
  | .write t status => io.writeCb t status
  | .sockClose s => io.sockCloseCb s

/-- One step: callbacks come only inside `uv_run`, and calls only outside it. -/
def step (io : Io) : Label → Option Io
  | .user c => if io.user = .idle then some (io.call c) else none
  | .pool t =>
    if (io.task t).req = .queued then some (io.modTask t ({ · with req := .working })) else none
  | .loop cb =>
    match io.user with
    | .turning _ _ => some (io.callback cb)
    | _ => none
  | .turnEnd =>
    match io.user with
    | .turning goal before => some (io.turnEnd goal before)
    | _ => none

/-- The caller's part: it uses what it has been given, and only as long as that lives. -/
def obeys (io : Io) : Label → Bool
  | .user (.tcpAccept s) | .user (.sockRead s _ _) | .user (.sockWrite s _ _) | .user (.sockClose s) =>
    io.claimed s && (io.sock s).frees = 0
  | .user (.cancel t) | .user (.taskResult t) | .user (.taskFree t) | .user (.taskDetach t) =>
    io.held t
  | _ => true

/-- Nothing is under way on a socket's handle. -/
def quiet (io : Io) (s : SockId) : Bool :=
  (List.range io.ntask).all fun t => !((io.task t).req = .onHandle && (io.task t).sock = some s)

/-- A pool request ends as libuv says: with the code for a cancel iff it was taken back. -/
def poolEnds (io : Io) (t : TaskId) (status code : Int) : Bool :=
  ((io.task t).req = .working && status ≠ code) || ((io.task t).req = .canceled && status = code)

/--
What libuv promises.

A request's callback comes once, with the code for a cancel iff the request was taken back or its
handle closed. Nothing starts on a handle that is closing. The close callback of a handle comes
after the callbacks of the requests on it, but does not wait for the thread pool.
-/
def libuv (io : Io) : Label → Bool
  | .user (.open rc) | .user (.close rc) | .user (.read _ rc) | .user (.write _ rc)
  | .user (.sleep rc) | .user (.spawn rc) => rc ≠ UV_ECANCELED
  | .user (.sockRead s _ rc) | .user (.sockWrite s _ rc) =>
    rc ≠ UV_ECANCELED && (rc < 0 || !(io.sock s).closing)
  | .loop (.fs t result) => (io.task t).kind = .fs && io.poolEnds t result UV_ECANCELED
  | .loop (.timer t) => (io.task t).ticking
  | .loop (.timerClose t) => (io.task t).timerClosing && !(io.task t).timerClosed
  | .loop (.afterWork t status _) => (io.task t).kind = .spawn && io.poolEnds t status UV_ECANCELED
  | .loop (.gai t status rc) =>
    (io.task t).kind = .connect && io.poolEnds t status UV_EAI_CANCELED && rc ≠ UV_ECANCELED &&
      (rc < 0 || !(io.sock (io.sockOf t)).closing)
  | .loop (.connect t status) =>
    (io.task t).kind = .connect && (io.task t).req = .onHandle && status ≤ 0 &&
      decide (status = UV_ECANCELED) == (io.sock (io.sockOf t)).closing
  | .loop (.connection ls status _) => (io.sock ls).listening && status ≠ UV_ECANCELED
  | .loop (.read s nread) => (io.sock s).reading && nread ≠ UV_ECANCELED
  | .loop (.write t status) =>
    (io.task t).kind = .sockWrite && (io.task t).req = .onHandle &&
      (status ≠ UV_ECANCELED || (io.sock (io.sockOf t)).closing)
  | .loop (.sockClose s) => (io.sock s).closing && (io.sock s).frees = 0 && io.quiet s
  | .turnEnd =>
    match io.user with
    | .turning .destroy _ => !io.alive
    | _ => true
  | _ => true

end Io

end Myio.Uv
