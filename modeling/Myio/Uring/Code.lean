import Myio.Loop.Core

/-!
The io_uring backend.

One step is one vtable call, or one completion that a waiting call drains. A submission flushes its
entry at once, so an operation is on the ring from its submission to its completion.
-/

namespace Myio.Loop

/-- The errno values this backend tells apart. -/
def ECANCELED : Int := 125
def ETIME : Int := 62

/-- The resolver's code that defers to errno. -/
def EAI_SYSTEM : Int := -11

/-- The conversion of a `size_t` to `int64_t`. -/
def toInt64 (n : Nat) : Int := Int.bmod n (2 ^ 64)

/-- The conversion of a `size_t` to `unsigned`, the type of an entry's length field. -/
def toU32 (n : Nat) : Nat := n % 2 ^ 32

/-- `gai_errno`. -/
def gaiErrno (rc errno : Int) : Int := if rc = EAI_SYSTEM then errno else rc

/-- For which call completions are drained. -/
inductive UWhy
  | step
  | cancel (t : TaskId)
  | freeing (t : TaskId)
  | destroy
  deriving DecidableEq, Repr

/-- Where the one user thread is. -/
inductive UUser
  /-- Between two vtable calls. -/
  | idle
  /-- At the condition of the loop in `impl_cancel`; `free` says that `impl_task_free` called it. -/
  | canceling (t : TaskId) (free : Bool)
  /-- At the condition of the loop in `impl_task_free`. -/
  | freeing (t : TaskId)
  /-- In `drain_cqes`, or waiting for its first completion; `got` says that there was one. -/
  | draining (why : UWhy) (free got : Bool)
  /-- At the condition of the loop in `impl_destroy`. -/
  | destroying
  | destroyed
  deriving DecidableEq, Repr

/-- What the last finished call returned. -/
inductive URet
  | submitted (task : Option TaskId)
  | listened (sock : Option SockId) (err : Int)
  | stepped (n : Nat)
  | canceled (n : Int)
  deriving DecidableEq, Repr

/--
`struct uring_io`, with the kernel's side of the ring.

The operations on the ring are the tasks `armed`, each with the length field of its entry; the
cancel requests on it are only counted, since their completions carry no task. `served` is history.
-/
structure UringIo extends Core where
  inflight : Nat
  /-- The length field of a task's entry. -/
  entry : TaskId → Nat
  /-- The cancel requests flushed and not drained. -/
  cancels : Nat
  /-- How many completions have been dispatched to a task. -/
  served : TaskId → Nat
  /-- Whether the n-th request for an entry is met. -/
  sqes : Nat → Bool
  tick : Nat
  user : UUser
  ret : Option URet

namespace UringIo

/-- How far a `tcp_connect` gets inside submit; the constructors are its exits in order. -/
inductive ConnectAns
  /-- `getaddrinfo` fails with `rc`, and `errno` is set. -/
  | unresolved (rc errno : Int)
  /-- `socket` fails. -/
  | socket (errno : Int)
  /-- There is a descriptor, and memory for its socket or not. -/
  | opened (mem : Bool)
  deriving DecidableEq, Repr

/-- How far a `tcp_listen` gets; the constructors are its exits in order. -/
inductive ListenAns
  | badHost
  | socket (errno : Int)
  | bind (errno : Int)
  | listening (mem : Bool)
  deriving DecidableEq, Repr

/-- `myio_uring_new`: everything is zero. -/
def new (sqes : Nat → Bool) : UringIo where
  toCore := Core.new
  inflight := 0
  entry := fun _ => 0
  cancels := 0
  served := fun _ => 0
  sqes := sqes
  tick := 0
  user := .idle
  ret := none

/-- Runs shared code on the shared part. -/
def on (u : UringIo) (f : Core → Core) : UringIo := { u with toCore := f u.toCore }

/-- The call returns. -/
def give (u : UringIo) (ret : URet) : UringIo := { u with user := .idle, ret := some ret }

/-! ### Task lifecycle -/

/-- The result `task_complete` makes of a completion's `res`. -/
def cqeResult (res : Int) : Result :=
  if 0 ≤ res then rOk res none
  else if res = -ECANCELED then rCanceled
  else rErr (toInt32 (-res))

/-- `task_finish` with the result stored. -/
def taskFinish (c : Core) (t : TaskId) (res : Result) : Core := (c.finish t res).reapIfDetached t

/-- `task_complete`. -/
def taskComplete (c : Core) (t : TaskId) (res : Int) : Core := taskFinish c t (cqeResult res)

/-- `task_fail`. -/
def taskFail (c : Core) (t : TaskId) (err : Int) : Core := c.finish t (rErr err)

/-! ### Submission -/

/-- `sqe_get`. -/
def sqeGet (u : UringIo) : UringIo × Bool := ({ u with tick := u.tick + 1 }, u.sqes u.tick)

/-- `sqe_flush` of an operation's entry, with its length field. -/
def sqeFlush (u : UringIo) (t : TaskId) (len : Nat) : UringIo :=
  { u.on (·.arm t) with
    inflight := u.inflight + 1, entry := Function.update u.entry t (toU32 len) }

/-- `sqe_flush` of a cancel request. -/
def cancelFlush (u : UringIo) : UringIo :=
  { u with inflight := u.inflight + 1, cancels := u.cancels + 1 }

/-- `cancel_submit`; the answer is whether there was an entry. -/
def cancelSubmit (u : UringIo) : UringIo × Bool :=
  match u.sqeGet with
  | (u, true) => (u.cancelFlush, true)
  | (u, false) => (u, false)

/-! ### The write FIFO -/

/-- `write_arm`. -/
def writeArm (u : UringIo) (t : TaskId) : UringIo × Bool :=
  match u.sqeGet with
  | (u, true) => (u.sqeFlush t ((u.task t).buf.length - (u.task t).off), true)
  | (u, false) => (u, false)

/-- A queued write is popped and completed without having been sent. -/
def writeDrop (c : Core) (s : SockId) (n : TaskId) (res : Int) : Core :=
  let c := c.modSock s fun k => { k with wq := (wqPop k.wq).1 }
  let c := c.modTask n ({ · with sock := none })
  taskComplete c n res

/-- The loop of `write_finish`, over the FIFO as it stands. -/
def promote (u : UringIo) (s : SockId) : List TaskId → UringIo
  | [] => u
  | n :: rest =>
    match u.writeArm n with
    | (u, true) => u
    | (u, false) => promote (u.on (writeDrop · s n (-EAGAIN))) s rest

/-- `write_finish`. -/
def writeFinish (u : UringIo) (t : TaskId) (res : Int) : UringIo :=
  let sock := (u.task t).sock
  let u := u.on (·.modTask t ({ · with sock := none }))
  let u := match sock with
    | some s =>
      let u := u.on (·.modSock s fun k => { k with wq := (wqPop k.wq).1 })
      u.promote s (u.sock s).wq
    | none => u
  u.on (taskComplete · t res)

/-! ### The drive loop -/

/-- The completion of a send. -/
def dispatchWrite (u : UringIo) (t : TaskId) (res : Int) : UringIo :=
  if res < 0 then u.writeFinish t res
  else
    let u := u.on (·.sendBytes t res.toNat)
    if (u.task t).off < (u.task t).buf.length then
      -- A short send: the rest is sent, unless the socket was closed or the write canceled.
      if (u.task t).sock = none ∨ (u.task t).wcanceled then u.writeFinish t (-ECANCELED)
      else
        match u.writeArm t with
        | (u, true) => u
        | (u, false) => u.writeFinish t (-EAGAIN)
    else u.writeFinish t (toInt64 (u.task t).buf.length)

/-- The completion of a connect. -/
def dispatchConnect (c : Core) (t : TaskId) (res : Int) : Core :=
  let s := (c.task t).sock
  if res = 0 then taskFinish (c.modTask t ({ · with sock := none })) t (rOk 0 s)
  else
    let c := match s with
      | some s => c.sockRelease s
      | none => c
    taskComplete (c.modTask t ({ · with sock := none })) t res

/-- The accept slot of a task's socket is cleared, if it names the task. -/
def clearAccept (c : Core) (t : TaskId) : Core :=
  match (c.task t).sock with
  | some s => if (c.sock s).acceptTask = some t
      then c.modSock s ({ · with acceptTask := none }) else c
  | none => c

/-- The read slot of a task's socket is cleared, if it names the task. -/
def clearRead (c : Core) (t : TaskId) : Core :=
  match (c.task t).sock with
  | some s => if (c.sock s).readTask = some t
      then c.modSock s ({ · with readTask := none }) else c
  | none => c

/-- The completion of an accept; a result that is not negative is a new descriptor. -/
def dispatchAccept (c : Core) (t : TaskId) (res : Int) : Core :=
  let c := clearAccept c t
  let new := (c.task t).newsock
  if 0 ≤ res then
    let fd := c.ndesc
    let c := c.newDesc
    let c := match new with
      | some s => c.modSock s ({ · with fd := some fd })
      | none => c
    taskFinish (c.modTask t ({ · with newsock := none })) t (rOk 0 new)
  else
    let c := match new with
      | some s => c.sockRelease s
      | none => c
    taskComplete (c.modTask t ({ · with newsock := none })) t res

/-- The completion of a close: the kernel has released the descriptor, and the socket is freed. -/
def dispatchClose (c : Core) (t : TaskId) (res : Int) : Core :=
  let s := (c.task t).sock
  let c := c.modTask t ({ · with sock := none })
  let c := match s with
    | some s => c.sockRelease s
    | none => c
  taskComplete c t res

/-- `dispatch`. -/
def dispatch (u : UringIo) (t : TaskId) (res : Int) : UringIo :=
  match (u.task t).kind with
  | .taskSleep => u.on (taskComplete · t (if res = -ETIME then 0 else res))
  | .taskConnect => u.on (dispatchConnect · t res)
  | .taskAccept => u.on (dispatchAccept · t res)
  | .taskSockRead => u.on fun c => taskComplete (clearRead c t) t res
  | .taskSockWrite => u.dispatchWrite t res
  | .taskSockClose => u.on (dispatchClose · t res)
  | _ => u.on (taskComplete · t res)

/-- One round of `drain_cqes`: an operation's completion. -/
def drainOp (u : UringIo) (t : TaskId) (res : Int) : UringIo :=
  { u.on (·.disarm t) with
    inflight := u.inflight - 1
    served := Function.update u.served t (u.served t + 1) }.dispatch t res

/-- One round of `drain_cqes`: a cancel request's completion, which carries no task. -/
def drainCancel (u : UringIo) : UringIo :=
  { u with inflight := u.inflight - 1, cancels := u.cancels - 1 }

/-! ### Submit functions -/

/-- A submission that needs nothing but an entry: `impl_open` to `impl_sleep`. -/
def submitPlain (u : UringIo) (kind : TaskKind) (len : Nat) : UringIo :=
  let t := u.ntask
  match (u.on (·.taskNew { kind })).sqeGet with
  | (u, true) => (u.sqeFlush t len).give (.submitted (some t))
  | (u, false) => (u.on (taskFail · t EAGAIN)).give (.submitted (some t))

/-- `impl_open`; `path` says whether the copy of the path could be made. -/
def implOpen (u : UringIo) (mem path : Bool) : UringIo :=
  if mem then
    if path then u.submitPlain .taskOpen 0
    else
      let t := u.ntask
      ((u.on (·.taskNew { kind := .taskOpen })).on (taskFail · t ENOMEM)).give (.submitted (some t))
  else u.give (.submitted none)

/-- `impl_close`. -/
def implClose (u : UringIo) (mem : Bool) : UringIo :=
  if mem then u.submitPlain .taskClose 0 else u.give (.submitted none)

/-- `impl_read`. -/
def implRead (u : UringIo) (mem : Bool) (len : Nat) : UringIo :=
  if mem then u.submitPlain .taskRead len else u.give (.submitted none)

/-- `impl_write`. -/
def implWrite (u : UringIo) (mem : Bool) (len : Nat) : UringIo :=
  if mem then u.submitPlain .taskWrite len else u.give (.submitted none)

/-- `impl_sleep`. -/
def implSleep (u : UringIo) (mem : Bool) : UringIo :=
  if mem then u.submitPlain .taskSleep 0 else u.give (.submitted none)

/-- The result of a spawned function that returned `ret`. -/
def fnResult (ret : Int) : Result := if 0 ≤ ret then rOk ret none else rErr (toInt32 (-ret))

/-- `impl_spawn`: the function runs inside submit. -/
def implSpawn (u : UringIo) (mem : Bool) (ret : Int) : UringIo :=
  if mem then
    let t := u.ntask
    ((u.on (·.taskNew { kind := .taskSpawn })).on (·.finish t (fnResult ret))).give
      (.submitted (some t))
  else u.give (.submitted none)

/-- `impl_tcp_connect`. -/
def implTcpConnect (u : UringIo) (mem : Bool) (ans : ConnectAns) : UringIo :=
  if mem then
    let t := u.ntask
    let u := u.on (·.taskNew { kind := .taskConnect })
    let u := match ans with
      | .unresolved rc errno => u.on (taskFail · t (gaiErrno rc errno))
      | .socket errno => u.on (taskFail · t errno)
      | .opened memSock =>
        let fd := u.ndesc
        let u := u.on (·.newDesc)
        if memSock then
          let s := u.nsock
          let u := (u.on (·.sockNew (some fd))).on (·.modTask t ({ · with sock := some s }))
          match u.sqeGet with
          | (u, true) => u.sqeFlush t 0
          | (u, false) =>
            ((u.on (·.sockRelease s)).on (·.modTask t ({ · with sock := none }))).on
              (taskFail · t EAGAIN)
        else (u.on (·.closeDesc fd)).on (taskFail · t ENOMEM)
    u.give (.submitted (some t))
  else u.give (.submitted none)

/-- `impl_tcp_listen`. -/
def implTcpListen (u : UringIo) (ans : ListenAns) : UringIo :=
  match ans with
  | .badHost => u.give (.listened none EINVAL)
  | .socket errno => u.give (.listened none errno)
  | .bind errno =>
    let fd := u.ndesc
    ((u.on (·.newDesc)).on (·.closeDesc fd)).give (.listened none errno)
  | .listening mem =>
    let fd := u.ndesc
    let u := u.on (·.newDesc)
    if mem then
      let s := u.nsock
      let u := u.on (·.sockNew (some fd))
      (u.on fun c => { c with claimed := Function.update c.claimed s true }).give
        (.listened (some s) 0)
    else (u.on (·.closeDesc fd)).give (.listened none ENOMEM)

/-- `impl_tcp_accept`; `memSock` says whether the socket to be won could be made. -/
def implTcpAccept (u : UringIo) (mem memSock : Bool) (ls : SockId) : UringIo :=
  if mem then
    let t := u.ntask
    let u := u.on (·.taskNew { kind := .taskAccept })
    let u :=
      if (u.sock ls).acceptTask.isSome then u.on (taskFail · t EBUSY)
      else if memSock then
        let s := u.nsock
        let u := (u.on (·.sockNew none)).on (·.modTask t ({ · with newsock := some s }))
        match u.sqeGet with
        | (u, true) =>
          let u := u.sqeFlush t 0
          (u.on (·.modTask t ({ · with sock := some ls }))).on
            (·.modSock ls ({ · with acceptTask := some t }))
        | (u, false) =>
          ((u.on (·.sockRelease s)).on (·.modTask t ({ · with newsock := none }))).on
            (taskFail · t EAGAIN)
      else u.on (taskFail · t ENOMEM)
    u.give (.submitted (some t))
  else u.give (.submitted none)

/-- `impl_sock_read`. -/
def implSockRead (u : UringIo) (mem : Bool) (s : SockId) (len : Nat) : UringIo :=
  if mem then
    let t := u.ntask
    let u := u.on (·.taskNew { kind := .taskSockRead })
    let u :=
      if (u.sock s).readTask.isSome then u.on (taskFail · t EBUSY)
      else
        match u.sqeGet with
        | (u, true) =>
          let u := u.sqeFlush t len
          (u.on (·.modTask t ({ · with sock := some s }))).on
            (·.modSock s ({ · with readTask := some t }))
        | (u, false) => u.on (taskFail · t EAGAIN)
    u.give (.submitted (some t))
  else u.give (.submitted none)

/-- `impl_sock_write`. -/
def implSockWrite (u : UringIo) (mem : Bool) (s : SockId) (buf : List UInt8) : UringIo :=
  if mem then
    let t := u.ntask
    let u := u.on (·.taskNew
      { kind := .taskSockWrite, sock := some s, buf, fd := (u.sock s).fd, on := some s })
    let head := (wqPush (u.sock s).wq t).2
    let u := u.on (·.modSock s fun k => { k with wq := (wqPush k.wq t).1 })
    let u :=
      if head then
        match u.writeArm t with
        | (u, true) => u
        | (u, false) =>
          ((u.on (·.modSock s fun k => { k with wq := (wqPop k.wq).1 })).on
            (·.modTask t ({ · with sock := none }))).on (taskFail · t EAGAIN)
      else u
    u.give (.submitted (some t))
  else u.give (.submitted none)

/-! ### Closing a socket -/

/-- `impl_sock_close`, as far as the outstanding read: canceled and severed. -/
def severRead (u : UringIo) (s : SockId) : UringIo :=
  match (u.sock s).readTask with
  | some rt => ((u.cancelSubmit.1).on (·.modTask rt ({ · with sock := none }))).on
      (·.modSock s ({ · with readTask := none }))
  | none => u

/-- `impl_sock_close`, as far as the outstanding accept. -/
def severAccept (u : UringIo) (s : SockId) : UringIo :=
  match (u.sock s).acceptTask with
  | some at_ => ((u.cancelSubmit.1).on (·.modTask at_ ({ · with sock := none }))).on
      (·.modSock s ({ · with acceptTask := none }))
  | none => u

/-- The head of a FIFO forgets its socket and is popped; its own completion settles it. -/
def severHead (c : Core) (s : SockId) (w : TaskId) : Core :=
  (c.modTask w ({ · with sock := none })).modSock s fun k => { k with wq := (wqPop k.wq).1 }

/-- The loop that completes what is queued behind the head. -/
def dropQueued (c : Core) (s : SockId) : List TaskId → Core
  | [] => c
  | q :: rest => dropQueued (writeDrop c s q (-ECANCELED)) s rest

/-- A FIFO is dismantled, its head left to its own completion. -/
def dismantle (c : Core) (s : SockId) : Core :=
  match (c.sock s).wq with
  | [] => c
  | w :: rest => dropQueued (severHead c s w) s rest

/-- `impl_sock_close`, as far as the writes. -/
def severWrites (u : UringIo) (s : SockId) : UringIo :=
  match (u.sock s).wq with
  | [] => u
  | _ :: _ => (u.cancelSubmit.1).on (dismantle · s)

/-- `impl_sock_close`. -/
def implSockClose (u : UringIo) (mem : Bool) (s : SockId) : UringIo :=
  if mem then
    let t := u.ntask
    let u := u.on (·.taskNew { kind := .taskSockClose })
    let u := u.on (·.markShut s)
    let u := ((u.severRead s).severAccept s).severWrites s
    let u := match u.sqeGet with
      | (u, true) => (u.sqeFlush t 0).on (·.modTask t ({ · with sock := some s }))
      | (u, false) => u.on (taskFail · t EAGAIN)
    u.give (.submitted (some t))
  else u.give (.submitted none)

/-! ### Synchronisation -/

/-- `impl_step`, up to the wait. -/
def implStep (u : UringIo) : UringIo :=
  if u.inflight = 0 then u.give (.stepped 0)
  else { u with user := .draining .step false false }

/-- `impl_task_free` is through: the task is unlinked and freed. -/
def freeTask (u : UringIo) (t : TaskId) : UringIo :=
  { u.on fun c => { c.freeMem t with held := Function.update c.held t false } with
    user := .idle, ret := none }

/-- `impl_cancel` returns, to the caller or to `impl_task_free`. -/
def cancelReturn (u : UringIo) (t : TaskId) (free : Bool) (rc : Int) : UringIo :=
  if free then { u with user := .freeing t } else u.give (.canceled rc)

/-- `impl_cancel`, up to its loop. -/
def implCancel (u : UringIo) (t : TaskId) (free : Bool) : UringIo :=
  if (u.task t).done then u.cancelReturn t free (-1)
  else
    match (u.task t).kind with
    | .taskSleep | .taskOpen | .taskClose | .taskRead | .taskWrite | .taskConnect | .taskAccept
    | .taskSockRead =>
      match u.cancelSubmit with
      | (u, true) => { u with user := .canceling t free }
      | (u, false) => u.cancelReturn t free (-1)
    | .taskSockWrite =>
      let queued := (u.task t).sock.bind fun s =>
        if (u.sock s).wq.head? = some t then none else some s
      match queued with
      | some s =>
        -- Behind an earlier write: nothing on the ring to unwind.
        let u := u.on (·.modSock s fun k => { k with wq := wqRemove k.wq t })
        let u := u.on (·.modTask t ({ · with sock := none }))
        (u.on (taskComplete · t (-ECANCELED))).cancelReturn t free 0
      | none =>
        match u.cancelSubmit with
        | (u, true) =>
          { u.on (·.modTask t ({ · with wcanceled := true })) with user := .canceling t free }
        | (u, false) => u.cancelReturn t free (-1)
    | _ => u.cancelReturn t free (-1)

/-- The condition of the loop in `impl_cancel`, and what follows the loop. -/
def cancelLoop (u : UringIo) (t : TaskId) (free : Bool) : UringIo :=
  if (u.task t).done then
    u.cancelReturn t free (if (u.task t).res.status = .canceled then 0 else -1)
  else if u.inflight = 0 then u.cancelReturn t free (-1)
  else { u with user := .draining (.cancel t) free false }

/-- The condition of the loop in `impl_task_free`, and what follows the loop. -/
def freeLoop (u : UringIo) (t : TaskId) : UringIo :=
  if (u.task t).done || u.inflight = 0 then u.freeTask t
  else { u with user := .draining (.freeing t) true false }

/-- `impl_task_free`. -/
def implTaskFree (u : UringIo) (t : TaskId) : UringIo :=
  if (u.task t).done then u.freeTask t else u.implCancel t true

/-- `impl_task_detach`. -/
def implTaskDetach (u : UringIo) (t : TaskId) : UringIo :=
  if (u.task t).done then
    { u.on fun c => { c.taskReap t with held := Function.update c.held t false } with ret := none }
  else
    { u.on fun c => { c.modTask t ({ · with detached := true }) with
        held := Function.update c.held t false } with ret := none }

/-! ### Teardown -/

/-- The first loop of `impl_destroy`, over the sockets. -/
def dismantleAll (c : Core) : List SockId → Core
  | [] => c
  | s :: rest => dismantleAll (dismantle c s) rest

/-- `u->tasks`: every task that is not freed, newest first. -/
def tasks (c : Core) : List TaskId := (List.range c.ntask).reverse.filter fun t => (c.task t).frees = 0

/-- The second loop of `impl_destroy`, over the tasks. -/
def cancelAll (u : UringIo) : List TaskId → UringIo
  | [] => u
  | t :: rest => cancelAll (if (u.task t).done then u else u.cancelSubmit.1) rest

/-- `impl_destroy`, up to its drain. -/
def implDestroy (u : UringIo) : UringIo :=
  let u := u.on fun c => dismantleAll c c.socks
  { u.cancelAll (tasks u.toCore) with user := .destroying }

/-- The loop that frees the tasks the caller abandoned. -/
def freeAll (c : Core) : List TaskId → Core
  | [] => c
  | t :: rest => freeAll (c.freeMem t) rest

/-- The loop that closes and frees the sockets. -/
def sweep (c : Core) : List SockId → Core
  | [] => c
  | s :: rest => sweep (c.sockRelease s) rest

/-- The condition of the drain in `impl_destroy`, and what follows it. -/
def destroyLoop (u : UringIo) : UringIo :=
  if u.inflight = 0 then
    { (u.on fun c => freeAll c (tasks c)).on fun c => sweep c c.socks with user := .destroyed }
  else { u with user := .draining .destroy false false }

/-! ### The machine -/

/-- The user thread's calls, and what happens inside a call that waits. -/
inductive Label
  | open (mem path : Bool)
  | close (mem : Bool)
  | read (mem : Bool) (len : Nat)
  | write (mem : Bool) (len : Nat)
  | sleep (mem : Bool)
  | spawn (mem : Bool) (ret : Int)
  | tcpConnect (mem : Bool) (ans : ConnectAns)
  | tcpListen (ans : ListenAns)
  | tcpAccept (mem memSock : Bool) (ls : SockId)
  | sockRead (mem : Bool) (s : SockId) (len : Nat)
  | sockWrite (mem : Bool) (s : SockId) (buf : List UInt8)
  | sockClose (mem : Bool) (s : SockId)
  | step
  | cancel (t : TaskId)
  | free (t : TaskId)
  | detach (t : TaskId)
  /-- The caller reads a task's result, and with it a socket the task won. -/
  | result (t : TaskId)
  | destroy
  /-- A waiting call drains the completion of an operation. -/
  | cqe (t : TaskId) (res : Int)
  /-- A waiting call drains the completion of a cancel request. -/
  | cancelCqe
  /-- No completion is left to drain. -/
  | drained
  /-- The user thread looks at the condition of the loop it is in. -/
  | resume
  deriving DecidableEq, Repr

/-- The caller has the result, and with it the socket. -/
def readResult (c : Core) (t : TaskId) : Core :=
  match (c.task t).res.ptr with
  | some s => { c with claimed := Function.update c.claimed s true }
  | none => c

/-- A vtable call by an idle user thread. -/
def call (u : UringIo) : Label → Option UringIo
  | .open mem path => some (u.implOpen mem path)
  | .close mem => some (u.implClose mem)
  | .read mem len => some (u.implRead mem len)
  | .write mem len => some (u.implWrite mem len)
  | .sleep mem => some (u.implSleep mem)
  | .spawn mem ret => some (u.implSpawn mem ret)
  | .tcpConnect mem ans => some (u.implTcpConnect mem ans)
  | .tcpListen ans => some (u.implTcpListen ans)
  | .tcpAccept mem memSock ls => some (u.implTcpAccept mem memSock ls)
  | .sockRead mem s len => some (u.implSockRead mem s len)
  | .sockWrite mem s buf => some (u.implSockWrite mem s buf)
  | .sockClose mem s => some (u.implSockClose mem s)
  | .step => some u.implStep
  | .cancel t => some (u.implCancel t false)
  | .free t => some (u.implTaskFree t)
  | .detach t => some (u.implTaskDetach t)
  | .result t => some (u.on (readResult · t))
  | .destroy => some u.implDestroy
  | _ => none

/-- `drain_cqes` is through, and the call that waited goes on. -/
def drained (u : UringIo) (free : Bool) : UWhy → UringIo
  | .step => u.give (.stepped 1)
  | .cancel t => { u with user := .canceling t free }
  | .freeing t => { u with user := .freeing t }
  | .destroy => { u with user := .destroying }

/-- One step, or none when it is not that turn. -/
def step (u : UringIo) (label : Label) : Option UringIo :=
  match label with
  | .cqe t res =>
    match u.user with
    | .draining why free _ =>
      if t ∈ u.armed then some { u.drainOp t res with user := .draining why free true } else none
    | _ => none
  | .cancelCqe =>
    match u.user with
    | .draining why free _ =>
      if 0 < u.cancels then some { u.drainCancel with user := .draining why free true } else none
    | _ => none
  | .drained =>
    match u.user with
    | .draining why free true => some (u.drained free why)
    | _ => none
  | .resume =>
    match u.user with
    | .canceling t free => some (u.cancelLoop t free)
    | .freeing t => some (u.freeLoop t)
    | .destroying => some u.destroyLoop
    | _ => none
  | label => if u.user = .idle then u.call label else none

/-! ### The kernel's part -/

/--
What the kernel answers to an entry: a transfer of `n` bytes that succeeds moves at least one and
at most `n`, one of none moves none, and a failure is a negated errno.
-/
def answers (u : UringIo) : Label → Bool
  | .cqe t res =>
    decide (-4096 < res) && ((u.task t).kind != .taskSockWrite || decide (res < 0) ||
      decide (res.toNat ≤ u.entry t) && (u.entry t == 0 || decide (0 < res)))
  | _ => true

end UringIo

end Myio.Loop
