import Mathlib.Data.Nat.Count
import Myio.Lib.OpenFile
import Myio.Loop.Core

/-!
The Zephyr event-loop backend.

One step is one vtable call, one part of a loop turn, or one step of the work-queue thread that
runs spawned functions. A call that waits has no step until what it waits for has happened.
-/

namespace Myio.Loop

/-- What `zsock_send` answers: a count, `EAGAIN`, or another error. -/
inductive SendAns
  | sent (n : Nat)
  | again
  | err (errno : Int)
  deriving DecidableEq, Repr

/-- What `zsock_recv` answers. -/
inductive RecvAns
  | got (n : Nat)
  | again
  | err (errno : Int)
  deriving DecidableEq, Repr

/-- What `zsock_accept` answers, and what becomes of the descriptor if there is one. -/
inductive AcceptAns
  | again
  | err (errno : Int)
  /-- `sock_set_nonblock` fails. -/
  | blocking (errno : Int)
  /-- Whether the slab has a socket. -/
  | conn (mem : Bool)
  deriving DecidableEq, Repr

/-- What `zsock_connect` answers; a failure leaves `errno`, which the code reads later. -/
inductive ConnectRc
  | connected
  | inProgress
  /-- Another error than `EINPROGRESS`, and what `errno` is once the socket is released. -/
  | failed (errno after : Int)
  deriving DecidableEq, Repr

/-- How far a `tcp_connect` gets inside submit. -/
inductive ConnectAns
  /-- `zsock_getaddrinfo` fails with `rc`, and `errno` is set. -/
  | unresolved (rc errno : Int)
  /-- `zsock_socket` fails. -/
  | socket (errno : Int)
  /-- `sock_set_nonblock` fails. -/
  | blocking (errno : Int)
  /-- `zsock_connect` answers, unless the slab has no socket. -/
  | connect (mem : Bool) (rc : ConnectRc)
  deriving DecidableEq, Repr

/-- How far a `tcp_listen` gets; the constructors are its error exits in order. -/
inductive ListenAns
  | badHost
  | socket (errno : Int)
  | bind (errno : Int)
  | listening (mem : Bool)
  deriving DecidableEq, Repr

/-- What the file system answers to a read or a write, call by call. -/
structure FileAns where
  /-- The error of `fs_tell`, and below of the two `fs_seek`s, if they fail. -/
  tell : Option Int := none
  seek : Option Int := none
  n : Int := 0
  /-- Where `fs_read` or `fs_write` leaves the file; on a file opened to append it may be anywhere. -/
  left : Int := 0
  restore : Option Int := none
  deriving DecidableEq, Repr

/-- What one `zsock_poll` brings, and what the calls made for the ready entries then answer. -/
structure Poll where
  rc : Int
  revents : TaskId → Bool := fun _ => false
  evfd : Bool := false
  now : Int := 0
  soerr : TaskId → Int := fun _ => 0
  recv : TaskId → RecvAns := fun _ => .again
  accept : TaskId → AcceptAns := fun _ => .again

/-- The build's settings. -/
structure Config where
  maxTasks : Nat
  maxSockets : Nat
  maxFiles : Nat
  /-- `CONFIG_MYIO_SPAWN_INLINE`. -/
  spawnInline : Bool := false
  deriving DecidableEq, Repr

/-- One slot of the file table, with the file system's side of it. -/
structure File extends Machine.OpenFile where
  used : Bool := false
  deriving DecidableEq, Repr

/-- `fs_seek` to a position, when it succeeds. -/
def File.seekTo (pos : Int) (f : File) : File := { f with toOpenFile := f.seek pos }

/-- `fs_read` or `fs_write`: a transfer where the file stands. -/
def File.moveBytes (offset : Option Int) (n left : Int) (f : File) : File :=
  { f with toOpenFile := f.transfer offset n left }

/-- Where the work-queue thread is inside `spawn_work_handler`. -/
inductive HandlerPhase
  /-- In the spawned function. -/
  | running
  /-- Back from it, with the return value stored. -/
  | returned
  /-- The task is on `spawn_done`, and the eventfd has not been written. -/
  | pushed
  /-- The eventfd has been written, and the work item is still busy. -/
  | wrote
  deriving DecidableEq, Repr

/-- For which call a turn of the loop is made. -/
inductive Why
  | step
  | freeing (t : TaskId)
  | destroy
  deriving DecidableEq, Repr

/-- Where the one user thread is. -/
inductive ZUser
  /-- Between two vtable calls. -/
  | idle
  /-- In `zsock_poll`. -/
  | polling (why : Why)
  /-- About to read the eventfd, which the poll has reported. -/
  | reading (why : Why)
  /-- In `drain_spawn_done`, between two rounds. -/
  | draining (why : Why)
  /-- In `drain_spawn_done`, with a task taken off the list. -/
  | harvesting (t : TaskId) (why : Why)
  /-- In `task_free_mem`, waiting for the work queue to let go of the task. -/
  | releasing (t : TaskId)
  /-- At the top of the loop in `impl_destroy`. -/
  | destroying
  | destroyed
  deriving DecidableEq, Repr

/-- What the last finished call returned. -/
inductive ZRet
  | submitted (task : Option TaskId)
  | listened (sock : Option SockId) (err : Int)
  | stepped (n : Nat)
  | canceled (n : Int)
  deriving DecidableEq, Repr

/-- `struct z_io`, with the slabs, the work queue and the threads around it. -/
structure ZIo extends Core where
  cfg : Config
  /-- What the n-th `zsock_send` answers. -/
  send : Nat → SendAns
  tick : Nat
  /-- The eventfd's counter. -/
  evfd : Nat
  spawnDone : List TaskId
  /-- The items submitted to `spawn_q`, in order. -/
  workq : List TaskId
  /-- What the work-queue thread is running. -/
  handler : Option (TaskId × HandlerPhase)
  file : Nat → File
  user : ZUser
  ret : Option ZRet

/-- The resolver's code that defers to errno. -/
def DNS_EAI_SYSTEM : Int := -11

namespace ZIo

/-- `myio_zephyr_new`: everything is zero. -/
def new (cfg : Config) (send : Nat → SendAns) : ZIo where
  toCore := Core.new
  cfg := cfg
  send := send
  tick := 0
  evfd := 0
  spawnDone := []
  workq := []
  handler := none
  file := fun _ => {}
  user := .idle
  ret := none

/-- Runs shared code on the shared part. -/
def on (z : ZIo) (f : Core → Core) : ZIo := { z with toCore := f z.toCore }

/-- The call returns. -/
def give (z : ZIo) (ret : ZRet) : ZIo := { z with user := .idle, ret := some ret }

/-! ### Task allocation and completion -/

/-- The blocks of `task_slab` in use. -/
def tasksUsed (z : ZIo) : Nat := Nat.count (fun t => (z.task t).frees = 0) z.ntask

/-- The blocks of `sock_slab` in use. -/
def socksUsed (z : ZIo) : Nat := Nat.count (fun s => (z.sock s).frees = 0) z.nsock

/-- `k_mem_slab_alloc(&task_slab, ..) == 0`; it may fail early, and does when the slab is exhausted. -/
def hasTask (z : ZIo) (mem : Bool) : Bool := mem && z.tasksUsed < z.cfg.maxTasks

/-- `k_mem_slab_alloc(&sock_slab, ..) == 0`. -/
def hasSock (z : ZIo) (mem : Bool) : Bool := mem && z.socksUsed < z.cfg.maxSockets

/-- `k_work_busy_get(&t->work) != 0`: the item is queued or its handler has not returned. -/
def busy (z : ZIo) (t : TaskId) : Bool := t ∈ z.workq || z.handler.any (·.1 = t)

/-- `task_complete`: unlinks the task, stores the result, and reaps the task if detached. -/
def taskComplete (c : Core) (t : TaskId) (res : Result) : Core :=
  ((c.disarm t).finish t res).reapIfDetached t

/-- `task_ok`. -/
def taskOk (c : Core) (t : TaskId) (value : Int) (ptr : Option SockId) : Core :=
  taskComplete c t (rOk value ptr)

/-- `task_err`. -/
def taskErr (c : Core) (t : TaskId) (err : Int) : Core := taskComplete c t (rErr err)

/-- `task_canceled`. -/
def taskCanceled (c : Core) (t : TaskId) : Core := taskComplete c t rCanceled

/-- A task that is complete when its submission returns. -/
def inlineTask (z : ZIo) (mem : Bool) (res : Result) : ZIo :=
  if z.hasTask mem then
    let t := z.ntask
    ((z.on (·.taskNew { kind := .taskInline })).on (taskComplete · t res)).give (.submitted (some t))
  else z.give (.submitted none)

/-- `task_new_failed`. -/
def taskNewFailed (z : ZIo) (mem : Bool) (err : Int) : ZIo := z.inlineTask mem (rErr err)

/-! ### Filesystem operations -/

/-- A change of one slot of the file table. -/
def modFile (z : ZIo) (slot : Nat) (f : File → File) : ZIo :=
  { z with file := Function.update z.file slot (f (z.file slot)) }

/-- `fs_result`. -/
def fsResult (z : ZIo) (mem : Bool) (rc value : Int) : ZIo :=
  z.inlineTask mem (if rc < 0 then rErr (-rc) else rOk value none)

/-- The first slot that is free. -/
def freeSlot (z : ZIo) : Option Nat := (List.range z.cfg.maxFiles).find? fun i => !(z.file i).used

/-- `impl_open`, with what `fs_open` answers. -/
def implOpen (z : ZIo) (mem : Bool) (rc : Int) : ZIo :=
  match z.freeSlot with
  | none => z.taskNewFailed mem EMFILE
  | some slot =>
    let z := if rc = 0 then z.modFile slot fun _ => { used := true } else z
    z.fsResult mem rc slot

/-- The slot a file number names, if it is in use. -/
def usedSlot (z : ZIo) (fd : Int) : Option Nat :=
  if fd < 0 ∨ (z.cfg.maxFiles : Int) ≤ fd ∨ (z.file fd.toNat).used = false then none else some fd.toNat

/-- `impl_close`, with what `fs_close` answers. -/
def implClose (z : ZIo) (mem : Bool) (fd rc : Int) : ZIo :=
  match z.usedSlot fd with
  | none => z.taskNewFailed mem EBADF
  | some slot =>
    let z := if rc = 0 then z.modFile slot fun f => { f with used := false } else z
    z.fsResult mem rc 0

/--
`file_rw`: `impl_read` and `impl_write`; an offset of `none` is `MYIO_NO_OFFSET`.

`off_t` has 64 bits, as on the 64-bit simulator the README builds for, so the casts change nothing.
-/
def fileRw (z : ZIo) (mem : Bool) (fd : Int) (offset : Option Int) (ans : FileAns) : ZIo :=
  match z.usedSlot fd with
  | none => z.taskNewFailed mem EBADF
  | some slot =>
    match offset with
    | none =>
      (z.modFile slot (·.moveBytes none ans.n ans.left)).fsResult mem
        (if ans.n < 0 then ans.n else 0) ans.n
    | some offset =>
      let saved := (z.file slot).pos
      match ans.tell, ans.seek with
      | some rc, _ => z.fsResult mem rc 0
      | none, some rc => z.fsResult mem rc 0
      | none, none =>
        let z := z.modFile slot fun f => (f.seekTo offset).moveBytes (some offset) ans.n ans.left
        -- Only a seek back that succeeds restores the position.
        let z := if ans.restore.isNone then z.modFile slot (·.seekTo saved) else z
        z.fsResult mem (if ans.n < 0 then ans.n else 0) ans.n

/-! ### Timers -/

/-- `impl_sleep`, with what `k_uptime_get` answers; the arithmetic is that of `int64_t`. -/
def implSleep (z : ZIo) (mem : Bool) (ms : Nat) (uptime : Int) : ZIo :=
  if z.hasTask mem then
    let t := z.ntask
    let deadline := Int.bmod (uptime + Int.bmod ms (2 ^ 64)) (2 ^ 64)
    ((z.on (·.taskNew { kind := .taskTimer, deadline })).on (·.arm t)).give (.submitted (some t))
  else z.give (.submitted none)

/-! ### Spawned functions -/

/-- The result of a spawned function that returned `ret`. -/
def fnResult (ret : Int) : Result := if 0 ≤ ret then rOk ret none else rErr (toInt32 (-ret))

/-- `impl_spawn`; `ret` is what the function returns, if the build runs it here. -/
def implSpawn (z : ZIo) (mem : Bool) (ret : Int) : ZIo :=
  if z.cfg.spawnInline then z.inlineTask mem (fnResult ret)
  else if z.hasTask mem then
    let t := z.ntask
    let z := (z.on (·.taskNew { kind := .taskSpawn })).on (·.arm t)
    { z with workq := z.workq ++ [t] }.give (.submitted (some t))
  else z.give (.submitted none)

/-! ### TCP: connect, listen, accept -/

/-- The error a failed resolution is reported with. -/
def gaiError (rc errno : Int) : Int :=
  if rc = DNS_EAI_SYSTEM then errno else if rc < 0 then rc else -rc

/-- `impl_tcp_connect`. -/
def implTcpConnect (z : ZIo) (mem : Bool) (ans : ConnectAns) : ZIo :=
  if z.hasTask mem then
    let t := z.ntask
    let z := z.on (·.taskNew { kind := .taskConnect })
    let z := match ans with
      | .unresolved rc errno => z.on (taskErr · t (gaiError rc errno))
      | .socket errno => z.on (taskErr · t errno)
      | .blocking errno =>
        let fd := z.ndesc
        ((z.on (·.newDesc)).on (·.closeDesc fd)).on (taskErr · t errno)
      | .connect memSock rc =>
        let fd := z.ndesc
        let z := z.on (·.newDesc)
        if z.hasSock memSock then
          let s := z.nsock
          let z := (z.on (·.sockNew (some fd))).on (·.modTask t ({ · with sock := some s }))
          match rc with
          | .connected => (z.on (·.modTask t ({ · with sock := none }))).on (taskOk · t 0 (some s))
          | .inProgress => z.on (·.arm t)
          | .failed _ after =>
            -- `errno` is read only after the socket has been released.
            ((z.on (·.modTask t ({ · with sock := none }))).on (·.sockRelease s)).on
              (taskErr · t after)
        else (z.on (·.closeDesc fd)).on (taskErr · t ENOMEM)
    z.give (.submitted (some t))
  else z.give (.submitted none)

/-- `connect_ready`, with the error the socket reports. -/
def connectReady (c : Core) (t : TaskId) (soerr : Int) : Core :=
  let s := c.sockOf t
  let c := c.modTask t ({ · with sock := none })
  if soerr = 0 then taskOk c t 0 (some s) else taskErr (c.sockRelease s) t soerr

/-- `impl_tcp_listen`. -/
def implTcpListen (z : ZIo) (ans : ListenAns) : ZIo :=
  match ans with
  | .badHost => z.give (.listened none EINVAL)
  | .socket errno => z.give (.listened none errno)
  | .bind errno =>
    let fd := z.ndesc
    ((z.on (·.newDesc)).on (·.closeDesc fd)).give (.listened none errno)
  | .listening mem =>
    let fd := z.ndesc
    let z := z.on (·.newDesc)
    if z.hasSock mem then
      let s := z.nsock
      let z := z.on (·.sockNew (some fd))
      (z.on fun c => { c with claimed := Function.update c.claimed s true }).give
        (.listened (some s) 0)
    else (z.on (·.closeDesc fd)).give (.listened none ENOMEM)

/-- `accept_try`; the answer is whether the task completed. -/
def acceptTry (z : ZIo) (t : TaskId) (ans : AcceptAns) : ZIo × Bool :=
  let ls := z.sockOf t
  let freed := z.on (·.modSock ls ({ · with acceptTask := none }))
  let fd := z.ndesc
  match ans with
  | .again => (z, false)
  | .err errno => (freed.on (taskErr · t errno), true)
  | .blocking errno => (((freed.on (·.newDesc)).on (·.closeDesc fd)).on (taskErr · t errno), true)
  | .conn mem =>
    let z := freed.on (·.newDesc)
    if z.hasSock mem then
      let s := z.nsock
      ((z.on (·.sockNew (some fd))).on (taskOk · t 0 (some s)), true)
    else ((z.on (·.closeDesc fd)).on (taskErr · t ENOMEM), true)

/-- `impl_tcp_accept`. -/
def implTcpAccept (z : ZIo) (mem : Bool) (ls : SockId) (ans : AcceptAns) : ZIo :=
  if (z.sock ls).acceptTask.isSome then z.taskNewFailed mem EBUSY
  else if z.hasTask mem then
    let t := z.ntask
    let z := z.on (·.taskNew { kind := .taskAccept, sock := some ls })
    let z := z.on (·.modSock ls ({ · with acceptTask := some t }))
    let z := match z.acceptTry t ans with
      | (z, true) => z
      | (z, false) => z.on (·.arm t)
    z.give (.submitted (some t))
  else z.give (.submitted none)

/-! ### TCP: read, write, close -/

/-- `read_try`; the answer is whether the task completed. -/
def readTry (c : Core) (t : TaskId) (ans : RecvAns) : Core × Bool :=
  let s := c.sockOf t
  let freed := c.modSock s ({ · with readTask := none })
  match ans with
  | .again => (c, false)
  | .err errno => (taskErr freed t errno, true)
  | .got n => (taskOk freed t n none, true)

/-- `impl_sock_read`. -/
def implSockRead (z : ZIo) (mem : Bool) (s : SockId) (ans : RecvAns) : ZIo :=
  if (z.sock s).readTask.isSome then z.taskNewFailed mem EBUSY
  else if z.hasTask mem then
    let t := z.ntask
    let z := z.on (·.taskNew { kind := .taskSockRead, sock := some s })
    let z := z.on (·.modSock s ({ · with readTask := some t }))
    let z := match readTry z.toCore t ans with
      | (c, true) => z.on fun _ => c
      | (_, false) => z.on (·.arm t)
    z.give (.submitted (some t))
  else z.give (.submitted none)

/-- How an attempt to send the rest of a buffer ends. -/
inductive TryEnd
  | drained
  | again
  | err (errno : Int)
  deriving DecidableEq, Repr

/-- `write_try`; every answer accepts at least one byte and at most the rest of the buffer. -/
def writeTry (z : ZIo) (t : TaskId) : Nat → ZIo × TryEnd
  | 0 => (z, .drained)
  | fuel + 1 =>
    if (z.task t).off < (z.task t).buf.length then
      match z.send z.tick with
      | .again => ({ z with tick := z.tick + 1 }, .again)
      | .err errno => ({ z with tick := z.tick + 1 }, .err errno)
      | .sent n =>
        let left := (z.task t).buf.length - (z.task t).off
        writeTry ({ z with tick := z.tick + 1 }.on (·.sendBytes t (max 1 (min n left)))) t fuel
    else (z, .drained)

/-- `write_try` with as many rounds as there are bytes left. -/
def writeTryAll (z : ZIo) (t : TaskId) : ZIo × TryEnd :=
  z.writeTry t ((z.task t).buf.length - (z.task t).off)

/-- The head of a FIFO that is through with its buffer is popped and completed. -/
def writePop (c : Core) (s : SockId) (t : TaskId) (res : Result) : Core :=
  taskComplete (c.modSock s fun k => { k with wq := (wqPop k.wq).1 }) t res

/-- `write_arm`, over the FIFO from the task on. -/
def writeArm (z : ZIo) (s : SockId) : List TaskId → ZIo
  | [] => z
  | t :: rest =>
    match z.writeTryAll t with
    | (z, .again) => z.on (·.arm t)
    | (z, .drained) =>
      writeArm (z.on fun c => writePop c s t (rOk (z.task t).buf.length none)) s rest
    | (z, .err errno) => writeArm (z.on fun c => writePop c s t (rErr errno)) s rest

/-- `write_ready`. -/
def writeReady (z : ZIo) (t : TaskId) : ZIo :=
  let s := z.sockOf t
  match z.writeTryAll t with
  | (z, .again) => z
  | (z, .drained) =>
    let z := z.on fun c => writePop c s t (rOk (z.task t).buf.length none)
    z.writeArm s (z.sock s).wq
  | (z, .err errno) =>
    let z := z.on fun c => writePop c s t (rErr errno)
    z.writeArm s (z.sock s).wq

/-- `impl_sock_write`. -/
def implSockWrite (z : ZIo) (mem : Bool) (s : SockId) (buf : List UInt8) : ZIo :=
  if z.hasTask mem then
    let t := z.ntask
    let z := z.on (·.taskNew
      { kind := .taskSockWrite, sock := some s, buf, fd := (z.sock s).fd, on := some s })
    let head := (wqPush (z.sock s).wq t).2
    let z := z.on (·.modSock s fun k => { k with wq := (wqPush k.wq t).1 })
    let z := if head then z.writeArm s [t] else z
    z.give (.submitted (some t))
  else z.give (.submitted none)

/-- The loop of `impl_sock_close` over the FIFO as it stands. -/
def cancelWrites (c : Core) (s : SockId) : List TaskId → Core
  | [] => c
  | w :: rest => cancelWrites (writePop c s w rCanceled) s rest

/-- `impl_sock_close`, as far as the outstanding read. -/
def cancelRead (c : Core) (s : SockId) : Core :=
  match (c.sock s).readTask with
  | some rt => taskCanceled (c.modSock s ({ · with readTask := none })) rt
  | none => c

/-- `impl_sock_close`, as far as the outstanding accept. -/
def cancelAccept (c : Core) (s : SockId) : Core :=
  match (c.sock s).acceptTask with
  | some at_ => taskCanceled (c.modSock s ({ · with acceptTask := none })) at_
  | none => c

/-- The part of `impl_sock_close` that completes what is outstanding. -/
def cancelAll (c : Core) (s : SockId) : Core :=
  let c := cancelAccept (cancelRead c s) s
  cancelWrites c s (c.sock s).wq

/-- `impl_sock_close`. -/
def implSockClose (z : ZIo) (mem : Bool) (s : SockId) : ZIo :=
  if z.hasTask mem then
    let t := z.ntask
    let z := z.on (·.taskNew { kind := .taskInline })
    let z := z.on (·.markShut s)
    let z := (z.on (cancelAll · s)).on (·.sockRelease s)
    (z.on (taskOk · t 0 none)).give (.submitted (some t))
  else z.give (.submitted none)

/-! ### The loop -/

/-- The kinds with an entry in the poll set. -/
def pollable : TaskKind → Bool
  | .taskConnect | .taskAccept | .taskSockRead | .taskSockWrite => true
  | _ => false

/-- `owner[]`: the tasks with an entry in the poll set, in order; the eventfd's entry comes last. -/
def owners (c : Core) : List TaskId := c.armed.filter fun t => pollable (c.task t).kind

/-- The walk over `pending` that completes the expired timers. -/
def fireTimers (c : Core) (now : Int) : List TaskId → Core
  | [] => c
  | t :: rest =>
    let c := if (c.task t).kind = .taskTimer ∧ (c.task t).deadline ≤ now then taskOk c t 0 none else c
    fireTimers c now rest

/-- One entry of the poll set; it is only looked at while its task is still pending. -/
def readyOne (z : ZIo) (p : Poll) (t : TaskId) : ZIo :=
  if p.revents t && decide (t ∈ z.armed) then
    match (z.task t).kind with
    | .taskConnect => z.on (connectReady · t (p.soerr t))
    | .taskAccept => (z.acceptTry t (p.accept t)).1
    | .taskSockRead => z.on fun c => (readTry c t (p.recv t)).1
    | .taskSockWrite => z.writeReady t
    | _ => z
  else z

/-- The walk over the poll set. -/
def readyAll (z : ZIo) (p : Poll) : List TaskId → ZIo
  | [] => z
  | t :: rest => readyAll (z.readyOne p t) p rest

/-- `task_free_mem` of a task the caller gives up; it waits for the work queue if it has to. -/
def taskFree (z : ZIo) (t : TaskId) : ZIo :=
  if z.busy t then { z with user := .releasing t }
  else { z.on fun c => { c.freeMem t with held := Function.update c.held t false } with
    user := .idle, ret := none }

/-- The loop in `impl_task_free`, at its condition. -/
def freeLoop (z : ZIo) (t : TaskId) : ZIo :=
  if (z.task t).done then z.taskFree t
  else if z.armed.isEmpty then z.taskFree t
  else { z with user := .polling (.freeing t) }

/-- A turn of the loop is over. -/
def turned (z : ZIo) : Why → ZIo
  | .step => z.give (.stepped 1)
  | .freeing t => z.freeLoop t
  | .destroy => { z with user := .destroying }

/-- `run_loop_once`, from the return of `zsock_poll` to the eventfd's entry. -/
def runLoopOnce (z : ZIo) (p : Poll) (why : Why) : ZIo :=
  let entries := owners z.toCore
  let z := z.on fun c => fireTimers c p.now c.armed
  if p.rc ≤ 0 then z.turned why
  else
    let z := z.readyAll p entries
    if p.evfd then { z with user := .reading why } else z.turned why

/-! ### Synchronisation -/

/-- `impl_step`, up to the poll. -/
def implStep (z : ZIo) : ZIo :=
  if z.armed.isEmpty then z.give (.stepped 0) else { z with user := .polling .step }

/-- `k_work_cancel`: takes the item off the queue; the answer is whether it is idle then. -/
def kWorkCancel (z : ZIo) (t : TaskId) : ZIo × Bool :=
  let z := { z with workq := z.workq.erase t }
  (z, !z.busy t)

/-- `impl_cancel`. -/
def implCancel (z : ZIo) (t : TaskId) : ZIo × Int :=
  if (z.task t).done then (z, -1)
  else
    match (z.task t).kind with
    | .taskTimer => (z.on (taskCanceled · t), 0)
    | .taskConnect =>
      let s := z.sockOf t
      let z := z.on (·.modTask t ({ · with sock := none }))
      ((z.on (taskCanceled · t)).on (·.sockRelease s), 0)
    | .taskAccept =>
      let z := z.on fun c => c.modSock (c.sockOf t) ({ · with acceptTask := none })
      (z.on (taskCanceled · t), 0)
    | .taskSockRead =>
      let z := z.on fun c => c.modSock (c.sockOf t) ({ · with readTask := none })
      (z.on (taskCanceled · t), 0)
    | .taskSockWrite =>
      let s := z.sockOf t
      if 0 < (z.task t).off then (z, -1)
      else
        let wasHead := (z.sock s).wq.head? = some t
        let z := z.on (·.modSock s fun k => { k with wq := wqRemove k.wq t })
        let z := z.on (taskCanceled · t)
        (if wasHead then z.writeArm s (z.sock s).wq else z, 0)
    | .taskSpawn =>
      if (z.task t).pushed then (z, -1)
      else
        match z.kWorkCancel t with
        | (z, true) => (z.on (taskCanceled · t), 0)
        | (z, false) => (z, -1)
    | _ => (z, -1)

/-! ### Lifetime -/

/-- `impl_task_free`. -/
def implTaskFree (z : ZIo) (t : TaskId) : ZIo :=
  if (z.task t).done then z.taskFree t
  else
    match z.implCancel t with
    | (z, 0) => z.taskFree t
    | (z, _) => z.freeLoop t

/-- `impl_task_detach`; reaping a spawn waits for the work queue if it has to. -/
def implTaskDetach (z : ZIo) (t : TaskId) : ZIo :=
  if (z.task t).done then
    match (z.task t).res.ptr with
    | some s => (z.on (·.sockRelease s)).taskFree t
    | none => z.taskFree t
  else
    { z.on fun c => { c.modTask t ({ · with detached := true }) with
        held := Function.update c.held t false } with ret := none }

/-- `while (z->socks) sock_release(z, z->socks);` -/
def sweep (c : Core) : List SockId → Core
  | [] => c
  | s :: rest => sweep (c.sockRelease s) rest

/-- One round of the loop in `impl_destroy`, or what follows the loop. -/
def destroyRound (z : ZIo) : ZIo :=
  match z.armed with
  | t :: _ =>
    match z.implCancel t with
    | (z, 0) => z
    | (z, _) => { z with user := .polling .destroy }
  | [] => { z.on fun c => sweep c c.socks with
      file := fun i => { z.file i with used := false }, user := .destroyed }

/-! ### The machine -/

/-- The user thread's calls, its waits, and the work-queue thread's steps. -/
inductive Label
  | open (mem : Bool) (rc : Int)
  | close (mem : Bool) (fd rc : Int)
  | fileRw (mem : Bool) (fd : Int) (offset : Option Int) (ans : FileAns)
  | sleep (mem : Bool) (ms : Nat) (uptime : Int)
  | spawn (mem : Bool) (ret : Int)
  | tcpConnect (mem : Bool) (ans : ConnectAns)
  | tcpListen (ans : ListenAns)
  | tcpAccept (mem : Bool) (ls : SockId) (ans : AcceptAns)
  | sockRead (mem : Bool) (s : SockId) (ans : RecvAns)
  | sockWrite (mem : Bool) (s : SockId) (buf : List UInt8)
  | sockClose (mem : Bool) (s : SockId)
  | step
  | cancel (t : TaskId)
  | free (t : TaskId)
  | detach (t : TaskId)
  /-- The caller reads a task's result, and with it a socket the task won. -/
  | result (t : TaskId)
  | destroy
  /-- `zsock_poll` returns. -/
  | poll (p : Poll)
  /-- The user thread goes on inside a call. -/
  | resume
  /-- The work-queue thread takes the next item and calls its handler. -/
  | take
  /-- The spawned function returns. -/
  | ran (ret : Int)
  | push
  | wake
  /-- The handler has returned, and the work item is idle again. -/
  | finish

/-- The caller has the result, and with it the socket. -/
def readResult (c : Core) (t : TaskId) : Core :=
  match (c.task t).res.ptr with
  | some s => { c with claimed := Function.update c.claimed s true }
  | none => c

/-- A vtable call by an idle user thread. -/
def call (z : ZIo) : Label → Option ZIo
  | .open mem rc => some (z.implOpen mem rc)
  | .close mem fd rc => some (z.implClose mem fd rc)
  | .fileRw mem fd offset ans => some (z.fileRw mem fd offset ans)
  | .sleep mem ms uptime => some (z.implSleep mem ms uptime)
  | .spawn mem ret => some (z.implSpawn mem ret)
  | .tcpConnect mem ans => some (z.implTcpConnect mem ans)
  | .tcpListen ans => some (z.implTcpListen ans)
  | .tcpAccept mem ls ans => some (z.implTcpAccept mem ls ans)
  | .sockRead mem s ans => some (z.implSockRead mem s ans)
  | .sockWrite mem s buf => some (z.implSockWrite mem s buf)
  | .sockClose mem s => some (z.implSockClose mem s)
  | .step => some z.implStep
  | .cancel t => some ((z.implCancel t).1.give (.canceled (z.implCancel t).2))
  | .free t => some (z.implTaskFree t)
  | .detach t => some (z.implTaskDetach t)
  | .result t => some (z.on (readResult · t))
  | .destroy => some { z with user := .destroying }
  | _ => none

/-- The user thread goes on inside a call that is not in `zsock_poll`. -/
def resume (z : ZIo) : Option ZIo :=
  match z.user with
  | .reading why => if 0 < z.evfd then some { z with evfd := 0, user := .draining why } else none
  | .draining why =>
    match z.spawnDone with
    | t :: rest => some { z with spawnDone := rest, user := .harvesting t why }
    | [] => some (z.turned why)
  | .harvesting t why =>
    if (z.task t).detached && z.busy t then none
    else some { z.on (taskComplete · t (fnResult (z.task t).fnRet)) with user := .draining why }
  | .releasing t => if z.busy t then none else some (z.taskFree t)
  | .destroying => some z.destroyRound
  | _ => none

/-- A step of the work-queue thread. -/
def work (z : ZIo) : Label → Option ZIo
  | .take =>
    match z.handler, z.workq with
    | none, t :: rest => some { z.on (·.modTask t fun k => { k with runs := k.runs + 1 }) with
        workq := rest, handler := some (t, .running) }
    | _, _ => none
  | .ran ret =>
    match z.handler with
    | some (t, .running) => some { z.on (·.modTask t ({ · with fnRet := ret })) with
        handler := some (t, .returned) }
    | _ => none
  | .push =>
    match z.handler with
    | some (t, .returned) => some { z.on (·.modTask t ({ · with pushed := true })) with
        spawnDone := t :: z.spawnDone, handler := some (t, .pushed) }
    | _ => none
  | .wake =>
    match z.handler with
    | some (t, .pushed) => some { z with evfd := z.evfd + 1, handler := some (t, .wrote) }
    | _ => none
  | .finish =>
    match z.handler with
    | some (_, .wrote) => some { z with handler := none }
    | _ => none
  | _ => none

/-- One step, or none when it is not that thread's turn. -/
def step (z : ZIo) (label : Label) : Option ZIo :=
  match label with
  | .poll p =>
    match z.user with
    | .polling why => some (z.runLoopOnce p why)
    | _ => none
  | .resume => z.resume
  | .take => z.work .take
  | .ran ret => z.work (.ran ret)
  | .push => z.work .push
  | .wake => z.work .wake
  | .finish => z.work .finish
  | label => if z.user = .idle then z.call label else none

end ZIo

end Myio.Loop
