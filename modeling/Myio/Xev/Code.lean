import Mathlib.Logic.Function.Basic
import Myio.Vtable

/-!
The libxev backend, for both of the loops it is instantiated with.

libxev is the environment: which callback it runs next, and with which result, is part of a step's
label, and `libxev` says which of them are possible. A submission for which there is no memory
leaves nothing behind and is no step.
-/

namespace Myio.Xev

open Function (update)

/-! ### Errors -/

/-- The Zig errors the code tells apart, and all others. -/
inductive XevError
  | outOfMemory
  | systemResources
  | accessDenied
  | permissionDenied
  | addressInUse
  | addressNotAvailable
  | addressFamilyNotSupported
  | wouldBlock
  | connectionRefused
  | connectionResetByPeer
  | connectionTimedOut
  | networkUnreachable
  | brokenPipe
  | fileNotFound
  | pathAlreadyExists
  | isDir
  | notDir
  | fileTooBig
  | noSpaceLeft
  | invalidArgument
  | invalidAddress
  | invalidPort
  | processFdQuotaExceeded
  | systemFdQuotaExceeded
  | notOpenForReading
  | notOpenForWriting
  | unseekable
  | canceled
  | eof
  | other
  deriving DecidableEq, Repr

/-- `errnoOf`. -/
def errnoOf : XevError → Int
  | .outOfMemory | .systemResources => ENOMEM
  | .accessDenied | .permissionDenied => 13
  | .addressInUse => 98
  | .addressNotAvailable => 99
  | .addressFamilyNotSupported => 97
  | .wouldBlock => EAGAIN
  | .connectionRefused => 111
  | .connectionResetByPeer => 104
  | .connectionTimedOut => 110
  | .networkUnreachable => 101
  | .brokenPipe => 32
  | .fileNotFound => 2
  | .pathAlreadyExists => 17
  | .isDir => 21
  | .notDir => 20
  | .fileTooBig => 27
  | .noSpaceLeft => 28
  | .invalidArgument | .invalidAddress | .invalidPort => EINVAL
  | .processFdQuotaExceeded => EMFILE
  | .systemFdQuotaExceeded => 23
  | .notOpenForReading | .notOpenForWriting => EBADF
  | .unseekable => 29
  | .canceled | .eof | .other => 5

/-! ### Records -/

/-- The loop the generic code is instantiated with. -/
inductive Backend
  | epoll
  | ioUring
  deriving DecidableEq, Repr

/-- `Kind`. -/
inductive Kind
  | open
  | fileRw
  | fileClose
  | timer
  | spawn
  | connect
  | accept
  | sockRead
  | sockWrite
  | sockClose
  deriving DecidableEq, Repr

/--
`Task`. A completion is active from its submission to the loop until its callback disarms it.

The operation inputs only the kernel reads are left out. The last five fields are history: they
record what happened and no code reads them.
-/
structure Task where
  kind : Kind
  done : Bool := false
  detached : Bool := false
  res : Result := rPending
  /-- The operation's completion is active. -/
  c : Bool := false
  /-- The completion of a cancel is active. -/
  cCancel : Bool := false
  /-- The completion of the thread pool's wakeup is active. -/
  cAsync : Bool := false
  hasNotifier : Bool := false
  poolPending : Bool := false
  poolValue : Int := 0
  poolErrno : Int := 0
  cancelRequested : Bool := false
  sock : Option SockId := none
  wbuf : List UInt8 := []
  wnext : Option TaskId := none
  /-- The buffer of the send on the loop. -/
  slice : List UInt8 := []
  /-- The socket a write was submitted on. -/
  on : Option SockId := none
  /-- How many of a write's bytes the kernel has accepted. -/
  sent : Nat := 0
  /-- The socket a connect or an accept has won. -/
  won : Option SockId := none
  /-- How often the task was finished. -/
  dones : Nat := 0
  /-- How often the memory was released. -/
  frees : Nat := 0
  deriving DecidableEq, Repr

/-- `Sock`; the last five fields are history, as above. -/
structure Sock where
  readTask : Option TaskId := none
  acceptTask : Option TaskId := none
  closeTask : Option TaskId := none
  writeHead : Option TaskId := none
  writeTail : Option TaskId := none
  /-- The completion of `sockDiscardAsync` is active. -/
  cClose : Bool := false
  /-- The bytes the kernel has accepted. -/
  wire : List UInt8 := []
  /-- How often the socket was handed to a close on the loop. -/
  loopCloses : Nat := 0
  /-- How often `closeFd` was called on its descriptor. -/
  fdCloses : Nat := 0
  /-- It was destroyed by `sockCloseCb`. -/
  closed : Bool := false
  /-- How often the memory was released. -/
  frees : Nat := 0
  deriving DecidableEq, Repr

/-- For which call the loop is turning. -/
inductive Goal
  | step
  /-- The first loop of `implTaskFree`, until the task is done. -/
  | settle (t : TaskId)
  /-- Its second loop, until nothing refers to the task. -/
  | drain (t : TaskId)
  | destroy
  deriving DecidableEq, Repr

/-- Where the one user thread is. -/
inductive User
  | idle
  /-- Inside `loop.run`; `before` is what `ncompleted` was when the turn began. -/
  | turning (goal : Goal) (before : Nat)
  | destroyed
  deriving DecidableEq, Repr

/-- What a call returned. -/
inductive Ret
  | stepped (rc : Int)
  | canceled (rc : Int)
  | listened (sock : Option SockId) (err : Int)
  deriving DecidableEq, Repr

/-- `Io`, with the user thread around it. -/
structure Io where
  backend : Backend
  task : TaskId → Task
  ntask : Nat
  sock : SockId → Sock
  nsock : Nat
  /-- The list `io.socks`, newest first. -/
  socks : List SockId
  /-- The list `io.reap`, newest first. -/
  reap : List TaskId
  detachedLive : Nat
  ncompleted : Nat
  user : User
  ret : Option Ret
  /-- `loop.run` has failed, and cannot be driven any more. -/
  broken : Bool
  /-- The task handles the caller has neither freed nor detached. -/
  held : TaskId → Bool
  /-- The sockets whose pointer the caller has been given. -/
  claimed : SockId → Bool

namespace Io

/-- `create`. -/
def new (backend : Backend) : Io where
  backend := backend
  task := fun _ => { kind := .open }
  ntask := 0
  sock := fun _ => {}
  nsock := 0
  socks := []
  reap := []
  detachedLive := 0
  ncompleted := 0
  user := .idle
  ret := none
  broken := false
  held := fun _ => false
  claimed := fun _ => false

/-- Writes through a task pointer. -/
def modTask (io : Io) (t : TaskId) (f : Task → Task) : Io :=
  { io with task := update io.task t (f (io.task t)) }

/-- Writes through a socket pointer. -/
def modSock (io : Io) (s : SockId) (f : Sock → Sock) : Io :=
  { io with sock := update io.sock s (f (io.sock s)) }

/-- `taskNew`; the task's name is the old `ntask`. -/
def taskNew (io : Io) (kind : Kind) : Io :=
  { io with task := update io.task io.ntask { kind }, ntask := io.ntask + 1
            held := update io.held io.ntask true }

/-- `alloc.create(Sock)` and `sockListAdd`; the socket's name is the old `nsock`. -/
def sockNew (io : Io) : Io :=
  { io with sock := update io.sock io.nsock {}, nsock := io.nsock + 1, socks := io.nsock :: io.socks }

/-- A task's operation is handed to the loop. -/
def start (io : Io) (t : TaskId) : Io := io.modTask t ({ · with c := true })

/-- The loop lets go of a task's operation. -/
def disarm (io : Io) (t : TaskId) : Io := io.modTask t ({ · with c := false })

/-- The socket a task acts on; only read for the kinds that have one. -/
def sockOf (io : Io) (t : TaskId) : SockId := (io.task t).sock.getD 0

/-! ### Completion -/

/-- `sockDiscardAsync`. -/
def sockDiscardAsync (io : Io) (s : SockId) : Io :=
  io.modSock s fun k => { k with cClose := true, loopCloses := k.loopCloses + 1 }

/-- `discardResult`. -/
def discardResult (io : Io) (t : TaskId) : Io :=
  match (io.task t).res.ptr with
  | none => io
  | some s => (io.modTask t fun k => { k with res := { k.res with ptr := none } }).sockDiscardAsync s

/-- `finish`. -/
def finish (io : Io) (t : TaskId) : Io :=
  let io := io.modTask t fun k => { k with done := true, dones := k.dones + 1 }
  let io := { io with ncompleted := io.ncompleted + 1 }
  if (io.task t).detached then
    let io := io.discardResult t
    { io with reap := t :: io.reap }
  else io

/-- `completeOk`. -/
def completeOk (io : Io) (t : TaskId) (value : Int) : Io :=
  (io.modTask t fun k => { k with res := { k.res with status := .ok, value } }).finish t

/-- `completeErr`. -/
def completeErr (io : Io) (t : TaskId) (errno : Int) : Io :=
  (io.modTask t fun k => { k with res := { k.res with status := .error, error := errno } }).finish t

/-- `completeCanceled`. -/
def completeCanceled (io : Io) (t : TaskId) : Io :=
  (io.modTask t fun k => { k with res := { k.res with status := .canceled } }).finish t

/-- How most callbacks report an error. -/
def completeFailed (io : Io) (t : TaskId) (err : XevError) : Io :=
  if err = .canceled then io.completeCanceled t else io.completeErr t (errnoOf err)

/-- `taskFailed`. -/
def taskFailed (io : Io) (kind : Kind) (errno : Int) : Io :=
  (io.taskNew kind).completeErr io.ntask errno

/-- `taskIdle`. -/
def taskIdle (io : Io) (t : TaskId) : Bool :=
  !(io.task t).poolPending && !(io.task t).c && !(io.task t).cCancel && !(io.task t).cAsync

/-- `taskDestroy`. -/
def taskDestroy (io : Io) (t : TaskId) : Io :=
  let io := if (io.task t).detached then { io with detachedLive := io.detachedLive - 1 } else io
  io.modTask t fun k => { k with frees := k.frees + 1 }

/-- The walk of `reapDetached` over the list. -/
def reapEach (io : Io) : List TaskId → Io
  | [] => io
  | t :: rest => reapEach (if io.taskIdle t then io.taskDestroy t else io) rest

/-- `reapDetached`. -/
def reapDetached (io : Io) : Io :=
  { io.reapEach io.reap with reap := io.reap.filter fun t => !io.taskIdle t }

/-! ### Canceling -/

/-- `submitCancel` of a task's own completion. -/
def submitCancel (io : Io) (t : TaskId) : Io :=
  if (io.task t).cCancel then io
  else if (io.task t).c then io.modTask t ({ · with cCancel := true })
  else io

/-- `sockListRemove` and `alloc.destroy(s)`. -/
def sockFree (io : Io) (s : SockId) : Io :=
  { io.modSock s fun k => { k with frees := k.frees + 1 } with socks := io.socks.erase s }

/-- `sockDiscard`. -/
def sockDiscard (io : Io) (s : SockId) : Io :=
  (io.modSock s fun k => { k with fdCloses := k.fdCloses + 1 }).sockFree s

/-- `sockReapCb`. -/
def sockReapCb (io : Io) (s : SockId) : Io := (io.modSock s ({ · with cClose := false })).sockFree s

/-! ### The write FIFO -/

/-- `writePush`; the answer is whether the write became the head. -/
def writePush (io : Io) (s : SockId) (t : TaskId) : Io × Bool :=
  let io := io.modTask t ({ · with wnext := none })
  match (io.sock s).writeTail with
  | some tail =>
    ((io.modTask tail ({ · with wnext := some t })).modSock s ({ · with writeTail := some t }), false)
  | none => (io.modSock s ({ · with writeHead := some t, writeTail := some t }), true)

/-- What `writeListRemove` does with the member it has found, `prev` being the one before it. -/
def writeUnlink (io : Io) (s : SockId) (prev : Option TaskId) (c : TaskId) : Io :=
  let next := (io.task c).wnext
  let io := match prev with
    | some pv => io.modTask pv ({ · with wnext := next })
    | none => io.modSock s ({ · with writeHead := next })
  let io := if (io.sock s).writeTail = some c then io.modSock s ({ · with writeTail := prev }) else io
  io.modTask c ({ · with wnext := none })

/-- The loop of `writeListRemove`, over at most as many members as the first argument says. -/
def writeSearch (io : Io) (s : SockId) (t : TaskId) : Nat → Option TaskId → Option TaskId → Io
  | 0, _, _ => io
  | _ + 1, _, none => io
  | fuel + 1, prev, some c =>
    if c = t then io.writeUnlink s prev c
    else io.writeSearch s t fuel (some c) (io.task c).wnext

/-- `writeListRemove`. -/
def writeListRemove (io : Io) (s : SockId) (t : TaskId) : Io :=
  io.writeSearch s t io.ntask none (io.sock s).writeHead

/-- A write's send is handed to the loop, with the whole buffer. -/
def writeStart (io : Io) (t : TaskId) : Io :=
  io.modTask t fun k => { k with c := true, slice := k.wbuf }

/-- What `writePopHead` does with the pointers: `t` is the head by construction. -/
def writeUnhead (io : Io) (s : SockId) (t : TaskId) : Io :=
  let io := io.modTask t ({ · with sock := none })
  let io := io.modSock s ({ · with writeHead := (io.task t).wnext })
  let io := if (io.sock s).writeHead = none then io.modSock s ({ · with writeTail := none }) else io
  io.modTask t ({ · with wnext := none })

/-- `writePopHead`. -/
def writePopHead (io : Io) (t : TaskId) : Io :=
  match (io.task t).sock with
  | none => io
  | some s =>
    let io := io.writeUnhead s t
    match (io.sock s).writeHead with
    | some h => io.writeStart h
    | none => io

/-! ### The callbacks -/

/-- `cancelDoneCb`, as it is on epoll. -/
def cancelDoneCb (io : Io) (t : TaskId) : Io :=
  let io := match (io.task t).sock with
    | some s =>
      let io := match (io.task t).kind with
        | .sockRead => io.modSock s ({ · with readTask := none })
        | .accept => io.modSock s ({ · with acceptTask := none })
        | .sockWrite => io.writeListRemove s t
        | .connect => io.sockDiscard s
        | _ => io
      io.modTask t ({ · with sock := none })
    | none => io
  if (io.task t).done then io else io.completeCanceled t

/--
A cancel has been processed. A timer is canceled through its own callback; otherwise epoll has
killed the completion without one, and io_uring leaves the rest to the operation's callback.
-/
def cancelCb (io : Io) (t : TaskId) : Io :=
  let io := io.modTask t ({ · with cCancel := false })
  if (io.task t).kind = .timer then io
  else
    match io.backend with
    | .epoll => (io.disarm t).cancelDoneCb t
    | .ioUring => io

/-- `fileCloseCb`. -/
def fileCloseCb (io : Io) (t : TaskId) (r : Except XevError Unit) : Io :=
  let io := io.disarm t
  match r with
  | .ok _ => io.completeOk t 0
  | .error err => io.completeErr t (errnoOf err)

/-- `fileReadCb`. -/
def fileReadCb (io : Io) (t : TaskId) (r : Except XevError Nat) : Io :=
  let io := io.disarm t
  if (io.task t).done then io
  else
    match r with
    | .ok n => io.completeOk t n
    | .error err => if err = .eof then io.completeOk t 0 else io.completeFailed t err

/-- `fileWriteCb`. -/
def fileWriteCb (io : Io) (t : TaskId) (r : Except XevError Nat) : Io :=
  let io := io.disarm t
  if (io.task t).done then io
  else
    match r with
    | .ok n => io.completeOk t n
    | .error err => io.completeFailed t err

/-- `timerCb`. -/
def timerCb (io : Io) (t : TaskId) (r : Except XevError Unit) : Io :=
  let io := io.disarm t
  if (io.task t).done then io
  else
    match r with
    | .ok _ => io.completeOk t 0
    | .error err => io.completeFailed t err

/-- `connectCb`. -/
def connectCb (io : Io) (t : TaskId) (r : Except XevError Unit) : Io :=
  let io := io.disarm t
  if (io.task t).done then
    match (io.task t).sock with
    | some s => (io.modTask t ({ · with sock := none })).sockDiscard s
    | none => io
  else
    match r with
    | .ok _ =>
      (io.modTask t fun k =>
        { k with res := { k.res with ptr := k.sock }, sock := none, won := k.sock }).completeOk t 0
    | .error err =>
      let s := io.sockOf t
      ((io.modTask t ({ · with sock := none })).sockDiscardAsync s).completeFailed t err

/-- `acceptCb`; for a connection, the answer is whether there is memory for its socket. -/
def acceptCb (io : Io) (t : TaskId) (r : Except XevError Bool) : Io :=
  let io := io.disarm t
  if (io.task t).done then io
  else
    let io := match (io.task t).sock with
      | some ls => (io.modSock ls ({ · with acceptTask := none })).modTask t ({ · with sock := none })
      | none => io
    match r with
    | .ok true =>
      let s := io.nsock
      (io.sockNew.modTask t fun k =>
        { k with res := { k.res with ptr := some s }, won := some s }).completeOk t 0
    | .ok false => io.completeErr t ENOMEM
    | .error err => io.completeFailed t err

/-- `sockReadCb`. -/
def sockReadCb (io : Io) (t : TaskId) (r : Except XevError Nat) : Io :=
  let io := io.disarm t
  if (io.task t).done then io
  else
    let io := match (io.task t).sock with
      | some s => (io.modSock s ({ · with readTask := none })).modTask t ({ · with sock := none })
      | none => io
    match r with
    | .ok n => io.completeOk t n
    | .error err => if err = .eof then io.completeOk t 0 else io.completeFailed t err

/-- History: the kernel has accepted the first `n` bytes of a write's slice. -/
def sendBytes (io : Io) (t : TaskId) (n : Nat) : Io :=
  (io.modSock ((io.task t).on.getD 0) fun k =>
    { k with wire := k.wire ++ (io.task t).slice.take n }).modTask t fun k => { k with sent := k.sent + n }

/-- `sockWriteCb`. -/
def sockWriteCb (io : Io) (t : TaskId) (r : Except XevError Nat) : Io :=
  match r with
  | .ok n =>
    let io := (io.sendBytes t n).disarm t
    if (io.task t).done then io
    else if n < (io.task t).slice.length then
      io.modTask t fun k => { k with slice := k.slice.drop n, c := true }
    else
      let io := io.writePopHead t
      io.completeOk t (io.task t).wbuf.length
  | .error err =>
    let io := io.disarm t
    if (io.task t).done then io else (io.writePopHead t).completeFailed t err

/-- `sockCloseCb`. -/
def sockCloseCb (io : Io) (t : TaskId) (r : Except XevError Unit) : Io :=
  let io := io.disarm t
  let s := io.sockOf t
  let io := io.modTask t ({ · with sock := none })
  let io := (io.sockFree s).modSock s ({ · with closed := true })
  match r with
  | .ok _ => io.completeOk t 0
  | .error err => io.completeErr t (errnoOf err)

/-! ### The thread-pool stage -/

/-- `poolSubmit`; `init` is what `Async.init` answers. -/
def poolSubmit (io : Io) (t : TaskId) (init : Option XevError) : Io :=
  match init with
  | some err => io.completeErr t (errnoOf err)
  | none => io.modTask t ({ · with hasNotifier := true, poolPending := true, cAsync := true })

/-- How far `startConnect` gets. -/
inductive Connecting
  | noMem
  /-- `TCP.init` fails. -/
  | refused (err : XevError)
  | started
  deriving DecidableEq, Repr

/-- `startConnect`. -/
def startConnect (io : Io) (t : TaskId) : Connecting → Io
  | .noMem => io.completeErr t ENOMEM
  | .refused err => io.completeErr t (errnoOf err)
  | .started =>
    let s := io.nsock
    (io.sockNew.modTask t ({ · with sock := some s })).start t

/--
`poolDoneCb`. What `poolMain` has left on a thread of the pool is read nowhere before, and is stored
here: the value of an open or of a spawned function, or the error of an open or of a lookup.
-/
def poolDoneCb (io : Io) (t : TaskId) (wait : Option XevError) (value errno : Int)
    (connecting : Connecting) : Io :=
  let io := io.modTask t ({ · with
    cAsync := false, poolPending := false, poolValue := value, poolErrno := errno })
  match wait with
  | some err => if (io.task t).done then io else io.completeErr t (errnoOf err)
  | none =>
    if (io.task t).done then io
    else
      match (io.task t).kind with
      | .open => if errno ≠ 0 then io.completeErr t errno else io.completeOk t value
      | .spawn => if 0 ≤ value then io.completeOk t value else io.completeErr t (toInt32 (-value))
      | .connect =>
        if (io.task t).cancelRequested then io.completeCanceled t
        else if errno ≠ 0 then io.completeErr t errno
        else io.startConnect t connecting
      | _ => io

/-! ### Submission -/

def implOpen (io : Io) (init : Option XevError) : Io := (io.taskNew .open).poolSubmit io.ntask init

def implClose (io : Io) : Io := (io.taskNew .fileClose).start io.ntask

/-- `implRead` and `implWrite`, which differ in their callbacks. -/
def fileSubmit (io : Io) (len : Nat) : Io :=
  let t := io.ntask
  let io := io.taskNew .fileRw
  if len = 0 then io.completeOk t 0 else io.start t

def implRead (io : Io) (len : Nat) : Io := io.fileSubmit len
def implWrite (io : Io) (len : Nat) : Io := io.fileSubmit len

/-- `implSleep`; `init` is what `Timer.init` answers. -/
def implSleep (io : Io) (init : Option XevError) : Io :=
  let t := io.ntask
  let io := io.taskNew .timer
  match init with
  | some err => io.completeErr t (errnoOf err)
  | none => io.start t

def implSpawn (io : Io) (init : Option XevError) : Io := (io.taskNew .spawn).poolSubmit io.ntask init

/-- `implTcpConnect`. -/
def implTcpConnect (io : Io) (port : Int) (init : Option XevError) : Io :=
  let t := io.ntask
  let io := io.taskNew .connect
  if port < 0 ∨ 65535 < port then io.completeErr t EINVAL else io.poolSubmit t init

/-- How far `implTcpListen` gets with a valid port; the constructors are its exits in order. -/
inductive Listening
  | badHost
  | noMem
  /-- The descriptor cannot be made, bound or made to listen. -/
  | refused (err : XevError)
  | listening
  deriving DecidableEq, Repr

/-- `implTcpListen`. -/
def implTcpListen (io : Io) (port : Int) (ans : Listening) : Io :=
  if port < 0 ∨ 65535 < port then { io with ret := some (.listened none EINVAL) }
  else
    match ans with
    | .badHost => { io with ret := some (.listened none EINVAL) }
    | .noMem => { io with ret := some (.listened none ENOMEM) }
    | .refused err => { io with ret := some (.listened none (errnoOf err)) }
    | .listening =>
      let s := io.nsock
      { io.sockNew with claimed := update io.claimed s true, ret := some (.listened (some s) 0) }

/-- `implTcpAccept`. -/
def implTcpAccept (io : Io) (ls : SockId) : Io :=
  if (io.sock ls).acceptTask ≠ none then io.taskFailed .accept EBUSY
  else
    let t := io.ntask
    let io := (io.taskNew .accept).modTask t ({ · with sock := some ls })
    (io.modSock ls ({ · with acceptTask := some t })).start t

/-- `implSockRead`. -/
def implSockRead (io : Io) (s : SockId) (len : Nat) : Io :=
  if (io.sock s).readTask ≠ none then io.taskFailed .sockRead EBUSY
  else
    let t := io.ntask
    let io := io.taskNew .sockRead
    if len = 0 then io.completeOk t 0
    else
      let io := io.modTask t ({ · with sock := some s })
      (io.modSock s ({ · with readTask := some t })).start t

/-- `implSockWrite`. -/
def implSockWrite (io : Io) (s : SockId) (buf : List UInt8) : Io :=
  let t := io.ntask
  let io := (io.taskNew .sockWrite).modTask t ({ · with sock := some s, on := some s, wbuf := buf })
  match io.writePush s t with
  | (io, true) => io.writeStart t
  | (io, false) => io

/-- `implSockClose`, as far as the outstanding read. -/
def cancelRead (io : Io) (s : SockId) : Io :=
  match (io.sock s).readTask with
  | some rt =>
    let io := (io.modSock s ({ · with readTask := none })).modTask rt ({ · with sock := none })
    (io.completeCanceled rt).submitCancel rt
  | none => io

/-- `implSockClose`, as far as the outstanding accept. -/
def cancelAccept (io : Io) (s : SockId) : Io :=
  match (io.sock s).acceptTask with
  | some at_ =>
    let io := (io.modSock s ({ · with acceptTask := none })).modTask at_ ({ · with sock := none })
    (io.completeCanceled at_).submitCancel at_
  | none => io

/-- The loop of `implSockClose` over the FIFO, over at most as many members as the argument says. -/
def dropWrites (io : Io) : Nat → Option TaskId → Io
  | 0, _ => io
  | _ + 1, none => io
  | fuel + 1, some w =>
    let next := (io.task w).wnext
    dropWrites ((io.modTask w ({ · with wnext := none, sock := none })).completeCanceled w) fuel next

/-- `implSockClose`, as far as the FIFO. -/
def cancelWrites (io : Io) (s : SockId) : Io :=
  match (io.sock s).writeHead with
  | some head =>
    let io := io.dropWrites io.ntask (some head)
    (io.modSock s ({ · with writeHead := none, writeTail := none })).submitCancel head
  | none => io

/-- `implSockClose`. -/
def implSockClose (io : Io) (s : SockId) : Io :=
  if (io.sock s).closeTask ≠ none then io.taskFailed .sockClose EBUSY
  else
    let t := io.ntask
    let io := io.taskNew .sockClose
    let io := ((io.cancelRead s).cancelAccept s).cancelWrites s
    let io := io.modSock s fun k => { k with closeTask := some t, loopCloses := k.loopCloses + 1 }
    (io.modTask t ({ · with sock := some s })).start t

/-! ### Synchronisation and lifetime -/

/-- `loopDrained`: no completion is active. -/
def loopDrained (io : Io) : Bool :=
  ((List.range io.ntask).all fun t =>
    !(io.task t).c && !(io.task t).cCancel && !(io.task t).cAsync) &&
  (List.range io.nsock).all fun s => !(io.sock s).cClose

/-- `implCancel`. -/
def implCancel (io : Io) (t : TaskId) : Io × Int :=
  if (io.task t).done then (io, -1)
  else
    match (io.task t).kind with
    | .timer =>
      (if (io.task t).cCancel then io else io.modTask t ({ · with cCancel := true }), 0)
    | .sockRead | .accept => (io.submitCancel t, 0)
    | .connect =>
      (if (io.task t).poolPending then io.modTask t ({ · with cancelRequested := true })
        else io.submitCancel t, 0)
    | .fileRw => if io.backend = .ioUring then (io.submitCancel t, 0) else (io, -1)
    | .sockWrite =>
      match (io.task t).sock with
      | none => (io, -1)
      | some s =>
        if (io.sock s).writeHead = some t then (io, -1)
        else (((io.writeListRemove s t).modTask t ({ · with sock := none })).completeCanceled t, 0)
    | _ => (io, -1)

/-- The end of `implTaskFree`. -/
def freeEnd (io : Io) (t : TaskId) : Io :=
  { io.taskDestroy t with user := .idle, held := update io.held t false }

/-- The second loop of `implTaskFree`, at its condition. -/
def freeDrain (io : Io) (t : TaskId) : Io :=
  if io.taskIdle t then io.freeEnd t else { io with user := .turning (.drain t) io.ncompleted }

/-- The first loop of `implTaskFree`, at its condition. -/
def freeSettle (io : Io) (t : TaskId) : Io :=
  if (io.task t).done then io.freeDrain t
  else { io with user := .turning (.settle t) io.ncompleted }

/-- `implTaskFree`, up to its return or its first turn of the loop. -/
def implTaskFree (io : Io) (t : TaskId) : Io :=
  if (io.task t).done then io.freeDrain t else (io.implCancel t).1.freeSettle t

/-- The caller gives up the socket a task has won together with the task. -/
def dropClaim (io : Io) (s : Option SockId) : Io :=
  match s with
  | some s => { io with claimed := update io.claimed s false }
  | none => io

/-- `implTaskDetach`. -/
def implTaskDetach (io : Io) (t : TaskId) : Io :=
  let io := { io.dropClaim (io.task t).res.ptr with held := update io.held t false }
  let io := { io.modTask t ({ · with detached := true }) with detachedLive := io.detachedLive + 1 }
  if (io.task t).done = false then io
  else
    let io := io.discardResult t
    if io.taskIdle t then io.taskDestroy t else { io with reap := t :: io.reap }

/-- `implTaskResult`: the caller learns the socket a task has won. -/
def implTaskResult (io : Io) (t : TaskId) : Io :=
  match (io.task t).res.ptr with
  | some s => { io with claimed := update io.claimed s true }
  | none => io

/-- The last loop of `implDestroy`, over the sockets that were never closed. -/
def closeSocks (io : Io) : List SockId → Io
  | [] => io
  | s :: rest =>
    closeSocks (io.modSock s fun k => { k with fdCloses := k.fdCloses + 1, frees := k.frees + 1 }) rest

/-- The end of `implDestroy`. -/
def destroyEnd (io : Io) : Io := { io.closeSocks io.socks with socks := [], user := .destroyed }

/-- The loop of `implDestroy`, at its condition. -/
def destroyLoop (io : Io) : Io :=
  if 0 < io.detachedLive then { io with user := .turning .destroy io.ncompleted } else io.destroyEnd

/-- `implDestroy`, up to its return or its first turn of the loop. -/
def implDestroy (io : Io) : Io := io.reapDetached.destroyLoop

/-- `implStep` has returned `rc` to the call it was made for. -/
def stepped (io : Io) (rc : Bool) : Goal → Io
  | .step => { io with user := .idle, ret := some (.stepped rc.toNat) }
  | .settle t => if rc then io.freeSettle t else io.freeDrain t
  | .drain t => if rc then io.freeDrain t else io.freeEnd t
  | .destroy => if rc then io.destroyLoop else io.destroyEnd

/-- `implStep`, from the return of `loop.run`. -/
def turnEnd (io : Io) (goal : Goal) (before : Nat) (ran : Bool) : Io :=
  if ran then
    let io := io.reapDetached
    io.stepped (!io.loopDrained || io.ncompleted ≠ before) goal
  else { io with broken := true }.stepped (io.ncompleted ≠ before) goal

/-! ### Steps -/

/-- A vtable call, with what the libraries answer inside it. -/
inductive Call
  | open (init : Option XevError)
  | close
  | read (len : Nat)
  | write (len : Nat)
  | sleep (init : Option XevError)
  | spawn (init : Option XevError)
  | tcpConnect (port : Int) (init : Option XevError)
  | tcpListen (port : Int) (ans : Listening)
  | tcpAccept (ls : SockId)
  | sockRead (s : SockId) (len : Nat)
  | sockWrite (s : SockId) (buf : List UInt8)
  | sockClose (s : SockId)
  | step
  | cancel (t : TaskId)
  | taskResult (t : TaskId)
  | taskFree (t : TaskId)
  | taskDetach (t : TaskId)
  | destroy
  deriving DecidableEq, Repr

/-- A callback of the loop's, with its result. -/
inductive Cb
  | fileClose (t : TaskId) (r : Except XevError Unit)
  | fileRead (t : TaskId) (r : Except XevError Nat)
  | fileWrite (t : TaskId) (r : Except XevError Nat)
  | timer (t : TaskId) (r : Except XevError Unit)
  | connect (t : TaskId) (r : Except XevError Unit)
  | accept (t : TaskId) (r : Except XevError Bool)
  | sockRead (t : TaskId) (r : Except XevError Nat)
  | sockWrite (t : TaskId) (r : Except XevError Nat)
  | sockClose (t : TaskId) (r : Except XevError Unit)
  | poolDone (t : TaskId) (wait : Option XevError) (value errno : Int) (connecting : Connecting)
  | cancel (t : TaskId)
  | sockReap (s : SockId)

inductive Label
  | user (call : Call)
  | loop (cb : Cb)
  /-- `loop.run` returns, or fails. -/
  | turnEnd (ran : Bool)

def call (io : Io) : Call → Io
  | .open init => io.implOpen init
  | .close => io.implClose
  | .read len => io.implRead len
  | .write len => io.implWrite len
  | .sleep init => io.implSleep init
  | .spawn init => io.implSpawn init
  | .tcpConnect port init => io.implTcpConnect port init
  | .tcpListen port ans => io.implTcpListen port ans
  | .tcpAccept ls => io.implTcpAccept ls
  | .sockRead s len => io.implSockRead s len
  | .sockWrite s buf => io.implSockWrite s buf
  | .sockClose s => io.implSockClose s
  | .step => { io with user := .turning .step io.ncompleted }
  | .cancel t => { (io.implCancel t).1 with ret := some (.canceled (io.implCancel t).2) }
  | .taskResult t => io.implTaskResult t
  | .taskFree t => io.implTaskFree t
  | .taskDetach t => io.implTaskDetach t
  | .destroy => io.implDestroy

def callback (io : Io) : Cb → Io
  | .fileClose t r => io.fileCloseCb t r
  | .fileRead t r => io.fileReadCb t r
  | .fileWrite t r => io.fileWriteCb t r
  | .timer t r => io.timerCb t r
  | .connect t r => io.connectCb t r
  | .accept t r => io.acceptCb t r
  | .sockRead t r => io.sockReadCb t r
  | .sockWrite t r => io.sockWriteCb t r
  | .sockClose t r => io.sockCloseCb t r
  | .poolDone t wait value errno connecting => io.poolDoneCb t wait value errno connecting
  | .cancel t => io.cancelCb t
  | .sockReap s => io.sockReapCb s

/-- One step: callbacks come only inside `loop.run`, and calls only outside it. -/
def step (io : Io) : Label → Option Io
  | .user c => if io.user = .idle then some (io.call c) else none
  | .loop cb =>
    match io.user with
    | .turning _ _ => some (io.callback cb)
    | _ => none
  | .turnEnd ran =>
    match io.user with
    | .turning goal before => some (io.turnEnd goal before ran)
    | _ => none

/-- The kinds with a thread-pool stage. -/
def pooled : Kind → Bool
  | .open | .spawn | .connect => true
  | _ => false

/--
What libxev does: it runs the callback of an active completion, with a count that is no more than
was asked for, and after a failed run it runs none.
-/
def libxev (io : Io) : Label → Bool
  | .loop cb => !io.broken && match cb with
    | .fileClose t _ => (io.task t).c && (io.task t).kind = .fileClose
    | .fileRead t _ | .fileWrite t _ => (io.task t).c && (io.task t).kind = .fileRw
    | .timer t _ => (io.task t).c && (io.task t).kind = .timer
    | .connect t _ => (io.task t).c && (io.task t).kind = .connect
    | .accept t _ => (io.task t).c && (io.task t).kind = .accept
    | .sockRead t _ => (io.task t).c && (io.task t).kind = .sockRead
    | .sockWrite t r => (io.task t).c && (io.task t).kind = .sockWrite &&
        match r with
        | .ok n => n ≤ (io.task t).slice.length
        | .error _ => true
    | .sockClose t _ => (io.task t).c && (io.task t).kind = .sockClose
    | .poolDone t _ _ _ _ => (io.task t).cAsync
    | .cancel t => (io.task t).cCancel
    | .sockReap s => (io.sock s).cClose
  | .turnEnd ran => !(io.broken && ran)
  | _ => true

/--
The caller's part: it uses a task handle only until it frees or detaches it, and a socket only
until its `sock_close` is done; it does not detach a finished task whose socket it has closed.
-/
def obeys (io : Io) : Label → Bool
  | .user (.tcpAccept s) | .user (.sockRead s _) | .user (.sockWrite s _) | .user (.sockClose s) =>
    io.claimed s && (io.sock s).closeTask.all fun t => !(io.task t).done
  | .user (.cancel t) | .user (.taskResult t) | .user (.taskFree t) => io.held t
  | .user (.taskDetach t) =>
    io.held t && (io.task t).res.ptr.all fun s => (io.sock s).closeTask = none
  | _ => true

end Io

end Myio.Xev
