import Mathlib.Logic.Function.Basic
import Myio.Posix

/-!
The synchronous backend, and programs that join each operation before they go on.

Every operation runs to completion inside its submit function.
-/

namespace Myio

/-- What one `send` answers; the last is any error but `EINTR`. -/
inductive SendOs
  | sent (n : Nat)
  | intr
  | err (errno : Int)
  deriving DecidableEq, Repr

/-- What the system answers to the calls one operation makes. -/
structure Outcome where
  /-- There is memory for the task handle. -/
  mem : Bool := true
  /-- There is memory for the socket that is won. -/
  memSock : Bool := true
  /-- What the one blocking call returns, or the spawned function. -/
  rc : Int := 0
  errno : Int := 0
  connect : ConnectOs := {}
  listen : ListenOs := {}
  sends : List SendOs := []
  deriving DecidableEq, Repr

/-- `struct sync_task` and `struct sync_sock`, all those allocated, and the kernel's descriptors. -/
structure SyncIo where
  task : TaskId → Result
  ntask : Nat
  sock : SockId → Fd
  nsock : Nat
  desc : Fd → Desc
  ndesc : Nat

namespace SyncIo

/-- `myio_sync_new`. -/
def new : SyncIo where
  task := fun _ => rPending
  ntask := 0
  sock := fun _ => 0
  nsock := 0
  desc := fun _ => {}
  ndesc := 0

/-- The kernel hands out a descriptor. -/
def newDesc (io : SyncIo) : SyncIo :=
  { io with desc := Function.update io.desc io.ndesc {}, ndesc := io.ndesc + 1 }

/-- `close(2)`, whatever it returns. -/
def closeDesc (io : SyncIo) (fd : Fd) : SyncIo :=
  { io with desc := Function.update io.desc fd { io.desc fd with closes := (io.desc fd).closes + 1 } }

/-- The kernel accepts bytes on a descriptor. -/
def wire (io : SyncIo) (fd : Fd) (bytes : List UInt8) : SyncIo :=
  { io with desc := Function.update io.desc fd { io.desc fd with wire := (io.desc fd).wire ++ bytes } }

/-- `task_res`; a null handle means that there was no memory. -/
def taskRes (io : SyncIo) (mem : Bool) (res : Result) : SyncIo × Option TaskId :=
  if mem then
    ({ io with task := Function.update io.task io.ntask res, ntask := io.ntask + 1 }, some io.ntask)
  else (io, none)

/-- `task_from`. -/
def taskFrom (io : SyncIo) (o : Outcome) : SyncIo × Option TaskId :=
  io.taskRes o.mem (rFrom o.rc o.errno)

def implOpen (io : SyncIo) (o : Outcome) : SyncIo × Option TaskId := io.taskFrom o
def implClose (io : SyncIo) (o : Outcome) : SyncIo × Option TaskId := io.taskFrom o
def implRead (io : SyncIo) (o : Outcome) : SyncIo × Option TaskId := io.taskFrom o
def implWrite (io : SyncIo) (o : Outcome) : SyncIo × Option TaskId := io.taskFrom o

/-- `impl_sleep`: what `nanosleep` says in the end is not looked at. -/
def implSleep (io : SyncIo) (o : Outcome) : SyncIo × Option TaskId :=
  io.taskRes o.mem (rFrom 0 o.errno)

/-- `impl_spawn`. -/
def implSpawn (io : SyncIo) (o : Outcome) : SyncIo × Option TaskId :=
  io.taskRes o.mem (if 0 ≤ o.rc then rOk o.rc none else rErr (toInt32 (-o.rc)))

/-- `wrap_fd`, of a descriptor the kernel has just handed out. -/
def wrapFd (io : SyncIo) (o : Outcome) : SyncIo × Option TaskId :=
  let fd := io.ndesc
  let io := io.newDesc
  if o.memSock then
    let s := io.nsock
    { io with sock := Function.update io.sock s fd, nsock := s + 1 }.taskRes o.mem (rOk 0 (some s))
  else (io.closeDesc fd, none)

/-- `impl_tcp_connect`. -/
def implTcpConnect (io : SyncIo) (o : Outcome) : SyncIo × Option TaskId :=
  match posixConnect o.connect with
  | (true, _) => io.wrapFd o
  | (false, err) => io.taskRes o.mem (rErr err)

/-- `impl_tcp_listen`: the listener, or what is stored in `*err`. -/
def implTcpListen (io : SyncIo) (o : Outcome) : SyncIo × Except Int SockId :=
  match posixListen o.listen with
  | some err => (io, .error err)
  | none =>
    let fd := io.ndesc
    let io := io.newDesc
    if o.memSock then
      ({ io with sock := Function.update io.sock io.nsock fd, nsock := io.nsock + 1 }, .ok io.nsock)
    else (io.closeDesc fd, .error ENOMEM)

/-- `impl_tcp_accept`. -/
def implTcpAccept (io : SyncIo) (o : Outcome) : SyncIo × Option TaskId :=
  if 0 ≤ o.rc then io.wrapFd o else io.taskRes o.mem (rErr o.errno)

def implSockRead (io : SyncIo) (o : Outcome) : SyncIo × Option TaskId := io.taskFrom o

/-- The loop of `impl_sock_write`; the answer is the error, and there is none while it blocks. -/
def sendAll (io : SyncIo) (fd : Fd) (buf : List UInt8) (off : Nat) :
    List SendOs → Option (SyncIo × Option Int)
  | [] => if off < buf.length then none else some (io, none)
  | ans :: rest =>
    if off < buf.length then
      match ans with
      | .sent n => sendAll (io.wire fd ((buf.drop off).take n)) fd buf (off + n) rest
      | .intr => sendAll io fd buf off rest
      | .err errno => some (io, some errno)
    else some (io, none)

/-- `impl_sock_write`. -/
def implSockWrite (io : SyncIo) (o : Outcome) (s : SockId) (buf : List UInt8) :
    Option (SyncIo × Option TaskId) :=
  (io.sendAll (io.sock s) buf 0 o.sends).map fun
    | (io, some errno) => io.taskRes o.mem (rErr errno)
    | (io, none) => io.taskRes o.mem (rOk buf.length none)

/-- `impl_sock_close`. -/
def implSockClose (io : SyncIo) (o : Outcome) (s : SockId) : SyncIo × Option TaskId :=
  (io.closeDesc (io.sock s)).taskFrom o

/-- `myio_join`: a failed submission joins to an error. -/
def join (io : SyncIo) : Option TaskId → Result
  | some t => io.task t
  | none => rErr ENOMEM

end SyncIo

/-! ### Programs -/

/-- An operation; a socket is named by its place among those the program was given. -/
inductive Op
  | open
  | close
  | read
  | write
  | sleep
  | spawn
  | tcpConnect
  | tcpListen
  | tcpAccept (ls : Nat)
  | sockRead (s : Nat)
  | sockWrite (s : Nat) (buf : List UInt8)
  | sockClose (s : Nat)
  deriving DecidableEq, Repr

/-- What a program sees of an operation: a joined result, or what `tcp_listen` stored in `*err`. -/
inductive Seen
  | joined (status : Status) (value error : Int) (delivered : Bool)
  | listened (err : Option Int)
  deriving DecidableEq, Repr

/-- The part of a result that is not a pointer, and whether there is one. -/
def Result.seen (res : Result) : Seen := .joined res.status res.value res.error res.ptr.isSome

/-- A program chooses its next operation by what it has seen so far. -/
abbrev Program := List Seen → Option Op

/-- A program on the synchronous backend. -/
structure SyncRun where
  io : SyncIo
  seen : List Seen
  /-- The sockets the program was given, in order. -/
  given : List SockId

namespace SyncRun

def new : SyncRun := ⟨.new, [], []⟩

/-- The program goes on with what an operation came to. -/
def note (r : SyncRun) (called : SyncIo × Option TaskId) : SyncRun :=
  let res := called.1.join called.2
  ⟨called.1, r.seen ++ [res.seen], r.given ++ res.ptr.toList⟩

/-- The program goes on with what `tcp_listen` came to. -/
def noteListen (r : SyncRun) : SyncIo × Except Int SockId → SyncRun
  | (io, .ok s) => ⟨io, r.seen ++ [.listened none], r.given ++ [s]⟩
  | (io, .error err) => ⟨io, r.seen ++ [.listened (some err)], r.given⟩

/-- The program makes one call and joins it; there is no next state while the call blocks. -/
def exec (r : SyncRun) (o : Outcome) : Op → Option SyncRun
  | .open => some (r.note (r.io.implOpen o))
  | .close => some (r.note (r.io.implClose o))
  | .read => some (r.note (r.io.implRead o))
  | .write => some (r.note (r.io.implWrite o))
  | .sleep => some (r.note (r.io.implSleep o))
  | .spawn => some (r.note (r.io.implSpawn o))
  | .tcpConnect => some (r.note (r.io.implTcpConnect o))
  | .tcpListen => some (r.noteListen (r.io.implTcpListen o))
  | .tcpAccept _ => some (r.note (r.io.implTcpAccept o))
  | .sockRead _ => some (r.note (r.io.implSockRead o))
  | .sockWrite i buf => (r.io.implSockWrite o ((r.given[i]?).getD 0) buf).map r.note
  | .sockClose i => some (r.note (r.io.implSockClose o ((r.given[i]?).getD 0)))

/-- The program after its first operations, the k-th of which gets the k-th outcome. -/
def after (prog : Program) (os : Nat → Outcome) : Nat → Option SyncRun
  | 0 => some new
  | k + 1 => (after prog os k).bind fun r => (prog r.seen).bind fun op => r.exec (os k) op

end SyncRun

end Myio
