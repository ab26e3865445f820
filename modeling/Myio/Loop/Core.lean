import Mathlib.Logic.Function.Basic
import Myio.Wq

/-! The records the two event-loop backends have in common, and the code that is the same in both. -/

namespace Myio.Loop

/-- `enum task_kind`: Zephyr has the first two, io_uring the file kinds, the sleep and the close. -/
inductive TaskKind
  | taskInline
  | taskTimer
  | taskOpen
  | taskClose
  | taskRead
  | taskWrite
  | taskSleep
  | taskSpawn
  | taskConnect
  | taskAccept
  | taskSockRead
  | taskSockWrite
  | taskSockClose
  deriving DecidableEq, Repr

/--
A task. The operation arguments only the kernel reads (paths, lengths, addresses) are left out.

The last four fields are history: they record what the code did and no code reads them.
-/
structure Task where
  kind : TaskKind
  done : Bool := false
  detached : Bool := false
  res : Result := rPending
  /-- The socket acted on; for a connect, the one being built. -/
  sock : Option SockId := none
  /-- The wrapper io_uring prepares for the descriptor an accept will win. -/
  newsock : Option SockId := none
  /-- The bytes of a write. -/
  buf : List UInt8 := []
  /-- How many of them the kernel has accepted: `off`, or `op.w.wsent`. -/
  off : Nat := 0
  /-- The descriptor a write sends on. -/
  fd : Option Fd := none
  /-- `op.w.wcanceled`. -/
  wcanceled : Bool := false
  deadline : Int := 0
  fnRet : Int := 0
  pushed : Bool := false
  /-- The socket a write was submitted on. -/
  on : Option SockId := none
  /-- How often the spawned function was started. -/
  runs : Nat := 0
  /-- How often the done flag was set. -/
  dones : Nat := 0
  /-- How often the memory was released. -/
  frees : Nat := 0
  deriving DecidableEq, Repr

/-- A socket; its descriptor is -1 while io_uring waits for the accept. `frees` is history. -/
structure Sock where
  fd : Option Fd
  readTask : Option TaskId := none
  acceptTask : Option TaskId := none
  wq : List TaskId := []
  frees : Nat := 0
  deriving DecidableEq, Repr

/-- The instance, less what only one of the two backends has. -/
structure Core where
  task : TaskId → Task
  ntask : Nat
  sock : SockId → Sock
  nsock : Nat
  desc : Fd → Desc
  ndesc : Nat
  /-- The tasks that can complete: Zephyr's `pending` list, or those with an operation on the ring. -/
  armed : List TaskId
  /-- The list `io->socks`, newest first. -/
  socks : List SockId
  /-- The task handles the caller has neither freed nor detached. -/
  held : TaskId → Bool
  /-- The sockets whose pointer the caller has been given. -/
  claimed : SockId → Bool
  /-- The sockets the caller has submitted a `sock_close` for. -/
  shut : SockId → Bool

namespace Core

/-- An instance with nothing in it. -/
def new : Core where
  task := fun _ => { kind := .taskInline }
  ntask := 0
  sock := fun _ => { fd := none }
  nsock := 0
  desc := fun _ => {}
  ndesc := 0
  armed := []
  socks := []
  held := fun _ => false
  claimed := fun _ => false
  shut := fun _ => false

/-- Writes through a task pointer. -/
def modTask (c : Core) (t : TaskId) (f : Task → Task) : Core :=
  { c with task := Function.update c.task t (f (c.task t)) }

/-- Writes through a socket pointer. -/
def modSock (c : Core) (s : SockId) (f : Sock → Sock) : Core :=
  { c with sock := Function.update c.sock s (f (c.sock s)) }

/-- A change of one descriptor in the kernel. -/
def modDesc (c : Core) (fd : Fd) (f : Desc → Desc) : Core :=
  { c with desc := Function.update c.desc fd (f (c.desc fd)) }

/-- The kernel hands out a descriptor; its name is the old `ndesc`. -/
def newDesc (c : Core) : Core :=
  { c with desc := Function.update c.desc c.ndesc {}, ndesc := c.ndesc + 1 }

/-- `close` of a descriptor. -/
def closeDesc (c : Core) (fd : Fd) : Core :=
  c.modDesc fd fun d => { d with closes := d.closes + 1 }

/-- `if (s->fd >= 0) close(s->fd);`, on the kernel's table. -/
def closeFd (desc : Fd → Desc) : Option Fd → Fd → Desc
  | some fd => Function.update desc fd { desc fd with closes := (desc fd).closes + 1 }
  | none => desc

/-- `task_new` with the arguments filled in; the task's name is the old `ntask`. -/
def taskNew (c : Core) (k : Task) : Core :=
  { c with task := Function.update c.task c.ntask k, ntask := c.ntask + 1,
           held := Function.update c.held c.ntask true }

/-- `sock_new`, when the allocation succeeds; the socket's name is the old `nsock`. -/
def sockNew (c : Core) (fd : Option Fd) : Core :=
  { c with sock := Function.update c.sock c.nsock { fd }, nsock := c.nsock + 1,
           socks := c.nsock :: c.socks }

/-- `sock_release`, or `sock_close_now`: unlinks a socket, closes its descriptor and frees it. -/
def sockRelease (c : Core) (s : SockId) : Core :=
  { c with socks := c.socks.erase s, desc := closeFd c.desc (c.sock s).fd,
           sock := Function.update c.sock s { c.sock s with frees := (c.sock s).frees + 1 } }

/-- The memory of a task goes back. -/
def freeMem (c : Core) (t : TaskId) : Core :=
  c.modTask t fun k => { k with frees := k.frees + 1 }

/-- `task_reap`: a socket the task won and nobody will claim is closed, then the task is freed. -/
def taskReap (c : Core) (t : TaskId) : Core :=
  match (c.task t).res.ptr with
  | some s => (c.sockRelease s).freeMem t
  | none => c.freeMem t

/-- A task is put where it can complete. -/
def arm (c : Core) (t : TaskId) : Core := { c with armed := t :: c.armed }

/-- A task is taken from where it can complete; one that is not there changes nothing. -/
def disarm (c : Core) (t : TaskId) : Core := { c with armed := c.armed.erase t }

/-- The result is stored and the done flag set. -/
def finish (c : Core) (t : TaskId) (res : Result) : Core :=
  c.modTask t fun k => { k with res, done := true, dones := k.dones + 1 }

/-- `if (t->detached) task_reap(t);` -/
def reapIfDetached (c : Core) (t : TaskId) : Core :=
  if (c.task t).detached then c.taskReap t else c

/-- The caller has submitted a `sock_close`. -/
def markShut (c : Core) (s : SockId) : Core := { c with shut := Function.update c.shut s true }

/-- The kernel accepts bytes on a descriptor. -/
def wireAppend (desc : Fd → Desc) (bytes : List UInt8) : Option Fd → Fd → Desc
  | some fd => Function.update desc fd { desc fd with wire := (desc fd).wire ++ bytes }
  | none => desc

/-- The kernel accepts the next `n` bytes of a write. -/
def sendBytes (c : Core) (t : TaskId) (n : Nat) : Core :=
  { c with
    desc := wireAppend c.desc (((c.task t).buf.drop (c.task t).off).take n) (c.task t).fd
    task := Function.update c.task t { c.task t with off := (c.task t).off + n } }

/-- The socket a task acts on; only read for the kinds that have one. -/
def sockOf (c : Core) (t : TaskId) : SockId := (c.task t).sock.getD 0

end Core

end Myio.Loop
