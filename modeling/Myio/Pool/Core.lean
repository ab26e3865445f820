import Mathlib.Logic.Function.Basic
import Myio.Wq

/-! The records the two thread pools have in common, and the code that is the same in both. -/

namespace Myio

/-- A worker thread, numbered in the order of creation. -/
abbrev WorkerId := Nat

/-- `enum op_kind`; only the Zephyr pool has the last one. -/
inductive OpKind
  | opOpen
  | opClose
  | opRead
  | opWrite
  | opSleep
  | opSpawn
  | opConnect
  | opAccept
  | opSockRead
  | opSockWrite
  | opSockClose
  | opNone
  deriving DecidableEq, Repr

/-- `op_on_sock`: the operations that block on an existing socket's descriptor. -/
def opOnSock (k : OpKind) : Bool := k = .opSockRead || k = .opSockWrite || k = .opAccept

/-- `op_interruptible`: the operations that wait where a cancel can reach them. -/
def opInterruptible (k : OpKind) : Bool := k = .opSleep || k = .opAccept || k = .opSockRead

/--
A task. The operation arguments only the kernel reads (path, flags, offsets) are left out.

The last three fields are history: they record what the code did and no code reads them.
-/
structure Task where
  kind : OpKind
  sock : Option SockId := none
  fd : Option Fd := none
  buf : List UInt8 := []
  started : Bool := false
  done : Bool := false
  detached : Bool := false
  cancelReq : Bool := false
  worker : Option WorkerId := none
  res : Result := rPending
  /-- How many of the buffer's bytes the kernel has accepted. -/
  sent : Nat := 0
  /-- How often the done flag was set. -/
  dones : Nat := 0
  /-- How often the memory was released. -/
  frees : Nat := 0
  deriving DecidableEq, Repr

/-- A socket; `frees` is history. -/
structure Sock where
  fd : Fd
  closing : Bool := false
  inflight : Nat := 0
  wq : List TaskId := []
  frees : Nat := 0
  deriving DecidableEq, Repr

/-- Where a worker is inside the task it has dequeued. -/
inductive Phase
  /-- Dequeued; the switch on the kind comes next. -/
  | entry
  /-- At the top of the loop in `cancelable_wait`. -/
  | check
  /-- Inside the interruptible poll. -/
  | polling
  /-- In the blocking call itself. -/
  | call
  /-- In the send loop, with `off` bytes of the buffer already accepted. -/
  | sending (off : Nat)
  /-- The blocking part is over; the result waits for the lock. -/
  | commit (res : Result) (newfd : Option Fd)
  /-- In `worker_close`, waiting for the socket's operations to finish. -/
  | drain
  /-- In `worker_close`, with the socket unlinked and its descriptor still open. -/
  | release (fd : Fd)
  /-- In `worker_close`, with the socket freed and its descriptor still open. -/
  | closeFd (fd : Fd)
  /-- In `worker_close`, with the descriptor closed and the result not yet committed. -/
  | commitClose
  deriving DecidableEq, Repr

/-- Where a worker thread is. -/
inductive Pc
  /-- Just created or between two tasks, about to take the lock. -/
  | ready
  /-- Asleep on `work_cv`. -/
  | asleep
  /-- Back from `work_cv`, by a signal, early or by the timeout, without the lock yet. -/
  | woken (timedout : Bool)
  | running (t : TaskId) (phase : Phase)
  | retired
  deriving DecidableEq, Repr

/-- A worker; `kicks` counts its pending wakeups (queued `POOL_SIG`s, or its eventfd's count). -/
structure Worker where
  pc : Pc
  kicks : Nat := 0
  deriving DecidableEq, Repr

/-- The task a worker is running. -/
def Pc.task? : Pc → Option TaskId
  | .running t _ => some t
  | _ => none

@[simp] theorem Pc.task?_ready : Pc.ready.task? = none := rfl
@[simp] theorem Pc.task?_asleep : Pc.asleep.task? = none := rfl
@[simp] theorem Pc.task?_woken (timedout : Bool) : (Pc.woken timedout).task? = none := rfl
@[simp] theorem Pc.task?_running (t : TaskId) (phase : Phase) :
    (Pc.running t phase).task? = some t := rfl
@[simp] theorem Pc.task?_retired : Pc.retired.task? = none := rfl

/-- What `pool.mu` guards, less what only one of the two pools has. -/
structure Core where
  task : TaskId → Task
  ntask : Nat
  sock : SockId → Sock
  nsock : Nat
  desc : Fd → Desc
  ndesc : Nat
  worker : WorkerId → Worker
  nworker : Nat
  /-- The list from `qhead` to `qtail`. -/
  queue : List TaskId
  nqueued : Nat
  nrunning : Nat
  shutdown : Bool
  /-- The list `p->socks`, newest first. -/
  socks : List SockId
  /-- The descriptor `impl_tcp_listen` has obtained and not wrapped yet. -/
  wrapping : Option Fd
  /-- The instance itself has been freed. -/
  gone : Bool
  /-- The task handles the caller has neither freed nor detached. -/
  held : TaskId → Bool
  /-- The sockets whose pointer the caller has been given. -/
  claimed : SockId → Bool

namespace Core

/-- Writes through a task pointer. -/
def modTask (c : Core) (t : TaskId) (f : Task → Task) : Core :=
  { c with task := Function.update c.task t (f (c.task t)) }

/-- Writes through a socket pointer. -/
def modSock (c : Core) (s : SockId) (f : Sock → Sock) : Core :=
  { c with sock := Function.update c.sock s (f (c.sock s)) }

/-- A change of one descriptor in the kernel. -/
def modDesc (c : Core) (fd : Fd) (f : Desc → Desc) : Core :=
  { c with desc := Function.update c.desc fd (f (c.desc fd)) }

/-- A change of one worker. -/
def modWorker (c : Core) (w : WorkerId) (f : Worker → Worker) : Core :=
  { c with worker := Function.update c.worker w (f (c.worker w)) }

/-- Moves a worker on. -/
def setPc (c : Core) (w : WorkerId) (pc : Pc) : Core := c.modWorker w ({ · with pc })

/-- The kernel hands out a descriptor. -/
def newDesc (c : Core) : Core :=
  { c with desc := Function.update c.desc c.ndesc {}, ndesc := c.ndesc + 1 }

/-- `close(2)`. -/
def closeDesc (c : Core) (fd : Fd) : Core :=
  c.modDesc fd fun d => { d with closes := d.closes + 1 }

/-- `sock_link`, when the allocation succeeds; the socket's name is the old `nsock`. -/
def sockLink (c : Core) (fd : Fd) : Core :=
  { c with sock := Function.update c.sock c.nsock { fd }, nsock := c.nsock + 1,
           socks := c.nsock :: c.socks }

/-- `sock_unlink`. -/
def sockUnlink (c : Core) (s : SockId) : Core := { c with socks := c.socks.erase s }

/-- `free` of a socket. -/
def sockFree (c : Core) (s : SockId) : Core :=
  c.modSock s fun k => { k with frees := k.frees + 1 }

/-- Unlinks a socket, closes its descriptor and frees it, as four places of the code do. -/
def sockDiscard (c : Core) (s : SockId) : Core :=
  ((c.sockUnlink s).closeDesc (c.sock s).fd).sockFree s

/-- `free` of a task. -/
def taskFreeMem (c : Core) (t : TaskId) : Core :=
  c.modTask t fun k => { k with frees := k.frees + 1 }

/-- `reap`: a socket the task won and nobody will claim is closed, then the task is freed. -/
def reap (c : Core) (t : TaskId) : Core :=
  match (c.task t).res.ptr with
  | some s => (c.sockDiscard s).taskFreeMem t
  | none => c.taskFreeMem t

/-- `queue_push`. -/
def queuePush (c : Core) (t : TaskId) : Core :=
  { c with queue := c.queue ++ [t], nqueued := c.nqueued + 1 }

/-- `queue_remove`; a task that is not queued changes nothing. -/
def queueRemove (c : Core) (t : TaskId) : Core :=
  if t ∈ c.queue then { c with queue := c.queue.erase t, nqueued := c.nqueued - 1 } else c

/-- `t->res = res; t->done = 1;` -/
def finish (c : Core) (t : TaskId) (res : Result) : Core :=
  c.modTask t fun k => { k with res, done := true, dones := k.dones + 1 }

/-- `if (t->detached) reap(t);` -/
def reapIfDetached (c : Core) (t : TaskId) : Core :=
  if (c.task t).detached then c.reap t else c

/-- The socket a task acts on; only read for the kinds that have one. -/
def sockOf (c : Core) (t : TaskId) : SockId := (c.task t).sock.getD 0

/-- `t->sock->inflight--` -/
def inflightDec (c : Core) (s : SockId) : Core :=
  c.modSock s fun k => { k with inflight := k.inflight - 1 }

/-- `t->sock->inflight++` -/
def inflightInc (c : Core) (s : SockId) : Core :=
  c.modSock s fun k => { k with inflight := k.inflight + 1 }

/-- `task_new` with the arguments filled in; the task's name is the old `ntask`. -/
def taskNew (c : Core) (k : Task) : Core :=
  { c with task := Function.update c.task c.ntask k, ntask := c.ntask + 1,
           held := Function.update c.held c.ntask true }

end Core

end Myio
