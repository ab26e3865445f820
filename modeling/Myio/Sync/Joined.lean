import Myio.Pool.Progress
import Myio.Sync.Code

/-!
A program on the thread pool that joins each operation before it makes the next call.

The workers run as they like, every thread that is asked for is created, and the system answers the
calls of the k-th operation with the k-th outcome, as it does on the synchronous backend.
-/

namespace Myio

/-- Where the program is. -/
inductive Stage
  /-- Between two operations. -/
  | ready
  /-- In `tcp_listen`, with a descriptor that is not wrapped yet. -/
  | wrapping
  /-- The operation is submitted, and `myio_await` comes next. -/
  | made (t : TaskId)
  /-- In `myio_await`. -/
  | waiting (t : TaskId)
  /-- The result has been read, and the task is to be freed. -/
  | freeing (t : TaskId)
  deriving DecidableEq, Repr

structure Joined where
  pool : Pool
  seen : List Seen
  /-- The sockets the program was given, in order. -/
  given : List SockId
  stage : Stage
  /-- What the `send`s of the operation under way have still to answer. -/
  sends : List SendOs

namespace Joined

/-- A new pool, on a system that has threads to spare. -/
def new (wakes : Nat → WorkerId → Bool) : Joined :=
  ⟨.new { create := fun _ => true, wakes }, [], [], .ready, []⟩

/-- The vtable call of an operation. -/
def callOf (given : List SockId) : Op → Option Pool.Call
  | .open => some .open
  | .close => some .close
  | .read => some .read
  | .write => some .write
  | .sleep => some .sleep
  | .spawn => some .spawn
  | .tcpConnect => some .tcpConnect
  | .tcpListen => some .tcpListen
  | .tcpAccept i => (given[i]?).map .tcpAccept
  | .sockRead i => (given[i]?).map .sockRead
  | .sockWrite i buf => (given[i]?).map (.sockWrite · buf)
  | .sockClose i => (given[i]?).map .sockClose

/-- A vtable call the caller may make. -/
def obeying (p : Pool) (c : Pool.Call) : Option Pool :=
  if p.obeys (.user c) then p.step (.user c) else none

/-- The program starts its next operation; a handle there is no memory for joins to an error. -/
def start (j : Joined) (o : Outcome) (op : Op) : Option Joined :=
  match op with
  | .tcpListen =>
    match posixListen o.listen with
    | some err => some { j with seen := j.seen ++ [.listened (some err)] }
    | none => (obeying j.pool .tcpListen).map fun p => { j with pool := p, stage := .wrapping }
  | op =>
    if o.mem then
      (callOf j.given op).bind fun c => (obeying j.pool c).map fun p =>
        { j with pool := p, stage := .made j.pool.ntask, sends := o.sends }
    else some { j with seen := j.seen ++ [(rErr ENOMEM).seen] }

/-- `tcp_listen` returns. -/
def listened (j : Joined) (o : Outcome) (p : Pool) : Joined :=
  if o.memSock then
    { j with pool := p, seen := j.seen ++ [.listened none], given := j.given ++ [j.pool.nsock],
             stage := .ready }
  else { j with pool := p, seen := j.seen ++ [.listened (some ENOMEM)], stage := .ready }

/-- `myio_await` goes on, or returns what the program then sees. -/
def awaited (j : Joined) (t : TaskId) (p : Pool) : Joined :=
  match p.user, p.ret with
  | .idle, some (.awaited res) =>
    { j with pool := p.implTaskResult t, seen := j.seen ++ [res.seen],
             given := j.given ++ res.ptr.toList, stage := .freeing t }
  | _, _ => { j with pool := p, stage := .waiting t }

/-- The program goes on. -/
def go (prog : Program) (os : Nat → Outcome) (j : Joined) : Option Joined :=
  match j.stage with
  | .ready => (prog j.seen).bind fun op => j.start (os j.seen.length) op
  | .wrapping =>
    let o := os j.seen.length
    (obeying j.pool (.resume o.memSock)).map (j.listened o)
  | .made t => (obeying j.pool (.wait (.await t))).map (j.awaited t)
  | .waiting t => (obeying j.pool (.resume true)).map (j.awaited t)
  | .freeing t => (obeying j.pool (.taskFree t)).map fun p => { j with pool := p, stage := .ready }

/-- Whether the system answers a worker's call so, and which answers to `send` are left then. -/
def answer (o : Outcome) (sends : List SendOs) (kind : OpKind) : Pool.Act → Option (List SendOs)
  | .ret n errno =>
    match kind with
    | .opConnect => if posixConnect o.connect = (false, errno) then some sends else none
    | .opAccept => if o.rc < 0 ∧ n = o.rc ∧ errno = o.errno then some sends else none
    | .opSleep => some sends
    | _ => if n = o.rc ∧ errno = o.errno then some sends else none
  | .retFd errno =>
    match kind with
    | .opConnect => if posixConnect o.connect = (true, errno) then some sends else none
    | _ => if 0 ≤ o.rc then some sends else none
  | .send n =>
    match sends with
    | .sent m :: rest => if n = m then some rest else none
    | _ => none
  | .sendIntr =>
    match sends with
    | .intr :: rest => some rest
    | _ => none
  | .sendErr errno =>
    match sends with
    | .err e :: rest => if errno = e then some rest else none
    | _ => none
  | .commit linked => if linked = o.memSock then some sends else none
  | _ => some sends

/-- The kind of the task a worker is running. -/
def kindAt (p : Pool) (w : WorkerId) : OpKind :=
  match (p.worker w).pc with
  | .running t _ => (p.task t).kind
  | _ => .opNone

/-- A worker moves. -/
def work (os : Nat → Outcome) (j : Joined) (w : WorkerId) (act : Pool.Act) : Option Joined :=
  (answer (os j.seen.length) j.sends (kindAt j.pool w) act).bind fun sends =>
    (j.pool.step (.worker w act)).map fun p => { j with pool := p, sends }

inductive Label
  | user
  | worker (w : WorkerId) (act : Pool.Act)
  deriving DecidableEq, Repr

def step (prog : Program) (os : Nat → Outcome) (j : Joined) : Label → Option Joined
  | .user => j.go prog os
  | .worker w act => j.work os w act

/-- The runs of a program. -/
def Run (prog : Program) (os : Nat → Outcome) : Joined → Joined → Prop :=
  Machine.Path (step prog os) fun _ _ => True

end Joined

end Myio
