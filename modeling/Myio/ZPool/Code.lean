import Myio.Pool.Code

/-!
The Zephyr thread-pool backend.

It is the desktop pool with a fixed number of workers and a slot on each socket for its one read and
its one accept. Its steps are cut as those of the desktop pool are.
-/

namespace Myio

open Function (update)

/-- `struct zp_io`, with the threads around it; `unseen` is history. -/
structure ZPool extends Core where
  /-- `workers[i].current`. -/
  current : WorkerId → Option TaskId
  readTask : SockId → Option TaskId
  acceptTask : SockId → Option TaskId
  completions : Nat
  compSeen : Nat
  /-- The environment's answers: whom the n-th signal should wake. -/
  pick : Nat → WorkerId → Bool
  tick : Nat
  user : User
  ret : Option Ret
  /-- Worker completions since the previous `impl_step` returned. -/
  unseen : Nat

namespace ZPool

/-- `myio_zephyr_pool_new`: everything is zero, and `n` workers are created. -/
def new (n : Nat) (pick : Nat → WorkerId → Bool) : ZPool where
  task := fun _ => { kind := .opNone }
  ntask := 0
  sock := fun _ => { fd := 0 }
  nsock := 0
  desc := fun _ => {}
  ndesc := 0
  worker := fun _ => { pc := .ready }
  nworker := n
  queue := []
  nqueued := 0
  nrunning := 0
  shutdown := false
  socks := []
  wrapping := none
  gone := false
  held := fun _ => false
  claimed := fun _ => false
  current := fun _ => none
  readTask := fun _ => none
  acceptTask := fun _ => none
  completions := 0
  compSeen := 0
  pick := pick
  tick := 0
  user := .idle
  ret := none
  unseen := 0

/-- Runs shared code on the shared part. -/
def on (z : ZPool) (f : Core → Core) : ZPool := { z with toCore := f z.toCore }

/-! ### Sockets and signals -/

/-- `sock_link`, when the slab has a block left: the new socket is all zero. -/
def sockLink (z : ZPool) (fd : Fd) : ZPool :=
  { z.on (·.sockLink fd) with
    readTask := update z.readTask z.nsock none, acceptTask := update z.acceptTask z.nsock none }

/-- `sock_slots_clear`. -/
def sockSlotsClear (z : ZPool) (t : TaskId) : ZPool :=
  let s := z.sockOf t
  let z := if (z.task t).kind = .opSockRead ∧ z.readTask s = some t
    then { z with readTask := update z.readTask s none } else z
  if (z.task t).kind = .opAccept ∧ z.acceptTask s = some t
    then { z with acceptTask := update z.acceptTask s none } else z

/-- A worker waits on `work_cv`. -/
def isAsleep (z : ZPool) (w : WorkerId) : Bool := w < z.nworker && (z.worker w).pc = .asleep

/-- The waiter a signal wakes: one the environment picks, or else the first one there is. -/
def signalled (z : ZPool) : Option WorkerId :=
  ((List.range z.nworker).find? fun w => z.isAsleep w && z.pick z.tick w).or
    ((List.range z.nworker).find? z.isAsleep)

/-- `k_condvar_signal(&p->work_cv)`. -/
def condSignal (z : ZPool) : ZPool :=
  match z.signalled with
  | some w => { z.on (·.setPc w (.woken false)) with tick := z.tick + 1 }
  | none => { z with tick := z.tick + 1 }

/-- `queue_push(p, t); k_condvar_signal(&p->work_cv);` -/
def enqueue (z : ZPool) (t : TaskId) : ZPool := (z.on (·.queuePush t)).condSignal

/-! ### Leaving the queue and the FIFO -/

/-- `write_advance`: a write leaves its FIFO, and a head that leaves hands on to the next. -/
def writeAdvance (z : ZPool) (t : TaskId) : ZPool :=
  let s := z.sockOf t
  if (z.sock s).wq.head? ≠ some t then
    -- Parked: no successor to arm.
    z.on (·.modSock s fun k => { k with wq := wqRemove k.wq t })
  else
    let h := (wqPop (z.sock s).wq).2
    let z := z.on (·.modSock s fun k => { k with wq := (wqPop k.wq).1 })
    match h with
    | none => z
    | some n => if z.shutdown then z else z.enqueue n

/-- `complete_unrun`. -/
def completeUnrun (z : ZPool) (t : TaskId) (res : Result) : ZPool :=
  let z := z.on (·.queueRemove t)
  let z := if opOnSock (z.task t).kind
    then (z.on (·.inflightDec (z.sockOf t))).sockSlotsClear t else z
  let z := if (z.task t).kind = .opSockWrite then z.writeAdvance t else z
  (z.on (·.finish t res)).on (·.reapIfDetached t)

/-! ### Submission -/

/-- `submit`: the task just made is parked or queued. -/
def submit (z : ZPool) (k : Task) : ZPool :=
  let t := z.ntask
  let z := z.on (·.taskNew k)
  let z := if opOnSock k.kind then z.on (·.inflightInc (z.sockOf t)) else z
  let s := z.sockOf t
  let parked := k.kind = .opSockWrite && !(wqPush (z.sock s).wq t).2
  let z := if k.kind = .opSockWrite
    then z.on (·.modSock s fun q => { q with wq := (wqPush q.wq t).1 }) else z
  if parked then z else z.enqueue t

/-- `task_new_failed`, and the submissions whose string does not fit: a task done from the start. -/
def taskNewFailed (z : ZPool) (kind : OpKind) (err : Int) : ZPool :=
  (z.on (·.taskNew { kind })).on (·.finish z.ntask (rErr err))

/-- `impl_open`; `fits` says that `str_copy` has room for the path. -/
def implOpen (z : ZPool) (fits : Bool) : ZPool :=
  if fits then z.submit { kind := .opOpen } else z.taskNewFailed .opOpen ENAMETOOLONG

/-- `impl_close`; `known` says that the descriptor names a slot in use. -/
def implClose (z : ZPool) (known : Bool) : ZPool :=
  if known then z.submit { kind := .opClose } else z.taskNewFailed .opNone EBADF

/-- `impl_file_rw`. -/
def implFileRw (z : ZPool) (kind : OpKind) (known : Bool) : ZPool :=
  if known then z.submit { kind } else z.taskNewFailed .opNone EBADF

def implRead (z : ZPool) (known : Bool) : ZPool := z.implFileRw .opRead known
def implWrite (z : ZPool) (known : Bool) : ZPool := z.implFileRw .opWrite known
def implSleep (z : ZPool) : ZPool := z.submit { kind := .opSleep }
def implSpawn (z : ZPool) : ZPool := z.submit { kind := .opSpawn }

/-- `impl_tcp_connect`; `fits` says that `str_copy` has room for the host. -/
def implTcpConnect (z : ZPool) (fits : Bool) : ZPool :=
  if fits then z.submit { kind := .opConnect } else z.taskNewFailed .opConnect ENAMETOOLONG

def implTcpAccept (z : ZPool) (ls : SockId) : ZPool :=
  if (z.acceptTask ls).isSome then z.taskNewFailed .opNone EBUSY
  else
    { z with acceptTask := update z.acceptTask ls (some z.ntask) }.submit
      { kind := .opAccept, sock := some ls, fd := some (z.sock ls).fd }

def implSockRead (z : ZPool) (s : SockId) : ZPool :=
  if (z.readTask s).isSome then z.taskNewFailed .opNone EBUSY
  else
    { z with readTask := update z.readTask s (some z.ntask) }.submit
      { kind := .opSockRead, sock := some s, fd := some (z.sock s).fd }

def implSockWrite (z : ZPool) (s : SockId) (buf : List UInt8) : ZPool :=
  z.submit { kind := .opSockWrite, sock := some s, fd := some (z.sock s).fd, buf }

/-- `impl_tcp_listen`, first half: the descriptor is bound and listens. -/
def implTcpListen (z : ZPool) : ZPool :=
  { z.on (·.newDesc) with user := .listening z.ndesc, wrapping := some z.ndesc }

/-- `impl_tcp_listen`, second half: the descriptor is wrapped, or closed for want of a block. -/
def wrapListener (z : ZPool) (fd : Fd) (linked : Bool) : ZPool :=
  if linked then
    { z.sockLink fd with
      user := .idle, wrapping := none, claimed := update z.claimed z.nsock true }
  else { z.on (·.closeDesc fd) with user := .idle, wrapping := none }

/-! ### Closing -/

/-- `t->cancel_req = 1; worker_kick(t);` -/
def kick (c : Core) (t : TaskId) : Core :=
  let c := c.modTask t ({ · with cancelReq := true })
  match (c.task t).worker with
  | some w => c.modWorker w fun k => { k with kicks := k.kicks + 1 }
  | none => c

/-- One round of the loop of `impl_sock_close` over the two slots. -/
def stopSlot (z : ZPool) : Option TaskId → ZPool
  | none => z
  | some c => if (z.task c).started = false then z.completeUnrun c rCanceled else z.on (kick · c)

/-- The loop of `impl_sock_close` over the writes behind the head, each round one fewer. -/
def cancelParked : Nat → ZPool → SockId → ZPool
  | 0, z, _ => z
  | n + 1, z, s =>
    match (z.sock s).wq with
    | _ :: t :: _ => cancelParked n (z.completeUnrun t rCanceled) s
    | _ => z

/--
`impl_sock_close`. The descriptor of an idle socket is closed after the unlock; it is nobody's by
then, so that it makes no difference to close it here.
-/
def implSockClose (z : ZPool) (s : SockId) : ZPool :=
  let t := z.ntask
  let z := z.on (·.taskNew { kind := .opSockClose, sock := some s })
  let z := z.on (·.modSock s ({ · with closing := true }))
  let slots := (z.readTask s, z.acceptTask s)
  let z := (z.stopSlot slots.1).stopSlot slots.2
  let z := cancelParked (z.sock s).wq.length z s
  if (z.sock s).inflight = 0 then
    let fd := (z.sock s).fd
    let z := (z.on (·.sockUnlink s)).on (·.sockFree s)
    (z.on (·.finish t (rOk 0 none))).on (·.closeDesc fd)
  else z.enqueue t

/-! ### Synchronisation and lifetime -/

/-- The loop body of `impl_step`. -/
def implStep (z : ZPool) : Pool.StepAnswer :=
  if z.completions = z.compSeen then
    if z.nqueued = 0 ∧ z.nrunning = 0 then .zero else .wait
  else .one

/-- The user thread goes on inside `impl_step`. -/
def stepOn (z : ZPool) (goal : Goal) : ZPool :=
  match z.implStep, goal with
  | .wait, _ => z
  | .one, .step =>
    { z with compSeen := z.completions, unseen := 0, user := .idle, ret := some (.stepped 1) }
  | .one, goal =>
    { z with compSeen := z.completions, unseen := 0, user := .polling goal (Pool.Goal.round goal) }
  | .zero, .step => { z with unseen := 0, user := .idle, ret := some (.stepped 0) }
  | .zero, .await _ => { z with unseen := 0, user := .idle, ret := some (.awaited (rErr EDEADLK)) }
  | .zero, .select _ => { z with unseen := 0, user := .idle, ret := some (.selected (-1)) }

/-- One poll of `myio_await` or `myio_select`, or the end of a round of them. -/
def pollOn (z : ZPool) (goal : Goal) : List (Option TaskId) → ZPool
  | [] =>
    match goal with
    | .select ts =>
      if ts.all Option.isNone then { z with user := .idle, ret := some (.selected (-1)) }
      else { z with user := .stepping goal }
    | _ => { z with user := .stepping goal }
  | none :: rest => { z with user := .polling goal rest }
  | some t :: rest =>
    if (z.task t).done then
      match goal with
      | .select ts =>
        { z with user := .idle, ret := some (.selected (ts.length - (rest.length + 1) : Nat)) }
      | _ => { z with user := .idle, ret := some (.awaited (z.task t).res) }
    else { z with user := .polling goal rest }

/-- `impl_cancel`. -/
def implCancel (z : ZPool) (t : TaskId) : ZPool :=
  if (z.task t).done then z
  else if (z.task t).started = false then z.completeUnrun t rCanceled
  else if opInterruptible (z.task t).kind then z.on (kick · t)
  else z

/-- The caller gives a task handle up. -/
def dropHandle (z : ZPool) (t : TaskId) : ZPool := { z with held := update z.held t false }

/-- `impl_task_free`, up to its return or its first wait. -/
def implTaskFree (z : ZPool) (t : TaskId) : ZPool :=
  if (z.task t).done then (z.dropHandle t).on (·.taskFreeMem t)
  else if (z.task t).started = false
  then ((z.completeUnrun t rCanceled).dropHandle t).on (·.taskFreeMem t)
  else
    let z := if opInterruptible (z.task t).kind then z.on (kick · t) else z
    { z with user := .freeing t }

/-- `impl_task_free`, woken on `done_cv`. -/
def freeOn (z : ZPool) (t : TaskId) : ZPool :=
  if (z.task t).done then { (z.dropHandle t).on (·.taskFreeMem t) with user := .idle } else z

/-- The caller gives a socket up together with the task that delivered it. -/
def dropSock (z : ZPool) (s : Option SockId) : ZPool :=
  match s with
  | some s => { z with claimed := update z.claimed s false }
  | none => z

/-- `impl_task_detach`. -/
def implTaskDetach (z : ZPool) (t : TaskId) : ZPool :=
  let z := z.dropHandle t
  if (z.task t).done then (z.dropSock (z.task t).res.ptr).on (·.reap t)
  else z.on (·.modTask t ({ · with detached := true }))

/-- `impl_task_result`: the caller learns the socket a finished task has won. -/
def implTaskResult (z : ZPool) (t : TaskId) : ZPool :=
  match (z.task t).res.ptr with
  | some s => { z with claimed := update z.claimed s true }
  | none => z

/-! ### Teardown -/

/-- `complete_unrun`, then `reap` of what the caller abandoned; the other kind is reaped already. -/
def dropUnrun (z : ZPool) (t : TaskId) : ZPool :=
  let owned := !(z.task t).detached
  let z := z.completeUnrun t rCanceled
  if owned then (z.dropHandle t).on (·.reap t) else z

/-- The first loop of `impl_destroy`; the bound is the queue's length, which only shrinks. -/
def destroyQueue : Nat → ZPool → ZPool
  | 0, z => z
  | n + 1, z =>
    match z.queue with
    | [] => z
    | t :: _ => destroyQueue n (z.dropUnrun t)

/-- The inner loop of `impl_destroy` over one FIFO. -/
def destroyFifo (z : ZPool) : List TaskId → ZPool
  | [] => z
  | w :: rest => destroyFifo (z.dropUnrun w) rest

/-- The writes of one FIFO that no worker is sending. -/
def unsent (z : ZPool) (s : SockId) : List TaskId :=
  match (z.sock s).wq with
  | [] => []
  | h :: rest => if (z.task h).started then rest else h :: rest

/-- The second loop of `impl_destroy`, over the sockets. -/
def destroyFifos (z : ZPool) : List SockId → ZPool
  | [] => z
  | s :: rest => destroyFifos (z.destroyFifo (z.unsent s)) rest

/-- The loop of `impl_destroy` over the workers: what they run is flagged and kicked. -/
def kickCurrent (z : ZPool) : List WorkerId → ZPool
  | [] => z
  | w :: rest =>
    match z.current w with
    | some c => kickCurrent (if opInterruptible (z.task c).kind then z.on (kick · c) else z) rest
    | none => kickCurrent z rest

/-- `k_condvar_broadcast(&p->work_cv)`. -/
def broadcast (z : ZPool) : ZPool :=
  { z with worker := fun w =>
      if z.isAsleep w then { z.worker w with pc := .woken false } else z.worker w }

/-- `impl_destroy`, the critical section. -/
def implDestroy (z : ZPool) : ZPool :=
  let z := { z with shutdown := true }
  let z := destroyQueue z.queue.length z
  let z := z.destroyFifos z.socks
  let z := z.kickCurrent (List.range z.nworker)
  { z.broadcast with user := .destroying }

/-- `impl_destroy`, once it has joined every worker. -/
def destroyOn (z : ZPool) : ZPool :=
  if (List.range z.nworker).all fun w => (z.worker w).pc = .retired then
    { z.on (fun c => { Pool.closeSocks c c.socks with socks := [], gone := true }) with
      user := .destroyed }
  else z

/-! ### The worker thread -/

/-- Takes the head of the work queue. -/
def take (z : ZPool) (w : WorkerId) (t : TaskId) : ZPool :=
  let z := { z with
    queue := z.queue.tail, nqueued := z.nqueued - 1, nrunning := z.nrunning + 1
    current := update z.current w (some t) }
  (z.on (·.modTask t fun k => { k with started := true, worker := some w })).on
    (·.setPc w (.running t .entry))

/-- The loop of `worker_main` with the lock held. -/
def workerMain (z : ZPool) (w : WorkerId) : ZPool :=
  match z.queue with
  | t :: _ => z.take w t
  | [] => if z.shutdown then z.on (·.setPc w .retired) else z.on (·.setPc w .asleep)

/-- Back from a task, `worker_main` forgets it. -/
def clearCurrent (z : ZPool) (w : WorkerId) : ZPool := { z with current := update z.current w none }

/--
The start of `worker_run` or `worker_close`. A write looks at `closing` twice before it sends; the
flag is never taken back, so that one look serves for both.
-/
def workerEnter (z : ZPool) (w : WorkerId) (t : TaskId) : ZPool :=
  if opOnSock (z.task t).kind && (z.sock (z.sockOf t)).closing
  then z.on (·.setPc w (.running t (.commit rCanceled none)))
  else
    match (z.task t).kind with
    | .opSockClose => z.on (·.setPc w (.running t .drain))
    | .opSockWrite =>
      if z.shutdown then z.on (·.setPc w (.running t (.commit rCanceled none)))
      else z.on (·.setPc w (.running t (.sending 0)))
    | .opSleep | .opAccept | .opSockRead => z.on (·.setPc w (.running t .check))
    | _ => z.on (·.setPc w (.running t .call))

/-- Wraps the descriptor a connect or an accept has won. -/
def wrapWon (z : ZPool) (res : Result) (newfd : Option Fd) (linked : Bool) : ZPool × Result :=
  match newfd with
  | none => (z, res)
  | some fd =>
    if linked then (z.sockLink fd, rOk 0 (some z.nsock))
    else (z.on (·.closeDesc fd), rErr ENOMEM)

/-- A connection accepted just as the listener closed is dropped. -/
def dropWon (z : ZPool) (res : Result) : ZPool :=
  match res.ptr with
  | some s => z.on (·.sockDiscard s)
  | none => z

/-- The part of the commit that settles accounts with the task's socket. -/
def settleSock (z : ZPool) (t : TaskId) (res : Result) : ZPool × Result :=
  if opOnSock (z.task t).kind then
    let s := z.sockOf t
    let z := (z.on (·.inflightDec s)).sockSlotsClear t
    let z := if (z.task t).kind = .opSockWrite then z.writeAdvance t else z
    if (z.sock s).closing then (z.dropWon res, rCanceled) else (z, res)
  else (z, res)

/-- The end of a commit, the same in `worker_run` and `worker_close`. -/
def complete (z : ZPool) (t : TaskId) (res : Result) : ZPool :=
  let z := z.on (·.finish t res)
  let z := { z with nrunning := z.nrunning - 1, completions := (z.completions + 1) % 2 ^ 32
                    unseen := z.unseen + 1 }
  z.on (·.reapIfDetached t)

/-- The commit of `worker_run`; the worker is on its way back to the top of its loop. -/
def workerCommit (z : ZPool) (w : WorkerId) (t : TaskId) (res : Result) (newfd : Option Fd)
    (linked : Bool) : ZPool :=
  let z := z.on (·.setPc w .ready)
  let (z, res) := z.wrapWon res newfd linked
  let (z, res) := z.settleSock t res
  z.complete t res

/-! ### Steps -/

/-- A call of the user thread, or its going on inside one that blocks. -/
inductive Call
  | open (fits : Bool)
  | close (known : Bool)
  | read (known : Bool)
  | write (known : Bool)
  | sleep
  | spawn
  | tcpConnect (fits : Bool)
  | tcpListen
  | tcpAccept (ls : SockId)
  | sockRead (s : SockId)
  | sockWrite (s : SockId) (buf : List UInt8)
  | sockClose (s : SockId)
  | wait (goal : Goal)
  | cancel (t : TaskId)
  | taskResult (t : TaskId)
  | taskFree (t : TaskId)
  | taskDetach (t : TaskId)
  | destroy
  /-- Goes on inside a call; `ok` is the allocator's answer where one is asked. -/
  | resume (ok : Bool)
  deriving DecidableEq, Repr

inductive Label
  | user (call : Call)
  | worker (w : WorkerId) (act : Pool.Act)
  deriving DecidableEq, Repr

/-- A vtable call, made between two others. -/
def call (z : ZPool) : Call → Option ZPool
  | .open fits => some (z.implOpen fits)
  | .close known => some (z.implClose known)
  | .read known => some (z.implRead known)
  | .write known => some (z.implWrite known)
  | .sleep => some z.implSleep
  | .spawn => some z.implSpawn
  | .tcpConnect fits => some (z.implTcpConnect fits)
  | .tcpListen => some z.implTcpListen
  | .tcpAccept ls => some (z.implTcpAccept ls)
  | .sockRead s => some (z.implSockRead s)
  | .sockWrite s buf => some (z.implSockWrite s buf)
  | .sockClose s => some (z.implSockClose s)
  | .wait .step => some { z with user := .stepping .step }
  | .wait goal => some { z with user := .polling goal (Pool.Goal.round goal) }
  | .cancel t => some (z.implCancel t)
  | .taskResult t => some (z.implTaskResult t)
  | .taskFree t => some (z.implTaskFree t)
  | .taskDetach t => some (z.implTaskDetach t)
  | .destroy => some z.implDestroy
  | .resume _ => none

/-- The user thread goes on inside the call it is in. -/
def resume (z : ZPool) (ok : Bool) : Option ZPool :=
  match z.user with
  | .listening fd => some (z.wrapListener fd ok)
  | .freeing t => some (z.freeOn t)
  | .polling goal rest => some (z.pollOn goal rest)
  | .stepping goal => some (z.stepOn goal)
  | .destroying => some z.destroyOn
  | _ => none

def userStep (z : ZPool) (c : Call) : Option ZPool :=
  match c with
  | .resume ok => z.resume ok
  | c => if z.user = .idle then z.call c else none

/-- One move of a worker that is running a task. -/
def runStep (z : ZPool) (w : WorkerId) (t : TaskId) : Phase → Pool.Act → Option ZPool
  | .entry, .enter => some (z.workerEnter w t)
  | .check, .check expired =>
    if (z.task t).cancelReq then some (z.on (·.setPc w (.running t (.commit rCanceled none))))
    else if expired && (z.task t).kind = .opSleep then some (z.on (·.setPc w (.running t .call)))
    else some (z.on (·.setPc w (.running t .polling)))
  | .polling, .poll interrupted =>
    -- A kick makes the poll return, and is drained together with those before it.
    if interrupted then
      if 0 < (z.worker w).kicks then
        some ((z.on (·.modWorker w ({ · with kicks := 0 }))).on (·.setPc w (.running t .check)))
      else none
    else some (z.on (·.setPc w (.running t .call)))
  | .call, .ret n errno =>
    some (z.on (·.setPc w (.running t (.commit (Pool.callResult (z.task t).kind n errno) none))))
  | .call, .retFd errno =>
    match (z.task t).kind with
    | .opConnect => some ((z.on (·.newDesc)).on
        (·.setPc w (.running t (.commit (rErr errno) (some z.ndesc)))))
    | .opAccept => some ((z.on (·.newDesc)).on
        (·.setPc w (.running t (.commit (rOk 0 none) (some z.ndesc)))))
    | _ => none
  | .sending off, .send n =>
    if off < (z.task t).buf.length ∧ n ≤ (z.task t).buf.length - off
    then some (z.on (Pool.sendBytes · w t off n)) else none
  | .sending off, .sendErr errno =>
    if off < (z.task t).buf.length
    then some (z.on (·.setPc w (.running t (.commit (rErr errno) none)))) else none
  | .sending off, .sendEnd =>
    if off < (z.task t).buf.length then none
    else some (z.on (·.setPc w (.running t (.commit (rOk (z.task t).buf.length none) none))))
  | .commit res newfd, .commit linked => some (z.workerCommit w t res newfd linked)
  | .drain, .unlink =>
    let s := z.sockOf t
    if (z.sock s).inflight = 0
    then some (((z.on (·.sockUnlink s)).on (·.sockFree s)).on
      (·.setPc w (.running t (.closeFd (z.sock s).fd))))
    else none
  | .closeFd fd, .release =>
    some ((z.on (·.closeDesc fd)).on (·.setPc w (.running t .commitClose)))
  | .commitClose, .commitClose => some ((z.on (·.setPc w .ready)).complete t (rOk 0 none))
  | _, _ => none

def workerStep (z : ZPool) (w : WorkerId) (a : Pool.Act) : Option ZPool :=
  if z.nworker ≤ w then none
  else
    match (z.worker w).pc, a with
    | .asleep, .wake _ => some (z.on (·.setPc w (.woken false)))
    | .ready, .main => some ((z.clearCurrent w).workerMain w)
    | .woken _, .main => some (z.workerMain w)
    | .running t phase, a => z.runStep w t phase a
    | _, _ => none

/-- One step of the pool and the threads around it. -/
def step (z : ZPool) : Label → Option ZPool
  | .user c => z.userStep c
  | .worker w a => z.workerStep w a

/-- The caller's part, the same as with the desktop pool. -/
def obeys (z : ZPool) : Label → Bool
  | .user (.tcpAccept s) | .user (.sockRead s) | .user (.sockWrite s _) | .user (.sockClose s) =>
    z.claimed s && !(z.sock s).closing
  | .user (.wait goal) => (Pool.Goal.round goal).all (·.all z.held)
  | .user (.cancel t) | .user (.taskResult t) | .user (.taskFree t) => z.held t
  | .user (.taskDetach t) => Pool.mayDetach z.toCore t
  | _ => true

end ZPool

end Myio
