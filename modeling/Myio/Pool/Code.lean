import Myio.Pool.Core

/-!
The thread-pool backend.

One step is one critical section under `pool.mu`, or one piece of work a worker does without it.
-/

namespace Myio

/-- The environment's answers: whether the n-th request succeeds, and whom a signal wakes. -/
structure Os where
  create : Nat → Bool
  wakes : Nat → WorkerId → Bool

/-- The blocking calls built on `impl_step`: the call itself, and the header's two loops. -/
inductive Goal
  | step
  | await (t : TaskId)
  | select (ts : List (Option TaskId))
  deriving DecidableEq, Repr

/-- Where the one user thread is. -/
inductive User
  /-- Between two vtable calls. -/
  | idle
  /-- In `impl_tcp_listen`, with a listening descriptor not yet wrapped. -/
  | listening (fd : Fd)
  /-- In `impl_task_free`, waiting for a running task. -/
  | freeing (t : TaskId)
  /-- Polling `task_done` over the entries still to look at in this round. -/
  | polling (goal : Goal) (rest : List (Option TaskId))
  /-- In `impl_step`, about to look at the counters with the lock held. -/
  | stepping (goal : Goal)
  /-- In `impl_destroy`, waiting for the workers to retire. -/
  | destroying
  | destroyed
  deriving DecidableEq, Repr

/-- What the last finished blocking call returned. -/
inductive Ret
  | stepped (n : Nat)
  | awaited (res : Result)
  | selected (i : Int)
  deriving DecidableEq, Repr

/-- `struct pool`, with the threads around it; `unseen` is history. -/
structure Pool extends Core where
  idle : Nat
  nlive : Nat
  completions : Nat
  compSeen : Nat
  os : Os
  tick : Nat
  user : User
  ret : Option Ret
  /-- Worker completions since the previous `impl_step` returned. -/
  unseen : Nat

namespace Pool

/-- `myio_pool_new`: everything is zero. -/
def new (os : Os) : Pool where
  task := fun _ => { kind := .opNone }
  ntask := 0
  sock := fun _ => { fd := 0 }
  nsock := 0
  desc := fun _ => {}
  ndesc := 0
  worker := fun _ => { pc := .retired }
  nworker := 0
  queue := []
  nqueued := 0
  nrunning := 0
  shutdown := false
  socks := []
  wrapping := none
  gone := false
  held := fun _ => false
  claimed := fun _ => false
  idle := 0
  nlive := 0
  completions := 0
  compSeen := 0
  os := os
  tick := 0
  user := .idle
  ret := none
  unseen := 0

/-- Runs shared code on the shared part. -/
def on (p : Pool) (f : Core → Core) : Pool := { p with toCore := f p.toCore }

/-! ### Dispatch -/

/-- A worker is asleep on `work_cv`. -/
def isAsleep (p : Pool) (w : WorkerId) : Bool := w < p.nworker && (p.worker w).pc = .asleep

/-- The waiters a signal wakes: those the environment picks, or else the first one there is. -/
def signalled (p : Pool) (w : WorkerId) : Bool :=
  if (List.range p.nworker).any (fun v => p.isAsleep v && p.os.wakes p.tick v)
  then p.isAsleep w && p.os.wakes p.tick w
  else (List.range p.nworker).find? p.isAsleep = some w

/-- Takes the chosen sleepers off `work_cv`. -/
def wakeAll (p : Pool) (chosen : WorkerId → Bool) : Pool :=
  { p with worker := fun w =>
      if chosen w then { p.worker w with pc := .woken false } else p.worker w }

/-- `pthread_cond_signal(&p->work_cv)`: at least one waiter wakes if there is one. -/
def condSignal (p : Pool) : Pool := { p.wakeAll p.signalled with tick := p.tick + 1 }

/-- `spawn_thread`. -/
def spawnThread (p : Pool) : Pool × Bool :=
  if p.os.create p.tick then
    ({ p with tick := p.tick + 1, nlive := p.nlive + 1, nworker := p.nworker + 1,
              worker := Function.update p.worker p.nworker { pc := .ready } }, true)
  else ({ p with tick := p.tick + 1 }, false)

/-- `dispatch_locked`: queues a task and secures a worker for it, or takes it off again. -/
def dispatchLocked (p : Pool) (t : TaskId) : Pool × Bool :=
  let p := p.on (·.queuePush t)
  if p.nqueued ≤ p.idle then (p.condSignal, true)
  else
    match p.spawnThread with
    | (p, true) => (p, true)
    | (p, false) => (p.on (·.queueRemove t), false)

/-! ### Leaving the queue and the FIFO -/

/-- A promoted write with no worker to be had: it leaves the FIFO and completes `EAGAIN`. -/
def failHead (c : Core) (s : SockId) (n : TaskId) : Core :=
  let c := c.modSock s fun k => { k with wq := (wqPop k.wq).1 }
  let c := c.inflightDec s
  let c := c.finish n (rErr EAGAIN)
  c.reapIfDetached n

/-- The loop of `write_advance`, over the FIFO as it stands. -/
def promote (p : Pool) (s : SockId) : List TaskId → Pool
  | [] => p
  | n :: rest =>
    match p.dispatchLocked n with
    | (p, true) => p
    | (p, false) => promote (p.on (failHead · s n)) s rest

/-- `write_advance`: a write leaves its FIFO, and a head that leaves hands on to the next. -/
def writeAdvance (p : Pool) (t : TaskId) : Pool :=
  let s := p.sockOf t
  if (p.sock s).wq.head? ≠ some t then
    -- Parked: no successor to arm.
    p.on (·.modSock s fun k => { k with wq := wqRemove k.wq t })
  else
    let p := p.on (·.modSock s fun k => { k with wq := (wqPop k.wq).1 })
    if p.shutdown then p else promote p s (p.sock s).wq

/-- `complete_unrun`: completes a task no worker has touched as `MYIO_CANCELED`. -/
def completeUnrun (p : Pool) (t : TaskId) : Pool :=
  let p := p.on (·.queueRemove t)
  let p := if opOnSock (p.task t).kind then p.on (·.inflightDec (p.sockOf t)) else p
  let p := if (p.task t).kind = .opSockWrite then p.writeAdvance t else p
  (p.on (·.finish t rCanceled)).on (·.reapIfDetached t)

/-! ### Submission -/

/-- `submit`: the task just made is parked, dispatched, or failed on the spot. -/
def submit (p : Pool) (k : Task) : Pool :=
  let t := p.ntask
  let p := p.on (·.taskNew k)
  let p := if opOnSock k.kind then p.on (·.inflightInc (p.sockOf t)) else p
  let s := p.sockOf t
  let parked := k.kind = .opSockWrite && !(wqPush (p.sock s).wq t).2
  let p := if k.kind = .opSockWrite
    then p.on (·.modSock s fun q => { q with wq := (wqPush q.wq t).1 }) else p
  if parked then p
  else
    match p.dispatchLocked t with
    | (p, true) => p
    | (p, false) =>
      let p := if opOnSock k.kind then p.on (·.inflightDec s) else p
      let p := if k.kind = .opSockWrite
        then p.on (·.modSock s fun q => { q with wq := (wqPop q.wq).1 }) else p
      p.on (·.finish t (rErr EAGAIN))

def implOpen (p : Pool) : Pool := p.submit { kind := .opOpen }
def implClose (p : Pool) : Pool := p.submit { kind := .opClose }
def implRead (p : Pool) : Pool := p.submit { kind := .opRead }
def implWrite (p : Pool) : Pool := p.submit { kind := .opWrite }
def implSleep (p : Pool) : Pool := p.submit { kind := .opSleep }
def implSpawn (p : Pool) : Pool := p.submit { kind := .opSpawn }
def implTcpConnect (p : Pool) : Pool := p.submit { kind := .opConnect }

def implTcpAccept (p : Pool) (ls : SockId) : Pool :=
  p.submit { kind := .opAccept, sock := some ls, fd := some (p.sock ls).fd }

def implSockRead (p : Pool) (s : SockId) : Pool :=
  p.submit { kind := .opSockRead, sock := some s, fd := some (p.sock s).fd }

def implSockWrite (p : Pool) (s : SockId) (buf : List UInt8) : Pool :=
  p.submit { kind := .opSockWrite, sock := some s, fd := some (p.sock s).fd, buf }

/-- `impl_tcp_listen`, first half: `myio_posix_listen` has answered with a descriptor. -/
def implTcpListen (p : Pool) : Pool :=
  { p.on (·.newDesc) with user := .listening p.ndesc, wrapping := some p.ndesc }

/-- `impl_tcp_listen`, second half: the descriptor is wrapped, or closed for want of memory. -/
def wrapListener (p : Pool) (fd : Fd) (linked : Bool) : Pool :=
  if linked then
    { p.on (·.sockLink fd) with
      user := .idle, wrapping := none, claimed := Function.update p.claimed p.nsock true }
  else { p.on (·.closeDesc fd) with user := .idle, wrapping := none }

/-- The loop of `impl_sock_close` over the writes behind the head, each round one fewer. -/
def cancelParked : Nat → Pool → SockId → Pool
  | 0, p, _ => p
  | n + 1, p, s =>
    match (p.sock s).wq with
    | _ :: t :: _ => cancelParked n (p.completeUnrun t) s
    | _ => p

/-- `impl_sock_close`. -/
def implSockClose (p : Pool) (s : SockId) : Pool :=
  let t := p.ntask
  let p := p.on (·.taskNew { kind := .opSockClose, sock := some s })
  let p := p.on (·.modSock s ({ · with closing := true }))
  if (p.sock s).inflight = 0 then
    -- No operation is blocked on the socket: it is closed right here.
    (p.on (·.sockDiscard s)).on (·.finish t (rOk 0 none))
  else
    let p := cancelParked (p.sock s).wq.length p s
    match p.dispatchLocked t with
    | (p, true) => p
    | (p, false) => p.on (·.finish t (rErr EAGAIN))

/-! ### Synchronisation and lifetime -/

/-- What one look at the counters decides in `impl_step`. -/
inductive StepAnswer
  | zero
  | wait
  | one
  deriving DecidableEq, Repr

/-- The loop body of `impl_step`. -/
def implStep (p : Pool) : StepAnswer :=
  if p.completions = p.compSeen then
    if p.nqueued = 0 ∧ p.nrunning = 0 then .zero else .wait
  else .one

/-- The tasks a waiting loop polls in each round. -/
def Goal.round : Goal → List (Option TaskId)
  | .step => []
  | .await t => [some t]
  | .select ts => ts

/-- The user thread goes on inside `impl_step`. -/
def stepOn (p : Pool) (goal : Goal) : Pool :=
  match p.implStep, goal with
  | .wait, _ => p
  | .one, .step => { p with compSeen := p.completions, unseen := 0, user := .idle, ret := some (.stepped 1) }
  | .one, goal => { p with compSeen := p.completions, unseen := 0, user := .polling goal (Goal.round goal) }
  | .zero, .step => { p with unseen := 0, user := .idle, ret := some (.stepped 0) }
  | .zero, .await _ => { p with unseen := 0, user := .idle, ret := some (.awaited (rErr EDEADLK)) }
  | .zero, .select _ => { p with unseen := 0, user := .idle, ret := some (.selected (-1)) }

/-- One poll of `myio_await` or `myio_select`, or the end of a round of them. -/
def pollOn (p : Pool) (goal : Goal) : List (Option TaskId) → Pool
  | [] =>
    match goal with
    | .select ts =>
      if ts.all Option.isNone then { p with user := .idle, ret := some (.selected (-1)) }
      else { p with user := .stepping goal }
    | _ => { p with user := .stepping goal }
  | none :: rest => { p with user := .polling goal rest }
  | some t :: rest =>
    if (p.task t).done then
      match goal with
      | .select ts =>
        { p with user := .idle, ret := some (.selected (ts.length - (rest.length + 1) : Nat)) }
      | _ => { p with user := .idle, ret := some (.awaited (p.task t).res) }
    else { p with user := .polling goal rest }

/-- `t->cancel_req = 1; pthread_kill(t->worker, POOL_SIG);` -/
def kick (c : Core) (t : TaskId) : Core :=
  (c.modTask t ({ · with cancelReq := true })).modWorker ((c.task t).worker.getD 0)
    fun w => { w with kicks := w.kicks + 1 }

/-- `impl_cancel`. -/
def implCancel (p : Pool) (t : TaskId) : Pool :=
  if (p.task t).done then p
  else if (p.task t).started = false then p.completeUnrun t
  else if opInterruptible (p.task t).kind then p.on (kick · t)
  else p

/-- The caller gives a task handle up. -/
def dropHandle (p : Pool) (t : TaskId) : Pool :=
  { p with held := Function.update p.held t false }

/-- `impl_task_free`, up to its return or its first wait. -/
def implTaskFree (p : Pool) (t : TaskId) : Pool :=
  if (p.task t).done then (p.dropHandle t).on (·.taskFreeMem t)
  else if (p.task t).started = false then ((p.completeUnrun t).dropHandle t).on (·.taskFreeMem t)
  else
    let p := if opInterruptible (p.task t).kind then p.on (kick · t) else p
    { p with user := .freeing t }

/-- `impl_task_free`, woken on `done_cv`. -/
def freeOn (p : Pool) (t : TaskId) : Pool :=
  if (p.task t).done then { (p.dropHandle t).on (·.taskFreeMem t) with user := .idle } else p

/-- The caller gives a socket up together with the task that delivered it. -/
def dropSock (p : Pool) (s : Option SockId) : Pool :=
  match s with
  | some s => { p with claimed := Function.update p.claimed s false }
  | none => p

/-- `impl_task_detach`. -/
def implTaskDetach (p : Pool) (t : TaskId) : Pool :=
  let p := p.dropHandle t
  if (p.task t).done then (p.dropSock (p.task t).res.ptr).on (·.reap t)
  else p.on (·.modTask t ({ · with detached := true }))

/-- `impl_task_result`: the caller learns the socket a finished task has won. -/
def implTaskResult (p : Pool) (t : TaskId) : Pool :=
  match (p.task t).res.ptr with
  | some s => { p with claimed := Function.update p.claimed s true }
  | none => p

/-! ### Teardown -/

/-- `complete_unrun`, then `reap` of what the caller abandoned; the other kind is reaped already. -/
def dropUnrun (p : Pool) (t : TaskId) : Pool :=
  let owned := !(p.task t).detached
  let p := p.completeUnrun t
  if owned then (p.dropHandle t).on (·.reap t) else p

/-- The first loop of `impl_destroy`; the bound is the queue's length, which only shrinks. -/
def destroyQueue : Nat → Pool → Pool
  | 0, p => p
  | n + 1, p =>
    match p.queue with
    | [] => p
    | t :: _ => destroyQueue n (p.dropUnrun t)

/-- The writes of one FIFO that no worker is sending. -/
def unsent (p : Pool) (s : SockId) : List TaskId :=
  match (p.sock s).wq with
  | [] => []
  | h :: rest => if (p.task h).started then rest else h :: rest

/-- The inner loop of `impl_destroy` over one FIFO. -/
def destroyFifo (p : Pool) : List TaskId → Pool
  | [] => p
  | w :: rest => destroyFifo (p.dropUnrun w) rest

/-- The second loop of `impl_destroy`, over the sockets. -/
def destroyFifos (p : Pool) : List SockId → Pool
  | [] => p
  | s :: rest => destroyFifos (p.destroyFifo (p.unsent s)) rest

/-- `impl_destroy`, the critical section up to its first wait. -/
def implDestroy (p : Pool) : Pool :=
  let p := { p with shutdown := true }
  let p := destroyQueue p.queue.length p
  let p := p.destroyFifos p.socks
  { p.wakeAll p.isAsleep with user := .destroying }

/-- The last loop of `impl_destroy`, over the sockets the caller never closed. -/
def closeSocks (c : Core) : List SockId → Core
  | [] => c
  | s :: rest => closeSocks ((c.closeDesc (c.sock s).fd).sockFree s) rest

/-- `impl_destroy`, woken on `done_cv`. -/
def destroyOn (p : Pool) : Pool :=
  if p.nlive = 0 then
    { p.on (fun c => { closeSocks c c.socks with socks := [], gone := true }) with
      user := .destroyed }
  else p

/-! ### The worker thread -/

/-- Takes the head of the work queue. -/
def take (p : Pool) (w : WorkerId) (t : TaskId) : Pool :=
  let p := { p with queue := p.queue.tail, nqueued := p.nqueued - 1, nrunning := p.nrunning + 1 }
  (p.on (·.modTask t fun k => { k with started := true, worker := some w })).on
    (·.setPc w (.running t .entry))

/-- Leaves `worker_main`. -/
def retire (p : Pool) (w : WorkerId) : Pool :=
  { p.on (·.setPc w .retired) with nlive := p.nlive - 1 }

/-- The loop of `worker_main` with the lock held; a timed-out wait is not tried again. -/
def workerMain (p : Pool) (w : WorkerId) (timedout : Bool) : Pool :=
  match p.queue with
  | t :: _ => p.take w t
  | [] =>
    if p.shutdown || timedout then p.retire w
    else { p.on (·.setPc w .asleep) with idle := p.idle + 1 }

/-- The start of `worker_run` or `worker_close`: which blocking part comes first. -/
def workerEnter (p : Pool) (w : WorkerId) (t : TaskId) : Pool :=
  match (p.task t).kind with
  | .opSockClose => p.on (·.setPc w (.running t .drain))
  | .opSockWrite =>
    if (p.sock (p.sockOf t)).closing || p.shutdown
    then p.on (·.setPc w (.running t (.commit rCanceled none)))
    else p.on (·.setPc w (.running t (.sending 0)))
  | .opSleep | .opAccept | .opSockRead => p.on (·.setPc w (.running t .check))
  | _ => p.on (·.setPc w (.running t .call))

/-- The result `worker_run` makes of a blocking call that delivers no descriptor. -/
def callResult (k : OpKind) (n errno : Int) : Result :=
  match k with
  | .opSleep => rOk 0 none
  | .opSpawn => if 0 ≤ n then rOk n none else rErr (toInt32 (-n))
  | .opConnect | .opAccept => rErr errno
  | _ => rFrom n errno

/-- `send` has accepted `n` more bytes of the buffer. -/
def sendBytes (c : Core) (w : WorkerId) (t : TaskId) (off n : Nat) : Core :=
  let c := c.modDesc ((c.task t).fd.getD 0) fun d =>
    { d with wire := d.wire ++ ((c.task t).buf.drop off).take n }
  let c := c.modTask t fun k => { k with sent := off + n }
  c.setPc w (.running t (.sending (off + n)))

/-- Wraps the descriptor a connect or an accept has won. -/
def wrapWon (p : Pool) (res : Result) (newfd : Option Fd) (linked : Bool) : Pool × Result :=
  match newfd with
  | none => (p, res)
  | some fd =>
    if linked then (p.on (·.sockLink fd), rOk 0 (some p.nsock))
    else (p.on (·.closeDesc fd), rErr ENOMEM)

/-- A connection accepted just as the listener closed is dropped. -/
def dropWon (p : Pool) (res : Result) : Pool :=
  match res.ptr with
  | some s => p.on (·.sockDiscard s)
  | none => p

/-- The part of the commit that settles accounts with the task's socket. -/
def settleSock (p : Pool) (t : TaskId) (res : Result) : Pool × Result :=
  if opOnSock (p.task t).kind then
    let s := p.sockOf t
    let p := p.on (·.inflightDec s)
    let p := if (p.task t).kind = .opSockWrite then p.writeAdvance t else p
    if (p.sock s).closing then (p.dropWon res, rCanceled) else (p, res)
  else (p, res)

/-- The end of a commit, the same in `worker_run` and `worker_close`. -/
def complete (p : Pool) (t : TaskId) (res : Result) : Pool :=
  let p := p.on (·.finish t res)
  let p := { p with nrunning := p.nrunning - 1, completions := (p.completions + 1) % 2 ^ 64,
                    unseen := p.unseen + 1 }
  p.on (·.reapIfDetached t)

/-- The commit of `worker_run`; the worker is on its way back to the top of its loop. -/
def workerCommit (p : Pool) (w : WorkerId) (t : TaskId) (res : Result) (newfd : Option Fd)
    (linked : Bool) : Pool :=
  let p := p.on (·.setPc w .ready)
  let (p, res) := p.wrapWon res newfd linked
  let (p, res) := p.settleSock t res
  p.complete t res

/-! ### Steps -/

/-- A call of the user thread, or its going on inside one that blocks. -/
inductive Call
  | open
  | close
  | read
  | write
  | sleep
  | spawn
  | tcpConnect
  | tcpListen
  | tcpAccept (ls : SockId)
  | sockRead (s : SockId)
  | sockWrite (s : SockId) (buf : List UInt8)
  | sockClose (s : SockId)
  | wait (goal : Goal)
  | cancel (t : TaskId)
  | taskResult (t : TaskId)
  | taskFree (t : TaskId)
  | taskDetach (t : TaskId)
  | destroy
  /-- Goes on inside a call; `ok` is the allocator's answer where one is asked. -/
  | resume (ok : Bool)
  deriving DecidableEq, Repr

/-- A move of one worker. -/
inductive Act
  /-- The wait on `work_cv` returns on its own: early, or with `ETIMEDOUT`. -/
  | wake (timedout : Bool)
  /-- Takes the lock in `worker_main`. -/
  | main
  /-- Starts on the task it has dequeued. -/
  | enter
  /-- Reads `cancel_req`; `expired` says that the sleep's deadline has passed. -/
  | check (expired : Bool)
  /-- The interruptible poll returns, with `EINTR` or to let the call proceed. -/
  | poll (interrupted : Bool)
  /-- The blocking call returns `n`. -/
  | ret (n errno : Int)
  /-- The connect or accept returns a descriptor. -/
  | retFd (errno : Int)
  /-- `send` accepts `n` bytes. -/
  | send (n : Nat)
  /-- `send` fails with `EINTR`. -/
  | sendIntr
  /-- `send` fails with another error. -/
  | sendErr (errno : Int)
  /-- The send loop finds nothing left to send. -/
  | sendEnd
  /-- Commits the result; `linked` is the allocator's answer for a won socket. -/
  | commit (linked : Bool)
  /-- `worker_close` finds the socket drained and unlinks it. -/
  | unlink
  /-- `worker_close` closes the descriptor and frees the socket. -/
  | release
  /-- `worker_close` commits. -/
  | commitClose
  deriving DecidableEq, Repr

inductive Label
  | user (call : Call)
  | worker (w : WorkerId) (act : Act)
  deriving DecidableEq, Repr

/-- A vtable call, made between two others. -/
def call (p : Pool) : Call → Option Pool
  | .open => some p.implOpen
  | .close => some p.implClose
  | .read => some p.implRead
  | .write => some p.implWrite
  | .sleep => some p.implSleep
  | .spawn => some p.implSpawn
  | .tcpConnect => some p.implTcpConnect
  | .tcpListen => some p.implTcpListen
  | .tcpAccept ls => some (p.implTcpAccept ls)
  | .sockRead s => some (p.implSockRead s)
  | .sockWrite s buf => some (p.implSockWrite s buf)
  | .sockClose s => some (p.implSockClose s)
  | .wait .step => some { p with user := .stepping .step }
  | .wait goal => some { p with user := .polling goal (Goal.round goal) }
  | .cancel t => some (p.implCancel t)
  | .taskResult t => some (p.implTaskResult t)
  | .taskFree t => some (p.implTaskFree t)
  | .taskDetach t => some (p.implTaskDetach t)
  | .destroy => some p.implDestroy
  | .resume _ => none

/-- The user thread goes on inside the call it is in. -/
def resume (p : Pool) (ok : Bool) : Option Pool :=
  match p.user with
  | .listening fd => some (p.wrapListener fd ok)
  | .freeing t => some (p.freeOn t)
  | .polling goal rest => some (p.pollOn goal rest)
  | .stepping goal => some (p.stepOn goal)
  | .destroying => some p.destroyOn
  | _ => none

def userStep (p : Pool) (c : Call) : Option Pool :=
  match c with
  | .resume ok => p.resume ok
  | c => if p.user = .idle then p.call c else none

/-- One move of a worker that is running a task. -/
def runStep (p : Pool) (w : WorkerId) (t : TaskId) : Phase → Act → Option Pool
  | .entry, .enter => some (p.workerEnter w t)
  | .check, .check expired =>
    if (p.task t).cancelReq then some (p.on (·.setPc w (.running t (.commit rCanceled none))))
    else if expired && (p.task t).kind = .opSleep then some (p.on (·.setPc w (.running t .call)))
    else some (p.on (·.setPc w (.running t .polling)))
  | .polling, .poll interrupted =>
    if interrupted then
      some ((p.on (·.modWorker w fun k => { k with kicks := k.kicks - 1 })).on
        (·.setPc w (.running t .check)))
    else some (p.on (·.setPc w (.running t .call)))
  | .call, .ret n errno =>
    some (p.on (·.setPc w (.running t (.commit (callResult (p.task t).kind n errno) none))))
  | .call, .retFd errno =>
    match (p.task t).kind with
    | .opConnect => some ((p.on (·.newDesc)).on
        (·.setPc w (.running t (.commit (rErr errno) (some p.ndesc)))))
    | .opAccept => some ((p.on (·.newDesc)).on
        (·.setPc w (.running t (.commit (rOk 0 none) (some p.ndesc)))))
    | _ => none
  | .sending off, .send n =>
    if off < (p.task t).buf.length ∧ n ≤ (p.task t).buf.length - off
    then some (p.on (sendBytes · w t off n)) else none
  | .sending off, .sendIntr => if off < (p.task t).buf.length then some p else none
  | .sending off, .sendErr errno =>
    if off < (p.task t).buf.length
    then some (p.on (·.setPc w (.running t (.commit (rErr errno) none)))) else none
  | .sending off, .sendEnd =>
    if off < (p.task t).buf.length then none
    else some (p.on (·.setPc w (.running t (.commit (rOk (p.task t).buf.length none) none))))
  | .commit res newfd, .commit linked => some (p.workerCommit w t res newfd linked)
  | .drain, .unlink =>
    let s := p.sockOf t
    if (p.sock s).inflight = 0
    then some ((p.on (·.sockUnlink s)).on (·.setPc w (.running t (.release (p.sock s).fd))))
    else none
  | .release fd, .release =>
    some (((p.on (·.closeDesc fd)).on (·.sockFree (p.sockOf t))).on
      (·.setPc w (.running t .commitClose)))
  | .commitClose, .commitClose => some ((p.on (·.setPc w .ready)).complete t (rOk 0 none))
  | _, _ => none

def workerStep (p : Pool) (w : WorkerId) (a : Act) : Option Pool :=
  if p.nworker ≤ w then none
  else
    match (p.worker w).pc, a with
    | .asleep, .wake timedout => some (p.on (·.setPc w (.woken timedout)))
    | .ready, .main => some (p.workerMain w false)
    | .woken timedout, .main => some ({ p with idle := p.idle - 1 }.workerMain w timedout)
    | .running t phase, a => p.runStep w t phase a
    | _, _ => none

/-- One step of the pool and the threads around it. -/
def step (p : Pool) : Label → Option Pool
  | .user c => p.userStep c
  | .worker w a => p.workerStep w a

/-! ### The caller's part -/

/-- A task that is not done acts on a socket. -/
def inUse (c : Core) (s : SockId) : Bool :=
  (List.range c.ntask).any fun t => !(c.task t).done && (c.task t).sock = some s

/-- What the caller may detach: a task it holds, with no claim to a socket still in use. -/
def mayDetach (c : Core) (t : TaskId) : Bool :=
  c.held t && (!(c.task t).done || (c.task t).res.ptr.all fun s =>
    !(c.sock s).closing && !inUse c s)

/--
The caller uses a task handle only until it frees or detaches it, and a socket only until it
submits its `sock_close`; it does not detach a finished task whose socket it still uses.
-/
def obeys (p : Pool) : Label → Bool
  | .user (.tcpAccept s) | .user (.sockRead s) | .user (.sockWrite s _) | .user (.sockClose s) =>
    p.claimed s && !(p.sock s).closing
  | .user (.wait goal) => (Goal.round goal).all (·.all p.held)
  | .user (.cancel t) | .user (.taskResult t) | .user (.taskFree t) => p.held t
  | .user (.taskDetach t) => mayDetach p.toCore t
  | _ => true

end Pool

end Myio
