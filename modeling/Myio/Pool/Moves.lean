import Myio.Pool.Laws

/-!
The moves the critical sections of a thread pool are made of.

A critical section takes a task out of the structures that hold it, works on the rest, and only
then marks the task done. A cut is such a moment in between: it names the tasks that are on their
way in or out, and the FIFOs whose head has not been handed to a worker.
-/

namespace Myio

open Function (update)

/-- A moment inside a critical section; between critical sections nothing is `out` or `bare`. -/
structure Cut where
  core : Core
  out : TaskId → Bool
  bare : SockId → Bool

/-- The phases of a close task in which its socket is off the list. -/
def Phase.unlinked : Phase → Bool
  | .release _ | .closeFd _ | .commitClose => true
  | _ => false

/-- The phases of a task before its socket may be unlinked, and before it has won a descriptor. -/
def Phase.plain : Phase → Bool
  | .release _ | .closeFd _ | .commitClose => false
  | .commit _ newfd => newfd.isNone
  | _ => true

theorem Phase.linked_of_plain {phase : Phase} (plain : phase.plain) : phase.unlinked = false := by
  cases phase <;> simp_all [Phase.plain, Phase.unlinked]

namespace Core

/-- A submitted task that is neither done nor on its way in or out. -/
def Pending (c : Core) (x : TaskId → Bool) (t : TaskId) : Prop :=
  t < c.ntask ∧ (c.task t).done = false ∧ x t = false

instance (c : Core) (x : TaskId → Bool) : DecidablePred (c.Pending x) :=
  fun _ => inferInstanceAs (Decidable (_ ∧ _ ∧ _))

/-- A worker is running a task. -/
def Runs (c : Core) (w : WorkerId) (t : TaskId) : Prop :=
  w < c.nworker ∧ (c.worker w).pc.task? = some t

/-- A worker is running a task and has come to a certain phase of it. -/
def At (c : Core) (w : WorkerId) (t : TaskId) (phase : Phase) : Prop :=
  w < c.nworker ∧ (c.worker w).pc = .running t phase

theorem At.runs {c : Core} {w : WorkerId} {t : TaskId} {phase : Phase} (at_ : c.At w t phase) :
    c.Runs w t :=
  ⟨at_.1, by rw [at_.2]; rfl⟩

/-- Nothing changed but workers that run no task: some were woken, sent to sleep or created. -/
structure Stirred (c c' : Core) : Prop where
  rest : c' = { c with worker := c'.worker, nworker := c'.nworker }
  grown : c.nworker ≤ c'.nworker
  runs : ∀ w t, c'.Runs w t ↔ c.Runs w t
  pcs : ∀ w t phase, c'.At w t phase ↔ c.At w t phase

/-- A task record as `task_new` and the submit functions leave it. -/
structure Fresh (c : Core) (k : Task) : Prop where
  done : k.done = false
  started : k.started = false
  detached : k.detached = false
  res : k.res = rPending
  sent : k.sent = 0
  dones : k.dones = 0
  frees : k.frees = 0
  sock : opOnSock k.kind → ∃ s, s ∈ c.socks ∧ k.sock = some s ∧ (c.sock s).closing = false ∧
    k.fd = some (c.sock s).fd
  bare : opOnSock k.kind = false → k.sock = none
  kind : k.kind ≠ .opSockClose

/-- A descriptor that no socket, no worker and no listener being made holds. -/
structure Loose (c : Core) (fd : Fd) : Prop where
  bound : fd < c.ndesc
  sock : ∀ s, s < c.nsock → (c.sock s).fd ≠ fd
  worker : ∀ w t res newfd, c.At w t (.commit res newfd) → newfd ≠ some fd
  wrapping : c.wrapping ≠ some fd
  fresh : c.desc fd = {}

/-- What a worker may rely on, and has to keep up, in each phase of a task. -/
def PhaseOk (c : Core) (t : TaskId) : Phase → Prop
  | .entry => (c.task t).sent = 0
  | .check | .polling => opInterruptible (c.task t).kind
  | .call => (c.task t).kind ≠ .opSockWrite ∧ (c.task t).kind ≠ .opSockClose
  | .sending off => (c.task t).kind = .opSockWrite ∧ off = (c.task t).sent ∧
      off ≤ (c.task t).buf.length
  | .commit res newfd => (c.task t).kind ≠ .opSockClose ∧ res.status ≠ .pending ∧ res.ptr = none ∧
      (newfd ≠ none → (c.task t).kind = .opConnect ∨ (c.task t).kind = .opAccept) ∧
      ((c.task t).kind = .opSockWrite → res.status = .ok →
        (c.task t).sent = (c.task t).buf.length ∧ res.value = (c.task t).buf.length)
  | .drain => (c.task t).kind = .opSockClose
  | .release fd => (c.task t).kind = .opSockClose ∧ ∀ s, (c.task t).sock = some s →
      s ∉ c.socks ∧ (c.sock s).frees = 0 ∧ fd = (c.sock s).fd
  | .closeFd fd => (c.task t).kind = .opSockClose ∧ ∀ s, (c.task t).sock = some s →
      s ∉ c.socks ∧ (c.sock s).frees = 1 ∧ fd = (c.sock s).fd
  | .commitClose => (c.task t).kind = .opSockClose ∧ ∀ s, (c.task t).sock = some s →
      s ∉ c.socks ∧ (c.sock s).frees = 1 ∧ 0 < (c.desc (c.sock s).fd).closes

/-- A task leaves its socket's count, and its FIFO if it is a write. -/
def leaveSock (c : Core) (t : TaskId) : Core :=
  if opOnSock (c.task t).kind then
    c.modSock (c.sockOf t) fun k => { k with
      inflight := k.inflight - 1
      wq := if (c.task t).kind = .opSockWrite then k.wq.erase t else k.wq }
  else c

/-- The FIFO a leaving task exposes: that of the socket whose head write it is. -/
def exposes (c : Core) (t : TaskId) (s : SockId) : Bool :=
  (c.task t).kind = .opSockWrite && (c.task t).sock = some s && (c.sock s).wq.head? = some t

/-- The end of a task: its result is stored, and a worker's count goes down if one ran it. -/
def settle (c : Core) (t : TaskId) (res : Result) : Core :=
  { c.modTask t (settled res) with
    nrunning := if (c.task t).started then c.nrunning - 1 else c.nrunning }

/-- Every write still in a socket's FIFO has been handed to the workers. -/
def Drained (c : Core) (s : SockId) : Prop :=
  ∀ t, t ∈ (c.sock s).wq → t ∈ c.queue ∨ (c.task t).started = true

/-- When a result may be stored: a socket it carries is new, and a closed socket is really gone. -/
structure Settles (c : Core) (t : TaskId) (res : Result) : Prop where
  status : res.status ≠ .pending ∧ (res.ptr ≠ none → res.status = .ok)
  ptr : ∀ s, res.ptr = some s → s < c.nsock ∧ (∀ u, u < c.ntask → (c.task u).res.ptr ≠ some s) ∧
    c.claimed s = false ∧ (c.sock s).closing = false ∧
    ((c.task t).detached = false → s ∈ c.socks)
  close : (c.task t).kind = .opSockClose → ∀ s, (c.task t).sock = some s →
    (s ∈ c.socks → c.Drained s) ∧ (res.status = .ok →
      s ∉ c.socks ∧ (c.sock s).frees = 1 ∧ 0 < (c.desc (c.sock s).fd).closes)
  closing : opOnSock (c.task t).kind → ∀ s, (c.task t).sock = some s →
    (c.sock s).closing = true → res.status = .canceled
  write : (c.task t).kind = .opSockWrite → res.status = .ok →
    (c.task t).sent = (c.task t).buf.length ∧ res.value = (c.task t).buf.length

/-- A socket nobody refers to any more, or will: its close has begun, or no handle to it is left. -/
structure Unused (c : Core) (x : TaskId → Bool) (s : SockId) : Prop where
  live : s ∈ c.socks
  tasks : ∀ t, c.Pending x t → (c.task t).sock ≠ some s
  handles : (c.sock s).closing = true ∨
    (c.claimed s = false ∧ ∀ t, c.held t = true → (c.task t).res.ptr ≠ some s)

/-! ### What the composite writes change -/

/-- Taking a task off the queue is removing it, whether or not it is there. -/
theorem queueRemove_queue (c : Core) (t : TaskId) : (c.queueRemove t).queue = c.queue.erase t := by
  unfold queueRemove
  split
  · rfl
  · rename_i absent; exact (List.erase_of_not_mem absent).symm

/-- What `queue_remove` leaves alone. -/
theorem queueRemove_rest (c : Core) (t : TaskId) :
    c.queueRemove t =
      { c with queue := (c.queueRemove t).queue, nqueued := (c.queueRemove t).nqueued } := by
  unfold queueRemove
  split <;> rfl

/-- Leaving a socket touches only that socket's count and FIFO. -/
theorem leaveSock_rest (c : Core) (t : TaskId) :
    c.leaveSock t = { c with sock := (c.leaveSock t).sock } := by
  unfold leaveSock modSock
  split <;> rfl

/-- Leaving a socket changes nothing of it but the count and the FIFO. -/
theorem leaveSock_sock (c : Core) (t : TaskId) (s : SockId) :
    (c.leaveSock t).sock s = { c.sock s with
      inflight := ((c.leaveSock t).sock s).inflight, wq := ((c.leaveSock t).sock s).wq } := by
  unfold leaveSock
  split
  · simp only [modSock, Function.update_apply]
    split
    · rename_i same; subst same; rfl
    · rfl
  · rfl

/-- A FIFO after a task has left its socket. -/
theorem leaveSock_wq (c : Core) (t : TaskId) (s : SockId) :
    ((c.leaveSock t).sock s).wq =
      if (c.task t).kind = .opSockWrite ∧ s = c.sockOf t then (c.sock s).wq.erase t
      else (c.sock s).wq := by
  have onSock : (c.task t).kind = .opSockWrite → opOnSock (c.task t).kind := by
    intro write; rw [write]; rfl
  unfold leaveSock
  split
  · simp only [modSock, Function.update_apply]
    grind
  · grind

/-- What a worker runs after one worker has moved on. -/
theorem setPc_runs (c : Core) (w v : WorkerId) (pc : Pc) (t : TaskId) :
    (c.setPc w pc).Runs v t ↔
      if v = w then v < c.nworker ∧ pc.task? = some t else c.Runs v t := by
  simp only [Runs, setPc, modWorker, Function.update_apply]
  split <;> rfl

/-- Where a worker is after one worker has moved on. -/
theorem setPc_at (c : Core) (w v : WorkerId) (pc : Pc) (t : TaskId) (phase : Phase) :
    (c.setPc w pc).At v t phase ↔
      if v = w then v < c.nworker ∧ pc = .running t phase else c.At v t phase := by
  simp only [At, setPc, modWorker, Function.update_apply]
  split <;> rfl

/-- The sockets left over at the end are closed and freed, and nothing else changes. -/
theorem closeSocks_rest (c : Core) (l : List SockId) :
    Pool.closeSocks c l =
      { c with sock := (Pool.closeSocks c l).sock, desc := (Pool.closeSocks c l).desc } := by
  induction l generalizing c with
  | nil => rfl
  | cons s rest ih => rw [Pool.closeSocks, ih]; rfl

/-- Closing the left-over sockets changes none of their descriptors. -/
theorem closeSocks_fd (c : Core) (l : List SockId) (s : SockId) :
    ((Pool.closeSocks c l).sock s).fd = (c.sock s).fd := by
  induction l generalizing c with
  | nil => rfl
  | cons u rest ih =>
    rw [Pool.closeSocks, ih]
    simp only [sockFree, modSock, closeDesc, modDesc, Function.update_apply]
    grind

/-- Closing the left-over sockets marks none of them. -/
theorem closeSocks_closing (c : Core) (l : List SockId) (s : SockId) :
    ((Pool.closeSocks c l).sock s).closing = (c.sock s).closing := by
  induction l generalizing c with
  | nil => rfl
  | cons u rest ih =>
    rw [Pool.closeSocks, ih]
    simp only [sockFree, modSock, closeDesc, modDesc, Function.update_apply]
    grind

/-- Closing the left-over sockets leaves their FIFOs. -/
theorem closeSocks_wq (c : Core) (l : List SockId) (s : SockId) :
    ((Pool.closeSocks c l).sock s).wq = (c.sock s).wq := by
  induction l generalizing c with
  | nil => rfl
  | cons u rest ih =>
    rw [Pool.closeSocks, ih]
    simp only [sockFree, modSock, closeDesc, modDesc, Function.update_apply]
    grind

/-- Closing the left-over sockets touches no other descriptor. -/
theorem closeSocks_desc (l : List SockId) : ∀ {c : Core} {fd : Fd},
    (∀ s, s ∈ l → (c.sock s).fd ≠ fd) → (Pool.closeSocks c l).desc fd = c.desc fd := by
  induction l with
  | nil => intro c fd _; rfl
  | cons u rest ih =>
    intro c fd other
    have differs : fd ≠ (c.sock u).fd := (other u (by simp)).symm
    rw [Pool.closeSocks, ih fun s below => ?_]
    · simp [sockFree, modSock, closeDesc, modDesc, differs]
    · have same : (((c.closeDesc (c.sock u).fd).sockFree u).sock s).fd = (c.sock s).fd := by
        simp only [sockFree, modSock, closeDesc, modDesc, Function.update_apply]
        grind
      rw [same]
      exact other s (List.mem_cons_of_mem u below)

/-- Closing the left-over sockets sends nothing. -/
theorem closeSocks_wire (c : Core) (l : List SockId) (fd : Fd) :
    ((Pool.closeSocks c l).desc fd).wire = (c.desc fd).wire := by
  induction l generalizing c with
  | nil => rfl
  | cons u rest ih =>
    rw [Pool.closeSocks, ih]
    simp only [sockFree, modSock, closeDesc, modDesc, Function.update_apply]
    grind

end Core

open Core

/-- The moves; `o` says with which results the tasks of each kind may end. -/
inductive Move (o : OpKind → Result → Prop) : Cut → Cut → Prop
  /-- Workers with no task fall asleep, wake up, appear or retire. -/
  | stir {c c' x h} (stirred : Stirred c c') : Move o ⟨c, x, h⟩ ⟨c', x, h⟩
  /-- A task no worker has touched is lifted out. -/
  | exit {c x h t} (pending : c.Pending x t) (unstarted : (c.task t).started = false) :
      Move o ⟨c, x, h⟩
        ⟨(c.queueRemove t).leaveSock t, update x t true, fun s => h s || c.exposes t s⟩
  /-- A worker is through with its task. -/
  | exitRun {c x h w t phase} (at_ : c.At w t phase) (pending : c.Pending x t) :
      Move o ⟨c, x, h⟩
        ⟨(c.setPc w .ready).leaveSock t, update x t true, fun s => h s || c.exposes t s⟩
  /-- A task on its way out is marked done. -/
  | settle {c x h t r} (submitted : t < c.ntask) (open_ : (c.task t).done = false)
      (out : x t = true) (settles : c.Settles t r) (allowed : o (c.task t).kind r) :
      Move o ⟨c, x, h⟩ ⟨c.settle t r, update x t false, h⟩
  /-- The head of a FIFO is handed to the workers. -/
  | promote {c x h s n} (live : s ∈ c.socks) (bare : h s = true)
      (head : (c.sock s).wq.head? = some n) : Move o ⟨c, x, h⟩ ⟨c.queuePush n, x, update h s false⟩
  /-- There is no worker for the head of a FIFO. -/
  | fail {c x h s n rest} (live : s ∈ c.socks) (bare : h s = true)
      (usable : (c.sock s).closing = false) (wq : (c.sock s).wq = n :: rest) : Move o ⟨c, x, h⟩ ⟨Pool.failHead c s n, x, h⟩
  /-- A FIFO that is empty, or whose socket is gone, has no head to hand on. -/
  | headed {c x h g} (empty : ∀ s, s ∈ c.socks → g s ≠ h s → (c.sock s).wq = []) :
      Move o ⟨c, x, h⟩ ⟨c, x, g⟩
  /-- A task is made. -/
  | create {c x h k} (fresh : c.Fresh k) :
      Move o ⟨c, x, h⟩ ⟨c.taskNew k, update x c.ntask true, h⟩
  /-- A task that closes a socket is made, and the socket is marked. -/
  | createClose {c x h s} (live : s ∈ c.socks) (open_ : (c.sock s).closing = false)
      (mine : c.claimed s = true) :
      Move o ⟨c, x, h⟩ ⟨(c.taskNew { kind := .opSockClose, sock := some s }).modSock s
        ({ · with closing := true }), update x c.ntask true, h⟩
  /-- A new task goes on the work queue. -/
  | enqueue {c x h t} (submitted : t < c.ntask) (open_ : (c.task t).done = false)
      (unstarted : (c.task t).started = false) (out : x t = true)
      (kind : (c.task t).kind ≠ .opSockWrite)
      (live : ∀ s, (c.task t).sock = some s → s ∈ c.socks ∧
        ((c.task t).kind = .opSockClose → c.Drained s))
      (onSock : opOnSock (c.task t).kind → ∃ s, (c.task t).sock = some s ∧ s ∈ c.socks)
      (newest : opOnSock (c.task t).kind → t + 1 = c.ntask) :
      Move o ⟨c, x, h⟩
        ⟨(if opOnSock (c.task t).kind then c.inflightInc (c.sockOf t) else c).queuePush t,
          update x t false, h⟩
  /-- A new write goes on its socket's FIFO. -/
  | park {c x h t s} (submitted : t + 1 = c.ntask) (open_ : (c.task t).done = false)
      (unstarted : (c.task t).started = false) (out : x t = true)
      (kind : (c.task t).kind = .opSockWrite) (sock : (c.task t).sock = some s)
      (live : s ∈ c.socks) (usable : (c.sock s).closing = false) :
      Move o ⟨c, x, h⟩
        ⟨(c.inflightInc s).modSock s fun k => { k with wq := k.wq ++ [t] }, update x t false,
          fun u => h u || (u = s && (c.sock s).wq.isEmpty)⟩
  /-- A worker takes the head of the work queue. -/
  | take {c x h w t rest} (queue : c.queue = t :: rest) (inside : w < c.nworker)
      (free : (c.worker w).pc.task? = none) :
      Move o ⟨c, x, h⟩
        ⟨({ c with queue := rest, nqueued := c.nqueued - 1, nrunning := c.nrunning + 1 }.modTask t
            fun k => { k with started := true, worker := some w }).setPc w (.running t .entry),
          x, h⟩
  /-- A worker gets on with its task. -/
  | phase {c x h w t from_ next} (at_ : c.At w t from_) (plain : from_.plain) (plain' : next.plain)
      (kept : c.PhaseOk t next) : Move o ⟨c, x, h⟩ ⟨c.setPc w (.running t next), x, h⟩
  /-- A cancel request is noted on the task. -/
  | flag {c x h t} : Move o ⟨c, x, h⟩ ⟨c.modTask t ({ · with cancelReq := true }), x, h⟩
  /-- A worker's pending wakeups change. -/
  | kicks {c x h w n} : Move o ⟨c, x, h⟩ ⟨c.modWorker w ({ · with kicks := n }), x, h⟩
  /-- A connect or an accept wins a descriptor. -/
  | win {c x h w t from_ res} (at_ : c.At w t from_) (plain : from_.plain)
      (kept : c.PhaseOk t (.commit res (some c.ndesc))) :
      Move o ⟨c, x, h⟩ ⟨c.newDesc.setPc w (.running t (.commit res (some c.ndesc))), x, h⟩
  /-- The kernel accepts bytes of a write. -/
  | send {c x h w t off n} (at_ : c.At w t (.sending off))
      (fits : n ≤ (c.task t).buf.length - off) : Move o ⟨c, x, h⟩ ⟨Pool.sendBytes c w t off n, x, h⟩
  /-- A descriptor in nobody's hands becomes a socket. -/
  | link {c x h fd} (loose : c.Loose fd) : Move o ⟨c, x, h⟩ ⟨c.sockLink fd, x, h⟩
  /-- A descriptor in nobody's hands is closed. -/
  | close {c x h fd} (loose : c.Loose fd) : Move o ⟨c, x, h⟩ ⟨c.closeDesc fd, x, h⟩
  /-- A socket nobody refers to is closed and freed. -/
  | discard {c x h s} (unused : c.Unused x s) : Move o ⟨c, x, h⟩ ⟨c.sockDiscard s, x, h⟩
  /-- A drained socket is unlinked by the worker that closes it. -/
  | unlink {c x h w t s} (at_ : c.At w t .drain) (sock : (c.task t).sock = some s)
      (unused : ∀ u, c.Pending x u → opOnSock (c.task u).kind → (c.task u).sock ≠ some s) :
      Move o ⟨c, x, h⟩
        ⟨(c.sockUnlink s).setPc w (.running t (.release (c.sock s).fd)), x, h⟩
  /-- An unlinked socket is freed. -/
  | freeSock {c x h w t s fd} (at_ : c.At w t (.release fd)) (sock : (c.task t).sock = some s) :
      Move o ⟨c, x, h⟩ ⟨(c.sockFree s).setPc w (.running t (.closeFd fd)), x, h⟩
  /-- The descriptor of an unlinked socket is closed. -/
  | closeFd {c x h w t fd} (at_ : c.At w t (.closeFd fd)) :
      Move o ⟨c, x, h⟩ ⟨(c.closeDesc fd).setPc w (.running t .commitClose), x, h⟩
  /-- A task that is not done is detached. -/
  | detach {c x h t} (open_ : (c.task t).done = false) (held : c.held t = true) :
      Move o ⟨c, x, h⟩ ⟨{ c.modTask t ({ · with detached := true }) with
        held := update c.held t false }, x, h⟩
  /-- A task that is done is freed. -/
  | free {c x h t} (done : (c.task t).done = true) (held : c.held t = true) :
      Move o ⟨c, x, h⟩ ⟨{ c.taskFreeMem t with held := update c.held t false }, x, h⟩
  /-- The caller is given a socket. -/
  | claim {c x h s} (bound : s < c.nsock)
      (live : (c.sock s).closing = false → c.gone = false → s ∈ c.socks) :
      Move o ⟨c, x, h⟩ ⟨{ c with claimed := update c.claimed s true }, x, h⟩
  /-- The caller gives a socket up. -/
  | unclaim {c x h s} (usable : (c.sock s).closing = false) :
      Move o ⟨c, x, h⟩ ⟨{ c with claimed := update c.claimed s false }, x, h⟩
  /-- A listener is being made. -/
  | wrap {c x h} (free : c.wrapping = none) :
      Move o ⟨c, x, h⟩ ⟨{ c.newDesc with wrapping := some c.ndesc }, x, h⟩
  /-- A listener is made. -/
  | unwrap {c x h} : Move o ⟨c, x, h⟩ ⟨{ c with wrapping := none }, x, h⟩
  /-- The instance is being destroyed. -/
  | shutdown {c x h} : Move o ⟨c, x, h⟩ ⟨{ c with shutdown := true }, x, h⟩
  /-- The instance is gone. -/
  | sweep {c x h} (idle : ∀ t, ¬ c.Pending x t) :
      Move o ⟨c, x, h⟩ ⟨{ Pool.closeSocks c c.socks with socks := [], gone := true }, x, h⟩

/-- A critical section, or a part of one: some moves in a row. -/
inductive Moves (o : OpKind → Result → Prop) : Cut → Cut → Prop
  | refl (a : Cut) : Moves o a a
  | snoc {a b c : Cut} (before : Moves o a b) (move : Move o b c) : Moves o a c

namespace Moves

variable {o : OpKind → Result → Prop}

theorem one {a b : Cut} (move : Move o a b) : Moves o a b := .snoc (.refl a) move

theorem trans {a b c : Cut} (first : Moves o a b) (second : Moves o b c) : Moves o a c := by
  induction second with
  | refl => exact first
  | snoc _ move ih => exact .snoc ih move

/-- What every move preserves is preserved by a critical section. -/
theorem preserves {Holds : Cut → Prop} (each : ∀ a b, Move o a b → Holds a → Holds b)
    {a b : Cut} (moves : Moves o a b) (initially : Holds a) : Holds b := by
  induction moves with
  | refl => exact initially
  | snoc _ move ih => exact each _ _ move ih

end Moves

end Myio
