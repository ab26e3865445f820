import Myio.Pool.Places

/-! What the desktop pool owes its caller, over whole runs. -/

namespace Myio.Pool

open Core

variable {os : Os} {p p' q : Pool} {w : WorkerId} {t : TaskId} {s : SockId}

/-! ### The order of writes -/

/-- A write starts only after every earlier write on its socket is done. -/
theorem write_turn (sound : Sound p.rest) {u : TaskId} (before : t < u) (inside : u < p.ntask)
    (first : p.WriteOn s t) (second : p.WriteOn s u) (started : (p.task u).started = true) :
    (p.task t).done = true := by
  cases done : (p.task t).done with
  | true => rfl
  | false =>
    have pending : p.Pending (fun _ => false) t := ⟨Nat.lt_trans before inside, done, rfl⟩
    have waits := sound.wired.turn t u s before inside first second pending
    exact Bool.noConfusion (waits.symm.trans started)

/-- Two workers that have started a write on one socket are one worker with one write. -/
theorem one_writer (sound : Sound p.rest) {v : WorkerId} {u : TaskId} (runs : p.Runs w t)
    (runs' : p.Runs v u) (first : p.WriteOn s t) (second : p.WriteOn s u) : w = v ∧ t = u := by
  have placed : p.Placed (fun _ => false) fun _ => false := sound.placed
  obtain ⟨⟨inside, isOpen, _⟩, started⟩ := placed.run_pending w t runs
  obtain ⟨⟨inside', isOpen', _⟩, started'⟩ := placed.run_pending v u runs'
  rcases Nat.lt_trichotomy t u with less | rfl | more
  · have done := write_turn sound less inside' first second started'
    exact Bool.noConfusion (isOpen.symm.trans done)
  · exact ⟨placed.run_inj w v t runs runs', rfl⟩
  · have done := write_turn sound more inside second first started
    exact Bool.noConfusion (isOpen'.symm.trans done)

/--
What the kernel accepted on a socket is one prefix of the buffer of each write, in the order of
submission. A write that succeeds has sent its whole buffer and says so, one that ends unstarted
has sent nothing, one write at a time is in its send loop, and each waits for those before it.
-/
theorem write_order (run : Run (Pool.new os) p) :
    ∀ s : SockId, s < p.nsock →
      (p.desc (p.sock s).fd).wire = (List.range p.ntask).flatMap (p.sentOn s) ∧
      ∀ t : TaskId, t < p.ntask → p.WriteOn s t →
        ((p.task t).done = true → (p.task t).res.status = .ok →
          p.sentOn s t = (p.task t).buf ∧ (p.task t).res.value = (p.task t).buf.length) ∧
        ((p.task t).started = false → p.sentOn s t = []) ∧
        (∀ w v u off off', p.WriteOn s u → p.At w t (.sending off) → p.At v u (.sending off') →
          w = v ∧ t = u) ∧
        (∀ u : TaskId, u < t → p.WriteOn s u → (p.task t).started = true → (p.task u).done = true) := by
  have sound := run.good.sound
  have wired : p.Wired fun _ => false := sound.wired
  intro s made
  refine ⟨wired.wire s made, fun t inside writes => ⟨fun done isOk => ?_, fun unstarted => ?_, ?_, ?_⟩⟩
  · obtain ⟨sent, value⟩ := wired.whole t inside writes.1 done isOk
    exact ⟨by rw [sentOn, if_pos ⟨writes.1, writes.2⟩, sent, List.take_length], value⟩
  · rw [sentOn, if_pos ⟨writes.1, writes.2⟩, wired.unsent t inside unstarted, List.take_zero]
  · exact fun w v u _ _ other at_ at_' => one_writer sound at_.runs at_'.runs writes other
  · exact fun u before other started => write_turn sound before inside other writes started

/-- Two writes: the kernel takes one byte of the first, then the rest, then the second begins. -/
def twoWrites : List Label :=
  [.user .tcpListen, .user (.resume true), .user (.sockWrite 0 [1, 2]), .user (.sockWrite 0 [3]),
    .worker 0 .main, .worker 0 .enter, .worker 0 (.send 1), .worker 0 .sendIntr, .worker 0 (.send 1),
    .worker 0 .sendEnd, .worker 0 (.commit true), .worker 0 .main, .worker 0 .enter,
    .worker 0 (.send 1)]

theorem write_order_twoWrites :
    (after twoWrites).WriteOn 0 0 ∧ ((after twoWrites).task 0).res = rOk 2 none ∧
    ((after twoWrites).desc 0).wire = [1, 2, 3] ∧
    ((after twoWrites).desc 0).wire =
      (List.range (after twoWrites).ntask).flatMap ((after twoWrites).sentOn 0) ∧
    (after twoWrites).sentOn 0 0 = ((after twoWrites).task 0).buf := by
  obtain ⟨wire, each⟩ := write_order (run_after twoWrites (by decide +kernel)) 0 (by decide +kernel)
  have fd : ((after twoWrites).sock 0).fd = 0 := by decide +kernel
  rw [fd] at wire
  have first := (each 0 (by decide +kernel) ⟨by decide +kernel, by decide +kernel⟩).1 (by decide +kernel) (by decide +kernel)
  exact ⟨⟨by decide +kernel, by decide +kernel⟩, by decide +kernel, by decide +kernel, wire, first.1⟩

/-! ### Closing -/

/-- `impl_sock_close` leaves canceled, or will, every operation it finds on the socket. -/
theorem close_cancels (good : p.Good) (idle : p.user = .idle)
    (obeyed : p.obeys (.user (.sockClose s)) = true)
    (taken : p.step (.user (.sockClose s)) = some q) (more : Run q p') (inside : t < p.ntask)
    (isOpen : (p.task t).done = false) (blocks : opOnSock (p.task t).kind)
    (sock : (p.task t).sock = some s) (done : (p'.task t).done = true) :
    (p'.task t).res.status = .canceled := by
  have here : p.gone = false := good.tidy.here (by simp [idle])
  obtain ⟨mine, usable⟩ : p.claimed s = true ∧ (p.sock s).closing = false := by
    simpa [obeys] using obeyed
  have live : s ∈ p.socks := good.sound.claims.claimed_live s mine usable here
  have marked : Move (fun _ _ => True) p.rest (p.closeCut s) := closeCut_move live usable mine
  have made := good.sound.move marked
  have swept := (implSockClose_spec (o := fun _ _ => True) made live trivial trivial
    fun _ _ => trivial).2
  have code : q = p.implSockClose s := by
    simp only [step, userStep, idle, if_true, call] at taken
    exact (Option.some.inj taken).symm
  -- From the moment the socket is marked, whatever ends on it ends canceled.
  have later : Later (p.closeMade s).toCore p'.toCore := by
    have now : Later (p.closeMade s).toCore (p.implSockClose s).toCore := Later.moves swept made
    rw [code] at more
    exact now.trans (more.later (code ▸ good.step obeyed taken))
  have same : (p.closeMade s).task t = p.task t := by
    simp [closeMade, taskNew, modSock, Function.update_of_ne (Nat.ne_of_lt inside)]
  refine later.canceled t s (Nat.lt_succ_of_lt inside) (good.sound.linked.bound s live) ?_ ?_ ?_ ?_ done
  · rw [same]; exact isOpen
  · rw [same]; exact blocks
  · rw [same]; exact sock
  · simp [closeMade, modSock]

/-- The end of a canceled task touches neither descriptors nor the list of sockets. -/
theorem conclude_canceled (c : Core) (t : TaskId) :
    ((c.conclude t rCanceled).task t).res = rCanceled ∧ (c.conclude t rCanceled).desc = c.desc ∧
      (c.conclude t rCanceled).socks = c.socks := by
  unfold conclude reapIfDetached
  split <;> simp [finish, modTask, reap, taskFreeMem]

/-- An accept that commits after its listener is marked closes the connection it has won. -/
theorem late_accept_closed {res : Result} {fd : Fd} {linked : Bool}
    (accepts : (p.task t).kind = .opAccept) (sock : (p.task t).sock = some s) (older : s ≠ p.nsock)
    (marked : (p.sock s).closing = true) :
    ((p.workerCommit w t res (some fd) linked).task t).res = rCanceled ∧
      ((p.workerCommit w t res (some fd) linked).desc fd).closes = (p.desc fd).closes + 1 ∧
      (p.workerCommit w t res (some fd) linked).socks = p.socks := by
  -- The descriptor is wrapped and then discarded with its socket, or closed unwrapped.
  cases linked with
  | true =>
    have code : (p.workerCommit w t res (some fd) true).toCore =
        ((((p.setPc w .ready).sockLink fd).inflightDec s).sockDiscard p.nsock).conclude t
          rCanceled := by
      simp [workerCommit, wrapWon, settleSock, accepts, sock, sockOf, opOnSock, dropWon, setPc,
        modWorker, sockLink, inflightDec, modSock, Function.update_of_ne older, marked, on, complete]
      rfl
    obtain ⟨canceled, desc, socks⟩ := conclude_canceled
      ((((p.setPc w .ready).sockLink fd).inflightDec s).sockDiscard p.nsock) t
    rw [code, desc, socks]
    refine ⟨canceled, ?_, ?_⟩
    · simp [sockDiscard, sockFree, modSock, closeDesc, modDesc, sockUnlink, inflightDec, sockLink,
        setPc, modWorker, Function.update_of_ne older.symm]
    · simp [sockDiscard, sockFree, modSock, closeDesc, modDesc, sockUnlink, inflightDec, sockLink,
        setPc, modWorker]
  | false =>
    have code : (p.workerCommit w t res (some fd) false).toCore =
        (((p.setPc w .ready).closeDesc fd).inflightDec s).conclude t rCanceled := by
      simp [workerCommit, wrapWon, settleSock, accepts, sock, sockOf, opOnSock, dropWon, setPc,
        modWorker, closeDesc, modDesc, inflightDec, modSock, marked, on, complete]
      rfl
    obtain ⟨canceled, desc, socks⟩ :=
      conclude_canceled (((p.setPc w .ready).closeDesc fd).inflightDec s) t
    rw [code, desc, socks]
    refine ⟨canceled, ?_, rfl⟩
    simp [closeDesc, modDesc, inflightDec, modSock, setPc, modWorker]

/-- A socket that a task at work refers to is linked, unless the task is busy closing it. -/
theorem sock_in_use (sound : Sound p.rest) (inside : t < p.ntask) (isOpen : (p.task t).done = false)
    (sock : (p.task t).sock = some s) :
    (s ∈ p.socks ∧ (p.sock s).frees = 0) ∨
      ((p.task t).kind = .opSockClose ∧ ∃ w phase, p.At w t phase ∧ phase.unlinked = true) := by
  have pending : p.Pending (fun _ => false) t := pending_iff.mpr ⟨inside, isOpen⟩
  have linked : ∀ {u}, u ∈ p.socks → u ∈ p.socks ∧ (p.sock u).frees = 0 := fun live =>
    ⟨live, sound.linked.unfreed _ live⟩
  rcases sound.closes.sock_kind t s inside sock with blocks | isClose
  · obtain ⟨u, there, live⟩ := sound.placed.sock_live t pending blocks
    obtain rfl : s = u := Option.some.inj (sock.symm.trans there)
    exact .inl (linked live)
  · rcases sound.closes.close_live t s pending isClose sock with live | unlinking
    · exact .inl (linked live)
    · exact .inr ⟨isClose, unlinking⟩

/--
A live socket's `inflight` is the number of reads, writes and accepts on it that are not done. No
socket is released while such a task refers to it: only the task that is busy closing a socket still
names one that is unlinked. Whatever was not done on a socket when its `sock_close` was submitted
ends canceled and delivers nothing, and a connection accepted meanwhile is closed.
-/
theorem close_drains (run : Run (Pool.new os) p) :
    (∀ s, s ∈ p.socks → (p.sock s).inflight = Nat.count (fun t => (p.task t).done = false ∧
      opOnSock (p.task t).kind = true ∧ (p.task t).sock = some s) p.ntask) ∧
    (∀ (t : TaskId) (s : SockId), t < p.ntask → (p.task t).done = false → (p.task t).sock = some s →
      (s ∈ p.socks ∧ (p.sock s).frees = 0) ∨
        ((p.task t).kind = .opSockClose ∧ ∃ w phase, p.At w t phase ∧ phase.unlinked = true)) ∧
    (∀ (s : SockId) (q p' : Pool) (t : TaskId), p.obeys (.user (.sockClose s)) = true →
      p.step (.user (.sockClose s)) = some q → Run q p' → t < p.ntask → (p.task t).done = false →
      opOnSock (p.task t).kind = true → (p.task t).sock = some s → (p'.task t).done = true →
      (p'.task t).res.status = .canceled ∧ (p'.task t).res.ptr = none) ∧
    (∀ (w : WorkerId) (t : TaskId) (s : SockId) (res : Result) (fd : Fd) (linked : Bool) (p' : Pool),
      p.At w t (.commit res (some fd)) → (p.task t).kind = .opAccept → (p.task t).sock = some s →
      (p.sock s).closing = true → p.step (.worker w (.commit linked)) = some p' →
      (p'.task t).res = rCanceled ∧ (p'.desc fd).closes = (p.desc fd).closes + 1 ∧
        p'.socks = p.socks) := by
  have good := run.good
  have sound := good.sound
  refine ⟨fun s live => ?_, fun t s inside isOpen sock => sock_in_use sound inside isOpen sock,
    fun s q p' t obeyed taken more inside isOpen blocks sock done => ?_,
    fun w t s res fd linked p' at_ accepts sock marked taken => ?_⟩
  · have counted : p.Counted fun _ => false := sound.counted
    rw [counted.inflight s live]
    refine Machine.count_congr fun t inside => ?_
    simp only [OnSock, pending_iff]
    exact ⟨fun there => ⟨there.1.2, there.2⟩, fun there => ⟨⟨inside, there.1⟩, there.2⟩⟩
  · have idle : p.user = .idle := by
      simp only [step, userStep] at taken
      split at taken
      · assumption
      · cases taken
    have canceled := close_cancels good idle obeyed taken more inside isOpen blocks sock done
    refine ⟨canceled, ?_⟩
    -- Only a task that succeeds carries a socket.
    have after : p'.Good := more.good_of (good.step obeyed taken)
    have later : t < p'.ntask := by
      have first := (Run.later (.snoc (.refl p) obeyed taken) good).ntask
      have second := (more.later (good.step obeyed taken)).ntask
      exact Nat.lt_of_lt_of_le inside (Nat.le_trans first second)
    cases ptr : (p'.task t).res.ptr with
    | none => rfl
    | some u =>
      have isOk := after.sound.marks.delivered t u later ptr
      exact absurd (canceled.symm.trans isOk) (by decide)
  · have inside : t < p.ntask := (sound.placed.run_pending w t at_.runs).1.1
    have older : s ≠ p.nsock := Nat.ne_of_lt (sound.closes.sock_bound t s inside sock)
    have code : p' = p.workerCommit w t res (some fd) linked := by
      simp only [step, workerStep, Nat.not_le.mpr at_.1, if_false, at_.2, runStep] at taken
      exact (Option.some.inj taken).symm
    rw [code]
    exact late_accept_closed accepts sock older marked

/-- A listener with an accept under way, another one queued, and its close; the accept then wins. -/
def lateAccept : List Label :=
  [.user .tcpListen, .user (.resume true), .user (.tcpAccept 0), .user (.tcpAccept 0),
    .worker 0 .main, .worker 0 .enter, .worker 0 (.check false), .worker 0 (.poll false),
    .worker 0 (.retFd 0)]

theorem close_drains_lateAccept :
    (0 : SockId) ∈ (after lateAccept).socks ∧ ((after lateAccept).sock 0).inflight = 2 ∧
    2 = Nat.count (fun t => ((after lateAccept).task t).done = false ∧
      opOnSock ((after lateAccept).task t).kind = true ∧ ((after lateAccept).task t).sock = some 0)
      (after lateAccept).ntask ∧
    ((Machine.drive step (Machine.drive step (after lateAccept) [.user (.sockClose 0)])
      [.worker 0 (.commit true)]).task 0).res.status = .canceled := by
  obtain ⟨inflight, _, canceled, _⟩ := close_drains (run_after lateAccept (by decide +kernel))
  refine ⟨by decide +kernel, by decide +kernel, ?_, ?_⟩
  · exact inflight 0 (by decide +kernel)
  · exact (canceled 0 _ _ 0 (by decide +kernel) (Machine.drive_one (by decide +kernel))
      (.of_legal obeys (fun _ _ => id) _ (.refl _) (by decide +kernel))
      (by decide +kernel) (by decide +kernel) (by decide +kernel) (by decide +kernel)
      (by decide +kernel)).1

/-! ### Completion and release -/

/--
Over a run and any way it goes on: a task is marked done at most once and its result then stays,
it is done exactly when its result is not pending, and its memory is released at most once, when it
is done, in no queue and no FIFO, and no worker runs it.
-/
theorem once_done_once_freed (run : Run (Pool.new os) p) (more : Run p p') :
    ∀ t : TaskId, t < p.ntask →
      (p.task t).dones ≤ 1 ∧ ((p.task t).done = true ↔ (p.task t).dones = 1) ∧
      ((p.task t).done = true → (p'.task t).done = true ∧ (p'.task t).res = (p.task t).res) ∧
      ((p.task t).done = true ↔ (p.task t).res.status ≠ .pending) ∧
      (p.task t).frees ≤ 1 ∧
      (0 < (p.task t).frees → (p.task t).done = true ∧ t ∉ p.queue ∧
        (∀ s : SockId, s < p.nsock → t ∉ (p.sock s).wq) ∧ ∀ w, ¬ p.Runs w t) := by
  have sound := run.good.sound
  have placed : p.Placed (fun _ => false) fun _ => false := sound.placed
  have later := more.later run.good
  intro t inside
  obtain ⟨status, dones, frees, _, _⟩ : Life (p.task t) (p.held t) := sound.lives.each t inside
  refine ⟨?_, ?_, later.done t inside, status, ?_, fun freed => ?_⟩
  · rw [dones]; split <;> decide
  · rw [dones]; split <;> simp_all
  · rw [frees]; split <;> decide
  · have done : (p.task t).done = true := by
      rw [frees] at freed
      split at freed
      · simp_all
      · exact absurd freed (Nat.lt_irrefl 0)
    -- Whatever leads to a task leads to one that is not done.
    have ended : ¬ p.Pending (fun _ => false) t := fun pending =>
      Bool.noConfusion (pending.2.1.symm.trans done)
    refine ⟨done, fun queued => ended (placed.queue_pending t queued).1, fun s made there => ?_,
      fun w runs => ended (placed.run_pending w t runs).1⟩
    by_cases live : s ∈ p.socks
    · exact ended ((placed.wq_mem s t live).mp there).1
    · have empty : (p.sock s).wq = [] := sound.marks.vacant s made live
      rw [empty] at there
      cases there

/-- A detached sleep that a worker finishes while the instance is being destroyed. -/
def lateSleep : List Label :=
  [.user .sleep, .user .sleep, .user (.taskDetach 0), .worker 0 .main, .user .destroy,
    .worker 0 .enter, .worker 0 (.check true), .worker 0 (.ret 0 0), .worker 0 (.commit true)]

theorem once_done_once_freed_lateSleep :
    (after lateSleep).shutdown = true ∧ ((after lateSleep).task 0).frees = 1 ∧
    ((after lateSleep).task 1).frees = 1 ∧ ((after lateSleep).task 1).res = rCanceled ∧
    0 ∉ (after lateSleep).queue ∧ (∀ w, ¬ (after lateSleep).Runs w 0) ∧
    ((after lateSleep).task 0).dones ≤ 1 := by
  obtain ⟨dones, _, _, _, _, freed⟩ :=
    once_done_once_freed (run_after lateSleep (by decide +kernel)) (.refl _) 0 (by decide +kernel)
  obtain ⟨_, unqueued, _, unrun⟩ := freed (by decide +kernel)
  exact ⟨by decide +kernel, by decide +kernel, by decide +kernel, by decide +kernel, unqueued, unrun, dones⟩

/-! ### Workers for queued tasks -/

/-- A worker on its way to the queue takes the task at its head, and no other worker moves. -/
theorem main_takes {rest : List TaskId} (inside : w < p.nworker)
    (comes : (p.worker w).pc.comes = true) (queue : p.queue = t :: rest) :
    ∃ q, p.step (.worker w .main) = some q ∧ q.queue = rest ∧ q.shutdown = p.shutdown ∧
      q.Runs w t ∧ (∀ v u phase, p.At v u phase → q.At v u phase) := by
  have takes : ∀ q : Pool, q.toCore = p.toCore → (q.workerMain w false = q.take w t) ∧
      (q.workerMain w true = q.take w t) := by
    intro q core
    unfold workerMain
    rw [core, queue]
    exact ⟨rfl, rfl⟩
  have taken : ∀ q : Pool, q.toCore = p.toCore → (q.take w t).queue = rest ∧
      (q.take w t).shutdown = p.shutdown ∧ (q.take w t).Runs w t ∧
      (∀ v u phase, p.At v u phase → (q.take w t).At v u phase) := by
    intro q core
    unfold take on
    dsimp only
    rw [core]
    refine ⟨by rw [queue]; rfl, rfl, ?_, fun v u phase at_ => ?_⟩
    · rw [setPc_runs, if_pos rfl]; exact ⟨inside, rfl⟩
    · rw [setPc_at, if_neg]
      · exact at_
      · rintro rfl; rw [at_.2] at comes; cases comes
  have awake : ¬ p.nworker ≤ w := Nat.not_le.mpr inside
  cases pc : (p.worker w).pc with
  | ready =>
    refine ⟨p.take w t, ?_, taken p rfl⟩
    simp only [step, workerStep, if_neg awake, pc, (takes p rfl).1]
  | woken timedout =>
    refine ⟨{ p with idle := p.idle - 1 }.take w t, ?_, taken { p with idle := p.idle - 1 } rfl⟩
    simp only [step, workerStep, if_neg awake, pc]
    cases timedout with
    | false => rw [(takes { p with idle := p.idle - 1 } rfl).1]
    | true => rw [(takes { p with idle := p.idle - 1 } rfl).2]
  | _ => rw [pc] at comes; cases comes

/-- The steps of workers that neither run a task nor sleep. -/
def fetches (p : Pool) (label : Label) : Prop :=
  ∃ w, label = .worker w .main ∧ (p.worker w).pc.comes = true

/-- Those workers alone can fetch every queued task. -/
theorem queue_fetched (queue : List TaskId) : ∀ {p : Pool}, p.Crew → p.shutdown = false →
    p.queue = queue → ∃ q, Machine.Path step fetches p q ∧ (∀ t, t ∈ queue → ∃ w, q.Runs w t) ∧
      ∀ w t phase, p.At w t phase → q.At w t phase := by
  -- On the queue: its head goes to some coming worker, which then runs it to the end of the path.
  induction queue with
  | nil => exact fun _ _ _ => ⟨_, .refl _, fun _ there => absurd there List.not_mem_nil, fun _ _ _ => id⟩
  | cons t rest ih =>
    intro p crew up queue
    have positive : 0 < p.tally Pc.comes := by
      have := crew.coming up
      rw [crew.nqueued, queue] at this
      exact Nat.lt_of_lt_of_le (Nat.succ_pos _) this
    obtain ⟨w, inside, comes⟩ : ∃ w, w < p.nworker ∧ (p.worker w).pc.comes = true := by
      by_contra none
      refine Nat.ne_of_gt positive (Machine.count_eq_zero.mpr fun w inside comes => ?_)
      exact none ⟨w, inside, comes⟩
    obtain ⟨q, taken, left, up', runs, kept⟩ := main_takes inside comes queue
    obtain ⟨r, path, each, later⟩ := ih (crew.step taken) (up'.trans up) left
    have first : Machine.Path step fetches p q := .snoc (.refl p) ⟨w, rfl, comes⟩ taken
    refine ⟨r, first.trans path, fun u there => ?_, fun v u phase at_ =>
      later v u phase (kept v u phase at_)⟩
    rcases List.mem_cons.mp there with rfl | below
    · obtain ⟨inside', isRunning⟩ := runs
      cases pc : (q.worker w).pc with
      | running v phase =>
        rw [pc] at isRunning
        obtain rfl : v = u := Option.some.inj isRunning
        exact ⟨w, (later w v phase ⟨inside', pc⟩).runs⟩
      | _ => rw [pc] at isRunning; cases isRunning
    · exact each u below

/--
Until `shutdown`, whatever the caller does: at least as many workers are on their way to the queue,
neither running a task nor asleep, as there are tasks on it; they alone can fetch every queued task,
while every running operation goes on as it is.
-/
theorem workers_coming (path : Machine.Path step (fun _ _ => True) (Pool.new os) p)
    (up : p.shutdown = false) :
    p.nqueued ≤ p.tally Pc.comes ∧
    ∃ q, Machine.Path step fetches p q ∧ (∀ t, t ∈ p.queue → ∃ w, q.Runs w t) ∧
      ∀ w t phase, p.At w t phase → q.At w t phase := by
  have crew : p.Crew := path.invariant Crew (fun _ _ _ crew _ taken => crew.step taken) (.new os)
  exact ⟨crew.coming up, queue_fetched p.queue crew up rfl⟩

/-- The wait of the only worker times out, and two sleeps are submitted before it has the lock. -/
def racingTimeout : List Label :=
  [.user .sleep, .worker 0 .main, .worker 0 .enter, .worker 0 (.check true), .worker 0 (.ret 0 0),
    .worker 0 (.commit true), .worker 0 .main, .worker 0 (.wake true), .user .sleep, .user .sleep]

theorem workers_coming_racingTimeout :
    (after racingTimeout).shutdown = false ∧ (after racingTimeout).nqueued = 2 ∧
    ((after racingTimeout).worker 0).pc = .woken true ∧
    (after racingTimeout).nqueued ≤ (after racingTimeout).tally Pc.comes := by
  have path : Machine.Path step (fun _ _ => True) (Pool.new calm) (after racingTimeout) :=
    (run_after racingTimeout (by decide +kernel)).mono fun _ _ _ => trivial
  exact ⟨by decide +kernel, by decide +kernel, by decide +kernel,
    (workers_coming path (by decide +kernel)).1⟩

end Myio.Pool
