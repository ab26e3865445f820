import Myio.Pool.Moves

/-!
Where a task that is not done can be.

At a cut inside a critical section the tasks on their way in or out are excepted, and so are
the FIFOs whose head has not been handed to a worker.
-/

namespace Myio.Core

/--
Every pending task is queued, run by one worker, or parked behind the head of its FIFO.

The tasks `x` are on their way in or out, and the FIFOs `h` have an undispatched head.
-/
structure Placed (c : Core) (x : TaskId → Bool) (h : SockId → Bool) : Prop where
  queue_nodup : c.queue.Nodup
  queue_pending : ∀ t, t ∈ c.queue → c.Pending x t ∧ (c.task t).started = false
  run_pending : ∀ w t, c.Runs w t → c.Pending x t ∧ (c.task t).started = true
  run_inj : ∀ w w' t, c.Runs w t → c.Runs w' t → w = w'
  started_run : ∀ t, c.Pending x t → (c.task t).started = true → ∃ w, c.Runs w t
  waiting : ∀ t, c.Pending x t → (c.task t).started = false →
    (c.task t).kind ≠ .opSockWrite → t ∈ c.queue
  sock_live : ∀ t, c.Pending x t → opOnSock (c.task t).kind →
    ∃ s, (c.task t).sock = some s ∧ s ∈ c.socks
  wq_mem : ∀ s t, s ∈ c.socks → (t ∈ (c.sock s).wq ↔
    c.Pending x t ∧ (c.task t).kind = .opSockWrite ∧ (c.task t).sock = some s)
  wq_sorted : ∀ s, s ∈ c.socks → (c.sock s).wq.Pairwise (· < ·)
  wq_head : ∀ s t, s ∈ c.socks → h s = false → (c.sock s).wq.head? = some t →
    t ∈ c.queue ∨ (c.task t).started = true
  wq_rest : ∀ s t, s ∈ c.socks → t ∈ (c.sock s).wq →
    (h s = true ∨ (c.sock s).wq.head? ≠ some t) → t ∉ c.queue ∧ (c.task t).started = false

/-! ### Changes that move no task -/

section Frame

variable {c c' : Core} {x x' : TaskId → Bool} {h : SockId → Bool}

/-- The invariant reads only the queue, the FIFOs, and three fields of the pending tasks. -/
theorem Placed.congr (placed : c.Placed x h) (pending : ∀ t, c'.Pending x' t ↔ c.Pending x t)
    (same : ∀ t, c.Pending x t → (c'.task t).kind = (c.task t).kind ∧
      (c'.task t).sock = (c.task t).sock ∧ (c'.task t).started = (c.task t).started)
    (runs : ∀ w t, c'.Runs w t ↔ c.Runs w t) (queue : c'.queue = c.queue)
    (socks : ∀ s, s ∈ c'.socks → s ∈ c.socks ∧ (c'.sock s).wq = (c.sock s).wq)
    (live : ∀ s t, c.Pending x t → opOnSock (c.task t).kind → (c.task t).sock = some s →
      s ∈ c.socks → s ∈ c'.socks) :
    c'.Placed x' h := by
  obtain ⟨nodup, inQueue, running, inj, started, waiting, sockLive, mem, sorted, head, rest⟩ :=
    placed
  constructor
  case queue_nodup => rw [queue]; exact nodup
  case wq_head =>
    -- The head of an unchanged FIFO is a pending task, whose fields are unchanged too.
    intro s t inside notLoose isHead
    obtain ⟨inside, wq⟩ := socks s inside
    rw [wq] at isHead
    have member := (mem s t inside).mp (List.mem_of_mem_head? isHead)
    grind
  case wq_rest =>
    intro s t inside member notHead
    obtain ⟨inside, wq⟩ := socks s inside
    rw [wq] at member notHead
    have pendingWrite := (mem s t inside).mp member
    grind
  all_goals grind

/-- Waking, putting to sleep and creating workers moves no task. -/
theorem Placed.stirred (placed : c.Placed x h) (stirred : Stirred c c') : c'.Placed x h := by
  refine placed.congr ?_ ?_ stirred.runs ?_ ?_ ?_ <;> rw [stirred.rest] <;>
    simp +contextual [Pending]

/-- A change inside one task's record that leaves its placement alone moves no task. -/
theorem Placed.modTask (placed : c.Placed x h) (t : TaskId) (f : Task → Task)
    (done : (f (c.task t)).done = (c.task t).done) (kind : (f (c.task t)).kind = (c.task t).kind)
    (sock : (f (c.task t)).sock = (c.task t).sock)
    (started : (f (c.task t)).started = (c.task t).started) : (c.modTask t f).Placed x h := by
  refine placed.congr ?_ ?_ (fun _ _ => Iff.rfl) rfl (fun _ inside => ⟨inside, rfl⟩)
    (fun _ _ _ _ _ inside => inside)
  · intro u; simp only [Pending, Core.modTask, Function.update_apply]; grind
  · intro u _; simp only [Core.modTask, Function.update_apply]; grind

/-- A change inside a socket's record that leaves its FIFO alone moves no task. -/
theorem Placed.modSock (placed : c.Placed x h) (s : SockId) (f : Sock → Sock)
    (wq : (f (c.sock s)).wq = (c.sock s).wq) : (c.modSock s f).Placed x h := by
  refine placed.congr (fun _ => Iff.rfl) (fun _ _ => ⟨rfl, rfl, rfl⟩) (fun _ _ => Iff.rfl) rfl
    ?_ (fun _ _ _ _ _ inside => inside)
  intro u inside
  refine ⟨inside, ?_⟩
  simp only [Core.modSock, Function.update_apply]
  grind

/-- A change of what the invariant does not read moves no task. -/
theorem Placed.same (placed : c.Placed x h) (ntask : c'.ntask = c.ntask) (task : c'.task = c.task)
    (nworker : c'.nworker = c.nworker) (worker : c'.worker = c.worker)
    (queue : c'.queue = c.queue) (socks : c'.socks = c.socks) (sock : c'.sock = c.sock) :
    c'.Placed x h := by
  refine placed.congr ?_ ?_ ?_ queue ?_ ?_ <;>
    simp +contextual [Pending, Runs, ntask, task, nworker, worker, socks, sock]

/-- A worker that goes on with the same task, or with none as before, moves no task. -/
theorem Placed.modWorker (placed : c.Placed x h) (w : WorkerId) (f : Worker → Worker)
    (same : (f (c.worker w)).pc.task? = (c.worker w).pc.task?) : (c.modWorker w f).Placed x h := by
  refine placed.congr (fun _ => Iff.rfl) (fun _ _ => ⟨rfl, rfl, rfl⟩) ?_ rfl
    (fun _ inside => ⟨inside, rfl⟩) (fun _ _ _ _ _ inside => inside)
  intro v u
  simp only [Runs, Core.modWorker, Function.update_apply]
  grind

/-- A worker that gets on with its task moves no task. -/
theorem Placed.setPc (placed : c.Placed x h) {w : WorkerId} {t : TaskId} {phase : Phase}
    (at_ : (c.worker w).pc = .running t phase) (next : Phase) :
    (c.setPc w (.running t next)).Placed x h :=
  placed.modWorker w _ (by simp [at_])

/-- The task on its way out is marked done. -/
theorem Placed.settle (placed : c.Placed x h) {t : TaskId} (out : x t = true) (res : Result) :
    (c.settle t res).Placed (Function.update x t false) h := by
  refine placed.congr ?_ ?_ (fun _ _ => Iff.rfl) rfl (fun _ inside => ⟨inside, rfl⟩)
    (fun _ _ _ _ _ inside => inside)
  · intro u; simp only [Pending, Core.settle, Core.modTask, Function.update_apply, settled]; grind
  · intro u pending
    have other : u ≠ t := fun same => by simp [Pending, same, out] at pending
    simp [Core.settle, Core.modTask, other]

/-- A new task is on its way in, and moves no other. -/
theorem Placed.taskNew (placed : c.Placed x h) (k : Task) :
    (c.taskNew k).Placed (Function.update x c.ntask true) h := by
  refine placed.congr ?_ ?_ (fun _ _ => Iff.rfl) rfl (fun _ inside => ⟨inside, rfl⟩)
    (fun _ _ _ _ _ inside => inside)
  · intro u; simp only [Pending, Core.taskNew, Function.update_apply]; grind
  · intro u pending
    have other : u ≠ c.ntask := Nat.ne_of_lt pending.1
    simp [Core.taskNew, other]

/-- A socket that no pending operation blocks on may go. -/
theorem Placed.sockUnlink (placed : c.Placed x h) (s : SockId)
    (unused : ∀ t, c.Pending x t → opOnSock (c.task t).kind → (c.task t).sock ≠ some s) :
    (c.sockUnlink s).Placed x h := by
  refine placed.congr (fun _ => Iff.rfl) (fun _ _ => ⟨rfl, rfl, rfl⟩) (fun _ _ => Iff.rfl) rfl
    (fun u inside => ⟨List.mem_of_mem_erase inside, rfl⟩) ?_
  intro u t pending onSock sock inside
  have other : u ≠ s := fun same => unused t pending onSock (same ▸ sock)
  exact (List.mem_erase_of_ne other).mpr inside

/-- Discarding a socket that no pending operation blocks on moves no task. -/
theorem Placed.sockDiscard (placed : c.Placed x h) (s : SockId)
    (unused : ∀ t, c.Pending x t → opOnSock (c.task t).kind → (c.task t).sock ≠ some s) :
    (c.sockDiscard s).Placed x h := by
  have closed : ((c.sockUnlink s).closeDesc (c.sock s).fd).Placed x h :=
    (placed.sockUnlink s unused).same rfl rfl rfl rfl rfl rfl rfl
  exact closed.modSock s (fun k => { k with frees := k.frees + 1 }) rfl

/-- Freeing a task's memory moves no task. -/
theorem Placed.taskFreeMem (placed : c.Placed x h) (t : TaskId) : (c.taskFreeMem t).Placed x h :=
  placed.modTask t _ rfl rfl rfl rfl

/-- Reaping a task whose socket, if it won one, is unused moves no task. -/
theorem Placed.reap (placed : c.Placed x h) (t : TaskId)
    (unused : ∀ s, (c.task t).res.ptr = some s → ∀ u, c.Pending x u →
      opOnSock (c.task u).kind → (c.task u).sock ≠ some s) : (c.reap t).Placed x h := by
  unfold Core.reap
  split
  · rename_i s won
    exact (placed.sockDiscard s (unused s won)).taskFreeMem t
  · exact placed.taskFreeMem t

/-- A freshly linked socket has an empty FIFO and no operation refers to it. -/
theorem Placed.sockLink (placed : c.Placed x h) (fd : Fd)
    (bound : ∀ s, s ∈ c.socks → s < c.nsock) :
    (c.sockLink fd).Placed x h := by
  obtain ⟨nodup, inQueue, running, inj, started, waiting, sockLive, mem, sorted, head, rest⟩ :=
    placed
  have fresh : c.nsock ∉ c.socks := fun inside => Nat.lt_irrefl _ (bound _ inside)
  have old : ∀ s, s ∈ c.socks → (c.sockLink fd).sock s = c.sock s := by
    intro s inside
    have : s ≠ c.nsock := fun same => fresh (same ▸ inside)
    simp [Core.sockLink, Function.update_of_ne this]
  have new : ((c.sockLink fd).sock c.nsock).wq = [] := by simp [Core.sockLink]
  have inside : ∀ s, s ∈ (c.sockLink fd).socks ↔ s = c.nsock ∨ s ∈ c.socks := by
    intro s; simp [Core.sockLink]
  constructor
  case queue_nodup => exact nodup
  case queue_pending => exact inQueue
  case run_pending => exact running
  case run_inj => exact inj
  case started_run => exact started
  case waiting => exact waiting
  case sock_live =>
    intro t pending onSock
    obtain ⟨s, sock, live⟩ := sockLive t pending onSock
    exact ⟨s, sock, (inside s).mpr (.inr live)⟩
  case wq_mem =>
    intro s t linked
    rcases (inside s).mp linked with rfl | live
    · -- A pending write's socket was linked before, so it is not the new one.
      rw [new]
      refine ⟨fun member => by simp at member, fun has => ?_⟩
      obtain ⟨pending, kind, sock⟩ := has
      change (c.task t).kind = .opSockWrite at kind
      change (c.task t).sock = some c.nsock at sock
      obtain ⟨u, sock', live⟩ := sockLive t pending (by rw [kind]; rfl)
      have same : u = c.nsock := Option.some.inj (sock'.symm.trans sock)
      exact absurd (same ▸ live) fresh
    · rw [old s live]; exact mem s t live
  case wq_sorted =>
    intro s linked
    rcases (inside s).mp linked with rfl | live
    · rw [new]; exact .nil
    · rw [old s live]; exact sorted s live
  case wq_head =>
    intro s t linked notLoose isHead
    rcases (inside s).mp linked with rfl | live
    · rw [new] at isHead; cases isHead
    · rw [old s live] at isHead; exact head s t live notLoose isHead
  case wq_rest =>
    intro s t linked member notHead
    rcases (inside s).mp linked with rfl | live
    · rw [new] at member; cases member
    · rw [old s live] at member notHead; exact rest s t live member notHead

end Frame

/-! ### Tasks leaving -/

/-- Removing another element leaves the head of a list where it is. -/
theorem head?_erase_of_ne {l : List TaskId} {t : TaskId} (other : l.head? ≠ some t) :
    (l.erase t).head? = l.head? := by
  cases l with
  | nil => rfl
  | cons a rest =>
    have : a ≠ t := fun same => other (by simp [same])
    rw [List.erase_cons_tail (by simpa using this)]
    rfl

/-- The head is removed by dropping it. -/
theorem erase_head {l : List TaskId} {t : TaskId} (head : l.head? = some t) : l.erase t = l.tail := by
  cases l with
  | nil => simp at head
  | cons a rest => simp at head; simp [head]

/--
A pending task leaves the queue, its worker and its FIFO all at once.

Where it headed a FIFO, that FIFO is left with an undispatched head.
-/
theorem Placed.remove {c c' : Core} {x x' : TaskId → Bool} {h h' : SockId → Bool} {t : TaskId}
    (placed : c.Placed x h) (pending : ∀ u, c'.Pending x' u ↔ c.Pending x u ∧ u ≠ t)
    (same : ∀ u, u ≠ t → (c'.task u).kind = (c.task u).kind ∧
      (c'.task u).sock = (c.task u).sock ∧ (c'.task u).started = (c.task u).started)
    (runs : ∀ w u, c'.Runs w u ↔ c.Runs w u ∧ u ≠ t) (queue : c'.queue = c.queue.erase t)
    (socks : c'.socks = c.socks)
    (wq : ∀ s, s ∈ c.socks → (c'.sock s).wq = (c.sock s).wq.erase t)
    (exposed : ∀ s, s ∈ c.socks → h' s = false → h s = false ∧ (c.sock s).wq.head? ≠ some t)
    (covered : ∀ s, s ∈ c.socks → h' s = true → h s = true ∨ (c.sock s).wq.head? = some t) :
    c'.Placed x' h' := by
  obtain ⟨nodup, inQueue, running, inj, started, waiting, sockLive, mem, sorted, head, rest⟩ :=
    placed
  have wqNodup : ∀ s, s ∈ c.socks → (c.sock s).wq.Nodup :=
    fun s inside => (sorted s inside).imp (fun less => Nat.ne_of_lt less)
  have wqMem : ∀ s u, s ∈ c.socks → (u ∈ (c'.sock s).wq ↔ u ∈ (c.sock s).wq ∧ u ≠ t) := by
    intro s u inside
    rw [wq s inside, (wqNodup s inside).mem_erase_iff, and_comm]
  have queueMem : ∀ u, u ∈ c'.queue ↔ u ∈ c.queue ∧ u ≠ t := by
    intro u; rw [queue, nodup.mem_erase_iff, and_comm]
  constructor
  case queue_nodup => rw [queue]; exact nodup.erase t
  case wq_sorted =>
    intro s inside
    rw [socks] at inside
    rw [wq s inside]
    exact (sorted s inside).sublist List.erase_sublist
  case wq_head =>
    intro s u inside notLoose isHead
    rw [socks] at inside
    obtain ⟨wasHeaded, notHead⟩ := exposed s inside notLoose
    have member := List.mem_of_mem_head? isHead
    have := (wqMem s u inside).mp member
    rw [wq s inside, head?_erase_of_ne notHead] at isHead
    grind
  case wq_rest =>
    intro s u inside member notHead
    rw [socks] at inside
    have := (wqMem s u inside).mp member
    have behind : h s = true ∨ (c.sock s).wq.head? ≠ some u := by
      by_cases loose : h' s = true
      · rcases covered s inside loose with before | headed
        · exact .inl before
        · exact .inr (by rw [headed]; grind)
      · have := (exposed s inside (by simpa using loose)).2
        rw [wq s inside, head?_erase_of_ne this] at notHead
        exact .inr (notHead.resolve_left loose)
    grind
  all_goals grind

/-- A head with no worker to be had leaves its FIFO, and the next one is undispatched as it was. -/
theorem Placed.failHead {c : Core} {x : TaskId → Bool} {h : SockId → Bool} {s : SockId}
    {n : TaskId} {rest : List TaskId} (placed : c.Placed x h) (inside : s ∈ c.socks) (bare : h s = true)
    (wq : (c.sock s).wq = n :: rest) : (Pool.failHead c s n).Placed x h := by
  have member : n ∈ (c.sock s).wq := by simp [wq]
  obtain ⟨pending, kind, sock⟩ := (placed.wq_mem s n inside).mp member
  obtain ⟨unqueued, unstarted⟩ := placed.wq_rest s n inside member (.inl bare)
  rw [failHead_eq]
  refine placed.remove (t := n) ?_ ?_ ?_ ?_ rfl ?_ ?_ ?_
  · intro u
    simp only [Pending, Core.modTask, Core.modSock, Function.update_apply, settled]
    grind
  · intro u other
    simp [Core.modTask, Core.modSock, other]
  · -- No worker runs a task that was never started.
    intro w u
    have idle : ¬ c.Runs w n := fun runs => by
      have := (placed.run_pending w n runs).2
      rw [unstarted] at this
      cases this
    exact ⟨fun runs => ⟨runs, fun same => idle (same ▸ runs)⟩, fun runs => runs.1⟩
  · exact (List.erase_of_not_mem unqueued).symm
  · intro u live
    simp only [Core.modTask, Core.modSock, Function.update_apply]
    by_cases same : u = s
    · subst same; simp [wq]
    · -- A write of one socket is in no other socket's FIFO.
      have : n ∉ (c.sock u).wq := fun there => by
        have := ((placed.wq_mem u n live).mp there).2.2
        grind
      simp [same, List.erase_of_not_mem this]
  · intro u live loose
    refine ⟨loose, fun headed => ?_⟩
    have := ((placed.wq_mem u n live).mp (List.mem_of_mem_head? headed)).2.2
    grind
  · exact fun u _ loose => .inl loose

/-- A pending write is in no FIFO but its own socket's. -/
theorem Placed.erase_other {c : Core} {x : TaskId → Bool} {h : SockId → Bool}
    (placed : c.Placed x h) {s : SockId} {t : TaskId} (inside : s ∈ c.socks)
    (other : ¬ ((c.task t).kind = .opSockWrite ∧ s = c.sockOf t)) :
    (c.sock s).wq.erase t = (c.sock s).wq := by
  refine List.erase_of_not_mem fun there => other ?_
  obtain ⟨_, kind, sock⟩ := (placed.wq_mem s t inside).mp there
  exact ⟨kind, by simp [sockOf, sock]⟩

/-- The FIFO a leaving task exposes is the one it heads. -/
theorem Placed.exposes_iff {c : Core} {x : TaskId → Bool} {h : SockId → Bool}
    (placed : c.Placed x h) {s : SockId} {t : TaskId} (inside : s ∈ c.socks) :
    c.exposes t s = true ↔ (c.sock s).wq.head? = some t := by
  refine ⟨fun exposed => by simp [exposes] at exposed; exact exposed.2, fun head => ?_⟩
  obtain ⟨_, kind, sock⟩ := (placed.wq_mem s t inside).mp (List.mem_of_mem_head? head)
  simp [exposes, kind, sock, head]

/-- A FIFO after a task has been lifted out. -/
theorem Placed.exit_wq {c : Core} {x : TaskId → Bool} {h : SockId → Bool}
    (placed : c.Placed x h) {s : SockId} (t : TaskId) (inside : s ∈ c.socks) :
    (((c.queueRemove t).leaveSock t).sock s).wq = (c.sock s).wq.erase t := by
  have shared := queueRemove_rest c t
  have tasks : (c.queueRemove t).task = c.task := by rw [shared]
  have sockets : (c.queueRemove t).sock = c.sock := by rw [shared]
  rw [leaveSock_wq]
  simp only [sockOf, tasks, sockets]
  split
  · rfl
  · rename_i other; exact (placed.erase_other inside other).symm

/-- A task no worker has touched leaves the queue and its socket. -/
theorem Placed.exit {c : Core} {x : TaskId → Bool} {h : SockId → Bool} {t : TaskId}
    (placed : c.Placed x h) (unstarted : (c.task t).started = false) :
    ((c.queueRemove t).leaveSock t).Placed (Function.update x t true)
      (fun s => h s || c.exposes t s) := by
  have rest := leaveSock_rest (c.queueRemove t) t
  have shared := queueRemove_rest c t
  refine placed.remove (t := t) ?_ ?_ ?_ ?_ ?_ ?_ ?_ ?_
  · intro u
    rw [rest, shared]
    simp only [Pending, Function.update_apply]
    grind
  · intro u _
    rw [rest, shared]
    exact ⟨rfl, rfl, rfl⟩
  · intro w u
    rw [rest, shared]
    have idle : ¬ c.Runs w t := fun runs => by
      have := (placed.run_pending w t runs).2
      rw [unstarted] at this
      cases this
    exact ⟨fun runs => ⟨runs, fun same => idle (same ▸ runs)⟩, fun runs => runs.1⟩
  · rw [rest]; exact queueRemove_queue c t
  · rw [rest, shared]
  · exact fun s inside => placed.exit_wq t inside
  · intro s inside kept
    simp only [Bool.or_eq_false_iff] at kept
    exact ⟨kept.1, fun head => by simp [(placed.exposes_iff inside).mpr head] at kept⟩
  · intro s inside exposed
    simp only [Bool.or_eq_true] at exposed
    exact exposed.imp id (placed.exposes_iff inside).mp

/-- A running task leaves its worker and its socket. -/
theorem Placed.exitRun {c : Core} {x : TaskId → Bool} {h : SockId → Bool} {t : TaskId}
    {w : WorkerId} {phase : Phase} (placed : c.Placed x h) (at_ : c.At w t phase) :
    ((c.setPc w .ready).leaveSock t).Placed (Function.update x t true)
      (fun s => h s || c.exposes t s) := by
  have rest := leaveSock_rest (c.setPc w .ready) t
  have runs : c.Runs w t := at_.runs
  obtain ⟨pending, started⟩ := placed.run_pending w t runs
  refine placed.remove (t := t) ?_ ?_ ?_ ?_ ?_ ?_ ?_ ?_
  · intro u
    rw [rest]
    simp only [Pending, Core.setPc, Core.modWorker, Function.update_apply]
    grind
  · intro u _
    rw [rest]
    exact ⟨rfl, rfl, rfl⟩
  · intro v u
    rw [rest]
    have only := placed.run_inj w v t runs
    have here : (c.worker w).pc = .running t phase := at_.2
    change (c.setPc w .ready).Runs v u ↔ _
    rw [setPc_runs]
    by_cases same : v = w
    · subst same
      simp only [Runs, here, Pc.task?_running, Pc.task?_ready]
      grind
    · simp only [same, if_false]
      exact ⟨fun there => ⟨there, fun isT => same (only (isT ▸ there)).symm⟩, fun there => there.1⟩
  · -- A started task is not on the queue.
    rw [rest]
    refine (List.erase_of_not_mem fun there => ?_).symm
    have := (placed.queue_pending t there).2
    rw [started] at this
    cases this
  · rw [rest]; rfl
  · intro s inside
    rw [leaveSock_wq]
    change (if (c.task t).kind = _ ∧ s = c.sockOf t then (c.sock s).wq.erase t else (c.sock s).wq) = _
    split
    · rfl
    · rename_i other; exact (placed.erase_other inside other).symm
  · intro s inside kept
    simp only [Bool.or_eq_false_iff] at kept
    exact ⟨kept.1, fun head => by simp [(placed.exposes_iff inside).mpr head] at kept⟩
  · intro s inside exposed
    simp only [Bool.or_eq_true] at exposed
    exact exposed.imp id (placed.exposes_iff inside).mp

/-! ### Tasks arriving -/

/-- A task that goes on the work queue without passing through a FIFO. -/
theorem Placed.enqueue {c : Core} {t : TaskId} {x : TaskId → Bool} {h : SockId → Bool}
    (placed : c.Placed x h) (submitted : t < c.ntask) (open_ : (c.task t).done = false)
    (unstarted : (c.task t).started = false) (out : x t = true)
    (kind : (c.task t).kind ≠ .opSockWrite)
    (live : opOnSock (c.task t).kind → ∃ s, (c.task t).sock = some s ∧ s ∈ c.socks) :
    (c.queuePush t).Placed (Function.update x t false) h := by
  obtain ⟨nodup, inQueue, running, inj, started, waiting, sockLive, mem, sorted, head, rest⟩ :=
    placed
  have pending : ∀ u, (c.queuePush t).Pending (Function.update x t false) u ↔
      c.Pending x u ∨ u = t := by
    intro u; simp only [Pending, Core.queuePush, Function.update_apply]; grind
  have absent : ¬ c.Pending x t := fun there => by simp [Pending, out] at there
  have queueMem : ∀ u, u ∈ (c.queuePush t).queue ↔ u ∈ c.queue ∨ u = t := by
    intro u; simp [Core.queuePush]
  constructor
  case queue_nodup => exact List.nodup_append.mpr ⟨nodup, by simp, by grind⟩
  case queue_pending =>
    intro u there
    change _ ∧ (c.task u).started = false
    grind
  case run_pending =>
    intro w u runs
    have := running w u runs
    exact ⟨(pending u).mpr (.inl this.1), this.2⟩
  case run_inj => exact inj
  case started_run =>
    intro u there isStarted
    change (c.task u).started = true at isStarted
    have := started u
    change ∃ w, c.Runs w u
    grind
  case waiting =>
    intro u there isWaiting notWrite
    change (c.task u).started = false at isWaiting
    change (c.task u).kind ≠ _ at notWrite
    grind
  case sock_live =>
    intro u there onSock
    change opOnSock (c.task u).kind at onSock
    change ∃ s, (c.task u).sock = some s ∧ s ∈ c.socks
    grind
  case wq_mem =>
    intro s u inside
    have := mem s u inside
    change u ∈ (c.sock s).wq ↔ _ ∧ (c.task u).kind = _ ∧ (c.task u).sock = _
    grind
  case wq_sorted => exact sorted
  case wq_head =>
    intro s u inside notLoose isHead
    have := head s u inside notLoose isHead
    change _ ∨ (c.task u).started = true
    grind
  case wq_rest =>
    intro s u inside member notHead
    have := (mem s u inside).mp member
    have := rest s u inside member notHead
    change _ ∧ (c.task u).started = false
    grind

/-- The undispatched head of a FIFO goes on the work queue. -/
theorem Placed.promote {c : Core} {x : TaskId → Bool} {h : SockId → Bool} {s : SockId}
    {n : TaskId} (placed : c.Placed x h) (inside : s ∈ c.socks) (bare : h s = true)
    (isHead : (c.sock s).wq.head? = some n) :
    (c.queuePush n).Placed x (Function.update h s false) := by
  have member := List.mem_of_mem_head? isHead
  obtain ⟨pending, kind, sock⟩ := (placed.wq_mem s n inside).mp member
  obtain ⟨unqueued, unstarted⟩ := placed.wq_rest s n inside member (.inl bare)
  obtain ⟨nodup, inQueue, running, inj, started, waiting, sockLive, mem, sorted, head, rest⟩ :=
    placed
  have queueMem : ∀ u, u ∈ (c.queuePush n).queue ↔ u ∈ c.queue ∨ u = n := by
    intro u; simp [Core.queuePush]
  constructor
  case queue_nodup => exact List.nodup_append.mpr ⟨nodup, by simp, by grind⟩
  case queue_pending =>
    intro u there
    change c.Pending x u ∧ (c.task u).started = false
    grind
  case run_pending => exact running
  case run_inj => exact inj
  case started_run => exact started
  case waiting =>
    intro u there isWaiting notWrite
    exact (queueMem u).mpr (.inl (waiting u there isWaiting notWrite))
  case sock_live => exact sockLive
  case wq_mem => exact mem
  case wq_sorted => exact sorted
  case wq_head =>
    intro u t live headedNow isHead'
    change (c.sock u).wq.head? = some t at isHead'
    change _ ∨ (c.task t).started = true
    by_cases same : u = s
    · grind
    · have := head u t live (by simpa [same] using headedNow) isHead'
      grind
  case wq_rest =>
    intro u t live there behind
    change t ∈ (c.sock u).wq at there
    change _ ∨ (c.sock u).wq.head? ≠ some t at behind
    have := (mem u t live).mp there
    have := rest u t live there
    change _ ∧ (c.task t).started = false
    simp only [Function.update_apply] at behind
    grind

/-- Appending leaves the head of a list that has one where it is. -/
theorem head?_append_of_ne_nil {l k : List TaskId} (some_ : l ≠ []) :
    (l ++ k).head? = l.head? := by
  cases l with
  | nil => exact absurd rfl some_
  | cons => rfl

/-- A new write goes on the end of its socket's FIFO. -/
theorem Placed.park {c : Core} {t : TaskId} {s : SockId} {x : TaskId → Bool} {h : SockId → Bool}
    (placed : c.Placed x h) (submitted : t + 1 = c.ntask) (open_ : (c.task t).done = false)
    (unstarted : (c.task t).started = false) (out : x t = true)
    (kind : (c.task t).kind = .opSockWrite) (sock : (c.task t).sock = some s) (live : s ∈ c.socks) :
    (c.modSock s fun k => { k with wq := k.wq ++ [t] }).Placed (Function.update x t false)
      (fun u => h u || (u = s && (c.sock s).wq.isEmpty)) := by
  obtain ⟨nodup, inQueue, running, inj, started, waiting, sockLive, mem, sorted, head, rest⟩ :=
    placed
  let c' := c.modSock s fun k => { k with wq := k.wq ++ [t] }
  have pending : ∀ u, c'.Pending (Function.update x t false) u ↔ c.Pending x u ∨ u = t := by
    intro u; simp only [c', Pending, Core.modSock, Function.update_apply]; grind
  have absent : ¬ c.Pending x t := fun there => by simp [Pending, out] at there
  have wq : ∀ u, (c'.sock u).wq = if u = s then (c.sock s).wq ++ [t] else (c.sock u).wq := by
    intro u; simp only [c', Core.modSock, Function.update_apply]; grind
  have notQueued : t ∉ c.queue := fun there => absent (inQueue t there).1
  constructor
  case queue_nodup => exact nodup
  case queue_pending => intro u there; exact ⟨(pending u).mpr (.inl (inQueue u there).1), (inQueue u there).2⟩
  case run_pending =>
    intro w u runs
    have := running w u runs
    exact ⟨(pending u).mpr (.inl this.1), this.2⟩
  case run_inj => exact inj
  case started_run =>
    intro u there isStarted
    change (c.task u).started = true at isStarted
    have := started u
    change ∃ w, c.Runs w u
    grind
  case waiting =>
    intro u there isWaiting notWrite
    change (c.task u).started = false at isWaiting
    change (c.task u).kind ≠ _ at notWrite
    change u ∈ c.queue
    grind
  case sock_live =>
    intro u there onSock
    change opOnSock (c.task u).kind at onSock
    change ∃ s, (c.task u).sock = some s ∧ s ∈ c.socks
    grind
  case wq_mem =>
    intro v u inside
    have := mem v u inside
    rw [wq v]
    change _ ↔ _ ∧ (c.task u).kind = _ ∧ (c.task u).sock = _
    grind
  case wq_sorted =>
    -- The new task has the largest number of all, so it may stand last.
    intro v inside
    have := sorted v inside
    rw [wq v]
    split
    · rename_i same
      subst same
      refine List.pairwise_append.mpr ⟨this, by simp, ?_⟩
      intro a member b last
      have bound : a < c.ntask := ((mem v a inside).mp member).1.1
      have other : a ≠ t := fun same => absent (same ▸ ((mem v a inside).mp member).1)
      obtain rfl := List.mem_singleton.mp last
      rw [← submitted] at bound
      exact Nat.lt_of_le_of_ne (Nat.le_of_lt_succ bound) other
    · exact this
  case wq_head =>
    intro v u inside headedNow isHead
    rw [wq v] at isHead
    change u ∈ c.queue ∨ (c.task u).started = true
    simp only [Bool.or_eq_false_iff] at headedNow
    by_cases same : v = s
    · subst same
      have : (c.sock v).wq ≠ [] := by simpa using headedNow.2
      rw [if_pos rfl, head?_append_of_ne_nil this] at isHead
      exact head v u inside headedNow.1 isHead
    · rw [if_neg same] at isHead
      exact head v u inside headedNow.1 isHead
  case wq_rest =>
    intro v u inside member behind
    rw [wq v] at member behind
    change u ∉ c.queue ∧ (c.task u).started = false
    have := rest v u inside
    by_cases empty : (c.sock s).wq = []
    · grind
    · have := head?_append_of_ne_nil (k := [t]) empty
      grind

/-- An empty FIFO, or one whose socket is gone, has no head to dispatch. -/
theorem Placed.headed {c : Core} {x : TaskId → Bool} {h h' : SockId → Bool} (placed : c.Placed x h)
    (empty : ∀ s, s ∈ c.socks → h' s ≠ h s → (c.sock s).wq = []) : c.Placed x h' := by
  obtain ⟨nodup, inQueue, running, inj, started, waiting, sockLive, mem, sorted, head, rest⟩ :=
    placed
  refine ⟨nodup, inQueue, running, inj, started, waiting, sockLive, mem, sorted, ?_, ?_⟩
  · intro s t live headedNow isHead
    by_cases same : h' s = h s
    · exact head s t live (same ▸ headedNow) isHead
    · simp [empty s live same] at isHead
  · intro s t live there behind
    by_cases same : h' s = h s
    · exact rest s t live there (same ▸ behind)
    · simp [empty s live same] at there

/-- The head of the work queue passes from the queue to a worker. -/
theorem Placed.start {c c' : Core} {x : TaskId → Bool} {h : SockId → Bool} {w : WorkerId}
    {t : TaskId} {rest : List TaskId} (placed : c.Placed x h) (queue : c.queue = t :: rest)
    (free : (c.worker w).pc.task? = none) (pending : ∀ u, c'.Pending x u ↔ c.Pending x u)
    (task : ∀ u, (c'.task u).kind = (c.task u).kind ∧ (c'.task u).sock = (c.task u).sock ∧
      ((c'.task u).started = true ↔ (c.task u).started = true ∨ u = t))
    (runs : ∀ v u, c'.Runs v u ↔ c.Runs v u ∨ (v = w ∧ u = t)) (queue' : c'.queue = rest)
    (socks : c'.socks = c.socks) (sock : c'.sock = c.sock) : c'.Placed x h := by
  obtain ⟨nodup, inQueue, running, inj, started, waiting, sockLive, mem, sorted, head, behind⟩ :=
    placed
  have taken := inQueue t (by simp [queue])
  have notAgain : t ∉ rest := (List.nodup_cons.mp (queue ▸ nodup)).1
  have idle : ∀ v, ¬ c.Runs v t := fun v there => by
    have := (running v t there).2
    rw [taken.2] at this
    cases this
  have freeWorker : ∀ u, ¬ c.Runs w u := fun u there => by
    have := there.2
    rw [free] at this
    cases this
  constructor
  case queue_nodup => rw [queue']; exact (List.nodup_cons.mp (queue ▸ nodup)).2
  case wq_sorted => rw [socks, sock]; exact sorted
  case wq_head =>
    intro s u inside headed isHead
    rw [socks] at inside
    rw [sock] at isHead
    have := head s u inside headed isHead
    grind
  case wq_rest =>
    intro s u inside member notHead
    rw [socks] at inside
    rw [sock] at member notHead
    have := (mem s u inside).mp member
    have := behind s u inside member notHead
    grind
  case queue_pending => grind
  case run_pending =>
    intro v u there
    rw [pending, (task u).2.2]
    rcases (runs v u).mp there with before | ⟨_, rfl⟩
    · exact ⟨(running v u before).1, .inl (running v u before).2⟩
    · exact ⟨taken.1, .inr rfl⟩
  case started_run =>
    intro u there isStarted
    rcases (task u).2.2.mp isStarted with before | rfl
    · obtain ⟨v, ran⟩ := started u ((pending u).mp there) before
      exact ⟨v, (runs v u).mpr (.inl ran)⟩
    · exact ⟨w, (runs w u).mpr (.inr ⟨rfl, rfl⟩)⟩
  case waiting =>
    intro u there isWaiting notWrite
    have : (c.task u).started ≠ true ∧ u ≠ t := by grind
    have := waiting u ((pending u).mp there) (by simpa using this.1) (by grind)
    grind
  case run_inj => grind
  case sock_live => grind
  case wq_mem =>
    intro s u inside
    rw [sock, pending, (task u).1, (task u).2.1]
    exact mem s u (socks ▸ inside)

/-- A worker takes the head of the work queue. -/
theorem Placed.take {c : Core} {x : TaskId → Bool} {h : SockId → Bool} {w : WorkerId}
    {t : TaskId} {rest : List TaskId} (placed : c.Placed x h) (queue : c.queue = t :: rest)
    (inside : w < c.nworker) (free : (c.worker w).pc.task? = none) :
    (({ c with queue := rest, nqueued := c.nqueued - 1, nrunning := c.nrunning + 1 }.modTask t
      fun k => { k with started := true, worker := some w }).setPc w
        (.running t .entry)).Placed x h := by
  refine placed.start queue free ?_ ?_ ?_ rfl rfl rfl
  · intro u; simp only [Pending, Core.setPc, Core.modWorker, Core.modTask, Function.update_apply]
    grind
  · intro u; simp only [Core.setPc, Core.modWorker, Core.modTask, Function.update_apply]; grind
  · intro v u
    simp only [Runs, Core.setPc, Core.modWorker, Core.modTask, Function.update_apply]
    grind [Pc.task?]

/-- Every move keeps every task in its place. -/
theorem Placed.move {o : OpKind → Result → Prop} {c c' : Core} {x x' : TaskId → Bool} {h h' : SockId → Bool}
    (move : Move o ⟨c, x, h⟩ ⟨c', x', h'⟩) (placed : c.Placed x h)
    (bound : ∀ s, s ∈ c.socks → s < c.nsock) : c'.Placed x' h' := by
  cases move with
  | stir stirred => exact placed.stirred stirred
  | exit _ unstarted => exact placed.exit unstarted
  | exitRun at_ _ => exact placed.exitRun at_
  | settle _ _ out _ _ => exact placed.settle out _
  | promote live bare head => exact placed.promote live bare head
  | fail live bare _ wq => exact placed.failHead live bare wq
  | headed empty => exact placed.headed empty
  | create _ => exact placed.taskNew _
  | createClose _ _ _ => exact (placed.taskNew _).modSock _ _ rfl
  | enqueue submitted open_ unstarted out kind live onSock =>
    split
    · exact (placed.modSock _ _ rfl).enqueue submitted open_ unstarted out kind onSock
    · exact placed.enqueue submitted open_ unstarted out kind onSock
  | park submitted open_ unstarted out kind sock live usable =>
    rename_i t s
    have counted : (c.inflightInc s).Placed x h := placed.modSock _ _ rfl
    have parked := counted.park submitted open_ unstarted out kind sock live
    simpa [inflightInc, Core.modSock] using parked
  | take queue inside free => exact placed.take queue inside free
  | phase at_ _ _ _ => exact placed.setPc at_.2 _
  | flag => exact placed.modTask _ _ rfl rfl rfl rfl
  | kicks => exact placed.modWorker _ _ rfl
  | win at_ _ _ =>
    have made : c.newDesc.Placed x h := placed.same rfl rfl rfl rfl rfl rfl rfl
    exact made.setPc at_.2 _
  | send at_ fits =>
    rename_i w t off n
    have accepted : (c.modDesc ((c.task t).fd.getD 0) fun d =>
        { d with wire := d.wire ++ ((c.task t).buf.drop off).take n }).Placed x h :=
      placed.same rfl rfl rfl rfl rfl rfl rfl
    exact (accepted.modTask t _ rfl rfl rfl rfl).setPc at_.2 _
  | link _ => exact placed.sockLink _ bound
  | close _ => exact placed.same rfl rfl rfl rfl rfl rfl rfl
  | discard unused => exact placed.sockDiscard _ fun t pending _ => unused.tasks t pending
  | unlink at_ sock unused => exact (placed.sockUnlink _ unused).setPc at_.2 _
  | freeSock at_ sock => exact (placed.modSock _ _ rfl).setPc at_.2 _
  | closeFd at_ =>
    rename_i w t fd
    have closed : (c.closeDesc fd).Placed x h := placed.same rfl rfl rfl rfl rfl rfl rfl
    exact closed.setPc at_.2 _
  | detach open_ held =>
    rename_i t
    have flagged : (c.modTask t ({ · with detached := true })).Placed x h :=
      placed.modTask t _ rfl rfl rfl rfl
    exact flagged.same rfl rfl rfl rfl rfl rfl rfl
  | free _ _ => exact (placed.taskFreeMem _).same rfl rfl rfl rfl rfl rfl rfl
  | claim _ _ => exact placed.same rfl rfl rfl rfl rfl rfl rfl
  | unclaim usable => exact placed.same rfl rfl rfl rfl rfl rfl rfl
  | wrap _ => exact placed.same rfl rfl rfl rfl rfl rfl rfl
  | unwrap => exact placed.same rfl rfl rfl rfl rfl rfl rfl
  | shutdown => exact placed.same rfl rfl rfl rfl rfl rfl rfl
  | sweep idle =>
    rw [closeSocks_rest]
    exact placed.congr (fun _ => Iff.rfl) (fun _ _ => ⟨rfl, rfl, rfl⟩) (fun _ _ => Iff.rfl) rfl
      (fun _ inside => by cases inside) (fun _ t pending => absurd pending (idle t))

end Myio.Core
