import Myio.Lib.Path
import Myio.Pool.Calls

/-! The runs of the desktop pool: every step is made of moves, so every invariant holds along them. -/

namespace Myio

open Function (update)
open Core

/-- The descriptor the user thread is about to wrap. -/
def User.wraps : User → Option Fd
  | .listening fd => some fd
  | _ => none

/-- The user thread is inside `impl_destroy`, or past it. -/
def User.leaves : User → Bool
  | .destroying | .destroyed => true
  | _ => false

/-- The tasks the call the user thread is in was given. -/
def User.names : User → List (Option TaskId)
  | .freeing t => [some t]
  | .polling goal _ | .stepping goal => Pool.Goal.round goal
  | _ => []

namespace Pool

variable {o : OpKind → Result → Prop} {p p' q : Pool} {w : WorkerId} {t : TaskId} {s : SockId}

/-- The user thread is where its call has brought it. -/
structure Tidy (p : Pool) : Prop where
  wrapping : p.wrapping = p.user.wraps
  shutdown : p.shutdown = p.user.leaves
  gone : p.gone = true → p.user = .destroyed
  named : ∀ t, some t ∈ p.user.names → p.held t = true
  down : p.WoundDown

/-- Until the very end the instance is there. -/
theorem Tidy.here (tidy : p.Tidy) (before : p.user ≠ .destroyed) : p.gone = false := by
  cases gone : p.gone with
  | false => rfl
  | true => exact absurd (tidy.gone gone) before

/-- Nothing changed that the user thread relies on inside a call. -/
structure Stays (p q : Pool) : Prop where
  user : q.user = p.user
  shutdown : q.shutdown = p.shutdown
  wrapping : q.wrapping = p.wrapping
  gone : q.gone = p.gone
  claimed : q.claimed = p.claimed
  held : ∀ t, p.held t = true → q.held t = true

theorem Stays.refl (p : Pool) : Stays p p := ⟨rfl, rfl, rfl, rfl, rfl, fun _ => id⟩

/-- Code that leaves alone what the user thread relies on. -/
theorem Stays.apart (stays : Stays p q) (f : Core → Core) (apart : Apart q.toCore (f q.toCore)) :
    Stays p (q.on f) :=
  ⟨stays.user, apart.shutdown.trans stays.shutdown, apart.wrapping.trans stays.wrapping,
    apart.gone.trans stays.gone, apart.claimed.trans stays.claimed,
    fun t before => apart.held t (stays.held t before)⟩

/-- A change of the workers, the counters and the queue. -/
theorem Stays.aside (stays : Stays p q) {r : Pool} (user : r.user = q.user)
    (core : r.toCore = { q.toCore with worker := r.worker, nworker := r.nworker, queue := r.queue
                                       nqueued := r.nqueued, nrunning := r.nrunning, task := r.task
                                       desc := r.desc, ndesc := r.ndesc, sock := r.sock
                                       socks := r.socks }) : Stays p r := by
  refine ⟨user.trans stays.user, ?_, ?_, ?_, ?_, ?_⟩ <;> rw [core]
  · exact stays.shutdown
  · exact stays.wrapping
  · exact stays.gone
  · exact stays.claimed
  · exact stays.held

theorem Stays.stable (p : Pool) : Stable (Stays p) where
  piece stays piece := stays.apart _ (piece.apart _)
  dispatch {q} stays t := by
    have pushed : Stays p (q.on (·.queuePush t)) := stays.aside rfl rfl
    unfold dispatchLocked spawnThread
    dsimp only
    split
    · exact pushed.aside rfl rfl
    · by_cases created : (q.on (·.queuePush t)).os.create (q.on (·.queuePush t)).tick = true
      · simp only [created, if_true]
        exact pushed.aside rfl rfl
      · simp only [created, Bool.false_eq_true, if_false]
        exact (pushed.aside (r := { q.on (·.queuePush t) with tick := q.tick + 1 }) rfl rfl).apart
          (·.queueRemove t) (Piece.apart (.queueRemove t) _)

/-- A call that returns at once leaves everything tidy. -/
theorem Tidy.stays (tidy : p.Tidy) (idle : p.user = .idle) (stays : Stays p q) : q.Tidy := by
  have up : p.shutdown = false := by rw [tidy.shutdown, idle]; rfl
  constructor
  case wrapping => rw [stays.wrapping, stays.user]; exact tidy.wrapping
  case shutdown => rw [stays.shutdown, stays.user]; exact tidy.shutdown
  case gone => rw [stays.gone, stays.user]; exact tidy.gone
  case named => rw [stays.user]; exact fun t named => stays.held t (tidy.named t named)
  case down => intro down; rw [stays.shutdown, up] at down; cases down

/-! ### Workers -/

theorem Stays.complete (stays : Stays p q) (t : TaskId) (res : Result) :
    Stays p (q.complete t res) := by
  let r := { q.on (·.finish t res) with
    nrunning := q.nrunning - 1, completions := (q.completions + 1) % 2 ^ 64, unseen := q.unseen + 1 }
  have ended : Stays p r := stays.aside rfl rfl
  exact ended.apart (·.reapIfDetached t) (apart_reapIfDetached _ t)

/-- A worker does not disturb the call the user thread is in. -/
theorem Stays.workerStep {act : Act} (taken : p.workerStep w act = some p') : Stays p p' := by
  have ready : ∀ w, Stays p (p.on (·.setPc w .ready)) := fun _ => (Stays.refl p).aside rfl rfl
  have main : ∀ {q : Pool} timedout, Stays p q → Stays p (q.workerMain w timedout) := by
    intro q timedout stays
    unfold workerMain
    split
    · exact stays.aside rfl rfl
    · split
      all_goals exact stays.aside rfl rfl
  unfold Pool.workerStep at taken
  split at taken
  · cases taken
  · split at taken
    · cases taken; exact (Stays.refl p).aside rfl rfl
    · cases taken; exact main _ (.refl p)
    · cases taken; exact main _ ((Stays.refl p).aside rfl rfl)
    · rename_i t phase pc
      rcases runStep_cases pc taken with ⟨same, works⟩ | ⟨res, newfd, linked, _, rfl⟩ | ⟨_, rfl⟩
      · refine (Stays.refl p).aside (by rw [same]) ?_
        rw [works.rest]
      · have stable := Stays.stable p
        exact (stable.settleSock (stable.wrapWon (ready w) res newfd linked) t _).complete t _
      · exact (ready w).complete t _
    · cases taken

/-! ### After `shutdown` -/

/-- The work queue and the number of tasks are what they were. -/
def Idle (c c' : Core) : Prop := c'.queue = c.queue ∧ c'.ntask = c.ntask

theorem idle_conclude (c : Core) (t : TaskId) (res : Result) : Idle c (c.conclude t res) := by
  unfold Idle conclude reapIfDetached reap
  split
  · split <;> exact ⟨rfl, rfl⟩
  · exact ⟨rfl, rfl⟩

theorem idle_commit (c : Core) (t : TaskId) (res : Result) : Idle c (c.commit t res) := by
  have dropped : Idle c (c.dropWon res) := by
    unfold Core.dropWon; split <;> exact ⟨rfl, rfl⟩
  unfold commit
  split
  · have ended := idle_conclude (c.dropWon res) t rCanceled
    exact ⟨ended.1.trans dropped.1, ended.2.trans dropped.2⟩
  · exact idle_conclude c t res

/-- Once `shutdown` is set, the commit of a running task queues nothing. -/
theorem workerCommit_down (down : p.shutdown = true) (t : TaskId) (res : Result)
    (newfd : Option Fd) (linked : Bool) : Idle p.toCore (p.workerCommit w t res newfd linked).toCore := by
  have wrapped : ∀ q res', (p.on (·.setPc w .ready)).wrapWon res newfd linked = (q, res') →
      q.shutdown = true ∧ Idle p.toCore q.toCore := by
    intro q res' eq
    unfold wrapWon at eq
    split at eq
    · cases eq; exact ⟨down, rfl, rfl⟩
    · split at eq <;> cases eq <;> exact ⟨down, rfl, rfl⟩
  rcases wraps : (p.on (·.setPc w .ready)).wrapWon res newfd linked with ⟨q, res'⟩
  obtain ⟨down', same⟩ := wrapped q res' wraps
  have left : q.leave t = q.on (·.leaveSock t) := leave_of_down down'
  have idle : Idle q.toCore (q.leave t).toCore := by
    rw [left, on_toCore, leaveSock_rest]; exact ⟨rfl, rfl⟩
  have task : (q.leave t).task t = q.task t := by rw [left, on_toCore, leaveSock_rest]
  have code : (p.workerCommit w t res newfd linked).toCore = (q.leave t).toCore.commit t res' := by
    rw [← settleSock_complete task]
    unfold workerCommit
    simp only [wraps]
  have ended := idle_commit (q.leave t).toCore t res'
  rw [code]
  exact ⟨ended.1.trans (idle.1.trans same.1), ended.2.trans (idle.2.trans same.2)⟩

/-- Once `shutdown` is set and the queue is empty, no worker takes or makes a task. -/
theorem workerStep_down {act : Act} (down : p.shutdown = true) (empty : p.queue = [])
    (taken : p.workerStep w act = some p') : Idle p.toCore p'.toCore := by
  have main : ∀ {q : Pool} timedout, q.toCore = p.toCore →
      Idle p.toCore (q.workerMain w timedout).toCore := by
    intro q timedout core
    unfold workerMain
    rw [core, empty, down]
    simp only [Bool.true_or, if_true]
    unfold retire on
    dsimp only
    rw [core]
    exact ⟨rfl, rfl⟩
  unfold Pool.workerStep at taken
  split at taken
  · cases taken
  · split at taken
    · cases taken; exact ⟨rfl, rfl⟩
    · cases taken; exact main _ rfl
    · cases taken; exact main _ rfl
    · rename_i t phase pc
      rcases runStep_cases pc taken with ⟨_, works⟩ | ⟨res, newfd, linked, _, rfl⟩ | ⟨_, rfl⟩
      · unfold Idle; rw [works.rest]; exact ⟨rfl, rfl⟩
      · exact workerCommit_down down t res newfd linked
      · exact idle_conclude (p.setPc w .ready) t _
    · cases taken

/-! ### Teardown -/

theorem Orphaned.swept {c c' : Core} (orphans : Orphaned c) (swept : Swept c c') : Orphaned c' := by
  intro t detached
  rcases swept.task t with ⟨task, held⟩ | ⟨_, _, _, held⟩
  · rw [task] at detached; rw [held]; exact orphans t detached
  · exact held

/-- `impl_destroy` sweeps, and wakes every sleeping worker. -/
theorem implDestroy_eq (sound : Sound p.rest) :
    p.implDestroy =
      { (p.on tearDown).wakeAll (p.on tearDown).isAsleep with user := .destroying } := by
  have shut : Move (fun _ _ => True) p.rest ⟨{ p.toCore with shutdown := true }, fun _ => false,
      fun _ => false⟩ := .shutdown
  obtain ⟨_, swept, _⟩ := dropQueue_spec (o := fun _ _ => True) p.queue.length (sound.move shut)
    (Nat.le_refl _) (fun _ _ => trivial)
  have orphans : Orphaned p.toCore := orphaned sound
  have emptied : destroyQueue p.queue.length { p with shutdown := true } =
      { p with toCore := dropQueue p.queue.length { p.toCore with shutdown := true } } :=
    destroyQueue_down p.queue.length (p := { p with shutdown := true }) rfl orphans
  have socks : (dropQueue p.queue.length { p.toCore with shutdown := true }).socks = p.socks := by
    rw [swept.rest]
  have code : p.implDestroy = { ((destroyQueue p.queue.length { p with shutdown := true }).destroyFifos
      (destroyQueue p.queue.length { p with shutdown := true }).socks).wakeAll
        ((destroyQueue p.queue.length { p with shutdown := true }).destroyFifos
          (destroyQueue p.queue.length { p with shutdown := true }).socks).isAsleep with
      user := .destroying } := rfl
  have rest : Pool.destroyFifos
      { p with toCore := dropQueue p.queue.length { p.toCore with shutdown := true } } p.socks =
        p.on tearDown :=
    destroyFifos_down p.socks (by rw [swept.rest]) (Orphaned.swept (c := { p.toCore with shutdown := true }) orphans swept)
  rw [code, emptied]
  dsimp only
  rw [socks, rest]

/-- `impl_destroy`, the critical section up to its first wait. -/
theorem implDestroy_spec (sound : Sound p.rest)
    (allowed : ∀ t, t ∈ p.queue → o (p.task t).kind rCanceled) (write : ∀ res, o .opSockWrite res) :
    Moves o p.rest p.tearDown.rest ∧ Moves o p.tearDown.rest p.implDestroy.rest ∧
      p.implDestroy.WoundDown := by
  obtain ⟨moves, swept, down⟩ := tearDown_spec (o := o) sound allowed write
  rw [implDestroy_eq sound]
  refine ⟨moves, .one (.stir (wakeAll_stirred (p.on tearDown) fun w asleep => ?_)), down⟩
  simp only [isAsleep, Bool.and_eq_true, decide_eq_true_eq] at asleep
  exact asleep.2

/-- No worker is left, so no task is. -/
theorem unpending_of_nlive (sound : Sound p.rest) (tidy : p.Tidy) (crew : p.Crew)
    (down : p.shutdown = true) (none : p.nlive = 0) (t : TaskId) :
    ¬ p.Pending (fun _ => false) t := by
  intro pending
  obtain ⟨w, inside, runs⟩ := sound.placed.started_run t pending ((tidy.down down).2 t pending)
  have lives : (p.worker w).pc.lives = true := by
    cases here : (p.worker w).pc with
    | retired =>
      have runs : (p.worker w).pc.task? = some t := runs
      rw [here] at runs; cases runs
    | _ => rfl
  have positive : 0 < p.tally Pc.lives := Machine.count_pos inside lives
  rw [← crew.nlive, none] at positive
  exact Nat.lt_irrefl 0 positive

/-- `impl_destroy`, woken on `done_cv`. -/
theorem destroyOn_spec (sound : Sound p.rest) (tidy : p.Tidy) (crew : p.Crew)
    (down : p.shutdown = true) : Moves o p.rest p.destroyOn.rest := by
  unfold destroyOn
  split
  · rename_i none
    exact .one (.sweep (unpending_of_nlive sound tidy crew down none))
  · exact .refl _

/-! ### Steps -/

/--
A step that cancels no close task and fails none.

A close task is canceled by a `cancel` or `task_free` before a worker has it or by `impl_destroy`,
and it fails when its socket is busy and no worker can be secured.
-/
def clean (p : Pool) : Label → Bool
  | .user (.sockClose s) => (p.sock s).inflight = 0 || p.securable
  | .user (.cancel t) | .user (.taskFree t) =>
    !((p.task t).kind = .opSockClose && !(p.task t).done && !(p.task t).started)
  | .user .destroy => p.queue.all fun t => (p.task t).kind ≠ .opSockClose
  | _ => true

/-- A vtable call is made of moves. -/
theorem call_moves {c : Call} (sound : Sound p.rest) (tidy : p.Tidy) (idle : p.user = .idle)
    (obeyed : p.obeys (.user c) = true) (allowed : ∀ k res, k ≠ .opSockClose → o k res)
    (closed : o .opSockClose (rOk 0 none))
    (spoilt : p.clean (.user c) = true ∨ ∀ res, o .opSockClose res)
    (taken : p.call c = some p') : Moves o p.rest p'.rest := by
  have up : p.shutdown = false := by rw [tidy.shutdown, idle]; rfl
  have here : p.gone = false := tidy.here (by simp [idle])
  have apart : ∀ k, opOnSock k = false → k ≠ .opSockClose → Moves o p.rest (p.submit { kind := k }).rest :=
    fun k free notClose => (submit_spec sound (fresh_apart p.toCore free notClose)
      (allowed k _ notClose)).2
  have usable : ∀ s, (p.claimed s && !(p.sock s).closing) = true →
      s ∈ p.socks ∧ (p.sock s).closing = false ∧ p.claimed s = true := by
    intro s may
    simp only [Bool.and_eq_true, Bool.not_eq_true'] at may
    exact ⟨sound.claims.claimed_live s may.1 may.2 here, may.2, may.1⟩
  have canceled : ∀ t, (!((p.task t).kind = .opSockClose && !(p.task t).done &&
      !(p.task t).started)) = true ∨ (∀ res, o .opSockClose res) → (p.task t).done = false →
      (p.task t).started = false → o (p.task t).kind rCanceled := by
    intro t spared isOpen unstarted
    by_cases isClose : (p.task t).kind = .opSockClose
    · rw [isClose]
      rcases spared with spared | any
      · simp [isClose, isOpen, unstarted] at spared
      · exact any _
    · exact allowed _ _ isClose
  cases c with
  | «open» => cases taken; exact apart _ rfl (by simp)
  | close => cases taken; exact apart _ rfl (by simp)
  | read => cases taken; exact apart _ rfl (by simp)
  | write => cases taken; exact apart _ rfl (by simp)
  | sleep => cases taken; exact apart _ rfl (by simp)
  | spawn => cases taken; exact apart _ rfl (by simp)
  | tcpConnect => cases taken; exact apart _ rfl (by simp)
  | tcpListen => cases taken; exact .one (.wrap (by rw [tidy.wrapping, idle]; rfl))
  | tcpAccept s =>
    cases taken
    obtain ⟨live, isOpen, _⟩ := usable s obeyed
    exact (submit_spec sound (fresh_onSock rfl live isOpen) (allowed _ _ (by simp))).2
  | sockRead s =>
    cases taken
    obtain ⟨live, isOpen, _⟩ := usable s obeyed
    exact (submit_spec sound (fresh_onSock rfl live isOpen) (allowed _ _ (by simp))).2
  | sockWrite s buf =>
    cases taken
    obtain ⟨live, isOpen, _⟩ := usable s obeyed
    exact (submit_spec sound (fresh_onSock rfl live isOpen) (allowed _ _ (by simp))).2
  | sockClose s =>
    cases taken
    obtain ⟨live, isOpen, mine⟩ := usable s obeyed
    have marked := closeCut_move (o := o) live isOpen mine
    refine (Moves.one marked).trans (implSockClose_spec (sound.move marked) live
      (allowed _ _ (by simp)) closed fun busy stuck => ?_).2
    rcases spoilt with spared | any
    · simp [clean, busy, stuck] at spared
    · exact any _
  | wait goal => cases goal <;> cases taken <;> exact .refl _
  | cancel t => cases taken; exact implCancel_spec sound up obeyed (canceled t spoilt)
  | taskResult t => cases taken; exact implTaskResult_spec sound obeyed
  | taskFree t => cases taken; exact implTaskFree_spec sound up obeyed (canceled t spoilt)
  | taskDetach t => cases taken; exact implTaskDetach_spec sound here obeyed
  | destroy =>
    cases taken
    have canceled : ∀ t, t ∈ p.queue → o (p.task t).kind rCanceled := by
      intro t queued
      by_cases isClose : (p.task t).kind = .opSockClose
      · rw [isClose]
        rcases spoilt with spared | any
        · have := List.all_eq_true.mp spared t queued
          simp [isClose] at this
        · exact any _
      · exact allowed _ _ isClose
    obtain ⟨moves, moves', _⟩ := implDestroy_spec sound canceled fun res => allowed _ res (by simp)
    exact moves.trans moves'
  | resume => cases taken

/-- Going on inside a call is made of moves. -/
theorem resume_moves {ok' : Bool} (sound : Sound p.rest) (tidy : p.Tidy) (crew : p.Crew)
    (taken : p.resume ok' = some p') : Moves o p.rest p'.rest := by
  unfold resume at taken
  split at taken
  · rename_i fd user
    cases taken
    exact wrapListener_spec sound (by rw [tidy.wrapping, user]; rfl) _
  · rename_i t user
    cases taken
    exact freeOn_spec (tidy.named t (by rw [user]; simp [User.names]))
  · cases taken
    unfold pollOn
    split
    · split
      · split <;> exact .refl _
      · exact .refl _
    · exact .refl _
    · split
      · split <;> exact .refl _
      · exact .refl _
  · cases taken
    unfold stepOn
    split <;> exact .refl _
  · rename_i user
    cases taken
    exact destroyOn_spec sound tidy crew (by rw [tidy.shutdown, user]; rfl)
  · cases taken

/-- Every step of a caller that obeys is made of moves. -/
theorem step_moves {label : Label} (sound : Sound p.rest) (tidy : p.Tidy) (crew : p.Crew)
    (obeyed : p.obeys label = true) (allowed : ∀ k res, k ≠ .opSockClose → o k res)
    (closed : o .opSockClose (rOk 0 none))
    (spoilt : p.clean label = true ∨ ∀ res, o .opSockClose res)
    (taken : p.step label = some p') : Moves o p.rest p'.rest := by
  cases label with
  | worker w act => exact workerStep_spec sound tidy.down allowed closed taken
  | user call =>
    rcases userStep_cases taken with ⟨idle, taken⟩ | ⟨ok', rfl, taken⟩
    · exact call_moves sound tidy idle obeyed allowed closed spoilt taken
    · exact resume_moves sound tidy crew taken

/-- A step of a worker that disturbs nothing leaves everything tidy. -/
theorem Tidy.undisturbed (tidy : p.Tidy) (stays : Stays p p') (later : Later p.toCore p'.toCore)
    (quiet : p.shutdown = true → p.queue = [] → Idle p.toCore p'.toCore) : p'.Tidy := by
  constructor
  case wrapping => rw [stays.wrapping, stays.user]; exact tidy.wrapping
  case shutdown => rw [stays.shutdown, stays.user]; exact tidy.shutdown
  case gone => rw [stays.gone, stays.user]; exact tidy.gone
  case named => rw [stays.user]; exact fun t named => stays.held t (tidy.named t named)
  case down =>
    intro down
    rw [stays.shutdown] at down
    obtain ⟨empty, started⟩ := tidy.down down
    obtain ⟨queue, ntask⟩ := quiet down empty
    refine ⟨queue.trans empty, fun t pending => ?_⟩
    have inside : t < p.ntask := ntask ▸ pending.1
    have isOpen : (p.task t).done = false := by
      cases done : (p.task t).done with
      | false => rfl
      | true => exact Bool.noConfusion (pending.2.1.symm.trans (later.done t inside done).1)
    exact later.started t inside (started t ⟨inside, isOpen, rfl⟩)

/-- A worker's step leaves everything tidy. -/
theorem Tidy.workerStep {act : Act} (tidy : p.Tidy) (later : Later p.toCore p'.toCore)
    (taken : p.workerStep w act = some p') : p'.Tidy :=
  tidy.undisturbed (Stays.workerStep taken) later fun down empty => workerStep_down down empty taken

/-- The user thread is between two calls again. -/
theorem Tidy.back (up : p.shutdown = false) (wrapping : p.wrapping = none) (here : p.gone = false)
    (user : p.user = .idle) : p.Tidy := by
  refine ⟨by rw [user]; exact wrapping, by rw [user]; exact up, fun gone => ?_, fun t named => ?_,
    fun down => ?_⟩
  · rw [here] at gone; cases gone
  · rw [user] at named; simp [User.names] at named
  · rw [up] at down; cases down

/-- A vtable call leaves everything tidy. -/
theorem Tidy.call {c : Call} (tidy : p.Tidy) (sound : Sound p.rest) (idle : p.user = .idle)
    (obeyed : p.obeys (.user c) = true) (taken : p.call c = some p') : p'.Tidy := by
  have up : p.shutdown = false := by rw [tidy.shutdown, idle]; rfl
  have free : p.wrapping = none := by rw [tidy.wrapping, idle]; rfl
  have here : p.gone = false := tidy.here (by simp [idle])
  have stable := Stays.stable p
  have submitted : ∀ k, New k → (p.submit k).Tidy := fun k new =>
    tidy.stays idle (stable.submit (.refl p) k new)
  have dropped : ∀ {q : Pool} t, Stays p q → ((q.dropHandle t).on (·.taskFreeMem t)).Tidy :=
    fun t stays => .back (stays.shutdown.trans up) (stays.wrapping.trans free) (stays.gone.trans here)
      (stays.user.trans idle)
  have unwound : ∀ {q : Pool}, q.shutdown = p.shutdown → q.WoundDown := fun same down => by
    rw [same, up] at down; cases down
  cases c with
  | tcpListen =>
    cases taken
    exact ⟨rfl, up, fun gone => Bool.noConfusion (here.symm.trans gone), by simp [implTcpListen, User.names],
      unwound rfl⟩
  | sockClose s => cases taken; exact tidy.stays idle (stable.implSockClose (.refl p) s)
  | wait goal =>
    have named : ∀ t, some t ∈ Goal.round goal → p.held t = true := fun t there => by
      have all := List.all_eq_true.mp obeyed (some t) there
      simpa using all
    cases goal <;> cases taken <;>
      exact ⟨free, up, fun gone => Bool.noConfusion (here.symm.trans gone), named, unwound rfl⟩
  | cancel t =>
    cases taken
    have kicked := (Stays.refl p).apart (kick · t) (apart_kick _ t)
    exact tidy.stays idle (stable.implCancel (.refl p) t kicked)
  | taskResult t =>
    cases taken
    unfold implTaskResult
    split
    · exact .back up free here idle
    · exact tidy
  | taskFree t =>
    cases taken
    unfold implTaskFree
    split
    · exact dropped t (.refl p)
    · split
      · exact dropped t (stable.completeUnrun (.refl p) t)
      · have kicked : Stays p (if opInterruptible (p.task t).kind then p.on (kick · t) else p) :=
          Stable.ite ((Stays.refl p).apart (kick · t) (apart_kick _ t)) (.refl p)
        refine ⟨kicked.wrapping.trans free, kicked.shutdown.trans up, fun gone => ?_, fun u named => ?_,
          unwound kicked.shutdown⟩
        · exact Bool.noConfusion ((kicked.gone.trans here).symm.trans gone)
        · obtain rfl : u = t := by simpa [User.names] using named
          exact kicked.held u obeyed
  | taskDetach t =>
    cases taken
    unfold implTaskDetach
    dsimp only
    split
    · unfold dropSock
      split
      all_goals
        exact .back ((apart_reap _ t).shutdown.trans up) ((apart_reap _ t).wrapping.trans free)
          ((apart_reap _ t).gone.trans here) idle
    · exact .back up free here idle
  | destroy =>
    cases taken
    obtain ⟨_, swept, _⟩ := tearDown_spec (o := fun _ _ => True) sound (fun _ _ => trivial)
      fun _ => trivial
    obtain ⟨_, _, down⟩ := implDestroy_spec (o := fun _ _ => True) sound (fun _ _ => trivial)
      fun _ => trivial
    rw [implDestroy_eq sound] at down ⊢
    have core : (p.on tearDown).toCore = p.tearDown := rfl
    refine ⟨?_, ?_, fun gone => ?_, by simp [User.names], down⟩
    · change p.tearDown.wrapping = none
      rw [swept.rest]; exact free
    · change p.tearDown.shutdown = true
      rw [swept.rest]
    · have still : p.tearDown.gone = p.gone := by rw [swept.rest]
      exact Bool.noConfusion ((still.trans here).symm.trans gone)
  | resume => cases taken
  | _ => cases taken; exact submitted _ ⟨rfl, rfl, rfl⟩

/-- Going on inside a call leaves everything tidy. -/
theorem Tidy.resume {ok' : Bool} (tidy : p.Tidy) (taken : p.resume ok' = some p') : p'.Tidy := by
  -- Inside a waiting loop nothing shared changes.
  have waits : ∀ goal, p.user.names = Goal.round goal → p.user.wraps = none →
      p.user.leaves = false → ∀ {q : Pool}, q.toCore = p.toCore → q.user.leaves = false →
      q.user.wraps = none → (q.user.names = [] ∨ q.user.names = Goal.round goal) → q.Tidy := by
    intro goal names wraps leaves q core leaves' wraps' names'
    refine ⟨?_, ?_, fun gone => ?_, fun t named => ?_, ?_⟩
    · rw [core, wraps', ← wraps]; exact tidy.wrapping
    · rw [core, leaves', ← leaves]; exact tidy.shutdown
    · rw [core] at gone
      have ended := tidy.gone gone
      rw [ended] at leaves
      cases leaves
    · rw [core]
      rcases names' with none | same
      · rw [none] at named; cases named
      · rw [same, ← names] at named; exact tidy.named t named
    · rw [core]; exact tidy.down
  unfold Pool.resume at taken
  split at taken
  · rename_i fd user
    cases taken
    have up : p.shutdown = false := by rw [tidy.shutdown, user]; rfl
    have here : p.gone = false := tidy.here (by simp [user])
    unfold wrapListener
    split <;> exact .back up rfl here rfl
  · rename_i t user
    cases taken
    have up : p.shutdown = false := by rw [tidy.shutdown, user]; rfl
    have free : p.wrapping = none := by rw [tidy.wrapping, user]; rfl
    have here : p.gone = false := tidy.here (by simp [user])
    unfold freeOn
    split
    · exact .back up free here rfl
    · exact tidy
  · rename_i goal rest user
    cases taken
    have next := @waits goal (by rw [user]; rfl) (by rw [user]; rfl) (by rw [user]; rfl)
    unfold pollOn
    split
    · split
      · split
        · exact next rfl rfl rfl (.inl rfl)
        · exact next rfl rfl rfl (.inr rfl)
      · exact next rfl rfl rfl (.inr rfl)
    · exact next rfl rfl rfl (.inr rfl)
    · split
      · split <;> exact next rfl rfl rfl (.inl rfl)
      · exact next rfl rfl rfl (.inr rfl)
  · rename_i goal user
    cases taken
    have next := @waits goal (by rw [user]; rfl) (by rw [user]; rfl) (by rw [user]; rfl)
    unfold stepOn
    split
    · exact tidy
    · exact next rfl rfl rfl (.inl rfl)
    · exact next rfl rfl rfl (.inr rfl)
    · exact next rfl rfl rfl (.inl rfl)
    · exact next rfl rfl rfl (.inl rfl)
    · exact next rfl rfl rfl (.inl rfl)
  · rename_i user
    cases taken
    have free : p.wrapping = none := by rw [tidy.wrapping, user]; rfl
    have isDown : p.shutdown = true := by rw [tidy.shutdown, user]; rfl
    unfold destroyOn
    split
    · have rest := closeSocks_rest p.toCore p.socks
      refine ⟨?_, ?_, fun _ => rfl, by simp [User.names], ?_⟩
      · change (closeSocks p.toCore p.socks).wrapping = none
        rw [rest]; exact free
      · change (closeSocks p.toCore p.socks).shutdown = true
        rw [rest]; exact isDown
      · intro _
        obtain ⟨empty, started⟩ := tidy.down isDown
        change (closeSocks p.toCore p.socks).queue = [] ∧ ∀ t,
          (closeSocks p.toCore p.socks).Pending (fun _ => false) t →
            ((closeSocks p.toCore p.socks).task t).started = true
        rw [rest]
        exact ⟨empty, started⟩
    · exact tidy
  · cases taken

/-! ### Runs -/

/-- Everything that holds between two critical sections. -/
structure Good (p : Pool) : Prop where
  sound : Sound p.rest
  tidy : p.Tidy
  crew : p.Crew

theorem Good.new (os : Os) : (Pool.new os).Good := by
  have noRuns : ∀ w t, ¬ (Pool.new os).Runs w t := fun w t runs => absurd runs.1 (Nat.not_lt_zero w)
  have noAt : ∀ w t phase, ¬ (Pool.new os).At w t phase := fun w t _ at_ => noRuns w t at_.runs
  refine ⟨⟨?_, ?_, ?_, ?_, ?_, ?_, ?_, ?_, ?_, ?_⟩, ?_, .new os⟩
  · constructor <;> simp_all [Pool.new, Core.rest, Core.Pending]
  · exact ⟨rfl, rfl, by simp [Pool.new, Core.rest]⟩
  · exact ⟨by simp [Pool.new, Core.rest], by simp [Pool.new, Core.rest]⟩
  · exact ⟨by simp [Pool.new, Core.rest], by simp [Pool.new, Core.rest], by simp [Pool.new, Core.rest]⟩
  · constructor <;> simp [Pool.new, Core.rest]
  · constructor <;> simp_all [Pool.new, Core.rest]
  · constructor <;> simp [Pool.new, Core.rest, Core.Pending]
  · exact fun w t phase at_ => absurd at_ (noAt w t phase)
  · constructor <;> simp [Pool.new, Core.rest]
  · constructor <;> simp [Pool.new, Core.rest]
  · exact .back rfl rfl rfl rfl

/-- Every step keeps every invariant. -/
theorem Good.step {label : Label} (good : p.Good) (obeyed : p.obeys label = true)
    (taken : p.step label = some p') : p'.Good := by
  have moves : Moves (fun _ _ => True) p.rest p'.rest :=
    step_moves good.sound good.tidy good.crew obeyed (fun _ _ _ => trivial) trivial
      (.inr fun _ => trivial) taken
  refine ⟨good.sound.moves moves, ?_, good.crew.step taken⟩
  cases label with
  | worker w act => exact good.tidy.workerStep (Later.moves moves good.sound) taken
  | user call =>
    rcases userStep_cases taken with ⟨idle, taken⟩ | ⟨_, rfl, taken⟩
    · exact good.tidy.call good.sound idle obeyed taken
    · exact good.tidy.resume taken

/-- The runs of an instance whose caller obeys. -/
def Run (p p' : Pool) : Prop := Machine.Path step (fun p l => p.obeys l = true) p p'

/-- What holds between two critical sections holds after any more of them. -/
theorem Run.good_of (run : Run p p') (good : p.Good) : p'.Good :=
  Machine.Path.invariant Good (fun _ _ _ good obeyed taken => good.step obeyed taken) run good

/-- What holds in every state a run reaches. -/
theorem Run.good {os : Os} (run : Run (Pool.new os) p) : p.Good := run.good_of (.new os)

/-- A whole run is made of moves. -/
theorem Run.moves (run : Run p p') (good : p.Good) : Moves (fun _ _ => True) p.rest p'.rest := by
  induction run with
  | refl => exact .refl _
  | snoc before obeyed taken ih =>
    have here := Run.good_of before good
    exact ih.trans (step_moves here.sound here.tidy here.crew obeyed (fun _ _ _ => trivial) trivial
      (.inr fun _ => trivial) taken)

/-- No run takes anything back. -/
theorem Run.later (run : Run p p') (good : p.Good) : Later p.toCore p'.toCore :=
  Later.moves (run.moves good) good.sound

end Pool

end Myio
