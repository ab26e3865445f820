import Myio.Pool.Places

/-!
Cancellation: the flag on the task, and the signal that gets a worker out of its poll.

The flag and the signal are set together under the lock, and a worker looks at the flag each time
before it polls. A signal may outlive the task it was sent for.
-/

namespace Myio

open Function (update)

namespace Core

/-- No worker is moved on, no task is started or flagged, and no signal is sent or taken. -/
structure Calm (c c' : Core) : Prop where
  ntask : c.ntask ≤ c'.ntask
  nworker : c.nworker ≤ c'.nworker
  pcs : ∀ w t phase, c'.At w t phase ↔ c.At w t phase
  started : ∀ t, (c'.task t).started = true → (c.task t).started = true
  flag : ∀ t, (c'.task t).cancelReq = true → (c.task t).cancelReq = true
  flagged : ∀ t, t < c.ntask → (c.task t).cancelReq = true → (c'.task t).cancelReq = true
  named : ∀ t, t < c.ntask → (c'.task t).worker = (c.task t).worker
  fewer : ∀ w, (c'.worker w).kicks ≤ (c.worker w).kicks
  kicks : ∀ w, w < c.nworker → (c.worker w).kicks ≤ (c'.worker w).kicks

variable {c c' c'' : Core} {w : WorkerId} {t : TaskId}

theorem Calm.refl (c : Core) : Calm c c where
  ntask := Nat.le_refl _
  nworker := Nat.le_refl _
  pcs _ _ _ := Iff.rfl
  started _ := id
  flag _ := id
  flagged _ _ := id
  named _ _ := rfl
  fewer _ := Nat.le_refl _
  kicks _ _ := Nat.le_refl _

theorem Calm.trans (first : Calm c c') (second : Calm c' c'') : Calm c c'' := by
  have task : ∀ t, t < c.ntask → t < c'.ntask := fun _ less => Nat.lt_of_lt_of_le less first.ntask
  have worker : ∀ w, w < c.nworker → w < c'.nworker := fun _ less =>
    Nat.lt_of_lt_of_le less first.nworker
  constructor
  case ntask => exact Nat.le_trans first.ntask second.ntask
  case nworker => exact Nat.le_trans first.nworker second.nworker
  case pcs => exact fun w t phase => (second.pcs w t phase).trans (first.pcs w t phase)
  case started => exact fun t started => first.started t (second.started t started)
  case flag => exact fun t flag => first.flag t (second.flag t flag)
  case flagged => exact fun t less flag => second.flagged t (task t less) (first.flagged t less flag)
  case named => exact fun t less => (second.named t (task t less)).trans (first.named t less)
  case fewer => exact fun w => Nat.le_trans (second.fewer w) (first.fewer w)
  case kicks => exact fun w less => Nat.le_trans (first.kicks w less) (second.kicks w (worker w less))

/-- The workers are left alone, and of the tasks what a cancel is about. -/
theorem Calm.same (ntask : c.ntask ≤ c'.ntask) (nworker : c'.nworker = c.nworker)
    (worker : c'.worker = c.worker)
    (task : ∀ t, (c'.task t).started = (c.task t).started ∧
      (c'.task t).cancelReq = (c.task t).cancelReq ∧ (c'.task t).worker = (c.task t).worker) :
    Calm c c' where
  ntask := ntask
  nworker := Nat.le_of_eq nworker.symm
  pcs w t phase := by simp only [At, nworker, worker]
  started t := by rw [(task t).1]; exact id
  flag t := by rw [(task t).2.1]; exact id
  flagged t _ := by rw [(task t).2.1]; exact id
  named t _ := (task t).2.2
  fewer w := by rw [worker]
  kicks w _ := by rw [worker]

/-- A change of one record that is not about starting or canceling. -/
theorem Calm.modTask (c : Core) (t : TaskId) (f : Task → Task)
    (started : (f (c.task t)).started = (c.task t).started)
    (flag : (f (c.task t)).cancelReq = (c.task t).cancelReq)
    (named : (f (c.task t)).worker = (c.task t).worker) : Calm c (c.modTask t f) := by
  refine .same (Nat.le_refl _) rfl rfl fun u => ?_
  simp only [Core.modTask, Function.update_apply]
  split
  · rename_i isT; subst isT; exact ⟨started, flag, named⟩
  · exact ⟨rfl, rfl, rfl⟩

/-- The memory of a task is released. -/
theorem Calm.taskFreeMem (c : Core) (t : TaskId) : Calm c (c.taskFreeMem t) :=
  .modTask c t (fun k => { k with frees := k.frees + 1 }) rfl rfl rfl

/-- A change of anything but tasks and workers. -/
theorem Calm.of_rest
    (rest : c' = { c with sock := c'.sock, nsock := c'.nsock, desc := c'.desc, ndesc := c'.ndesc
                          queue := c'.queue, nqueued := c'.nqueued, nrunning := c'.nrunning
                          shutdown := c'.shutdown, socks := c'.socks, wrapping := c'.wrapping
                          gone := c'.gone, held := c'.held, claimed := c'.claimed }) :
    Calm c c' := by
  rw [rest]
  exact .same (Nat.le_refl _) rfl rfl fun _ => ⟨rfl, rfl, rfl⟩

/-- A task is made. -/
theorem Calm.taskNew (c : Core) {k : Task} (started : k.started = false)
    (flag : k.cancelReq = false) : Calm c (c.taskNew k) := by
  have old : ∀ t, t < c.ntask → (c.taskNew k).task t = c.task t := fun t less => by
    simp [Core.taskNew, Function.update_of_ne (Nat.ne_of_lt less)]
  constructor
  case ntask => exact Nat.le_succ _
  case nworker => exact Nat.le_refl _
  case pcs => exact fun _ _ _ => Iff.rfl
  case flagged => intro t less; rw [old t less]; exact id
  case named => intro t less; rw [old t less]
  case fewer => exact fun _ => Nat.le_refl _
  case kicks => exact fun _ _ => Nat.le_refl _
  all_goals
    intro t
    simp only [Core.taskNew, Function.update_apply]
    split
    · simp [started, flag]
    · exact id

/-- Workers with no task come, go, sleep or wake up, and nobody loses a signal. -/
theorem Calm.stirred (stirred : Stirred c c') (fewer : ∀ w, (c'.worker w).kicks ≤ (c.worker w).kicks)
    (kicks : ∀ w, w < c.nworker → (c.worker w).kicks ≤ (c'.worker w).kicks) : Calm c c' := by
  have pcs := stirred.pcs
  have grown := stirred.grown
  have rest := stirred.rest
  have task : c'.task = c.task := by rw [rest]
  constructor
  case ntask => rw [rest]
  case nworker => exact grown
  case pcs => exact pcs
  case fewer => exact fewer
  case kicks => exact kicks
  case named => intro t _; rw [task]
  all_goals
    intro t
    simp only [task]
    first | exact id | exact fun _ => id

/-- No worker is moved on, and a task that gets its flag has its worker signalled as well. -/
structure Spurs (c c' : Core) : Prop where
  ntask : c.ntask ≤ c'.ntask
  pcs : ∀ w t phase, c'.At w t phase ↔ c.At w t phase
  nworker : c.nworker ≤ c'.nworker
  started : ∀ t, (c'.task t).started = true → (c.task t).started = true
  flag : ∀ t, (c'.task t).cancelReq = true →
    (c.task t).cancelReq = true ∨ ∀ w, c.Runs w t → (c.worker w).kicks < (c'.worker w).kicks
  flagged : ∀ t, t < c.ntask → (c.task t).cancelReq = true → (c'.task t).cancelReq = true
  named : ∀ t, t < c.ntask → (c'.task t).worker = (c.task t).worker
  kicks : ∀ w, w < c.nworker → (c.worker w).kicks ≤ (c'.worker w).kicks

theorem Calm.spurs (calm : Calm c c') : Spurs c c' where
  ntask := calm.ntask
  pcs := calm.pcs
  nworker := calm.nworker
  started := calm.started
  flag t flag := .inl (calm.flag t flag)
  flagged := calm.flagged
  named := calm.named
  kicks := calm.kicks

theorem runs_iff_at : c.Runs w t ↔ ∃ phase, c.At w t phase := by
  constructor
  · rintro ⟨inside, here⟩
    cases pc : (c.worker w).pc with
    | running u phase =>
      rw [pc] at here
      obtain rfl : u = t := Option.some.inj here
      exact ⟨phase, inside, pc⟩
    | _ => rw [pc] at here; cases here
  · rintro ⟨phase, at_⟩
    exact at_.runs

theorem Spurs.runs (spurs : Spurs c c') : c'.Runs w t ↔ c.Runs w t := by
  simp only [runs_iff_at, spurs.pcs]

theorem Spurs.trans (first : Spurs c c') (second : Spurs c' c'') : Spurs c c'' := by
  have task : ∀ t, t < c.ntask → t < c'.ntask := fun _ less => Nat.lt_of_lt_of_le less first.ntask
  have worker : ∀ w, w < c.nworker → w < c'.nworker := fun _ less =>
    Nat.lt_of_lt_of_le less first.nworker
  constructor
  case ntask => exact Nat.le_trans first.ntask second.ntask
  case nworker => exact Nat.le_trans first.nworker second.nworker
  case pcs => exact fun w t phase => (second.pcs w t phase).trans (first.pcs w t phase)
  case started => exact fun t started => first.started t (second.started t started)
  case flag =>
    intro t flag
    rcases second.flag t flag with flag | signalled
    · rcases first.flag t flag with flag | signalled
      · exact .inl flag
      · exact .inr fun w runs =>
          Nat.lt_of_lt_of_le (signalled w runs) (second.kicks w (worker w runs.1))
    · exact .inr fun w runs =>
        Nat.lt_of_le_of_lt (first.kicks w runs.1) (signalled w (first.runs.mpr runs))
  case flagged => exact fun t less flag => second.flagged t (task t less) (first.flagged t less flag)
  case named => exact fun t less => (second.named t (task t less)).trans (first.named t less)
  case kicks => exact fun w less => Nat.le_trans (first.kicks w less) (second.kicks w (worker w less))

/-- Every running task names its worker. -/
def Staffed (c : Core) : Prop := ∀ w t, c.Runs w t → t < c.ntask ∧ (c.task t).worker = some w

theorem Spurs.staffed (spurs : Spurs c c') (staffed : Staffed c) : Staffed c' := by
  intro w t runs
  obtain ⟨inside, named⟩ := staffed w t (spurs.runs.mp runs)
  exact ⟨Nat.lt_of_lt_of_le inside spurs.ntask, (spurs.named t inside).trans named⟩

/-- A task is flagged, and the worker it names is signalled if there is one. -/
theorem Spurs.kick (staffed : Staffed c) (worker : WorkerId → Worker)
    (pc : ∀ w, (worker w).pc = (c.worker w).pc) (kicks : ∀ w, (c.worker w).kicks ≤ (worker w).kicks)
    (own : ∀ w, (c.task t).worker = some w → (c.worker w).kicks < (worker w).kicks) :
    Spurs c { c.modTask t ({ · with cancelReq := true }) with worker := worker } := by
  have fields : ∀ u, (c.modTask t ({ · with cancelReq := true })).task u =
      if u = t then { c.task t with cancelReq := true } else c.task u := by
    intro u
    simp [Core.modTask, Function.update_apply]
  constructor
  case ntask => exact Nat.le_refl _
  case nworker => exact Nat.le_refl _
  case pcs => intro w u phase; simp only [At, pc]; rfl
  case kicks => exact fun w _ => kicks w
  case started => intro u; dsimp only; rw [fields]; split <;> simp_all
  case flagged => intro u _; dsimp only; rw [fields]; split <;> simp_all
  case named => intro u _; dsimp only; rw [fields]; split <;> simp_all
  case flag =>
    intro u flag
    dsimp only at flag
    rw [fields] at flag
    split at flag
    · rename_i isT
      subst isT
      exact .inr fun w runs => own w (staffed w u runs).2
    · exact .inl flag

end Core

namespace Pool

open Core

variable {p p' q : Pool} {w : WorkerId} {t : TaskId} {s : SockId}

/-- A signal on `work_cv` is not a `POOL_SIG`. -/
theorem wakeAll_calm (p : Pool) {chosen : WorkerId → Bool}
    (asleep : ∀ w, chosen w = true → (p.worker w).pc = .asleep) :
    Calm p.toCore (p.wakeAll chosen).toCore := by
  have kicks : ∀ w, ((p.wakeAll chosen).worker w).kicks = (p.worker w).kicks := by
    intro w; unfold wakeAll; dsimp only; split <;> rfl
  exact .stirred (wakeAll_stirred p asleep) (fun w => Nat.le_of_eq (kicks w))
    fun w _ => Nat.le_of_eq (kicks w).symm

theorem dispatchLocked_calm (p : Pool) (t : TaskId) :
    Calm p.toCore (p.dispatchLocked t).1.toCore := by
  have pushed : Calm p.toCore (p.queuePush t) := .of_rest rfl
  unfold dispatchLocked
  dsimp only
  split
  · exact pushed.trans (wakeAll_calm (p.on (·.queuePush t)) fun w => asleep_of_signalled)
  · by_cases created : (p.on (·.queuePush t)).os.create (p.on (·.queuePush t)).tick = true
    · simp only [spawnThread, created, if_true]
      refine pushed.trans (.stirred (spawned_stirred (p.on (·.queuePush t))) (fun w => ?_)
        fun w less => ?_)
      · -- The new thread's signal queue is empty.
        simp only [Function.update_apply]
        split
        · exact Nat.zero_le _
        · exact Nat.le_refl _
      · simp only [Function.update_apply]
        rw [if_neg (show w ≠ (p.on (·.queuePush t)).nworker from Nat.ne_of_lt less)]
        exact Nat.le_refl _
    · simp only [spawnThread, created]
      have back : Calm (p.queuePush t) ((p.queuePush t).queueRemove t) := .of_rest (by
        rw [queueRemove_rest])
      exact pushed.trans back

/-- No piece of a call touches what a cancel is about. -/
theorem piece_calm {f : Core → Core} (piece : Piece f) (c : Core) : Calm c (f c) := by
  cases piece with
  | queueRemove t => exact .of_rest (by dsimp only; rw [queueRemove_rest])
  | taskNew k new => exact .taskNew _ new.started new.cancelReq
  | finish t res bare =>
    exact .modTask _ t (fun k => { k with res, done := true, dones := k.dones + 1 }) rfl rfl rfl
  | settled t res bare => exact .modTask _ t (settled res) rfl rfl rfl
  | failHead s n =>
    dsimp only
    rw [failHead_eq]
    have left : Calm c
        (c.modSock s fun k => { k with inflight := k.inflight - 1, wq := k.wq.tail }) := .of_rest rfl
    exact left.trans (.modTask _ n (settled (rErr EAGAIN)) rfl rfl rfl)
  | _ => exact .of_rest rfl

/-- Nor does a dispatch. -/
theorem calm_stable (c : Core) : Stable fun q => Calm c q.toCore where
  piece calm piece := calm.trans (piece_calm piece _)
  dispatch calm t := calm.trans (dispatchLocked_calm _ t)

theorem calm_reap (c : Core) (t : TaskId) : Calm c (c.reap t) := by
  unfold Core.reap
  split
  · rename_i s _
    have discarded : Calm c (c.sockDiscard s) := .of_rest rfl
    exact discarded.trans (.taskFreeMem _ t)
  · exact .taskFreeMem _ t

theorem calm_complete (p : Pool) (t : TaskId) (res : Result) :
    Calm p.toCore (p.complete t res).toCore := by
  rw [complete_toCore]
  unfold conclude Core.reapIfDetached
  have ended : Calm p.toCore { p.finish t res with nrunning := p.nrunning - 1 } :=
    (Calm.modTask p.toCore t (fun k => { k with res, done := true, dones := k.dones + 1 })
      rfl rfl rfl).trans (.of_rest rfl)
  split
  · exact ended.trans (calm_reap _ t)
  · exact ended

theorem calm_dropUnrun (p : Pool) (t : TaskId) : Calm p.toCore (p.dropUnrun t).toCore := by
  have ended : Calm p.toCore (p.completeUnrun t).toCore :=
    (calm_stable p.toCore).completeUnrun (.refl _) t
  unfold dropUnrun
  dsimp only
  split
  · have dropped : Calm p.toCore ((p.completeUnrun t).dropHandle t).toCore :=
      ended.trans (.of_rest rfl)
    exact dropped.trans (calm_reap _ t)
  · exact ended

theorem calm_destroyQueue (n : Nat) : ∀ p : Pool, Calm p.toCore (destroyQueue n p).toCore := by
  induction n with
  | zero => exact fun p => .refl _
  | succ n ih =>
    intro p
    unfold destroyQueue
    split
    · exact .refl _
    · exact (calm_dropUnrun p _).trans (ih _)

theorem calm_destroyFifos (l : List SockId) : ∀ p : Pool,
    Calm p.toCore (p.destroyFifos l).toCore := by
  have fifo : ∀ (l : List TaskId) (p : Pool), Calm p.toCore (p.destroyFifo l).toCore := by
    intro l
    induction l with
    | nil => exact fun p => .refl _
    | cons t rest ih => exact fun p => (calm_dropUnrun p t).trans (ih _)
  induction l with
  | nil => exact fun p => .refl _
  | cons s rest ih => exact fun p => (fifo _ p).trans (ih _)

/-- A vtable call: it is calm, or it cancels a task that a worker has started. -/
theorem call_cases {c : Call} (taken : p.call c = some p') :
    Calm p.toCore p'.toCore ∨ ∃ t, (c = .cancel t ∨ c = .taskFree t) ∧ (p.task t).done = false ∧
      (p.task t).started = true ∧ opInterruptible (p.task t).kind = true ∧
      p'.toCore = kick p.toCore t := by
  have stable := calm_stable p.toCore
  cases c with
  | tcpListen => cases taken; exact .inl (.of_rest rfl)
  | sockClose s => cases taken; exact .inl (stable.implSockClose (.refl _) s)
  | wait goal => cases goal <;> cases taken <;> exact .inl (.refl _)
  | cancel t =>
    cases taken
    unfold implCancel
    split
    · exact .inl (.refl _)
    · rename_i isOpen
      split
      · exact .inl (stable.completeUnrun (.refl _) t)
      · rename_i started
        split
        · rename_i interruptible
          exact .inr ⟨t, .inl rfl, by simpa using isOpen, by simpa using started, interruptible, rfl⟩
        · exact .inl (.refl _)
  | taskResult t =>
    cases taken
    unfold implTaskResult
    split
    · exact .inl (.of_rest rfl)
    · exact .inl (.refl _)
  | taskFree t =>
    have dropped : ∀ c : Core, Calm c
        (({ c with held := update c.held t false } : Core).taskFreeMem t) := fun c => by
      have unheld : Calm c { c with held := update c.held t false } := .of_rest rfl
      exact unheld.trans (.taskFreeMem _ t)
    cases taken
    unfold implTaskFree
    split
    · exact .inl (dropped _)
    · rename_i isOpen
      split
      · have ended : Calm p.toCore (p.completeUnrun t).toCore := stable.completeUnrun (.refl _) t
        exact .inl (ended.trans (dropped _))
      · rename_i started
        dsimp only
        split
        · rename_i interruptible
          exact .inr ⟨t, .inr rfl, by simpa using isOpen, by simpa using started, interruptible, rfl⟩
        · exact .inl (.refl _)
  | taskDetach t =>
    cases taken
    have dropped : Calm p.toCore (p.dropHandle t).toCore := .of_rest rfl
    refine .inl ?_
    unfold implTaskDetach
    dsimp only
    split
    · refine dropped.trans (Calm.trans ?_ (calm_reap _ t))
      unfold dropSock
      split
      · exact .of_rest rfl
      · exact .refl _
    · exact dropped.trans (Calm.modTask _ t ({ · with detached := true }) rfl rfl rfl)
  | destroy =>
    cases taken
    have down : Calm p.toCore ({ p with shutdown := true } : Pool).toCore := .of_rest rfl
    have emptied := calm_destroyQueue p.queue.length { p with shutdown := true }
    have swept := calm_destroyFifos (destroyQueue p.queue.length { p with shutdown := true }).socks
      (destroyQueue p.queue.length { p with shutdown := true })
    refine .inl (((down.trans emptied).trans swept).trans (wakeAll_calm _ fun w asleep => ?_))
    simp only [isAsleep, Bool.and_eq_true, decide_eq_true_eq] at asleep
    exact asleep.2
  | resume => cases taken
  | _ => cases taken; exact .inl (stable.submit (.refl _) _ ⟨rfl, rfl, rfl⟩)

/-- Going on inside a call cancels nothing. -/
theorem resume_calm {granted : Bool} (taken : p.resume granted = some p') :
    Calm p.toCore p'.toCore := by
  unfold resume at taken
  split at taken <;> cases taken
  · unfold wrapListener
    split <;> exact .of_rest rfl
  · unfold freeOn
    split
    · rename_i t _ _
      have dropped : Calm p.toCore (p.dropHandle t).toCore := .of_rest rfl
      exact dropped.trans (.taskFreeMem _ t)
    · exact .refl _
  · unfold pollOn
    split
    · split
      · split <;> exact .refl _
      · exact .refl _
    · exact .refl _
    · split
      · split <;> exact .refl _
      · exact .refl _
  · unfold stepOn
    split <;> exact .refl _
  · unfold destroyOn
    split
    · refine .of_rest ?_
      rw [on_toCore, closeSocks_rest]
    · exact .refl _

/-- A cancel sets the flag of a task and signals the worker the task names. -/
theorem kick_spurs {c : Core} (staffed : Staffed c) (t : TaskId) : Spurs c (kick c t) := by
  refine .kick staffed (kick c t).worker (fun w => ?_) (fun w => ?_) fun w named => ?_
  · exact (apart_kick c t).worker w
  · simp only [kick, modWorker, Core.modTask, Function.update_apply]
    split
    · rename_i isW; subst isW; exact Nat.le_succ _
    · exact Nat.le_refl _
  · simp [kick, modWorker, Core.modTask, named]

/-! ### What holds of flags and signals -/

/-- A task was asked to stop, or its socket is being closed. -/
def Asked (c : Core) (t : TaskId) : Prop :=
  (c.task t).cancelReq = true ∨ ∃ s, (c.task t).sock = some s ∧ (c.sock s).closing = true

/-- What the flags and the signals say about the workers and the results. -/
structure Heeds (c : Core) : Prop where
  /-- Only a submitted task is started. -/
  made : ∀ t, (c.task t).started = true → t < c.ntask
  /-- A running task names the thread that runs it. -/
  named : ∀ w t, c.Runs w t → (c.task t).worker = some w
  /-- A worker that is about to report an interruptible task as canceled was asked to. -/
  about : ∀ w t res newfd, c.At w t (.commit res newfd) → res.status = .canceled →
    opInterruptible (c.task t).kind = true → Asked c t
  /-- A worker in the poll whose task is flagged has a signal coming. -/
  coming : ∀ w t, c.At w t .polling → (c.task t).cancelReq = true → 0 < (c.worker w).kicks
  /-- An interruptible task that was started ends canceled only when asked. -/
  ended : ∀ t, t < c.ntask → (c.task t).done = true → (c.task t).res.status = .canceled →
    opInterruptible (c.task t).kind = true → (c.task t).started = true → Asked c t

/-- A started task that is not done is not ended by anything that leaves its worker where it is. -/
theorem open_of_at {c c' : Core} {x : TaskId → Bool} {h : SockId → Bool} (sound : Sound c.rest)
    (sound' : Sound ⟨c', x, h⟩) (inside : t < c.ntask) (isOpen : (c.task t).done = false)
    (started : (c.task t).started = true)
    (kept : ∀ w phase, c.At w t phase → c'.At w t phase) : (c'.task t).done = false := by
  obtain ⟨w, runs⟩ := sound.placed.started_run t ⟨inside, isOpen, rfl⟩ started
  obtain ⟨phase, at_⟩ := runs_iff_at.mp runs
  exact (sound'.placed.run_pending w t (kept w phase at_).runs).1.2.1

/-- What was asked of a task is not taken back. -/
theorem Asked.later {c c' : Core} (asked : Asked c t) (later : Later c c') (inside : t < c.ntask)
    (bound : ∀ s, (c.task t).sock = some s → s < c.nsock)
    (flagged : (c.task t).cancelReq = true → (c'.task t).cancelReq = true) : Asked c' t := by
  rcases asked with flag | ⟨s, sock, closing⟩
  · exact .inl (flagged flag)
  · exact .inr ⟨s, (later.args t inside).2.1.trans sock, later.closing s (bound s sock) closing⟩

/-- A running task is one of those made, and names the thread that runs it. -/
theorem Heeds.running {c : Core} (heeds : Heeds c) (sound : Sound c.rest) : Staffed c :=
  fun w t runs => ⟨(sound.placed.run_pending w t runs).1.1, heeds.named w t runs⟩

/-- Setting flags keeps all this, when their workers are signalled. -/
theorem Heeds.spurs {c c' : Core} (heeds : Heeds c) (sound : Sound c.rest) (sound' : Sound c'.rest)
    (later : Later c c') (spurs : Spurs c c') : Heeds c' := by
  have before : ∀ {w t phase}, c'.At w t phase → c.At w t phase ∧ t < c.ntask := fun at_ => by
    have at_ := (spurs.pcs _ _ _).mp at_
    exact ⟨at_, (sound.placed.run_pending _ _ at_.runs).1.1⟩
  have bound : ∀ {t s}, t < c.ntask → (c.task t).sock = some s → s < c.nsock := fun {t s} inside =>
    sound.closes.sock_bound t s inside
  constructor
  case made =>
    exact fun t started => Nat.lt_of_lt_of_le (heeds.made t (spurs.started t started)) spurs.ntask
  case named =>
    intro w t runs
    obtain ⟨phase, at_⟩ := runs_iff_at.mp runs
    obtain ⟨at_, inside⟩ := before at_
    rw [spurs.named t inside]
    exact heeds.named w t at_.runs
  case about =>
    intro w t res newfd at_ canceled interruptible
    obtain ⟨at_, inside⟩ := before at_
    rw [(later.args t inside).1] at interruptible
    exact (heeds.about w t res newfd at_ canceled interruptible).later later inside
      (fun _ => bound inside) (spurs.flagged t inside)
  case coming =>
    intro w t at_ flag
    obtain ⟨at_, inside⟩ := before at_
    -- The flag was up before, or went up together with a signal.
    rcases spurs.flag t flag with flag | signalled
    · exact Nat.lt_of_lt_of_le (heeds.coming w t at_ flag) (spurs.kicks w at_.1)
    · exact Nat.lt_of_le_of_lt (Nat.zero_le _) (signalled w at_.runs)
  case ended =>
    intro t _ done canceled interruptible started
    have started := spurs.started t started
    have inside := heeds.made t started
    cases isDone : (c.task t).done with
    | true =>
      obtain ⟨_, res⟩ := later.done t inside isDone
      rw [res] at canceled
      rw [(later.args t inside).1] at interruptible
      exact (heeds.ended t inside isDone canceled interruptible started).later later inside
        (fun _ => bound inside) (spurs.flagged t inside)
    | false =>
      -- Its worker has not moved, so the task cannot have ended.
      have isOpen := open_of_at sound sound' inside isDone started
        fun w phase => (spurs.pcs w t phase).mpr
      rw [isOpen] at done
      cases done

/-! ### The workers -/

/-- A worker is elsewhere in its task, which is as it was but for the bytes sent. -/
theorem Heeds.moved {c c' : Core} {phase : Phase} (heeds : Heeds c) (next : Phase)
    (at_ : c.At w t phase) (ntask : c'.ntask = c.ntask)
    (nworker : c'.nworker = c.nworker)
    (task : ∀ u, (c'.task u).kind = (c.task u).kind ∧ (c'.task u).sock = (c.task u).sock ∧
      (c'.task u).started = (c.task u).started ∧ (c'.task u).cancelReq = (c.task u).cancelReq ∧
      (c'.task u).worker = (c.task u).worker ∧ (c'.task u).done = (c.task u).done ∧
      (c'.task u).res = (c.task u).res)
    (closing : ∀ s, (c'.sock s).closing = (c.sock s).closing)
    (here : (c'.worker w).pc = .running t next) (others : ∀ v, v ≠ w → c'.worker v = c.worker v)
    (about : ∀ res newfd, next = .commit res newfd → res.status = .canceled →
      opInterruptible (c.task t).kind = true → Asked c t)
    (coming : next = .polling → (c.task t).cancelReq = true → 0 < (c'.worker w).kicks) :
    Heeds c' := by
  have pcs : ∀ v u ph, c'.At v u ph → (v = w ∧ u = t ∧ ph = next) ∨ (v ≠ w ∧ c.At v u ph) := by
    rintro v u ph ⟨less, pc⟩
    by_cases isW : v = w
    · subst isW
      rw [here] at pc
      cases pc
      exact .inl ⟨rfl, rfl, rfl⟩
    · exact .inr ⟨isW, nworker ▸ less, by rw [← others v isW]; exact pc⟩
  constructor
  case made => intro u; rw [(task u).2.2.1, ntask]; exact heeds.made u
  case named =>
    intro v u runs
    obtain ⟨ph, there⟩ := runs_iff_at.mp runs
    rw [(task u).2.2.2.2.1]
    rcases pcs v u ph there with ⟨rfl, rfl, _⟩ | ⟨_, before⟩
    · exact heeds.named v u at_.runs
    · exact heeds.named v u before.runs
  case about =>
    intro v u res newfd there canceled
    obtain ⟨kind, sock, _, flag, _⟩ := task u
    unfold Asked
    simp only [kind, sock, flag, closing]
    rcases pcs v u _ there with ⟨rfl, rfl, isNext⟩ | ⟨_, before⟩
    · exact about res newfd isNext.symm canceled
    · exact heeds.about v u res newfd before canceled
  case coming =>
    intro v u there
    rw [(task u).2.2.2.1]
    rcases pcs v u _ there with ⟨rfl, rfl, isNext⟩ | ⟨isW, before⟩
    · exact coming isNext.symm
    · rw [others v isW]; exact heeds.coming v u before
  case ended =>
    intro u less
    obtain ⟨kind, sock, started, flag, _, done, res⟩ := task u
    unfold Asked
    simp only [kind, sock, started, flag, done, res, closing]
    exact heeds.ended u (ntask ▸ less)

/-- A worker takes the head of the work queue. -/
theorem Heeds.take {rest : List TaskId} (heeds : Heeds p.toCore) (sound : Sound p.rest)
    (inside : w < p.nworker) (queue : p.queue = t :: rest) : Heeds (p.take w t).toCore := by
  obtain ⟨pending, unstarted⟩ : p.Pending (fun _ => false) t ∧ (p.task t).started = false :=
    sound.placed.queue_pending t (show t ∈ p.queue by rw [queue]; simp)
  have fields : ∀ u, (p.take w t).task u =
      if u = t then { p.task t with started := true, worker := some w } else p.task u := by
    intro u
    simp [Pool.take, on_toCore, Core.setPc, modWorker, Core.modTask, Function.update_apply]
  have pcs : ∀ v u ph, (p.take w t).At v u ph →
      (v = w ∧ u = t ∧ ph = .entry) ∨ (u ≠ t ∧ p.At v u ph ∧ v ≠ w) := by
    intro v u ph there
    unfold Pool.take at there
    rw [on_toCore, setPc_at] at there
    split at there
    · rename_i isW
      have same := there.2
      simp only [Pc.running.injEq] at same
      exact .inl ⟨isW, same.1.symm, same.2.symm⟩
    · rename_i isW
      refine .inr ⟨?_, there, isW⟩
      -- A queued task is with no worker.
      rintro rfl
      have started : (p.task u).started = true := (sound.placed.run_pending v u (At.runs there)).2
      rw [unstarted] at started
      cases started
  have kicks : ∀ v, ((p.take w t).worker v).kicks = (p.worker v).kicks := by
    intro v
    simp only [Pool.take, on_toCore, Core.setPc, modWorker, Core.modTask, Function.update_apply]
    split
    · rename_i isW; subst isW; rfl
    · rfl
  constructor
  case made =>
    intro u
    rw [fields]
    split
    · rename_i isT; subst isT; exact fun _ => pending.1
    · exact heeds.made u
  case named =>
    intro v u runs
    obtain ⟨ph, there⟩ := runs_iff_at.mp runs
    rw [fields]
    rcases pcs v u ph there with ⟨rfl, rfl, _⟩ | ⟨isT, before, _⟩
    · simp
    · rw [if_neg isT]; exact heeds.named v u before.runs
  case about =>
    intro v u res newfd there
    rcases pcs v u _ there with ⟨_, _, impossible⟩ | ⟨isT, before, _⟩
    · cases impossible
    · unfold Asked; rw [fields, if_neg isT]; exact heeds.about v u res newfd before
  case coming =>
    intro v u there
    rcases pcs v u _ there with ⟨_, _, impossible⟩ | ⟨isT, before, _⟩
    · cases impossible
    · rw [fields, if_neg isT, kicks]; exact heeds.coming v u before
  case ended =>
    intro u less done
    rw [fields] at done
    split at done
    · exact absurd (pending.2.1.symm.trans done) (by simp)
    · rename_i isT
      unfold Asked
      rw [fields, if_neg isT]
      exact heeds.ended u less done

/-- How a commit ends the task: as the worker found, or canceled if the socket is being closed. -/
theorem commit_res (c : Core) (t : TaskId) (res : Result) :
    ((c.commit t res).task t).done = true ∧ ((c.commit t res).task t).sock = (c.task t).sock ∧
    (∀ s, ((c.commit t res).sock s).closing = (c.sock s).closing) ∧
    (((c.commit t res).task t).res = res ∨
      (opOnSock (c.task t).kind = true ∧ (c.sock (c.sockOf t)).closing = true)) := by
  have discarded : ∀ (d : Core) (s u : SockId), ((d.sockDiscard s).sock u).closing =
      (d.sock u).closing := by
    intro d s u
    simp only [Core.sockDiscard, sockFree, modSock, closeDesc, modDesc, sockUnlink,
      Function.update_apply]
    grind
  have concluded : ∀ (d : Core) (r : Result), ((d.conclude t r).task t).done = true ∧
      ((d.conclude t r).task t).sock = (d.task t).sock ∧ ((d.conclude t r).task t).res = r ∧
      ∀ u, ((d.conclude t r).sock u).closing = (d.sock u).closing := by
    intro d r
    unfold conclude Core.reapIfDetached Core.reap
    split
    · split
      · exact ⟨by simp [finish, Core.modTask, Core.taskFreeMem, Core.sockDiscard, sockFree, modSock,
          closeDesc, modDesc, sockUnlink], by simp [finish, Core.modTask, Core.taskFreeMem,
          Core.sockDiscard, sockFree, modSock, closeDesc, modDesc, sockUnlink], by simp [finish,
          Core.modTask, Core.taskFreeMem, Core.sockDiscard, sockFree, modSock, closeDesc, modDesc,
          sockUnlink], discarded _ _⟩
      · simp [finish, Core.modTask, Core.taskFreeMem]
    · simp [finish, Core.modTask]
  unfold Core.commit
  split
  · rename_i closing
    simp only [Bool.and_eq_true] at closing
    have dropped : ((c.dropWon res).task t) = c.task t := by unfold Core.dropWon; split <;> rfl
    obtain ⟨done, sock, _, same⟩ := concluded (c.dropWon res) rCanceled
    refine ⟨done, by rw [sock, dropped], fun u => (same u).trans ?_, .inr closing⟩
    unfold Core.dropWon
    split
    · exact discarded c _ u
    · rfl
  · obtain ⟨done, sock, res, same⟩ := concluded c res
    exact ⟨done, sock, same, .inl res⟩

/-- The commit of `worker_run`, once the task has left its socket. -/
theorem workerCommit_eq {res : Result} {newfd : Option Fd} (linked : Bool) (sound : Sound p.rest)
    (at_ : p.At w t (.commit res newfd)) (down : p.WoundDown) :
    ∃ q res', (p.on (·.setPc w .ready)).wrapWon res newfd linked = (q, res') ∧
      (q.leave t).task t = p.task t ∧
      (p.workerCommit w t res newfd linked).toCore = (q.leave t).toCore.commit t res' := by
  rcases wrapped : (p.on (·.setPc w .ready)).wrapWon res newfd linked with ⟨q, res'⟩
  have same : q.task t = p.task t := by
    unfold wrapWon at wrapped
    split at wrapped
    · cases wrapped; rfl
    · split at wrapped <;> cases wrapped <;> rfl
  have left : (q.leave t).task t = q.task t := by
    cases newfd with
    | none =>
      cases wrapped
      exact (commitBare_spec (o := fun _ _ => True) sound at_ down fun _ _ _ => trivial).1
    | some fd =>
      -- Only a connect or an accept wins a descriptor, and neither hands anything on.
      obtain ⟨_, _, _, winner, _⟩ : p.PhaseOk t (.commit res (some fd)) := sound.phased w t _ at_
      have unwritten : (q.task t).kind ≠ .opSockWrite := by
        rw [same]
        rcases winner (by simp) with kind | kind <;> simp [kind]
      rw [leave_of_unwritten unwritten, on_toCore, leaveSock_rest]
  refine ⟨q, res', rfl, left.trans same, ?_⟩
  rw [← settleSock_complete left]
  unfold workerCommit
  simp only [wrapped]

/-- How `worker_run` ends its task: canceled only if the worker found so, or the socket closing. -/
theorem workerCommit_res {res : Result} {newfd : Option Fd} (linked : Bool) (sound : Sound p.rest)
    (at_ : p.At w t (.commit res newfd)) (down : p.WoundDown)
    (canceled : ((p.workerCommit w t res newfd linked).task t).res.status = .canceled) :
    res.status = .canceled ∨ ∃ s, ((p.workerCommit w t res newfd linked).task t).sock = some s ∧
      ((p.workerCommit w t res newfd linked).sock s).closing = true := by
  obtain ⟨q, res', wrapped, task, code⟩ := workerCommit_eq linked sound at_ down
  obtain ⟨_, sock, same, ends⟩ := commit_res (q.leave t).toCore t res'
  rw [code] at canceled ⊢
  rcases ends with stored | ⟨blocks, closing⟩
  · -- A descriptor that was won turns into a socket or an error.
    rw [stored] at canceled
    unfold wrapWon at wrapped
    split at wrapped
    · cases wrapped; exact .inl canceled
    · split at wrapped <;> cases wrapped <;> cases canceled
  · rw [task] at blocks
    have pending : p.Pending (fun _ => false) t := (sound.placed.run_pending w t at_.runs).1
    obtain ⟨s, isSock, _⟩ := sound.placed.sock_live t pending blocks
    have isSock : (p.task t).sock = some s := isSock
    have sockOf : (q.leave t).sockOf t = s := by unfold Core.sockOf; rw [task, isSock]; rfl
    refine .inr ⟨s, by rw [sock, task]; exact isSock, ?_⟩
    rw [same, ← sockOf]
    exact closing

/-- A worker is through with its task; nobody else has moved. -/
theorem Heeds.commits {c c' : Core} {phase : Phase} (heeds : Heeds c) (sound : Sound c.rest)
    (sound' : Sound c'.rest) (later : Later c c') (at_ : c.At w t phase)
    (calm : Calm (c.setPc w .ready) c')
    (ended : (c'.task t).res.status = .canceled → opInterruptible (c.task t).kind = true →
      Asked c' t) : Heeds c' := by
  have kept : ∀ v u ph, v ≠ w → (c'.At v u ph ↔ c.At v u ph) := fun v u ph isW => by
    rw [calm.pcs, setPc_at, if_neg isW]
  have before : ∀ {v u ph}, c'.At v u ph → v ≠ w ∧ c.At v u ph ∧ u < c.ntask := fun {v u ph} there => by
    have isW : v ≠ w := by
      rintro rfl
      have pc := (calm.pcs v u ph).mp there
      rw [setPc_at, if_pos rfl] at pc
      cases pc.2
    have there := (kept v u ph isW).mp there
    exact ⟨isW, there, (sound.placed.run_pending v u there.runs).1.1⟩
  have kicks : ∀ v, ((c.setPc w .ready).worker v).kicks = (c.worker v).kicks := by
    intro v
    simp only [Core.setPc, modWorker, Function.update_apply]
    split
    · rename_i isW; subst isW; rfl
    · rfl
  constructor
  case made =>
    exact fun u started => Nat.lt_of_lt_of_le (heeds.made u (calm.started u started)) calm.ntask
  case named =>
    intro v u runs
    obtain ⟨ph, there⟩ := runs_iff_at.mp runs
    obtain ⟨_, there, inside⟩ := before there
    rw [calm.named u inside]
    exact heeds.named v u there.runs
  case about =>
    intro v u res newfd there canceled interruptible
    obtain ⟨_, there, inside⟩ := before there
    rw [(later.args u inside).1] at interruptible
    exact (heeds.about v u res newfd there canceled interruptible).later later inside
      (fun s => sound.closes.sock_bound u s inside) (calm.flagged u inside)
  case coming =>
    intro v u there flag
    obtain ⟨_, there, inside⟩ := before there
    have enough := calm.kicks v there.1
    rw [kicks] at enough
    exact Nat.lt_of_lt_of_le (heeds.coming v u there (calm.flag u flag)) enough
  case ended =>
    intro u _ done canceled interruptible started
    have started : (c.task u).started = true := calm.started u started
    have inside := heeds.made u started
    rw [(later.args u inside).1] at interruptible
    cases isDone : (c.task u).done with
    | true =>
      obtain ⟨_, res⟩ := later.done u inside isDone
      rw [res] at canceled
      exact (heeds.ended u inside isDone canceled interruptible started).later later inside
        (fun s => sound.closes.sock_bound u s inside) (calm.flagged u inside)
    | false =>
      -- It ended just now, so it is the one the worker was running.
      obtain ⟨v, runs⟩ := sound.placed.started_run u ⟨inside, isDone, rfl⟩ started
      obtain ⟨ph, there⟩ := runs_iff_at.mp runs
      have isW : v = w := by
        by_contra other
        have isOpen := (sound'.placed.run_pending v u ((kept v u ph other).mpr there).runs).1.2.1
        exact absurd (isOpen.symm.trans done) (by simp)
      subst isW
      have same := at_.2.symm.trans there.2
      cases same
      exact ended canceled interruptible

/-- A result of the blocking call is never `MYIO_CANCELED`. -/
theorem callResult_uncanceled (kind : OpKind) (n errno : Int) :
    (callResult kind n errno).status ≠ .canceled := by
  unfold callResult rFrom
  split
  · simp
  · split <;> simp
  · simp
  · simp
  · split <;> simp

/-- One move of a worker that is running a task. -/
theorem Heeds.runStep {phase : Phase} {act : Act} (heeds : Heeds p.toCore) (sound : Sound p.rest)
    (down : p.WoundDown) (sound' : Sound p'.rest) (later : Later p.toCore p'.toCore) (at_ : p.At w t phase)
    (taken : p.runStep w t phase act = some p') : Heeds p'.toCore := by
  have same : ∀ u, (p.task u).kind = (p.task u).kind ∧ (p.task u).sock = (p.task u).sock ∧
      (p.task u).started = (p.task u).started ∧ (p.task u).cancelReq = (p.task u).cancelReq ∧
      (p.task u).worker = (p.task u).worker ∧ (p.task u).done = (p.task u).done ∧
      (p.task u).res = (p.task u).res := fun _ => ⟨rfl, rfl, rfl, rfl, rfl, rfl, rfl⟩
  -- The worker only moves on.
  have on : ∀ next, (∀ res newfd, next = .commit res newfd → res.status = .canceled →
      opInterruptible (p.task t).kind = true → Asked p.toCore t) →
      (next = .polling → (p.task t).cancelReq = true → 0 < (p.worker w).kicks) →
      Heeds (p.setPc w (.running t next)) := by
    intro next about coming
    refine heeds.moved next at_ rfl rfl same (fun _ => rfl) (by simp [Core.setPc, modWorker])
      (fun v other => by simp [Core.setPc, modWorker, other]) about ?_
    simpa [Core.setPc, modWorker] using coming
  have calm : ∀ {q : Pool}, Calm (p.setPc w .ready) q.toCore → ∀ res,
      Calm (p.setPc w .ready) (q.complete t res).toCore := fun before res =>
    before.trans (calm_complete _ t res)
  unfold Pool.runStep at taken
  split at taken
  · cases taken
    unfold workerEnter
    split
    case h_2 kind =>
      split
      · -- A write is not interruptible.
        exact on _ (fun _ _ _ _ interruptible => by rw [kind] at interruptible; cases interruptible)
          (by simp)
      · exact on _ (by simp) (by simp)
    all_goals exact on _ (by simp) (by simp)
  · split at taken
    · rename_i flag
      cases taken
      exact on _ (fun _ _ _ _ _ => .inl flag) (by simp)
    · rename_i unflagged
      split at taken <;> cases taken
      · exact on _ (by simp) (by simp)
      · -- It goes into the poll only with the flag down.
        exact on _ (by simp) fun _ flag => absurd flag unflagged
  · split at taken <;> cases taken
    · refine heeds.moved .check at_ rfl rfl same (fun _ => rfl)
        (by simp [on_toCore, Core.setPc, modWorker])
        (fun v other => by simp [on_toCore, Core.setPc, modWorker, other]) (by simp) (by simp)
    · exact on _ (by simp) (by simp)
  · cases taken
    refine on _ (fun res newfd isNext canceled => ?_) (by simp)
    cases isNext
    exact absurd canceled (callResult_uncanceled _ _ _)
  · split at taken <;> cases taken
    all_goals
      refine heeds.moved (.commit _ (some p.ndesc)) at_ rfl rfl same (fun _ => rfl)
        (by simp [on_toCore, Core.setPc, modWorker]; rfl)
        (fun v other => by simp [on_toCore, Core.setPc, modWorker, newDesc, other])
        (fun res newfd isNext canceled => ?_) (by simp)
      cases isNext
      cases canceled
  · split at taken <;> cases taken
    rename_i off n _
    refine heeds.moved (.sending (off + n)) at_ rfl rfl (fun u => ?_) (fun _ => rfl)
      (by simp [on_toCore, sendBytes, Core.setPc, modWorker])
      (fun v other => by simp [on_toCore, sendBytes, Core.setPc, modWorker, Core.modTask, modDesc, other])
      (by simp) (by simp)
    simp only [on_toCore, sendBytes, Core.setPc, modWorker, Core.modTask, modDesc,
      Function.update_apply]
    split
    · rename_i isT; subst isT; exact ⟨rfl, rfl, rfl, rfl, rfl, rfl, rfl⟩
    · exact same u
  · split at taken <;> cases taken
    exact heeds
  · split at taken <;> cases taken
    refine on _ (fun res newfd isNext canceled => ?_) (by simp)
    cases isNext
    cases canceled
  · split at taken <;> cases taken
    refine on _ (fun res newfd isNext canceled => ?_) (by simp)
    cases isNext
    cases canceled
  · rename_i res newfd linked
    cases taken
    have stable := calm_stable (p.setPc w .ready)
    have quiet := calm (stable.settleSock (stable.wrapWon (p := p.on (·.setPc w .ready)) (.refl _) res
      newfd linked) t ((p.on (·.setPc w .ready)).wrapWon res newfd linked).2)
    refine heeds.commits sound sound' later at_ (quiet _) fun canceled interruptible => ?_
    rcases workerCommit_res linked sound at_ down canceled with found | asked
    · have inside := (sound.placed.run_pending w t at_.runs).1.1
      exact (heeds.about w t res newfd at_ found interruptible).later later inside
        (fun s => sound.closes.sock_bound t s inside) ((quiet _).flagged t inside)
    · exact .inr asked
  · dsimp only at taken
    split at taken <;> cases taken
    exact heeds.moved (.release _) at_ rfl rfl same (fun _ => rfl)
      (by simp [on_toCore, Core.setPc, modWorker]; rfl)
      (fun v other => by simp [on_toCore, Core.setPc, modWorker, sockUnlink, other]) (by simp) (by simp)
  · cases taken
    refine heeds.moved .commitClose at_ rfl rfl same (fun s => ?_)
      (by simp [on_toCore, Core.setPc, modWorker])
      (fun v other => by simp [on_toCore, Core.setPc, modWorker, sockFree, modSock, closeDesc,
        modDesc, other]) (by simp) (by simp)
    simp only [on_toCore, Core.setPc, modWorker, sockFree, modSock, closeDesc, modDesc,
      Function.update_apply]
    split
    · rename_i isS; subst isS; rfl
    · rfl
  · cases taken
    refine heeds.commits sound sound' later at_ (calm (.refl _) _) fun canceled interruptible => ?_
    -- A close is not interruptible.
    obtain ⟨isClose, _⟩ : p.PhaseOk t .commitClose := sound.phased w t _ at_
    rw [isClose] at interruptible
    cases interruptible
  · cases taken

/-- A worker with no task goes from one place to another. -/
theorem setPc_calm {c : Core} {pc : Pc} (free : (c.worker w).pc.task? = none)
    (free' : pc.task? = none) : Calm c (c.setPc w pc) := by
  have kicks : ∀ v, ((c.setPc w pc).worker v).kicks = (c.worker v).kicks := by
    intro v
    simp only [Core.setPc, modWorker, Function.update_apply]
    split
    · rename_i isW; subst isW; rfl
    · rfl
  exact .stirred (setPc_stirred free free') (fun v => Nat.le_of_eq (kicks v))
    fun v _ => Nat.le_of_eq (kicks v).symm

/-- The top of a worker's loop. -/
theorem Heeds.workerMain {timedout : Bool} (heeds : Heeds p.toCore) (sound : Sound p.rest)
    (sound' : Sound (p.workerMain w timedout).rest)
    (later : Later p.toCore (p.workerMain w timedout).toCore) (free : (p.worker w).pc.task? = none)
    (inside : w < p.nworker) : Heeds (p.workerMain w timedout).toCore := by
  revert sound' later
  unfold Pool.workerMain
  split
  · rename_i t rest queue
    intro _ _
    exact heeds.take sound inside queue
  · split
    all_goals
      intro sound' later
      exact heeds.spurs sound sound' later (setPc_calm free rfl).spurs

theorem Heeds.workerStep {act : Act} (heeds : Heeds p.toCore) (sound : Sound p.rest)
    (down : p.WoundDown) (sound' : Sound p'.rest) (later : Later p.toCore p'.toCore)
    (taken : p.workerStep w act = some p') : Heeds p'.toCore := by
  unfold Pool.workerStep at taken
  split at taken
  · cases taken
  · rename_i outside
    have inside : w < p.nworker := Nat.lt_of_not_le outside
    split at taken
    · rename_i pc
      cases taken
      exact heeds.spurs sound sound' later (setPc_calm (by rw [pc]; rfl) rfl).spurs
    · rename_i pc
      cases taken
      exact heeds.workerMain sound sound' later (by rw [pc]; rfl) inside
    · rename_i pc
      cases taken
      -- The count of idle workers is not what flags are about.
      exact Heeds.workerMain (p := { p with idle := p.idle - 1 }) heeds sound sound' later
        (by change (p.worker w).pc.task? = none; rw [pc]; rfl) inside
    · rename_i pc
      exact heeds.runStep sound down sound' later ⟨inside, pc⟩ taken
    · cases taken

/-- Every step keeps flags and signals in order. -/
theorem Heeds.step {label : Label} (heeds : Heeds p.toCore) (good : p.Good)
    (obeyed : p.obeys label = true) (taken : p.step label = some p') : Heeds p'.toCore := by
  have sound' : Sound p'.rest := (good.step obeyed taken).sound
  have later : Later p.toCore p'.toCore := Later.moves (step_moves (o := fun _ _ => True) good.sound
    good.tidy good.crew obeyed (fun _ _ _ => trivial) trivial (.inr fun _ => trivial) taken) good.sound
  cases label with
  | worker w act => exact heeds.workerStep good.sound good.tidy.down sound' later taken
  | user call =>
    rcases userStep_cases taken with ⟨_, called⟩ | ⟨_, _, resumed⟩
    · rcases call_cases called with calm | ⟨t, _, isOpen, started, _, code⟩
      · exact heeds.spurs good.sound sound' later calm.spurs
      · refine heeds.spurs good.sound sound' later ?_
        rw [code]
        exact kick_spurs (heeds.running good.sound) t
    · exact heeds.spurs good.sound sound' later (resume_calm resumed).spurs

theorem Run.heeds {os : Os} (run : Run (Pool.new os) p) : Heeds p.toCore := by
  induction run with
  | refl =>
    have none : ∀ w t, ¬ (Pool.new os).Runs w t := fun w t runs => Nat.not_lt_zero w runs.1
    constructor
    case made => intro t started; simp [Pool.new] at started
    case named => exact fun w t runs => absurd runs (none w t)
    case about => exact fun w t _ _ at_ => absurd at_.runs (none w t)
    case coming => exact fun w t at_ => absurd at_.runs (none w t)
    case ended => exact fun t less => absurd less (Nat.not_lt_zero t)
  | snoc before obeyed taken ih => exact ih.step (Run.good before) obeyed taken

/-! ### Who moves a worker -/

/-- A worker at the top of its loop does not move another one. -/
theorem workerMain_others {timedout : Bool} {v : WorkerId} {u : TaskId} {ph : Phase} (other : v ≠ w) :
    (p.workerMain w timedout).At v u ph ↔ p.At v u ph := by
  unfold workerMain
  split
  · unfold Pool.take
    rw [on_toCore, setPc_at, if_neg other]
    simp only [on_toCore, At, Core.modTask]
  · split <;> (simp only [retire, on_toCore]; rw [setPc_at, if_neg other])

/-- A worker does not move another one. -/
theorem workerStep_others {act : Act} {v : WorkerId} {u : TaskId} {ph : Phase} (other : v ≠ w)
    (taken : p.workerStep w act = some p') : p'.At v u ph ↔ p.At v u ph := by
  have moved : ∀ {c : Core} {pc : Pc}, (c.setPc w pc).At v u ph ↔ c.At v u ph := by
    intro c pc; rw [setPc_at, if_neg other]
  have ready : ∀ {q : Pool}, Calm (p.setPc w .ready) q.toCore → (q.At v u ph ↔ p.At v u ph) :=
    fun calm => (calm.pcs v u ph).trans moved
  unfold workerStep at taken
  split at taken
  · cases taken
  · split at taken
    · cases taken; exact moved
    · cases taken; exact workerMain_others other
    · cases taken; exact workerMain_others (p := { p with idle := p.idle - 1 }) other
    · rename_i t phase pc
      rcases runStep_cases pc taken with ⟨_, works⟩ | ⟨res, newfd, linked, _, rfl⟩ | ⟨_, rfl⟩
      · have nworker : p'.nworker = p.nworker := by rw [works.rest]
        simp only [At, nworker, works.others v other]
      · have stable := calm_stable (p.setPc w .ready)
        have settled := stable.settleSock (stable.wrapWon (p := p.on (·.setPc w .ready)) (.refl _) res
          newfd linked) t ((p.on (·.setPc w .ready)).wrapWon res newfd linked).2
        exact ready (settled.trans (calm_complete _ t _))
      · exact ready (calm_complete (p.on (·.setPc w .ready)) t _)
    · cases taken

/-- Only a worker itself gets on with its task. -/
theorem step_others {label : Label} {u : TaskId} {ph : Phase} (other : ∀ act, label ≠ .worker w act)
    (taken : p.step label = some p') : p'.At w u ph ↔ p.At w u ph := by
  cases label with
  | worker v act =>
    have isW : w ≠ v := by rintro rfl; exact other act rfl
    exact workerStep_others isW taken
  | user call =>
    rcases userStep_cases taken with ⟨_, called⟩ | ⟨_, _, resumed⟩
    · rcases call_cases called with calm | ⟨t, _, _, _, _, code⟩
      · exact calm.pcs w u ph
      · rw [code]
        simp only [At, (apart_kick p.toCore t).nworker, (apart_kick p.toCore t).worker w]
    · exact (resume_calm resumed).pcs w u ph

/-- A step of the worker that runs a task is a step of that task. -/
theorem step_own {act : Act} {phase : Phase} (at_ : p.At w t phase)
    (taken : p.step (.worker w act) = some p') : p.runStep w t phase act = some p' := by
  have taken : p.workerStep w act = some p' := taken
  unfold workerStep at taken
  rw [if_neg (Nat.not_le_of_lt at_.1), at_.2] at taken
  cases act <;> exact taken

/-! ### Signals -/

/-- No worker sends a signal. -/
theorem workerStep_fewer {act : Act} (taken : p.workerStep w act = some p') (v : WorkerId) :
    (p'.worker v).kicks ≤ (p.worker v).kicks := by
  have moved : ∀ {c : Core} {pc : Pc}, c.worker = p.worker →
      ((c.setPc w pc).worker v).kicks ≤ (p.worker v).kicks := by
    intro c pc same
    simp only [Core.setPc, modWorker, same, Function.update_apply]
    split
    · rename_i isW; subst isW; exact Nat.le_refl _
    · exact Nat.le_refl _
  have ready : ∀ {q : Pool}, Calm (p.setPc w .ready) q.toCore →
      (q.worker v).kicks ≤ (p.worker v).kicks := fun calm =>
    Nat.le_trans (calm.fewer v) (moved rfl)
  have main : ∀ {q : Pool} {timedout}, q.toCore = p.toCore →
      ((q.workerMain w timedout).worker v).kicks ≤ (p.worker v).kicks := by
    intro q timedout core
    unfold workerMain
    split
    · unfold Pool.take
      exact moved (by simp only [on_toCore, Core.modTask, core])
    · split
      all_goals exact moved (by rw [core])
  unfold workerStep at taken
  split at taken
  · cases taken
  · split at taken
    · cases taken; exact moved rfl
    · cases taken; exact main rfl
    · cases taken; exact main (q := { p with idle := p.idle - 1 }) rfl
    · rename_i t phase pc
      unfold runStep at taken
      split at taken
      · cases taken
        unfold workerEnter
        split
        case h_2 => split <;> exact moved rfl
        all_goals exact moved rfl
      · split at taken
        · cases taken; exact moved rfl
        · split at taken <;> cases taken <;> exact moved rfl
      · split at taken <;> cases taken
        · -- The one signal that interrupted the poll is used up.
          simp only [on_toCore, Core.setPc, modWorker, Function.update_apply]
          split
          · rename_i isW; subst isW; simp
          · exact Nat.le_refl _
        · exact moved rfl
      · cases taken; exact moved rfl
      · split at taken <;> cases taken <;> exact moved rfl
      · split at taken <;> cases taken
        exact moved rfl
      · split at taken <;> cases taken
        exact Nat.le_refl _
      · split at taken <;> cases taken
        exact moved rfl
      · split at taken <;> cases taken
        exact moved rfl
      · rename_i res newfd linked
        cases taken
        have stable := calm_stable (p.setPc w .ready)
        have settled := stable.settleSock (stable.wrapWon (p := p.on (·.setPc w .ready)) (.refl _) res
          newfd linked) t ((p.on (·.setPc w .ready)).wrapWon res newfd linked).2
        exact ready (settled.trans (calm_complete _ t _))
      · dsimp only at taken
        split at taken <;> cases taken
        exact moved rfl
      · cases taken; exact moved rfl
      · cases taken; exact ready (calm_complete (p.on (·.setPc w .ready)) t _)
      · cases taken
    · cases taken

/-- A signal is sent by a cancel or a free, and to the thread that runs the task. -/
theorem signalled_runs {label : Label} (sound : Sound p.rest) (heeds : Heeds p.toCore)
    (taken : p.step label = some p') (more : (p.worker w).kicks < (p'.worker w).kicks) :
    ∃ t, (label = .user (.cancel t) ∨ label = .user (.taskFree t)) ∧ p.Runs w t := by
  cases label with
  | worker v act => exact absurd more (Nat.not_lt_of_le (workerStep_fewer taken w))
  | user call =>
    rcases userStep_cases taken with ⟨_, called⟩ | ⟨_, _, resumed⟩
    · rcases call_cases called with calm | ⟨t, label, isOpen, started, _, code⟩
      · exact absurd more (Nat.not_lt_of_le (calm.fewer w))
      · refine ⟨t, label.imp (congrArg _) (congrArg _), ?_⟩
        obtain ⟨v, runs⟩ := sound.placed.started_run t ⟨heeds.made t started, isOpen, rfl⟩ started
        have named : (p.task t).worker = some v := heeds.named v t runs
        rw [code] at more
        simp only [kick, modWorker, Core.modTask, named, Option.getD_some, Function.update_apply]
          at more
        split at more
        · rename_i isV; subst isV; exact runs
        · exact absurd more (Nat.lt_irrefl _)
    · exact absurd more (Nat.not_lt_of_le ((resume_calm resumed).fewer w))

/-! ### Once the call is made -/

/-- The blocking call of a task returns: the `recv` of a read, the `accept` of an accept. -/
def Performs (p : Pool) (t : TaskId) (label : Label) : Prop :=
  ∃ w, p.At w t .call ∧ ((∃ n errno, label = .worker w (.ret n errno)) ∨
    ∃ errno, label = .worker w (.retFd errno))

/-- A task has made its call, and nothing but the closing of its socket overrules the outcome. -/
def Performed (c : Core) (t : TaskId) : Prop :=
  (∃ w res newfd, c.At w t (.commit res newfd) ∧ res.status ≠ .canceled) ∨
    t < c.ntask ∧ (c.task t).done = true ∧ ((c.task t).res.status ≠ .canceled ∨
      ∃ s, (c.task t).sock = some s ∧ s < c.nsock ∧ (c.sock s).closing = true)

theorem performed_of_performs {label : Label} (performs : p.Performs t label)
    (taken : p.step label = some p') : Performed p'.toCore t := by
  obtain ⟨w, at_, ⟨n, errno, rfl⟩ | ⟨errno, rfl⟩⟩ := performs
  · have taken : some _ = some p' := step_own at_ taken
    cases taken
    exact .inl ⟨w, callResult (p.task t).kind n errno, none,
      ⟨at_.1, by simp [on_toCore, Core.setPc, modWorker]⟩, callResult_uncanceled _ _ _⟩
  · have taken := step_own at_ taken
    unfold runStep at taken
    dsimp only at taken
    split at taken
    · cases taken
      exact .inl ⟨w, rErr errno, some p.ndesc, ⟨at_.1, by simp [on_toCore, Core.setPc, modWorker]⟩,
        by simp⟩
    · cases taken
      exact .inl ⟨w, rOk 0 none, some p.ndesc, ⟨at_.1, by simp [on_toCore, Core.setPc, modWorker]⟩,
        by simp⟩
    · cases taken

/-- A commit leaves the outcome of the call, unless the socket is closing. -/
theorem performed_commit {res : Result} {newfd : Option Fd} (linked : Bool) (sound : Sound p.rest)
    (down : p.WoundDown) (at_ : p.At w t (.commit res newfd)) (found : res.status ≠ .canceled)
    (later : Later p.toCore (p.workerCommit w t res newfd linked).toCore) :
    Performed (p.workerCommit w t res newfd linked).toCore t := by
  have inside : t < p.ntask := (sound.placed.run_pending w t at_.runs).1.1
  have ended := workerCommit_res linked sound at_ down
  obtain ⟨q, res', _, _, code⟩ := workerCommit_eq linked sound at_ down
  obtain ⟨done, _⟩ := commit_res (q.leave t).toCore t res'
  rw [← code] at done
  refine .inr ⟨Nat.lt_of_lt_of_le inside later.ntask, done, ?_⟩
  by_cases canceled : ((p.workerCommit w t res newfd linked).task t).res.status = .canceled
  · rcases ended canceled with found' | ⟨s, sock, closing⟩
    · exact absurd found' found
    · have before : (p.task t).sock = some s := (later.args t inside).2.1.symm.trans sock
      have made : s < p.nsock := sound.closes.sock_bound t s inside before
      exact .inr ⟨s, sock, Nat.lt_of_lt_of_le made later.nsock, closing⟩
  · exact .inl canceled

/-- A task that is done stays as it ended. -/
theorem Performed.ended_later {c c' : Core} (inside : t < c.ntask) (done : (c.task t).done = true)
    (ended : (c.task t).res.status ≠ .canceled ∨
      ∃ s, (c.task t).sock = some s ∧ s < c.nsock ∧ (c.sock s).closing = true)
    (later : Later c c') : Performed c' t := by
  obtain ⟨done', res⟩ := later.done t inside done
  refine .inr ⟨Nat.lt_of_lt_of_le inside later.ntask, done', ?_⟩
  rcases ended with found | ⟨s, sock, made, closing⟩
  · exact .inl (by rw [res]; exact found)
  · exact .inr ⟨s, (later.args t inside).2.1.trans sock, Nat.lt_of_lt_of_le made later.nsock,
      later.closing s made closing⟩

theorem Performed.step {label : Label} (performed : Performed p.toCore t) (good : p.Good)
    (obeyed : p.obeys label = true) (taken : p.step label = some p') : Performed p'.toCore t := by
  have later : Later p.toCore p'.toCore := Later.moves (step_moves (o := fun _ _ => True) good.sound
    good.tidy good.crew obeyed (fun _ _ _ => trivial) trivial (.inr fun _ => trivial) taken) good.sound
  rcases performed with ⟨w, res, newfd, at_, found⟩ | ⟨inside, done, ended⟩
  · by_cases own : ∃ act, label = .worker w act
    · obtain ⟨act, rfl⟩ := own
      have taken := step_own at_ taken
      cases act with
      | commit linked =>
        cases taken
        exact performed_commit linked good.sound good.tidy.down at_ found later
      | _ => cases taken
    · have other : ∀ act, label ≠ .worker w act := fun act is => own ⟨act, is⟩
      exact .inl ⟨w, res, newfd, (step_others other taken).mpr at_, found⟩
  · exact ended_later inside done ended later

theorem Performed.run {q : Pool} (performed : Performed p.toCore t) (good : p.Good) (run : Run p q) :
    Performed q.toCore t := by
  induction run with
  | refl => exact performed
  | snoc before obeyed taken ih => exact ih.step (Run.good_of before good) obeyed taken

/-! ### The wait -/

/-- A worker is in `cancelable_wait`: about to look at the flag, or in the poll. -/
def Waits (c : Core) (w : WorkerId) (t : TaskId) : Prop := c.At w t .check ∨ c.At w t .polling

/-- An interrupted poll goes back to the flag, and takes nothing but a signal with it. -/
theorem poll_interrupted (at_ : p.At w t .polling)
    (taken : p.step (.worker w (.poll true)) = some p') :
    p'.At w t .check ∧ p'.task = p.task ∧ p'.sock = p.sock ∧ p'.socks = p.socks ∧
      p'.desc = p.desc ∧ p'.queue = p.queue := by
  have taken := step_own at_ taken
  cases taken
  exact ⟨⟨at_.1, by simp [on_toCore, Core.setPc, modWorker]⟩, rfl, rfl, rfl, rfl, rfl⟩

/-- With the flag down and time left, a worker at the flag goes into the poll. -/
theorem check_again {expired : Bool} (at_ : p.At w t .check) (unflagged : (p.task t).cancelReq = false)
    (left : expired = false ∨ (p.task t).kind ≠ .opSleep)
    (taken : p.step (.worker w (.check expired)) = some p') :
    p'.At w t .polling ∧ p'.task = p.task := by
  have taken := step_own at_ taken
  unfold runStep at taken
  have goes : ¬ (expired && (p.task t).kind = .opSleep) = true := by
    rcases left with early | kind
    · simp [early]
    · simp [kind]
  simp only [unflagged, Bool.false_eq_true, if_false, if_neg goes] at taken
  cases taken
  exact ⟨⟨at_.1, by simp [on_toCore, Core.setPc, modWorker]⟩, rfl⟩

/-- How a worker gets out of `cancelable_wait`. -/
theorem waits_over {label : Label} {phase : Phase} (waits : Waits p.toCore w t)
    (taken : p.step label = some p') (there : p'.At w t phase) :
    Waits p'.toCore w t ∨ (phase = .commit rCanceled none ∧ (p.task t).cancelReq = true) ∨
      (phase = .call ∧ (label = .worker w (.poll false) ∨
        (label = .worker w (.check true) ∧ (p.task t).kind = .opSleep))) := by
  by_cases own : ∃ act, label = .worker w act
  · obtain ⟨act, rfl⟩ := own
    have lands : ∀ {next : Phase}, p' = p.on (·.setPc w (.running t next)) → phase = next := by
      rintro next rfl
      have pc := there.2
      simp only [on_toCore, Core.setPc, modWorker, Function.update_self, Pc.running.injEq] at pc
      exact pc.2.symm
    rcases waits with at_ | at_
    · have taken := step_own at_ taken
      cases act with
      | check expired =>
        unfold runStep at taken
        dsimp only at taken
        split at taken
        · rename_i flag
          exact .inr (.inl ⟨lands (Option.some.inj taken).symm, flag⟩)
        · split at taken
          · rename_i past
            simp only [Bool.and_eq_true, decide_eq_true_eq] at past
            refine .inr (.inr ⟨lands (Option.some.inj taken).symm, .inr ⟨?_, past.2⟩⟩)
            rw [past.1]
          · refine .inl (.inr ?_)
            rw [lands (Option.some.inj taken).symm] at there
            exact there
      | _ => cases taken
    · cases act with
      | poll interrupted =>
        cases interrupted with
        | true => exact .inl (.inl (poll_interrupted at_ taken).1)
        | false =>
          have taken := step_own at_ taken
          exact .inr (.inr ⟨lands (Option.some.inj taken).symm, .inl rfl⟩)
      | _ => cases step_own at_ taken
  · have other : ∀ act, label ≠ .worker w act := fun act is => own ⟨act, is⟩
    exact .inl (waits.imp (step_others other taken).mpr (step_others other taken).mpr)

/-- The cancellation protocol, as it shows in one state and the steps out of it. -/
structure Protocol (p : Pool) : Prop where
  /-- The thread signalled for a task is running the task at that moment. -/
  signalled : ∀ label p' w, p.step label = some p' → (p.worker w).kicks < (p'.worker w).kicks →
    ∃ t, (label = .user (.cancel t) ∨ label = .user (.taskFree t)) ∧ p.Runs w t
  /-- A sleep, read or accept ends canceled only if it was asked to stop or never started. -/
  canceled : ∀ t, t < p.ntask → (p.task t).done = true → (p.task t).res.status = .canceled →
    opInterruptible (p.task t).kind = true →
    (p.task t).cancelReq = true ∨ (∃ s, (p.task t).sock = some s ∧ (p.sock s).closing = true) ∨
      (p.task t).started = false
  /-- What ends canceled has made no call, unless its socket is closing. -/
  unperformed : ∀ t label p' q, p.Performs t label → p.obeys label = true →
    p.step label = some p' → Run p' q → (q.task t).done = true → (q.task t).res.status = .canceled →
    ∃ s, (q.task t).sock = some s ∧ (q.sock s).closing = true
  /-- A signal that interrupts the poll changes no task and no socket. -/
  interrupted : ∀ w t p', p.At w t .polling → p.step (.worker w (.poll true)) = some p' →
    p'.At w t .check ∧ p'.task = p.task ∧ p'.sock = p.sock ∧ p'.socks = p.socks ∧
      p'.desc = p.desc ∧ p'.queue = p.queue
  /-- A task that is not flagged and whose time is not up polls again. -/
  again : ∀ w t expired p', p.At w t .check → (p.task t).cancelReq = false →
    expired = false ∨ (p.task t).kind ≠ .opSleep → p.step (.worker w (.check expired)) = some p' →
    p'.At w t .polling ∧ p'.task = p.task
  /-- The wait ends by the task's own flag, its own deadline, or the poll's own return. -/
  past : ∀ w t phase label p', Waits p.toCore w t → p.step label = some p' → p'.At w t phase →
    Waits p'.toCore w t ∨ (phase = .commit rCanceled none ∧ (p.task t).cancelReq = true) ∨
      (phase = .call ∧ (label = .worker w (.poll false) ∨
        (label = .worker w (.check true) ∧ (p.task t).kind = .opSleep)))
  /-- No worker is stuck in the poll with its task flagged and no signal coming. -/
  coming : ∀ w t, p.At w t .polling → (p.task t).cancelReq = true → 0 < (p.worker w).kicks

/-- The cancellation protocol of the thread pool, in every state of every run. -/
theorem cancel_protocol {os : Os} (run : Run (Pool.new os) p) : p.Protocol := by
  have good := Run.good run
  have heeds := Run.heeds run
  constructor
  case signalled => exact fun label p' w taken more => signalled_runs good.sound heeds taken more
  case canceled =>
    intro t inside done canceled interruptible
    cases started : (p.task t).started with
    | false => exact .inr (.inr rfl)
    | true => exact (heeds.ended t inside done canceled interruptible started).imp id .inl
  case unperformed =>
    intro t label p' q performs obeyed taken more done canceled
    rcases (performed_of_performs performs taken).run (good.step obeyed taken) more with
      ⟨w, _, _, at_, _⟩ | ⟨_, _, other | ⟨s, sock, _, closing⟩⟩
    · -- A task whose worker has not committed is not done.
      have isOpen := ((Run.good_of more (good.step obeyed taken)).sound.placed.run_pending w t at_.runs).1.2.1
      exact absurd (isOpen.symm.trans done) (by simp)
    · exact absurd canceled other
    · exact ⟨s, sock, closing⟩
  case interrupted => exact fun w t p' => poll_interrupted
  case again => exact fun w t expired p' => check_again
  case past => exact fun w t phase label p' => waits_over
  case coming => exact heeds.coming

/-- A sleep that is being canceled: its worker is in the poll, flagged, with the signal pending. -/
def lateKick : List Label :=
  [.user .sleep, .worker 0 .main, .worker 0 .enter, .worker 0 (.check false), .user (.cancel 0)]

/-- The worker has a signal coming, and the cancel sent it to the thread that runs the sleep. -/
theorem cancel_protocol_lateKick :
    0 < ((after lateKick).worker 0).kicks ∧
      ∃ t, (Label.user (.cancel 0) = .user (.cancel t) ∨ Label.user (.cancel 0) = .user (.taskFree t)) ∧
        (after (lateKick.take 4)).Runs 0 t := by
  have here := cancel_protocol (run_after lateKick (by decide +kernel))
  have before := cancel_protocol (run_after (lateKick.take 4) (by decide +kernel))
  refine ⟨here.coming 0 0 ⟨by decide +kernel, by decide +kernel⟩ (by decide +kernel), ?_⟩
  have idle : (after (lateKick.take 4)).user = .idle := by decide +kernel
  have taken : (after (lateKick.take 4)).step (.user (.cancel 0)) =
      some ((after (lateKick.take 4)).implCancel 0) := by simp [step, userStep, idle, call]
  exact before.signalled _ _ 0 taken (by decide +kernel)

end Pool

end Myio
