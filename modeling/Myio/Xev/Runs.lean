import Myio.Lib.Path
import Myio.Xev.Calls

/-! The pointers of the libxev backend over whole runs. -/

namespace Myio.Xev.Io

open Function (update)

variable {io io' : Io} {skip : Option SockId} {t u : TaskId} {s : SockId} {k : Task}
  {r : Result → Result}

/-! ### Lifetime -/

/-- The pointers are in order, and nobody names a task or a socket that was never made. -/
structure Sound (io : Io) : Prop where
  wired : Wired none io
  held : ∀ t, io.held t = true → t < io.ntask
  claimed : ∀ s, io.claimed s = true → s < io.nsock
  reap : ∀ t ∈ io.reap, t < io.ntask
  goal : ∀ before t, io.user = .turning (.settle t) before ∨ io.user = .turning (.drain t) before →
    t < io.ntask

namespace Sound

theorem new (backend : Backend) : Sound (Io.new backend) := by
  -- There is no task yet, so every list and every slot is empty.
  have noTasks : ∀ s, (Io.new backend).pend s = [] := fun _ => rfl
  refine ⟨?_, by simp [Io.new], by simp [Io.new], by simp [Io.new], by simp [Io.new]⟩
  constructor
  case read => intro s t; simp [Io.new]
  case accept => intro s t; simp [Io.new]
  case fifo =>
    intro s _
    rw [noTasks]
    refine ⟨?_, ?_, List.nodup_nil⟩ <;> simp [Io.new, chain, Machine.Chain.Seg]
  case armed => intro s t pends; simp [pends_iff, Io.new] at pends
  case tasks => intro t; exact .new _ _ _
  case freshTask => intro t _; rfl
  case freshSock => intro s _; rfl

/-- A part of a step names nothing strange. -/
theorem goes (sound : Sound io) (goes : Goes io io') : Sound io' where
  wired := goes.wired
  held t holds := by
    rw [goes.frame.held] at holds
    rw [goes.frame.ntask]; exact sound.held t holds
  claimed s claims := by
    rw [goes.frame.claimed] at claims
    exact Nat.lt_of_lt_of_le (sound.claimed s claims) goes.frame.nsock
  reap t there := by
    rw [goes.frame.ntask]
    exact (goes.frame.reap t there).elim (sound.reap t) id
  goal before t turning := by
    rw [goes.frame.user] at turning
    rw [goes.frame.ntask]; exact sound.goal before t turning

theorem taskNew (sound : Sound io) (kind : Kind) : Sound (io.taskNew kind) where
  wired := sound.wired.taskNew kind
  held t holds := by
    simp only [Io.taskNew, Function.update_apply] at holds ⊢
    split at holds
    · rename_i isNew; rw [isNew]; exact Nat.lt_succ_self _
    · exact Nat.lt_succ_of_lt (sound.held t holds)
  claimed := sound.claimed
  reap t there := Nat.lt_succ_of_lt (sound.reap t there)
  goal before t turning := Nat.lt_succ_of_lt (sound.goal before t turning)

/-- What is neither a task nor a socket is written. -/
theorem aside (sound : Sound io) (task : io'.task = io.task) (sock : io'.sock = io.sock)
    (ntask : io'.ntask = io.ntask) (nsock : io'.nsock = io.nsock)
    (held : ∀ t, io'.held t = true → t < io.ntask)
    (claimed : ∀ s, io'.claimed s = true → s < io.nsock)
    (reap : ∀ t ∈ io'.reap, t < io.ntask)
    (goal : ∀ before t,
      io'.user = .turning (.settle t) before ∨ io'.user = .turning (.drain t) before →
        t < io.ntask) : Sound io' where
  wired := sound.wired.aside task sock ntask nsock
  held := by rw [ntask]; exact held
  claimed := by rw [nsock]; exact claimed
  reap := by rw [ntask]; exact reap
  goal := by rw [ntask]; exact goal

/-- The user thread is elsewhere. -/
theorem moved (sound : Sound io) (user : User) (ret : Option Ret)
    (goal : ∀ before t, user = .turning (.settle t) before ∨ user = .turning (.drain t) before →
      t < io.ntask) :
    Sound { io with user, ret } :=
  sound.aside rfl rfl rfl rfl sound.held sound.claimed sound.reap goal

theorem idle (sound : Sound io) (ret : Option Ret) : Sound { io with user := .idle, ret } :=
  sound.moved .idle ret (by simp)

/-- A task's memory is released. -/
theorem destroys (wired : Wired none io) (inside : t < io.ntask) : Goes io (io.taskDestroy t) := by
  -- The counts that change are nobody's link.
  unfold Io.taskDestroy
  split
  · have counted : Wired none { io with detachedLive := io.detachedLive - 1 } :=
      wired.aside rfl rfl rfl rfl
    exact ⟨counted.note inside rfl, .tables rfl rfl rfl rfl rfl rfl⟩
  · exact ⟨wired.note inside rfl, .modTask _ _ _⟩

/-- By induction on the list, whose members are all names of tasks. -/
theorem reapEach : ∀ (l : List TaskId) {io : Io}, Wired none io → (∀ t ∈ l, t < io.ntask) →
    Goes io (io.reapEach l) := by
  intro l
  induction l with
  | nil => intro io wired _; exact wired.stays
  | cons t rest ih =>
    intro io wired inside
    have first : Goes io (if io.taskIdle t then io.taskDestroy t else io) := by
      split
      · exact destroys wired (inside t (by simp))
      · exact wired.stays
    refine first.trans (ih first.wired fun u member => ?_)
    rw [first.frame.ntask]
    exact inside u (by simp [member])

theorem reapDetached (sound : Sound io) : Sound io.reapDetached := by
  -- What stays on the list was on it before.
  have each := sound.goes (reapEach io.reap sound.wired sound.reap)
  refine each.aside rfl rfl rfl rfl each.held each.claimed (fun t there => ?_) each.goal
  rw [(reapEach io.reap sound.wired sound.reap).frame.ntask]
  exact sound.reap t (List.mem_of_mem_filter there)

/-- `implTaskFree` returns, with the handle given up. -/
theorem freeEnd (sound : Sound io) (inside : t < io.ntask) : Sound (io.freeEnd t) := by
  have gone := sound.goes (destroys sound.wired inside)
  refine gone.aside rfl rfl rfl rfl (fun u holds => ?_) gone.claimed gone.reap (by simp [Io.freeEnd])
  have same : (io.taskDestroy t).held = io.held := (destroys sound.wired inside).frame.held
  refine gone.held u ?_
  rw [same]
  simp only [Io.freeEnd, Function.update_apply] at holds
  split at holds
  · cases holds
  · exact holds

theorem freeDrain (sound : Sound io) (inside : t < io.ntask) : Sound (io.freeDrain t) := by
  unfold Io.freeDrain
  split
  · exact sound.freeEnd inside
  · refine sound.moved _ _ fun before u turning => ?_
    simp only [User.turning.injEq, Goal.drain.injEq, reduceCtorEq, false_and, false_or] at turning
    exact turning.1 ▸ inside

theorem freeSettle (sound : Sound io) (inside : t < io.ntask) : Sound (io.freeSettle t) := by
  unfold Io.freeSettle
  split
  · exact sound.freeDrain inside
  · refine sound.moved _ _ fun before u turning => ?_
    simp only [User.turning.injEq, Goal.settle.injEq, reduceCtorEq, false_and, or_false] at turning
    exact turning.1 ▸ inside

theorem implTaskFree (sound : Sound io) (inside : t < io.ntask) : Sound (io.implTaskFree t) := by
  unfold Io.implTaskFree
  split
  · exact sound.freeDrain inside
  · -- The cancel comes first; then the loop is turned until the task is done.
    have asked := sound.wired.implCancel inside
    exact (sound.goes asked).freeSettle (by rw [asked.frame.ntask]; exact inside)

/-- A detached task gives up the socket it has won. -/
theorem discardResult (wired : Wired none io) (inside : t < io.ntask) :
    Goes io (io.discardResult t) := by
  have fine := wired.tasks t
  cases ptr : (io.task t).res.ptr with
  | none =>
    have same : io.discardResult t = io := by rw [Io.discardResult, ptr]
    rw [same]
    exact wired.stays
  | some s =>
    have bare := wired.touch (t := t) (f := fun k => { k with res := { k.res with ptr := none } })
      inside rfl
      ⟨fine.aimed, fine.closing, fine.closingFile, fine.connecting, fine.undone, fine.points,
        (by intro x there; cases there), fine.pooled, fine.canceling, fine.sends⟩
    have same : io.discardResult t =
        (io.modTask t fun k => { k with res := { k.res with ptr := none } }).sockDiscardAsync s := by
      rw [Io.discardResult, ptr]
    rw [same]
    exact .trans ⟨bare, .modTask _ _ _⟩ (bare.sockDiscardAsync (fine.won s ptr).1)

/-- The end of `implTaskDetach`, when the task is marked. -/
theorem detachEnd (sound : Sound io) (inside : t < io.ntask) :
    Sound (if (io.task t).done = false then io
      else if (io.discardResult t).taskIdle t then (io.discardResult t).taskDestroy t
      else { io.discardResult t with reap := t :: (io.discardResult t).reap }) := by
  split
  · exact sound
  have discarded := discardResult sound.wired inside
  have sound := sound.goes discarded
  have insideD : t < (io.discardResult t).ntask := by rw [discarded.frame.ntask]; exact inside
  split
  · exact sound.goes (destroys sound.wired insideD)
  · refine sound.aside rfl rfl rfl rfl sound.held sound.claimed (fun u there => ?_) sound.goal
    rcases List.mem_cons.mp there with rfl | there
    · exact insideD
    · exact sound.reap u there

/-- A task is marked as detached. -/
theorem detachMark (sound : Sound io) (inside : t < io.ntask) :
    Sound { io.modTask t ({ · with detached := true }) with
      detachedLive := (io.modTask t ({ · with detached := true })).detachedLive + 1 } := by
  have marked : Goes io (io.modTask t ({ · with detached := true })) :=
    ⟨sound.wired.note inside rfl, .modTask _ _ _⟩
  have sound := sound.goes marked
  exact sound.aside rfl rfl rfl rfl sound.held sound.claimed sound.reap sound.goal

theorem implTaskDetach (sound : Sound io) (inside : t < io.ntask) :
    Sound (io.implTaskDetach t) := by
  have dropped : ∀ (v : Io) (o : Option SockId), Sound v → Sound (v.dropClaim o) := by
    intro v o sound
    cases o with
    | none => exact sound
    | some s =>
      refine sound.aside rfl rfl rfl rfl sound.held (fun x claims => ?_) sound.reap sound.goal
      simp only [Io.dropClaim, Function.update_apply] at claims
      split at claims
      · cases claims
      · exact sound.claimed x claims
  -- The caller gives up the socket and the handle, and then the task is marked.
  have given := dropped io (io.task t).res.ptr sound
  have same : (io.dropClaim (io.task t).res.ptr).ntask = io.ntask := by
    cases (io.task t).res.ptr <;> rfl
  have unheld : Sound { io.dropClaim (io.task t).res.ptr with held := update io.held t false } := by
    refine given.aside rfl rfl rfl rfl (fun u holds => ?_) given.claimed given.reap given.goal
    simp only [Function.update_apply] at holds
    split at holds
    · cases holds
    · rw [same]; exact sound.held u holds
  unfold Io.implTaskDetach
  dsimp only
  have insideV : t < (io.dropClaim (io.task t).res.ptr).ntask := by rw [same]; exact inside
  exact detachEnd (detachMark unheld insideV) insideV

theorem implTaskResult (sound : Sound io) (t : TaskId) : Sound (io.implTaskResult t) := by
  cases ptr : (io.task t).res.ptr with
  | none =>
    have same : io.implTaskResult t = io := by rw [Io.implTaskResult, ptr]
    rw [same]; exact sound
  | some s =>
    -- What a task has won is a socket that was made.
    have same : io.implTaskResult t = { io with claimed := update io.claimed s true } := by
      rw [Io.implTaskResult, ptr]
    rw [same]
    refine sound.aside rfl rfl rfl rfl sound.held (fun x claims => ?_) sound.reap sound.goal
    simp only [Function.update_apply] at claims
    split at claims
    · rename_i isS; rw [isS]; exact ((sound.wired.tasks t).won s ptr).1
    · exact sound.claimed x claims

theorem implTcpListen (sound : Sound io) (port : Int) (ans : Listening) :
    Sound (io.implTcpListen port ans) := by
  have refused : ∀ err, Sound { io with ret := some (.listened none err) } := fun err =>
    sound.aside rfl rfl rfl rfl sound.held sound.claimed sound.reap sound.goal
  unfold Io.implTcpListen
  split
  · exact refused _
  cases ans with
  | badHost => exact refused _
  | noMem => exact refused _
  | refused err => exact refused _
  | listening =>
    have made := sound.goes sound.wired.sockNew
    refine made.aside rfl rfl rfl rfl made.held (fun x claims => ?_) made.reap made.goal
    simp only [Function.update_apply] at claims
    split at claims
    · rename_i isNew; rw [isNew]; exact Nat.lt_succ_self _
    · exact Nat.lt_succ_of_lt (sound.claimed x claims)

/-! ### A step -/

theorem destroyLoop (sound : Sound io) (alive : io.destroyLoop.user ≠ .destroyed) :
    Sound io.destroyLoop := by
  unfold Io.destroyLoop at alive ⊢
  split at alive
  · rename_i left
    rw [if_pos left]
    exact sound.moved _ io.ret (by simp)
  · exact absurd rfl alive

theorem stepped (sound : Sound io) (rc : Bool) (goal : Goal)
    (inside : ∀ t, goal = .settle t ∨ goal = .drain t → t < io.ntask)
    (alive : (io.stepped rc goal).user ≠ .destroyed) : Sound (io.stepped rc goal) := by
  -- One case for each call that turns the loop, at the condition it comes back to.
  cases goal with
  | step => exact sound.idle _
  | settle t =>
    have inside := inside t (.inl rfl)
    cases rc with
    | true => exact sound.freeSettle inside
    | false => exact sound.freeDrain inside
  | drain t =>
    have inside := inside t (.inr rfl)
    cases rc with
    | true => exact sound.freeDrain inside
    | false => exact sound.freeEnd inside
  | destroy =>
    cases rc with
    | true => exact sound.destroyLoop alive
    | false => exact absurd rfl alive

/-- `loop.run` has returned to the call it was made for. -/
theorem turnEnd (sound : Sound io) {goal : Goal} {before : Nat}
    (turning : io.user = .turning goal before) (ran : Bool) (alive : (io.turnEnd goal before ran).user ≠ .destroyed) :
    Sound (io.turnEnd goal before ran) := by
  -- The task a turn is for was made before the turn began.
  have inside : ∀ t, goal = .settle t ∨ goal = .drain t → t < io.ntask := by
    rintro t (rfl | rfl)
    · exact sound.goal before t (.inl turning)
    · exact sound.goal before t (.inr turning)
  unfold Io.turnEnd at alive ⊢
  split
  · rename_i isRan
    rw [if_pos isRan] at alive
    refine sound.reapDetached.stepped _ goal ?_ alive
    have same : io.reapDetached.ntask = io.ntask :=
      (reapEach io.reap sound.wired sound.reap).frame.ntask
    rw [same]; exact inside
  · rename_i failed
    rw [if_neg failed] at alive
    have broken : Sound { io with broken := true } :=
      sound.aside rfl rfl rfl rfl sound.held sound.claimed sound.reap sound.goal
    exact broken.stepped _ goal inside alive

/-- libxev runs the callback of an active completion only, which is what each of them relies on. -/
theorem callback (sound : Sound io) (cb : Cb) (may : io.libxev (.loop cb) = true) :
    Sound (io.callback cb) := by
  refine sound.goes ?_
  have wired := sound.wired
  cases cb with
  | fileClose t r =>
    obtain ⟨-, active, kind⟩ := by simpa [libxev] using may
    exact wired.fileCloseCb active kind r
  | fileRead t r =>
    obtain ⟨-, active, kind⟩ := by simpa [libxev] using may
    exact wired.fileReadCb active kind r
  | fileWrite t r =>
    obtain ⟨-, active, kind⟩ := by simpa [libxev] using may
    exact wired.fileWriteCb active kind r
  | timer t r =>
    obtain ⟨-, active, kind⟩ := by simpa [libxev] using may
    exact wired.timerCb active kind r
  | connect t r =>
    obtain ⟨-, active, kind⟩ := by simpa [libxev] using may
    exact wired.connectCb active kind r
  | accept t r =>
    obtain ⟨-, active, kind⟩ := by simpa [libxev] using may
    exact wired.acceptCb active kind r
  | sockRead t r =>
    obtain ⟨-, active, kind⟩ := by simpa [libxev] using may
    exact wired.sockReadCb active kind r
  | sockWrite t r =>
    simp only [libxev, Bool.and_eq_true, decide_eq_true_eq] at may
    exact wired.sockWriteCb may.2.1.1 may.2.1.2 r
  | sockClose t r =>
    obtain ⟨-, active, kind⟩ := by simpa [libxev] using may
    exact wired.sockCloseCb active kind r
  | poolDone t wait value errno connecting =>
    obtain ⟨-, active⟩ := by simpa [libxev] using may
    exact wired.poolDoneCb active wait value errno connecting
  | cancel t =>
    obtain ⟨-, active⟩ := by simpa [libxev] using may
    exact wired.cancelCb active
  | sockReap s =>
    obtain ⟨-, active⟩ := by simpa [libxev] using may
    exact wired.sockReapCb active

/-- The caller names what it holds, so a call writes through no strange handle. -/
theorem call (sound : Sound io) (c : Call) (obeys : io.obeys (.user c) = true)
    (alive : (io.call c).user ≠ .destroyed) : Sound (io.call c) := by
  have wired := sound.wired
  cases c with
  | «open» init => exact (sound.taskNew _).goes (wired.implOpen init)
  | close => exact (sound.taskNew _).goes (wired.starts_new rfl)
  | read len => exact (sound.taskNew _).goes (wired.fileSubmit len)
  | write len => exact (sound.taskNew _).goes (wired.fileSubmit len)
  | sleep init => exact (sound.taskNew _).goes (wired.implSleep init)
  | spawn init => exact (sound.taskNew _).goes (wired.implSpawn init)
  | tcpConnect port init => exact (sound.taskNew _).goes (wired.implTcpConnect port init)
  | tcpListen port ans => exact sound.implTcpListen port ans
  | tcpAccept s =>
    simp only [Io.obeys, Bool.and_eq_true] at obeys
    exact (sound.taskNew _).goes (wired.implTcpAccept (sound.claimed s obeys.1))
  | sockRead s len =>
    simp only [Io.obeys, Bool.and_eq_true] at obeys
    exact (sound.taskNew _).goes (wired.implSockRead (sound.claimed s obeys.1) len)
  | sockWrite s buf =>
    simp only [Io.obeys, Bool.and_eq_true] at obeys
    exact (sound.taskNew _).goes (wired.submitsWrite (sound.claimed s obeys.1) buf)
  | sockClose s =>
    simp only [Io.obeys, Bool.and_eq_true] at obeys
    exact (sound.taskNew _).goes (wired.implSockClose (sound.claimed s obeys.1))
  | step => exact sound.moved _ io.ret (by simp)
  | cancel t =>
    have asked := sound.goes (wired.implCancel (sound.held t obeys))
    exact asked.aside rfl rfl rfl rfl asked.held asked.claimed asked.reap asked.goal
  | taskResult t => exact sound.implTaskResult t
  | taskFree t => exact sound.implTaskFree (sound.held t obeys)
  | taskDetach t =>
    simp only [Io.obeys, Bool.and_eq_true] at obeys
    exact sound.implTaskDetach (sound.held t obeys.1)
  | destroy => exact sound.reapDetached.destroyLoop alive

/-- Every step keeps the pointers in order, until the instance is gone. -/
theorem step {label : Label} (sound : Sound io) (may : io.libxev label = true)
    (obeys : io.obeys label = true) (taken : io.step label = some io') (alive : io'.user ≠ .destroyed) : Sound io' := by
  cases label with
  | user c =>
    simp only [Io.step] at taken
    split at taken
    · cases taken
      exact sound.call c obeys alive
    · cases taken
  | loop cb =>
    simp only [Io.step] at taken
    split at taken
    · cases taken
      exact sound.callback cb may
    · cases taken
  | turnEnd ran =>
    simp only [Io.step] at taken
    split at taken
    · rename_i turning
      cases taken
      exact sound.turnEnd turning ran alive
    · cases taken

end Sound

/-! ### Whole runs -/

/-- The runs of an instance whose caller keeps to the rules. -/
def Runs : Io → Io → Prop :=
  Machine.Path step fun io label => io.libxev label = true ∧ io.obeys label = true

/-- A destroyed instance takes no step. -/
theorem step_destroyed (gone : io.user = .destroyed) (label : Label) : io.step label = none := by
  cases label <;> simp [step, gone]

/-- By induction on the run: a step into an instance that is alive leaves one that is alive. -/
theorem Sound.runs {backend : Backend} (run : Runs (.new backend) io) :
    io.user ≠ .destroyed → Sound io := by
  refine Machine.Path.invariant (fun io => io.user ≠ .destroyed → Sound io) ?_ run
    fun _ => .new backend
  intro io label io' sound may taken alive
  -- Nothing follows the end of an instance, so the step began in one that was alive.
  have before : io.user ≠ .destroyed := fun gone => by
    rw [step_destroyed gone] at taken
    cases taken
  exact (sound before).step may.1 may.2 taken alive

end Myio.Xev.Io
