import Myio.ZPool.Stable

/-!
What `workers[i].current` names.

A worker sets it as it takes a task, in the critical section that takes it, and clears it when it is
back at the top of its loop: one critical section after the one that marks the task done.
-/

namespace Myio.ZPool

open Function (update)
open Core

variable {z z' y : ZPool} {t : TaskId} {s : SockId} {w : WorkerId}

/-! ### The steps of the user thread -/

/-- No worker moves, except that one asleep may be woken. -/
structure Rouses (z z' : ZPool) : Prop where
  current : z'.current = z.current
  nworker : z'.nworker = z.nworker
  pc : ∀ w, (z'.worker w).pc = (z.worker w).pc ∨
    (z.worker w).pc = .asleep ∧ (z'.worker w).pc = .woken false

namespace Rouses

theorem refl (z : ZPool) : Rouses z z := ⟨rfl, rfl, fun _ => .inl rfl⟩

theorem trans {z'' : ZPool} (first : Rouses z z') (second : Rouses z' z'') : Rouses z z'' := by
  refine ⟨second.current.trans first.current, second.nworker.trans first.nworker, fun w => ?_⟩
  rcases second.pc w with same | ⟨slept, woken⟩
  · rw [same]; exact first.pc w
  · rcases first.pc w with same' | ⟨_, woken'⟩
    · exact .inr ⟨same'.symm.trans slept, woken⟩
    · rw [woken'] at slept; cases slept

/-- A change that moves no worker. -/
theorem aside (rouses : Rouses z y) (current : z'.current = y.current)
    (nworker : z'.nworker = y.nworker) (pc : ∀ w, (z'.worker w).pc = (y.worker w).pc) :
    Rouses z z' :=
  rouses.trans ⟨current, nworker, fun w => .inl (pc w)⟩

theorem apart (rouses : Rouses z y) (f : Core → Core) (apart : Pool.Apart y.toCore (f y.toCore)) :
    Rouses z (y.on f) := rouses.aside rfl apart.nworker apart.worker

theorem condSignal (rouses : Rouses z y) : Rouses z y.condSignal := by
  refine rouses.trans ?_
  unfold ZPool.condSignal
  cases chosen : y.signalled with
  | none => exact ⟨rfl, rfl, fun _ => .inl rfl⟩
  | some v =>
    -- The one that is woken was asleep.
    have asleep := asleep_of_signalled chosen
    simp only [isAsleep, Bool.and_eq_true, decide_eq_true_eq] at asleep
    refine ⟨rfl, rfl, fun w => ?_⟩
    by_cases same : w = v
    · subst same
      exact .inr ⟨asleep.2, by simp [on, setPc, modWorker]⟩
    · exact .inl (by simp [on, setPc, modWorker, same])

theorem kick (rouses : Rouses z y) (t : TaskId) : Rouses z (y.on (kick · t)) :=
  rouses.aside rfl (by rw [on_toCore, kick_rest]; rfl) fun w => kick_pc y.toCore t w

theorem settled (z : ZPool) : Settled (Rouses z) where
  piece rouses piece := rouses.apart _ (piece.apart _)
  slots rouses _ _ := rouses.aside rfl rfl fun _ => rfl
  enqueue rouses _ := condSignal (rouses.aside rfl rfl fun _ => rfl)
  kick := kick
  aside rouses _ _ _ _ _ _ _ _ _ _ _ := rouses.aside rfl rfl fun _ => rfl

theorem stable (z : ZPool) : Stable (Rouses z) := (settled z).toStable

theorem dropUnrun (rouses : Rouses z y) (t : TaskId) : Rouses z (y.dropUnrun t) := by
  have ended := (stable z).completeUnrun rouses t
  have given : Rouses z ((y.completeUnrun t rCanceled).dropHandle t) :=
    ended.aside rfl rfl fun _ => rfl
  exact Stable.ite ((settled z).reap given t) ended

theorem destroyQueue (n : Nat) : ∀ {y : ZPool}, Rouses z y → Rouses z (destroyQueue n y) := by
  induction n with
  | zero => exact id
  | succ n ih =>
    intro y rouses
    unfold ZPool.destroyQueue
    split
    · exact rouses
    · exact ih (rouses.dropUnrun _)

theorem destroyFifo (l : List TaskId) : ∀ {y : ZPool}, Rouses z y → Rouses z (y.destroyFifo l) := by
  induction l with
  | nil => exact id
  | cons t rest ih => exact fun rouses => ih (rouses.dropUnrun t)

theorem destroyFifos (l : List SockId) : ∀ {y : ZPool}, Rouses z y → Rouses z (y.destroyFifos l) := by
  induction l with
  | nil => exact id
  | cons s rest ih => exact fun rouses => ih (rouses.destroyFifo _)

theorem kickCurrent (l : List WorkerId) : ∀ {y : ZPool}, Rouses z y → Rouses z (y.kickCurrent l) := by
  induction l with
  | nil => exact id
  | cons w rest ih =>
    intro y rouses
    unfold ZPool.kickCurrent
    split
    · exact ih (Stable.ite (rouses.kick _) rouses)
    · exact ih rouses

theorem broadcast (rouses : Rouses z y) : Rouses z y.broadcast := by
  refine rouses.trans ⟨rfl, rfl, fun w => ?_⟩
  unfold ZPool.broadcast
  cases sleeps : y.isAsleep w with
  | true =>
    have asleep : y.isAsleep w = true := sleeps
    simp only [isAsleep, Bool.and_eq_true, decide_eq_true_eq] at asleep
    exact .inr ⟨asleep.2, by simp [sleeps]⟩
  | false => exact .inl (by simp [sleeps])

end Rouses

theorem rouses_swept (z : ZPool) : Rouses z z.swept := by
  have down : Rouses z { z with shutdown := true } := ⟨rfl, rfl, fun _ => .inl rfl⟩
  exact (down.destroyQueue _).destroyFifos _

/-- A vtable call moves no worker. -/
theorem call_rouses {c : Call} (taken : z.call c = some z') : Rouses z z' := by
  by_cases ends : c = .destroy
  · subst ends
    cases taken
    rw [implDestroy_eq]
    exact ((rouses_swept z).kickCurrent _).broadcast.aside rfl rfl fun _ => rfl
  · exact (Rouses.settled z).call (.refl z) ends taken

/-- Going on inside a call moves no worker. -/
theorem resume_rouses {linked : Bool} (taken : z.resume linked = some z') : Rouses z z' := by
  unfold ZPool.resume at taken
  split at taken
  · cases taken
    unfold wrapListener
    split <;> exact ⟨rfl, rfl, fun _ => .inl rfl⟩
  · cases taken
    unfold freeOn
    split <;> exact ⟨rfl, rfl, fun _ => .inl rfl⟩
  · cases taken
    unfold pollOn
    split
    · split
      · split <;> exact ⟨rfl, rfl, fun _ => .inl rfl⟩
      · exact ⟨rfl, rfl, fun _ => .inl rfl⟩
    · exact ⟨rfl, rfl, fun _ => .inl rfl⟩
    · split
      · split <;> exact ⟨rfl, rfl, fun _ => .inl rfl⟩
      · exact ⟨rfl, rfl, fun _ => .inl rfl⟩
  · cases taken
    unfold stepOn
    split <;> exact ⟨rfl, rfl, fun _ => .inl rfl⟩
  · cases taken
    unfold destroyOn
    split
    · refine ⟨rfl, ?_, fun w => .inl ?_⟩
      · change (Pool.closeSocks z.toCore z.socks).nworker = z.nworker
        rw [closeSocks_rest]
      · change ((Pool.closeSocks z.toCore z.socks).worker w).pc = (z.worker w).pc
        rw [closeSocks_rest]
    · exact .refl z
  · cases taken

theorem userStep_rouses {c : Call} (taken : z.userStep c = some z') : Rouses z z' := by
  rcases userStep_cases taken with ⟨_, taken⟩ | ⟨_, rfl, taken⟩
  · exact call_rouses taken
  · exact resume_rouses taken

/-! ### Seats -/

/-- What `current` names, by where the worker is. -/
def Seat (z : ZPool) (w : WorkerId) : Pc → Prop
  | .running t _ => z.current w = some t
  | .ready => ∀ t, z.current w = some t → t < z.ntask ∧ (z.task t).done = true
  | _ => z.current w = none

/-- A running worker's `current` names its task; a worker on its way back still names the last one. -/
def Seated (z : ZPool) : Prop := ∀ w, z.Seat w (z.worker w).pc

theorem Seat.later {pc : Pc} (seat : z.Seat w pc) (same : z'.current w = z.current w)
    (later : Later z.toCore z'.toCore) : z'.Seat w pc := by
  cases pc with
  | ready =>
    intro t named
    obtain ⟨inside, done⟩ := seat t (same ▸ named)
    exact ⟨Nat.lt_of_lt_of_le inside later.ntask, (later.done t inside done).1⟩
  | _ => exact same.trans seat

/-- A worker that is only woken keeps its seat. -/
theorem Seated.other (seated : z.Seated) (same : z'.current w = z.current w)
    (later : Later z.toCore z'.toCore)
    (pc : (z'.worker w).pc = (z.worker w).pc ∨
      (z.worker w).pc = .asleep ∧ (z'.worker w).pc = .woken false) :
    z'.Seat w (z'.worker w).pc := by
  have seat := (seated w).later same later
  rcases pc with same | ⟨slept, woken⟩
  · rw [same]; exact seat
  · rw [slept] at seat
    rw [woken]
    exact seat

theorem Seated.rouses (seated : z.Seated) (rouses : Rouses z z')
    (later : Later z.toCore z'.toCore) : z'.Seated :=
  fun w => seated.other (congrFun rouses.current w) later (rouses.pc w)

theorem complete_rouses (z : ZPool) (t : TaskId) (res : Result) : Rouses z (z.complete t res) := by
  have ended : Rouses z { z.on (·.finish t res) with
      nrunning := (z.on (·.finish t res)).nrunning - 1
      completions := ((z.on (·.finish t res)).completions + 1) % 2 ^ 32
      unseen := (z.on (·.finish t res)).unseen + 1 } := ⟨rfl, rfl, fun _ => .inl rfl⟩
  exact ended.apart _ (Pool.apart_reapIfDetached _ t)

/-- A worker's commit marks its task done, and brings the worker back. -/
theorem workerCommit_seat (z : ZPool) (w : WorkerId) (t : TaskId) (res : Result)
    (newfd : Option Fd) (linked : Bool) :
    Rouses (z.on (·.setPc w .ready)) (z.workerCommit w t res newfd linked) ∧
      ((z.workerCommit w t res newfd linked).task t).done = true := by
  let y := z.on (·.setPc w .ready)
  have wrapped := (Rouses.stable y).wrapWon (.refl y) res newfd linked
  have settled := (Rouses.stable y).settleSock wrapped t (y.wrapWon res newfd linked).2
  exact ⟨settled.trans (complete_rouses _ t _), (complete_task _ t _).1⟩

/-- A step that moves worker `w` and wakes others at most. -/
theorem Seated.moved {pc : Pc} (seated : z.Seated) (later : Later z.toCore z'.toCore)
    (rouses : Rouses (z.on (·.setPc w pc)) z') (seat : z'.Seat w pc) (free : pc ≠ .asleep) :
    z'.Seated := by
  intro v
  by_cases same : v = w
  · subst same
    rcases rouses.pc v with kept | ⟨slept, _⟩
    · rw [kept]
      simpa [on, setPc, modWorker] using seat
    · exact absurd (by simpa [on, setPc, modWorker] using slept) free
  · have other := rouses.pc v
    have before : ((z.on (·.setPc w pc)).worker v).pc = (z.worker v).pc := by
      simp [on, setPc, modWorker, same]
    rw [before] at other
    exact seated.other (congrFun rouses.current v) later other

/-- At the top of its loop a worker names what it takes, and nothing else. -/
theorem Seated.workerMain (seated : z.Seated) (free : z.current w = none)
    (later : Later z.toCore (z.workerMain w).toCore) : (z.workerMain w).Seated := by
  -- A worker that takes nothing has cleared its entry before.
  have idle : ∀ pc : Pc, (∀ y : ZPool, y.Seat w pc = (y.current w = none)) →
      Later z.toCore (z.on (·.setPc w pc)).toCore → (z.on (·.setPc w pc)).Seated := by
    intro pc names later v
    by_cases same : v = w
    · subst same
      simpa [on, setPc, modWorker, names] using free
    · exact seated.other rfl later (.inl (by simp [on, setPc, modWorker, same]))
  rcases workerMain_cases z w with ⟨t, rest, _, isNext⟩ | ⟨_, _, isNext⟩ | ⟨_, _, isNext⟩
  all_goals rw [isNext] at later ⊢
  · intro v
    by_cases same : v = w
    · subst same
      simp [take, on, setPc, modWorker, modTask, Seat]
    · refine seated.other (by simp [take, on, same]) later (.inl ?_)
      simp [take, on, setPc, modWorker, modTask, same]
  · exact idle .retired (fun _ => rfl) later
  · exact idle .asleep (fun _ => rfl) later

/-- A worker that runs a task goes on with it, or comes back with the task done. -/
theorem runStep_seat {phase : Phase} {act : Pool.Act} (taken : z.runStep w t phase act = some z') :
    (∃ phase', Rouses (z.on (·.setPc w (.running t phase'))) z') ∨
    Rouses (z.on (·.setPc w .ready)) z' ∧ (z'.task t).done = true := by
  rcases runStep_cases taken with goes | ⟨res, newfd, linked, _, rfl⟩ | ⟨_, rfl⟩
  · obtain ⟨phase', pc⟩ := goes.pc
    exact .inl ⟨phase', by rw [goes.rest]; rfl, by rw [goes.rest]; rfl, fun v => .inl (pc v)⟩
  · exact .inr (workerCommit_seat z w t res newfd linked)
  · exact .inr ⟨complete_rouses _ t _, (complete_task _ t _).1⟩

theorem Seated.workerStep {act : Pool.Act} (seated : z.Seated) (sound : Sound z.rest)
    (later : Later z.toCore z'.toCore) (taken : z.workerStep w act = some z') : z'.Seated := by
  have seat := seated w
  obtain ⟨inside, cases⟩ := workerStep_cases taken
  rcases cases with ⟨pc, rfl⟩ | ⟨pc, rfl⟩ | ⟨late, pc, rfl⟩ | ⟨t, phase, pc, ran⟩
  · rw [pc] at seat
    exact seated.moved later (.refl _) seat (by simp)
  · -- The worker forgets its task before it looks at the queue.
    have cleared : (z.clearCurrent w).Seated := by
      intro v
      by_cases same : v = w
      · subst same
        change (z.clearCurrent v).Seat v (z.worker v).pc
        rw [pc]
        intro t named
        simp [clearCurrent] at named
      · have before := seated v
        unfold Seat at before ⊢
        simpa [clearCurrent, same] using before
    exact cleared.workerMain (by simp [clearCurrent]) later
  · rw [pc] at seat
    exact seated.workerMain seat later
  · have runs : z.Runs w t := ⟨inside, by rw [pc]; rfl⟩
    have submitted : t < z.ntask := (sound.placed.run_pending w t runs).1.1
    rw [pc] at seat
    rcases runStep_seat ran with ⟨phase', rouses⟩ | ⟨rouses, done⟩
    · exact seated.moved later rouses ((congrFun rouses.current w).trans seat) (by simp)
    · refine seated.moved later rouses (fun u named => ?_) (by simp)
      obtain rfl : t = u := Option.some.inj
        (seat.symm.trans ((congrFun rouses.current w).symm.trans named))
      exact ⟨Nat.lt_of_lt_of_le submitted later.ntask, done⟩

theorem Run.seated {n : Nat} {pick : Nat → WorkerId → Bool} (run : Run (ZPool.new n pick) z) :
    z.Seated := by
  have both : z.Good ∧ z.Seated := by
    refine run.invariant (fun z => z.Good ∧ z.Seated) (fun z label z' before obeyed taken => ?_)
      ⟨.new n pick, fun w t named => by simp [ZPool.new] at named⟩
    obtain ⟨good, seated⟩ := before
    have moves : Moves (fun _ _ => True) z.rest z'.rest :=
      step_moves good.sound good.tidy good.slotted obeyed (fun _ _ _ => trivial) trivial
        (.inr fun _ => trivial) taken
    have later := Later.moves moves good.sound
    refine ⟨good.step obeyed taken, ?_⟩
    cases label with
    | worker w act => exact seated.workerStep good.sound later taken
    | user c => exact seated.rouses (userStep_rouses taken) later
  exact both.2

/-! ### What destroy reads -/

/-- Everything `impl_destroy` finds in `workers[i].current` is allocated and not done. -/
def ReadsLive (z : ZPool) : Prop := ∀ w t, w < z.nworker → z.swept.current w = some t →
  (z.swept.task t).frees = 0 ∧ (z.swept.task t).done = false

/-- No worker is between the commit of its task and the top of its loop. -/
def AllBack (z : ZPool) : Prop := ∀ w, w < z.nworker → (z.worker w).pc = .ready → z.current w = none

/-- The sweeps of destroy keep every invariant, and take nothing back. -/
theorem Good.swept (good : z.Good) : Sound z.swept.rest ∧ Later z.toCore z.swept.toCore := by
  obtain ⟨moves, _, _⟩ := tearDown_spec (o := fun _ _ => True) good.sound (fun _ _ => trivial)
    fun _ => trivial
  have core := (swept_spec good.sound good.slotted).1
  unfold Core.rest
  rw [core]
  exact ⟨good.sound.moves moves, Later.moves moves good.sound⟩

/--
From every reachable state: what `destroy` reads in the workers' entries is allocated and not done
exactly if no worker has committed a task without having been back at the top of its loop.
-/
theorem destroy_reads_live {n : Nat} {pick : Nat → WorkerId → Bool}
    (run : Run (ZPool.new n pick) z) : z.ReadsLive ↔ z.AllBack := by
  have seated := run.seated
  obtain ⟨sound, later⟩ := run.good.swept
  have rouses := rouses_swept z
  constructor
  · -- A worker on its way back names a task that is done, and the sweeps leave it done.
    intro live w inside back
    cases named : z.current w with
    | none => rfl
    | some t =>
      have seat := seated w
      rw [back] at seat
      obtain ⟨submitted, done⟩ := seat t named
      have isOpen := (live w t inside ((congrFun rouses.current w).trans named)).2
      rw [(later.done t submitted done).1] at isOpen
      cases isOpen
  · intro allBack w t inside named
    have named : z.current w = some t := (congrFun rouses.current w).symm.trans named
    have seat := seated w
    cases pc : (z.worker w).pc with
    | running u phase =>
      rw [pc] at seat
      obtain rfl : u = t := Option.some.inj (seat.symm.trans named)
      -- No sweep touches what a worker runs.
      have same : (z.swept.worker w).pc = .running u phase := by
        rcases rouses.pc w with same | ⟨slept, _⟩
        · exact same.trans pc
        · rw [pc] at slept; cases slept
      have runs : z.swept.Runs w u := ⟨rouses.nworker.symm ▸ inside, by rw [same]; rfl⟩
      obtain ⟨pending, _⟩ := sound.placed.run_pending w u runs
      have isOpen : (z.swept.task u).done = false := pending.2.1
      have frees := (sound.lives.each u pending.1).frees
      refine ⟨frees.trans ?_, isOpen⟩
      rw [show (z.swept.rest.core.task u).done = false from isOpen]
      rfl
    | ready => rw [allBack w inside pc] at named; cases named
    | asleep => rw [pc] at seat; exact absurd (seat.symm.trans named) (by simp)
    | woken timedOut => rw [pc] at seat; exact absurd (seat.symm.trans named) (by simp)
    | retired => rw [pc] at seat; exact absurd (seat.symm.trans named) (by simp)

/-- A sleep is over and freed while its worker is on its way back. -/
def freedOnTheWay : List Label :=
  [.user .sleep, .worker 0 .main, .worker 0 .enter, .worker 0 (.check true), .worker 0 (.ret 0 0),
    .worker 0 (.commit true), .user (.taskFree 0)]

/-- Destroy flags a task whose block is back in the slab, and kicks through it. -/
theorem destroy_reads_freed :
    (¬ ∀ n pick z, Run (ZPool.new n pick) z → z.user = .idle → z.ReadsLive) ∧
    ((after freedOnTheWay).swept.task 0).frees = 1 ∧
    ((after freedOnTheWay).implDestroy.task 0).cancelReq = true ∧
    ((after freedOnTheWay).implDestroy.worker 0).kicks = 1 := by
  refine ⟨fun always => ?_, by decide +kernel, by decide +kernel, by decide +kernel⟩
  have run := run_after freedOnTheWay (by decide +kernel)
  have live := (always _ _ _ run (by decide +kernel) 0 0 (by decide +kernel) (by decide +kernel)).2
  exact absurd live (by decide +kernel)

/-- A worker is waiting in a sleep. -/
def sleeping : List Label :=
  [.user .sleep, .worker 0 .main, .worker 0 .enter, .worker 0 (.check false)]

theorem destroy_reads_live_sleeping :
    (after sleeping).current 0 = some 0 ∧ (after sleeping).ReadsLive := by
  refine ⟨by decide +kernel, (destroy_reads_live (run_after sleeping (by decide +kernel))).mpr ?_⟩
  intro w inside back
  obtain rfl : w = 0 := Nat.lt_one_iff.mp inside
  exact absurd back (by decide +kernel)

end Myio.ZPool
