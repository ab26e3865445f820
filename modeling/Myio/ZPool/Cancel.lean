import Myio.Pool.Cancel
import Myio.ZPool.Seats

/-!
Cancellation on the Zephyr pool: the flag on the task, and the eventfd that ends its worker's poll.

The flag and the write to the eventfd come together, under the lock. One drain takes every write
there is, and the worker looks at the flag after it.
-/

namespace Myio.ZPool

open Function (update)
open Core
open Pool (Asked Heeds Waits Performed)

variable {z z' y : ZPool} {t : TaskId} {s : SockId} {w : WorkerId}
  {n : Nat} {pick : Nat → WorkerId → Bool}

/-! ### The calls -/

/-- A kick flags a task, and counts on the eventfd of the worker the task names. -/
theorem kick_spurs {c : Core} (staffed : Staffed c) (t : TaskId) : Spurs c (kick c t) := by
  have counted : kick c t =
      { c.modTask t ({ · with cancelReq := true }) with worker := (kick c t).worker } := by
    unfold kick
    dsimp only
    split <;> rfl
  have worker : ∀ w, ((kick c t).worker w).kicks =
      if (c.task t).worker = some w then (c.worker w).kicks + 1 else (c.worker w).kicks := by
    intro w
    unfold kick
    simp only [modTask, Function.update_self]
    cases (c.task t).worker with
    | none => simp
    | some v => simp only [modWorker, Function.update_apply, Option.some.injEq]; grind
  rw [counted]
  refine .kick staffed _ (kick_pc c t) (fun w => ?_) fun w named => ?_
  · rw [worker]; split <;> omega
  · rw [worker, if_pos named]; exact Nat.lt_succ_self _

/-- A signal on `work_cv` is not a kick. -/
theorem condSignal_calm (z : ZPool) : Calm z.toCore z.condSignal.toCore := by
  have kicks : ∀ w, (z.condSignal.worker w).kicks = (z.worker w).kicks := by
    intro w
    unfold condSignal
    split
    · simp only [on_toCore, setPc, modWorker, Function.update_apply]
      split
      · rename_i isW; subst isW; rfl
      · rfl
    · rfl
  exact .stirred (condSignal_stirred z) (fun w => Nat.le_of_eq (kicks w))
    fun w _ => Nat.le_of_eq (kicks w).symm

theorem enqueue_calm (z : ZPool) (t : TaskId) : Calm z.toCore (z.enqueue t).toCore := by
  have pushed : Calm z.toCore (z.on (·.queuePush t)).toCore := .of_rest rfl
  exact pushed.trans (condSignal_calm _)

/-- What the calls are made of sets no flag but with a kick. -/
theorem spurs_stable (c : Core) : Stable fun y => Spurs c y.toCore where
  piece spurs piece := spurs.trans (Pool.piece_calm piece _).spurs
  slots spurs _ _ := spurs
  enqueue spurs t := spurs.trans (enqueue_calm _ t).spurs

theorem dropUnrun_spurs {c : Core} (spurs : Spurs c y.toCore) (t : TaskId) :
    Spurs c (y.dropUnrun t).toCore := by
  have ended : Spurs c (y.completeUnrun t rCanceled).toCore := (spurs_stable c).completeUnrun spurs t
  have unheld : Calm (y.completeUnrun t rCanceled).toCore
      ((y.completeUnrun t rCanceled).dropHandle t).toCore := .of_rest rfl
  unfold dropUnrun
  dsimp only
  split
  · exact ended.trans (unheld.trans (Pool.calm_reap _ t)).spurs
  · exact ended

theorem swept_spurs (z : ZPool) : Spurs z.toCore z.swept.toCore := by
  have down : Spurs z.toCore ({ z with shutdown := true } : ZPool).toCore :=
    (Calm.of_rest rfl : Calm z.toCore ({ z with shutdown := true } : ZPool).toCore).spurs
  have queue : ∀ (n : Nat) (y : ZPool), Spurs z.toCore y.toCore →
      Spurs z.toCore (destroyQueue n y).toCore := by
    intro n
    induction n with
    | zero => exact fun _ => id
    | succ n ih =>
      intro y spurs
      unfold destroyQueue
      split
      · exact spurs
      · exact ih _ (dropUnrun_spurs spurs _)
  have fifo : ∀ (l : List TaskId) (y : ZPool), Spurs z.toCore y.toCore →
      Spurs z.toCore (y.destroyFifo l).toCore := by
    intro l
    induction l with
    | nil => exact fun _ => id
    | cons t rest ih => exact fun y spurs => ih _ (dropUnrun_spurs spurs t)
  have fifos : ∀ (l : List SockId) (y : ZPool), Spurs z.toCore y.toCore →
      Spurs z.toCore (y.destroyFifos l).toCore := by
    intro l
    induction l with
    | nil => exact fun _ => id
    | cons s rest ih => exact fun y spurs => ih _ (fifo _ y spurs)
  exact fifos _ _ (queue _ _ down)

theorem kickCurrent_spurs {c : Core} (staffed : Staffed c) (l : List WorkerId) : ∀ y : ZPool,
    Spurs c y.toCore → Spurs c (y.kickCurrent l).toCore := by
  induction l with
  | nil => exact fun _ => id
  | cons w rest ih =>
    intro y spurs
    unfold kickCurrent
    split
    · split
      · exact ih _ (spurs.trans (kick_spurs (spurs.staffed staffed) _))
      · exact ih _ spurs
    · exact ih _ spurs

/-- A vtable call flags a task only with a kick. -/
theorem call_spurs {c : Call} (staffed : Staffed z.toCore) (taken : z.call c = some z') :
    Spurs z.toCore z'.toCore := by
  cases called taken with
  | mirrored c' mirrors =>
    obtain ⟨p, code, core, _⟩ := mirrors.code
    rw [← core]
    rcases Pool.call_cases code with calm | ⟨t, _, _, _, _, kicked⟩
    · exact calm.spurs
    · rw [kicked]
      exact Pool.kick_spurs staffed t
  | kicked t user at_ => exact kick_spurs staffed t
  | failed k err apart notClose =>
    exact (spurs_stable z.toCore).taskNewFailed (Calm.refl _).spurs k err
  | close s =>
    -- The slots of the socket may be kicked, and a kick needs every worker named.
    have stable : Stable fun y => Spurs z.toCore y.toCore := spurs_stable z.toCore
    exact stable.implSockClose (fun spurs t => spurs.trans (kick_spurs (spurs.staffed staffed) t))
      (Calm.refl _).spurs s
  | destroy =>
    have kicked := kickCurrent_spurs staffed (List.range z.swept.nworker) z.swept (swept_spurs z)
    have kicks : ∀ (y : ZPool) w, (y.broadcast.worker w).kicks = (y.worker w).kicks := by
      intro y w
      unfold broadcast
      dsimp only
      split <;> rfl
    rw [implDestroy_eq]
    exact kicked.trans (Calm.stirred (broadcast_stirred _) (fun w => Nat.le_of_eq (kicks _ w))
      fun w _ => Nat.le_of_eq (kicks _ w).symm).spurs

/-- Going on inside a call cancels nothing. -/
theorem resume_calm {linked : Bool} (taken : z.resume linked = some z') :
    Calm z.toCore z'.toCore := by
  unfold resume at taken
  split at taken <;> cases taken
  · unfold wrapListener
    split <;> exact .of_rest rfl
  · unfold freeOn
    split
    · rename_i t _ _
      have dropped : Calm z.toCore (z.dropHandle t).toCore := .of_rest rfl
      exact dropped.trans (.taskFreeMem _ t)
    · exact .refl _
  · unfold pollOn
    split
    · split
      · split <;> exact .refl _
      · exact .refl _
    · exact .refl _
    · split
      · split <;> exact .refl _
      · exact .refl _
  · unfold stepOn
    split <;> exact .refl _
  · unfold destroyOn
    split
    · refine .of_rest ?_
      rw [on_toCore, closeSocks_rest]
    · exact .refl _

/-! ### The workers -/

/-- A worker is elsewhere in its task, and no task has changed. -/
theorem heeds_moved {c' : Core} {phase : Phase} (heeds : Heeds z.toCore) (next : Phase)
    (at_ : z.At w t phase) (ntask : c'.ntask = z.ntask) (nworker : c'.nworker = z.nworker)
    (task : c'.task = z.task) (closing : ∀ s, (c'.sock s).closing = (z.sock s).closing)
    (here : (c'.worker w).pc = .running t next) (others : ∀ v, v ≠ w → c'.worker v = z.worker v)
    (about : ∀ res newfd, next = .commit res newfd → res.status = .canceled → Asked z.toCore t)
    (coming : next ≠ .polling) : Heeds c' := by
  refine heeds.moved next at_ ntask nworker (fun u => ?_) closing here others
    (fun res newfd isNext canceled _ => about res newfd isNext canceled)
    fun polls => absurd polls coming
  rw [task]
  exact ⟨rfl, rfl, rfl, rfl, rfl, rfl, rfl⟩

theorem heeds_workerStep {act : Pool.Act} (heeds : Heeds z.toCore) (sound : Sound z.rest)
    (down : z.WoundDown) (sound' : Sound z'.rest) (later : Later z.toCore z'.toCore)
    (taken : z.workerStep w act = some z') : Heeds z'.toCore := by
  unfold Core.rest at sound'
  cases worked taken with
  | mirrored choice act p mirror core =>
    rw [core] at sound' later ⊢
    exact Heeds.workerStep (p := z.desktop choice) heeds sound down sound' later mirror
  | main inside free core =>
    rw [core] at sound' later ⊢
    exact Heeds.workerMain (p := z.desktop none) heeds sound sound' later free inside
  | refused t at_ blocks closing core =>
    -- The task is reported as canceled because its socket is closing.
    have pending : z.Pending (fun _ => false) t := (sound.placed.run_pending w t at_.runs).1
    obtain ⟨s, isSock, _⟩ := sound.placed.sock_live t pending blocks
    have isSock : (z.task t).sock = some s := isSock
    have asked : Asked z.toCore t := by
      refine .inr ⟨s, isSock, ?_⟩
      unfold Core.sockOf at closing
      rw [isSock] at closing
      exact closing
    rw [core]
    exact heeds_moved heeds (.commit rCanceled none) at_ rfl rfl rfl (fun _ => rfl)
      (by simp [setPc, modWorker]) (fun v other => by simp [setPc, modWorker, other])
      (fun _ _ _ _ => asked) (by simp)
  | drained t at_ core =>
    rw [core]
    exact heeds_moved heeds .check at_ rfl rfl rfl (fun _ => rfl) (by simp [setPc, modWorker])
      (fun v other => by simp [setPc, modWorker, other]) (by simp) (by simp)
  | unlinked t at_ calm core =>
    rw [core]
    refine heeds_moved heeds (.closeFd (z.sock (z.sockOf t)).fd) at_ rfl rfl rfl (fun s => ?_)
      (by simp [setPc, modWorker])
      (fun v other => by simp [setPc, modWorker, sockFree, modSock, sockUnlink, other])
      (by simp) (by simp)
    simp only [setPc, modWorker, sockFree, modSock, sockUnlink, Function.update_apply]
    split
    · rename_i isS; subst isS; rfl
    · rfl
  | closed t fd at_ core =>
    rw [core]
    exact heeds_moved heeds .commitClose at_ rfl rfl rfl (fun _ => rfl) (by simp [setPc, modWorker])
      (fun v other => by simp [setPc, modWorker, closeDesc, modDesc, other]) (by simp) (by simp)

/-- Every step keeps flags and kicks in order. -/
theorem heeds_step {label : Label} (heeds : Heeds z.toCore) (good : z.Good)
    (obeyed : z.obeys label = true) (taken : z.step label = some z') : Heeds z'.toCore := by
  have sound' : Sound z'.rest := (good.step obeyed taken).sound
  have later : Later z.toCore z'.toCore := Run.later (.snoc (.refl _) obeyed taken) good
  cases label with
  | worker w act =>
    exact heeds_workerStep heeds good.sound (Pool.Tidy.down good.tidy) sound' later taken
  | user c =>
    rcases userStep_cases taken with ⟨_, taken⟩ | ⟨_, _, taken⟩
    · exact heeds.spurs good.sound sound' later (call_spurs (heeds.running good.sound) taken)
    · exact heeds.spurs good.sound sound' later (resume_calm taken).spurs

theorem Run.heeds (run : Run (ZPool.new n pick) z) : Heeds z.toCore := by
  have both : z.Good ∧ Heeds z.toCore := by
    refine run.invariant (fun z => z.Good ∧ Heeds z.toCore)
      (fun z label z' before obeyed taken => ?_) ⟨.new n pick, ?_⟩
    · exact ⟨before.1.step obeyed taken, heeds_step before.2 before.1 obeyed taken⟩
    · -- No task has been made, and no worker runs one.
      have none : ∀ w t, ¬ (ZPool.new n pick).Runs w t := fun w t runs => by cases runs.2
      constructor
      case made => intro t started; simp [ZPool.new] at started
      case named => exact fun w t runs => absurd runs (none w t)
      case about => exact fun w t _ _ at_ => absurd at_.runs (none w t)
      case coming => exact fun w t at_ => absurd at_.runs (none w t)
      case ended => exact fun t less => absurd less (Nat.not_lt_zero t)
  exact both.2

/-! ### Who moves a worker -/

/-- A step of the worker that runs a task is a step of that task. -/
theorem step_own {act : Pool.Act} {phase : Phase} (at_ : z.At w t phase)
    (taken : z.step (.worker w act) = some z') : z.runStep w t phase act = some z' := by
  obtain ⟨_, cases⟩ := workerStep_cases taken
  rcases cases with ⟨pc, _⟩ | ⟨pc, _⟩ | ⟨_, pc, _⟩ | ⟨u, ph, pc, ran⟩
  · cases at_.2.symm.trans pc
  · cases at_.2.symm.trans pc
  · cases at_.2.symm.trans pc
  · cases at_.2.symm.trans pc
    exact ran

/-- Only a worker itself gets on with its task. -/
theorem step_others {label : Label} {u : TaskId} {ph : Phase} (other : ∀ act, label ≠ .worker w act)
    (taken : z.step label = some z') : z'.At w u ph ↔ z.At w u ph := by
  cases label with
  | worker v act =>
    have isW : w ≠ v := by rintro rfl; exact other act rfl
    have moved : ∀ {c : Core} {pc : Pc}, (c.setPc v pc).At w u ph ↔ c.At w u ph := by
      intro c pc; rw [setPc_at, if_neg isW]
    cases worked taken with
    | mirrored choice act p mirror core =>
      rw [core]
      exact Pool.workerStep_others (p := z.desktop choice) isW mirror
    | main inside free core =>
      rw [core]
      exact Pool.workerMain_others (p := z.desktop none) isW
    | drained t at_ core =>
      rw [core, moved]
      simp only [At, modWorker, Function.update_of_ne isW]
    | refused t at_ blocks closing core => rw [core, moved]
    | unlinked t at_ calm core => rw [core, moved]; rfl
    | closed t fd at_ core => rw [core, moved]; rfl
  | user c =>
    have rouses := userStep_rouses taken
    unfold At
    rw [rouses.nworker]
    rcases rouses.pc w with same | ⟨slept, woken⟩
    · rw [same]
    · rw [slept, woken]; simp

/-! ### Once the call is made -/

/-- The blocking call of a task returns: the `recv` of a read, the `accept` of an accept. -/
def Performs (z : ZPool) (t : TaskId) (label : Label) : Prop :=
  ∃ w, z.At w t .call ∧ ((∃ n errno, label = .worker w (.ret n errno)) ∨
    ∃ errno, label = .worker w (.retFd errno))

theorem performed_of_performs {label : Label} (performs : z.Performs t label)
    (taken : z.step label = some z') : Performed z'.toCore t := by
  obtain ⟨w, at_, ⟨n, errno, rfl⟩ | ⟨errno, rfl⟩⟩ := performs
  · have taken : some _ = some z' := step_own at_ taken
    cases taken
    exact .inl ⟨w, Pool.callResult (z.task t).kind n errno, none,
      ⟨at_.1, by simp [on_toCore, setPc, modWorker]⟩, Pool.callResult_uncanceled _ _ _⟩
  · have taken := step_own at_ taken
    unfold runStep at taken
    dsimp only at taken
    split at taken <;> cases taken
    · exact .inl ⟨w, rErr errno, some z.ndesc, ⟨at_.1, by simp [on_toCore, setPc, modWorker]⟩,
        by simp⟩
    · exact .inl ⟨w, rOk 0 none, some z.ndesc, ⟨at_.1, by simp [on_toCore, setPc, modWorker]⟩,
        by simp⟩

theorem performed_step {label : Label} (performed : Performed z.toCore t) (good : z.Good)
    (obeyed : z.obeys label = true) (taken : z.step label = some z') : Performed z'.toCore t := by
  have later : Later z.toCore z'.toCore := Run.later (.snoc (.refl _) obeyed taken) good
  rcases performed with ⟨w, res, newfd, at_, found⟩ | ⟨inside, done, ended⟩
  · by_cases own : ∃ act, label = .worker w act
    · obtain ⟨act, rfl⟩ := own
      have taken := step_own at_ taken
      cases act with
      | commit linked =>
        -- The commit is that of the desktop pool.
        cases taken
        have down : z.WoundDown := Pool.Tidy.down good.tidy
        obtain ⟨choice, core⟩ := workerCommit_core z w t res newfd linked
        rw [← core] at later ⊢
        exact Pool.performed_commit (p := z.desktop choice) linked good.sound down at_ found later
      | _ => cases taken
    · have other : ∀ act, label ≠ .worker w act := fun act is => own ⟨act, is⟩
      exact .inl ⟨w, res, newfd, (step_others other taken).mpr at_, found⟩
  · exact Performed.ended_later inside done ended later

theorem performed_run (performed : Performed z.toCore t) (good : z.Good) (run : Run z y) :
    Performed y.toCore t := by
  induction run with
  | refl => exact performed
  | snoc before obeyed taken ih => exact performed_step ih (Run.good_of before good) obeyed taken

/-! ### The wait -/

/-- A poll that a kick ends goes back to the flag, and leaves no kick behind. -/
theorem poll_interrupted (at_ : z.At w t .polling)
    (taken : z.step (.worker w (.poll true)) = some z') :
    z'.At w t .check ∧ (z'.worker w).kicks = 0 ∧ z'.task = z.task ∧ z'.sock = z.sock ∧
      z'.socks = z.socks ∧ z'.desc = z.desc ∧ z'.queue = z.queue := by
  have taken := step_own at_ taken
  unfold runStep at taken
  simp only [if_true] at taken
  split at taken <;> cases taken
  exact ⟨⟨at_.1, by simp [on_toCore, setPc, modWorker]⟩, by simp [on_toCore, setPc, modWorker],
    rfl, rfl, rfl, rfl, rfl⟩

/-- With the flag down and time left, a worker at the flag goes into the poll. -/
theorem check_again {expired : Bool} (at_ : z.At w t .check) (unflagged : (z.task t).cancelReq = false)
    (left : expired = false ∨ (z.task t).kind ≠ .opSleep)
    (taken : z.step (.worker w (.check expired)) = some z') :
    z'.At w t .polling ∧ z'.task = z.task := by
  have taken := step_own at_ taken
  have goes : ¬ (expired && (z.task t).kind = .opSleep) = true := by
    rcases left with early | kind
    · simp [early]
    · simp [kind]
  unfold runStep at taken
  simp only [unflagged, Bool.false_eq_true, if_false, if_neg goes] at taken
  cases taken
  exact ⟨⟨at_.1, by simp [on_toCore, setPc, modWorker]⟩, rfl⟩

/-- How a worker gets out of `cancelable_wait`. -/
theorem waits_over {label : Label} {phase : Phase} (waits : Waits z.toCore w t)
    (taken : z.step label = some z') (there : z'.At w t phase) :
    Waits z'.toCore w t ∨ (phase = .commit rCanceled none ∧ (z.task t).cancelReq = true) ∨
      (phase = .call ∧ (label = .worker w (.poll false) ∨
        (label = .worker w (.check true) ∧ (z.task t).kind = .opSleep))) := by
  by_cases own : ∃ act, label = .worker w act
  · obtain ⟨act, rfl⟩ := own
    have lands : ∀ {next : Phase}, z' = z.on (·.setPc w (.running t next)) → phase = next := by
      rintro next rfl
      have pc := there.2
      simp only [on_toCore, setPc, modWorker, Function.update_self, Pc.running.injEq] at pc
      exact pc.2.symm
    rcases waits with at_ | at_
    · have taken := step_own at_ taken
      cases act with
      | check expired =>
        unfold runStep at taken
        dsimp only at taken
        split at taken
        · rename_i flag
          exact .inr (.inl ⟨lands (Option.some.inj taken).symm, flag⟩)
        · split at taken
          · rename_i past
            simp only [Bool.and_eq_true, decide_eq_true_eq] at past
            refine .inr (.inr ⟨lands (Option.some.inj taken).symm, .inr ⟨?_, past.2⟩⟩)
            rw [past.1]
          · refine .inl (.inr ?_)
            rw [lands (Option.some.inj taken).symm] at there
            exact there
      | _ => cases taken
    · cases act with
      | poll interrupted =>
        cases interrupted with
        | true => exact .inl (.inl (poll_interrupted at_ taken).1)
        | false =>
          have taken := step_own at_ taken
          exact .inr (.inr ⟨lands (Option.some.inj taken).symm, .inl rfl⟩)
      | _ => cases step_own at_ taken
  · have other : ∀ act, label ≠ .worker w act := fun act is => own ⟨act, is⟩
    exact .inl (waits.imp (step_others other taken).mpr (step_others other taken).mpr)

/-- The cancel kick, as it shows in one state and the steps out of it. -/
structure Protocol (z : ZPool) : Prop where
  /-- No worker is stuck in the poll with its task flagged and its eventfd at zero. -/
  coming : ∀ w t, z.At w t .polling → (z.task t).cancelReq = true → 0 < (z.worker w).kicks
  /-- The wait ends by the task's own flag, its own deadline, or the poll's own return. -/
  past : ∀ w t phase label z', Waits z.toCore w t → z.step label = some z' → z'.At w t phase →
    Waits z'.toCore w t ∨ (phase = .commit rCanceled none ∧ (z.task t).cancelReq = true) ∨
      (phase = .call ∧ (label = .worker w (.poll false) ∨
        (label = .worker w (.check true) ∧ (z.task t).kind = .opSleep)))
  /-- A sleep, read or accept ends canceled only if it was asked to stop or never started. -/
  canceled : ∀ t, t < z.ntask → (z.task t).done = true → (z.task t).res.status = .canceled →
    opInterruptible (z.task t).kind = true →
    (z.task t).cancelReq = true ∨ (∃ s, (z.task t).sock = some s ∧ (z.sock s).closing = true) ∨
      (z.task t).started = false
  /-- What has made its call never waits again, and ends canceled only if its socket is closing. -/
  unperformed : ∀ t label z' y, z.Performs t label → z.obeys label = true →
    z.step label = some z' → Run z' y → (∀ w, ¬ Waits y.toCore w t) ∧
      ((y.task t).done = true → (y.task t).res.status = .canceled →
        ∃ s, (y.task t).sock = some s ∧ (y.sock s).closing = true)
  /-- A kick that ends the poll changes no task and no socket, and leaves the eventfd at zero. -/
  interrupted : ∀ w t z', z.At w t .polling → z.step (.worker w (.poll true)) = some z' →
    z'.At w t .check ∧ (z'.worker w).kicks = 0 ∧ z'.task = z.task ∧ z'.sock = z.sock ∧
      z'.socks = z.socks ∧ z'.desc = z.desc ∧ z'.queue = z.queue
  /-- A task that is not flagged and whose time is not up polls again. -/
  again : ∀ w t expired z', z.At w t .check → (z.task t).cancelReq = false →
    expired = false ∨ (z.task t).kind ≠ .opSleep → z.step (.worker w (.check expired)) = some z' →
    z'.At w t .polling ∧ z'.task = z.task

/-- The cancel kick of the Zephyr pool, in every state of every run. -/
theorem kick_protocol (run : Run (ZPool.new n pick) z) : z.Protocol := by
  have good := run.good
  have heeds := Run.heeds run
  constructor
  case coming => exact heeds.coming
  case past => exact fun w t phase label z' => waits_over
  case canceled =>
    intro t inside done canceled interruptible
    cases started : (z.task t).started with
    | false => exact .inr (.inr rfl)
    | true => exact (heeds.ended t inside done canceled interruptible started).imp id .inl
  case unperformed =>
    intro t label z' y performs obeyed taken more
    have good' := good.step obeyed taken
    have sound := (more.good_of good').sound
    rcases performed_run (performed_of_performs performs taken) good' more with
      ⟨w, res, newfd, at_, _⟩ | ⟨_, done, ended⟩
    · -- The one worker that runs the task is about to commit it, so the task is not done.
      refine ⟨fun v waits => ?_, fun done => ?_⟩
      · have runs : y.Runs v t := waits.elim At.runs At.runs
        obtain rfl : v = w := sound.placed.run_inj v w t runs at_.runs
        rcases waits with there | there <;> cases at_.2.symm.trans there.2
      · have isOpen := (sound.placed.run_pending w t at_.runs).1.2.1
        exact absurd (isOpen.symm.trans done) (by simp)
    · refine ⟨fun v waits => ?_, fun _ canceled => ?_⟩
      · have runs : y.Runs v t := waits.elim At.runs At.runs
        have isOpen := (sound.placed.run_pending v t runs).1.2.1
        exact absurd (isOpen.symm.trans done) (by simp)
      · rcases ended with other | ⟨s, sock, _, closing⟩
        · exact absurd canceled other
        · exact ⟨s, sock, closing⟩
  case interrupted => exact fun w t z' => poll_interrupted
  case again => exact fun w t expired z' => check_again

/-- A sleep is canceled twice while its worker is on the way into the poll. -/
def twoKicks : List Label :=
  [.user .sleep, .worker 0 .main, .worker 0 .enter, .worker 0 (.check false), .user (.cancel 0),
    .user (.cancel 0)]

/-- Both kicks are there, and the drain that takes them leads back to the flag. -/
theorem kick_protocol_twoKicks :
    0 < ((after twoKicks).worker 0).kicks ∧
      (Machine.drive step (after twoKicks) [.worker 0 (.poll true)]).At 0 0 .check := by
  have here := kick_protocol (run_after twoKicks (by decide +kernel))
  have waits : (after twoKicks).At 0 0 .polling := ⟨by decide +kernel, by decide +kernel⟩
  exact ⟨here.coming 0 0 waits (by decide +kernel),
    (here.interrupted 0 0 _ waits (Machine.drive_one (by decide +kernel))).1⟩

end Myio.ZPool
