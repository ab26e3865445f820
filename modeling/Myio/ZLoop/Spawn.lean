import Myio.ZLoop.Turns

/-!
The spawned tasks of the Zephyr event loop.

A spawned task that is not done is on the work queue, in its handler, on the list of finished ones,
or in the user thread's hands. The code that deals with the other tasks touches none of these.
-/

namespace Myio.Loop

open Function (update)
open Loop.Core

/-- The task a turn of the loop is made to free. -/
def Why.target : Why → Option TaskId
  | .freeing t => some t
  | _ => none

/-- The task the user thread is freeing. -/
def ZUser.target : ZUser → Option TaskId
  | .polling why | .reading why | .draining why | .harvesting _ why => why.target
  | .releasing t => some t
  | _ => none

/-- The user thread is between reading the eventfd and finishing its drain. -/
def ZUser.drains : ZUser → Bool
  | .draining _ | .harvesting _ _ => true
  | _ => false

/-- The user thread has taken a task off the finished list. -/
def ZUser.harvests : ZUser → TaskId → Bool
  | .harvesting t _, u => t = u
  | _, _ => false

/--
What is known of one task, by where it is.

It is on the work queue, its handler is in a phase, it is on the finished list, or in hand.
-/
structure SpawnLife (k : Task) (submitted queued : Bool) (phase : Option HandlerPhase)
    (finished harvested held : Bool) : Prop where
  spawned : queued || phase.isSome || finished || harvested → submitted = true ∧ k.kind = .taskSpawn
  queue : queued = true → k.done = false ∧ k.runs = 0 ∧ k.pushed = false ∧ phase = none
  early : phase = some .running ∨ phase = some .returned →
    k.done = false ∧ k.runs = 1 ∧ k.pushed = false
  late : phase = some .pushed ∨ phase = some .wrote → k.runs = 1 ∧ k.pushed = true
  past : finished || harvested → k.done = false ∧ k.runs = 1 ∧ k.pushed = true
  apart : harvested = true → finished = false
  placed : submitted = true → k.kind = .taskSpawn → k.done = false → queued = true ∨
    phase = some .running ∨ phase = some .returned ∨ finished = true ∨ harvested = true
  ended : submitted = true → k.kind = .taskSpawn → k.done = true →
    (k.res = rCanceled ∧ k.runs = 0) ∨ (k.res = ZIo.fnResult k.fnRet ∧ k.runs = 1)
  memory : queued || phase.isSome → k.done = true → held = true

/-- What the invariant reads of a task is as it was. -/
def SameSpawn (k k' : Task) : Prop :=
  k'.kind = k.kind ∧ k'.done = k.done ∧ k'.runs = k.runs ∧ k'.pushed = k.pushed ∧ k'.res = k.res ∧
    k'.fnRet = k.fnRet

/-- The invariant reads six fields of a task. -/
theorem SpawnLife.congr {k k' : Task} {submitted queued finished harvested held : Bool}
    {phase : Option HandlerPhase} (life : SpawnLife k submitted queued phase finished harvested held)
    (same : SameSpawn k k') : SpawnLife k' submitted queued phase finished harvested held := by
  obtain ⟨kind, done, runs, pushed, res, fnRet⟩ := same
  obtain ⟨spawned, isQueued, early, late, isFinished, isHarvested, placed, ended, memory⟩ := life
  constructor
  case spawned => rw [kind]; exact spawned
  case queue => rw [done, runs, pushed]; exact isQueued
  case early => rw [done, runs, pushed]; exact early
  case late => rw [runs, pushed]; exact late
  case past => rw [done, runs, pushed]; exact isFinished
  case apart => exact isHarvested
  case placed => rw [kind, done]; exact placed
  case ended => rw [kind, done, res, runs, fnRet]; exact ended
  case memory => rw [done]; exact memory

namespace ZIo

variable {z z' : ZIo} {t u : TaskId}

/-- How far the handler of a task is. -/
def phaseOf (z : ZIo) (t : TaskId) : Option HandlerPhase :=
  match z.handler with
  | some (u, phase) => if u = t then some phase else none
  | none => none

/-- What is known of a task of an instance. -/
def SpawnAt (z : ZIo) (t : TaskId) : Prop :=
  SpawnLife (z.task t) (t < z.ntask) (t ∈ z.workq) (z.phaseOf t) (t ∈ z.spawnDone)
    (z.user.harvests t) (z.held t)

/-- Where every spawned task is, and who will notice those on the finished list. -/
structure Spawning (z : ZIo) : Prop where
  each : ∀ t, z.SpawnAt t
  queue : z.workq.Nodup
  list : z.spawnDone.Nodup
  woken : z.spawnDone ≠ [] →
    0 < z.evfd ∨ (∃ t, z.handler = some (t, .pushed)) ∨ z.user.drains = true
  target : ∀ t, z.user.target = some t → z.held t = true
  releasing : ∀ t, z.user = .releasing t → (z.task t).done = true

/-- A work item is busy while it is queued and while its handler runs. -/
theorem busy_iff : z.busy t = true ↔ t ∈ z.workq ∨ (z.phaseOf t).isSome = true := by
  unfold busy phaseOf
  cases z.handler with
  | none => simp
  | some p => obtain ⟨u, phase⟩ := p; by_cases same : u = t <;> simp [same]

/-- The work queue, its thread, the finished list and the user thread are as they were. -/
structure Quiet (z z' : ZIo) : Prop where
  cfg : z'.cfg = z.cfg
  workq : z'.workq = z.workq
  handler : z'.handler = z.handler
  spawnDone : z'.spawnDone = z.spawnDone
  evfd : z'.evfd = z.evfd
  user : z'.user = z.user

theorem Quiet.refl (z : ZIo) : Quiet z z := ⟨rfl, rfl, rfl, rfl, rfl, rfl⟩

theorem Quiet.trans {z'' : ZIo} (first : Quiet z z') (second : Quiet z' z'') : Quiet z z'' :=
  ⟨second.cfg.trans first.cfg, second.workq.trans first.workq, second.handler.trans first.handler,
    second.spawnDone.trans first.spawnDone, second.evfd.trans first.evfd, second.user.trans first.user⟩

theorem Aside.quiet (aside : Aside z z') : Quiet z z' := by
  unfold Aside at aside
  rw [aside]
  exact ⟨rfl, rfl, rfl, rfl, rfl, rfl⟩

/-- A call that was made by an idle thread returns. -/
theorem Quiet.give (quiet : Quiet z z') (idle : z.user = .idle) (ret : ZRet) :
    Quiet z (z'.give ret) :=
  ⟨quiet.cfg, quiet.workq, quiet.handler, quiet.spawnDone, quiet.evfd, idle.symm⟩

theorem Quiet.phaseOf (quiet : Quiet z z') (t : TaskId) : z'.phaseOf t = z.phaseOf t := by
  unfold ZIo.phaseOf
  rw [quiet.handler]

namespace Spawning

/-- Code that completes no spawned task leaves all of them where they are. -/
theorem frame (spawning : Spawning z) (lives : z.Lives) (later : Later firm z.toCore z'.toCore)
    (quiet : Quiet z z') : Spawning z' := by
  have calmly : ¬ firm.notes := id
  have firmly : ¬ firm.gives := id
  have held : ∀ u, z.held u = true → z'.held u = true := fun u there =>
    (later.keeps firmly u (lives.bound u there)).trans there
  constructor
  case each =>
    intro u
    have life := spawning.each u
    unfold SpawnAt at life ⊢
    rw [quiet.workq, quiet.phaseOf, quiet.spawnDone, quiet.user]
    by_cases before : u < z.ntask
    · -- An old task keeps its notes, and a spawned one is not completed.
      obtain ⟨_, fnRet, pushed, runs, _⟩ := later.notes calmly u before
      have kind := (later.args u before).1
      rw [later.keeps firmly u before,
        show decide (u < z'.ntask) = decide (u < z.ntask) by
          simp [before, Nat.lt_of_lt_of_le before later.ntask]]
      by_cases isSpawn : (z.task u).kind = .taskSpawn
      · cases isDone : (z.task u).done with
        | true =>
          obtain ⟨done, res, _⟩ := later.done u before isDone
          exact life.congr ⟨kind, done.trans isDone.symm, runs, pushed, res, fnRet⟩
        | false =>
          have done : (z'.task u).done = false := by
            by_contra ended
            exact later.ended u before isDone (by simpa using ended) isSpawn
          obtain ⟨spawned, isQueued, early, late, finished, harvested, placed, ended, memory⟩ := life
          constructor <;> simp_all
      · -- The others are in none of the places.
        have nowhere : ¬ (decide (u ∈ z.workq) || (z.phaseOf u).isSome || decide (u ∈ z.spawnDone) ||
            z.user.harvests u) = true := fun there => isSpawn (life.spawned there).2
        simp only [Bool.or_eq_true, decide_eq_true_eq, not_or, Bool.not_eq_true,
          Option.isSome_eq_false_iff, Option.isNone_iff_eq_none] at nowhere
        obtain ⟨⟨⟨queued, phase⟩, finished⟩, harvested⟩ := nowhere
        constructor <;> simp_all
    · -- A new task is not a spawned one.
      have nowhere : ¬ (decide (u ∈ z.workq) || (z.phaseOf u).isSome || decide (u ∈ z.spawnDone) ||
          z.user.harvests u) = true := fun there => before (by simpa using (life.spawned there).1)
      simp only [Bool.or_eq_true, decide_eq_true_eq, not_or, Bool.not_eq_true,
        Option.isSome_eq_false_iff, Option.isNone_iff_eq_none] at nowhere
      obtain ⟨⟨⟨queued, phase⟩, finished⟩, harvested⟩ := nowhere
      have other : u < z'.ntask → (z'.task u).kind ≠ .taskSpawn :=
        later.made u (Nat.le_of_not_lt before)
      constructor <;> simp_all
  case queue => rw [quiet.workq]; exact spawning.queue
  case list => rw [quiet.spawnDone]; exact spawning.list
  case woken =>
    rw [quiet.spawnDone, quiet.evfd, quiet.handler, quiet.user]
    exact spawning.woken
  case target => rw [quiet.user]; exact fun u points => held u (spawning.target u points)
  case releasing =>
    rw [quiet.user]
    intro u isAt
    have isHeld : z.held u = true := spawning.target u (by rw [isAt]; rfl)
    exact (later.done u (lives.bound u isHeld) (spawning.releasing u isAt)).1

/-- The places of one task are as they were. -/
structure SamePlace (z z' : ZIo) (u : TaskId) : Prop where
  task : SameSpawn (z.task u) (z'.task u)
  submitted : u < z'.ntask ↔ u < z.ntask
  workq : u ∈ z'.workq ↔ u ∈ z.workq
  phase : z'.phaseOf u = z.phaseOf u
  spawnDone : u ∈ z'.spawnDone ↔ u ∈ z.spawnDone
  user : z'.user.harvests u = z.user.harvests u
  held : z'.held u = z.held u

theorem SamePlace.at (same : SamePlace z z' u) (life : z.SpawnAt u) : z'.SpawnAt u := by
  unfold SpawnAt at life ⊢
  simp only [same.submitted, same.workq, same.phase, same.spawnDone, same.user, same.held]
  exact life.congr same.task

/-- The user thread goes on to another place, with nothing in hand. -/
theorem become (spawning : Spawning z) {user : ZUser} {ret : Option ZRet}
    (before : ∀ u, z.user.harvests u = false) (after : ∀ u, user.harvests u = false)
    (drained : z.user.drains = true → user.drains = true ∨ z.spawnDone = [])
    (target : ∀ u, user.target = some u → z.held u = true)
    (releasing : ∀ u, user = .releasing u → (z.task u).done = true) :
    Spawning { z with user, ret } := by
  refine ⟨fun u => ?_, spawning.queue, spawning.list, fun some_ => ?_, target, releasing⟩
  · refine SamePlace.at (z := z) ⟨⟨rfl, rfl, rfl, rfl, rfl, rfl⟩, .rfl, .rfl, rfl, .rfl, ?_, rfl⟩
      (spawning.each u)
    exact (after u).trans (before u).symm
  · rcases spawning.woken some_ with positive | writing | drains
    · exact .inl positive
    · exact .inr (.inl writing)
    · exact .inr (.inr ((drained drains).resolve_right some_))

/-- A change of what the invariant does not read, and of one handle the work queue has let go of. -/
theorem handle (spawning : Spawning z) {c : Core} (ntask : c.ntask = z.ntask)
    (task : ∀ u, SameSpawn (z.task u) (c.task u)) (t : TaskId)
    (held : ∀ u, u ≠ t → c.held u = z.held u)
    (letGo : z.busy t = true → (z.task t).done = false)
    (target : ∀ u, z.user.target = some u → c.held u = true) :
    Spawning { z with toCore := c } := by
  refine ⟨fun u => ?_, spawning.queue, spawning.list, spawning.woken, target,
    fun u isAt => (task u).2.1.trans (spawning.releasing u isAt)⟩
  by_cases same : u = t
  · subst same
    have life := spawning.each u
    unfold SpawnAt at life ⊢
    have moved := life.congr (task u)
    obtain ⟨spawned, queue, early, late, past, apart, placed, ended, _⟩ := moved
    refine ⟨?_, queue, early, late, past, apart, ?_, ?_, fun busy isDone => ?_⟩
    · simp only [ntask]; exact spawned
    · simp only [ntask]; exact placed
    · simp only [ntask]; exact ended
    · change (decide (u ∈ z.workq) || (z.phaseOf u).isSome) = true at busy
      have isBusy : z.busy u = true := busy_iff.mpr (by simpa using busy)
      have isOpen := (task u).2.1.trans (letGo isBusy)
      exact absurd isDone (by simp [isOpen])
  · exact SamePlace.at ⟨task u, by simp [ntask], .rfl, rfl, .rfl, rfl, held u same⟩ (spawning.each u)

/-! ### The steps of the work-queue thread -/

/-- The handler's phase, when a task is in it. -/
theorem phaseOf_self {phase : HandlerPhase} (isAt : z.handler = some (t, phase)) :
    z.phaseOf t = some phase := by
  unfold ZIo.phaseOf
  rw [isAt]
  simp

/-- The handler's phase of another task. -/
theorem phaseOf_other {phase : HandlerPhase} (isAt : z.handler = some (t, phase)) (other : u ≠ t) :
    z.phaseOf u = none := by
  unfold ZIo.phaseOf
  rw [isAt]
  simp [Ne.symm other]

theorem phaseOf_none (isNone : z.handler = none) : z.phaseOf u = none := by
  unfold ZIo.phaseOf
  rw [isNone]

/-- The work-queue thread calls the handler of the next item. -/
theorem take {rest : List TaskId} (spawning : Spawning z) (free : z.handler = none)
    (workq : z.workq = t :: rest) :
    Spawning { z.on (·.modTask t fun k => { k with runs := k.runs + 1 }) with
      workq := rest, handler := some (t, .running) } := by
  obtain ⟨apart, nodup⟩ := List.nodup_cons.mp (workq ▸ spawning.queue)
  generalize isNext : ({ z.on (·.modTask t fun k => { k with runs := k.runs + 1 }) with
    workq := rest, handler := some (t, .running) } : ZIo) = z'
  have task : ∀ u, z'.task u =
      if u = t then { z.task t with runs := (z.task t).runs + 1 } else z.task u := by
    intro u; rw [← isNext]; simp only [ZIo.on, modTask, Function.update_apply]
  have isAt : z'.handler = some (t, .running) := by rw [← isNext]
  refine ⟨fun u => ?_, by rw [← isNext]; exact nodup, by rw [← isNext]; exact spawning.list, ?_,
    by rw [← isNext]; exact spawning.target, fun u there => ?_⟩
  · have life := spawning.each u
    by_cases same : u = t
    · subst same
      unfold SpawnAt at life ⊢
      rw [phaseOf_none free] at life
      rw [phaseOf_self isAt, task, if_pos rfl]
      rw [← isNext]
      simp only [workq, List.mem_cons_self, apart, ZIo.on, modTask, decide_true, decide_false] at life ⊢
      obtain ⟨spawned, queue, early, late, past, apart, placed, ended, memory⟩ := life
      constructor <;> simp_all
    · refine SamePlace.at ⟨?_, ?_, ?_, ?_, ?_, ?_, ?_⟩ life
      · rw [task, if_neg same]; exact ⟨rfl, rfl, rfl, rfl, rfl, rfl⟩
      · rw [← isNext]; rfl
      · rw [← isNext, workq]; simp [same]
      · rw [phaseOf_other isAt same, phaseOf_none free]
      · rw [← isNext]; rfl
      · rw [← isNext]; rfl
      · rw [← isNext]; rfl
  · rw [← isNext]
    intro some_
    rcases spawning.woken some_ with positive | ⟨v, writing⟩ | drains
    · exact .inl positive
    · rw [free] at writing; cases writing
    · exact .inr (.inr drains)
  · have before : (z.task u).done = true := spawning.releasing u (by rw [← isNext] at there; exact there)
    rw [task]
    split
    · rename_i same; subst same; exact before
    · exact before

/-- The spawned function returns. -/
theorem ran (spawning : Spawning z) (isAt : z.handler = some (t, .running)) (ret : Int) :
    Spawning { z.on (·.modTask t ({ · with fnRet := ret })) with handler := some (t, .returned) } := by
  generalize isNext : ({ z.on (·.modTask t ({ · with fnRet := ret })) with
    handler := some (t, .returned) } : ZIo) = z'
  have task : ∀ u, z'.task u = if u = t then { z.task t with fnRet := ret } else z.task u := by
    intro u; rw [← isNext]; simp only [ZIo.on, modTask, Function.update_apply]
  have isAt' : z'.handler = some (t, .returned) := by rw [← isNext]
  refine ⟨fun u => ?_, by rw [← isNext]; exact spawning.queue, by rw [← isNext]; exact spawning.list,
    ?_, by rw [← isNext]; exact spawning.target, fun u there => ?_⟩
  · have life := spawning.each u
    by_cases same : u = t
    · subst same
      unfold SpawnAt at life ⊢
      rw [phaseOf_self isAt] at life
      rw [phaseOf_self isAt', task, if_pos rfl]
      rw [← isNext]
      simp only [ZIo.on, modTask]
      obtain ⟨spawned, queue, early, late, past, apart, placed, ended, memory⟩ := life
      constructor <;> simp_all
    · refine SamePlace.at ⟨?_, ?_, ?_, ?_, ?_, ?_, ?_⟩ life
      · rw [task, if_neg same]; exact ⟨rfl, rfl, rfl, rfl, rfl, rfl⟩
      · rw [← isNext]; rfl
      · rw [← isNext]; rfl
      · rw [phaseOf_other isAt' same, phaseOf_other isAt same]
      · rw [← isNext]; rfl
      · rw [← isNext]; rfl
      · rw [← isNext]; rfl
  · rw [← isNext]
    intro some_
    rcases spawning.woken some_ with positive | ⟨v, writing⟩ | drains
    · exact .inl positive
    · rw [isAt] at writing; simp at writing
    · exact .inr (.inr drains)
  · have before : (z.task u).done = true := spawning.releasing u (by rw [← isNext] at there; exact there)
    rw [task]
    split
    · rename_i same; subst same; exact before
    · exact before

/-- The handler puts its task on the finished list. -/
theorem push (spawning : Spawning z) (isAt : z.handler = some (t, .returned)) :
    Spawning { z.on (·.modTask t ({ · with pushed := true })) with
      spawnDone := t :: z.spawnDone, handler := some (t, .pushed) } := by
  have self := spawning.each t
  unfold SpawnAt at self
  rw [phaseOf_self isAt] at self
  -- A task that has not been pushed is not on the list.
  have absent : t ∉ z.spawnDone := by
    intro inside
    have := (self.past (by simp [inside])).2.2
    simp [(self.early (.inr rfl)).2.2] at this
  generalize isNext : ({ z.on (·.modTask t ({ · with pushed := true })) with
    spawnDone := t :: z.spawnDone, handler := some (t, .pushed) } : ZIo) = z'
  have task : ∀ u, z'.task u = if u = t then { z.task t with pushed := true } else z.task u := by
    intro u; rw [← isNext]; simp only [ZIo.on, modTask, Function.update_apply]
  have isAt' : z'.handler = some (t, .pushed) := by rw [← isNext]
  refine ⟨fun u => ?_, by rw [← isNext]; exact spawning.queue,
    by rw [← isNext]; exact List.nodup_cons.mpr ⟨absent, spawning.list⟩,
    fun _ => .inr (.inl ⟨t, isAt'⟩), by rw [← isNext]; exact spawning.target, fun u there => ?_⟩
  · have life := spawning.each u
    by_cases same : u = t
    · subst same
      unfold SpawnAt
      rw [phaseOf_self isAt', task, if_pos rfl]
      rw [← isNext]
      simp only [ZIo.on, modTask]
      obtain ⟨spawned, queue, early, late, past, apart, placed, ended, memory⟩ := self
      constructor <;> simp_all
    · refine SamePlace.at ⟨?_, ?_, ?_, ?_, ?_, ?_, ?_⟩ life
      · rw [task, if_neg same]; exact ⟨rfl, rfl, rfl, rfl, rfl, rfl⟩
      · rw [← isNext]; rfl
      · rw [← isNext]; rfl
      · rw [phaseOf_other isAt' same, phaseOf_other isAt same]
      · rw [← isNext]; simp [same]
      · rw [← isNext]; rfl
      · rw [← isNext]; rfl
  · have before : (z.task u).done = true := spawning.releasing u (by rw [← isNext] at there; exact there)
    rw [task]
    split
    · rename_i same; subst same; exact before
    · exact before

/-- The handler writes the eventfd. -/
theorem wake (spawning : Spawning z) (isAt : z.handler = some (t, .pushed)) :
    Spawning { z with evfd := z.evfd + 1, handler := some (t, .wrote) } := by
  refine ⟨fun u => ?_, spawning.queue, spawning.list, fun _ => .inl (Nat.succ_pos _),
    spawning.target, spawning.releasing⟩
  have life := spawning.each u
  by_cases same : u = t
  · subst same
    unfold SpawnAt at life ⊢
    rw [phaseOf_self isAt] at life
    rw [phaseOf_self rfl]
    obtain ⟨spawned, queue, early, late, past, apart, placed, ended, memory⟩ := life
    constructor <;> simp_all
  · refine SamePlace.at (z := z) ⟨⟨rfl, rfl, rfl, rfl, rfl, rfl⟩, .rfl, .rfl, ?_, .rfl, rfl, rfl⟩ life
    rw [phaseOf_other rfl same, phaseOf_other isAt same]

/-- The handler has returned. -/
theorem rested (spawning : Spawning z) (isAt : z.handler = some (t, .wrote)) :
    Spawning { z with handler := none } := by
  refine ⟨fun u => ?_, spawning.queue, spawning.list, fun some_ => ?_, spawning.target,
    spawning.releasing⟩
  · have life := spawning.each u
    by_cases same : u = t
    · subst same
      unfold SpawnAt at life ⊢
      rw [phaseOf_self isAt] at life
      rw [phaseOf_none rfl]
      obtain ⟨spawned, queue, early, late, past, apart, placed, ended, memory⟩ := life
      constructor <;> simp_all
    · refine SamePlace.at (z := z) ⟨⟨rfl, rfl, rfl, rfl, rfl, rfl⟩, .rfl, .rfl, ?_, .rfl, rfl, rfl⟩ life
      rw [phaseOf_none rfl, phaseOf_other isAt same]
  · rcases spawning.woken some_ with positive | ⟨v, writing⟩ | drains
    · exact .inl positive
    · rw [isAt] at writing; simp at writing
    · exact .inr (.inr drains)

/-! ### The user thread and the finished list -/

/-- The user thread reads the eventfd and starts to drain. -/
theorem read {why : Why} (spawning : Spawning z) (reading : z.user = .reading why) :
    Spawning { z with evfd := 0, user := .draining why } := by
  refine ⟨fun u => ?_, spawning.queue, spawning.list, fun _ => .inr (.inr rfl), fun u points => ?_,
    fun u there => by simp at there⟩
  · refine SamePlace.at (z := z) ⟨⟨rfl, rfl, rfl, rfl, rfl, rfl⟩, .rfl, .rfl, rfl, .rfl, ?_, rfl⟩
      (spawning.each u)
    rw [reading]
    rfl
  · exact spawning.target u (by rw [reading]; exact points)

/-- The user thread takes a task off the finished list. -/
theorem pick {why : Why} {rest : List TaskId} (spawning : Spawning z) (draining : z.user = .draining why)
    (spawnDone : z.spawnDone = t :: rest) :
    Spawning { z with spawnDone := rest, user := .harvesting t why } := by
  obtain ⟨absent, nodup⟩ := List.nodup_cons.mp (spawnDone ▸ spawning.list)
  refine ⟨fun u => ?_, spawning.queue, nodup, fun _ => .inr (.inr rfl), fun u points => ?_,
    fun u there => by simp at there⟩
  · have life := spawning.each u
    by_cases same : u = t
    · subst same
      unfold SpawnAt at life ⊢
      simp only [spawnDone, draining, List.mem_cons_self, absent, ZUser.harvests, decide_true,
        decide_false] at life ⊢
      change SpawnLife _ _ _ (z.phaseOf u) _ _ _
      obtain ⟨spawned, queue, early, late, past, apart, placed, ended, memory⟩ := life
      constructor <;> simp_all
    · refine SamePlace.at (z := z) ⟨⟨rfl, rfl, rfl, rfl, rfl, rfl⟩, .rfl, .rfl, rfl, ?_, ?_, rfl⟩ life
      · rw [spawnDone]; simp [same]
      · rw [draining]; simp [ZUser.harvests, Ne.symm same]
  · exact spawning.target u (by rw [draining]; exact points)

/-- The task in hand is completed with what its function returned. -/
theorem harvest {why : Why} (spawning : Spawning z) (lives : z.Lives)
    (harvesting : z.user = .harvesting t why) (free : ((z.task t).detached && z.busy t) = false) :
    Spawning { z.on (taskComplete · t (fnResult (z.task t).fnRet)) with user := .draining why } := by
  have self := spawning.each t
  unfold SpawnAt at self
  simp only [harvesting, ZUser.harvests, decide_true] at self
  obtain ⟨submitted, kind⟩ := self.spawned (by simp)
  obtain ⟨isOpen, runs, pushed⟩ := self.past (by simp)
  have life := lives.each t (by simpa using submitted)
  have plain : (fnResult (z.task t).fnRet).ptr = none := by unfold fnResult; split <;> rfl
  generalize isNext : ({ z.on (taskComplete · t (fnResult (z.task t).fnRet)) with
    user := .draining why } : ZIo) = z'
  have core : z'.toCore = (z.toCore.disarm t).settle t (fnResult (z.task t).fnRet) := by
    rw [← isNext]; exact taskComplete_plain plain
  have task : ∀ u, z'.task u =
      if u = t then settled (fnResult (z.task t).fnRet) (z.task t) else z.task u := by
    intro u; rw [core]; simp only [settle, modTask, disarm, Function.update_apply]
  have held : z'.held = z.held := by rw [core]; rfl
  have ntask : z'.ntask = z.ntask := by rw [core]; rfl
  refine ⟨fun u => ?_, by rw [← isNext]; exact spawning.queue, by rw [← isNext]; exact spawning.list,
    fun _ => by rw [← isNext]; exact .inr (.inr rfl), fun u points => ?_,
    fun u there => by rw [← isNext] at there; simp at there⟩
  · by_cases same : u = t
    · subst same
      -- Only a task that the caller still has may be completed while its work item is busy.
      have memory : z.busy u = true → z.held u = true := by
        intro busy
        have attached : (z.task u).detached = false := by simpa [busy] using free
        rw [life.owned isOpen, attached]
        rfl
      rw [busy_iff] at memory
      have phase : z'.phaseOf u = z.phaseOf u := by rw [← isNext]; rfl
      have workq : z'.workq = z.workq := by rw [← isNext]; rfl
      have spawnDone : z'.spawnDone = z.spawnDone := by rw [← isNext]; rfl
      have user : z'.user = .draining why := by rw [← isNext]
      unfold SpawnAt
      rw [phase, workq, spawnDone, user, held, ntask, task, if_pos rfl]
      obtain ⟨spawned, queue, early, late, past, apart, placed, ended, _⟩ := self
      constructor <;> simp_all [settled, ZUser.harvests]
    · refine SamePlace.at (z := z) ⟨?_, ?_, ?_, ?_, ?_, ?_, ?_⟩ (spawning.each u)
      · rw [task, if_neg same]; exact ⟨rfl, rfl, rfl, rfl, rfl, rfl⟩
      · rw [ntask]
      · rw [← isNext]; rfl
      · rw [← isNext]; rfl
      · rw [← isNext]; rfl
      · rw [← isNext, harvesting]; simp [ZUser.harvests, Ne.symm same]
      · rw [held]
  · rw [held]
    refine spawning.target u ?_
    rw [harvesting]
    rw [← isNext] at points
    exact points

/-- A task that is still on the work queue is taken off it and canceled. -/
theorem cancel (spawning : Spawning z) (queued : t ∈ z.workq) (free : z.user.harvests t = false) :
    Spawning ({ z with workq := z.workq.erase t }.on (taskCanceled · t)) := by
  have self := spawning.each t
  unfold SpawnAt at self
  have absent : t ∉ z.workq.erase t := fun inside => (spawning.queue.mem_erase_iff.mp inside).1 rfl
  generalize isNext : ({ z with workq := z.workq.erase t } : ZIo).on (taskCanceled · t) = z'
  have core : z'.toCore = (z.toCore.disarm t).settle t rCanceled := by
    rw [← isNext]; exact taskComplete_plain (by simp)
  have task : ∀ u, z'.task u = if u = t then settled rCanceled (z.task t) else z.task u := by
    intro u; rw [core]; simp only [settle, modTask, disarm, Function.update_apply]
  have held : z'.held = z.held := by rw [core]; rfl
  have ntask : z'.ntask = z.ntask := by rw [core]; rfl
  refine ⟨fun u => ?_, by rw [← isNext]; exact spawning.queue.erase t,
    by rw [← isNext]; exact spawning.list, by rw [← isNext]; exact spawning.woken,
    by rw [held, ← isNext]; exact spawning.target, fun u there => ?_⟩
  · by_cases same : u = t
    · subst same
      have phase : z'.phaseOf u = z.phaseOf u := by rw [← isNext]; rfl
      have workq : z'.workq = z.workq.erase u := by rw [← isNext]; rfl
      have spawnDone : z'.spawnDone = z.spawnDone := by rw [← isNext]; rfl
      have user : z'.user = z.user := by rw [← isNext]; rfl
      unfold SpawnAt
      rw [phase, workq, spawnDone, user, held, ntask, task, if_pos rfl]
      obtain ⟨spawned, queue, early, late, past, apart, placed, ended, memory⟩ := self
      constructor <;> simp_all [settled]
    · refine SamePlace.at (z := z) ⟨?_, ?_, ?_, ?_, ?_, ?_, ?_⟩ (spawning.each u)
      · rw [task, if_neg same]; exact ⟨rfl, rfl, rfl, rfl, rfl, rfl⟩
      · rw [ntask]
      · rw [← isNext]; exact List.mem_erase_of_ne same
      · rw [← isNext]; rfl
      · rw [← isNext]; rfl
      · rw [← isNext]; rfl
      · rw [held]
  · have before : (z.task u).done = true := spawning.releasing u (by rw [← isNext] at there; exact there)
    rw [task]
    split
    · rfl
    · exact before

/-- A function is spawned: its task is new, and its work item goes on the queue. -/
theorem submit (spawning : Spawning z) (idle : z.user = .idle) {q : Option ZRet} :
    Spawning { z.on (fun c => (c.taskNew { kind := .taskSpawn }).arm z.ntask) with
      workq := z.workq ++ [z.ntask], ret := q } := by
  have self := spawning.each z.ntask
  unfold SpawnAt at self
  have nowhere : ¬ (decide (z.ntask ∈ z.workq) || (z.phaseOf z.ntask).isSome ||
      decide (z.ntask ∈ z.spawnDone) || z.user.harvests z.ntask) = true := fun there => by
    simpa using (self.spawned there).1
  simp only [Bool.or_eq_true, decide_eq_true_eq, not_or, Bool.not_eq_true,
    Option.isSome_eq_false_iff, Option.isNone_iff_eq_none] at nowhere
  obtain ⟨⟨⟨queued, phase⟩, finished⟩, harvested⟩ := nowhere
  generalize isNext : ({ z.on (fun c => (c.taskNew { kind := .taskSpawn }).arm z.ntask) with
    workq := z.workq ++ [z.ntask], ret := q } : ZIo) = z'
  have task : ∀ u, z'.task u = if u = z.ntask then { kind := .taskSpawn } else z.task u := by
    intro u; rw [← isNext]; simp only [ZIo.on, arm, taskNew, Function.update_apply]
  have ntask : z'.ntask = z.ntask + 1 := by rw [← isNext]; rfl
  have user : z'.user = z.user := by rw [← isNext]; rfl
  refine ⟨fun u => ?_, ?_, by rw [← isNext]; exact spawning.list, by rw [← isNext]; exact spawning.woken,
    fun u points => by rw [user, idle] at points; simp [ZUser.target] at points,
    fun u there => by rw [user, idle] at there; cases there⟩
  · by_cases same : u = z.ntask
    · subst same
      unfold SpawnAt
      rw [ntask, user, task, if_pos rfl]
      rw [show z'.phaseOf z.ntask = none by rw [← isNext]; exact phase,
        show z'.workq = z.workq ++ [z.ntask] by rw [← isNext],
        show z'.spawnDone = z.spawnDone by rw [← isNext]; rfl,
        show z'.held z.ntask = true by rw [← isNext]; simp [ZIo.on, arm, taskNew]]
      constructor <;> simp_all
    · refine SamePlace.at (z := z) ⟨?_, ?_, ?_, ?_, ?_, ?_, ?_⟩ (spawning.each u)
      · rw [task, if_neg same]; exact ⟨rfl, rfl, rfl, rfl, rfl, rfl⟩
      · rw [ntask]
        exact ⟨fun less => Nat.lt_of_le_of_ne (Nat.le_of_lt_succ less) same, Nat.lt_succ_of_lt⟩
      · rw [← isNext]; simp [same]
      · rw [← isNext]; rfl
      · rw [← isNext]; rfl
      · rw [user]
      · rw [← isNext]; simp [ZIo.on, arm, taskNew, same]
  · rw [← isNext]
    exact List.nodup_append.mpr ⟨spawning.queue, List.nodup_singleton _, fun a inside b there => by
      obtain rfl : b = z.ntask := by simpa using there
      exact fun same => queued (same ▸ inside)⟩

end Spawning

end ZIo

end Myio.Loop
