import Myio.Vtable

/-! The blocking loops of the public header, over any backend behind the vtable. -/

namespace Myio

/--
The vtable entries the header's loops are built from.

A call that enters the backend also takes a `Turn`: what the world does during that call.
Nothing ties two turns together, so a backend may complete any set of tasks in any call.
-/
structure Backend (State Task Turn : Type) where
  taskDone : State → Task → Bool
  taskResult : State → Task → Result
  step : State → Turn → State × Bool
  sleep : State → Turn → Nat → State × Option Task
  cancel : State → Turn → Task → State × Bool
  taskFree : State → Turn → Task → State
  taskDetach : State → Turn → Task → State

/-- A call a loop made into the backend. -/
inductive Entry (Task : Type)
  | step
  | sleep (timer : Option Task)
  | cancel (task : Task)
  | taskFree (task : Task)
  | taskDetach (task : Task)
  deriving DecidableEq

/-- The backend's state, with every call made so far and the state it was made in. -/
structure World (State Task : Type) where
  state : State
  calls : List (State × Entry Task) := []

variable {State Task Turn : Type}

namespace World

/-- The world after a call. -/
def enter (world : World State Task) (entry : Entry Task) (state : State) : World State Task :=
  { state, calls := world.calls ++ [(world.state, entry)] }

@[simp] theorem enter_state (world : World State Task) (entry : Entry Task) (state : State) :
    (world.enter entry state).state = state := rfl

@[simp] theorem enter_calls (world : World State Task) (entry : Entry Task) (state : State) :
    (world.enter entry state).calls = world.calls ++ [(world.state, entry)] := rfl

end World

namespace Backend

variable (b : Backend State Task Turn)

/-- The world after one `step`. -/
def stepped (world : World State Task) (turn : Turn) : World State Task :=
  world.enter .step (b.step world.state turn).1

@[simp] theorem stepped_state (world : World State Task) (turn : Turn) :
    (b.stepped world turn).state = (b.step world.state turn).1 := rfl

/--
`myio_await`: the loop takes its turns from a list, and `none` means it still blocks
when the list is used up. What is left of the list is returned.
-/
def myioAwait (task : Task) : List Turn → World State Task →
    Option (Result × List Turn × World State Task)
  | turns, world =>
    if b.taskDone world.state task then
      some (b.taskResult world.state task, turns, world)
    else
      match turns with
      | [] => none
      | turn :: rest =>
        if (b.step world.state turn).2 then
          myioAwait task rest (b.stepped world turn)
        else
          some (rErr EDEADLK, rest, b.stepped world turn)

/-- The `for` loop of `myio_select`: the first entry that is done, counting from `i`. -/
def firstDone (state : State) : List (Option Task) → Nat → Option Nat
  | [], _ => none
  | none :: rest, i => firstDone state rest (i + 1)
  | some task :: rest, i => if b.taskDone state task then some i else firstDone state rest (i + 1)

/-- `myio_select`, with its `any` flag computed by the same walk over the entries. -/
def myioSelect (tasks : List (Option Task)) : List Turn → World State Task →
    Option (Int × List Turn × World State Task)
  | turns, world =>
    match b.firstDone world.state tasks 0 with
    | some i => some (i, turns, world)
    | none =>
      if tasks.any Option.isSome then
        match turns with
        | [] => none
        | turn :: rest =>
          if (b.step world.state turn).2 then
            myioSelect tasks rest (b.stepped world turn)
          else
            some (-1, rest, b.stepped world turn)
      else
        some (-1, turns, world)

/-- `myio_task_drop` on a task that is not NULL. -/
def myioTaskDrop (world : World State Task) (turn turn' : Turn) (task : Task) :
    World State Task :=
  let canceled := world.enter (.cancel task) (b.cancel world.state turn task).1
  canceled.enter (.taskDetach task) (b.taskDetach canceled.state turn' task)

/-- What `myio_await_timeout` does once it has a timer. -/
def awaitWith (task timer : Task) (turns : List Turn) (world : World State Task) :
    Option (Result × List Turn × World State Task) :=
  match b.myioSelect [some task, some timer] turns world with
  | none => none
  | some (_, rest, world) =>
    if b.taskDone world.state task then
      -- The task won: the still-ticking timer is of no further interest.
      match rest with
      | turn :: turn' :: rest => b.myioAwait task rest (b.myioTaskDrop world turn turn' timer)
      | _ => none
    else
      match rest with
      | turn :: rest =>
        some (rPending, rest, world.enter (.taskFree timer) (b.taskFree world.state turn timer))
      | [] => none

/-- `myio_await_timeout`. -/
def myioAwaitTimeout (task : Option Task) (ms : Nat) (turns : List Turn)
    (world : World State Task) : Option (Result × List Turn × World State Task) :=
  match task with
  | none => some (rErr ENOMEM, turns, world)
  | some task =>
    if b.taskDone world.state task then b.myioAwait task turns world
    else
      match turns with
      | [] => none
      | turn :: rest =>
        let slept := b.sleep world.state turn ms
        let world := world.enter (.sleep slept.2) slept.1
        match slept.2 with
        | none => b.myioAwait task rest world
        | some timer => b.awaitWith task timer rest world

/-- The state after a number of steps. -/
def after : State → List Turn → State
  | state, [] => state
  | state, turn :: rest => after (b.step state turn).1 rest

/-- No number of steps, whatever the world does in them, completes the task. -/
def Never (state : State) (task : Task) : Prop :=
  ∀ turns, b.taskDone (b.after state turns) task = false

/-- All of the turns went by in steps that reported progress, with the task not done throughout. -/
def Waits (task : Task) : State → List Turn → Prop
  | state, [] => b.taskDone state task = false
  | state, turn :: rest =>
    b.taskDone state task = false ∧ (b.step state turn).2 = true ∧
      Waits task (b.step state turn).1 rest

end Backend

/--
The vtable contract the loops rely on.

`Held` says a handle is the caller's: submitted, and neither freed nor detached.
-/
structure Backend.Contract (b : Backend State Task Turn) (Held : State → Task → Prop) : Prop where
  /-- A stored result says `MYIO_PENDING` exactly while the task is not done. -/
  stored : ∀ state task, Held state task →
    (b.taskDone state task = true ↔ (b.taskResult state task).status ≠ .pending)
  /-- `step` loses no handle. -/
  step_held : ∀ state turn task, Held state task → Held (b.step state turn).1 task
  /-- A done task stays done over `step`. -/
  step_done : ∀ state turn task, Held state task → b.taskDone state task = true →
    b.taskDone (b.step state turn).1 task = true
  /-- `step` returns 0 only when no task changed state in that call, and none ever will. -/
  step_drained : ∀ state turn, (b.step state turn).2 = false → ∀ task, Held state task →
    b.taskDone (b.step state turn).1 task = b.taskDone state task ∧
      (b.taskDone state task = false → b.Never (b.step state turn).1 task)
  /-- A submission keeps every handle, and every done task done. -/
  sleep_held : ∀ state turn ms task, Held state task → Held (b.sleep state turn ms).1 task
  sleep_done : ∀ state turn ms task, Held state task → b.taskDone state task = true →
    b.taskDone (b.sleep state turn ms).1 task = true
  /-- A submission's handle is new, and the caller's from then on. -/
  sleep_fresh : ∀ state turn ms timer, (b.sleep state turn ms).2 = some timer →
    ¬ Held state timer ∧ Held (b.sleep state turn ms).1 timer
  /-- A cancel keeps every handle, and every done task done. -/
  cancel_held : ∀ state turn task other, Held state task → Held state other →
    Held (b.cancel state turn task).1 other
  cancel_done : ∀ state turn task other, Held state task → Held state other →
    b.taskDone state other = true → b.taskDone (b.cancel state turn task).1 other = true
  /-- A free keeps every other handle, and every other done task done. -/
  free_held : ∀ state turn task other, Held state task → Held state other → other ≠ task →
    Held (b.taskFree state turn task) other
  free_done : ∀ state turn task other, Held state task → Held state other → other ≠ task →
    b.taskDone state other = true → b.taskDone (b.taskFree state turn task) other = true
  /-- So does a detach. -/
  detach_held : ∀ state turn task other, Held state task → Held state other → other ≠ task →
    Held (b.taskDetach state turn task) other
  detach_done : ∀ state turn task other, Held state task → Held state other → other ≠ task →
    b.taskDone state other = true → b.taskDone (b.taskDetach state turn task) other = true

namespace Backend

variable {b : Backend State Task Turn} {Held : State → Task → Prop}

/-- The second world is the first one after some steps and no other call. -/
inductive Steps (b : Backend State Task Turn) : World State Task → World State Task → Prop
  | refl (world : World State Task) : Steps b world world
  | head {world last : World State Task} (turn : Turn) (rest : Steps b (b.stepped world turn) last) :
      Steps b world last

/-- What a step preserves of the state, a run of steps preserves. -/
theorem Steps.invariant (Holds : State → Prop)
    (preserved : ∀ state turn, Holds state → Holds (b.step state turn).1)
    {world last : World State Task} (steps : Steps b world last) (initially : Holds world.state) :
    Holds last.state := by
  induction steps with
  | refl => exact initially
  | head turn rest ih => exact ih (preserved _ turn initially)

/-- Steps lose no handle. -/
theorem Steps.held (contract : b.Contract Held) {world last : World State Task}
    (steps : Steps b world last) {task : Task} (held : Held world.state task) :
    Held last.state task :=
  steps.invariant (Held · task) (fun state turn => contract.step_held state turn task) held

/-- Steps only append steps to the record. -/
theorem Steps.calls {world last : World State Task} (steps : Steps b world last) :
    ∃ made, last.calls = world.calls ++ made ∧ ∀ call ∈ made, call.2 = .step := by
  induction steps with
  | refl world => exact ⟨[], by simp, by simp⟩
  | @head world last turn rest ih =>
    obtain ⟨made, calls, only⟩ := ih
    refine ⟨(world.state, .step) :: made, by simp [calls, stepped], ?_⟩
    intro call member
    rcases List.mem_cons.mp member with rfl | later
    · rfl
    · exact only call later

/-- A task that can never complete is not done now. -/
theorem Never.undone {state : State} {task : Task} (never : b.Never state task) :
    b.taskDone state task = false := never []

/-- An await that blocks has spent all its turns waiting. -/
theorem waits_of_myioAwait {task : Task} : ∀ (turns : List Turn) (world : World State Task),
    b.myioAwait task turns world = none → b.Waits task world.state turns := by
  intro turns
  induction turns with
  | nil =>
    intro world blocked
    simp only [myioAwait] at blocked
    split at blocked
    · cases blocked
    · rename_i undone
      rw [Waits]
      simpa using undone
  | cons turn rest ih =>
    intro world blocked
    rw [myioAwait] at blocked
    by_cases done : b.taskDone world.state task
    · simp [done] at blocked
    · by_cases moved : (b.step world.state turn).2
      · simp only [done, moved, if_true] at blocked
        exact ⟨by simpa using done, moved, ih _ blocked⟩
      · simp [done, moved] at blocked

/-- A returning await took only steps, and reports the stored result or a deadlock. -/
theorem myioAwait_some (contract : b.Contract Held) {task : Task} :
    ∀ (turns : List Turn) (world : World State Task) {result : Result} {rest : List Turn}
      {last : World State Task}, Held world.state task →
      b.myioAwait task turns world = some (result, rest, last) →
      Steps b world last ∧
        (b.taskDone last.state task = true ∧ result = b.taskResult last.state task ∨
          result = rErr EDEADLK ∧ b.Never last.state task) := by
  -- Induction on the turns: a done task ends the loop where it stands.
  intro turns
  induction turns with
  | nil =>
    intro world result rest last held returned
    simp only [myioAwait] at returned
    split at returned
    · rename_i done
      simp only [Option.some.injEq, Prod.mk.injEq] at returned
      obtain ⟨rfl, rfl, rfl⟩ := returned
      exact ⟨.refl _, .inl ⟨done, rfl⟩⟩
    · cases returned
  | cons turn turns ih =>
    intro world result rest last held returned
    rw [myioAwait] at returned
    by_cases done : b.taskDone world.state task
    · simp only [done, if_true, Option.some.injEq, Prod.mk.injEq] at returned
      obtain ⟨rfl, rfl, rfl⟩ := returned
      exact ⟨.refl _, .inl ⟨done, rfl⟩⟩
    · by_cases moved : (b.step world.state turn).2
      · simp only [done, moved, if_true] at returned
        have later := ih (b.stepped world turn) (contract.step_held _ turn _ held) returned
        exact ⟨.head turn later.1, later.2⟩
      · simp only [done, moved] at returned
        cases returned
        have drained := contract.step_drained _ turn (by simpa using moved) task held
        exact ⟨.head turn (.refl _), .inr ⟨rfl, drained.2 (by simpa using done)⟩⟩

/-- The walk stops at the first entry that is done. -/
theorem firstDone_some {state : State} : ∀ (tasks : List (Option Task)) (i found : Nat),
    b.firstDone state tasks i = some found →
    ∃ k task, found = i + k ∧ tasks[k]? = some (some task) ∧ b.taskDone state task = true ∧
      ∀ j < k, ∀ lower, tasks[j]? = some (some lower) → b.taskDone state lower = false := by
  intro tasks
  induction tasks with
  | nil => intro i found stopped; cases stopped
  | cons entry tasks ih =>
    intro i found stopped
    cases entry with
    | none =>
      obtain ⟨k, task, place, there, done, lower⟩ := ih (i + 1) found stopped
      refine ⟨k + 1, task, by omega, there, done, ?_⟩
      intro j below other
      cases j with
      | zero => simp
      | succ j => simpa using lower j (by omega) other
    | some task =>
      simp only [firstDone] at stopped
      split at stopped
      · rename_i done
        cases stopped
        exact ⟨0, task, rfl, rfl, done, by simp⟩
      · rename_i undone
        obtain ⟨k, found, place, there, done, lower⟩ := ih (i + 1) _ stopped
        refine ⟨k + 1, found, by omega, there, done, ?_⟩
        intro j below other
        cases j with
        | zero =>
          intro same
          cases same
          simpa using undone
        | succ j => simpa using lower j (by omega) other

/-- A walk that finds nothing has seen every entry not done. -/
theorem firstDone_none {state : State} : ∀ (tasks : List (Option Task)) (i : Nat),
    b.firstDone state tasks i = none →
    ∀ task, some task ∈ tasks → b.taskDone state task = false := by
  intro tasks
  induction tasks with
  | nil => intro i _ task member; cases member
  | cons entry tasks ih =>
    intro i missed task member
    cases entry with
    | none => exact ih (i + 1) missed task (by simpa using member)
    | some first =>
      simp only [firstDone] at missed
      split at missed
      · cases missed
      · rename_i undone
        rcases List.mem_cons.mp member with same | later
        · cases same
          simpa using undone
        · exact ih (i + 1) missed task later

/-- The answer of a select that returned in this state. -/
def Selected (b : Backend State Task Turn) (tasks : List (Option Task)) (state : State)
    (answer : Int) : Prop :=
  (∃ i : Nat, answer = i ∧ (∃ task, tasks[i]? = some (some task) ∧ b.taskDone state task = true) ∧
    ∀ j < i, ∀ lower, tasks[j]? = some (some lower) → b.taskDone state lower = false) ∨
  answer = -1 ∧ ((∀ entry ∈ tasks, entry = none) ∨ ∀ task, some task ∈ tasks → b.Never state task)

/-- A returning select took only steps, and its answer fits the state it returns in. -/
theorem myioSelect_some (contract : b.Contract Held) {tasks : List (Option Task)} :
    ∀ (turns : List Turn) (world : World State Task) {answer : Int} {rest : List Turn}
      {last : World State Task}, (∀ task, some task ∈ tasks → Held world.state task) →
      b.myioSelect tasks turns world = some (answer, rest, last) →
      Steps b world last ∧ b.Selected tasks last.state answer := by
  -- Each turn either answers from the entries as they stand, or makes one step.
  have answered : ∀ (world : World State Task) (i : Nat),
      b.firstDone world.state tasks 0 = some i → b.Selected tasks world.state i := by
    intro world i stopped
    obtain ⟨k, task, rfl, there, done, lower⟩ := firstDone_some tasks 0 i stopped
    rw [Nat.zero_add]
    exact .inl ⟨k, rfl, ⟨task, there, done⟩, lower⟩
  have empty : ∀ world : World State Task, ¬ tasks.any Option.isSome →
      b.Selected tasks world.state (-1) := by
    intro world nothing
    refine .inr ⟨rfl, .inl ?_⟩
    simpa using nothing
  intro turns
  induction turns with
  | nil =>
    intro world answer rest last held returned
    rw [myioSelect] at returned
    cases stopped : b.firstDone world.state tasks 0 with
    | some i =>
      simp only [stopped, Option.some.injEq, Prod.mk.injEq] at returned
      obtain ⟨rfl, rfl, rfl⟩ := returned
      exact ⟨.refl _, answered _ i stopped⟩
    | none =>
      by_cases any : tasks.any Option.isSome
      · simp [stopped, any] at returned
      · simp only [stopped, any] at returned
        cases returned
        exact ⟨.refl _, empty _ any⟩
  | cons turn turns ih =>
    intro world answer rest last held returned
    rw [myioSelect] at returned
    cases stopped : b.firstDone world.state tasks 0 with
    | some i =>
      simp only [stopped, Option.some.injEq, Prod.mk.injEq] at returned
      obtain ⟨rfl, rfl, rfl⟩ := returned
      exact ⟨.refl _, answered _ i stopped⟩
    | none =>
      by_cases any : tasks.any Option.isSome
      · by_cases moved : (b.step world.state turn).2
        · simp only [stopped, any, moved, if_true] at returned
          have later := ih (b.stepped world turn)
            (fun task member => contract.step_held _ turn _ (held task member)) returned
          exact ⟨.head turn later.1, later.2⟩
        · simp only [stopped, any, moved, if_true] at returned
          cases returned
          refine ⟨.head turn (.refl _), .inr ⟨rfl, .inr ?_⟩⟩
          intro task member
          have undone := firstDone_none tasks 0 stopped task member
          exact (contract.step_drained _ turn (by simpa using moved) task (held task member)).2
            undone
      · simp only [stopped, any] at returned
        cases returned
        exact ⟨.refl _, empty _ any⟩

/-- A select that blocks has spent all its turns waiting for each of its tasks. -/
theorem waits_of_myioSelect {tasks : List (Option Task)} :
    ∀ (turns : List Turn) (world : World State Task), b.myioSelect tasks turns world = none →
      tasks.any Option.isSome ∧ ∀ task, some task ∈ tasks → b.Waits task world.state turns := by
  intro turns
  induction turns with
  | nil =>
    intro world blocked
    rw [myioSelect] at blocked
    cases stopped : b.firstDone world.state tasks 0 with
    | some i => simp [stopped] at blocked
    | none =>
      by_cases any : tasks.any Option.isSome
      · exact ⟨any, fun task member => firstDone_none tasks 0 stopped task member⟩
      · simp [stopped, any] at blocked
  | cons turn turns ih =>
    intro world blocked
    rw [myioSelect] at blocked
    cases stopped : b.firstDone world.state tasks 0 with
    | some i => simp [stopped] at blocked
    | none =>
      by_cases any : tasks.any Option.isSome
      · by_cases moved : (b.step world.state turn).2
        · simp only [stopped, any, moved, if_true] at blocked
          refine ⟨any, fun task member => ?_⟩
          have undone := firstDone_none tasks 0 stopped task member
          exact ⟨undone, moved, (ih _ blocked).2 task member⟩
        · simp [stopped, any, moved] at blocked
      · simp [stopped, any] at blocked

/-- The call hands the task's ownership back to the backend. -/
def Releases (task : Task) (call : State × Entry Task) : Prop :=
  call.2 = .taskFree task ∨ call.2 = .taskDetach task

instance [DecidableEq Task] (task : Task) (call : State × Entry Task) :
    Decidable (Releases task call) := inferInstanceAs (Decidable (_ ∨ _))

/-- The call is none of those that could end a task the caller still holds. -/
def Spares (task : Task) (call : State × Entry Task) : Prop :=
  call.2 ≠ .cancel task ∧ ¬ Releases task call

/-- The call creates a timer. -/
def isSleep (call : State × Entry Task) : Bool :=
  match call.2 with
  | .sleep _ => true
  | _ => false

/-- What an await of this task returned in this state. -/
def Awaited (b : Backend State Task Turn) (task : Task) (state : State) (result : Result) : Prop :=
  b.taskDone state task = true ∧ result = b.taskResult state task ∨
    result = rErr EDEADLK ∧ b.Never state task

/-- What the calls of one `myio_await_timeout` and its result say together. -/
structure TimedWait [DecidableEq Task] (b : Backend State Task Turn) (task : Task)
    (result : Result) (last : State) (made : List (State × Entry Task)) : Prop where
  /-- The caller's task is neither canceled nor freed nor detached. -/
  spared : ∀ call ∈ made, Spares task call
  /-- Every timer created is released by exactly one call. -/
  released : ∀ state timer, (state, Entry.sleep (some timer)) ∈ made →
    made.countP (Releases timer ·) = 1
  /-- Only a timer created here is released, and there is at most one. -/
  owned : ∀ call ∈ made, ∀ other, Releases other call →
    ∃ state, (state, Entry.sleep (some other)) ∈ made
  single : made.countP isSleep ≤ 1
  /-- `MYIO_PENDING` tells of a wait that ended with the task not done. -/
  pending : result.status = .pending →
    ∃ state timer, (state, Entry.taskFree timer) ∈ made ∧ b.taskDone state task = false ∧
      (b.taskDone state timer = true ∨ b.Never state task ∧ b.Never state timer)
  /-- Any other result is the stored one, or a deadlock. -/
  answered : result.status ≠ .pending → b.Awaited task last result

/-- Neither answer of an await says `MYIO_PENDING`. -/
theorem Awaited.status (contract : b.Contract Held) {task : Task} {state : State} {result : Result}
    (held : Held state task) (answer : b.Awaited task state result) :
    result.status ≠ .pending := by
  rcases answer with ⟨done, rfl⟩ | ⟨rfl, _⟩
  · exact (contract.stored _ _ held).mp done
  · simp

/-- Without a timer there is nothing to release. -/
theorem TimedWait.untimed [DecidableEq Task] {task : Task} {result : Result} {last : State}
    {made : List (State × Entry Task)}
    (only : ∀ call ∈ made, call.2 = .step ∨ call.2 = .sleep none)
    (single : made.countP isSleep ≤ 1) (status : result.status ≠ .pending)
    (answer : b.Awaited task last result) : b.TimedWait task result last made where
  spared call member := by
    rcases only call member with kind | kind <;> simp [Spares, Releases, kind]
  released state timer member := by
    rcases only _ member with kind | kind <;> cases kind
  owned call member other releases := by
    rcases only call member with kind | kind <;> simp [Releases, kind] at releases
  single := single
  pending waiting := absurd waiting status
  answered _ := answer

/-- Steps create no timer and release none. -/
theorem countP_of_steps [DecidableEq Task] {made : List (State × Entry Task)}
    (only : ∀ call ∈ made, call.2 = .step) :
    made.countP isSleep = 0 ∧ ∀ timer, made.countP (Releases timer ·) = 0 := by
  constructor
  · rw [List.countP_eq_zero]
    intro call member
    simp [isSleep, only call member]
  · intro timer
    rw [List.countP_eq_zero]
    intro call member
    simp [Releases, only call member]

/-- With a timer, the calls after the wait are about that timer alone. -/
theorem TimedWait.timed [DecidableEq Task] {task timer : Task} {result : Result}
    (start : State) {last : State} {made : List (State × Entry Task)}
    (tail : List (State × Entry Task)) (other : timer ≠ task)
    (only : ∀ call ∈ made, call.2 = .step)
    (about : ∀ call ∈ tail, call.2 = .cancel timer ∨ Releases timer call)
    (once : tail.countP (Releases timer ·) = 1)
    (pending : result.status = .pending →
      ∃ state, (state, Entry.taskFree timer) ∈ tail ∧ b.taskDone state task = false ∧
        (b.taskDone state timer = true ∨ b.Never state task ∧ b.Never state timer))
    (answered : result.status ≠ .pending → b.Awaited task last result) :
    b.TimedWait task result last ((start, .sleep (some timer)) :: (made ++ tail)) := by
  -- Every call is the submission, one of the steps, or about the timer.
  have kinds : ∀ call ∈ (start, Entry.sleep (some timer)) :: (made ++ tail),
      call.2 = .sleep (some timer) ∨ call.2 = .step ∨
        (call.2 = .cancel timer ∨ Releases timer call) := by
    intro call member
    rcases List.mem_cons.mp member with rfl | later
    · exact .inl rfl
    · rcases List.mem_append.mp later with stepped | ended
      · exact .inr (.inl (only call stepped))
      · exact .inr (.inr (about call ended))
  have quiet := countP_of_steps only
  constructor
  · intro call member
    rcases kinds call member with kind | kind | kind | kind | kind <;>
      simp [Spares, Releases, kind, other]
  · intro state again member
    rcases kinds _ member with kind | kind | kind | kind | kind <;> cases kind
    rw [List.countP_cons, List.countP_append, quiet.2 timer, once]
    simp [Releases]
  · intro call member released releases
    refine ⟨start, ?_⟩
    rcases kinds call member with kind | kind | kind | kind | kind <;>
      simp [Releases, kind] at releases
    all_goals simp [releases]
  · have none : tail.countP isSleep = 0 := by
      rw [List.countP_eq_zero]
      intro call member
      rcases about call member with kind | kind | kind <;> simp [isSleep, kind]
    rw [List.countP_cons, List.countP_append, quiet.1, none]
    simp [isSleep]
  · intro waiting
    obtain ⟨state, freed, ended⟩ := pending waiting
    exact ⟨state, timer, List.mem_cons_of_mem _ (List.mem_append_right _ freed), ended⟩
  · exact answered

/-- An await of a task that is done returns at once. -/
theorem myioAwait_done {task : Task} {turns : List Turn} {world : World State Task}
    (done : b.taskDone world.state task = true) :
    b.myioAwait task turns world = some (b.taskResult world.state task, turns, world) := by
  unfold myioAwait
  rw [if_pos done]

/-- Dropping the timer ends no other task. -/
theorem myioTaskDrop_done (contract : b.Contract Held) {world : World State Task}
    (turn turn' : Turn) {task timer : Task} (other : timer ≠ task) (held : Held world.state task)
    (ours : Held world.state timer) (done : b.taskDone world.state task = true) :
    Held (b.myioTaskDrop world turn turn' timer).state task ∧
      b.taskDone (b.myioTaskDrop world turn turn' timer).state task = true := by
  have canceled := contract.cancel_done _ turn timer task ours held done
  have still := contract.cancel_held _ turn timer task ours held
  have mine := contract.cancel_held _ turn timer timer ours ours
  exact ⟨contract.detach_held _ turn' timer task mine still other.symm,
    contract.detach_done _ turn' timer task mine still other.symm canceled⟩

/-- A wait of two that ends with the first one not done has its reason. -/
theorem Selected.timer {task timer : Task} {state : State} {answer : Int}
    (selected : b.Selected [some task, some timer] state answer)
    (undone : b.taskDone state task = false) :
    b.taskDone state timer = true ∨ b.Never state task ∧ b.Never state timer := by
  rcases selected with ⟨i, _, ⟨winner, there, done⟩, _⟩ | ⟨_, missing | never⟩
  · rcases i with _ | _ | i
    · simp only [List.getElem?_cons_zero, Option.some.injEq] at there
      rw [there, done] at undone
      cases undone
    · simp only [Nat.zero_add, List.getElem?_cons_succ, List.getElem?_cons_zero,
        Option.some.injEq] at there
      rw [there]
      exact .inl done
    · simp at there
  · simpa using missing (some task) (by simp)
  · exact .inr ⟨never task (by simp), never timer (by simp)⟩

/-- Once there is a timer, the wait ends with it released. -/
theorem awaitWith_some [DecidableEq Task] (contract : b.Contract Held) {task timer : Task}
    {turns : List Turn} (start : State) {world : World State Task} {result : Result}
    {rest : List Turn} {last : World State Task} (other : timer ≠ task)
    (held : Held world.state task) (ours : Held world.state timer)
    (returned : b.awaitWith task timer turns world = some (result, rest, last)) :
    ∃ made, last.calls = world.calls ++ made ∧ Held last.state task ∧
      b.TimedWait task result last.state ((start, .sleep (some timer)) :: made) := by
  simp only [awaitWith] at returned
  cases waited : b.myioSelect [some task, some timer] turns world with
  | none => simp [waited] at returned
  | some ended =>
    obtain ⟨answer, left, after⟩ := ended
    simp only [waited] at returned
    have both : ∀ watched, some watched ∈ [some task, some timer] → Held world.state watched := by
      intro watched member
      simp only [List.mem_cons, Option.some.injEq, List.not_mem_nil, or_false] at member
      rcases member with rfl | rfl
      · exact held
      · exact ours
    obtain ⟨steps, selected⟩ := myioSelect_some contract turns world both waited
    obtain ⟨made, calls, only⟩ := steps.calls
    have still := steps.held contract held
    have mine := steps.held contract ours
    by_cases done : b.taskDone after.state task = true
    · -- The task won: the timer is canceled and detached, and the task answers at once.
      rw [if_pos done] at returned
      rcases left with _ | ⟨turn, _ | ⟨turn', left⟩⟩
      · cases returned
      · cases returned
      · have dropped := myioTaskDrop_done contract turn turn' other still mine done
        simp only [myioAwait_done dropped.2, Option.some.injEq, Prod.mk.injEq] at returned
        obtain ⟨rfl, _, rfl⟩ := returned
        refine ⟨made ++ _, ?_, dropped.1, .timed start [(after.state, .cancel timer),
          ((b.cancel after.state turn timer).1, .taskDetach timer)] other only ?_ ?_ ?_ ?_⟩
        · simp [myioTaskDrop, calls]
        · simp [Releases]
        · simp [Releases]
        · intro waiting
          exact absurd waiting ((contract.stored _ _ dropped.1).mp dropped.2)
        · intro _
          exact .inl ⟨dropped.2, rfl⟩
    · rw [if_neg done] at returned
      have undone : b.taskDone after.state task = false := by simpa using done
      rcases left with _ | ⟨turn, left⟩
      · cases returned
      · simp only [Option.some.injEq, Prod.mk.injEq] at returned
        obtain ⟨rfl, _, rfl⟩ := returned
        refine ⟨made ++ _, ?_, contract.free_held _ turn timer task mine still other.symm,
          .timed start [(after.state, .taskFree timer)] other only ?_ ?_ ?_ ?_⟩
        · simp [calls]
        · simp [Releases]
        · simp [Releases]
        · intro _
          exact ⟨after.state, by simp, undone, selected.timer undone⟩
        · intro answered
          exact absurd rfl answered

/-- Every way the timed wait returns. -/
theorem myioAwaitTimeout_some [DecidableEq Task] (contract : b.Contract Held) {task : Task}
    {ms : Nat} {turns : List Turn} {world : World State Task} {result : Result} {rest : List Turn}
    {last : World State Task} (held : Held world.state task)
    (returned : b.myioAwaitTimeout (some task) ms turns world = some (result, rest, last)) :
    ∃ made, last.calls = world.calls ++ made ∧ Held last.state task ∧
      b.TimedWait task result last.state made := by
  simp only [myioAwaitTimeout] at returned
  by_cases done : b.taskDone world.state task = true
  · simp only [done, if_true, myioAwait_done, Option.some.injEq, Prod.mk.injEq] at returned
    obtain ⟨rfl, _, rfl⟩ := returned
    have answer : b.Awaited task world.state (b.taskResult world.state task) := .inl ⟨done, rfl⟩
    exact ⟨[], by simp, held, .untimed (by simp) (by simp) (answer.status contract held) answer⟩
  · rw [if_neg done] at returned
    rcases turns with _ | ⟨turn, turns⟩
    · cases returned
    · have still := contract.sleep_held world.state turn ms task held
      cases slept : (b.sleep world.state turn ms).2 with
      | none =>
        simp only [slept] at returned
        obtain ⟨steps, answer⟩ := myioAwait_some contract turns _ still returned
        obtain ⟨made, calls, only⟩ := steps.calls
        have kept := steps.held contract still
        refine ⟨(world.state, .sleep none) :: made, by simp [calls], kept,
          .untimed ?_ ?_ (Awaited.status contract kept answer) answer⟩
        · intro call member
          rcases List.mem_cons.mp member with rfl | later
          · exact .inr rfl
          · exact .inl (only call later)
        · rw [List.countP_cons, (countP_of_steps only).1]
          simp [isSleep]
      | some timer =>
        simp only [slept] at returned
        have fresh := contract.sleep_fresh world.state turn ms timer slept
        have other : timer ≠ task := by
          rintro rfl
          exact fresh.1 held
        obtain ⟨made, calls, kept, timed⟩ := awaitWith_some contract world.state other still
          fresh.2 returned
        exact ⟨_ :: made, by simp [calls], kept, timed⟩

/-- Further turns change nothing about an await that has returned. -/
theorem myioAwait_append {task : Task} (more : List Turn) :
    ∀ (turns : List Turn) (world : World State Task) {result : Result} {rest : List Turn}
      {last : World State Task}, b.myioAwait task turns world = some (result, rest, last) →
      b.myioAwait task (turns ++ more) world = some (result, rest ++ more, last) := by
  intro turns
  induction turns with
  | nil =>
    intro world result rest last returned
    by_cases done : b.taskDone world.state task = true
    · rw [myioAwait_done done] at returned ⊢
      cases returned
      rfl
    · simp [myioAwait, done] at returned
  | cons turn turns ih =>
    intro world result rest last returned
    by_cases done : b.taskDone world.state task = true
    · rw [myioAwait_done done] at returned ⊢
      cases returned
      rfl
    · rw [List.cons_append, myioAwait]
      rw [myioAwait] at returned
      by_cases moved : (b.step world.state turn).2
      · simp only [done, moved, if_true] at returned ⊢
        exact ih _ returned
      · simp only [done, moved] at returned ⊢
        cases returned
        rfl

/-- Nor about a select that has returned. -/
theorem myioSelect_append {tasks : List (Option Task)} (more : List Turn) :
    ∀ (turns : List Turn) (world : World State Task) {answer : Int} {rest : List Turn}
      {last : World State Task}, b.myioSelect tasks turns world = some (answer, rest, last) →
      b.myioSelect tasks (turns ++ more) world = some (answer, rest ++ more, last) := by
  intro turns
  induction turns with
  | nil =>
    intro world answer rest last returned
    rw [myioSelect.eq_def] at returned ⊢
    cases stopped : b.firstDone world.state tasks 0 with
    | some i =>
      simp only [stopped] at returned ⊢
      cases returned
      rfl
    | none =>
      by_cases any : tasks.any Option.isSome
      · simp [stopped, any] at returned
      · simp only [stopped, any] at returned ⊢
        cases returned
        rfl
  | cons turn turns ih =>
    intro world answer rest last returned
    rw [List.cons_append, myioSelect]
    rw [myioSelect] at returned
    cases stopped : b.firstDone world.state tasks 0 with
    | some i =>
      simp only [stopped] at returned ⊢
      cases returned
      rfl
    | none =>
      by_cases any : tasks.any Option.isSome
      · by_cases moved : (b.step world.state turn).2
        · simp only [stopped, any, moved, if_true] at returned ⊢
          exact ih _ returned
        · simp only [stopped, any, moved] at returned ⊢
          cases returned
          rfl
      · simp only [stopped, any] at returned ⊢
        cases returned
        rfl

/-- Once the wait for the task or the timer is over, two more calls and it returns. -/
theorem myioAwaitTimeout_returns (contract : b.Contract Held) {task : Task} {ms : Nat} {turn : Turn}
    {before after : List Turn} {world : World State Task} (held : Held world.state task)
    (long : 2 ≤ after.length)
    (ended : ∃ watched ∈ task :: (b.sleep world.state turn ms).2.toList,
      ¬ b.Waits watched (b.sleep world.state turn ms).1 before) :
    b.myioAwaitTimeout (some task) ms (turn :: (before ++ after)) world ≠ none := by
  obtain ⟨watched, member, ended⟩ := ended
  simp only [myioAwaitTimeout]
  by_cases done : b.taskDone world.state task = true
  · simp [done, myioAwait_done done]
  rw [if_neg done]
  have still := contract.sleep_held world.state turn ms task held
  cases slept : (b.sleep world.state turn ms).2 with
  | none =>
    rw [slept, Option.toList_none, List.mem_singleton] at member
    subst member
    simp only
    cases waited : b.myioAwait watched before
        (world.enter (.sleep none) (b.sleep world.state turn ms).1) with
    | none => exact absurd (waits_of_myioAwait before _ waited) ended
    | some answer =>
      rw [myioAwait_append after before _ waited]
      exact Option.some_ne_none _
  | some timer =>
    have fresh := contract.sleep_fresh world.state turn ms timer slept
    have other : timer ≠ task := by
      rintro rfl
      exact fresh.1 held
    have watching : some watched ∈ [some task, some timer] := by
      rw [slept] at member
      simpa using member
    simp only [awaitWith]
    cases waited : b.myioSelect [some task, some timer] before
        (world.enter (.sleep (some timer)) (b.sleep world.state turn ms).1) with
    | none => exact absurd ((waits_of_myioSelect before _ waited).2 watched watching) ended
    | some answer =>
      obtain ⟨index, left, last⟩ := answer
      have both : ∀ task', some task' ∈ [some task, some timer] →
          Held (b.sleep world.state turn ms).1 task' := by
        intro task' either
        simp only [List.mem_cons, Option.some.injEq, List.not_mem_nil, or_false] at either
        rcases either with rfl | rfl
        · exact still
        · exact fresh.2
      have steps := (myioSelect_some contract before _ both waited).1
      simp only [myioSelect_append after before _ waited]
      rcases extra : left ++ after with _ | ⟨turn', _ | ⟨turn'', rest⟩⟩
      · have short := congrArg List.length extra
        simp only [List.length_append, List.length_nil] at short
        omega
      · have short := congrArg List.length extra
        simp only [List.length_append, List.length_cons, List.length_nil] at short
        omega
      · by_cases won : b.taskDone last.state task = true
        · have dropped := myioTaskDrop_done contract turn' turn'' other (steps.held contract still)
            (steps.held contract fresh.2) won
          simp [won, myioAwait_done dropped.2]
        · simp [won]

/-- What the header's three wait loops promise of a backend. -/
structure WaitLoops [DecidableEq Task] (b : Backend State Task Turn)
    (Held : State → Task → Prop) : Prop where
  /-- `myio_select` only steps the backend, and its answer fits the state it returns in. -/
  select : ∀ tasks turns world, (∀ task, some task ∈ tasks → Held world.state task) →
    ∀ answer rest last, b.myioSelect tasks turns world = some (answer, rest, last) →
      Steps b world last ∧ b.Selected tasks last.state answer
  /-- It goes on only while some entry is not NULL, none is done and `step` makes progress. -/
  selecting : ∀ tasks turns world, b.myioSelect tasks turns world = none →
    tasks.any Option.isSome ∧ ∀ task, some task ∈ tasks → b.Waits task world.state turns
  /-- `myio_await` only steps the backend, and returns the stored result or a deadlock. -/
  await : ∀ task turns world, Held world.state task →
    ∀ result rest last, b.myioAwait task turns world = some (result, rest, last) →
      Steps b world last ∧ b.Awaited task last.state result
  /-- It goes on only while the task is not done and `step` makes progress. -/
  awaiting : ∀ task turns world, b.myioAwait task turns world = none →
    b.Waits task world.state turns
  /-- `myio_await_timeout` leaves the task with its caller and releases the timer it created. -/
  timeout : ∀ task ms turns world, Held world.state task →
    ∀ result rest last, b.myioAwaitTimeout (some task) ms turns world = some (result, rest, last) →
      ∃ made, last.calls = world.calls ++ made ∧ Held last.state task ∧
        b.TimedWait task result last.state made
  /-- It returns once the wait for the task or the timer is over. -/
  returns : ∀ task ms turn before after world, Held world.state task → 2 ≤ after.length →
    (∃ watched ∈ task :: (b.sleep world.state turn ms).2.toList,
      ¬ b.Waits watched (b.sleep world.state turn ms).1 before) →
    b.myioAwaitTimeout (some task) ms (turn :: (before ++ after)) world ≠ none
  /-- A NULL task is a failed submission. -/
  null : ∀ ms turns world,
    b.myioAwaitTimeout none ms turns world = some (rErr ENOMEM, turns, world)

/-- The header's wait loops keep their promises over every backend that meets the contract. -/
theorem waitLoops_of_contract [DecidableEq Task] (b : Backend State Task Turn)
    (Held : State → Task → Prop) (contract : b.Contract Held) : b.WaitLoops Held where
  select _ turns world held _ _ _ returned := myioSelect_some contract turns world held returned
  selecting _ turns world blocked := waits_of_myioSelect turns world blocked
  await _ turns world held _ _ _ returned := myioAwait_some contract turns world held returned
  awaiting _ turns world blocked := waits_of_myioAwait turns world blocked
  timeout _ _ _ _ held _ _ _ returned := myioAwaitTimeout_some contract held returned
  returns _ _ _ _ _ _ held long ended := myioAwaitTimeout_returns contract held long ended
  null _ _ _ := rfl

/-- A backend of countdowns: each entry is the number of steps its task still needs. -/
def countdown : Backend (List Nat) Nat Unit where
  taskDone left task := left[task]? = some 0
  taskResult left task := if left[task]? = some 0 then rOk 0 none else rPending
  step left _ := (left.map (· - 1), left.any (0 < ·))
  sleep left _ ms := (left ++ [ms], some left.length)
  cancel left _ _ := (left, false)
  taskFree left _ _ := left
  taskDetach left _ _ := left

/-- A countdown at zero stays there. -/
theorem countdown_step_done {left : List Nat} {task : Nat} (done : left[task]? = some 0) :
    (left.map (· - 1))[task]? = some 0 := by
  rw [List.getElem?_map, done]
  rfl

/-- The countdowns meet the contract. -/
theorem countdown_contract : countdown.Contract (fun left task => task < left.length) where
  stored left task _ := by
    by_cases zero : left[task]? = some 0 <;> simp [countdown, zero]
  step_held left _ task held := by simpa [countdown] using held
  step_done left _ task _ done := by
    simp only [countdown, decide_eq_true_eq] at done ⊢
    exact countdown_step_done done
  step_drained left _ drained task held := by
    -- A step that counts nothing down finds every countdown at zero already.
    have zero : left[task]? = some 0 := by
      have all : ∀ n ∈ left, n = 0 := by simpa [countdown] using drained
      rw [List.getElem?_eq_getElem held, all _ (List.getElem_mem held)]
    simp [countdown, zero]
  sleep_held left _ ms task held := by
    simp only [countdown, List.length_append, List.length_singleton]
    omega
  sleep_done left _ ms task held done := by
    simp only [countdown, decide_eq_true_eq] at done ⊢
    rw [List.getElem?_append_left held, done]
  sleep_fresh left _ ms timer slept := by
    simp only [countdown, Option.some.injEq] at slept ⊢
    subst slept
    simp
  cancel_held _ _ _ _ _ held := held
  cancel_done _ _ _ _ _ _ done := done
  free_held _ _ _ _ _ held _ := held
  free_done _ _ _ _ _ _ _ done := done
  detach_held _ _ _ _ _ held _ := held
  detach_done _ _ _ _ _ _ _ done := done

/-- Two countdowns, of which the second ends first, and a timed wait for the slower one. -/
theorem waitLoops_of_countdown :
    countdown.Contract (fun left task => task < left.length) ∧
      countdown.WaitLoops (fun left task => task < left.length) ∧
      (countdown.myioSelect [none, some 0, some 1] [(), (), ()] { state := [3, 2] }).map (·.1)
        = some 2 ∧
      (countdown.myioAwaitTimeout (some 0) 1 [(), (), ()] { state := [3] }).map (·.1)
        = some rPending :=
  ⟨countdown_contract, waitLoops_of_contract countdown _ countdown_contract, by decide, by decide⟩

end Backend

end Myio
