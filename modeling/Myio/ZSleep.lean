import Mathlib.Algebra.Group.Int.Defs
import Mathlib.Algebra.Group.Nat.Defs
import Myio.ZLoop.Frames

/-! The sleeps of the two Zephyr backends on the clock of `k_uptime_get`, in milliseconds. -/

namespace Myio.ZSleep

/-- The largest timeout `zsock_poll` takes. -/
def INT32_MAX : Int := 2 ^ 31 - 1

/-- The arithmetic of `int64_t`. -/
def toInt64 (n : Int) : Int := Int.bmod n (2 ^ 64)

/-- A value that an `int64_t` can hold. -/
def Fits (n : Int) : Prop := -2 ^ 63 ≤ n ∧ n < 2 ^ 63

theorem toInt64_of_fits {n : Int} (fits : Fits n) : toInt64 n = n := by
  unfold toInt64 Int.bmod
  unfold Fits at fits
  dsimp only
  split <;> omega

/-- A `uint64_t` from 2^63 on turns negative. -/
theorem toInt64_of_large {n : Nat} (large : 2 ^ 63 ≤ n) (small : n < 2 ^ 64) :
    toInt64 n = n - 2 ^ 64 := by
  unfold toInt64 Int.bmod
  dsimp only
  split <;> omega

/-! ### The thread pool -/

/-- How `zsock_poll` returns: nothing is ready, the call failed, the eventfd or the socket is ready. -/
inductive PollRet
  | timeout
  | failed
  | kick
  | ready
  deriving DecidableEq, Repr

/-- One round of the loop: the flag, the uptime before `zsock_poll`, its return, and the uptime then. -/
structure Round where
  cancelReq : Bool := false
  now : Int
  poll : PollRet
  back : Int

/-- What is left of a wait. -/
def leftOf (deadline now : Int) : Int := toInt64 (deadline - now)

/-- `timeout`, as it is passed to `zsock_poll`. -/
def timeoutOf (timed : Bool) (deadline now : Int) : Int :=
  if timed then (if INT32_MAX < leftOf deadline now then INT32_MAX else leftOf deadline now) else -1

/-- The loop of `cancelable_wait`, over the rounds it has made: its return value, and the uptime. -/
def waitLoop (timed : Bool) (deadline : Int) : List Round → Option (Int × Int)
  | [] => none
  | r :: rest =>
    if r.cancelReq then some (-1, r.now)
    else if timed && leftOf deadline r.now ≤ 0 then some (0, r.now)
    else
      match r.poll with
      | .kick => waitLoop timed deadline rest
      | _ => some (0, r.back)

/-- `deadline`, from the uptime at entry. -/
def deadlineOf (start timeoutMs : Int) : Int :=
  if 0 ≤ timeoutMs then toInt64 (start + timeoutMs) else 0

/-- `cancelable_wait`, entered at uptime `start`. -/
def cancelableWait (start timeoutMs : Int) (rounds : List Round) : Option (Int × Int) :=
  waitLoop (0 ≤ timeoutMs) (deadlineOf start timeoutMs) rounds

/-- `worker_run` for `OP_SLEEP`. -/
def runSleep (ms : UInt64) (start : Int) (rounds : List Round) : Option (Result × Int) :=
  (cancelableWait start (toInt64 ms.toNat) rounds).map fun e =>
    (if e.1 < 0 then rCanceled else rOk 0 none, e.2)

/--
The rounds of a sleep, on an uptime that never goes back, with timeouts and kicks only: no socket is
polled. `zsock_poll` times out no earlier than the timeout it was given says, and never if that is -1.
-/
def Timely (timed : Bool) (deadline before : Int) : List Round → Prop
  | [] => True
  | r :: rest =>
    (before ≤ r.now ∧ r.now ≤ r.back ∧ r.back < 2 ^ 63) ∧
      (r.poll = .kick ∨ r.poll = .timeout ∧ 0 ≤ timeoutOf timed deadline r.now ∧
        r.now + timeoutOf timed deadline r.now ≤ r.back) ∧
      Timely timed deadline r.back rest

/--
What is promised of a sleep on the pool that begins at uptime `start`: its deadline does not overflow,
and however it is woken it is over only when `ms` milliseconds have passed. So a wait that is longer
than one poll can express goes on after that poll.
-/
def PoolSleeps (ms : UInt64) (start : Int) : Prop :=
  (0 ≤ toInt64 ms.toNat → Fits (start + toInt64 ms.toNat)) ∧
    ∀ rounds, Timely (0 ≤ toInt64 ms.toNat) (deadlineOf start (toInt64 ms.toNat)) start rounds →
      ∀ moment, runSleep ms start rounds = some (rOk 0 none, moment) → start + ms.toNat ≤ moment

/-- A sleep that came through with no cancel is one whose wait returned 0. -/
theorem runSleep_ok {ms : UInt64} {start moment : Int} {rounds : List Round}
    (ended : runSleep ms start rounds = some (rOk 0 none, moment)) :
    ∃ rc, cancelableWait start (toInt64 ms.toNat) rounds = some (rc, moment) ∧ 0 ≤ rc := by
  obtain ⟨e, isEnd, same⟩ := Option.map_eq_some_iff.mp ended
  by_cases canceled : e.1 < 0
  · rw [if_pos canceled] at same
    cases same
  · exact ⟨e.1, by rw [isEnd, ← (Prod.mk.inj same).2], Int.not_lt.mp canceled⟩

/-- A wait without a deadline is over only when it is canceled. -/
theorem waitLoop_forever {deadline moment rc : Int} (rounds : List Round) : ∀ {before : Int},
    Timely false deadline before rounds →
      waitLoop false deadline rounds = some (rc, moment) → rc < 0 := by
  induction rounds with
  | nil => intro before _ ended; cases ended
  | cons r rest ih =>
    intro before timely ended
    obtain ⟨-, woken, timely⟩ := timely
    unfold waitLoop at ended
    split at ended
    · have isEnd := (Prod.mk.inj (Option.some.inj ended)).1
      omega
    · rw [if_neg (by simp)] at ended
      rcases woken with isKick | ⟨-, timed, -⟩
      · rw [isKick] at ended
        exact ih timely ended
      · simp [timeoutOf] at timed

/-- A wait that one poll can express is over at its deadline or later. -/
theorem waitLoop_short {start ms moment rc : Int} (booted : 0 ≤ start) (some : 0 ≤ ms)
    (short : ms ≤ INT32_MAX) (fits : start + ms < 2 ^ 63) (rounds : List Round) : ∀ {before : Int},
    start ≤ before → Timely true (start + ms) before rounds →
      waitLoop true (start + ms) rounds = Option.some (rc, moment) → 0 ≤ rc → start + ms ≤ moment := by
  induction rounds with
  | nil => intro before _ _ ended; cases ended
  | cons r rest ih =>
    intro before after timely ended okay
    obtain ⟨⟨onward, longer, range⟩, woken, timely⟩ := timely
    have left : leftOf (start + ms) r.now = start + ms - r.now := by
      apply toInt64_of_fits
      constructor <;> omega
    unfold waitLoop at ended
    split at ended
    · have isEnd := (Prod.mk.inj (Option.some.inj ended)).1
      omega
    split at ended
    · rename_i passed
      have isEnd := (Prod.mk.inj (Option.some.inj ended)).2
      simp only [left, Bool.true_and, decide_eq_true_eq] at passed
      omega
    · rcases woken with isKick | ⟨isTimeout, -, slept⟩
      · rw [isKick] at ended
        exact ih (by omega) timely ended okay
      · -- The poll was given all that was left.
        rw [isTimeout] at ended
        have isEnd := (Prod.mk.inj (Option.some.inj ended)).2
        simp only [timeoutOf, left, if_true] at slept
        unfold INT32_MAX at short slept
        split at slept <;> omega

/-- A poll that times out after the largest timeout. -/
def longRound (start : Int) : Round := { now := start, poll := .timeout, back := start + INT32_MAX }

/-- A wait that one poll cannot express is over after that poll. -/
theorem longRound_ends {deadline start : Int} (long : INT32_MAX < leftOf deadline start)
    (range : start + INT32_MAX < 2 ^ 63) :
    Timely true deadline start [longRound start] ∧
      waitLoop true deadline [longRound start] = some (0, start + INT32_MAX) := by
  have timeout : timeoutOf true deadline start = INT32_MAX := by rw [timeoutOf, if_pos rfl, if_pos long]
  have ahead : ¬ (leftOf deadline start ≤ 0) := by
    unfold INT32_MAX at long
    omega
  constructor
  · refine ⟨⟨Int.le_refl _, ?_, range⟩, .inr ⟨rfl, ?_, ?_⟩, trivial⟩
    · show start ≤ start + INT32_MAX
      unfold INT32_MAX
      omega
    · show 0 ≤ timeoutOf true deadline start
      rw [timeout]
      decide
    · show start + timeoutOf true deadline start ≤ start + INT32_MAX
      exact Int.le_of_eq (by rw [timeout])
  · simp [waitLoop, longRound, ahead]

/-- A sleep on the pool keeps its promises when one poll can express it, or when it never ends. -/
theorem poolSleeps_iff (ms : UInt64) {start : Int} (booted : 0 ≤ start) :
    PoolSleeps ms start ↔
      2 ^ 63 ≤ ms.toNat ∨ (ms.toNat : Int) ≤ INT32_MAX ∧ start + ms.toNat < 2 ^ 63 := by
  have bound : ms.toNat < 2 ^ 64 := ms.toNat_lt
  by_cases large : 2 ^ 63 ≤ ms.toNat
  · have negative := toInt64_of_large large bound
    have untimed : ¬ (0 ≤ toInt64 ms.toNat) := by omega
    refine ⟨fun _ => .inl large, fun _ => ⟨fun timed => absurd timed untimed, ?_⟩⟩
    intro rounds timely moment ended
    obtain ⟨rc, isEnd, okay⟩ := runSleep_ok ended
    rw [decide_eq_false untimed] at timely
    unfold cancelableWait at isEnd
    rw [decide_eq_false untimed] at isEnd
    have := waitLoop_forever rounds timely isEnd
    omega
  · have same : toInt64 ms.toNat = ms.toNat := toInt64_of_fits ⟨by omega, by omega⟩
    have timed : 0 ≤ toInt64 ms.toNat := by omega
    constructor
    · intro sleeps
      obtain ⟨fits, slept⟩ := sleeps
      have range := fits timed
      rw [same] at range
      refine .inr ⟨Int.not_lt.mp fun long => ?_, range.2⟩
      -- One poll times out after the largest timeout, and the sleep is over too early.
      have deadline : deadlineOf start (toInt64 ms.toNat) = start + ms.toNat := by
        rw [same, deadlineOf, if_pos (by omega), toInt64_of_fits range]
      have left : leftOf (start + ms.toNat) start = ms.toNat := by
        rw [leftOf, show start + (ms.toNat : Int) - start = ms.toNat by omega, same]
      have under : start + INT32_MAX < 2 ^ 63 := by
        have := range.2
        omega
      obtain ⟨timely, ended⟩ := longRound_ends (left ▸ long) under
      rw [decide_eq_true timed, deadline] at slept
      have early := slept [longRound start] timely (start + INT32_MAX) (by
        rw [runSleep, cancelableWait, decide_eq_true timed, deadline, ended]
        rfl)
      omega
    · rintro (never | ⟨short, range⟩)
      · exact absurd never large
      · refine ⟨fun _ => by rw [same]; exact ⟨by omega, range⟩, fun rounds timely moment ended => ?_⟩
        have deadline : deadlineOf start (toInt64 ms.toNat) = start + ms.toNat := by
          rw [same, deadlineOf, if_pos (by omega), toInt64_of_fits ⟨by omega, range⟩]
        obtain ⟨rc, isEnd, okay⟩ := runSleep_ok ended
        unfold cancelableWait at isEnd
        rw [decide_eq_true timed, deadline] at timely isEnd
        exact waitLoop_short booted (by omega) short range rounds (Int.le_refl _) timely isEnd okay

/-! ### The event loop -/

open Loop Loop.Core Loop.ZIo

/-- What `k_uptime_get` answers in a step. -/
def reading : Label → Option Int
  | .sleep _ _ uptime => some uptime
  | .poll p => some p.now
  | _ => none

/-- The machine with the last uptime read beside it. -/
def clockStep (state : ZIo × Int) (label : Label) : Option (ZIo × Int) :=
  (state.1.step label).map fun z => (z, (reading label).getD state.2)

/-- The uptime never goes back. -/
def OnTime (state : ZIo × Int) (label : Label) : Prop :=
  state.1.Allowed label ∧ ∀ uptime, reading label = some uptime → state.2 ≤ uptime ∧ uptime < 2 ^ 63

/--
What is promised of a sleep on the event loop that is submitted at uptime `start`: its deadline does
not overflow, and in every run from there, whatever the polls bring, it is completed with success only
when the uptime has advanced by `ms` milliseconds. So a wait goes on after a poll that was too short.
-/
def LoopSleeps (ms : UInt64) (start : Int) : Prop :=
  Fits (start + toInt64 ms.toNat) ∧
    ∀ (cfg : Config) (send : Nat → SendAns) (z z₁ z₂ : ZIo) (mem : Bool) (t : TaskId) (now : Int),
      Run (ZIo.new cfg send) z → z.step (.sleep mem ms.toNat start) = some z₁ →
      z₁.ret = some (.submitted (some t)) →
      Machine.Path clockStep OnTime (z₁, start) (z₂, now) →
      (z₂.task t).done = true → (z₂.task t).res.status = .ok → start + ms.toNat ≤ now

/-- A timer that has been armed with a deadline, and does not fire before it. -/
structure Sleeping (t : TaskId) (deadline : Int) (state : ZIo × Int) : Prop where
  good : Good state.1
  known : t < state.1.ntask
  timer : (state.1.task t).kind = .taskTimer
  armed : (state.1.task t).done = false → (state.1.task t).deadline = deadline
  fired : (state.1.task t).done = true → (state.1.task t).res.status = .ok → deadline ≤ state.2

/-- A step of the loop on time. -/
theorem Sleeping.step {t : TaskId} {deadline : Int} {state next : ZIo × Int} {label : Label}
    (sleeping : Sleeping t deadline state) (onTime : OnTime state label)
    (step : clockStep state label = some next) : Sleeping t deadline next := by
  obtain ⟨z, now⟩ := state
  obtain ⟨good, known, timer, armed, fired⟩ := sleeping
  obtain ⟨allowed, clock⟩ := onTime
  obtain ⟨z', taken, rfl⟩ := Option.map_eq_some_iff.mp step
  dsimp only at good known timer armed fired allowed clock taken ⊢
  have later := (step_moves good allowed taken).later
  have kind : (z'.task t).kind = (z.task t).kind := (later.args t known).1
  have onward : now ≤ (reading label).getD now := by
    cases isRead : reading label with
    | none => exact Int.le_refl _
    | some uptime => exact (clock uptime isRead).1
  suffices both : ((z'.task t).done = false → (z'.task t).deadline = deadline) ∧
      ((z'.task t).done = true → (z'.task t).res.status = .ok → deadline ≤ (reading label).getD now) from
    ⟨(step_good good allowed taken).1, Nat.lt_of_lt_of_le known later.ntask, kind.trans timer,
      both.1, both.2⟩
  cases before : (z.task t).done with
  | true =>
    obtain ⟨done, res, -⟩ := later.done t known before
    refine ⟨fun isOpen => ?_, fun _ okay => ?_⟩
    · rw [show (z'.task t).done = true from done] at isOpen
      cases isOpen
    · rw [show (z'.task t).res = (z.task t).res from res] at okay
      exact Int.le_trans (fired before okay) onward
  | false =>
    have pending : z.Pending (fun _ => false) t := ⟨known, before, rfl⟩
    rcases step_fate good allowed taken pending (by rw [timer]; rfl) with ⟨p, rfl⟩ | ⟨detached, same⟩ |
      ⟨done, canceled, -⟩
    · -- Only the walk over the timers completes one, and it looks at the deadline.
      unfold ZIo.step at taken
      dsimp only at taken
      split at taken
      · rename_i why polling
        cases taken
        obtain ⟨-, -, -, -, timers⟩ := turnChecked_eq good polling p
        obtain ⟨-, done⟩ := timers t known timer before
        have notes := (runLoopOnce_good good polling p).2.later.notes id t known
        refine ⟨fun _ => notes.1.trans (armed before), fun isDone _ => ?_⟩
        exact armed before ▸ done.mp isDone
      · cases taken
    · refine ⟨fun _ => ?_, fun isDone _ => ?_⟩
      · rw [same]
        exact armed before
      · rw [same, before] at isDone
        cases isDone
    · refine ⟨fun isOpen => ?_, fun _ okay => ?_⟩
      · rw [done] at isOpen
        cases isOpen
      · rw [canceled] at okay
        cases okay

/-- `impl_sleep`, when there is a task to be had. -/
theorem implSleep_eq {z : ZIo} {mem : Bool} {ms : Nat} {start : Int} (has : z.hasTask mem = true) :
    z.implSleep mem ms start =
      ((z.on (·.taskNew { kind := .taskTimer, deadline := toInt64 (start + toInt64 ms) })).on
        (·.arm z.ntask)).give (.submitted (some z.ntask)) :=
  if_pos has

/-- A sleep begins with the deadline `impl_sleep` stores. -/
theorem sleeping_submitted {z z₁ : ZIo} {mem : Bool} {ms : UInt64} {start : Int} {t : TaskId}
    (good : Good z) (step : z.step (.sleep mem ms.toNat start) = some z₁)
    (given : z₁.ret = some (.submitted (some t))) :
    Sleeping t (toInt64 (start + toInt64 ms.toNat)) (z₁, start) := by
  have allowed : z.Allowed (.sleep mem ms.toNat start) := trivial
  have after := (step_good good allowed step).1
  unfold ZIo.step at step
  dsimp only at step
  split at step
  · cases step
    by_cases has : z.hasTask mem = true
    · rw [implSleep_eq has] at given after ⊢
      obtain rfl : z.ntask = t := by simpa [ZIo.give] using given
      generalize toInt64 (start + toInt64 ms.toNat) = deadline at after ⊢
      have task : (z.toCore.taskNew { kind := .taskTimer, deadline }).task z.ntask =
          { kind := .taskTimer, deadline } := Function.update_self ..
      exact ⟨after, Nat.lt_succ_self _, congrArg Loop.Task.kind task, fun _ => congrArg Loop.Task.deadline task,
        fun done => by cases (congrArg Loop.Task.done task).symm.trans done⟩
    · unfold implSleep at given
      rw [if_neg has] at given
      cases given
  · cases step

/-- A poll that returns at once. -/
def atOnce (start : Int) : Poll := { rc := 0, now := start }

/-- A deadline that is past when it is set fires at the first poll. -/
theorem fires_at_once {ms : UInt64} {start : Int} (fits : start < 2 ^ 63)
    (past : toInt64 (start + toInt64 ms.toNat) ≤ start) :
    ∃ z₁ z₂, (ZIo.new small fun _ => .again).step (.sleep true ms.toNat start) = some z₁ ∧
      z₁.ret = some (.submitted (some 0)) ∧
      Machine.Path clockStep OnTime (z₁, start) (z₂, start) ∧
      (z₂.task 0).done = true ∧ (z₂.task 0).res.status = .ok := by
  let z := ZIo.new small fun _ => .again
  let z₁ := z.implSleep true ms.toNat start
  let waiting : ZIo := { z₁ with user := .polling .step }
  have submitted : z.step (.sleep true ms.toNat start) = some z₁ := rfl
  have armed : z₁.armed = [0] := rfl
  have task : z₁.task 0 = { kind := .taskTimer, deadline := toInt64 (start + toInt64 ms.toNat) } := rfl
  have entered : clockStep (z₁, start) .step = some (waiting, start) := rfl
  have polled : clockStep (waiting, start) (.poll (atOnce start)) =
      some (waiting.runLoopOnce (atOnce start) .step, start) := rfl
  have ended : (waiting.runLoopOnce (atOnce start) .step).task 0 = settled (rOk 0 none) (z₁.task 0) := by
    show (fireTimers z₁.toCore start z₁.armed).task 0 = _
    rw [fireTimers_task start z₁.armed (by rw [armed]; simp) 0, if_pos]
    exact ⟨by rw [armed]; simp, by rw [task], by rw [task]; exact past⟩
  have stepping : OnTime (z₁, start) .step := ⟨trivial, (by intros; contradiction)⟩
  have polling : OnTime (waiting, start) (.poll (atOnce start)) := by
    refine ⟨trivial, fun uptime isRead => ?_⟩
    obtain rfl : start = uptime := Option.some.inj isRead
    exact ⟨Int.le_refl _, fits⟩
  refine ⟨z₁, _, submitted, rfl, ((Machine.Path.refl _).snoc stepping entered).snoc polling polled,
    ?_, ?_⟩
  · rw [ended]
    rfl
  · rw [ended]
    rfl

/-- A sleep on the event loop keeps its promises exactly when its deadline is an `int64_t`. -/
theorem loopSleeps_iff (ms : UInt64) {start : Int} (booted : 0 ≤ start) (fits : start < 2 ^ 63) :
    LoopSleeps ms start ↔ start + ms.toNat < 2 ^ 63 := by
  have bound : ms.toNat < 2 ^ 64 := ms.toNat_lt
  constructor
  · intro sleeps
    obtain ⟨range, slept⟩ := sleeps
    by_cases large : 2 ^ 63 ≤ ms.toNat
    · -- The deadline is in the past, and the first poll completes the sleep.
      have negative := toInt64_of_large large bound
      rw [negative] at range
      have past : toInt64 (start + toInt64 ms.toNat) ≤ start := by
        rw [negative, toInt64_of_fits range]
        omega
      obtain ⟨z₁, z₂, submitted, given, path, done, okay⟩ := fires_at_once fits past
      have early := slept small (fun _ => .again) _ z₁ z₂ true 0 start (.refl _) submitted given path
        done okay
      omega
    · rw [toInt64_of_fits ⟨by omega, by omega⟩] at range
      exact range.2
  · intro under
    have same : toInt64 ms.toNat = ms.toNat := toInt64_of_fits ⟨by omega, by omega⟩
    have range : Fits (start + toInt64 ms.toNat) := by
      rw [same]
      exact ⟨by omega, under⟩
    refine ⟨range, fun cfg send z z₁ z₂ mem t now run step given path done okay => ?_⟩
    have begins := sleeping_submitted (good_of_run run) step given
    rw [toInt64_of_fits range, same] at begins
    exact (path.invariant (Sleeping t (start + ms.toNat))
      (fun _ _ _ before onTime taken => before.step onTime taken) begins).fired done okay

/--
The sleeps of both Zephyr backends keep their promises exactly when one poll can express `ms` and the
deadline is an `int64_t`: then a sleep that was not canceled is over only when `ms` milliseconds of
uptime have passed since it began, and its deadline does not overflow.
-/
theorem zephyr_sleeps_iff (ms : UInt64) {start : Int} (booted : 0 ≤ start) (fits : start < 2 ^ 63) :
    LoopSleeps ms start ∧ PoolSleeps ms start ↔
      (ms.toNat : Int) ≤ INT32_MAX ∧ start + ms.toNat < 2 ^ 63 := by
  rw [loopSleeps_iff ms booted fits, poolSleeps_iff ms booted]
  constructor
  · rintro ⟨under, large | ⟨short, -⟩⟩
    · omega
    · exact ⟨short, under⟩
  · rintro ⟨short, under⟩
    exact ⟨under, .inr ⟨short, under⟩⟩

/-- A second, an hour after the start of the system. -/
theorem zephyr_sleeps_second : LoopSleeps 1000 3600000 ∧ PoolSleeps 1000 3600000 :=
  (zephyr_sleeps_iff 1000 (by decide) (by decide)).mpr (by decide)

/-- A sleep of 2^31 milliseconds on the pool is over after one poll, a millisecond early. -/
theorem zephyr_sleeps_early : ¬ (LoopSleeps 2147483648 0 ∧ PoolSleeps 2147483648 0) := by
  intro sleeps
  obtain ⟨timely, ended⟩ := @longRound_ends 2147483648 0 (by decide) (by decide)
  have timed : decide (0 ≤ toInt64 (2147483648 : UInt64).toNat) = true := by decide
  have deadline : deadlineOf 0 (toInt64 (2147483648 : UInt64).toNat) = 2147483648 := by decide
  have slept := sleeps.2.2
  rw [timed, deadline] at slept
  have early := slept [longRound 0] timely INT32_MAX (by
    rw [runSleep, cancelableWait, timed, deadline, ended]
    rfl)
  exact absurd early (by decide)

end Myio.ZSleep
