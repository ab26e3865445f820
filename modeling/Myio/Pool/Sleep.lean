import Mathlib.Algebra.Group.Int.Defs
import Mathlib.Algebra.Group.Nat.Defs
import Myio.Vtable

/-! The timed wait of the thread pool, second by second and nanosecond by nanosecond. -/

namespace Myio.Sleep

/-- The largest `int`. -/
def INT_MAX : Int := 2 ^ 31 - 1

/-- The arithmetic of `time_t`. -/
def toTime (n : Int) : Int := Int.bmod n (2 ^ 64)

/-- `struct timespec`. -/
structure Timespec where
  sec : Int
  nsec : Int
  deriving DecidableEq, Repr

/-- The nanoseconds a timespec stands for. -/
def Timespec.nanos (ts : Timespec) : Int := ts.sec * 10 ^ 9 + ts.nsec

/-- What `ppoll` takes: no negative part, and less than a second of nanoseconds. -/
def Timespec.Valid (ts : Timespec) : Prop := 0 ≤ ts.sec ∧ 0 ≤ ts.nsec ∧ ts.nsec < 10 ^ 9

instance (ts : Timespec) : Decidable ts.Valid := inferInstanceAs (Decidable (_ ∧ _ ∧ _))

/-- What `clock_gettime` answers: a valid timespec with the seconds of a `time_t`. -/
structure Timespec.Reading (ts : Timespec) : Prop where
  valid : ts.Valid
  sec : ts.sec < 2 ^ 63

/-- How `ppoll` returns. -/
inductive Wake
  | timeout
  | ready
  | eintr
  | failed
  deriving DecidableEq, Repr

/-- One round of the loop: the flag, the clock before `ppoll`, its return, and the clock then. -/
structure Round where
  cancelReq : Bool := false
  now : Timespec
  wake : Wake
  back : Timespec

/-- The calls of `ppoll` so far, each with the clock before it, and the return value and its time. -/
structure Waited where
  polls : List (Timespec × Option Timespec)
  ended : Option (Int × Timespec)

/-- `deadline`, from the clock at entry. -/
def deadlineOf (start : Timespec) (timeoutMs : Int) : Timespec :=
  let sec := toTime (start.sec + timeoutMs / 1000)
  let nsec := start.nsec + timeoutMs % 1000 * 1000000
  if 1000000000 ≤ nsec then ⟨toTime (sec + 1), nsec - 1000000000⟩ else ⟨sec, nsec⟩

/-- `ts`: what is left of the wait. -/
def remaining (deadline now : Timespec) : Timespec :=
  let sec := toTime (deadline.sec - now.sec)
  let nsec := deadline.nsec - now.nsec
  if nsec < 0 then ⟨toTime (sec - 1), nsec + 1000000000⟩ else ⟨sec, nsec⟩

/-- The loop of `cancelable_wait`, over the rounds it has made. -/
def waitLoop (timed : Bool) (deadline : Timespec) : List Round → Waited
  | [] => ⟨[], none⟩
  | r :: rest =>
    if r.cancelReq then ⟨[], some (-1, r.now)⟩
    else
      let ts := remaining deadline r.now
      if timed && ts.sec < 0 then ⟨[], some (0, r.now)⟩
      else
        let poll := (r.now, if timed then some ts else none)
        match r.wake with
        | .eintr =>
          let later := waitLoop timed deadline rest
          ⟨poll :: later.polls, later.ended⟩
        | _ => ⟨[poll], some (0, r.back)⟩

/-- `cancelable_wait`, entered when the clock says `start`. -/
def cancelableWait (start : Timespec) (timeoutMs : Int) (rounds : List Round) : Waited :=
  waitLoop (0 ≤ timeoutMs) (deadlineOf start timeoutMs) rounds

/-- The milliseconds `OP_SLEEP` passes on. -/
def clampMs (ms : UInt64) : Int := if INT_MAX < ms.toNat then INT_MAX else ms.toNat

/-- `worker_run` for `OP_SLEEP`: the calls of `ppoll`, and the result with its time. -/
def runSleep (ms : UInt64) (start : Timespec) (rounds : List Round) :
    List (Timespec × Option Timespec) × Option (Result × Timespec) :=
  let waited := cancelableWait start (clampMs ms) rounds
  (waited.polls, waited.ended.map fun e => (if e.1 < 0 then rCanceled else rOk 0 none, e.2))

/-! ### What the system promises -/

/--
The rounds of a wait on a clock that never goes back, with stray signals and timeouts only.

`ppoll` times out no earlier than the timespec it was given says.
-/
def Timely (deadline before : Timespec) : List Round → Prop
  | [] => True
  | r :: rest =>
    (r.now.Reading ∧ r.back.Reading ∧ before.nanos ≤ r.now.nanos ∧ r.now.nanos ≤ r.back.nanos) ∧
      (r.wake = .eintr ∨
        r.wake = .timeout ∧ r.now.nanos + (remaining deadline r.now).nanos ≤ r.back.nanos) ∧
      Timely deadline r.back rest

/-- What is promised of a sleep of `ms` milliseconds, whenever it is entered and however it is woken. -/
def Sleeps (ms : UInt64) : Prop :=
  ∀ (entered start : Timespec) (rounds : List Round), start.Reading → entered.nanos ≤ start.nanos →
    Timely (deadlineOf start (clampMs ms)) start rounds →
    -- It is not over before its time.
    (∀ moment, (runSleep ms start rounds).2 = some (rOk 0 none, moment) →
      entered.nanos + ms.toNat * 10 ^ 6 ≤ moment.nanos) ∧
    -- `ppoll` is given valid timespecs.
    (∀ poll ∈ (runSleep ms start rounds).1, ∃ ts, poll.2 = some ts ∧ ts.Valid) ∧
    -- All of them end at the same moment.
    ∃ moment, ∀ now ts, (now, some ts) ∈ (runSleep ms start rounds).1 →
      now.nanos + ts.nanos = moment

/-! ### The arithmetic -/

/-- A `time_t` is off by a multiple of 2^64. -/
theorem toTime_spec (n : Int) :
    ∃ k : Int, toTime n = n + k * 2 ^ 64 ∧ -2 ^ 63 ≤ toTime n ∧ toTime n < 2 ^ 63 := by
  unfold toTime Int.bmod
  dsimp only
  split
  · exact ⟨-(n / 2 ^ 64), by omega, by omega, by omega⟩
  · exact ⟨-(n / 2 ^ 64) - 1, by omega, by omega, by omega⟩

/-- The clock and what is left of the wait add up to the deadline, and the borrow keeps it normal. -/
theorem remaining_deadline {start now : Timespec} {ms : Int} (entry : start.Reading)
    (reading : now.Reading) (later : start.nanos ≤ now.nanos) (some : 0 ≤ ms) (small : ms ≤ INT_MAX) :
    now.nanos + (remaining (deadlineOf start ms) now).nanos = start.nanos + ms * 10 ^ 6 ∧
      0 ≤ (remaining (deadlineOf start ms) now).nsec ∧
      (remaining (deadlineOf start ms) now).nsec < 10 ^ 9 := by
  obtain ⟨⟨startSec, startNsec, startUnder⟩, startTime⟩ := entry
  obtain ⟨⟨nowSec, nowNsec, nowUnder⟩, nowTime⟩ := reading
  simp only [Timespec.nanos, INT_MAX] at later small ⊢
  unfold deadlineOf remaining
  dsimp only
  -- Every sum of seconds is off by a multiple of 2^64, and the last one is in range.
  obtain ⟨a, first, -, -⟩ := toTime_spec (start.sec + ms / 1000)
  generalize toTime (start.sec + ms / 1000) = sec at first ⊢
  obtain ⟨b, carried, -, -⟩ := toTime_spec (sec + 1)
  generalize toTime (sec + 1) = sec' at carried ⊢
  split <;> dsimp only
  · obtain ⟨c, third, low, high⟩ := toTime_spec (sec' - now.sec)
    generalize toTime (sec' - now.sec) = left at third low high ⊢
    obtain ⟨d, borrowed, low', high'⟩ := toTime_spec (left - 1)
    generalize toTime (left - 1) = left' at borrowed low' high' ⊢
    split <;> dsimp only <;> omega
  · obtain ⟨c, third, low, high⟩ := toTime_spec (sec - now.sec)
    generalize toTime (sec - now.sec) = left at third low high ⊢
    obtain ⟨d, borrowed, low', high'⟩ := toTime_spec (left - 1)
    generalize toTime (left - 1) = left' at borrowed low' high' ⊢
    split <;> dsimp only <;> omega

/-! ### The loop -/

/-- A wait in any round ends at the deadline or later, and polls until the deadline only. -/
theorem waitLoop_spec {start : Timespec} {ms : Int} (entry : start.Reading) (some : 0 ≤ ms)
    (small : ms ≤ INT_MAX) (rounds : List Round) : ∀ {before : Timespec},
    start.nanos ≤ before.nanos → Timely (deadlineOf start ms) before rounds →
      (∀ moment, (waitLoop true (deadlineOf start ms) rounds).ended = Option.some (0, moment) →
        start.nanos + ms * 10 ^ 6 ≤ moment.nanos) ∧
      ∀ poll ∈ (waitLoop true (deadlineOf start ms) rounds).polls, ∃ ts,
        poll.2 = Option.some ts ∧ ts.Valid ∧ poll.1.nanos + ts.nanos = start.nanos + ms * 10 ^ 6 := by
  induction rounds with
  | nil =>
    intro before _ _
    exact ⟨by simp [waitLoop], by simp [waitLoop]⟩
  | cons r rest ih =>
    intro before after timely
    obtain ⟨⟨now, back, onward, longer⟩, wake, timely⟩ := timely
    obtain ⟨sum, low, high⟩ := remaining_deadline entry now (Int.le_trans after onward) some small
    have later := ih (Int.le_trans after (Int.le_trans onward longer)) timely
    unfold waitLoop
    split
    · exact ⟨by simp, by simp⟩
    dsimp only
    split
    · -- The deadline has passed before this round polls.
      rename_i passed
      have negative : (remaining (deadlineOf start ms) r.now).sec < 0 := by simpa using passed
      refine ⟨fun moment ends => ?_, by simp⟩
      obtain rfl : r.now = moment := by simpa using ends
      simp only [Timespec.nanos] at sum ⊢
      omega
    · rename_i ahead
      have valid : (remaining (deadlineOf start ms) r.now).Valid := by
        refine ⟨?_, low, high⟩
        simpa using ahead
      have poll : ∃ ts, (if true then Option.some (remaining (deadlineOf start ms) r.now) else none) =
          Option.some ts ∧ ts.Valid ∧ r.now.nanos + ts.nanos = start.nanos + ms * 10 ^ 6 :=
        ⟨_, rfl, valid, sum⟩
      rcases wake with isIntr | ⟨isTimeout, slept⟩
      · -- A stray signal: the next round goes on with the same deadline.
        rw [isIntr]
        refine ⟨later.1, fun p member => ?_⟩
        rcases List.mem_cons.mp member with rfl | member
        · exact poll
        · exact later.2 p member
      · rw [isTimeout]
        refine ⟨fun moment ends => ?_, fun p member => ?_⟩
        · obtain rfl : r.back = moment := by simpa using ends
          exact sum ▸ slept
        · rw [List.mem_singleton.mp member]
          exact poll

theorem clampMs_range (ms : UInt64) : 0 ≤ clampMs ms ∧ clampMs ms ≤ INT_MAX := by
  unfold clampMs INT_MAX
  split <;> omega

/-- A sleep that came through with no cancel is one whose wait returned 0. -/
theorem runSleep_ok {ms : UInt64} {start moment : Timespec} {rounds : List Round}
    (ended : (runSleep ms start rounds).2 = some (rOk 0 none, moment)) :
    ∃ rc, (cancelableWait start (clampMs ms) rounds).ended = some (rc, moment) ∧ 0 ≤ rc := by
  unfold runSleep at ended
  obtain ⟨e, isEnd, same⟩ := Option.map_eq_some_iff.mp ended
  by_cases canceled : e.1 < 0
  · rw [if_pos canceled] at same
    cases same
  · exact ⟨e.1, by rw [isEnd, ← (Prod.mk.inj same).2], Int.not_lt.mp canceled⟩

/-- The loop returns -1 or 0. -/
theorem waitLoop_rc {timed : Bool} {deadline moment : Timespec} {rc : Int} (rounds : List Round)
    (ended : (waitLoop timed deadline rounds).ended = some (rc, moment)) : rc = -1 ∨ rc = 0 := by
  induction rounds with
  | nil => cases ended
  | cons r rest ih =>
    unfold waitLoop at ended
    split at ended
    · exact .inl (by simpa using (Prod.mk.inj (Option.some.inj ended)).1.symm)
    dsimp only at ended
    split at ended
    · exact .inr (by simpa using (Prod.mk.inj (Option.some.inj ended)).1.symm)
    · split at ended
      · exact ih ended
      · exact .inr (by simpa using (Prod.mk.inj (Option.some.inj ended)).1.symm)

/-- One poll that times out after the largest `int` of milliseconds. -/
def oneTimeout : List Round := [{ now := ⟨0, 0⟩, wake := .timeout, back := ⟨2147483, 647000000⟩ }]

/-- A sleep that is cut to the largest `int` is over after that many milliseconds. -/
theorem runSleep_cut {ms : UInt64} (clamped : clampMs ms = INT_MAX) :
    Timely (deadlineOf ⟨0, 0⟩ (clampMs ms)) ⟨0, 0⟩ oneTimeout ∧
      (runSleep ms ⟨0, 0⟩ oneTimeout).2 = some (rOk 0 none, ⟨2147483, 647000000⟩) := by
  unfold runSleep
  rw [clamped]
  refine ⟨⟨⟨⟨by decide, by decide⟩, ⟨by decide, by decide⟩, by decide, by decide⟩,
    .inr ⟨rfl, by decide⟩, trivial⟩, by decide⟩

/--
A sleep of the thread pool keeps its promises exactly when `ms` fits an `int`.

Then it is over no earlier than `ms` milliseconds after it was entered, through any number of stray
signals; in any case every timespec it polls with is valid and all of them end at the same moment.
-/
theorem sleeps_iff (ms : UInt64) : Sleeps ms ↔ (ms.toNat : Int) ≤ INT_MAX := by
  obtain ⟨low, high⟩ := clampMs_range ms
  constructor
  · -- A longer sleep is cut short when the clock starts at zero and one poll times out.
    intro sleeps
    apply Int.not_lt.mp
    intro long
    obtain ⟨timely, ended⟩ := runSleep_cut (if_pos long : clampMs ms = INT_MAX)
    obtain ⟨slept, -⟩ := sleeps ⟨0, 0⟩ ⟨0, 0⟩ oneTimeout ⟨by decide, by decide⟩ (by decide) timely
    have early := slept ⟨2147483, 647000000⟩ ended
    simp only [Timespec.nanos, INT_MAX] at early long
    omega
  · intro short entered start rounds entry since timely
    have exact : clampMs ms = ms.toNat := if_neg (Int.not_lt.mpr short)
    have timed : decide (0 ≤ clampMs ms) = true := decide_eq_true low
    obtain ⟨ends, polls⟩ := waitLoop_spec entry low high rounds (Int.le_refl _) timely
    have waits : cancelableWait start (clampMs ms) rounds =
        waitLoop true (deadlineOf start (clampMs ms)) rounds := by rw [cancelableWait, timed]
    refine ⟨fun moment ended => ?_, fun poll member => ?_, start.nanos + clampMs ms * 10 ^ 6, ?_⟩
    · obtain ⟨rc, isEnd, okay⟩ := runSleep_ok ended
      rw [waits] at isEnd
      obtain rfl : rc = 0 := by
        rcases waitLoop_rc rounds isEnd with negative | zero
        · omega
        · exact zero
      have := ends moment isEnd
      rw [exact] at this
      omega
    · have member : poll ∈ (waitLoop true (deadlineOf start (clampMs ms)) rounds).polls :=
        waits ▸ member
      obtain ⟨ts, isPoll, valid, -⟩ := polls poll member
      exact ⟨ts, isPoll, valid⟩
    · intro now ts member
      have member : (now, some ts) ∈ (waitLoop true (deadlineOf start (clampMs ms)) rounds).polls :=
        waits ▸ member
      obtain ⟨ts', isPoll, -, sum⟩ := polls _ member
      cases isPoll
      exact sum

/-- A sleep of 2^31 milliseconds is over one millisecond early. -/
theorem sleeps_early : ¬ Sleeps 2147483648 := by
  intro sleeps
  obtain ⟨timely, ended⟩ := runSleep_cut (show clampMs 2147483648 = INT_MAX by decide)
  obtain ⟨slept, -⟩ := sleeps ⟨0, 0⟩ ⟨0, 0⟩ oneTimeout ⟨by decide, by decide⟩ (by decide) timely
  exact absurd (slept ⟨2147483, 647000000⟩ ended) (by decide)

end Myio.Sleep
