import Myio.ZLoop.Pending

/-! What the Zephyr event loop promises: spawned functions, the order of writes, and teardown. -/

namespace Myio.Loop

open Function (update)
open Loop.Core

namespace ZIo

variable {z z' : ZIo} {t u : TaskId} {s : SockId}

/-! ### Spawned functions -/

/-- A step of the work-queue thread starts a function that has not run, or stores what one returned. -/
theorem work_notes {label : Label} (spawning : Spawning z) (step : z.work label = some z')
    (t : TaskId) :
    ((z.task t).done = true → (z'.task t).runs = (z.task t).runs) ∧
      ((z'.task t).fnRet ≠ (z.task t).fnRet →
        label = .ran (z'.task t).fnRet ∧ z.handler = some (t, .running)) := by
  unfold work at step
  split at step
  · split at step
    · rename_i u rest isNone isQueue
      obtain rfl := Option.some.inj step
      have queued := (spawning.each u).queue (by simp [isQueue])
      simp only [ZIo.on, modTask, Function.update_apply]
      split
      · rename_i same; subst same
        exact ⟨fun done => by simp [queued.1] at done, fun differs => absurd rfl differs⟩
      · exact ⟨fun _ => rfl, fun differs => absurd rfl differs⟩
    · cases step
  · split at step
    · rename_i ret _ u isAt
      obtain rfl := Option.some.inj step
      simp only [ZIo.on, modTask, Function.update_apply]
      split
      · rename_i same; subst same
        exact ⟨fun _ => rfl, fun _ => ⟨rfl, isAt⟩⟩
      · exact ⟨fun _ => rfl, fun differs => absurd rfl differs⟩
    · cases step
  · split at step
    · rename_i u isAt
      obtain rfl := Option.some.inj step
      simp only [ZIo.on, modTask, Function.update_apply]
      split
      · rename_i same; subst same
        exact ⟨fun _ => rfl, fun differs => absurd rfl differs⟩
      · exact ⟨fun _ => rfl, fun differs => absurd rfl differs⟩
    · cases step
  · split at step
    · obtain rfl := Option.some.inj step
      exact ⟨fun _ => rfl, fun differs => absurd rfl differs⟩
    · cases step
  · split at step
    · obtain rfl := Option.some.inj step
      exact ⟨fun _ => rfl, fun differs => absurd rfl differs⟩
    · cases step
  · cases step

/--
The spawn protocol, in every reachable state.

A spawned function runs at most once and its task is completed once, with what the function returned
if it ran and as canceled if it never runs. A finished one on the list is about to be noticed, and
the memory of a task stays while its work item is busy.
-/
theorem spawn_protocol {cfg : Config} {send : Nat → SendAns} (run : Run (ZIo.new cfg send) z) :
    (∀ t, t < z.ntask → (z.task t).kind = .taskSpawn →
      (z.task t).runs ≤ 1 ∧ (z.task t).dones = (if (z.task t).done then 1 else 0) ∧
      ((z.task t).done = true → ((z.task t).res.status = .canceled ↔ (z.task t).runs = 0) ∧
        ((z.task t).runs = 1 → (z.task t).res = fnResult (z.task t).fnRet)) ∧
      ((z.task t).done = false → t ∈ z.workq ∨ z.phaseOf t = some .running ∨
        z.phaseOf t = some .returned ∨ t ∈ z.spawnDone ∨ z.user.harvests t = true)) ∧
    (∀ label z', z.Allowed label → z.step label = some z' → ∀ t, t < z.ntask →
      ((z.task t).done = true → (z'.task t).done = true ∧ (z'.task t).res = (z.task t).res ∧
        (z'.task t).runs = (z.task t).runs) ∧
      ((z'.task t).fnRet ≠ (z.task t).fnRet →
        label = .ran (z'.task t).fnRet ∧ z.handler = some (t, .running))) ∧
    (z.spawnDone ≠ [] → z.user.drains = false →
      0 < z.evfd ∨ ∃ t, z.handler = some (t, .pushed)) ∧
    ∀ t, z.busy t = true → (z.task t).frees = 0 := by
  have good := good_of_run run
  refine ⟨fun t less kind => ?_, fun label z' allowed step t less => ?_, fun some_ out => ?_,
    fun t busy => ?_⟩
  · have life := good.spawning.each t
    unfold SpawnAt at life
    have submitted : decide (t < z.ntask) = true := by simpa using less
    refine ⟨?_, (good.sound.lives.each t less).dones, fun done => ?_, fun isOpen => ?_⟩
    · cases done : (z.task t).done with
      | true =>
        rcases life.ended submitted kind done with ⟨_, runs⟩ | ⟨_, runs⟩ <;> omega
      | false =>
        rcases life.placed submitted kind done with there | there | there | there | there
        · have := (life.queue there).2.1; omega
        · have := (life.early (.inl there)).2.1; omega
        · have := (life.early (.inr there)).2.1; omega
        · have := (life.past (by simp [there])).2.1; omega
        · have := (life.past (by simp [there])).2.1; omega
    · rcases life.ended submitted kind done with ⟨res, runs⟩ | ⟨res, runs⟩
      · exact ⟨by simp [res, runs], fun ran => by omega⟩
      · refine ⟨?_, fun _ => res⟩
        have other : (fnResult (z.task t).fnRet).status ≠ .canceled := by
          unfold fnResult; split <;> simp
        rw [res]
        exact ⟨fun canceled => absurd canceled other, fun never => by omega⟩
    · simpa using life.placed submitted kind isOpen
  · rcases step_mine good allowed step with moves | worked
    · obtain ⟨_, fnRet, _, runs, _⟩ := moves.later.notes id t less
      exact ⟨fun done => ⟨(moves.later.done t less done).1, (moves.later.done t less done).2.1, runs⟩,
        fun differs => absurd fnRet differs⟩
    · obtain ⟨same, wrote⟩ := work_notes good.spawning worked t
      have later := (work_good good worked).2.later
      exact ⟨fun done => ⟨(later.done t less done).1, (later.done t less done).2.1, same done⟩, wrote⟩
  · rcases good.spawning.woken some_ with positive | writing | drains
    · exact .inl positive
    · exact .inr writing
    · rw [out] at drains; cases drains
  · -- A busy task that is done is still the caller's.
    have life := good.spawning.each t
    unfold SpawnAt at life
    have isBusy : (decide (t ∈ z.workq) || (z.phaseOf t).isSome) = true := by
      simpa using busy_iff.mp busy
    have less : t < z.ntask := by
      simpa using (life.spawned (by simp only [Bool.or_eq_true] at isBusy ⊢; exact .inl (.inl isBusy))).1
    refine (good.sound.lives.each t less).frees.trans ?_
    cases done : (z.task t).done with
    | false => rw [show (z.rest.core.task t).done = false from done]; rfl
    | true =>
      rw [show z.rest.core.held t = true from life.memory isBusy done]
      simp

/-- One function runs and is harvested, one is canceled on the queue, one is pushed. -/
def threeSpawns : List Label :=
  [.spawn true 0, .spawn true 0, .spawn true 0, .take, .ran 7, .push, .wake, .finish, .cancel 1,
    .step, .poll { rc := 1, evfd := true }, .resume, .resume, .resume, .resume, .take, .ran (-5), .push]

theorem spawn_protocol_threeSpawns :
    ((after [] threeSpawns).task 0).res = rOk 7 none ∧ ((after [] threeSpawns).task 1).runs = 0 ∧
    ((after [] threeSpawns).task 1).res.status = .canceled ∧
    (after [] threeSpawns).spawnDone = [2] ∧ (after [] threeSpawns).evfd = 0 ∧
    (∃ t, (after [] threeSpawns).handler = some (t, .pushed)) ∧
    ((after [] threeSpawns).task 2).frees = 0 := by
  obtain ⟨each, _, woken, memory⟩ := spawn_protocol (run_after [] threeSpawns (by decide +kernel))
  have noticed := woken (by decide +kernel) (by decide +kernel)
  have never : ((after [] threeSpawns).task 1).runs = 0 := by decide +kernel
  have ended := (each 1 (by decide +kernel) (by decide +kernel)).2.2.1 (by decide +kernel)
  exact ⟨by decide +kernel, never, ended.1.mpr never, by decide +kernel, by decide +kernel,
    noticed.resolve_left (by decide +kernel), memory 2 (by decide +kernel)⟩

/-! ### The order of writes -/

/-- A pending write points at the socket it was submitted on. -/
theorem write_sock (sound : Sound calm z.rest) (pending : z.Pending (fun _ => false) t)
    (on : z.WriteOn s t) : (z.task t).sock = some s := by
  have fits := sound.shaped t pending
  unfold Rules.Fits calm zShape at fits
  rw [show (z.rest.core.task t).kind = .taskSockWrite from on.1] at fits
  exact fits.2.2.symm.trans on.2

/-- `impl_cancel` cancels no other write than the one it is called for, and that one has sent nothing;
nor does it complete another one unless the canceled write headed its FIFO. -/
theorem implCancel_write {v : TaskId} (good : Good z) (submitted : t < z.ntask)
    (free : ∀ u, z.user.harvests u = false) (less : v < z.ntask)
    (kind : (z.task v).kind = .taskSockWrite) (isOpen : (z.task v).done = false)
    (ended : ((z.implCancel t).1.task v).done = true)
    (canceled : ((z.implCancel t).1.task v).res.status = .canceled) :
    v = t ∧ ((z.implCancel t).1.task v).off = 0 ∧
      ∀ s, (z.task t).sock = some s → (z.sock s).wq.head? ≠ some t →
        ∀ u, u ≠ t → (z.implCancel t).1.task u = z.task u := by
  cases done : (z.task t).done with
  | true =>
    rw [implCancel_done done] at ended
    rw [isOpen] at ended
    cases ended
  | false =>
    have pending : z.Pending (fun _ => false) t := ⟨submitted, done, rfl⟩
    by_cases isSpawn : (z.task t).kind = .taskSpawn
    · rcases cancelSpawn_spec good.spawning submitted isSpawn done (free t) with
        ⟨_, isEnd⟩ | ⟨_, refused⟩
      · -- Completing a spawned task leaves the writes alone.
        have other : v ≠ t := by rintro rfl; simp [kind] at isSpawn
        have same : (taskCanceled z.toCore t).task v = z.task v := by
          unfold taskCanceled
          rw [taskComplete_plain (by simp)]
          simp [settle, modTask, disarm, other]
        rw [isEnd] at ended
        rw [show ((({ z with workq := z.workq.erase t } : ZIo).on (taskCanceled · t), (0 : Int)).1.task v)
          = z.task v from same, isOpen] at ended
        cases ended
      · rw [refused, isOpen] at ended
        cases ended
    · by_cases isWrite : (z.task t).kind = .taskSockWrite
      · rcases Nat.eq_zero_or_pos (z.task t).off with unsent | sent
        · obtain ⟨_, _, a, _, second, task, ntask, alone⟩ :=
            cancelWrite_spec good.sound pending isWrite unsent
          have less' : v < a.core.ntask := by rw [ntask]; exact less
          by_cases same : v = t
          · subst same
            have settledNow : a.core.task v = settled rCanceled (z.task v) := by rw [task]; simp
            refine ⟨rfl, ?_, fun s sock other u differs => ?_⟩
            · refine (second.later.done v less' (by rw [settledNow]; rfl)).2.2.trans ?_
              rw [settledNow]
              exact unsent
            · rw [alone s sock other, task]
              simp [differs]
          · -- The writes behind it are only attempted.
            have old : a.core.task v = z.task v := by rw [task]; simp [same]
            have := second.later.ended v less' (by rw [old]; exact isOpen) ended
            exact absurd canceled this.2
        · rw [implCancel_sent isWrite sent, isOpen] at ended
          cases ended
      · obtain ⟨moves, _⟩ := cancelOther_spec good.sound pending isSpawn isWrite
        exact absurd kind (moves.later.ended v less isOpen ended).2

/-- A write is canceled by the call that is made for it, with nothing sent, or by a close. -/
theorem step_cancels {label : Label} (good : Good z) (allowed : z.Allowed label)
    (step : z.step label = some z') (less : t < z.ntask) (on : z.WriteOn s t)
    (isOpen : (z.task t).done = false) (ended : (z'.task t).done = true)
    (canceled : (z'.task t).res.status = .canceled) :
    ((z'.task t).off = 0 ∧ ∀ u rest, (z.sock s).wq = u :: rest → s ∈ z.socks → u ≠ t →
      (z'.task u).done = false) ∨
      (∃ mem, label = .sockClose mem s) ∧ z'.shut s = true ∧ s ∉ z'.socks := by
  have sound := good.sound
  have pending : z.Pending (fun _ => false) t := ⟨less, isOpen, rfl⟩
  have sock := write_sock sound pending on
  rcases (step_good good allowed step).2 with (moves | ⟨v, submitted, free, moves⟩ |
    ⟨mem, s', rfl, rfl⟩) | worked
  · exact absurd canceled (moves.later.ended t less isOpen ended on.1)
  · have inside : t < (z.implCancel v).1.ntask := by rw [implCancel_keeps.1]; exact less
    cases middle : ((z.implCancel v).1.task t).done with
    | false => exact (moves.later.ended t inside middle ended).elim
    | true =>
      obtain ⟨_, res, off⟩ := moves.later.done t inside middle
      obtain ⟨rfl, unsent, alone⟩ := implCancel_write good submitted free less on.1 isOpen middle
        (by rw [← canceled]; exact congrArg Result.status res.symm)
      refine .inl ⟨off.trans unsent, fun u rest wq live other => ?_⟩
      -- Behind the head of the FIFO nothing is promoted.
      have notHead : (z.sock s).wq.head? ≠ some t := by
        rw [wq]; simpa using other
      have isPending := ((sound.placed.fifo s u live).mp (by
        change u ∈ (z.sock s).wq; rw [wq]; exact List.mem_cons_self)).1
      have before : ((z.implCancel t).1.task u).done = false := by
        rw [alone s sock notHead u other]
        exact isPending.2.1
      have insideU : u < (z.implCancel t).1.ntask := by rw [implCancel_keeps.1]; exact isPending.1
      cases endedU : (z'.task u).done with
      | false => rfl
      | true => exact (moves.later.ended u insideU before endedU).elim
  · obtain ⟨_, apart, same | ⟨shut, gone, _⟩⟩ := implSockClose_spec sound mem allowed.1 allowed.2
    · rw [same, isOpen] at ended; cases ended
    · by_cases here : s' = s
      · subst here; exact .inr ⟨⟨mem, rfl⟩, shut, gone⟩
      · rw [apart t less (by rw [sock]; simpa using Ne.symm here), isOpen] at ended
        cases ended
  · exact ((work_good good worked).2.later.ended t less isOpen ended).elim

/-- No write is canceled by the call that submits it. -/
theorem step_born {label : Label} (good : Good z) (allowed : z.Allowed label)
    (step : z.step label = some z') (new : z.ntask ≤ t) (less : t < z'.ntask)
    (kind : (z'.task t).kind = .taskSockWrite) (ended : (z'.task t).done = true) :
    (z'.task t).res.status ≠ .canceled := by
  rcases (step_good good allowed step).2 with (moves | ⟨v, submitted, free, moves⟩ |
    ⟨mem, s', rfl, rfl⟩) | worked
  · exact moves.later.born t new less ended kind
  · have inside : (z.implCancel v).1.ntask ≤ t := by rw [implCancel_keeps.1]; exact new
    exact (moves.later.made t inside less).elim
  · obtain ⟨_, _, same | ⟨_, _, isInline⟩⟩ :=
      implSockClose_spec good.sound mem allowed.1 allowed.2
    · rw [same] at less; exact absurd less (Nat.not_lt_of_le new)
    · -- The one new task is the close itself.
      rcases (implSockClose_grows (z := z) (s := s') mem).2 with none | ⟨one, _⟩
      · rw [none] at less; exact absurd less (Nat.not_lt_of_le new)
      · rw [one] at less
        obtain rfl : t = z.ntask := Nat.le_antisymm (Nat.le_of_lt_succ less) new
        rw [isInline] at kind
        cases kind
  · exact ((work_good good worked).2.later.made t new less).elim

/-- A write that was canceled has sent nothing, unless its socket was closed. -/
def Unsent (z : ZIo) : Prop :=
  ∀ t s, t < z.ntask → z.WriteOn s t → (z.task t).done = true → (z.task t).res.status = .canceled →
    (z.task t).off = 0 ∨ z.shut s = true

theorem unsent_of_run {cfg : Config} {send : Nat → SendAns} (run : Run (ZIo.new cfg send) z) :
    Unsent z := by
  have together : Good z ∧ Unsent z := by
    refine run.invariant (fun z => Good z ∧ Unsent z) (fun z label z' before allowed step => ?_)
      ⟨Good.new cfg send, fun t s less => absurd less (by simp [ZIo.new, Core.new])⟩
    obtain ⟨good, unsent⟩ := before
    have later := (step_moves good allowed step).later
    refine ⟨(step_good good allowed step).1, fun t s less on done canceled => ?_⟩
    by_cases old : t < z.ntask
    · obtain ⟨kind, isOn, _⟩ := later.args t old
      have onBefore : z.WriteOn s t := ⟨kind.symm.trans on.1, isOn.symm.trans on.2⟩
      cases before : (z.task t).done with
      | true =>
        obtain ⟨_, res, off⟩ := later.done t old before
        rcases unsent t s old onBefore before (by rw [← canceled]; exact congrArg Result.status res.symm)
          with zero | shut
        · exact .inl (off.trans zero)
        · exact .inr (later.shut s shut)
      | false =>
        rcases step_cancels good allowed step old onBefore before done canceled with
          ⟨zero, _⟩ | ⟨_, shut, _⟩
        · exact .inl zero
        · exact .inr shut
    · exact absurd canceled (step_born good allowed step (Nat.le_of_not_lt old) less on.1 done)
  exact together.2

/-- When the head of a FIFO ends and its socket stays open, the next one is put on the poll set or
has been attempted. -/
theorem step_next {label : Label} {rest : List TaskId} (good : Good z) (allowed : z.Allowed label)
    (step : z.step label = some z') (live : s ∈ z.socks) (stays : s ∈ z'.socks)
    (wq : (z.sock s).wq = t :: u :: rest) (ended : (z'.task t).done = true) :
    u ∈ z'.armed ∨ ((z'.task u).done = true ∧ (z'.task u).res.status ≠ .canceled) := by
  have later := (step_moves good allowed step).later
  have after := (step_good good allowed step).1
  have member : ∀ v ∈ t :: u :: rest, z.Pending (fun _ => false) v ∧ z.WriteOn s v := by
    intro v inside
    obtain ⟨pending, kind, sock⟩ := (good.sound.placed.fifo s v live).mp (wq ▸ inside)
    have fits := good.sound.shaped v pending
    unfold Rules.Fits calm zShape at fits
    rw [kind] at fits
    exact ⟨pending, kind, fits.2.2.trans sock⟩
  obtain ⟨pendingT, onT⟩ := member t (by simp)
  obtain ⟨pendingU, onU⟩ := member u (by simp)
  have sorted : (t :: u :: rest).Pairwise (· < ·) := wq ▸ good.sound.placed.sorted s live
  have before : t < u := (List.pairwise_cons.mp sorted).1 u (by simp)
  have behind : ∀ v ∈ rest, u < v := (List.pairwise_cons.mp (List.pairwise_cons.mp sorted).2).1
  cases done : (z'.task u).done with
  | true =>
    refine .inr ⟨rfl, fun canceled => ?_⟩
    rcases step_cancels good allowed step pendingU.1 onU pendingU.2.1 done canceled with
      ⟨_, alone⟩ | ⟨_, _, gone⟩
    · rw [alone t (u :: rest) wq live (Nat.ne_of_lt before)] at ended; cases ended
    · exact gone stays
  | false =>
    -- The next one is the first write of the socket that is still not done.
    have onAfter : ∀ {v}, v < z.ntask → (z'.WriteOn s v ↔ z.WriteOn s v) := by
      intro v less
      obtain ⟨kind, on, _⟩ := later.args v less
      exact ⟨fun there => ⟨kind.symm.trans there.1, on.symm.trans there.2⟩,
        fun there => ⟨kind.trans there.1, on.trans there.2⟩⟩
    have pendingAfter : z'.Pending (fun _ => false) u :=
      ⟨Nat.lt_of_lt_of_le pendingU.1 later.ntask, done, rfl⟩
    have queued : u ∈ (z'.sock s).wq := after.sound.placed.queued pendingAfter
      ((onAfter pendingU.1).mpr onU).1 (write_sock after.sound pendingAfter ((onAfter pendingU.1).mpr onU))
    obtain ⟨head, tail, isQueue⟩ := List.exists_cons_of_ne_nil (List.ne_nil_of_mem queued)
    have sortedAfter : (head :: tail).Pairwise (· < ·) := isQueue ▸ after.sound.placed.sorted s stays
    have isHead : head = u := by
      rcases List.mem_cons.mp (isQueue ▸ queued) with same | later'
      · exact same.symm
      · -- An earlier one would have been in the FIFO before, ahead of it.
        have less : head < u := (List.pairwise_cons.mp sortedAfter).1 u later'
        obtain ⟨pendingH, kindH, sockH⟩ := (after.sound.placed.fifo s head stays).mp
          (by change head ∈ (z'.sock s).wq; rw [isQueue]; exact List.mem_cons_self)
        have old : head < z.ntask := Nat.lt_trans less pendingU.1
        have fits := after.sound.shaped head pendingH
        unfold Rules.Fits calm zShape at fits
        rw [kindH] at fits
        have onH := (onAfter old).mp ⟨kindH, fits.2.2.trans sockH⟩
        have openH : (z.task head).done = false := by
          cases was : (z.task head).done with
          | false => rfl
          | true =>
            have isOpen : (z'.task head).done = false := pendingH.2.1
            have still : (z'.task head).done = true := (later.done head old was).1
            rw [still] at isOpen
            cases isOpen
        have pendingBefore : z.Pending (fun _ => false) head := ⟨old, openH, rfl⟩
        have inside : head ∈ (z.sock s).wq := good.sound.placed.queued pendingBefore onH.1
          (write_sock good.sound pendingBefore onH)
        rw [wq] at inside
        rcases List.mem_cons.mp inside with rfl | inside
        · have isOpen : (z'.task head).done = false := pendingH.2.1
          rw [ended] at isOpen; cases isOpen
        · rcases List.mem_cons.mp inside with rfl | inside
          · exact absurd less (Nat.lt_irrefl _)
          · exact absurd less (Nat.lt_asymm (behind head inside))
    exact .inl (head_armed after.sound stays (by rw [isQueue, isHead]; rfl))

/--
The bytes on a socket in every reachable state, and what becomes of its writes.

The bytes accepted are the concatenation, in submission order, of one prefix of each write's buffer.
A write that succeeds is whole and comes after all earlier ones. Cancel refuses a write with bytes on
the wire, so a canceled write has sent nothing unless its socket was closed. When the head of a FIFO
ends and the socket stays open, the same step attempts the next one or puts it on the poll set.
-/
theorem loop_write_order {cfg : Config} {send : Nat → SendAns} (run : Run (ZIo.new cfg send) z) :
    (∀ s, s < z.nsock → ∃ fd, (z.sock s).fd = some fd ∧
      (z.desc fd).wire = (List.range z.ntask).flatMap (z.sentOn s)) ∧
    (∀ t s, t < z.ntask → z.WriteOn s t → (z.task t).off ≤ (z.task t).buf.length ∧
      ((z.task t).done = true → (z.task t).res.status = .ok →
        (z.task t).off = (z.task t).buf.length ∧ (z.task t).res.value = (z.task t).buf.length ∧
        ∀ u, u < t → z.WriteOn s u → (z.task u).done = true) ∧
      ((z.task t).done = true → (z.task t).res.status = .canceled →
        (z.task t).off = 0 ∨ z.shut s = true)) ∧
    (∀ t, (z.task t).kind = .taskSockWrite → 0 < (z.task t).off → z.user = .idle →
      z.step (.cancel t) = some (z.give (.canceled (-1)))) ∧
    ∀ label z', z.Allowed label → z.step label = some z' →
      (∀ t s, t < z.ntask → z.WriteOn s t → (z.task t).done = false → (z'.task t).done = true →
        (z'.task t).res.status = .canceled →
        (z'.task t).off = 0 ∨ ∃ mem, label = .sockClose mem s) ∧
      ∀ s ∈ z.socks, s ∈ z'.socks →
        (∀ t, (z'.sock s).wq.head? = some t → t ∈ z'.armed) ∧
        ∀ t u rest, (z.sock s).wq = t :: u :: rest → (z'.task t).done = true →
          u ∈ z'.armed ∨ ((z'.task u).done = true ∧ (z'.task u).res.status ≠ .canceled) := by
  have good := good_of_run run
  have wired := good.sound.wired trivial
  have opened : z.Opened := by
    have together : Good z ∧ z.Opened := by
      refine run.invariant (fun z => Good z ∧ z.Opened) (fun z label z' before allowed step => ?_)
        ⟨Good.new cfg send, fun s less => absurd less (by simp [ZIo.new, Core.new])⟩
      have moves := step_moves before.1 allowed step
      have opened : ∀ a b, Move loud a b → a.core.Opened → b.core.Opened :=
        fun _ _ move => Opened.move move id
      exact ⟨(step_good before.1 allowed step).1, moves.preserves opened before.2⟩
    exact together.2
  refine ⟨fun s made => ?_, fun t s less on => ⟨wired.fits t less, fun done okay => ?_,
    unsent_of_run run t s less on⟩, fun t kind sent idle => ?_,
    fun label z' allowed step => ⟨fun t s less on isOpen ended canceled => ?_,
      fun s live stays => ⟨fun t head => ?_, fun t u rest wq ended => ?_⟩⟩⟩
  · obtain ⟨fd, isFd⟩ := Option.ne_none_iff_exists'.mp (opened s made)
    exact ⟨fd, isFd, wired.wire s fd made isFd⟩
  · obtain ⟨sent, value⟩ := wired.whole t less on.1 done okay
    refine ⟨sent, value, fun u earlier onU => ?_⟩
    cases isDone : (z.task u).done with
    | true => rfl
    | false =>
      exact absurd ⟨Nat.lt_trans earlier less, isDone, rfl⟩
        (wired.ordered u t s earlier less onU on done okay)
  · change (if z.user = .idle then some _ else none) = _
    rw [if_pos idle, implCancel_sent kind sent]
  · rcases step_cancels good allowed step less on isOpen ended canceled with ⟨zero, _⟩ | ⟨closed, _⟩
    · exact .inl zero
    · exact .inr closed
  · exact head_armed (step_good good allowed step).1.sound stays head
  · exact step_next good allowed step live stays wq ended

/-- Two writes of which the first gets through in two sends, one canceled behind them, one empty. -/
def fourWrites : List Label :=
  [.tcpListen (.listening true), .sockWrite true 0 [1, 2, 3], .sockWrite true 0 [4, 5],
    .sockWrite true 0 [6], .sockWrite true 0 [], .cancel 2, .step, .poll { rc := 1, revents := fun _ => true }]

/-- The first send takes two bytes; on the next turn the rest and one byte of the second write go. -/
def fourSends : List SendAns := [.sent 2, .again, .sent 9, .sent 1, .again]

theorem loop_write_order_fourWrites :
    (∃ fd, ((after fourSends fourWrites).sock 0).fd = some fd ∧
      ((after fourSends fourWrites).desc fd).wire =
        (List.range (after fourSends fourWrites).ntask).flatMap
          ((after fourSends fourWrites).sentOn 0)) ∧
    (List.range (after fourSends fourWrites).ntask).flatMap
      ((after fourSends fourWrites).sentOn 0) = [1, 2, 3, 4] ∧
    ((after fourSends fourWrites).task 0).res.value = 3 ∧
    ((after fourSends fourWrites).task 2).res.status = .canceled ∧
    (((after fourSends fourWrites).task 2).off = 0 ∨ (after fourSends fourWrites).shut 0 = true) ∧
    ((after fourSends fourWrites).sock 0).wq = [1, 3] ∧
    (after fourSends fourWrites).step (.cancel 1) =
      some ((after fourSends fourWrites).give (.canceled (-1))) := by
  obtain ⟨wires, writes, refuses, _⟩ :=
    loop_write_order (run_after fourSends fourWrites (by decide +kernel))
  have canceled := (writes 2 0 (by decide +kernel) (by decide +kernel)).2.2 (by decide +kernel)
    (by decide +kernel)
  exact ⟨wires 0 (by decide +kernel), by decide +kernel, by decide +kernel, by decide +kernel, canceled,
    by decide +kernel, refuses 1 (by decide +kernel) (by decide +kernel) (by decide +kernel)⟩

/-! ### Teardown -/

/-- The sweep touches nothing but the sockets and their descriptors, and leaves none it went over. -/
theorem sweep_rest (l : List SockId) : ∀ {c : Core},
    sweep c l = { c with sock := (sweep c l).sock, desc := (sweep c l).desc, socks := c.socks.diff l } := by
  induction l with
  | nil => intro c; simp [sweep]
  | cons s rest ih =>
    intro c
    unfold sweep
    rw [ih, List.diff_cons]
    rfl

theorem diff_self (l : List Nat) : l.diff l = [] := by
  induction l with
  | nil => rfl
  | cons a l ih => rw [List.diff_cons, List.erase_cons_head, ih]

/--
The end of an instance, from every reachable state in which `destroy` is at the top of its loop.

A round completes the task at the head of the pending list or makes a turn of the loop. When the list
is empty every task is done, every FIFO is empty and every detached task has been released once; the
sweep then releases each remaining socket once. If no handle is left with the caller, all blocks are
back in their slabs.
-/
theorem destroy_releases {cfg : Config} {send : Nat → SendAns} (run : Run (ZIo.new cfg send) z)
    (destroying : z.user = .destroying) :
    (∀ t rest, z.armed = t :: rest → ∃ z', z.step .resume = some z' ∧
      ((z'.user = .destroying ∧ (z.task t).done = false ∧ (z'.task t).done = true) ∨
        z' = { z with user := .polling .destroy })) ∧
    (z.armed = [] →
      (∀ t, t < z.ntask → (z.task t).done = true ∧
        ((z.task t).detached = true → (z.task t).frees = 1)) ∧
      (∀ s ∈ z.socks, (z.sock s).wq = []) ∧
      ∃ z', z.step .resume = some z' ∧ z'.user = .destroyed ∧ z'.socks = [] ∧
        (∀ s, s < z'.nsock → (z.sock s).frees = (if s ∈ z.socks then 0 else 1) ∧
          (z'.sock s).frees = 1) ∧
        ((∀ t, t < z.ntask → z.held t = false) →
          (∀ t, t < z'.ntask → (z'.task t).frees = 1) ∧ z'.tasksUsed = 0 ∧ z'.socksUsed = 0)) := by
  have good := good_of_run run
  have stepped : z.step .resume = some z.destroyRound := by
    change z.resume = _
    unfold resume
    rw [destroying]
  refine ⟨fun t rest isArmed => ⟨_, stepped, ?_⟩, fun empty => ⟨fun t less => ?_, fun s live => ?_,
    _, stepped, ?_⟩⟩
  · have submitted : t < z.ntask := ((good.sound.placed.armed t).mp (by
      change t ∈ z.armed; rw [isArmed]; exact List.mem_cons_self)).1.1
    obtain ⟨_, user, _, ended, refused⟩ := implCancel_good good submitted
      fun u => by rw [destroying]; rfl
    unfold destroyRound
    rw [isArmed]
    dsimp only
    split
    · rename_i z₁ isEnd
      rw [isEnd] at user ended
      exact .inl ⟨user.trans destroying, ended rfl⟩
    · rename_i z₁ code other isEnd
      rw [isEnd] at refused
      have same : z₁ = z := refused other
      rw [same]
      exact .inr rfl
  · have done := done_of_empty good.sound empty less
    refine ⟨done, fun detached => ?_⟩
    have life := good.sound.lives.each t less
    have held : z.held t = false := life.detached detached
    exact life.frees.trans (by
      rw [show (z.rest.core.task t).done = true from done, show z.rest.core.held t = false from held]
      rfl)
  · -- A write in a FIFO would not be done.
    cases wq : (z.sock s).wq with
    | nil => rfl
    | cons t rest =>
      have pending := ((good.sound.placed.fifo s t live).mp (by
        change t ∈ (z.sock s).wq; rw [wq]; exact List.mem_cons_self)).1
      exact absurd empty (armed_of_pending good.sound pending)
  · have after := (destroyRound_good good destroying).1
    have isEnd : z.destroyRound = { z.on fun c => sweep c c.socks with
        file := fun i => { z.file i with used := false }, user := .destroyed } := by
      unfold destroyRound
      rw [empty]
    rw [isEnd] at after ⊢
    have none_ : (sweep z.toCore z.socks).socks = [] := by
      rw [sweep_rest]
      exact diff_self z.socks
    have nsock : (sweep z.toCore z.socks).nsock = z.nsock := by rw [sweep_rest]
    have task : (sweep z.toCore z.socks).task = z.task := by rw [sweep_rest]
    have linked : (sweep z.toCore z.socks).Linked := after.sound.linked
    have ntask : (sweep z.toCore z.socks).ntask = z.ntask := by rw [sweep_rest]
    have freed : ∀ s, s < z.nsock → ((sweep z.toCore z.socks).sock s).frees = 1 := by
      intro s made
      have := linked.frees s (nsock.symm ▸ made)
      rw [none_] at this
      simpa using this
    have returned : (∀ t, t < z.ntask → z.held t = false) →
        ∀ t, t < z.ntask → ((sweep z.toCore z.socks).task t).frees = 1 := by
      intro given t less
      rw [task]
      refine (good.sound.lives.each t less).frees.trans ?_
      rw [show (z.rest.core.task t).done = true from done_of_empty good.sound empty less,
        show z.rest.core.held t = false from given t less]
      rfl
    refine ⟨rfl, none_, fun s made => ?_, fun given => ⟨fun t less => ?_, ?_, ?_⟩⟩
    · have made : s < z.nsock := nsock ▸ made
      exact ⟨good.sound.linked.frees s made, freed s made⟩
    · exact returned given t (ntask ▸ less)
    · refine Machine.count_eq_zero.mpr fun t less zero => ?_
      have := returned given t (ntask ▸ less)
      rw [show ((sweep z.toCore z.socks).task t).frees = 0 from zero] at this
      cases this
    · refine Machine.count_eq_zero.mpr fun s made zero => ?_
      have := freed s (nsock ▸ made)
      rw [show ((sweep z.toCore z.socks).sock s).frees = 0 from zero] at this
      cases this

/-- A detached accept, two writes freed by destroy's own cancels, and a listener left open. -/
def leftOpen : List Label :=
  [.tcpListen (.listening true), .tcpAccept true 0 .again, .sockWrite true 0 [1], .sockWrite true 0 [2],
    .detach 0, .detach 1, .detach 2, .destroy, .resume, .resume, .resume]

theorem destroy_releases_leftOpen :
    (after [] leftOpen).user = .destroying ∧ (after [] leftOpen).armed = [] ∧
    (after [] leftOpen).ntask = 3 ∧ ((after [] leftOpen).task 2).frees = 1 ∧
    ∃ z', (after [] leftOpen).step .resume = some z' ∧ z'.socks = [] ∧ z'.tasksUsed = 0 ∧
      z'.socksUsed = 0 := by
  obtain ⟨_, past⟩ := destroy_releases (run_after [] leftOpen (by decide +kernel)) (by decide +kernel)
  obtain ⟨tasks, _, z', step, _, socks, _, back⟩ := past (by decide +kernel)
  obtain ⟨_, tasksUsed, socksUsed⟩ := back (by decide +kernel)
  exact ⟨by decide +kernel, by decide +kernel, by decide +kernel,
    (tasks 2 (by decide +kernel)).2 (by decide +kernel), z', step, socks, tasksUsed, socksUsed⟩

end ZIo

end Myio.Loop
