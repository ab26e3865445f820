import Myio.Pool.Ended
import Myio.Pool.Places
import Myio.ZPool.Runs

/-! What both thread pools promise, and where they break it. -/

namespace Myio

open Core

variable {os : Os} {p p' q : Pool} {n : Nat} {pick : Nat → WorkerId → Bool} {z z' y : ZPool}

/-! ### All or nothing -/

/-- The runs of the desktop pool in which no close task is canceled or fails. -/
def Pool.CleanRun (p p' : Pool) : Prop :=
  Machine.Path Pool.step (fun p l => p.obeys l = true ∧ p.clean l = true) p p'

/-- The runs of the Zephyr pool in which no close task is canceled. -/
def ZPool.CleanRun (z z' : ZPool) : Prop :=
  Machine.Path ZPool.step (fun z l => z.obeys l = true ∧ z.clean l = true) z z'

theorem closesWell_apart (k : OpKind) (res : Result) (apart : k ≠ .opSockClose) : closesWell k res :=
  fun isClose => absurd isClose apart

theorem Pool.CleanRun.ended (run : Pool.CleanRun (Pool.new os) p) :
    p.Good ∧ p.Ended closesWell := by
  refine Machine.Path.invariant (fun p => p.Good ∧ p.Ended closesWell) ?_ run
    ⟨.new os, fun t inside => absurd inside (Nat.not_lt_zero t)⟩
  rintro p label p' ⟨good, ended⟩ ⟨obeyed, clean⟩ taken
  have moves := step_moves (o := closesWell) good.sound good.tidy good.crew obeyed closesWell_apart
    (fun _ => rfl) (.inl clean) taken
  exact ⟨good.step obeyed taken, Ended.moves moves good.sound ended⟩

theorem ZPool.CleanRun.ended (run : ZPool.CleanRun (ZPool.new n pick) z) :
    z.Good ∧ z.Ended closesWell := by
  refine Machine.Path.invariant (fun z => z.Good ∧ z.Ended closesWell) ?_ run
    ⟨.new n pick, fun t inside => absurd inside (Nat.not_lt_zero t)⟩
  rintro z label z' ⟨good, ended⟩ ⟨obeyed, clean⟩ taken
  have moves := step_moves (o := closesWell) good.sound good.tidy good.slotted obeyed closesWell_apart
    (fun _ => rfl) (.inl clean) taken
  exact ⟨good.step obeyed taken, Ended.moves moves good.sound ended⟩

/--
A close that no worker has started is neither canceled, freed nor dropped, and on the desktop a
close of a busy socket finds a worker: then every close is all or nothing, in both pools.
-/
theorem close_all_or_nothing (run : Pool.CleanRun (Pool.new os) p)
    (run' : ZPool.CleanRun (ZPool.new n pick) z) : p.AllOrNothing ∧ z.AllOrNothing := by
  -- Every close task that ended has ended well, and then its socket is gone.
  obtain ⟨good, ended⟩ := run.ended
  obtain ⟨good', ended'⟩ := run'.ended
  exact ⟨allOrNothing_of_ended good.sound ended, allOrNothing_of_ended good'.sound ended'⟩

/-- A listener is closed while a worker blocks in an accept on it, and the close is canceled. -/
def abandonedClose : List Pool.Label :=
  [.user .tcpListen, .user (.resume true), .user (.tcpAccept 0), .worker 0 .main,
    .user (.sockClose 0), .user (.cancel 1)]

/-- The same with the Zephyr pool. -/
def abandonedZephyrClose : List ZPool.Label :=
  [.user .tcpListen, .user (.resume true), .user (.tcpAccept 0), .worker 0 .main,
    .user (.sockClose 0), .user (.cancel 1)]

/-- The canceled close leaves the socket marked and its descriptor open. -/
theorem close_half_done :
    (Pool.Run (Pool.new Pool.calm) (Pool.after abandonedClose) ∧
      ¬ (Pool.after abandonedClose).AllOrNothing) ∧
    ZPool.Run (ZPool.new 1 fun _ _ => true) (ZPool.after abandonedZephyrClose) ∧
      ¬ (ZPool.after abandonedZephyrClose).AllOrNothing := by
  refine ⟨⟨Pool.run_after _ (by decide +kernel), fun all => ?_⟩,
    ZPool.run_after _ (by decide +kernel), fun all => ?_⟩
  · rcases all 1 0 (by decide +kernel) (by decide +kernel) (by decide +kernel) (by decide +kernel) with
      ⟨well, _⟩ | ⟨_, _, usable⟩
    · exact absurd well (by decide +kernel)
    · exact absurd usable (by decide +kernel)
  · rcases all 1 0 (by decide +kernel) (by decide +kernel) (by decide +kernel) (by decide +kernel) with
      ⟨well, _⟩ | ⟨_, _, usable⟩
    · exact absurd well (by decide +kernel)
    · exact absurd usable (by decide +kernel)

/-- A close that finds nothing in flight succeeds on the spot, in both pools. -/
theorem close_all_or_nothing_idle :
    (Pool.after (abandonedClose.take 2 ++ [.user (.sockClose 0)])).AllOrNothing ∧
    (ZPool.after (abandonedZephyrClose.take 2 ++ [.user (.sockClose 0)])).AllOrNothing := by
  have run : Pool.CleanRun (Pool.new Pool.calm)
      (Pool.after (abandonedClose.take 2 ++ [.user (.sockClose 0)])) :=
    .of_legal (fun (p : Pool) l => p.obeys l && p.clean l)
      (fun _ _ => Bool.and_eq_true_iff.mp) _ (.refl _) (by decide +kernel)
  have run' : ZPool.CleanRun (ZPool.new 1 fun _ _ => true)
      (ZPool.after (abandonedZephyrClose.take 2 ++ [.user (.sockClose 0)])) :=
    .of_legal (fun (z : ZPool) l => z.obeys l && z.clean l)
      (fun _ _ => Bool.and_eq_true_iff.mp) _ (.refl _) (by decide +kernel)
  exact close_all_or_nothing run run'

/-! ### Teardown -/

/-- A task that `impl_destroy` dropped: canceled once, and its memory released once. -/
structure Core.Scrapped (c : Core) (t : TaskId) : Prop where
  done : (c.task t).done = true
  res : (c.task t).res = rCanceled
  dones : (c.task t).dones = 1
  frees : (c.task t).frees = 1

/-- What was dropped when a core was swept stays so, however the pool goes on. -/
theorem scrapped_of_tearDown {c d : Core} {t : TaskId} (sound : Sound c.rest)
    (moves : Moves (fun _ _ => True) c.tearDown.rest d.rest) (inside : t < c.ntask)
    (isOpen : (c.task t).done = false) (unstarted : (c.task t).started = false) : d.Scrapped t := by
  obtain ⟨torn, swept, down⟩ := tearDown_spec (o := fun _ _ => True) sound (fun _ _ => trivial)
    fun _ => trivial
  have sound' : Sound c.tearDown.rest := sound.moves torn
  have ntask : c.tearDown.ntask = c.ntask := by rw [swept.rest]
  have isDown : c.tearDown.shutdown = true := by rw [swept.rest]
  -- A task still pending after the sweep would be with a worker.
  obtain ⟨task, unheld⟩ : c.tearDown.task t = dropped (c.task t) ∧ c.tearDown.held t = false := by
    rcases swept.task t with ⟨task, _⟩ | ⟨_, _, task, held⟩
    · have task : c.tearDown.task t = c.task t := task
      have started := (down isDown).2 t ⟨ntask ▸ inside, by rw [task]; exact isOpen, rfl⟩
      rw [task, unstarted] at started
      cases started
    · exact ⟨task, held⟩
  have inside' : t < c.tearDown.ntask := ntask ▸ inside
  have later : Later c.tearDown d := Later.moves moves sound'
  obtain ⟨done, res⟩ := later.done t inside' (by rw [task]; rfl)
  have life : Life (d.task t) (d.held t) :=
    (sound'.moves moves).lives.each t (Nat.lt_of_lt_of_le inside' later.ntask)
  have unheld' : d.held t = false := unheld_moves moves sound' inside' unheld
  refine ⟨done, by rw [res, task]; rfl, ?_, ?_⟩
  · rw [life.dones, done]; rfl
  · rw [life.frees, done, unheld']; rfl

/-- Whoever runs a task once the pool is wound down has been running it before. -/
theorem ran_of_wound {c d : Core} {t : TaskId} {v : WorkerId} (sound : Sound c.rest)
    (down : c.WoundDown) (isDown : c.shutdown = true) (moves : Moves (fun _ _ => True) c.rest d.rest)
    (ntask : d.ntask = c.ntask) (runs : d.Runs v t) : ∃ w, c.Runs w t := by
  have later : Later c d := Later.moves moves sound
  have pending : d.Pending (fun _ => false) t := ((sound.moves moves).placed.run_pending v t runs).1
  have inside : t < c.ntask := ntask ▸ pending.1
  have isOpen : (c.task t).done = false := by
    cases done : (c.task t).done with
    | false => rfl
    | true => exact Bool.noConfusion (pending.2.1.symm.trans (later.done t inside done).1)
  have pending' : c.Pending (fun _ => false) t := ⟨inside, isOpen, rfl⟩
  exact sound.placed.started_run t pending' ((down isDown).2 t pending')

/-- Once the desktop pool is on its way out, no task is made. -/
theorem Pool.leaving_step {label : Pool.Label} (good : p.Good) (leaves : p.user.leaves = true)
    (taken : p.step label = some p') : p'.user.leaves = true ∧ p'.ntask = p.ntask := by
  have isDown : p.shutdown = true := good.tidy.shutdown.trans leaves
  cases label with
  | worker w act =>
    have stays := Pool.Stays.workerStep taken
    exact ⟨by rw [stays.user]; exact leaves,
      (Pool.workerStep_down isDown (good.tidy.down isDown).1 taken).2⟩
  | user call =>
    rcases Pool.userStep_cases taken with ⟨idle, _⟩ | ⟨_, _, taken⟩
    · rw [idle] at leaves; cases leaves
    · unfold Pool.resume at taken
      split at taken
      · rename_i user; rw [user] at leaves; cases leaves
      · rename_i user; rw [user] at leaves; cases leaves
      · rename_i user; rw [user] at leaves; cases leaves
      · rename_i user; rw [user] at leaves; cases leaves
      · cases taken
        unfold Pool.destroyOn
        split
        · refine ⟨rfl, ?_⟩
          change (Pool.closeSocks p.toCore p.socks).ntask = p.ntask
          rw [closeSocks_rest]
        · exact ⟨leaves, rfl⟩
      · cases taken

theorem Pool.Run.leaving (run : Pool.Run p p') (good : p.Good) (leaves : p.user.leaves = true) :
    p'.user.leaves = true ∧ p'.ntask = p.ntask := by
  induction run with
  | refl => exact ⟨leaves, rfl⟩
  | snoc before obeyed taken ih =>
    obtain ⟨leaves', ntask⟩ := Pool.leaving_step (Pool.Run.good_of before good) ih.1 taken
    exact ⟨leaves', ntask.trans ih.2⟩

theorem ZPool.Run.leaving (run : ZPool.Run z z') (good : z.Good) (leaves : z.user.leaves = true) :
    z'.user.leaves = true ∧ z'.ntask = z.ntask := by
  induction run with
  | refl => exact ⟨leaves, rfl⟩
  | snoc before obeyed taken ih =>
    obtain ⟨leaves', ntask⟩ := ZPool.leaving_step (ZPool.Run.good_of before good) ih.1 taken
    exact ⟨leaves', ntask.trans ih.2⟩

theorem Pool.destroy_taken (taken : p.step (.user .destroy) = some p') : p.implDestroy = p' := by
  rcases Pool.userStep_cases (c := .destroy) taken with ⟨_, called⟩ | ⟨_, resumed, _⟩
  · exact Option.some.inj called
  · cases resumed

theorem ZPool.destroy_taken (taken : z.step (.user .destroy) = some z') : z.implDestroy = z' := by
  rcases ZPool.userStep_cases (c := .destroy) taken with ⟨_, called⟩ | ⟨_, resumed, _⟩
  · exact Option.some.inj called
  · cases resumed

/--
What the critical section of `impl_destroy` leaves behind, at any time after it.

Before it the shared part was `c`, after it `c'`, and later `d`.
-/
structure Core.TornDown (c c' d : Core) : Prop where
  queue : d.queue = []
  runs : ∀ t, (∃ w, d.Runs w t) → ∃ w, c'.Runs w t
  dropped : ∀ t, t < c.ntask → (c.task t).done = false → (c.task t).started = false → d.Scrapped t

/--
Teardown of both thread pools: from the end of the critical section that sets `shutdown` on, the
work queue is empty, no worker runs a task it had not dequeued by then, and every task that was not
started is canceled and released once.
-/
theorem destroy_tears_down :
    (∀ (os : Os) (p p' q : Pool), Pool.Run (Pool.new os) p → p.step (.user .destroy) = some p' →
      Pool.Run p' q → TornDown p.toCore p'.toCore q.toCore) ∧
    ∀ (n : Nat) (pick : Nat → WorkerId → Bool) (z z' y : ZPool), ZPool.Run (ZPool.new n pick) z →
      z.step (.user .destroy) = some z' → ZPool.Run z' y → TornDown z.toCore z'.toCore y.toCore := by
  refine ⟨fun os p p' q run taken more => ?_, fun n pick z z' y run taken more => ?_⟩
  · have good := run.good
    have good' := good.step rfl taken
    have good'' := more.good_of good'
    obtain rfl := Pool.destroy_taken taken
    have isDown : p.implDestroy.shutdown = true := good'.tidy.shutdown
    obtain ⟨leaves, ntask⟩ := more.leaving good' rfl
    obtain ⟨_, moves, _⟩ := Pool.implDestroy_spec (o := fun _ _ => True) good.sound
      (fun _ _ => trivial) fun _ => trivial
    exact ⟨(good''.tidy.down (good''.tidy.shutdown.trans leaves)).1,
      fun t ran => ran.elim fun w runs =>
        ran_of_wound good'.sound good'.tidy.down isDown (more.moves good') ntask runs,
      fun t => scrapped_of_tearDown good.sound (moves.trans (more.moves good'))⟩
  · have good := run.good
    have good' := good.step rfl taken
    have good'' := more.good_of good'
    obtain rfl := ZPool.destroy_taken taken
    have isDown : z.implDestroy.shutdown = true := good'.tidy.leaves
    obtain ⟨leaves, ntask⟩ := more.leaving good' rfl
    obtain ⟨_, moves, _⟩ := ZPool.implDestroy_spec (o := fun _ _ => True) good.sound good.slotted
      (fun _ _ => trivial) fun _ => trivial
    exact ⟨(Pool.Tidy.down good''.tidy (good''.tidy.leaves.trans leaves)).1,
      fun t ran => ran.elim fun w runs =>
        ran_of_wound good'.sound (Pool.Tidy.down good'.tidy) isDown (more.moves good') ntask runs,
      fun t => scrapped_of_tearDown good.sound (moves.trans (more.moves good'))⟩

/-- Two writes on a socket and a detached sleep; a worker sends the first write. -/
def busyPool : List Pool.Label :=
  [.user .tcpListen, .user (.resume true), .user (.sockWrite 0 [1, 2]), .user (.sockWrite 0 [3]),
    .user .sleep, .user (.taskDetach 2), .worker 0 .main]

/-- The same with the Zephyr pool. -/
def busyZephyrPool : List ZPool.Label :=
  [.user .tcpListen, .user (.resume true), .user (.sockWrite 0 [1, 2]), .user (.sockWrite 0 [3]),
    .user .sleep, .user (.taskDetach 2), .worker 0 .main]

theorem Pool.step_destroy (idle : p.user = .idle) :
    p.step (.user .destroy) = some p.implDestroy := by
  simp [Pool.step, Pool.userStep, idle, Pool.call]

theorem ZPool.step_destroy (idle : z.user = .idle) :
    z.step (.user .destroy) = some z.implDestroy := by
  simp [ZPool.step, ZPool.userStep, idle, ZPool.call]

/-- The parked write and the queued sleep are gone as soon as the section ends, in both pools. -/
theorem destroy_tears_down_busy :
    ((Pool.after busyPool).implDestroy.Scrapped 1 ∧ (Pool.after busyPool).implDestroy.Scrapped 2) ∧
    (ZPool.after busyZephyrPool).implDestroy.Scrapped 1 ∧
      (ZPool.after busyZephyrPool).implDestroy.Scrapped 2 := by
  have torn := destroy_tears_down.1 _ _ _ _ (Pool.run_after busyPool (by decide +kernel))
    (Pool.step_destroy (by decide +kernel)) (.refl _)
  have torn' := destroy_tears_down.2 _ _ _ _ _ (ZPool.run_after busyZephyrPool (by decide +kernel))
    (ZPool.step_destroy (by decide +kernel)) (.refl _)
  exact ⟨⟨torn.dropped 1 (by decide +kernel) (by decide +kernel) (by decide +kernel),
      torn.dropped 2 (by decide +kernel) (by decide +kernel) (by decide +kernel)⟩,
    torn'.dropped 1 (by decide +kernel) (by decide +kernel) (by decide +kernel),
    torn'.dropped 2 (by decide +kernel) (by decide +kernel) (by decide +kernel)⟩

end Myio
