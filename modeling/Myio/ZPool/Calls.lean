import Myio.Pool.Runs
import Myio.ZPool.Slots

/-!
The calls of the Zephyr pool's user thread.

Most of them end as a call of the desktop pool does, and take their moves from there.
-/

namespace Myio

open Function (update)
open Core

namespace ZPool

variable {o : OpKind → Result → Prop} {z z' : ZPool} {t : TaskId} {s : SockId} {w : WorkerId}

/-! ### Calls the two pools have in common -/

/-- A step that cancels no close task: none is canceled or freed before a worker has it. -/
def clean (z : ZPool) : Label → Bool
  | .user (.cancel t) | .user (.taskFree t) =>
    !((z.task t).kind = .opSockClose && !(z.task t).done && !(z.task t).started)
  | .user .destroy => z.queue.all fun t => (z.task t).kind ≠ .opSockClose
  | _ => true

/-- A call ends as a call of the desktop pool does, and asks no less of the caller. -/
structure Mirrors (z z' : ZPool) (c : Call) (c' : Pool.Call) : Prop where
  code : ∃ p, (z.desktop z.signalled).call c' = some p ∧ p.toCore = z'.toCore ∧ p.user = z'.user
  obeys : z.obeys (.user c) = true → (z.desktop z.signalled).obeys (.user c') = true
  clean : z.clean (.user c) = true → (z.desktop z.signalled).clean (.user c') = true

/-- What a call of the Zephyr pool is: one of the desktop pool, a kick, a submission that fails on
the spot, a `sock_close`, or the end. -/
inductive Called (z : ZPool) : ZPool → Call → Prop
  | mirrored {z' c} (c' : Pool.Call) (mirrors : Mirrors z z' c c') : Called z z' c
  | kicked {c} (t : TaskId) (user : User)
      (at_ : user = z.user ∨ user = .freeing t ∧ c = .taskFree t) :
      Called z { z.on (kick · t) with user := user } c
  | failed {c} (k : OpKind) (err : Int) (apart : opOnSock k = false) (notClose : k ≠ .opSockClose) :
      Called z (z.taskNewFailed k err) c
  | close (s : SockId) : Called z (z.implSockClose s) (.sockClose s)
  | destroy : Called z z.implDestroy .destroy

/-- A submission is mirrored, whatever has been noted in the slots before it. -/
theorem mirrors_submit {k : Task} {c : Call} {c' : Pool.Call} (new : Pool.New k) {y : ZPool}
    (core : y.toCore = z.toCore) (pick : y.pick = z.pick) (tick : y.tick = z.tick)
    (user : y.user = z.user)
    (code : (z.desktop z.signalled).call c' = some ((z.desktop z.signalled).submit k))
    (obeys : z.obeys (.user c) = true → (z.desktop z.signalled).obeys (.user c') = true)
    (clean : (z.desktop z.signalled).clean (.user c') = true) : Mirrors z (y.submit k) c c' := by
  have shadow : Shadow y (z.desktop z.signalled) := (shadow_desktop z).slots core pick tick
  refine ⟨⟨_, code, shadow.submit k, ?_⟩, obeys, fun _ => clean⟩
  rw [submit_user, user]
  exact ((Pool.Stays.stable _).submit (.refl (z.desktop z.signalled)) k new).user

theorem called {c : Call} (taken : z.call c = some z') : Called z z' c := by
  have shadow := shadow_desktop z
  have stable := Pool.Stays.stable (z.desktop z.signalled)
  cases c with
  | «open» fits =>
    cases taken
    unfold implOpen
    split
    · exact .mirrored .open (mirrors_submit ⟨rfl, rfl, rfl⟩ rfl rfl rfl rfl rfl id rfl)
    · exact .failed _ _ rfl (by decide)
  | close known =>
    cases taken
    unfold implClose
    split
    · exact .mirrored .close (mirrors_submit ⟨rfl, rfl, rfl⟩ rfl rfl rfl rfl rfl id rfl)
    · exact .failed _ _ rfl (by decide)
  | read known =>
    cases taken
    unfold implRead implFileRw
    split
    · exact .mirrored .read (mirrors_submit ⟨rfl, rfl, rfl⟩ rfl rfl rfl rfl rfl id rfl)
    · exact .failed _ _ rfl (by decide)
  | write known =>
    cases taken
    unfold implWrite implFileRw
    split
    · exact .mirrored .write (mirrors_submit ⟨rfl, rfl, rfl⟩ rfl rfl rfl rfl rfl id rfl)
    · exact .failed _ _ rfl (by decide)
  | sleep => cases taken; exact .mirrored .sleep (mirrors_submit ⟨rfl, rfl, rfl⟩ rfl rfl rfl rfl rfl id rfl)
  | spawn => cases taken; exact .mirrored .spawn (mirrors_submit ⟨rfl, rfl, rfl⟩ rfl rfl rfl rfl rfl id rfl)
  | tcpConnect fits =>
    cases taken
    unfold implTcpConnect
    split
    · exact .mirrored .tcpConnect (mirrors_submit ⟨rfl, rfl, rfl⟩ rfl rfl rfl rfl rfl id rfl)
    · exact .failed _ _ rfl (by decide)
  | tcpListen => cases taken; exact .mirrored .tcpListen ⟨⟨_, rfl, rfl, rfl⟩, id, id⟩
  | tcpAccept ls =>
    cases taken
    unfold implTcpAccept
    split
    · exact .failed _ _ rfl (by decide)
    · exact .mirrored (.tcpAccept ls) (mirrors_submit ⟨rfl, rfl, rfl⟩ rfl rfl rfl rfl rfl id rfl)
  | sockRead s =>
    cases taken
    unfold implSockRead
    split
    · exact .failed _ _ rfl (by decide)
    · exact .mirrored (.sockRead s) (mirrors_submit ⟨rfl, rfl, rfl⟩ rfl rfl rfl rfl rfl id rfl)
  | sockWrite s buf =>
    cases taken
    exact .mirrored (.sockWrite s buf) (mirrors_submit ⟨rfl, rfl, rfl⟩ rfl rfl rfl rfl rfl id rfl)
  | sockClose s => cases taken; exact .close s
  | wait goal =>
    cases goal <;> cases taken <;> exact .mirrored (.wait _) ⟨⟨_, rfl, rfl, rfl⟩, id, id⟩
  | cancel t =>
    cases taken
    by_cases reached : (z.task t).done = false ∧ (z.task t).started = true ∧
        opInterruptible (z.task t).kind = true
    · obtain ⟨isOpen, started, interruptible⟩ := reached
      have code : z.implCancel t = { z.on (kick · t) with user := z.user } := by
        unfold implCancel
        rw [if_neg (by simp [isOpen]), if_neg (by simp [started]), if_pos interruptible]
        rfl
      rw [code]
      exact .kicked t z.user (.inl rfl)
    · refine .mirrored (.cancel t) ⟨⟨_, rfl, ?_⟩, id, id⟩
      unfold Pool.implCancel implCancel
      rw [desktop_toCore]
      split
      · exact ⟨rfl, rfl⟩
      · split
        · exact ⟨shadow.completeUnrun t, ((stable.completeUnrun (.refl _) t).user).trans
            (completeUnrun_user z t rCanceled).symm⟩
        · rename_i isOpen started
          rw [if_neg fun interruptible => reached ⟨by simpa using isOpen, by simpa using started,
            interruptible⟩, if_neg fun interruptible => reached ⟨by simpa using isOpen,
              by simpa using started, interruptible⟩]
          exact ⟨rfl, rfl⟩
  | taskResult t =>
    cases taken
    refine .mirrored (.taskResult t) ⟨⟨_, rfl, ?_⟩, id, id⟩
    unfold Pool.implTaskResult implTaskResult
    rw [desktop_toCore]
    cases (z.task t).res.ptr <;> exact ⟨rfl, rfl⟩
  | taskFree t =>
    cases taken
    by_cases reached : (z.task t).done = false ∧ (z.task t).started = true ∧
        opInterruptible (z.task t).kind = true
    · obtain ⟨isOpen, started, interruptible⟩ := reached
      have code : z.implTaskFree t = { z.on (kick · t) with user := .freeing t } := by
        unfold implTaskFree
        rw [if_neg (by simp [isOpen]), if_neg (by simp [started]), if_pos interruptible]
      rw [code]
      exact .kicked t (.freeing t) (.inr ⟨rfl, rfl⟩)
    · refine .mirrored (.taskFree t) ⟨⟨_, rfl, ?_⟩, id, id⟩
      unfold Pool.implTaskFree implTaskFree
      rw [desktop_toCore]
      split
      · exact ⟨rfl, rfl⟩
      · split
        · have core := shadow.completeUnrun t
          refine ⟨?_, ((stable.completeUnrun (.refl _) t).user).trans
            (completeUnrun_user z t rCanceled).symm⟩
          generalize (z.desktop z.signalled).completeUnrun t = q at core ⊢
          generalize z.completeUnrun t rCanceled = y at core ⊢
          change Core.taskFreeMem { q.toCore with held := update q.held t false } t =
            Core.taskFreeMem { y.toCore with held := update y.held t false } t
          rw [core]
        · rename_i isOpen started
          rw [if_neg fun interruptible => reached ⟨by simpa using isOpen, by simpa using started,
            interruptible⟩, if_neg fun interruptible => reached ⟨by simpa using isOpen,
              by simpa using started, interruptible⟩]
          exact ⟨rfl, rfl⟩
  | taskDetach t =>
    cases taken
    refine .mirrored (.taskDetach t) ⟨⟨_, rfl, ?_⟩, id, id⟩
    have user : ((z.desktop z.signalled).implTaskDetach t).user = z.user := by
      unfold Pool.implTaskDetach Pool.dropSock
      dsimp only
      repeat' split
      all_goals rfl
    have user' : (z.implTaskDetach t).user = z.user := by
      unfold implTaskDetach dropSock
      dsimp only
      repeat' split
      all_goals rfl
    refine ⟨?_, user.trans user'.symm⟩
    unfold Pool.implTaskDetach implTaskDetach
    change (if (z.task t).done then (((z.desktop z.signalled).dropHandle t).dropSock
      (z.task t).res.ptr).on (·.reap t) else _).toCore = (if (z.task t).done then
      ((z.dropHandle t).dropSock (z.task t).res.ptr).on (·.reap t) else _).toCore
    cases done : (z.task t).done with
    | false => rfl
    | true => cases (z.task t).res.ptr <;> rfl
  | destroy => cases taken; exact .destroy
  | resume => cases taken

/-! ### Teardown -/

/-- Once `shutdown` is set, `complete_unrun` and `reap` drop a task. -/
theorem dropUnrun_core (down : z.shutdown = true) (orphans : Pool.Orphaned z.toCore) (t : TaskId) :
    (z.dropUnrun t).toCore = z.toCore.drop t := by
  have same := congrArg Pool.toCore
    (Pool.dropUnrun_down (p := z.desktop z.signalled) down orphans t)
  have core := (shadow_desktop z).completeUnrun t
  refine Eq.trans ?_ same
  unfold dropUnrun Pool.dropUnrun
  rw [desktop_toCore]
  cases (z.task t).detached with
  | true => exact core.symm
  | false =>
    generalize z.completeUnrun t rCanceled = y at core ⊢
    generalize (z.desktop z.signalled).completeUnrun t = q at core ⊢
    change Core.reap { y.toCore with held := update y.held t false } t =
      Core.reap { q.toCore with held := update q.held t false } t
    rw [core]

theorem destroyQueue_core (n : Nat) : ∀ {z : ZPool}, z.shutdown = true → Pool.Orphaned z.toCore →
    z.Slotted → (destroyQueue n z).toCore = dropQueue n z.toCore ∧ (destroyQueue n z).Slotted ∧
      (destroyQueue n z).shutdown = true ∧ Pool.Orphaned (destroyQueue n z).toCore := by
  induction n with
  | zero => intro z down orphans slotted; exact ⟨rfl, slotted, down, orphans⟩
  | succ n ih =>
    intro z down orphans slotted
    unfold destroyQueue
    split
    · rename_i empty
      refine ⟨?_, slotted, down, orphans⟩
      unfold dropQueue
      rw [empty]
    · rename_i t rest queue
      have core := dropUnrun_core down orphans t
      have next := @ih (z.dropUnrun t) (by rw [core, Pool.drop_shutdown]; exact down)
        (by rw [core]; exact orphans.drop t) (slotted.dropUnrun t)
      rw [core] at next
      unfold dropQueue
      rw [queue]
      exact next

theorem destroyFifo_core (l : List TaskId) : ∀ {z : ZPool}, z.shutdown = true →
    Pool.Orphaned z.toCore → z.Slotted → (z.destroyFifo l).toCore = z.toCore.dropAll l ∧
      (z.destroyFifo l).Slotted ∧ (z.destroyFifo l).shutdown = true ∧
      Pool.Orphaned (z.destroyFifo l).toCore := by
  induction l with
  | nil => intro z down orphans slotted; exact ⟨rfl, slotted, down, orphans⟩
  | cons t rest ih =>
    intro z down orphans slotted
    have core := dropUnrun_core down orphans t
    have next := @ih (z.dropUnrun t) (by rw [core, Pool.drop_shutdown]; exact down)
      (by rw [core]; exact orphans.drop t) (slotted.dropUnrun t)
    rw [core] at next
    exact next

theorem destroyFifos_core (l : List SockId) : ∀ {z : ZPool}, z.shutdown = true →
    Pool.Orphaned z.toCore → z.Slotted → (z.destroyFifos l).toCore = z.toCore.dropFifos l ∧
      (z.destroyFifos l).Slotted := by
  induction l with
  | nil => intro z _ _ slotted; exact ⟨rfl, slotted⟩
  | cons s rest ih =>
    intro z down orphans slotted
    obtain ⟨core, slotted', down', orphans'⟩ := destroyFifo_core (z.unsent s) down orphans slotted
    obtain ⟨core', slotted''⟩ := ih down' orphans' slotted'
    refine ⟨?_, slotted''⟩
    change ((z.destroyFifo (z.unsent s)).destroyFifos rest).toCore = _
    rw [core', core]
    rfl

/-- What the workers run is flagged and kicked, and nothing else changes. -/
theorem kickCurrent_spec (l : List WorkerId) : ∀ z : ZPool,
    Moves o z.rest (z.kickCurrent l).rest ∧ Prodded z.toCore (z.kickCurrent l).toCore ∧
      z.kickCurrent l = { z with toCore := (z.kickCurrent l).toCore } := by
  induction l with
  | nil => intro z; exact ⟨.refl _, .refl _, rfl⟩
  | cons w rest ih =>
    intro z
    unfold kickCurrent
    split
    · rename_i c _
      split
      · obtain ⟨moves, prodded, same⟩ := ih (z.on (kick · c))
        exact ⟨(kick_moves z.toCore c _ _).trans moves, (prodded_kick _ _).trans prodded, same⟩
      · exact ih z
    · exact ih z

/-- A broadcast wakes the workers that wait, and nothing else changes. -/
theorem broadcast_stirred (z : ZPool) : Stirred z.toCore z.broadcast.toCore := by
  have asleep : ∀ w, z.isAsleep w = true → (z.worker w).pc.task? = none := fun w asleep => by
    simp only [isAsleep, Bool.and_eq_true, decide_eq_true_eq] at asleep
    rw [asleep.2]
    rfl
  constructor
  case rest => rfl
  case grown => exact Nat.le_refl _
  case runs =>
    intro w t
    cases sleeps : z.isAsleep w with
    | true => simp [Runs, broadcast, sleeps, asleep w sleeps]
    | false => simp [Runs, broadcast, sleeps]
  case pcs =>
    intro w t phase
    cases sleeps : z.isAsleep w with
    | true =>
      have other : (z.worker w).pc ≠ .running t phase := fun running => by
        have free := asleep w sleeps
        rw [running] at free
        cases free
      simp [At, broadcast, sleeps, other]
    | false => simp [At, broadcast, sleeps]

/-- The state in which `impl_destroy` looks at the workers: it has emptied the queue and the FIFOs. -/
def swept (z : ZPool) : ZPool :=
  let z := { z with shutdown := true }
  let z := destroyQueue z.queue.length z
  z.destroyFifos z.socks

theorem implDestroy_eq (z : ZPool) : z.implDestroy =
    { (z.swept.kickCurrent (List.range z.swept.nworker)).broadcast with user := .destroying } := rfl

/-- The two sweeps of `impl_destroy` are those of the desktop pool. -/
theorem swept_spec (sound : Sound z.rest) (slotted : z.Slotted) :
    z.swept.toCore = z.tearDown ∧ z.swept.Slotted := by
  let y : ZPool := { z with shutdown := true }
  let y₁ := destroyQueue z.queue.length y
  obtain ⟨queued, slotted₁, down₁, orphans₁⟩ := destroyQueue_core z.queue.length (z := y) rfl
    (Pool.orphaned (p := z.desktop none) sound)
    (slotted.fewer (Nat.le_refl _) (fun _ _ _ => id) fun _ _ _ _ _ => ⟨rfl, rfl, rfl⟩)
  obtain ⟨swept₁, slotted₂⟩ := destroyFifos_core y₁.socks down₁ orphans₁ slotted₁
  have socks : y₁.socks = z.socks := by
    obtain ⟨_, swept', _⟩ := dropQueue_spec (o := fun _ _ => True) z.queue.length
      (sound.move (o := fun _ _ => True) (.shutdown)) (Nat.le_refl _) (fun _ _ => trivial)
    change (destroyQueue z.queue.length y).socks = z.socks
    rw [queued, swept'.rest]
  refine ⟨?_, slotted₂⟩
  change (y₁.destroyFifos y₁.socks).toCore = _
  rw [swept₁, socks, queued]
  rfl

/-- `impl_destroy`, the critical section: it sweeps, kicks what runs, and wakes every worker. -/
theorem implDestroy_spec (sound : Sound z.rest) (slotted : z.Slotted)
    (allowed : ∀ t, t ∈ z.queue → o (z.task t).kind rCanceled) (write : ∀ res, o .opSockWrite res) :
    Moves o z.rest z.tearDown.rest ∧ Moves o z.tearDown.rest z.implDestroy.rest ∧
      Prodded z.tearDown z.implDestroy.toCore ∧ z.implDestroy.WoundDown ∧ z.implDestroy.Slotted := by
  obtain ⟨moves, _, down⟩ := tearDown_spec (o := o) sound allowed write
  obtain ⟨core, slotted₂⟩ := swept_spec sound slotted
  obtain ⟨kicks, prodded, same⟩ := kickCurrent_spec (o := o) (List.range z.swept.nworker) z.swept
  let y := z.swept.kickCurrent (List.range z.swept.nworker)
  have stirred : Stirred y.toCore z.implDestroy.toCore := broadcast_stirred y
  have woken : Prodded y.toCore z.implDestroy.toCore := ⟨rfl, fun _ => rfl⟩
  have whole : Prodded z.tearDown z.implDestroy.toCore := core ▸ prodded.trans woken
  refine ⟨moves, ?_, whole, whole.down down, slotted₂.prodded (prodded.trans woken) fun k s => ?_⟩
  · have swept : Moves o z.swept.rest z.implDestroy.rest := kicks.snoc (.stir stirred)
    unfold Core.rest at swept ⊢
    rw [core] at swept
    exact swept
  · change (z.swept.kickCurrent (List.range z.swept.nworker)).slot k s = z.swept.slot k s
    rw [same]
    rfl

end ZPool

end Myio
