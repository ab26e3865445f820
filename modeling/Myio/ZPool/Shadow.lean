import Myio.Pool.Calls
import Myio.ZPool.Code

/-!
The Zephyr pool does what the desktop pool does when a worker can always be secured.

A desktop pool shadows a Zephyr pool when it has the same shared part, counts enough idle workers,
and wakes the same worker at the next signal.
-/

namespace Myio

open Function (update)
open Core

namespace ZPool

variable {z z' : ZPool} {p : Pool} {t : TaskId} {s : SockId} {w : WorkerId}

@[simp] theorem on_toCore (z : ZPool) (f : Core → Core) : (z.on f).toCore = f z.toCore := rfl

/-- A desktop pool in the place of a Zephyr pool. -/
structure Shadow (z : ZPool) (p : Pool) : Prop where
  core : p.toCore = z.toCore
  idle : z.nqueued < p.idle
  wakes : ∀ w, p.os.wakes p.tick w = decide (z.signalled = some w)

/-- The desktop pool that shadows a Zephyr pool until its next signal, which wakes `choice`. -/
def desktop (z : ZPool) (choice : Option WorkerId) : Pool :=
  { Pool.new { create := fun _ => true, wakes := fun _ w => decide (choice = some w) } with
    toCore := z.toCore, idle := z.nqueued + 1, user := z.user
    completions := z.completions, compSeen := z.compSeen }

@[simp] theorem desktop_toCore (z : ZPool) (choice : Option WorkerId) :
    (z.desktop choice).toCore = z.toCore := rfl

theorem shadow_desktop (z : ZPool) : Shadow z (z.desktop z.signalled) :=
  ⟨rfl, Nat.lt_succ_self _, fun _ => rfl⟩

/-- Whom a signal wakes depends on the workers alone. -/
theorem signalled_congr (pick : z'.pick = z.pick) (tick : z'.tick = z.tick)
    (nworker : z'.nworker = z.nworker) (asleep : ∀ w, z'.isAsleep w = z.isAsleep w) :
    z'.signalled = z.signalled := by
  have same : z'.isAsleep = z.isAsleep := funext asleep
  unfold signalled
  rw [pick, tick, nworker, same]

/-- Shared code that moves no worker and queues nothing keeps the shadow. -/
theorem Shadow.on (shadow : Shadow z p) (f : Core → Core) (nworker : (f z.toCore).nworker = z.nworker)
    (worker : (f z.toCore).worker = z.worker) (nqueued : (f z.toCore).nqueued ≤ z.nqueued) :
    Shadow (z.on f) (p.on f) := by
  refine ⟨?_, Nat.lt_of_le_of_lt nqueued shadow.idle, fun w => ?_⟩
  · change f p.toCore = f z.toCore
    rw [shadow.core]
  · have asleep : ∀ v, (z.on f).isAsleep v = z.isAsleep v := fun v => by
      unfold isAsleep
      rw [on_toCore, nworker, worker]
    have same : (z.on f).signalled = z.signalled := signalled_congr rfl rfl nworker asleep
    rw [same]
    exact shadow.wakes w

/-- The slots have no part in it. -/
theorem Shadow.slots (shadow : Shadow z p) (core : z'.toCore = z.toCore) (pick : z'.pick = z.pick)
    (tick : z'.tick = z.tick) : Shadow z' p := by
  refine ⟨shadow.core.trans core.symm, by rw [core]; exact shadow.idle, fun w => ?_⟩
  have same : z'.signalled = z.signalled :=
    signalled_congr pick tick (by rw [core]) fun v => by unfold isAsleep; rw [core]
  rw [same]
  exact shadow.wakes w

theorem sockSlotsClear_core (z : ZPool) (t : TaskId) : (z.sockSlotsClear t).toCore = z.toCore := by
  unfold sockSlotsClear
  dsimp only
  repeat' split
  all_goals rfl

/-- Clearing slots touches nothing but the slots. -/
theorem sockSlotsClear_rest (z : ZPool) (t : TaskId) :
    z.sockSlotsClear t = { z with
      readTask := (z.sockSlotsClear t).readTask, acceptTask := (z.sockSlotsClear t).acceptTask } := by
  unfold sockSlotsClear
  dsimp only
  repeat' split
  all_goals rfl

theorem Shadow.sockSlotsClear (shadow : Shadow z p) (t : TaskId) : Shadow (z.sockSlotsClear t) p :=
  shadow.slots (sockSlotsClear_core z t) (by rw [sockSlotsClear_rest]) (by rw [sockSlotsClear_rest])

/-! ### Signals -/

/-- The waiter a signal wakes is one. -/
theorem asleep_of_signalled (chosen : z.signalled = some w) : z.isAsleep w = true := by
  unfold signalled at chosen
  rcases Option.or_eq_some_iff.mp chosen with found | ⟨_, found⟩
  · have := List.find?_some found
    simp only [Bool.and_eq_true] at this
    exact this.1
  · exact List.find?_some found

/-- With nobody to wake, nobody is asleep. -/
theorem awake_of_unsignalled (none : z.signalled = none) (inside : w < z.nworker) :
    z.isAsleep w = false := by
  unfold signalled at none
  have missing := (Option.or_eq_none_iff.mp none).2
  have := List.find?_eq_none.mp missing w (List.mem_range.mpr inside)
  simpa using this

/-- The two pools wake the same worker. -/
theorem Shadow.signalled (shadow : Shadow z p) (w : WorkerId) :
    p.signalled w = decide (z.signalled = some w) := by
  have asleep : p.isAsleep = z.isAsleep := funext fun v => by
    unfold Pool.isAsleep isAsleep
    rw [shadow.core]
  have outside : ∀ v, ¬ v < z.nworker → z.isAsleep v = false := fun v outside => by
    simp [isAsleep, outside]
  unfold Pool.signalled
  rw [asleep]
  simp only [shadow.wakes]
  have nworker : p.nworker = z.nworker := by rw [shadow.core]
  rw [nworker]
  cases chosen : z.signalled with
  | some v =>
    have sleeps := asleep_of_signalled chosen
    have inside : v < z.nworker := by
      by_contra out
      rw [outside v out] at sleeps
      cases sleeps
    have picked : (List.range z.nworker).any
        (fun u => z.isAsleep u && decide (some v = some u)) = true :=
      List.any_eq_true.mpr ⟨v, List.mem_range.mpr inside, by simp [sleeps]⟩
    rw [if_pos picked]
    by_cases same : v = w
    · subst same; simp [sleeps]
    · simp [same]
  | none =>
    have noPick : ¬ (List.range z.nworker).any
        (fun u => z.isAsleep u && decide ((none : Option WorkerId) = some u)) = true := by simp
    rw [if_neg noPick]
    have missing : (List.range z.nworker).find? z.isAsleep = none :=
      List.find?_eq_none.mpr fun v there => by
        rw [awake_of_unsignalled chosen (List.mem_range.mp there)]
        simp
    rw [missing]

/-- A signal does the same in both. -/
theorem Shadow.condSignal (shadow : Shadow z p) : p.condSignal.toCore = z.condSignal.toCore := by
  let woken := fun w => if p.signalled w then { z.worker w with pc := .woken false } else z.worker w
  have workers : p.condSignal.toCore = { z.toCore with worker := woken } := by
    unfold Pool.condSignal Pool.wakeAll
    rw [shadow.core]
  rw [workers]
  simp only [woken, shadow.signalled]
  unfold ZPool.condSignal
  cases chosen : z.signalled with
  | none => simp
  | some v =>
    simp only [setPc, modWorker]
    congr 1
    funext w
    by_cases same : w = v
    · subst same; simp
    · have other : ¬ v = w := fun eq => same eq.symm
      simp [same, other]

/-- A dispatch in the shadow secures a worker, and queues the task as the Zephyr pool does. -/
theorem Shadow.dispatch (shadow : Shadow z p) (t : TaskId) :
    ∃ q, p.dispatchLocked t = (q, true) ∧ q.toCore = (z.enqueue t).toCore := by
  have enough : (p.on (·.queuePush t)).nqueued ≤ (p.on (·.queuePush t)).idle := by
    have : p.nqueued = z.nqueued := by rw [shadow.core]
    change p.nqueued + 1 ≤ p.idle
    rw [this]
    exact shadow.idle
  have pushed : (p.on (·.queuePush t)).condSignal.toCore = (z.enqueue t).toCore := by
    have wakes : ∀ w, (p.on (·.queuePush t)).os.wakes (p.on (·.queuePush t)).tick w =
        decide ((z.on (·.queuePush t)).signalled = some w) := shadow.wakes
    have workers : Shadow (z.on (·.queuePush t)) { p.on (·.queuePush t) with idle := z.nqueued + 2 } :=
      ⟨by change p.queuePush t = z.queuePush t; rw [shadow.core], Nat.lt_succ_self _, wakes⟩
    exact workers.condSignal
  refine ⟨(p.on (·.queuePush t)).condSignal, ?_, pushed⟩
  unfold Pool.dispatchLocked
  dsimp only
  rw [if_pos enough]

/-! ### The shared functions -/

theorem Shadow.writeAdvance (shadow : Shadow z p) (t : TaskId) :
    (p.writeAdvance t).toCore = (z.writeAdvance t).toCore := by
  have sockOf : p.sockOf t = z.sockOf t := by rw [shadow.core]
  have sock : p.sock = z.sock := by rw [shadow.core]
  unfold Pool.writeAdvance ZPool.writeAdvance
  dsimp only
  rw [sockOf, sock]
  split
  · exact (shadow.on (·.modSock (z.sockOf t) fun k => { k with wq := wqRemove k.wq t }) rfl rfl
      (Nat.le_refl _)).core
  · have popped := shadow.on (·.modSock (z.sockOf t) fun k => { k with wq := (wqPop k.wq).1 }) rfl rfl
      (Nat.le_refl _)
    have left : ((z.on (·.modSock (z.sockOf t) fun k => { k with wq := (wqPop k.wq).1 })).sock
        (z.sockOf t)).wq = (z.sock (z.sockOf t)).wq.tail := by simp [modSock, wqPop]
    have left' : ((p.on (·.modSock (z.sockOf t) fun k => { k with wq := (wqPop k.wq).1 })).sock
        (z.sockOf t)).wq = (z.sock (z.sockOf t)).wq.tail := by rw [popped.core, left]
    have down : (p.on (·.modSock (z.sockOf t) fun k => { k with wq := (wqPop k.wq).1 })).shutdown =
        z.shutdown := by rw [popped.core]; rfl
    rw [left', down]
    have next : (wqPop (z.sock (z.sockOf t)).wq).2 = (z.sock (z.sockOf t)).wq.tail.head? := rfl
    have down' : (z.on (·.modSock (z.sockOf t) fun k => { k with wq := (wqPop k.wq).1 })).shutdown =
        z.shutdown := rfl
    rw [next, down']
    generalize (z.sock (z.sockOf t)).wq.tail = rest
    cases rest with
    | nil =>
      simp only [List.head?_nil, Pool.promote]
      split <;> exact popped.core
    | cons n rest =>
      simp only [List.head?_cons]
      split
      · exact popped.core
      · obtain ⟨q, dispatched, core⟩ := popped.dispatch n
        unfold Pool.promote
        rw [dispatched]
        exact core

/-- The part of a task's end that settles accounts with its socket. -/
def leave (z : ZPool) (t : TaskId) : ZPool :=
  let z := if opOnSock (z.task t).kind
    then (z.on (·.inflightDec (z.sockOf t))).sockSlotsClear t else z
  if (z.task t).kind = .opSockWrite then z.writeAdvance t else z

theorem Shadow.leave (shadow : Shadow z p) (t : TaskId) :
    (p.leave t).toCore = (z.leave t).toCore := by
  have task : p.task = z.task := by rw [shadow.core]
  have sockOf : p.sockOf t = z.sockOf t := by rw [shadow.core]
  have counted : Shadow
      (if opOnSock (z.task t).kind then (z.on (·.inflightDec (z.sockOf t))).sockSlotsClear t else z)
      (if opOnSock (z.task t).kind then p.on (·.inflightDec (z.sockOf t)) else p) := by
    split
    · exact (shadow.on (·.inflightDec (z.sockOf t)) rfl rfl (Nat.le_refl _)).sockSlotsClear t
    · exact shadow
  unfold Pool.leave ZPool.leave
  dsimp only
  rw [task, sockOf]
  generalize (if opOnSock (z.task t).kind then p.on (·.inflightDec (z.sockOf t)) else p) = q at counted ⊢
  generalize (if opOnSock (z.task t).kind then (z.on (·.inflightDec (z.sockOf t))).sockSlotsClear t
    else z) = y at counted ⊢
  have kind : q.task t = y.task t := by rw [counted.core]
  rw [kind]
  by_cases write : (y.task t).kind = .opSockWrite
  · rw [if_pos write, if_pos write]; exact counted.writeAdvance t
  · rw [if_neg write, if_neg write]; exact counted.core

theorem completeUnrun_eq (z : ZPool) (t : TaskId) (res : Result) :
    z.completeUnrun t res =
      (((z.on (·.queueRemove t)).leave t).on (·.finish t res)).on (·.reapIfDetached t) := rfl

theorem Shadow.queueRemove (shadow : Shadow z p) (t : TaskId) :
    Shadow (z.on (·.queueRemove t)) (p.on (·.queueRemove t)) :=
  shadow.on _ (by rw [queueRemove_rest]) (by rw [queueRemove_rest])
    (Pool.apart_queueRemove z.toCore t).nqueued

theorem Shadow.completeUnrun (shadow : Shadow z p) (t : TaskId) :
    (p.completeUnrun t).toCore = (z.completeUnrun t rCanceled).toCore := by
  have left := (shadow.queueRemove t).leave t
  change (((p.on (·.queueRemove t)).leave t).finish t rCanceled).reapIfDetached t =
    (((z.on (·.queueRemove t)).leave t).finish t rCanceled).reapIfDetached t
  rw [left]

theorem Shadow.submit (shadow : Shadow z p) (k : Task) :
    (p.submit k).toCore = (z.submit k).toCore := by
  have made := shadow.on (·.taskNew k) rfl rfl (Nat.le_refl _)
  have ntask : p.ntask = z.ntask := by rw [shadow.core]
  have sockOf : (p.on (·.taskNew k)).sockOf z.ntask = (z.on (·.taskNew k)).sockOf z.ntask := by
    rw [made.core]
  have counted : Shadow
      (if opOnSock k.kind then (z.on (·.taskNew k)).on
        (·.inflightInc ((z.on (·.taskNew k)).sockOf z.ntask)) else z.on (·.taskNew k))
      (if opOnSock k.kind then (p.on (·.taskNew k)).on
        (·.inflightInc ((z.on (·.taskNew k)).sockOf z.ntask)) else p.on (·.taskNew k)) := by
    split
    · exact made.on (·.inflightInc _) rfl rfl (Nat.le_refl _)
    · exact made
  unfold Pool.submit ZPool.submit
  dsimp only
  rw [ntask, sockOf]
  generalize (if opOnSock k.kind then (z.on (·.taskNew k)).on
    (·.inflightInc ((z.on (·.taskNew k)).sockOf z.ntask)) else z.on (·.taskNew k)) = y at counted ⊢
  generalize (if opOnSock k.kind then (p.on (·.taskNew k)).on
    (·.inflightInc ((z.on (·.taskNew k)).sockOf z.ntask)) else p.on (·.taskNew k)) = q at counted ⊢
  have sockOf' : q.sockOf z.ntask = y.sockOf z.ntask := by rw [counted.core]
  have wq : q.sock = y.sock := by rw [counted.core]
  rw [sockOf', wq]
  have pushed : Shadow
      (if k.kind = .opSockWrite then y.on (·.modSock (y.sockOf z.ntask) fun q =>
        { q with wq := (wqPush q.wq z.ntask).1 }) else y)
      (if k.kind = .opSockWrite then q.on (·.modSock (y.sockOf z.ntask) fun q =>
        { q with wq := (wqPush q.wq z.ntask).1 }) else q) := by
    split
    · exact counted.on (·.modSock _ _) rfl rfl (Nat.le_refl _)
    · exact counted
  split
  · exact pushed.core
  · obtain ⟨r, dispatched, core⟩ := pushed.dispatch z.ntask
    rw [dispatched]
    exact core

theorem settleSock_eq (z : ZPool) (t : TaskId) (res : Result) :
    z.settleSock t res =
      if opOnSock (z.task t).kind then
        if ((z.leave t).sock (z.sockOf t)).closing then ((z.leave t).dropWon res, rCanceled)
        else (z.leave t, res)
      else (z, res) := by
  unfold settleSock
  split
  · rename_i blocks
    have left : (if (((z.on (·.inflightDec (z.sockOf t))).sockSlotsClear t).task t).kind =
        .opSockWrite then ((z.on (·.inflightDec (z.sockOf t))).sockSlotsClear t).writeAdvance t
        else (z.on (·.inflightDec (z.sockOf t))).sockSlotsClear t) = z.leave t := by
      unfold leave
      simp only [if_pos blocks]
    simp only [left]
  · rfl

theorem Shadow.settleSock (shadow : Shadow z p) (t : TaskId) (res : Result) :
    (p.settleSock t res).1.toCore = (z.settleSock t res).1.toCore ∧
      (p.settleSock t res).2 = (z.settleSock t res).2 := by
  have left := shadow.leave t
  have dropped : ((p.leave t).dropWon res).toCore = ((z.leave t).dropWon res).toCore := by
    unfold Pool.dropWon ZPool.dropWon
    cases res.ptr with
    | some s =>
      change (p.leave t).sockDiscard s = (z.leave t).sockDiscard s
      rw [left]
    | none => exact left
  rw [Pool.settleSock_eq, settleSock_eq, shadow.core, left]
  split
  · split
    · exact ⟨dropped, rfl⟩
    · exact ⟨left, rfl⟩
  · exact ⟨shadow.core, rfl⟩

theorem complete_core (core : p.toCore = z.toCore) (t : TaskId) (res : Result) :
    (p.complete t res).toCore = (z.complete t res).toCore := by
  change ({ p.toCore.finish t res with nrunning := p.nrunning - 1 }).reapIfDetached t =
    ({ z.toCore.finish t res with nrunning := z.nrunning - 1 }).reapIfDetached t
  rw [core]

theorem workerCommit_core (z : ZPool) (w : WorkerId) (t : TaskId) (res : Result)
    (newfd : Option Fd) (linked : Bool) :
    ∃ choice, ((z.desktop choice).workerCommit w t res newfd linked).toCore =
      (z.workerCommit w t res newfd linked).toCore := by
  -- The signal of `write_advance`, if there is one, comes when the worker is done with its task.
  let y := z.on (·.setPc w .ready)
  refine ⟨(y.wrapWon res newfd linked).1.signalled, ?_⟩
  generalize chosen : (y.wrapWon res newfd linked).1.signalled = choice
  have idle : ∀ q : Pool, q.idle = (z.desktop choice).idle → q.os = (z.desktop choice).os →
      (y.wrapWon res newfd linked).1.toCore = q.toCore →
      (y.wrapWon res newfd linked).1.nqueued = z.nqueued →
      Shadow (y.wrapWon res newfd linked).1 q := by
    intro q idle os core nqueued
    refine ⟨core.symm, by rw [nqueued, idle]; exact Nat.lt_succ_self _, fun v => ?_⟩
    rw [os, chosen]
    rfl
  have wrapped : Shadow (y.wrapWon res newfd linked).1
      (((z.desktop choice).on (·.setPc w .ready)).wrapWon res newfd linked).1 ∧
      (((z.desktop choice).on (·.setPc w .ready)).wrapWon res newfd linked).2 =
        (y.wrapWon res newfd linked).2 := by
    cases newfd with
    | none => exact ⟨idle _ rfl rfl rfl rfl, rfl⟩
    | some fd => cases linked <;> exact ⟨idle _ rfl rfl rfl rfl, rfl⟩
  obtain ⟨shadow, same⟩ := wrapped
  unfold Pool.workerCommit ZPool.workerCommit
  dsimp only
  rw [same]
  obtain ⟨core, result⟩ := shadow.settleSock t (y.wrapWon res newfd linked).2
  rw [result]
  exact complete_core core t _

end ZPool

end Myio
