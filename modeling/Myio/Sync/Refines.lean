import Myio.Pool.Dispatch
import Myio.Sync.Under

/-! The pool gives every joined operation the result the synchronous backend gives it. -/

namespace Myio

open Core

namespace Pool

variable {o : Outcome} {sends sends' : List SendOs} {p p' : Pool} {t u : TaskId} {w : WorkerId}
  {act : Act} {k : Task}

/-! ### What no worker touches -/

/-- The tasks there are, and the system. -/
def Frame (p p' : Pool) : Prop := p'.ntask = p.ntask ∧ p'.os = p.os

theorem Frame.trans {p'' : Pool} (first : Frame p p') (second : Frame p' p'') : Frame p p'' :=
  ⟨second.1.trans first.1, second.2.trans first.2⟩

theorem dispatchLocked_quiet (p : Pool) (t : TaskId) :
    Quiet p (p.dispatchLocked t).1 ∧ (p.dispatchLocked t).1.ntask = p.ntask := by
  unfold dispatchLocked spawnThread
  dsimp only
  split
  · exact ⟨rfl, rfl⟩
  · by_cases created : (p.on (·.queuePush t)).os.create (p.on (·.queuePush t)).tick = true
    · rw [if_pos created]; exact ⟨rfl, rfl⟩
    · rw [if_neg created]
      refine ⟨rfl, ?_⟩
      change ((p.queuePush t).queueRemove t).ntask = p.ntask
      rw [queueRemove_rest]
      rfl

theorem dispatchLocked_frame (p : Pool) (t : TaskId) : Frame p (p.dispatchLocked t).1 := by
  obtain ⟨quiet, ntask⟩ := dispatchLocked_quiet p t
  exact ⟨ntask, by rw [quiet]⟩

theorem promote_frame (s : SockId) (l : List TaskId) : ∀ p : Pool, Frame p (promote p s l) := by
  induction l with
  | nil => exact fun p => ⟨rfl, rfl⟩
  | cons n rest ih =>
    intro p
    have same := dispatchLocked_frame p n
    unfold promote
    rcases dispatched : p.dispatchLocked n with ⟨q, _ | _⟩ <;> rw [dispatched] at same
    · have failed : Frame q (q.on (failHead · s n)) := ⟨by rw [on_toCore, failHead_eq]; rfl, rfl⟩
      exact (same.trans failed).trans (ih _)
    · exact same

theorem leave_frame (p : Pool) (t : TaskId) : Frame p (p.leave t) := by
  have left : Frame p (p.on (·.leaveSock t)) := ⟨by rw [on_toCore, leaveSock_rest], rfl⟩
  rw [leave_eq]
  split
  · unfold handOn
    split
    · exact left
    · exact left.trans (promote_frame _ _ _)
  · exact left

theorem workerCommit_frame (p : Pool) (w : WorkerId) (t : TaskId) (res : Result) (newfd : Option Fd)
    (linked : Bool) : Frame p (p.workerCommit w t res newfd linked) := by
  have wrapped : Frame p ((p.on (·.setPc w .ready)).wrapWon res newfd linked).1 := by
    unfold wrapWon
    split
    · exact ⟨rfl, rfl⟩
    · split <;> exact ⟨rfl, rfl⟩
  have dropped : ∀ (q : Pool) (res : Result), Frame q (q.dropWon res) := by
    intro q res
    unfold dropWon
    split <;> exact ⟨rfl, rfl⟩
  have settled : ∀ (q : Pool) (res : Result), Frame q (q.settleSock t res).1 := by
    intro q res
    rw [settleSock_eq]
    split
    · split
      · exact (leave_frame q t).trans (dropped (q.leave t) res)
      · exact leave_frame q t
    · exact ⟨rfl, rfl⟩
  have completed : ∀ (q : Pool) (res : Result), Frame q (q.complete t res) := by
    intro q res
    unfold complete reapIfDetached reap
    refine ⟨?_, rfl⟩
    dsimp only [Pool.on]
    split
    · split <;> rfl
    · rfl
  exact (wrapped.trans (settled _ _)).trans (completed _ _)

/-- A worker makes no task, and does not change the system. -/
theorem workerStep_frame (taken : p.workerStep w act = some p') : Frame p p' := by
  have main : ∀ (q : Pool) timedout, Frame q (q.workerMain w timedout) := by
    intro q timedout
    unfold workerMain
    split
    · exact ⟨rfl, rfl⟩
    · split <;> exact ⟨rfl, rfl⟩
  unfold Pool.workerStep at taken
  split at taken
  · cases taken
  · split at taken
    · cases taken; exact ⟨rfl, rfl⟩
    · cases taken; exact main p false
    · cases taken
      rename_i timedout _
      exact main { p with idle := p.idle - 1 } timedout
    · rename_i t phase pc
      rcases runStep_cases pc taken with ⟨same, works⟩ | ⟨res, newfd, linked, _, rfl⟩ | ⟨_, rfl⟩
      · exact ⟨by rw [works.rest], by rw [same]⟩
      · exact workerCommit_frame p w t res newfd linked
      · unfold complete reapIfDetached reap
        refine ⟨?_, rfl⟩
        dsimp only [Pool.on]
        split
        · split <;> rfl
        · rfl
    · cases taken

/-! ### The operation under way -/

/-- Any move of any worker. -/
theorem Under.workerStep (under : p.Under o sends t) (good : p.Good) (up : p.shutdown = false)
    (answered : Joined.answer o sends (Joined.kindAt p w) act = some sends')
    (taken : p.workerStep w act = some p') (later : Later p.toCore p'.toCore) :
    p'.Under o sends' t := by
  have ntask := (workerStep_frame taken).1
  have sound := good.sound
  unfold Pool.workerStep at taken
  split at taken
  · cases taken
  rename_i inside
  split at taken
  · -- The worker is asleep, and wakes on its own.
    rename_i timedout asleep
    obtain rfl : sends = sends' := Option.some.inj answered
    obtain rfl := Option.some.inj taken
    refine under.later later rfl rfl fun isOpen => ?_
    refine (under.busy isOpen).same rfl (fun _ => rfl) fun v phase there => ?_
    obtain ⟨less, pc⟩ := there
    refine ⟨less, ?_⟩
    simp only [Pool.on, setPc, modWorker, Function.update_apply] at pc
    split at pc
    · cases pc
    · exact pc
  · obtain rfl : sends = sends' := Option.some.inj answered
    obtain rfl := Option.some.inj taken
    exact under.main sound rfl later
  · obtain rfl : sends = sends' := Option.some.inj answered
    obtain rfl := Option.some.inj taken
    exact under.main sound rfl later
  · rename_i u phase pc
    have isAt : p.At w u phase := ⟨Nat.lt_of_not_le inside, pc⟩
    obtain ⟨rfl, -⟩ := under.mine sound isAt.runs
    have kind : Joined.kindAt p w = (p.task u).kind := by unfold Joined.kindAt; rw [pc]
    rw [kind] at answered
    exact under.runStep sound up isAt answered taken later ntask
  · cases taken

/-- Every completion the user thread has not seen is that of a task. -/
theorem Under.tally (under : p.Under o sends t) (good : p.Good) (taken : p.workerStep w act = some p') :
    p'.unseen + (if (p'.task t).done then 0 else 1) = p.unseen + (if (p.task t).done then 0 else 1) := by
  rcases workerStep_ledger taken with ⟨same, done⟩ | ⟨-, -, counted⟩
  · have unseen : p'.unseen = p.unseen := congrArg (·.2.2) same
    rw [done t, unseen]
  · -- What counts is the commit of the operation under way.
    have main : ∀ (q : Pool) timedout, (q.workerMain w timedout).unseen = q.unseen := by
      intro q timedout
      unfold workerMain
      split
      · rfl
      · split <;> rfl
    unfold Pool.workerStep at taken
    split at taken
    · cases taken
    rename_i inside
    split at taken
    · obtain rfl := Option.some.inj taken
      exact absurd counted (Nat.ne_of_lt (Nat.lt_succ_self p.unseen))
    · obtain rfl := Option.some.inj taken
      rw [main] at counted
      exact absurd counted (Nat.ne_of_lt (Nat.lt_succ_self p.unseen))
    · obtain rfl := Option.some.inj taken
      rw [main] at counted
      exact absurd counted (Nat.ne_of_lt (Nat.lt_succ_self p.unseen))
    · rename_i u phase pc
      have runs : p.Runs w u := ⟨Nat.lt_of_not_le inside, by rw [pc]; rfl⟩
      obtain ⟨rfl, isOpen⟩ := under.mine good.sound runs
      have ended : (p'.task u).done = true := by
        rcases runStep_cases pc taken with ⟨same, -⟩ | ⟨res, newfd, linked, -, rfl⟩ | ⟨-, rfl⟩
        · rw [same] at counted
          exact absurd counted (Nat.ne_of_lt (Nat.lt_succ_self p.unseen))
        · exact (complete_task _ u _).1
        · exact (complete_task _ u _).1
      rw [counted, ended, isOpen]
      rfl
    · cases taken

/-- The new task is the last one, and everything else is as it was. -/
structure Submitted (p p' : Pool) (k : Task) : Prop where
  task : p'.task = Function.update p.task p.ntask k
  ntask : p'.ntask = p.ntask + 1
  closing : ∀ s, (p'.sock s).closing = (p.sock s).closing
  os : p'.os = p.os
  user : p'.user = p.user
  unseen : p'.unseen = p.unseen

/-- With threads to spare, a submission leaves the new task with the pool. -/
theorem submit_submitted (create : ∀ n, p.os.create n = true) (k : Task) :
    Submitted p (p.submit k) k := by
  have modSock : ∀ {q : Pool} (s : SockId) (f : Sock → Sock), (∀ k, (f k).closing = k.closing) →
      Submitted p q k → Submitted p (q.on (·.modSock s f)) k := by
    intro q s f same sub
    refine ⟨sub.task, sub.ntask, fun u => ?_, sub.os, sub.user, sub.unseen⟩
    simp only [Pool.on, Core.modSock, Function.update_apply]
    split
    · rename_i isS; rw [isS, same]; exact sub.closing s
    · exact sub.closing u
  have dispatch : ∀ {q : Pool} (t : TaskId), Submitted p q k →
      (q.dispatchLocked t).2 = true ∧ Submitted p (q.dispatchLocked t).1 k := by
    intro q t sub
    have secure : q.securable = true := by
      unfold securable
      rw [sub.os, create, Bool.or_true]
    obtain ⟨okay, -, -, task, sock⟩ := dispatchLocked_secured (t := t) secure
    obtain ⟨quiet, ntask⟩ := dispatchLocked_quiet q t
    refine ⟨okay, task.trans sub.task, ntask.trans sub.ntask, fun s => ?_, ?_, ?_, ?_⟩
    · rw [show (q.dispatchLocked t).1.sock = q.sock from sock]; exact sub.closing s
    · rw [quiet]; exact sub.os
    · rw [quiet]; exact sub.user
    · rw [quiet]; exact sub.unseen
  have made : Submitted p (p.on (·.taskNew k)) k := ⟨rfl, rfl, fun _ => rfl, rfl, rfl, rfl⟩
  unfold submit
  dsimp only
  -- The task is counted on its socket, put in the FIFO, and dispatched unless it has to wait there.
  generalize isCounted : (if opOnSock k.kind = true then
    (p.on (·.taskNew k)).on (·.inflightInc ((p.on (·.taskNew k)).sockOf p.ntask))
    else p.on (·.taskNew k)) = counted
  have inc : Submitted p counted k := by
    rw [← isCounted]
    split
    · exact modSock _ _ (fun _ => rfl) made
    · exact made
  generalize isQueued : (if k.kind = .opSockWrite then counted.on (·.modSock (counted.sockOf p.ntask)
    fun q => { q with wq := (wqPush q.wq p.ntask).1 }) else counted) = queued
  have push : Submitted p queued k := by
    rw [← isQueued]
    split
    · exact modSock _ _ (fun _ => rfl) inc
    · exact inc
  split
  · exact push
  · obtain ⟨okay, sub⟩ := dispatch p.ntask push
    split
    · rename_i q isEnd; rw [isEnd] at sub; exact sub
    · rename_i q isEnd; rw [isEnd] at okay; cases okay

/-- No operation is under way. -/
def Resting (p : Pool) : Prop := ∀ t, t < p.ntask → (p.task t).done = true

/-- A submission made while nothing is under way. -/
theorem Submitted.under (sub : Submitted p p' k) (sound : Sound p'.rest) (resting : p.Resting)
    (isOpen : k.done = false) (started : k.started = false) (cancelReq : k.cancelReq = false)
    (kind : k.kind ≠ .opSockClose) (open_ : ∀ s, k.sock = some s → (p.sock s).closing = false) :
    p'.Under o o.sends p.ntask := by
  have task : p'.task p.ntask = k := by rw [sub.task, Function.update_self]
  constructor
  case last => exact sub.ntask.symm
  case others =>
    intro u less
    rw [sub.task, Function.update_of_ne (Nat.ne_of_lt less)]
    exact resting u less
  case ended =>
    intro done
    rw [task, isOpen] at done
    cases done
  case busy =>
    intro _
    constructor
    case kind => rw [task]; exact kind
    case cancelReq => rw [task]; exact cancelReq
    case open_ => intro s; rw [task, sub.closing]; exact open_ s
    case unsent => exact fun _ => rfl
    case fits =>
      -- No worker has taken it yet.
      intro w phase there
      have begun : (p'.task p.ntask).started = true := (sound.placed.run_pending w _ there.runs).2
      rw [task, started] at begun
      cases begun

/-- A close while nothing is under way happens inside the call, and nobody looks at `close(2)`. -/
theorem implSockClose_under {s : SockId} (sound : Sound p.rest) (resting : p.Resting)
    (live : s ∈ p.socks) :
    (p.implSockClose s).Under o o.sends p.ntask ∧ (p.implSockClose s).ntask = p.ntask + 1 ∧
      (p.implSockClose s).os = p.os ∧ (p.implSockClose s).user = p.user ∧
      (p.implSockClose s).unseen = p.unseen ∧
      ((p.implSockClose s).task p.ntask).kind = .opSockClose ∧
      ((p.implSockClose s).task p.ntask).buf = [] ∧
      ((p.implSockClose s).task p.ntask).done = true := by
  have none_ : (p.sock s).inflight = 0 := by
    rw [show (p.sock s).inflight = _ from sound.counted.inflight s live]
    refine Machine.count_eq_zero.mpr fun t less onSock => ?_
    have isOpen := onSock.1.2.1
    rw [show (p.rest.core.task t).done = true from resting t less] at isOpen
    cases isOpen
  unfold implSockClose
  dsimp only
  rw [if_pos (by simp [Pool.on, Core.taskNew, Core.modSock, none_])]
  have task : ∀ u, ((((p.on (·.taskNew { kind := .opSockClose, sock := some s })).on
      (·.modSock s ({ · with closing := true }))).on (·.sockDiscard s)).on
      (·.finish p.ntask (rOk 0 none))).task u = if u = p.ntask then
        { kind := .opSockClose, sock := some s, res := rOk 0 none, done := true, dones := 1 }
        else p.task u := by
    intro u
    simp only [Pool.on, finish, modTask, sockDiscard, sockFree, closeDesc, modDesc, sockUnlink,
      Core.modSock, Core.taskNew, Function.update_apply]
    split
    · rfl
    · rfl
  refine ⟨⟨rfl, fun u less => ?_, fun _ => ?_, fun isOpen => ?_⟩, rfl, rfl, rfl, rfl, ?_, ?_, ?_⟩
  · rw [task, if_neg (Nat.ne_of_lt less)]; exact resting u less
  · rw [task, if_pos rfl]; rfl
  · rw [task, if_pos rfl] at isOpen; cases isOpen
  all_goals rw [task, if_pos rfl]

/-- While nothing is under way a worker only wakes, sleeps or retires. -/
theorem Resting.workerStep (resting : p.Resting) (good : p.Good) (taken : p.workerStep w act = some p')
    (later : Later p.toCore p'.toCore) : p'.Resting ∧ p'.unseen = p.unseen := by
  have ntask := (workerStep_frame taken).1
  refine ⟨fun t inside => ?_, ?_⟩
  · rw [ntask] at inside
    exact (later.done t inside (resting t inside)).1
  · unfold Pool.workerStep at taken
    split at taken
    · cases taken
    rename_i below
    split at taken
    · cases taken; rfl
    · cases taken; unfold workerMain; split; (· rfl); (split <;> rfl)
    · cases taken; unfold workerMain; split; (· rfl); (split <;> rfl)
    · rename_i u phase pc
      have runs : p.Runs w u := ⟨Nat.lt_of_not_le below, by rw [pc]; rfl⟩
      obtain ⟨⟨inside, isOpen, -⟩, -⟩ := good.sound.placed.run_pending w u runs
      rw [show (p.rest.core.task u).done = true from resting u inside] at isOpen
      cases isOpen
    · cases taken

end Pool

end Myio
