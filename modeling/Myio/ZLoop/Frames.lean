import Myio.ZLoop.Turn

/-! What a step of the Zephyr event loop does to a pending timer, and to a connect and its socket. -/

namespace Myio.Loop

open Function (update)
open Loop.Core

namespace ZIo

variable {c : Core} {z z' : ZIo} {t u : TaskId} {s : SockId} {e : Result}

/-! ### Code that is about other tasks -/

theorem inlineTask_task (old : t < z.ntask) (mem : Bool) :
    (z.inlineTask mem e).task t = z.task t := by
  unfold inlineTask
  split
  · have other : t ≠ z.ntask := Nat.ne_of_lt old
    exact (taskComplete_other other).trans (Function.update_of_ne other _ _)
  · rfl

theorem implOpen_task (old : t < z.ntask) (mem : Bool) (rc : Int) :
    (z.implOpen mem rc).task t = z.task t := by
  unfold implOpen taskNewFailed fsResult
  split
  · exact inlineTask_task old mem
  · dsimp only
    split
    · exact inlineTask_task (z := z.modFile _ _) old mem
    · exact inlineTask_task old mem

theorem implClose_task (old : t < z.ntask) (mem : Bool) (fd rc : Int) :
    (z.implClose mem fd rc).task t = z.task t := by
  unfold implClose taskNewFailed fsResult
  split
  · exact inlineTask_task old mem
  · dsimp only
    split
    · exact inlineTask_task (z := z.modFile _ _) old mem
    · exact inlineTask_task old mem

theorem fileRw_task (old : t < z.ntask) (mem : Bool) (fd : Int) (offset : Option Int) (ans : FileAns) :
    (z.fileRw mem fd offset ans).task t = z.task t := by
  unfold fileRw taskNewFailed fsResult
  split
  · exact inlineTask_task old mem
  · split
    · exact inlineTask_task (z := z.modFile _ _) old mem
    · dsimp only
      split
      · exact inlineTask_task old mem
      · exact inlineTask_task old mem
      · split
        · exact inlineTask_task (z := (z.modFile _ _).modFile _ _) old mem
        · exact inlineTask_task (z := z.modFile _ _) old mem

theorem implSleep_task (old : t < z.ntask) (mem : Bool) (ms : Nat) (uptime : Int) :
    (z.implSleep mem ms uptime).task t = z.task t := by
  unfold implSleep
  split
  · exact Function.update_of_ne (Nat.ne_of_lt old) _ _
  · rfl

theorem implSpawn_task (old : t < z.ntask) (mem : Bool) (ret : Int) :
    (z.implSpawn mem ret).task t = z.task t := by
  unfold implSpawn
  split
  · exact inlineTask_task old mem
  split
  · exact Function.update_of_ne (Nat.ne_of_lt old) _ _
  · rfl

theorem implTcpConnect_task (old : t < z.ntask) (mem : Bool) (ans : ConnectAns) :
    (z.implTcpConnect mem ans).task t = z.task t := by
  have other : t ≠ z.ntask := Nat.ne_of_lt old
  unfold implTcpConnect taskOk taskErr
  split
  · cases ans with
    | connect memSock rc =>
      dsimp only
      split
      · cases rc <;>
          simp [on, give, taskComplete_other other, modTask, taskNew, newDesc, sockNew, sockRelease,
            arm, other]
      · simp [on, give, taskComplete_other other, taskNew, newDesc, closeDesc, modDesc, other]
    | _ =>
      simp [on, give, taskComplete_other other, taskNew, newDesc, closeDesc, modDesc, other]
  · rfl

theorem implTcpListen_task (ans : ListenAns) : (z.implTcpListen ans).task t = z.task t := by
  unfold implTcpListen
  cases ans with
  | listening mem => dsimp only; split <;> rfl
  | _ => rfl

/-- `accept_try` writes the task it is called for only. -/
theorem acceptTry_task (other : t ≠ u) (ans : AcceptAns) :
    (z.acceptTry u ans).1.task t = z.task t := by
  unfold acceptTry taskOk taskErr
  cases ans with
  | again => rfl
  | conn mem => dsimp only [ZIo.on]; split <;> exact taskComplete_other other
  | _ => exact taskComplete_other other

theorem implTcpAccept_task (old : t < z.ntask) (mem : Bool) (ans : AcceptAns) :
    (z.implTcpAccept mem s ans).task t = z.task t := by
  have other : t ≠ z.ntask := Nat.ne_of_lt old
  unfold implTcpAccept taskNewFailed
  split
  · exact inlineTask_task old mem
  split
  · dsimp only
    generalize isNext : (z.on (·.taskNew { kind := .taskAccept, sock := some s })).on
      (·.modSock s ({ · with acceptTask := some z.ntask })) = z₁
    have same : z₁.task t = z.task t := by rw [← isNext]; exact Function.update_of_ne other _ _
    have tried : (z₁.acceptTry z.ntask ans).1.task t = z.task t :=
      (acceptTry_task other ans).trans same
    split
    · rename_i isEnd; rw [isEnd] at tried; exact tried
    · rename_i isEnd; rw [isEnd] at tried; exact tried
  · rfl

/-- `read_try` writes the task it is called for only. -/
theorem readTry_task (other : t ≠ u) (ans : RecvAns) : (readTry c u ans).1.task t = c.task t := by
  unfold readTry taskOk taskErr
  cases ans with
  | again => rfl
  | _ => exact taskComplete_other other

theorem implSockRead_task (old : t < z.ntask) (mem : Bool) (ans : RecvAns) :
    (z.implSockRead mem s ans).task t = z.task t := by
  have other : t ≠ z.ntask := Nat.ne_of_lt old
  unfold implSockRead taskNewFailed
  split
  · exact inlineTask_task old mem
  split
  · dsimp only
    generalize isNext : (z.on (·.taskNew { kind := .taskSockRead, sock := some s })).on
      (·.modSock s ({ · with readTask := some z.ntask })) = z₁
    have same : z₁.task t = z.task t := by rw [← isNext]; exact Function.update_of_ne other _ _
    have tried : (readTry z₁.toCore z.ntask ans).1.task t = z.task t :=
      (readTry_task other ans).trans same
    split
    · rename_i isEnd; rw [isEnd] at tried; exact tried
    · exact same
  · rfl

/-- `write_try` writes the task it is called for only. -/
theorem writeTry_task (other : t ≠ u) (fuel : Nat) :
    ∀ {z : ZIo}, (z.writeTry u fuel).1.task t = z.task t := by
  induction fuel with
  | zero => intro z; rfl
  | succ fuel ih =>
    intro z
    unfold writeTry
    split
    · split
      · rfl
      · rfl
      · exact ih.trans (Function.update_of_ne other _ _)
    · rfl

/-- `write_arm` writes the tasks of the list only. -/
theorem writeArm_task (l : List TaskId) : ∀ {z : ZIo}, t ∉ l → (z.writeArm s l).task t = z.task t := by
  induction l with
  | nil => intro z _; rfl
  | cons u rest ih =>
    intro z outside
    obtain ⟨other, apart⟩ := List.ne_and_not_mem_of_not_mem_cons outside
    have tried : (z.writeTryAll u).1.task t = z.task t := writeTry_task other _
    unfold writeArm
    split
    · rename_i isEnd; rw [isEnd] at tried; exact tried
    · rename_i isEnd
      rw [isEnd] at tried
      exact (ih apart).trans ((taskComplete_other other).trans tried)
    · rename_i isEnd
      rw [isEnd] at tried
      exact (ih apart).trans ((taskComplete_other other).trans tried)

theorem implSockWrite_task (old : t < z.ntask) (mem : Bool) (buf : List UInt8) :
    (z.implSockWrite mem s buf).task t = z.task t := by
  have other : t ≠ z.ntask := Nat.ne_of_lt old
  unfold implSockWrite
  split
  · dsimp only
    split
    · exact (writeArm_task [z.ntask] (by simp [other])).trans (Function.update_of_ne other _ _)
    · exact Function.update_of_ne other _ _
  · rfl

theorem readResult_task : (readResult c u).task t = c.task t := by unfold readResult; split <;> rfl

theorem taskFree_task (other : t ≠ u) : (z.taskFree u).task t = z.task t := by
  unfold taskFree
  split
  · rfl
  · exact Function.update_of_ne other _ _

/-! ### Timers and connects -/

/-- The kinds whose tasks are in no slot, on no FIFO and on no work queue. -/
def lone : TaskKind → Bool
  | .taskTimer | .taskConnect => true
  | _ => false

/-- A task is as it was, except that the caller may have given it up. -/
def SameBut (k k' : Task) : Prop := ∃ detached, k' = { k with detached }

theorem SameBut.refl (k : Task) : SameBut k k := ⟨k.detached, rfl⟩

/-- A task on a FIFO is a write. -/
theorem lone_outside (sound : Sound calm z.rest) (single : lone (z.task t).kind = true)
    (live : s ∈ z.socks) : t ∉ (z.sock s).wq := by
  intro inside
  have kind : (z.task t).kind = .taskSockWrite := ((sound.placed.fifo s t live).mp inside).2.1
  rw [kind] at single
  cases single

/-- `impl_cancel` of another task. -/
theorem implCancel_task (sound : Sound calm z.rest) (submitted : u < z.ntask)
    (single : lone (z.task t).kind = true) (other : t ≠ u) :
    (z.implCancel u).1.task t = z.task t := by
  unfold implCancel taskCanceled kWorkCancel
  split
  · rfl
  rename_i notDone
  have isOpen : (z.task u).done = false := by simpa using notDone
  have pending : z.Pending (fun _ => false) u := ⟨submitted, isOpen, rfl⟩
  split
  · exact taskComplete_other other
  · exact (taskComplete_other other).trans (Function.update_of_ne other _ _)
  · exact taskComplete_other other
  · exact taskComplete_other other
  · rename_i isWrite
    obtain ⟨s, sock⟩ := sock_of_kind sound pending (.inr (.inr (.inr isWrite)))
    have live : s ∈ z.socks := sound.placed.live u s pending (.inl sock)
    have isSock : z.sockOf u = s := by simp [sockOf, sock]
    dsimp only
    rw [isSock]
    split
    · rfl
    dsimp only
    split
    · -- The FIFO that is armed next is the old one without the canceled write.
      refine (writeArm_task _ fun inside => ?_).trans (taskComplete_other other)
      have wq : ((taskComplete (z.toCore.modSock s fun k => { k with wq := wqRemove k.wq u }) u
          rCanceled).sock s).wq = wqRemove (z.sock s).wq u :=
        congrArg Sock.wq (taskComplete_sock (by simp))
      rw [show ((z.on (·.modSock s fun k => { k with wq := wqRemove k.wq u })).on
        (taskComplete · u rCanceled)).sock s = (taskComplete (z.toCore.modSock s fun k =>
          { k with wq := wqRemove k.wq u }) u rCanceled).sock s from rfl, wq] at inside
      exact lone_outside sound single live (List.mem_of_mem_erase inside)
    · exact taskComplete_other other
  · split
    · rfl
    dsimp only
    split
    · rename_i isEnd
      obtain ⟨rfl, -⟩ := Prod.mk.inj isEnd
      exact taskComplete_other other
    · rename_i isEnd
      obtain ⟨rfl, -⟩ := Prod.mk.inj isEnd
      rfl
  · rfl

/-- `impl_cancel` of a pending timer or connect succeeds. -/
theorem implCancel_lone (sound : Sound calm z.rest) (pending : z.Pending (fun _ => false) t)
    (single : lone (z.task t).kind = true) :
    (z.implCancel t).2 = 0 ∧ ((z.implCancel t).1.task t).done = true ∧
      ((z.implCancel t).1.task t).res = rCanceled ∧
      ((z.task t).kind = .taskConnect → z.sockOf t ∉ (z.implCancel t).1.socks) := by
  have isOpen : (z.task t).done = false := pending.2.1
  unfold implCancel taskCanceled
  rw [if_neg (by simp [isOpen])]
  cases kind : (z.task t).kind with
  | taskTimer =>
    have ended : (taskComplete z.toCore t rCanceled).task t = settled rCanceled (z.task t) :=
      taskComplete_task (by simp)
    exact ⟨rfl, congrArg Task.done ended, congrArg Task.res ended, by simp⟩
  | taskConnect =>
    have ended := taskComplete_task (c := z.toCore.modTask t ({ · with sock := none })) (t := t)
      (e := rCanceled) (by simp)
    refine ⟨rfl, congrArg Task.done ended, congrArg Task.res ended, fun _ => ?_⟩
    have socks : (taskComplete (z.toCore.modTask t ({ · with sock := none })) t rCanceled).socks =
        z.socks := by
      rw [taskComplete_plain (by simp)]
      rfl
    have nodup : z.socks.Nodup := sound.linked.nodup
    show z.sockOf t ∉ (taskComplete (z.toCore.modTask t ({ · with sock := none })) t
      rCanceled).socks.erase (z.sockOf t)
    rw [socks]
    exact nodup.not_mem_erase
  | _ => rw [kind] at single; cases single

/-- A pending timer or connect can complete. -/
theorem lone_armed (sound : Sound calm z.rest) (pending : z.Pending (fun _ => false) t)
    (single : lone (z.task t).kind = true) : t ∈ z.armed := by
  refine (sound.placed.armed t).mpr ⟨pending, fun s write _ => ?_⟩
  rw [show (z.task t).kind = .taskSockWrite from write] at single
  cases single

/-- The end of a handle changes no result and releases no socket. -/
theorem taskFree_result (u : TaskId) : ((z.taskFree u).task t).done = (z.task t).done ∧
    ((z.taskFree u).task t).res = (z.task t).res ∧ (z.taskFree u).socks = z.socks := by
  unfold taskFree
  split
  · exact ⟨rfl, rfl, rfl⟩
  · by_cases same : t = u
    · subst same
      simp [on, freeMem, modTask]
    · simp [on, freeMem, modTask, same]

/-- The loop in `impl_task_free` goes on while its task is pending. -/
theorem freeLoop_task (isOpen : (z.task t).done = false) (armed : t ∈ z.armed) (u : TaskId) :
    (z.freeLoop u).task t = z.task t := by
  have some : z.armed.isEmpty = false := by
    cases isArmed : z.armed with
    | nil => rw [isArmed] at armed; cases armed
    | cons => rfl
  unfold freeLoop
  by_cases same : t = u
  · subst same
    rw [if_neg (by simp [isOpen]), if_neg (by simp [some])]
  · rw [some]
    split
    · exact taskFree_task same
    · rfl

theorem turned_task (isOpen : (z.task t).done = false) (armed : t ∈ z.armed) (why : Why) :
    (z.turned why).task t = z.task t := by
  cases why with
  | freeing u => exact freeLoop_task isOpen armed u
  | _ => rfl

/-- A step of the work-queue thread is about a spawned task. -/
theorem work_task {label : Label} (good : Good z) (step : z.work label = some z')
    (single : lone (z.task t).kind = true) : z'.task t = z.task t := by
  have apart : ∀ u, (u ∈ z.workq ∨ (z.phaseOf u).isSome = true) → t ≠ u := by
    intro u busy same
    subst same
    have life := good.spawning.each t
    unfold SpawnAt at life
    have kind := (life.spawned (by rcases busy with queued | running <;> simp [*])).2
    rw [kind] at single
    cases single
  unfold work at step
  split at step
  · split at step
    · rename_i u rest _ queued
      cases step
      exact Function.update_of_ne (apart u (.inl (by rw [queued]; simp))) _ _
    · cases step
  · split at step
    · rename_i u running
      cases step
      exact Function.update_of_ne (apart u (.inr (by simp [phaseOf, running]))) _ _
    · cases step
  · split at step
    · rename_i u returned
      cases step
      exact Function.update_of_ne (apart u (.inr (by simp [phaseOf, returned]))) _ _
    · cases step
  · split at step
    · cases step; rfl
    · cases step
  · split at step
    · cases step; rfl
    · cases step
  · cases step

/-- A pending timer or connect that is no more, because it was canceled. -/
def CanceledAt (z z' : ZIo) (t : TaskId) : Prop :=
  (z'.task t).done = true ∧ (z'.task t).res = rCanceled ∧
    ((z.task t).kind = .taskConnect → z.sockOf t ∉ z'.socks)

theorem implCancel_fate (sound : Sound calm z.rest) (submitted : u < z.ntask)
    (pending : z.Pending (fun _ => false) t) (single : lone (z.task t).kind = true) :
    (z.implCancel u).1.task t = z.task t ∧ t ≠ u ∨ t = u ∧ CanceledAt z (z.implCancel u).1 t := by
  by_cases same : t = u
  · subst same
    exact .inr ⟨rfl, (implCancel_lone sound pending single).2⟩
  · exact .inl ⟨implCancel_task sound submitted single same, same⟩

/-- `impl_task_free`, of any task. -/
theorem implTaskFree_fate (good : Good z) (submitted : u < z.ntask)
    (free : ∀ v, z.user.harvests v = false)
    (pending : z.Pending (fun _ => false) t) (single : lone (z.task t).kind = true) :
    (z.implTaskFree u).task t = z.task t ∧ t ≠ u ∨ CanceledAt z (z.implTaskFree u) t := by
  have isOpen : (z.task t).done = false := pending.2.1
  have armed := lone_armed good.sound pending single
  unfold implTaskFree
  by_cases same : t = u
  · subst same
    obtain ⟨zero, ended⟩ := implCancel_lone good.sound pending single
    rw [if_neg (by simp [isOpen])]
    split
    · rename_i z₁ isEnd
      rw [isEnd] at ended
      obtain ⟨done, res, socks⟩ := taskFree_result (z := z₁) (t := t) t
      exact .inr ⟨by rw [done]; exact ended.1, by rw [res]; exact ended.2.1, by
        rw [socks]; exact ended.2.2⟩
    · rename_i z₁ code other isEnd
      rw [isEnd] at zero
      exact absurd zero other
  · have kept : (z.implCancel u).1.task t = z.task t :=
      implCancel_task good.sound submitted single same
    split
    · exact .inl ⟨taskFree_task same, same⟩
    · split
      · rename_i z₁ isEnd
        rw [isEnd] at kept
        exact .inl ⟨(taskFree_task same).trans kept, same⟩
      · rename_i z₁ code other isEnd
        obtain ⟨-, -, -, -, refused⟩ := implCancel_good good submitted free
        rw [isEnd] at refused
        rw [show z₁ = z from refused other]
        exact .inl ⟨freeLoop_task isOpen armed u, same⟩

/-- `impl_task_detach`, of any task. -/
theorem implTaskDetach_task (isOpen : (z.task t).done = false) (u : TaskId) :
    SameBut (z.task t) ((z.implTaskDetach u).task t) := by
  unfold implTaskDetach
  split
  · rename_i done
    have other : t ≠ u := by
      rintro rfl
      rw [isOpen] at done
      cases done
    have same : ∀ z₁ : ZIo, z₁.task t = z.task t → SameBut (z.task t) ((z₁.taskFree u).task t) := by
      intro z₁ kept
      rw [taskFree_task other, kept]
      exact .refl _
    split
    · exact same _ rfl
    · exact same _ rfl
  · by_cases same : t = u
    · subst same
      exact ⟨true, by simp [on, modTask]⟩
    · exact ⟨(z.task t).detached, by simp [on, modTask, same]⟩

/-- The user thread goes on inside a call, other than from `zsock_poll`. -/
theorem resume_fate (good : Good z) (step : z.resume = some z')
    (pending : z.Pending (fun _ => false) t) (single : lone (z.task t).kind = true) :
    z'.task t = z.task t ∨ CanceledAt z z' t := by
  have isOpen : (z.task t).done = false := pending.2.1
  have armed := lone_armed good.sound pending single
  unfold resume at step
  split at step
  · split at step
    · cases step; exact .inl rfl
    · cases step
  · split at step
    · cases step; exact .inl rfl
    · cases step; exact .inl (turned_task isOpen armed _)
  · -- What is harvested was spawned.
    rename_i u why harvesting
    split at step
    · cases step
    · cases step
      have life := good.spawning.each u
      unfold SpawnAt at life
      have spawned := life.spawned (by simp [harvesting, ZUser.harvests])
      have other : t ≠ u := by
        rintro rfl
        rw [spawned.2] at single
        cases single
      exact .inl (taskComplete_other other)
  · -- A task whose memory is waited for is done.
    rename_i u releasing
    split at step
    · cases step
    · cases step
      have other : t ≠ u := by
        rintro rfl
        rw [good.spawning.releasing t releasing] at isOpen
        cases isOpen
      exact .inl (taskFree_task other)
  · rename_i destroying
    cases step
    unfold destroyRound
    split
    · rename_i u rest isArmed
      have submitted : u < z.ntask :=
        ((good.sound.placed.armed u).mp (by change u ∈ z.armed; rw [isArmed]; simp)).1.1
      have fate := implCancel_fate good.sound submitted pending single
      split
      · rename_i z₁ isEnd
        rw [isEnd] at fate
        rcases fate with ⟨same, -⟩ | ⟨-, ended⟩
        · exact .inl same
        · exact .inr ended
      · rename_i z₁ code other isEnd
        obtain ⟨-, -, -, -, refused⟩ := implCancel_good good submitted fun v => by rw [destroying]; rfl
        rw [isEnd] at refused
        rw [show z₁ = z from refused other]
        exact .inl rfl
    · rename_i empty
      rw [empty] at armed
      cases armed
  · cases step

/-- A vtable call. -/
theorem call_fate {label : Label} (good : Good z) (idle : z.user = .idle) (allowed : z.Allowed label)
    (step : z.call label = some z') (pending : z.Pending (fun _ => false) t)
    (single : lone (z.task t).kind = true) :
    SameBut (z.task t) (z'.task t) ∨ CanceledAt z z' t := by
  have isOpen : (z.task t).done = false := pending.2.1
  have old : t < z.ntask := pending.1
  have same : z'.task t = z.task t → SameBut (z.task t) (z'.task t) ∨ CanceledAt z z' t :=
    fun kept => .inl (by rw [kept]; exact .refl _)
  cases label with
  | «open» mem rc => cases step; exact same (implOpen_task old mem rc)
  | close mem fd rc => cases step; exact same (implClose_task old mem fd rc)
  | fileRw mem fd offset ans => cases step; exact same (fileRw_task old mem fd offset ans)
  | sleep mem ms uptime => cases step; exact same (implSleep_task old mem ms uptime)
  | spawn mem ret => cases step; exact same (implSpawn_task old mem ret)
  | tcpConnect mem ans => cases step; exact same (implTcpConnect_task old mem ans)
  | tcpListen ans => cases step; exact same (implTcpListen_task ans)
  | tcpAccept mem ls ans => cases step; exact same (implTcpAccept_task old mem ans)
  | sockRead mem s ans => cases step; exact same (implSockRead_task old mem ans)
  | sockWrite mem s buf => cases step; exact same (implSockWrite_task old mem buf)
  | sockClose mem s =>
    cases step
    refine same ((implSockClose_spec good.sound mem allowed.1 allowed.2).2.1 t old fun points => ?_)
    -- Only a connect has a socket, and the caller does not have it yet.
    cases kind : (z.task t).kind with
    | taskConnect =>
      have hidden := (connect_sole good.sound pending kind points).2.2.1
      rw [allowed.2] at hidden
      cases hidden
    | taskTimer =>
      have fits := good.sound.shaped t pending
      unfold Rules.Fits calm zShape at fits
      rw [show (z.rest.core.task t).kind = .taskTimer from kind] at fits
      rw [show (z.task t).sock = none from fits.1] at points
      cases points
    | _ => rw [kind] at single; cases single
  | step =>
    cases step
    unfold implStep
    split <;> exact .inl (.refl _)
  | cancel u =>
    cases step
    rcases implCancel_fate good.sound (good.sound.lives.bound u allowed) pending single with
      ⟨kept, -⟩ | ⟨-, ended⟩
    · exact same kept
    · exact .inr ended
  | free u =>
    cases step
    rcases implTaskFree_fate good (good.sound.lives.bound u allowed) (fun v => by rw [idle]; rfl)
      pending single with ⟨kept, -⟩ | ended
    · exact same kept
    · exact .inr ended
  | detach u => cases step; exact .inl (implTaskDetach_task isOpen u)
  | result u => cases step; exact same readResult_task
  | destroy => cases step; exact .inl (.refl _)
  | _ => cases step

/-- A step other than a poll leaves a pending timer or connect alone, or cancels it. -/
theorem step_fate {label : Label} (good : Good z) (allowed : z.Allowed label)
    (step : z.step label = some z') (pending : z.Pending (fun _ => false) t)
    (single : lone (z.task t).kind = true) :
    (∃ p, label = .poll p) ∨ SameBut (z.task t) (z'.task t) ∨ CanceledAt z z' t := by
  have worked : ∀ {l : Label}, z.work l = some z' →
      (∃ p, l = .poll p) ∨ SameBut (z.task t) (z'.task t) ∨ CanceledAt z z' t := fun there =>
    .inr (.inl (by rw [work_task good there single]; exact .refl _))
  unfold ZIo.step at step
  split at step
  · exact .inl ⟨_, rfl⟩
  · rcases resume_fate good step pending single with kept | ended
    · exact .inr (.inl (by rw [kept]; exact .refl _))
    · exact .inr (.inr ended)
  · exact worked step
  · exact worked step
  · exact worked step
  · exact worked step
  · exact worked step
  · split at step
    · rename_i idle
      exact .inr (call_fate good idle allowed step pending single)
    · cases step

end ZIo

end Myio.Loop
