import Myio.ZPool.Sections

/-! The two slots of a socket: each names a pending task of its kind, from step to step. -/

namespace Myio

open Function (update)
open Core

namespace ZPool

variable {z z' : ZPool} {t : TaskId} {s : SockId} {w : WorkerId}

/-! ### What a call leaves alone -/

theorem completeUnrun_user (z : ZPool) (t : TaskId) (res : Result) :
    (z.completeUnrun t res).user = z.user := by
  rw [completeUnrun_eq]
  change ((z.on (·.queueRemove t)).leave t).user = z.user
  rw [leave_rest]
  rfl

/-- What a submission changes: there is one more task, on its socket's books or on the queue. -/
theorem submit_rest (z : ZPool) (k : Task) :
    z.submit k = { z with
      task := update z.task z.ntask k, ntask := z.ntask + 1, held := update z.held z.ntask true
      sock := (z.submit k).sock, queue := (z.submit k).queue, nqueued := (z.submit k).nqueued
      worker := (z.submit k).worker, tick := (z.submit k).tick } := by
  -- Up to the signal only the new task and its socket have changed.
  have queued : ∀ (parked : Bool) (y : ZPool), y = { z with
      task := update z.task z.ntask k, ntask := z.ntask + 1, held := update z.held z.ntask true
      sock := y.sock } → ∀ y', y' = (if parked then y else y.enqueue z.ntask) → y' = { z with
      task := update z.task z.ntask k, ntask := z.ntask + 1, held := update z.held z.ntask true
      sock := y'.sock, queue := y'.queue, nqueued := y'.nqueued, worker := y'.worker
      tick := y'.tick } := by
    rintro parked y rest _ rfl
    cases parked with
    | true => rw [if_pos rfl, rest]
    | false =>
      rw [if_neg Bool.false_ne_true]
      unfold enqueue
      rw [condSignal_rest, rest]
      rfl
  exact queued _ _ (by split <;> split <;> rfl) _ rfl

theorem submit_user (z : ZPool) (k : Task) : (z.submit k).user = z.user := by rw [submit_rest]

/-! ### The slots -/

/-- Every slot names a pending task of its kind on its socket. -/
def Slotted (z : ZPool) : Prop := ∀ k s t, z.slot k s = some t → InSlot z.toCore k s t

theorem InSlot.mono {c c' : Core} {k : OpKind} (named : InSlot c k s t) (ntask : c.ntask ≤ c'.ntask)
    (same : (c'.task t).done = (c.task t).done ∧ (c'.task t).kind = (c.task t).kind ∧
      (c'.task t).sock = (c.task t).sock) : InSlot c' k s t :=
  ⟨Nat.lt_of_lt_of_le named.inside ntask, same.1.trans named.isOpen, same.2.1.trans named.kind,
    same.2.2.trans named.sock⟩

/-- A step that puts nobody in a slot, and ends nobody who stays in one. -/
theorem Slotted.fewer (slotted : z.Slotted) (ntask : z.ntask ≤ z'.ntask)
    (fewer : ∀ k s u, z'.slot k s = some u → z.slot k s = some u)
    (same : ∀ k s u, z'.slot k s = some u → u < z.ntask → (z'.task u).done = (z.task u).done ∧
      (z'.task u).kind = (z.task u).kind ∧ (z'.task u).sock = (z.task u).sock) : z'.Slotted := by
  intro k s u there
  have named := slotted k s u (fewer k s u there)
  exact named.mono ntask (same k s u there named.inside)

theorem onSock_of_slot {k : OpKind} (there : z.slot k s = some t) : opOnSock k = true := by
  unfold slot at there
  split at there
  · rename_i isRead; rw [isRead]; rfl
  · split at there
    · rename_i isAccept; rw [isAccept]; rfl
    · cases there

/-- A task that leaves its slots as it ends is in none any more. -/
theorem Slotted.left {k : OpKind} {u : TaskId} (slotted : z.Slotted) (before : z.slot k s = some u)
    (cleared : opOnSock (z.task t).kind = true →
      ¬ (u = t ∧ (z.task t).kind = k ∧ s = z.sockOf t)) : u ≠ t := by
  rintro rfl
  have named := slotted k s u before
  refine cleared (by rw [named.kind]; exact onSock_of_slot before) ⟨rfl, named.kind, ?_⟩
  simp [Core.sockOf, named.sock]

theorem Slotted.completeUnrun (slotted : z.Slotted) (t : TaskId) :
    (z.completeUnrun t rCanceled).Slotted := by
  refine slotted.fewer ?_ (fun k s u there => (completeUnrun_slot there).1) fun k s u there _ => ?_
  · rw [completeUnrun_eq]
    change z.ntask ≤ ((((z.on (·.queueRemove t)).leave t).finish t rCanceled).reapIfDetached t).ntask
    rw [finish_reapIfDetached _ _ rCanceled_ptr]
    simp only [modTask]
    rw [leave_rest, on_toCore, queueRemove_rest]
  · obtain ⟨before, cleared⟩ := completeUnrun_slot there
    rw [completeUnrun_others (slotted.left before cleared)]
    exact ⟨rfl, rfl, rfl⟩

/-- A submission leaves the slots as they are. -/
theorem Slotted.submit {y : ZPool} {k : Task} (slotted : z.Slotted) (core : y.toCore = z.toCore)
    (slots : ∀ k' s u, y.slot k' s = some u → z.slot k' s = some u ∨
      u = z.ntask ∧ k.done = false ∧ k.kind = k' ∧ k.sock = some s) : (y.submit k).Slotted := by
  intro k' s u there
  rw [submit_rest] at there ⊢
  rw [core]
  rcases slots k' s u there with before | ⟨rfl, isOpen, kind, sock⟩
  · have named := slotted k' s u before
    refine named.mono (Nat.le_succ _) ?_
    simp [Function.update_of_ne (Nat.ne_of_lt named.inside)]
  · exact ⟨Nat.lt_succ_self _, by simp [isOpen], by simp [kind], by simp [sock]⟩

/-- Dropping a task keeps the other tasks in their slots. -/
theorem Slotted.dropUnrun (slotted : z.Slotted) (t : TaskId) : (z.dropUnrun t).Slotted := by
  have ended := slotted.completeUnrun t
  unfold ZPool.dropUnrun
  dsimp only
  generalize z.completeUnrun t rCanceled = y at ended ⊢
  split
  · refine ended.fewer ?_ (fun _ _ _ => id) fun k s u _ _ => ?_
    · change _ ≤ (Core.reap _ t).ntask
      unfold Core.reap
      split <;> exact Nat.le_refl _
    · change ((Core.reap _ t).task u).done = _ ∧ ((Core.reap _ t).task u).kind = _ ∧
        ((Core.reap _ t).task u).sock = _
      unfold Core.reap
      split
      all_goals
        simp only [taskFreeMem, modTask, sockDiscard, sockFree, modSock, closeDesc, modDesc,
          sockUnlink, dropHandle, Function.update_apply]
        grind
  · exact ended

/-- Nothing changed but cancel requests and the workers. -/
structure Prodded (c c' : Core) : Prop where
  rest : c' = { c with task := c'.task, worker := c'.worker }
  task : ∀ t, c'.task t = { c.task t with cancelReq := (c'.task t).cancelReq }

theorem Prodded.refl (c : Core) : Prodded c c := ⟨rfl, fun _ => rfl⟩

theorem Prodded.trans {c c' c'' : Core} (first : Prodded c c') (second : Prodded c' c'') :
    Prodded c c'' := by
  refine ⟨?_, fun t => ?_⟩
  · rw [second.rest, first.rest]
  · rw [second.task, first.task]

theorem prodded_kick (c : Core) (t : TaskId) : Prodded c (kick c t) := by
  refine ⟨by rw [kick_rest]; rfl, fun u => ?_⟩
  rw [kick_rest]
  simp only [modTask, Function.update_apply]
  split
  · rename_i same; subst same; rfl
  · rfl

theorem Prodded.down {c c' : Core} (prodded : Prodded c c') (down : c.WoundDown) : c'.WoundDown := by
  intro isDown
  rw [prodded.rest] at isDown
  obtain ⟨empty, started⟩ := down isDown
  refine ⟨by rw [prodded.rest]; exact empty, fun t pending => ?_⟩
  have pending' : c.Pending (fun _ => false) t := by
    refine ⟨?_, ?_, rfl⟩
    · have := pending.1; rw [prodded.rest] at this; exact this
    · have := pending.2.1; rw [prodded.task] at this; exact this
  rw [prodded.task]
  exact started t pending'

theorem Slotted.prodded (slotted : z.Slotted) (prodded : Prodded z.toCore z'.toCore)
    (slots : ∀ k s, z'.slot k s = z.slot k s) : z'.Slotted := by
  refine slotted.fewer (by rw [prodded.rest]) (fun k s u there => (slots k s).symm.trans there)
    fun k s u _ _ => ?_
  rw [prodded.task u]
  exact ⟨rfl, rfl, rfl⟩

theorem Slotted.kick (slotted : z.Slotted) (t : TaskId) : (z.on (kick · t)).Slotted :=
  slotted.prodded (prodded_kick z.toCore t) fun _ _ => rfl

theorem Slotted.stopSlot (slotted : z.Slotted) (named : Option TaskId) :
    (z.stopSlot named).Slotted := by
  unfold ZPool.stopSlot
  split
  · exact slotted
  · split
    · exact slotted.completeUnrun _
    · exact slotted.kick _

theorem Slotted.cancelParked (s : SockId) (n : Nat) : ∀ {z : ZPool}, z.Slotted →
    (cancelParked n z s).Slotted := by
  induction n with
  | zero => exact id
  | succ n ih =>
    intro z slotted
    unfold ZPool.cancelParked
    split
    · exact ih (slotted.completeUnrun _)
    · exact slotted

/-- Ending a task that is in no slot. -/
theorem Slotted.finish (slotted : z.Slotted) (apart : opOnSock (z.task t).kind = false)
    (res : Result) : (z.on (·.finish t res)).Slotted := by
  refine slotted.fewer (Nat.le_refl _) (fun _ _ _ => id) fun k s u there _ => ?_
  have before : z.slot k s = some u := there
  have other : u ≠ t := by
    rintro rfl
    have blocks := onSock_of_slot before
    rw [← (slotted k s u before).kind, apart] at blocks
    cases blocks
  simp [Core.finish, modTask, other]

/-- Code that ends no task. -/
theorem Slotted.on (slotted : z.Slotted) (f : Core → Core) (ntask : (f z.toCore).ntask = z.ntask)
    (task : (f z.toCore).task = z.task) : (z.on f).Slotted :=
  slotted.fewer (Nat.le_of_eq ntask.symm) (fun _ _ _ => id) fun _ _ _ _ _ => by
    rw [on_toCore, task]; exact ⟨rfl, rfl, rfl⟩

/-! ### The slots, as tasks commit -/

theorem Slotted.leave (slotted : z.Slotted) (t : TaskId) :
    (z.leave t).Slotted ∧ ∀ k s, (z.leave t).slot k s = some t → opOnSock (z.task t).kind = false := by
  refine ⟨slotted.fewer ?_ (fun k s u there => (slot_leave there).1) fun k s u _ _ => ?_,
    fun k s there => ?_⟩
  · rw [leave_rest]
  · rw [leave_rest]; exact ⟨rfl, rfl, rfl⟩
  · obtain ⟨before, cleared⟩ := slot_leave there
    by_contra blocks
    exact slotted.left before (fun _ => cleared (by simpa using blocks)) rfl

/-- The end of a task that has left its slot. -/
theorem Slotted.complete (slotted : z.Slotted) (out : ∀ k s, z.slot k s ≠ some t) (res : Result) :
    (z.complete t res).Slotted := by
  have others : ∀ u, u ≠ t → (z.complete t res).task u = z.task u := by
    intro u other
    unfold ZPool.complete
    simp only [on_toCore, reapIfDetached]
    split
    · unfold Core.reap
      split
      all_goals simp [taskFreeMem, modTask, sockDiscard, sockFree, modSock, closeDesc, modDesc,
        sockUnlink, Core.finish, other]
    · simp [Core.finish, modTask, other]
  refine slotted.fewer ?_ (fun _ _ _ => id) fun k s u there _ => ?_
  · unfold ZPool.complete
    simp only [on_toCore, reapIfDetached]
    split
    · unfold Core.reap
      split <;> exact Nat.le_refl _
    · exact Nat.le_refl _
  · have other : u ≠ t := by rintro rfl; exact out k s there
    rw [others u other]
    exact ⟨rfl, rfl, rfl⟩

theorem Slotted.wrapWon (slotted : z.Slotted) (res : Result) (newfd : Option Fd) (linked : Bool) :
    (z.wrapWon res newfd linked).1.Slotted := by
  unfold ZPool.wrapWon
  split
  · exact slotted
  · split
    · refine slotted.fewer (Nat.le_refl _) (fun k s u there => ?_) fun _ _ _ _ _ => ⟨rfl, rfl, rfl⟩
      unfold slot ZPool.sockLink at there
      unfold slot
      simp only [Function.update_apply] at there
      grind
    · exact slotted.on (·.closeDesc _) rfl rfl

/-- A socket that is dropped is nobody's business. -/
theorem Slotted.dropWon (slotted : z.Slotted) (out : ∀ k s, z.slot k s ≠ some t) (res : Result) :
    (z.dropWon res).Slotted ∧ ∀ k s, (z.dropWon res).slot k s ≠ some t := by
  unfold ZPool.dropWon
  split
  · exact ⟨slotted.on (·.sockDiscard _) rfl rfl, out⟩
  · exact ⟨slotted, out⟩

theorem Slotted.workerCommit (slotted : z.Slotted) (w : WorkerId) (t : TaskId) (res : Result)
    (newfd : Option Fd) (linked : Bool) : (z.workerCommit w t res newfd linked).Slotted := by
  have wrapped := (slotted.on (·.setPc w .ready) rfl rfl).wrapWon res newfd linked
  unfold ZPool.workerCommit
  dsimp only
  generalize (z.on (·.setPc w .ready)).wrapWon res newfd linked = won at wrapped ⊢
  obtain ⟨y, res'⟩ := won
  change ((y.settleSock t res').1.complete t (y.settleSock t res').2).Slotted
  obtain ⟨left, out⟩ := Slotted.leave wrapped t
  rw [settleSock_eq]
  split
  · rename_i blocks
    have out' : ∀ k s, (y.leave t).slot k s ≠ some t := fun k s there => by
      rw [out k s there] at blocks; cases blocks
    split
    · obtain ⟨dropped, out''⟩ := left.dropWon out' res'
      exact dropped.complete out'' _
    · exact left.complete out' _
  · rename_i apart
    refine Slotted.complete wrapped (fun k s there => apart ?_) _
    rw [(wrapped k s t there).kind]
    exact onSock_of_slot there

/-- A worker keeps the slots in order. -/
theorem Slotted.workerStep {act : Pool.Act} (slotted : z.Slotted) (sound : Sound z.rest)
    (taken : z.workerStep w act = some z') : z'.Slotted := by
  have main : ∀ y : ZPool, y.Slotted → (y.workerMain w).Slotted := by
    intro y slotted
    unfold workerMain
    split
    · refine slotted.fewer (Nat.le_refl _) (fun _ _ _ => id) fun k s u _ _ => ?_
      simp only [take, on_toCore, setPc, modWorker, modTask, Function.update_apply]
      grind
    · split
      · exact slotted.on (·.setPc w .retired) rfl rfl
      · exact slotted.on (·.setPc w .asleep) rfl rfl
  have moved : ∀ t phase, (z.on (·.setPc w (.running t phase))).Slotted := fun t phase =>
    slotted.on (·.setPc w (.running t phase)) rfl rfl
  unfold ZPool.workerStep at taken
  split at taken
  · cases taken
  · rename_i outside
    have inside : w < z.nworker := Nat.lt_of_not_le outside
    split at taken
    · cases taken; exact slotted.on (·.setPc w (.woken false)) rfl rfl
    · cases taken
      exact main _ (slotted.fewer (Nat.le_refl _) (fun _ _ _ => id) fun _ _ _ _ _ => ⟨rfl, rfl, rfl⟩)
    · cases taken; exact main _ slotted
    · rename_i t phase pc
      unfold runStep at taken
      split at taken
      · cases taken; unfold workerEnter; split
        · exact moved _ _
        · split
          case h_2 => split <;> exact moved _ _
          all_goals exact moved _ _
      · split at taken
        · cases taken; exact moved _ _
        · split at taken <;> cases taken <;> exact moved _ _
      · split at taken
        · split at taken <;> cases taken
          exact (slotted.on (·.modWorker w ({ · with kicks := 0 })) rfl rfl).on
            (·.setPc w (.running t .check)) rfl rfl
        · cases taken; exact moved _ _
      · cases taken; exact moved _ _
      · split at taken <;> cases taken
        all_goals exact (slotted.on (·.newDesc) rfl rfl).on (·.setPc w (.running t _)) rfl rfl
      · rename_i off n
        split at taken <;> cases taken
        refine slotted.fewer (Nat.le_refl _) (fun _ _ _ => id) fun k s u _ _ => ?_
        simp only [on_toCore, Pool.sendBytes, setPc, modWorker, modTask, modDesc,
          Function.update_apply]
        grind
      · split at taken <;> cases taken; exact moved _ _
      · split at taken <;> cases taken; exact moved _ _
      · cases taken; exact slotted.workerCommit _ _ _ _ _
      · dsimp only at taken
        split at taken <;> cases taken
        exact ((slotted.on (·.sockUnlink _) rfl rfl).on (·.sockFree _) rfl rfl).on
          (·.setPc w (.running t _)) rfl rfl
      · cases taken
        exact (slotted.on (·.closeDesc _) rfl rfl).on (·.setPc w (.running t _)) rfl rfl
      · cases taken
        obtain ⟨isClose, _⟩ : z.PhaseOk t .commitClose := sound.phased w t _ ⟨inside, pc⟩
        refine (slotted.on (·.setPc w .ready) rfl rfl).complete (fun k s there => ?_) _
        have blocks := onSock_of_slot there
        rw [← (slotted k s t there).kind, isClose] at blocks
        cases blocks
      · cases taken
    · cases taken

/-- Going on inside a call keeps the slots in order. -/
theorem Slotted.resume {linked : Bool} (slotted : z.Slotted) (taken : z.resume linked = some z') :
    z'.Slotted := by
  have same : ∀ {y : ZPool}, y.task = z.task → y.ntask = z.ntask → (∀ k s, y.slot k s = z.slot k s) →
      y.Slotted := fun task ntask slots =>
    slotted.fewer (Nat.le_of_eq ntask.symm) (fun k s u there => (slots k s).symm.trans there)
      fun _ _ _ _ _ => by rw [task]; exact ⟨rfl, rfl, rfl⟩
  unfold ZPool.resume at taken
  split at taken
  · cases taken
    unfold wrapListener
    split
    · refine slotted.fewer (Nat.le_refl _) (fun k s u there => ?_) fun _ _ _ _ _ => ⟨rfl, rfl, rfl⟩
      unfold slot ZPool.sockLink at there
      unfold slot
      simp only [Function.update_apply] at there
      grind
    · exact same rfl rfl fun _ _ => rfl
  · cases taken
    unfold freeOn
    split
    · refine slotted.fewer (Nat.le_refl _) (fun _ _ _ => id) fun k s u _ _ => ?_
      simp only [on_toCore, taskFreeMem, modTask, dropHandle, Function.update_apply]
      grind
    · exact slotted
  · cases taken
    unfold pollOn
    split
    · split
      · split <;> exact same rfl rfl fun _ _ => rfl
      · exact same rfl rfl fun _ _ => rfl
    · exact same rfl rfl fun _ _ => rfl
    · split
      · split <;> exact same rfl rfl fun _ _ => rfl
      · exact same rfl rfl fun _ _ => rfl
  · cases taken
    unfold stepOn
    split <;> exact slotted
  · cases taken
    unfold destroyOn
    split
    · have rest := closeSocks_rest z.toCore z.socks
      refine same ?_ ?_ fun _ _ => rfl
      · change (Pool.closeSocks z.toCore z.socks).task = z.task; rw [rest]
      · change (Pool.closeSocks z.toCore z.socks).ntask = z.ntask; rw [rest]
    · exact slotted
  · cases taken

end ZPool

end Myio
