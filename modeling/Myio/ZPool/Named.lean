import Myio.ZPool.Stable

/-!
The two slots of a socket, the other way round: a read or an accept that is not done is named by the
slot of its kind.
-/

namespace Myio.ZPool

open Function (update)
open Core

variable {z z' y : ZPool} {t u : TaskId} {s : SockId} {w : WorkerId}

/-- A step that takes a task out of its slot only if it ends the task. -/
structure Drops (z z' : ZPool) : Prop where
  ntask : z.ntask ≤ z'.ntask
  nsock : z.nsock ≤ z'.nsock
  done : ∀ u, u < z.ntask → (z.task u).done = true → (z'.task u).done = true
  slot : ∀ k s u, u < z.ntask → s < z.nsock → z.slot k s = some u →
    z'.slot k s = some u ∨ (z'.task u).done = true

namespace Drops

theorem refl (z : ZPool) : Drops z z :=
  ⟨Nat.le_refl _, Nat.le_refl _, fun _ _ => id, fun _ _ _ _ _ => .inl⟩

theorem trans {z'' : ZPool} (first : Drops z z') (second : Drops z' z'') : Drops z z'' := by
  have insideT : ∀ u, u < z.ntask → u < z'.ntask := fun _ less => Nat.lt_of_lt_of_le less first.ntask
  refine ⟨Nat.le_trans first.ntask second.ntask, Nat.le_trans first.nsock second.nsock,
    fun u inside ended => second.done u (insideT u inside) (first.done u inside ended),
    fun k s u inside made there => ?_⟩
  rcases first.slot k s u inside made there with there | ended
  · exact second.slot k s u (insideT u inside) (Nat.lt_of_lt_of_le made first.nsock) there
  · exact .inr (second.done u (insideT u inside) ended)

/-- A change that empties no slot. -/
theorem aside (ntask : z.ntask ≤ z'.ntask) (nsock : z.nsock ≤ z'.nsock)
    (done : ∀ u, u < z.ntask → (z.task u).done = true → (z'.task u).done = true)
    (slot : ∀ k s u, s < z.nsock → z.slot k s = some u → z'.slot k s = some u) : Drops z z' :=
  ⟨ntask, nsock, done, fun k s u _ made there => .inl (slot k s u made there)⟩

/-- A change that touches neither tasks nor slots. -/
theorem same (task : z'.task = z.task) (ntask : z'.ntask = z.ntask) (nsock : z'.nsock = z.nsock)
    (slot : z'.slot = z.slot) : Drops z z' :=
  aside (Nat.le_of_eq ntask.symm) (Nat.le_of_eq nsock.symm) (fun u _ => by rw [task]; exact id)
    fun k s u _ => by rw [slot]; exact id

end Drops

/-- A step that makes no task, either. -/
structure Works (z z' : ZPool) : Prop extends Drops z z' where
  made : z'.ntask = z.ntask
  kind : ∀ u, (z'.task u).kind = (z.task u).kind

namespace Works

theorem refl (z : ZPool) : Works z z := ⟨.refl z, rfl, fun _ => rfl⟩

theorem trans {z'' : ZPool} (first : Works z z') (second : Works z' z'') : Works z z'' :=
  ⟨first.toDrops.trans second.toDrops, second.made.trans first.made,
    fun u => (second.kind u).trans (first.kind u)⟩

theorem same (task : ∀ u, (z'.task u).done = (z.task u).done ∧ (z'.task u).kind = (z.task u).kind)
    (ntask : z'.ntask = z.ntask) (nsock : z'.nsock = z.nsock) (slot : z'.slot = z.slot) : Works z z' :=
  ⟨.aside (Nat.le_of_eq ntask.symm) (Nat.le_of_eq nsock.symm)
    (fun u _ => by rw [(task u).1]; exact id) fun k s u _ => by rw [slot]; exact id, ntask,
    fun u => (task u).2⟩

/-- A change that touches neither tasks nor slots. -/
theorem plain (task : z'.task = z.task) (ntask : z'.ntask = z.ntask) (nsock : z'.nsock = z.nsock)
    (slot : z'.slot = z.slot) : Works z z' :=
  .same (fun u => by rw [task]; exact ⟨rfl, rfl⟩) ntask nsock slot

end Works

/-! ### What empties a slot -/

/-- Clearing a task's slots spares the slots of the others. -/
theorem sockSlotsClear_spares {k : OpKind} (there : z.slot k s = some u) (other : u ≠ t) :
    (z.sockSlotsClear t).slot k s = some u := by
  unfold slot at there
  unfold slot sockSlotsClear
  dsimp only
  split at there
  · rename_i isRead
    subst isRead
    rw [if_pos rfl]
    split <;> split <;> (simp_all [Function.update_apply]; try grind)
  · rename_i notRead
    rw [if_neg notRead]
    split at there
    · rename_i isAccept
      subst isAccept
      rw [if_pos rfl]
      split <;> split <;> (simp_all [Function.update_apply]; try grind)
    · cases there

theorem leave_spares {k : OpKind} (there : z.slot k s = some u) (other : u ≠ t) :
    (z.leave t).slot k s = some u := by
  obtain ⟨y, counted, _, left⟩ := leave_cases z t
  have after : y.slot k s = some u := by
    rcases counted with rfl | ⟨_, rfl⟩
    · exact there
    · have before : (z.on (·.inflightDec (z.sockOf t))).slot k s = some u := there
      exact sockSlotsClear_spares before other
  rcases left with left | left
  · rw [left]; exact after
  · rw [left, writeAdvance_rest]; exact after

theorem leave_task (z : ZPool) (t u : TaskId) : (z.leave t).task u = z.task u := by
  rw [leave_rest]

/-- `complete_unrun` ends one task, and spares the slots of the others. -/
theorem Works.completeUnrun (z : ZPool) (t : TaskId) : Works z (z.completeUnrun t rCanceled) := by
  have core : (z.completeUnrun t rCanceled).toCore =
      (((z.on (·.queueRemove t)).leave t).toCore).modTask t (settled rCanceled) := by
    rw [completeUnrun_eq]
    generalize (z.on (·.queueRemove t)).leave t = y
    exact finish_reapIfDetached y.toCore t rCanceled_ptr
  have task : ∀ u, (((z.on (·.queueRemove t)).leave t).task u) = z.task u := fun u => by
    rw [leave_task, on_toCore, queueRemove_rest]
  have ended : ((z.completeUnrun t rCanceled).task t).done = true := by
    rw [core]; simp [modTask, settled]
  have others : ∀ u, u ≠ t → (z.completeUnrun t rCanceled).task u = z.task u := fun u other => by
    rw [core]; simp [modTask, other, task]
  have ntask : (z.completeUnrun t rCanceled).ntask = z.ntask := by
    rw [core]; simp only [modTask]; rw [leave_rest, on_toCore, queueRemove_rest]
  refine ⟨⟨Nat.le_of_eq ntask.symm, ?_, fun u _ done => ?_, fun k s u _ _ there => ?_⟩, ntask,
    fun u => ?_⟩
  · rw [core]; simp only [modTask]; rw [leave_rest, on_toCore, queueRemove_rest]
  · by_cases same : u = t
    · rw [same]; exact ended
    · rw [others u same]; exact done
  · by_cases same : u = t
    · exact .inr (same ▸ ended)
    · exact .inl (leave_spares (z := z.on (·.queueRemove t)) there same)
  · by_cases same : u = t
    · subst same; rw [core]; simp [modTask, settled, task]
    · rw [others u same]

theorem Works.kick (z : ZPool) (t : TaskId) : Works z (z.on (kick · t)) := by
  have prodded := prodded_kick z.toCore t
  refine .same (fun u => ?_) ?_ ?_ rfl
  · rw [on_toCore, prodded.task]; exact ⟨rfl, rfl⟩
  · rw [on_toCore, prodded.rest]
  · rw [on_toCore, prodded.rest]

theorem Works.stopSlot (z : ZPool) (named : Option TaskId) : Works z (z.stopSlot named) := by
  unfold ZPool.stopSlot
  split
  · exact .refl z
  · split
    · exact .completeUnrun z _
    · exact .kick z _

theorem Works.cancelParked (s : SockId) (n : Nat) : ∀ z : ZPool, Works z (cancelParked n z s) := by
  induction n with
  | zero => exact .refl
  | succ n ih =>
    intro z
    unfold ZPool.cancelParked
    split
    · exact (Works.completeUnrun z _).trans (ih _)
    · exact .refl z

/-- A new task is in nobody's slot. -/
theorem Drops.taskNew (z : ZPool) (k : Task) : Drops z (z.on (·.taskNew k)) := by
  refine .aside (Nat.le_succ _) (Nat.le_refl _) (fun u inside ended => ?_) fun _ _ _ _ => id
  simpa [Core.taskNew, Function.update_of_ne (Nat.ne_of_lt inside)] using ended

theorem Works.finish (z : ZPool) (t : TaskId) (res : Result) : Works z (z.on (·.finish t res)) := by
  refine ⟨.aside (Nat.le_refl _) (Nat.le_refl _) (fun u _ ended => ?_) fun _ _ _ _ => id, rfl,
    fun u => ?_⟩
  · by_cases same : u = t
    · simp [Core.finish, modTask, same]
    · simpa [Core.finish, modTask, same] using ended
  · by_cases same : u = t
    · simp [Core.finish, modTask, same]
    · simp [Core.finish, modTask, same]

/-- Once its task is made, `impl_sock_close` makes no other. -/
theorem Works.implSockClose (z : ZPool) (s : SockId) : Works (z.closeMade s) (z.implSockClose s) := by
  have stripped : Works (z.closeMade s) (z.closeStripped s) :=
    ((Works.stopSlot _ _).trans (.stopSlot _ _)).trans (.cancelParked s _ _)
  rw [implSockClose_eq]
  generalize z.closeStripped s = y at stripped ⊢
  split
  · have unlinked : Works (z.closeMade s) ((y.on (·.sockUnlink s)).on (·.sockFree s)) :=
      stripped.trans (.plain rfl rfl rfl rfl)
    exact (unlinked.trans (.finish _ z.ntask _)).trans (.plain rfl rfl rfl rfl)
  · refine stripped.trans (.plain ?_ ?_ ?_ ?_) <;> (unfold enqueue; rw [condSignal_rest]; rfl)

/-- A submission puts nobody out of a slot. -/
theorem Drops.submit {k : Task} (core : y.toCore = z.toCore)
    (slots : ∀ k s u, z.slot k s = some u → y.slot k s = some u) : Drops z (y.submit k) := by
  have ntask : y.ntask = z.ntask := by rw [core]
  refine .aside ?_ ?_ (fun u inside ended => ?_) fun k s u _ there => ?_
  · rw [submit_rest, ← ntask]; exact Nat.le_succ _
  · rw [submit_rest, core]
  · rw [submit_rest, core]
    simpa [Function.update_of_ne (Nat.ne_of_lt inside)] using ended
  · rw [submit_rest]; exact slots k s u there

theorem Drops.taskNewFailed (z : ZPool) (k : OpKind) (err : Int) : Drops z (z.taskNewFailed k err) :=
  (Drops.taskNew z _).trans (Works.finish _ z.ntask _).toDrops

theorem Drops.reap (z : ZPool) (t : TaskId) : Drops z (z.on (·.reap t)) := by
  have rest : z.reap t = { z.toCore with task := (z.reap t).task, desc := (z.reap t).desc
                                         sock := (z.reap t).sock, socks := (z.reap t).socks } := by
    unfold Core.reap
    cases (z.task t).res.ptr <;> rfl
  refine .aside ?_ ?_ (fun u _ ended => (reap_done z.toCore t u).trans ended) fun _ _ _ _ => id
  · rw [on_toCore, rest]
  · rw [on_toCore, rest]

/-- A vtable call, other than destroy, empties a slot only as it ends its task. -/
theorem call_drops {c : Call} (lives : c ≠ .destroy) (taken : z.call c = some z') : Drops z z' := by
  have submitted : ∀ k : Task, Drops z (z.submit k) := fun k => .submit rfl fun _ _ _ => id
  have freed : ∀ {y : ZPool} t, Drops z y → Drops z ((y.dropHandle t).on (·.taskFreeMem t)) := by
    intro y t drops
    refine drops.trans (.aside (Nat.le_refl _) (Nat.le_refl _) (fun u _ ended => ?_) fun _ _ _ _ => id)
    simp only [on_toCore, taskFreeMem, modTask, dropHandle, Function.update_apply]
    grind
  have given : ∀ {y : ZPool}, y.task = z.task → y.ntask = z.ntask → y.nsock = z.nsock →
      y.slot = z.slot → Drops z y := .same
  cases c with
  | «open» fits => cases taken; exact Stable.ite (submitted _) (.taskNewFailed z _ _)
  | close known => cases taken; exact Stable.ite (submitted _) (.taskNewFailed z _ _)
  | read known => cases taken; exact Stable.ite (submitted _) (.taskNewFailed z _ _)
  | write known => cases taken; exact Stable.ite (submitted _) (.taskNewFailed z _ _)
  | sleep => cases taken; exact submitted _
  | spawn => cases taken; exact submitted _
  | tcpConnect fits => cases taken; exact Stable.ite (submitted _) (.taskNewFailed z _ _)
  | tcpListen => cases taken; exact given rfl rfl rfl rfl
  | tcpAccept ls =>
    cases taken
    unfold implTcpAccept
    split
    · exact .taskNewFailed z _ _
    · rename_i free
      refine .submit rfl fun k s u there => ?_
      unfold slot at there ⊢
      simp only [Function.update_apply]
      grind
  | sockRead s =>
    cases taken
    unfold implSockRead
    split
    · exact .taskNewFailed z _ _
    · rename_i free
      refine .submit rfl fun k s u there => ?_
      unfold slot at there ⊢
      simp only [Function.update_apply]
      grind
  | sockWrite s buf => cases taken; exact submitted _
  | sockClose s =>
    cases taken
    have made : Drops z (z.closeMade s) := (Drops.taskNew z _).trans (.same rfl rfl rfl rfl)
    exact made.trans (Works.implSockClose z s).toDrops
  | wait goal => cases goal <;> cases taken <;> exact given rfl rfl rfl rfl
  | cancel t =>
    cases taken
    exact Stable.ite (.refl z) (Stable.ite (Works.completeUnrun z t).toDrops
      (Stable.ite (Works.kick z t).toDrops (.refl z)))
  | taskResult t =>
    cases taken
    unfold implTaskResult
    split
    · exact given rfl rfl rfl rfl
    · exact .refl z
  | taskFree t =>
    cases taken
    refine Stable.ite (freed t (.refl z)) (Stable.ite (freed t (Works.completeUnrun z t).toDrops) ?_)
    have kicked : Drops z (if opInterruptible (z.task t).kind then z.on (ZPool.kick · t) else z) :=
      Stable.ite (Works.kick z t).toDrops (.refl z)
    exact kicked.trans (.same rfl rfl rfl rfl)
  | taskDetach t =>
    cases taken
    have dropped : ∀ v, Drops z ((z.dropHandle t).dropSock v) := by
      intro v
      cases v <;> exact given rfl rfl rfl rfl
    refine Stable.ite ((dropped _).trans (.reap _ t)) ?_
    refine .aside (Nat.le_refl _) (Nat.le_refl _) (fun u _ ended => ?_) fun _ _ _ _ => id
    simp only [on_toCore, modTask, dropHandle, Function.update_apply]
    grind
  | destroy => exact absurd rfl lives
  | resume => cases taken

namespace Works

/-- A new socket has nobody in its slots. -/
theorem sockLink (z : ZPool) (fd : Fd) : Works z (z.sockLink fd) := by
  refine ⟨.aside (Nat.le_refl _) (Nat.le_succ _) (fun _ _ => id) fun k s u made there => ?_, rfl,
    fun _ => rfl⟩
  unfold slot at there ⊢
  simpa [ZPool.sockLink, ZPool.on, Function.update_of_ne (Nat.ne_of_lt made)] using there

theorem wrapWon (z : ZPool) (res : Result) (newfd : Option Fd) (linked : Bool) :
    Works z (z.wrapWon res newfd linked).1 := by
  unfold ZPool.wrapWon
  split
  · exact .refl z
  · split
    · exact .sockLink z _
    · exact .plain rfl rfl rfl rfl

/-- The end of a commit: the task leaves its slot, and is done. -/
theorem commit (z : ZPool) (t : TaskId) (e e' : Result) :
    Works z ((z.settleSock t e).1.complete t e') := by
  have settled : (z.settleSock t e).1.ntask = z.ntask ∧ (z.settleSock t e).1.nsock = z.nsock ∧
      (∀ u, (z.settleSock t e).1.task u = z.task u) ∧
      ∀ k s u, u ≠ t → z.slot k s = some u → (z.settleSock t e).1.slot k s = some u := by
    have left : (z.leave t).ntask = z.ntask ∧ (z.leave t).nsock = z.nsock ∧
        (∀ u, (z.leave t).task u = z.task u) ∧
        ∀ k s u, u ≠ t → z.slot k s = some u → (z.leave t).slot k s = some u :=
      ⟨by rw [leave_rest], by rw [leave_rest], leave_task z t,
        fun k s u other there => leave_spares there other⟩
    rw [settleSock_eq]
    generalize z.leave t = y at left ⊢
    split
    · split
      · unfold ZPool.dropWon
        split <;> exact left
      · exact left
    · exact ⟨rfl, rfl, fun _ => rfl, fun _ _ _ _ => id⟩
  generalize (z.settleSock t e).1 = y at settled ⊢
  obtain ⟨ntask, nsock, task, slots⟩ := settled
  obtain ⟨self, others⟩ := complete_task y t e'
  obtain ⟨ntask', nsock', slot'⟩ := complete_rest y t e'
  refine ⟨⟨Nat.le_of_eq (ntask'.trans ntask).symm, Nat.le_of_eq (nsock'.trans nsock).symm,
    fun u _ ended => ?_, fun k s u _ _ there => ?_⟩, ntask'.trans ntask, fun u => ?_⟩
  · by_cases same : u = t
    · rw [same]; exact self
    · rw [others u same, task]; exact ended
  · by_cases same : u = t
    · exact .inr (same ▸ self)
    · rw [slot']; exact .inl (slots k s u same there)
  · rw [complete_kind, task]

theorem workerCommit (z : ZPool) (w : WorkerId) (t : TaskId) (res : Result) (newfd : Option Fd)
    (linked : Bool) : Works z (z.workerCommit w t res newfd linked) := by
  have back : Works z (z.on (·.setPc w .ready)) := .plain rfl rfl rfl rfl
  let y := z.on (·.setPc w .ready)
  let won := y.wrapWon res newfd linked
  have wrapped : Works z won.1 := back.trans (.wrapWon y res newfd linked)
  exact wrapped.trans (.commit won.1 t won.2 (won.1.settleSock t won.2).2)

theorem workerMain (z : ZPool) (w : WorkerId) : Works z (z.workerMain w) := by
  unfold ZPool.workerMain
  split
  · refine .same (fun u => ?_) rfl rfl rfl
    simp only [take, ZPool.on, setPc, modWorker, modTask, Function.update_apply]
    split
    · rename_i same; rw [same]; exact ⟨rfl, rfl⟩
    · exact ⟨rfl, rfl⟩
  · split <;> exact .plain rfl rfl rfl rfl

theorem workerStep {act : Pool.Act} (taken : z.workerStep w act = some z') : Works z z' := by
  obtain ⟨_, cases⟩ := workerStep_cases taken
  rcases cases with ⟨_, rfl⟩ | ⟨_, rfl⟩ | ⟨_, _, rfl⟩ | ⟨t, phase, _, ran⟩
  · exact .plain rfl rfl rfl rfl
  · have cleared : Works z (z.clearCurrent w) := .plain rfl rfl rfl rfl
    exact cleared.trans (.workerMain _ w)
  · exact .workerMain z w
  · rcases runStep_cases ran with goes | ⟨res, newfd, linked, _, rfl⟩ | ⟨_, rfl⟩
    · refine .same (fun u => ?_) ?_ ?_ ?_
      · rw [goes.task u]; exact ⟨rfl, rfl⟩
      all_goals rw [goes.rest]
      rfl
    · exact .workerCommit z w t res newfd linked
    · obtain ⟨self, others⟩ := complete_task (z.on (·.setPc w .ready)) t (rOk 0 none)
      obtain ⟨ntask, nsock, slot⟩ := complete_rest (z.on (·.setPc w .ready)) t (rOk 0 none)
      refine ⟨.aside (Nat.le_of_eq ntask.symm) (Nat.le_of_eq nsock.symm) (fun u _ ended => ?_)
        fun k s u _ => by rw [slot]; exact id, ntask, fun u => complete_kind _ t _ u⟩
      by_cases same : u = t
      · rw [same]; exact self
      · rw [others u same]; exact ended

theorem resume {linked : Bool} (taken : z.resume linked = some z') : Works z z' := by
  unfold ZPool.resume at taken
  split at taken
  · rename_i fd _
    cases taken
    unfold wrapListener
    split
    · exact (Works.sockLink z fd).trans (.plain rfl rfl rfl rfl)
    · exact .plain rfl rfl rfl rfl
  · cases taken
    unfold freeOn
    split
    · refine .same (fun u => ?_) rfl rfl rfl
      simp only [on_toCore, taskFreeMem, modTask, dropHandle, Function.update_apply]
      split
      · rename_i same; rw [same]; exact ⟨rfl, rfl⟩
      · exact ⟨rfl, rfl⟩
    · exact .refl z
  · cases taken
    unfold pollOn
    split
    · split
      · split <;> exact .plain rfl rfl rfl rfl
      · exact .plain rfl rfl rfl rfl
    · exact .plain rfl rfl rfl rfl
    · split
      · split <;> exact .plain rfl rfl rfl rfl
      · exact .plain rfl rfl rfl rfl
  · cases taken
    unfold stepOn
    split <;> exact .plain rfl rfl rfl rfl
  · cases taken
    unfold destroyOn
    split
    · refine .plain ?_ ?_ ?_ rfl
      all_goals rw [on_toCore, closeSocks_rest]
    · exact .refl z
  · cases taken

end Works

/-! ### New tasks -/

/-- A new read or accept that is not done is in its slot. -/
def Enters (z z' : ZPool) : Prop := ∀ k s t, (k = .opSockRead ∨ k = .opAccept) → z.ntask ≤ t →
  t < z'.ntask → (z'.task t).done = false → (z'.task t).kind = k → (z'.task t).sock = some s →
  z'.slot k s = some t

theorem Works.enters (works : Works z z') : Enters z z' := fun _ _ t _ old new _ _ _ => by
  rw [works.made] at new
  exact absurd new (Nat.not_lt_of_le old)

theorem enters_submit {k : Task} (ntask : y.ntask = z.ntask)
    (slot : ∀ s, k.sock = some s → k.kind = .opSockRead ∨ k.kind = .opAccept →
      y.slot k.kind s = some z.ntask) : Enters z (y.submit k) := by
  intro kind s t which old new isOpen isKind sock
  rw [submit_rest] at new isKind sock ⊢
  obtain rfl : t = z.ntask := by
    change t < y.ntask + 1 at new
    omega
  rw [← ntask] at isKind sock
  simp only [Function.update_self] at isKind sock
  have there := slot s sock (isKind ▸ which)
  rw [isKind] at there
  exact there

/-- A vtable call, other than destroy, puts its read or accept in the slot. -/
theorem call_enters {c : Call} (lives : c ≠ .destroy) (taken : z.call c = some z') : Enters z z' := by
  have submitted : ∀ k : Task, k.kind ≠ .opSockRead → k.kind ≠ .opAccept → Enters z (z.submit k) :=
    fun k notRead notAccept => enters_submit rfl fun _ _ which =>
      which.elim (fun isRead => absurd isRead notRead) fun isAccept => absurd isAccept notAccept
  have failed : ∀ k err, Enters z (z.taskNewFailed k err) := by
    intro k err kind s t _ old new isOpen
    obtain rfl : t = z.ntask := by
      change t < z.ntask + 1 at new
      omega
    simp [taskNewFailed, on, finish, modTask] at isOpen
  have given : ∀ {y : ZPool}, y.ntask = z.ntask → Enters z y := by
    intro y same kind s t _ old new
    rw [same] at new
    exact absurd new (Nat.not_lt_of_le old)
  cases c with
  | «open» fits => cases taken; exact Stable.ite (submitted _ (by simp) (by simp)) (failed _ _)
  | close known => cases taken; exact Stable.ite (submitted _ (by simp) (by simp)) (failed _ _)
  | read known => cases taken; exact Stable.ite (submitted _ (by simp) (by simp)) (failed _ _)
  | write known => cases taken; exact Stable.ite (submitted _ (by simp) (by simp)) (failed _ _)
  | sleep => cases taken; exact submitted _ (by simp) (by simp)
  | spawn => cases taken; exact submitted _ (by simp) (by simp)
  | tcpConnect fits => cases taken; exact Stable.ite (submitted _ (by simp) (by simp)) (failed _ _)
  | tcpListen => cases taken; exact given rfl
  | tcpAccept ls =>
    cases taken
    refine Stable.ite (failed _ _) (enters_submit rfl fun s sock _ => ?_)
    obtain rfl : ls = s := Option.some.inj sock
    simp [slot]
  | sockRead s =>
    cases taken
    refine Stable.ite (failed _ _) (enters_submit rfl fun s' sock _ => ?_)
    obtain rfl : s = s' := Option.some.inj sock
    simp [slot]
  | sockWrite s buf => cases taken; exact submitted _ (by simp) (by simp)
  | sockClose s =>
    -- The only new task is the close itself.
    cases taken
    have works := Works.implSockClose z s
    intro kind s' t which old new _ isKind
    obtain rfl : t = z.ntask := by
      rw [works.made] at new
      change t < z.ntask + 1 at new
      omega
    have isClose : ((z.closeMade s).task z.ntask).kind = .opSockClose := by
      simp [closeMade, on, taskNew, modSock]
    rw [works.kind, isClose] at isKind
    subst isKind
    simp at which
  | wait goal => cases goal <;> cases taken <;> exact given rfl
  | cancel t =>
    cases taken
    exact Stable.ite (given rfl) (Stable.ite (Works.completeUnrun z t).enters
      (Stable.ite (Works.kick z t).enters (given rfl)))
  | taskResult t =>
    cases taken
    unfold implTaskResult
    split <;> exact given rfl
  | taskFree t =>
    cases taken
    refine Stable.ite (given rfl) (Stable.ite (given (Works.completeUnrun z t).made) (given ?_))
    have kicked : Works z (if opInterruptible (z.task t).kind then z.on (ZPool.kick · t) else z) :=
      Stable.ite (Works.kick z t) (.refl z)
    exact kicked.made
  | taskDetach t =>
    cases taken
    have dropped : ∀ v, ((z.dropHandle t).dropSock v).ntask = z.ntask := by
      intro v
      cases v <;> rfl
    refine Stable.ite (given ?_) (given rfl)
    rw [on_toCore]
    unfold Core.reap
    split <;> exact dropped _
  | destroy => exact absurd rfl lives
  | resume => cases taken

/-! ### The invariant -/

/-- Every read and accept that is not done is in its socket's slot. -/
def Named (z : ZPool) : Prop := ∀ k s t, (k = .opSockRead ∨ k = .opAccept) → t < z.ntask →
  (z.task t).done = false → (z.task t).kind = k → (z.task t).sock = some s → z.slot k s = some t

theorem Named.drops (named : z.Named) (sound : Sound z.rest) (later : Later z.toCore z'.toCore)
    (drops : Drops z z') (enters : Enters z z') : z'.Named := by
  intro k s t which inside isOpen kind sock
  rcases Nat.lt_or_ge t z.ntask with old | new
  · obtain ⟨sameKind, sameSock, _⟩ := later.args t old
    have before : (z.task t).done = false := by
      cases ended : (z.task t).done with
      | false => rfl
      | true => rw [drops.done t old ended] at isOpen; cases isOpen
    rw [sameKind] at kind
    rw [sameSock] at sock
    have blocks : opOnSock (z.task t).kind = true := by
      rw [kind]; rcases which with rfl | rfl <;> rfl
    obtain ⟨u, there, live⟩ := sound.placed.sock_live t ⟨old, before, rfl⟩ blocks
    obtain rfl : u = s := Option.some.inj (there.symm.trans sock)
    have made : u < z.nsock := sound.linked.bound u live
    rcases drops.slot k u t old made (named k u t which old before kind sock) with kept | ended
    · exact kept
    · rw [ended] at isOpen; cases isOpen
  · exact enters k s t which new inside isOpen kind sock

end Myio.ZPool
