import Myio.Pool.Code

/-! Equations for the composite writes of the pools' critical sections. -/

namespace Myio.Core

/-- Writing through the same pointer twice is one write. -/
theorem modTask_modTask (c : Core) (t : TaskId) (f g : Task → Task) :
    (c.modTask t f).modTask t g = c.modTask t (g ∘ f) := by
  simp [modTask]

theorem modSock_modSock (c : Core) (s : SockId) (f g : Sock → Sock) :
    (c.modSock s f).modSock s g = c.modSock s (g ∘ f) := by
  simp [modSock]

/-- A completed task's record: the result stored, and the memory gone if the task was detached. -/
def settled (res : Result) (k : Task) : Task :=
  { k with res, done := true, dones := k.dones + 1,
           frees := if k.detached then k.frees + 1 else k.frees }

/-- A task that won no socket is reaped by freeing it. -/
theorem reap_of_bare {c : Core} {t : TaskId} (bare : (c.task t).res.ptr = none) :
    c.reap t = c.taskFreeMem t := by
  unfold reap
  rw [bare]

/-- Completing a task with a result that carries no socket touches only that task. -/
theorem finish_reapIfDetached (c : Core) (t : TaskId) {res : Result} (bare : res.ptr = none) :
    (c.finish t res).reapIfDetached t = c.modTask t (settled res) := by
  unfold reapIfDetached
  split
  · rename_i detached
    rw [reap_of_bare (by simp [finish, modTask, bare]), taskFreeMem, finish, modTask_modTask]
    have : (c.task t).detached = true := by simpa [finish, modTask] using detached
    simp [modTask, settled, this]
  · rename_i attached
    have : (c.task t).detached = false := by simpa [finish, modTask] using attached
    simp [finish, modTask, settled, this]

/-- A write that fails at promotion touches only itself and its socket. -/
theorem failHead_eq (c : Core) (s : SockId) (n : TaskId) :
    Pool.failHead c s n =
      (c.modSock s fun k => { k with wq := k.wq.tail, inflight := k.inflight - 1 }).modTask n
        (settled (rErr EAGAIN)) := by
  unfold Pool.failHead
  rw [finish_reapIfDetached _ _ (rErr_ptr _), inflightDec, modSock_modSock]
  rfl

end Myio.Core
