import Myio.Pool.Moves

/-! How often a task is completed and released, and who may still name it. -/

namespace Myio

/-- The history of one task, given whether the caller still holds its handle. -/
structure Life (k : Task) (held : Bool) : Prop where
  status : k.done = true ↔ k.res.status ≠ .pending
  dones : k.dones = if k.done then 1 else 0
  frees : k.frees = if k.done && !held then 1 else 0
  owned : k.done = false → held = !k.detached
  detached : k.detached = true → held = false

namespace Life

variable {k : Task} {held : Bool}

/-- A change of the other fields does not touch a task's history. -/
theorem congr (life : Life k held) {k' : Task} (done : k'.done = k.done) (res : k'.res = k.res)
    (dones : k'.dones = k.dones) (frees : k'.frees = k.frees) (detached : k'.detached = k.detached) :
    Life k' held := by
  obtain ⟨status, once, freed, owned, apart⟩ := life
  constructor <;> simp_all

/-- A task is completed once, and released on the spot if the caller has detached it. -/
theorem settled (life : Life k held) {res : Result} (open_ : k.done = false)
    (status : res.status ≠ .pending) : Life (Core.settled res k) held := by
  obtain ⟨_, once, freed, owned, apart⟩ := life
  have held_eq := owned open_
  constructor <;> simp_all [Core.settled]

/-- The caller gives up the handle of a task still at work. -/
theorem detach (life : Life k held) (open_ : k.done = false) :
    Life { k with detached := true } false := by
  obtain ⟨status, once, freed, owned, apart⟩ := life
  constructor <;> simp_all

/-- The caller frees a completed task. -/
theorem free (life : Life k true) (done : k.done = true) :
    Life { k with frees := k.frees + 1 } false := by
  obtain ⟨status, once, freed, owned, apart⟩ := life
  constructor <;> simp_all

end Life

namespace Core

/-- Every submitted task has a sound history, and only submitted tasks are held. -/
structure Lives (c : Core) : Prop where
  each : ∀ t, t < c.ntask → Life (c.task t) (c.held t)
  bound : ∀ t, c.held t = true → t < c.ntask

section Frame

variable {c c' : Core}

/-- A change of what the invariant does not read. -/
theorem Lives.same (lives : c.Lives) (ntask : c'.ntask = c.ntask) (task : c'.task = c.task)
    (held : c'.held = c.held) : c'.Lives := by
  constructor
  · rw [ntask, task, held]; exact lives.each
  · rw [ntask, held]; exact lives.bound

/-- A change of one task's record that its history allows. -/
theorem Lives.modTask (lives : c.Lives) (t : TaskId) (f : Task → Task)
    (sound : t < c.ntask → Life (f (c.task t)) (c.held t)) : (c.modTask t f).Lives := by
  refine ⟨fun u inside => ?_, lives.bound⟩
  simp only [Core.modTask, Function.update_apply]
  split
  · rename_i same; subst same; exact sound inside
  · exact lives.each u inside

/-- A new task's history is empty, and the caller holds it. -/
theorem Lives.taskNew (lives : c.Lives) {k : Task} (done : k.done = false)
    (res : k.res = rPending) (dones : k.dones = 0) (frees : k.frees = 0)
    (detached : k.detached = false) : (c.taskNew k).Lives := by
  constructor
  · intro u inside
    simp only [Core.taskNew, Function.update_apply] at inside ⊢
    split
    · constructor <;> simp [done, res, dones, frees, detached]
    · rename_i other
      exact lives.each u (Nat.lt_of_le_of_ne (Nat.le_of_lt_succ inside) other)
  · intro u held
    simp only [Core.taskNew, Function.update_apply] at held ⊢
    split at held
    · rename_i same; subst same; exact Nat.lt_succ_self _
    · exact Nat.lt_succ_of_lt (lives.bound u held)

/-- The caller gives a handle up, and the task's record changes with it. -/
theorem Lives.drop (lives : c.Lives) (t : TaskId) (f : Task → Task)
    (sound : t < c.ntask → Life (f (c.task t)) false) :
    Lives { c.modTask t f with held := Function.update c.held t false } := by
  constructor
  · intro u inside
    simp only [Core.modTask, Function.update_apply]
    split
    · rename_i same; subst same; exact sound inside
    · exact lives.each u inside
  · intro u held
    simp only [Function.update_apply] at held
    split at held
    · cases held
    · exact lives.bound u held

end Frame

/-- Every move keeps the tasks' histories sound. -/
theorem Lives.move {o : OpKind → Result → Prop} {c c' : Core} {x x' : TaskId → Bool}
    {h h' : SockId → Bool} (move : Move o ⟨c, x, h⟩ ⟨c', x', h'⟩) (lives : c.Lives)
    (fifo : ∀ s t, s ∈ c.socks → t ∈ (c.sock s).wq → (c.task t).done = false) : c'.Lives := by
  cases move with
  | settle submitted open_ out settles allowed =>
    rename_i t res
    exact (lives.modTask t _ fun inside =>
      (lives.each t inside).settled open_ settles.status.1).same rfl rfl rfl
  | fail live bare usable wq =>
    rename_i s n rest
    have open_ := fifo s n live (by simp [wq])
    rw [failHead_eq]
    have popped : (c.modSock s fun k =>
        { k with wq := k.wq.tail, inflight := k.inflight - 1 }).Lives := lives.same rfl rfl rfl
    exact popped.modTask n _ fun inside => (lives.each n inside).settled open_ (by simp)
  | create fresh =>
    exact lives.taskNew fresh.done fresh.res fresh.dones fresh.frees fresh.detached
  | createClose live open_ mine =>
    exact (lives.taskNew rfl rfl rfl rfl rfl).same rfl rfl rfl
  | detach open_ held =>
    exact lives.drop _ _ fun inside => (lives.each _ inside).detach open_
  | free done held =>
    exact lives.drop _ _ fun inside => (held ▸ lives.each _ inside).free done
  | take queue inside free =>
    rename_i w t rest
    exact (lives.modTask t (fun k => { k with started := true, worker := some w }) fun inside =>
      (lives.each t inside).congr rfl rfl rfl rfl rfl).same rfl rfl rfl
  | flag => exact lives.modTask _ _ fun inside => (lives.each _ inside).congr rfl rfl rfl rfl rfl
  | send at_ fits =>
    rename_i w t off n
    exact (lives.modTask t (fun k => { k with sent := off + n }) fun inside =>
      (lives.each t inside).congr rfl rfl rfl rfl rfl).same rfl rfl rfl
  | stir stirred => rw [stirred.rest]; exact lives.same rfl rfl rfl
  | exit pending unstarted =>
    rw [leaveSock_rest, queueRemove_rest]; exact lives.same rfl rfl rfl
  | exitRun at_ pending => rw [leaveSock_rest]; exact lives.same rfl rfl rfl
  | enqueue submitted open_ unstarted out kind live onSock =>
    split <;> exact lives.same rfl rfl rfl
  | sweep idle => rw [closeSocks_rest]; exact lives.same rfl rfl rfl
  | _ => exact lives.same rfl rfl rfl

end Core

end Myio
