import Myio.Pool.Commit

/-! With which results tasks have ended, and what that says of the sockets they were to close. -/

namespace Myio.Core

open Function (update)

/-- Every task that is done, the writes apart, has ended with a result that is allowed. -/
def Ended (o : OpKind → Result → Prop) (c : Core) : Prop :=
  ∀ t, t < c.ntask → (c.task t).done = true →
    (c.task t).kind = .opSockWrite ∨ o (c.task t).kind (c.task t).res

variable {o : OpKind → Result → Prop} {c c' : Core} {x x' : TaskId → Bool}
  {h h' : SockId → Bool}

/-- A change that ends no task. -/
theorem Ended.congr (ended : c.Ended o) (ntask : c'.ntask = c.ntask)
    (task : ∀ t, (c'.task t).kind = (c.task t).kind ∧ (c'.task t).done = (c.task t).done ∧
      (c'.task t).res = (c.task t).res) : c'.Ended o := by
  intro t inside done
  obtain ⟨kind, done', res⟩ := task t
  rw [kind, res]
  exact ended t (ntask ▸ inside) (done'.symm.trans done)

/-- A change of one record that ends no task. -/
theorem Ended.modTask (ended : c.Ended o) (t : TaskId) (f : Task → Task)
    (kind : (f (c.task t)).kind = (c.task t).kind) (done : (f (c.task t)).done = (c.task t).done)
    (res : (f (c.task t)).res = (c.task t).res) : (c.modTask t f).Ended o := by
  refine ended.congr rfl fun u => ?_
  simp only [Core.modTask, Function.update_apply]
  split
  · rename_i same; subst same; exact ⟨kind, done, res⟩
  · exact ⟨rfl, rfl, rfl⟩

/-- A task that is not done is added. -/
theorem Ended.taskNew (ended : c.Ended o) {k : Task} (isOpen : k.done = false) :
    (c.taskNew k).Ended o := by
  intro t inside done
  simp only [Core.taskNew] at done ⊢
  by_cases new : t = c.ntask
  · subst new
    rw [Function.update_self, isOpen] at done
    cases done
  · rw [Function.update_of_ne new] at done ⊢
    exact ended t (Nat.lt_of_le_of_ne (Nat.le_of_lt_succ inside) new) done

/-- One task ends. -/
theorem Ended.settled (ended : c.Ended o) {t : TaskId} {res : Result} (ntask : c'.ntask = c.ntask)
    (task : c'.task = update c.task t (Core.settled res (c.task t)))
    (allowed : (c.task t).kind = .opSockWrite ∨ o (c.task t).kind res) : c'.Ended o := by
  intro u inside done
  rw [task] at done ⊢
  by_cases same : u = t
  · subst same; rw [Function.update_self]; exact allowed
  · rw [Function.update_of_ne same] at done ⊢
    exact ended u (ntask ▸ inside) done

/-- Every move ends tasks with allowed results only. -/
theorem Ended.move (move : Move o ⟨c, x, h⟩ ⟨c', x', h'⟩) (ended : c.Ended o)
    (placed : c.Placed x h) : c'.Ended o := by
  have same : ∀ t, (c.task t).kind = (c.task t).kind ∧ (c.task t).done = (c.task t).done ∧
      (c.task t).res = (c.task t).res := fun _ => ⟨rfl, rfl, rfl⟩
  cases move with
  | stir stirred => rw [stirred.rest]; exact ended.congr rfl same
  | exit pending unstarted => rw [leaveSock_rest, queueRemove_rest]; exact ended.congr rfl same
  | exitRun at_ pending => rw [leaveSock_rest]; exact ended.congr rfl same
  | settle submitted open_ out settles allowed => exact ended.settled rfl rfl (.inr allowed)
  | fail live bare usable wq =>
    -- Only a write can be the head of a FIFO.
    rename_i s n rest
    have isWrite := ((placed.wq_mem s n live).mp (by simp [wq])).2.1
    rw [failHead_eq]
    exact ended.settled (t := n) rfl rfl (.inl isWrite)
  | create fresh => exact ended.taskNew fresh.done
  | createClose live open_ mine => exact ended.taskNew rfl
  | enqueue submitted open_ unstarted out kind live onSock =>
    split <;> exact ended.congr rfl same
  | take queue inside free =>
    rename_i w t rest
    exact ended.modTask t (fun k => { k with started := true, worker := some w }) rfl rfl rfl
  | flag => exact ended.modTask _ _ rfl rfl rfl
  | send at_ fits =>
    rename_i w t off n
    exact ended.modTask t (fun k => { k with sent := off + n }) rfl rfl rfl
  | detach open_ held => exact ended.modTask _ ({ · with detached := true }) rfl rfl rfl
  | free done held => exact ended.modTask _ (fun k => { k with frees := k.frees + 1 }) rfl rfl rfl
  | sweep idle => rw [closeSocks_rest]; exact ended.congr rfl same
  | _ => exact ended.congr rfl same

theorem Ended.moves {a b : Cut} (moves : Moves o a b) (sound : Sound a) (ended : a.core.Ended o) :
    b.core.Ended o := by
  induction moves with
  | refl => exact ended
  | snoc before move ih => exact ih.move move (sound.moves before).placed

/-! ### All or nothing -/

/-- The results of a close task that mean the socket is gone. -/
def closesWell (k : OpKind) (res : Result) : Prop := k = .opSockClose → res.status = .ok

/--
A `sock_close` that is done has succeeded and its socket is unlinked and its descriptor closed, or
it has not and the socket can be used as before.
-/
def AllOrNothing (c : Core) : Prop :=
  ∀ t s, t < c.ntask → (c.task t).kind = .opSockClose → (c.task t).sock = some s →
    (c.task t).done = true →
    ((c.task t).res.status = .ok ∧ s ∉ c.socks ∧ 0 < (c.desc (c.sock s).fd).closes) ∨
      ((c.task t).res.status ≠ .ok ∧ s ∈ c.socks ∧ (c.sock s).closing = false)

/-- Where every close ends well, every close is all or nothing. -/
theorem allOrNothing_of_ended (sound : Sound c.rest) (ended : c.Ended closesWell) :
    c.AllOrNothing := by
  intro t s inside isClose sock done
  have isOk : (c.task t).res.status = .ok := by
    rcases ended t inside done with isWrite | well
    · rw [isClose] at isWrite; cases isWrite
    · exact well isClose
  have closes : c.Closes fun _ => false := sound.closes
  obtain ⟨unlinked, _, closed⟩ := closes.closed t s inside isClose sock done isOk
  exact .inl ⟨isOk, unlinked, closed⟩

end Myio.Core
