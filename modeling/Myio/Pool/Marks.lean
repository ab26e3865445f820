import Myio.Pool.Sockets

/-! What a closing mark, an unlinked socket and a delivered socket tell. -/

namespace Myio.Core

open Function (update)

/-- Only what the caller was given is closing, what is unlinked has no write left, and only a
successful task delivers a socket. -/
structure Marks (c : Core) : Prop where
  claimed : ∀ s, s < c.nsock → (c.sock s).closing = true → c.claimed s = true
  vacant : ∀ s, s < c.nsock → s ∉ c.socks → (c.sock s).wq = []
  delivered : ∀ t s, t < c.ntask → (c.task t).res.ptr = some s → (c.task t).res.status = .ok

variable {o : OpKind → Result → Prop} {c c' : Core} {x x' : TaskId → Bool} {h h' : SockId → Bool}

/-- A change that neither marks, unlinks nor makes a socket, and ends no task. -/
theorem Marks.congr (marks : c.Marks) (nsock : c'.nsock = c.nsock) (ntask : c'.ntask = c.ntask)
    (socks : ∀ s, s ∈ c.socks → s ∈ c'.socks)
    (closing : ∀ s, (c'.sock s).closing = true → (c.sock s).closing = true)
    (claimed : ∀ s, (c.sock s).closing = true → c.claimed s = true → c'.claimed s = true)
    (wq : ∀ s, (c.sock s).wq = [] → s ∉ c.socks → (c'.sock s).wq = [])
    (res : ∀ t, (c'.task t).res = (c.task t).res) : c'.Marks := by
  constructor
  case claimed =>
    intro s made marked
    exact claimed s (closing s marked) (marks.claimed s (nsock ▸ made) (closing s marked))
  case vacant =>
    intro s made outside
    have outside : s ∉ c.socks := fun live => outside (socks s live)
    exact wq s (marks.vacant s (nsock ▸ made) outside) outside
  case delivered =>
    intro t s inside ptr
    rw [res] at ptr ⊢
    exact marks.delivered t s (ntask ▸ inside) ptr

/-- A change of what the marks do not depend on. -/
theorem Marks.same (marks : c.Marks) (nsock : c'.nsock = c.nsock) (ntask : c'.ntask = c.ntask)
    (socks : c'.socks = c.socks) (sock : c'.sock = c.sock) (claimed : c'.claimed = c.claimed)
    (res : ∀ t, (c'.task t).res = (c.task t).res) : c'.Marks := by
  refine marks.congr nsock ntask ?_ ?_ ?_ ?_ res
  · rw [socks]; exact fun _ => id
  · rw [sock]; exact fun _ => id
  · rw [claimed]; exact fun _ _ => id
  · rw [sock]; exact fun _ empty _ => empty

/-- A socket leaves the list with no write in its FIFO. -/
theorem Marks.unlinked (marks : c.Marks) (linked : c.Linked) {s : SockId} (nsock : c'.nsock = c.nsock)
    (ntask : c'.ntask = c.ntask) (socks : c'.socks = (c.sockUnlink s).socks)
    (sock : ∀ u, (c'.sock u).closing = (c.sock u).closing ∧ (c'.sock u).wq = (c.sock u).wq)
    (claimed : c'.claimed = c.claimed) (res : ∀ t, (c'.task t).res = (c.task t).res)
    (empty : s ∈ c.socks → (c.sock s).wq = []) : c'.Marks := by
  constructor
  case claimed =>
    intro u made marked
    rw [claimed]
    exact marks.claimed u (nsock ▸ made) ((sock u).1 ▸ marked)
  case vacant =>
    intro u made outside
    rw [(sock u).2]
    by_cases live : u ∈ c.socks
    · have same : u = s := by
        by_contra other
        exact outside (socks ▸ (linked.mem_unlink s u).mpr ⟨other, live⟩)
      subst same
      exact empty live
    · exact marks.vacant u (nsock ▸ made) live
  case delivered =>
    intro t u inside ptr
    rw [res] at ptr ⊢
    exact marks.delivered t u (ntask ▸ inside) ptr

/-- A task's record changes without its result. -/
theorem Marks.modTask (marks : c.Marks) (t : TaskId) (f : Task → Task)
    (res : (f (c.task t)).res = (c.task t).res) : (c.modTask t f).Marks := by
  refine marks.same rfl rfl rfl rfl rfl fun u => ?_
  simp only [Core.modTask, Function.update_apply]
  split
  · rename_i same; subst same; exact res
  · rfl

/-- A task ends. -/
theorem Marks.ended (marks : c.Marks) {t : TaskId} (res : Result) (won : res.ptr ≠ none → res.status = .ok)
    (nsock : c'.nsock = c.nsock) (ntask : c'.ntask = c.ntask) (socks : c'.socks = c.socks)
    (sock : ∀ s, (c'.sock s).closing = (c.sock s).closing ∧
      ((c.sock s).wq = [] → (c'.sock s).wq = []))
    (claimed : c'.claimed = c.claimed)
    (task : ∀ u, (c'.task u).res = if u = t then res else (c.task u).res) : c'.Marks := by
  constructor
  case claimed =>
    intro s made marked
    rw [claimed]
    exact marks.claimed s (nsock ▸ made) ((sock s).1 ▸ marked)
  case vacant =>
    intro s made outside
    exact (sock s).2 (marks.vacant s (nsock ▸ made) (socks ▸ outside))
  case delivered =>
    intro u s inside ptr
    rw [task] at ptr ⊢
    split at ptr
    · rename_i same; rw [if_pos same]; exact won (by rw [ptr]; simp)
    · rename_i other; rw [if_neg other]; exact marks.delivered u s (ntask ▸ inside) ptr

/-- A FIFO that has no member stays empty when a task leaves. -/
theorem leaveSock_empty (c : Core) (t : TaskId) (s : SockId) (empty : (c.sock s).wq = []) :
    ((c.leaveSock t).sock s).wq = [] := by
  rw [leaveSock_wq, empty]
  split <;> rfl

/-- Every move keeps what the marks tell. -/
theorem Marks.move (move : Move o ⟨c, x, h⟩ ⟨c', x', h'⟩) (marks : c.Marks) (placed : c.Placed x h)
    (linked : c.Linked) : c'.Marks := by
  have lost : ∀ s, s ∈ c.socks → (∀ t, c.Pending x t → opOnSock (c.task t).kind →
      (c.task t).sock ≠ some s) → (c.sock s).wq = [] := by
    intro s live unused
    refine List.eq_nil_iff_forall_not_mem.mpr fun t there => ?_
    obtain ⟨pending, isWrite, sock⟩ := (placed.wq_mem s t live).mp there
    exact unused t pending (by rw [isWrite]; rfl) sock
  cases move with
  | stir stirred => rw [stirred.rest]; exact marks.same rfl rfl rfl rfl rfl fun _ => rfl
  | exit pending unstarted =>
    have shared := queueRemove_rest c
    rw [leaveSock_rest]
    refine marks.congr ?_ ?_ ?_ (fun s => ?_) ?_ (fun s empty _ => leaveSock_empty _ _ s ?_) ?_
    all_goals try rw [leaveSock_sock]
    all_goals rw [shared]
    · exact fun _ => id
    · exact id
    · exact fun _ _ => id
    · exact empty
    · exact fun _ => rfl
  | exitRun at_ pending =>
    rw [leaveSock_rest]
    refine marks.congr rfl rfl (fun _ => id) (fun s => ?_) (fun _ _ => id)
      (fun s empty _ => leaveSock_empty _ _ s empty) fun _ => rfl
    rw [leaveSock_sock]
    exact id
  | settle submitted open_ out settles allowed =>
    rename_i t res
    refine marks.ended (t := t) res settles.status.2 rfl rfl rfl (fun _ => ⟨rfl, id⟩) rfl fun u => ?_
    simp only [Core.settle, Core.modTask, Function.update_apply, settled]
    split <;> rfl
  | fail live bare usable wq =>
    rename_i s t rest
    rw [failHead_eq]
    refine marks.ended (t := t) (rErr EAGAIN) (by simp) rfl rfl rfl (fun u => ?_) rfl fun u => ?_
    · simp only [Core.modTask, modSock, Function.update_apply]
      grind
    · simp only [Core.modTask, modSock, Function.update_apply, settled]
      split <;> rfl
  | create fresh =>
    rename_i k
    refine ⟨marks.claimed, marks.vacant, fun t s inside ptr => ?_⟩
    by_cases new : t = c.ntask
    · subst new; simp [taskNew, fresh.res] at ptr
    · simp only [taskNew, Function.update_of_ne new] at ptr ⊢
      exact marks.delivered t s (Nat.lt_of_le_of_ne (Nat.le_of_lt_succ inside) new) ptr
  | createClose live open_ mine =>
    rename_i s
    refine ⟨fun u made marked => ?_, fun u made outside => ?_, fun t u inside ptr => ?_⟩
    · by_cases same : u = s
      · subst same; exact mine
      · refine marks.claimed u made ?_
        simpa [taskNew, modSock, same] using marked
    · by_cases same : u = s
      · subst same; exact absurd live outside
      · simpa [taskNew, modSock, same] using marks.vacant u made outside
    · by_cases new : t = c.ntask
      · subst new; simp [taskNew, modSock] at ptr
      · simp only [taskNew, modSock, Function.update_of_ne new] at ptr ⊢
        exact marks.delivered t u (Nat.lt_of_le_of_ne (Nat.le_of_lt_succ inside) new) ptr
  | enqueue submitted open_ unstarted out kind live onSock =>
    split
    · refine marks.congr rfl rfl (fun _ => id) (fun u => ?_) (fun _ _ => id) (fun u empty _ => ?_)
        fun _ => rfl <;> simp only [queuePush, inflightInc, modSock, Function.update_apply]
      · grind
      · grind
    · exact marks.same rfl rfl rfl rfl rfl fun _ => rfl
  | park submitted open_ unstarted out kind sock live usable =>
    refine marks.congr rfl rfl (fun _ => id) (fun u => ?_) (fun _ _ => id) (fun u empty outside => ?_)
      fun _ => rfl <;> simp only [inflightInc, modSock, Function.update_apply]
    · grind
    · grind
  | take queue inside free =>
    rename_i w t rest
    exact (marks.modTask t (fun k => { k with started := true, worker := some w }) rfl).same
      rfl rfl rfl rfl rfl fun _ => rfl
  | flag => exact marks.modTask _ _ rfl
  | send at_ fits =>
    rename_i w t off n
    exact (marks.modTask t (fun k => { k with sent := off + n }) rfl).same rfl rfl rfl rfl rfl
      fun _ => rfl
  | link loose =>
    refine ⟨fun s made marked => ?_, fun s made outside => ?_, marks.delivered⟩
    · by_cases new : s = c.nsock
      · subst new; simp [sockLink] at marked
      · simp only [sockLink, Function.update_of_ne new] at marked
        exact marks.claimed s (Nat.lt_of_le_of_ne (Nat.le_of_lt_succ made) new) marked
    · by_cases new : s = c.nsock
      · subst new; simp [sockLink] at outside
      · simp only [sockLink, Function.update_of_ne new]
        refine marks.vacant s (Nat.lt_of_le_of_ne (Nat.le_of_lt_succ made) new) fun live => ?_
        exact outside (List.mem_cons_of_mem _ live)
  | discard unused =>
    rename_i s
    refine marks.unlinked linked (s := s) rfl rfl rfl (fun u => ?_) rfl (fun _ => rfl) fun live =>
      lost s live fun t pending _ => unused.tasks t pending
    simp only [sockDiscard, sockFree, modSock, closeDesc, modDesc, sockUnlink, Function.update_apply]
    grind
  | unlink at_ sock unused =>
    rename_i w t s
    exact marks.unlinked linked (s := s) rfl rfl rfl (fun _ => ⟨rfl, rfl⟩) rfl (fun _ => rfl)
      fun live => lost s live unused
  | freeSock at_ sock =>
    refine marks.congr rfl rfl (fun _ => id) (fun u => ?_) (fun _ _ => id) (fun u empty _ => ?_)
      fun _ => rfl <;> simp only [setPc, modWorker, sockFree, modSock, Function.update_apply]
    · grind
    · grind
  | detach open_ held =>
    exact (marks.modTask _ ({ · with detached := true }) rfl).same rfl rfl rfl rfl rfl fun _ => rfl
  | free done held =>
    exact (marks.modTask _ (fun k => { k with frees := k.frees + 1 }) rfl).same rfl rfl rfl rfl rfl
      fun _ => rfl
  | claim bound live =>
    refine marks.congr rfl rfl (fun _ => id) (fun _ => id) (fun u _ before => ?_)
      (fun _ empty _ => empty) fun _ => rfl
    simp only [Function.update_apply]
    split
    · rfl
    · exact before
  | unclaim usable =>
    rename_i s
    refine marks.congr rfl rfl (fun _ => id) (fun _ => id) (fun u marked before => ?_)
      (fun _ empty _ => empty) fun _ => rfl
    have other : u ≠ s := by rintro rfl; exact Bool.noConfusion (usable.symm.trans marked)
    simpa [other] using before
  | sweep idle =>
    rw [closeSocks_rest]
    refine ⟨fun s made marked => ?_, fun s made _ => ?_, marks.delivered⟩
    · exact marks.claimed s made ((closeSocks_closing c c.socks s).symm.trans marked)
    · rw [closeSocks_wq]
      by_cases live : s ∈ c.socks
      · exact lost s live fun t pending _ _ => idle t pending
      · exact marks.vacant s made live
  | _ => exact marks.same rfl rfl rfl rfl rfl fun _ => rfl

end Myio.Core
