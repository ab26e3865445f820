import Myio.Loop.Sound

/-! How a task ends: it leaves its socket, its result is stored, and it may be reaped. -/

namespace Myio.Loop

open Function (update)

namespace Core

/-- The moment between two calls: nothing is in hand, and every FIFO's head is armed. -/
def rest (c : Core) : Cut := ⟨c, fun _ => false, fun _ => false⟩

/-- The moment at which one FIFO's head has not been armed. -/
def bareAt (c : Core) (s : SockId) : Cut := ⟨c, fun _ => false, fun u => u = s⟩

variable {r : Rules} {c : Core} {x : TaskId → Bool} {h : SockId → Bool} {t : TaskId} {s : SockId}
  {e : Result}

/-! ### The writes commute -/

theorem disarm_leaveSock (c : Core) (t : TaskId) :
    (c.disarm t).leaveSock t = (c.leaveSock t).disarm t := by
  have same : (c.disarm t).task t = c.task t := rfl
  unfold leaveSock
  rw [same]
  cases (c.task t).sock <;> rfl

theorem disarm_modTask (c : Core) (t u : TaskId) (f : Task → Task) :
    (c.modTask u f).disarm t = (c.disarm t).modTask u f := rfl

theorem disarm_sockRelease (c : Core) (t : TaskId) (s : SockId) :
    (c.sockRelease s).disarm t = (c.disarm t).sockRelease s := rfl

/-- A task that cannot complete is not taken off anything. -/
theorem disarm_eq (absent : t ∉ c.armed) : c.disarm t = c := by
  unfold disarm
  rw [List.erase_of_not_mem absent]

/-- The writes through a socket pointer that take a task out of its slot or FIFO. -/
theorem leaveSock_eq {f : Sock → Sock} (sock : (c.task t).sock = some s)
    (same : f (c.sock s) = { c.sock s with
      readTask := if (c.sock s).readTask = some t then none else (c.sock s).readTask
      acceptTask := if (c.sock s).acceptTask = some t then none else (c.sock s).acceptTask
      wq := (c.sock s).wq.erase t }) : c.leaveSock t = c.modSock s f := by
  unfold leaveSock modSock
  rw [sock, same]

/-- Writing a socket back as it is changes nothing. -/
theorem modSock_self (c : Core) (s : SockId) {f : Sock → Sock} (same : f (c.sock s) = c.sock s) :
    c.modSock s f = c := by
  unfold modSock
  rw [same, Function.update_eq_self]

/-- A task that is in no slot and no FIFO leaves nothing. -/
theorem leaveSock_self (reader : ∀ s, (c.task t).sock = some s → (c.sock s).readTask ≠ some t)
    (accepter : ∀ s, (c.task t).sock = some s → (c.sock s).acceptTask ≠ some t)
    (absent : ∀ s, (c.task t).sock = some s → t ∉ (c.sock s).wq) : c.leaveSock t = c := by
  cases sock : (c.task t).sock with
  | none => unfold leaveSock; rw [sock]
  | some s =>
    rw [leaveSock_eq sock (f := id), modSock_self _ _ rfl]
    simp [reader s sock, accepter s sock, List.erase_of_not_mem (absent s sock)]

/-! ### How each kind leaves its socket -/

/-- The one reader of a socket leaves by clearing the slot. -/
theorem Placed.leave_read (placed : c.Placed x h) (pending : c.Pending x t)
    (kind : (c.task t).kind = .taskSockRead) (sock : (c.task t).sock = some s) :
    c.leaveSock t = c.modSock s ({ · with readTask := none }) := by
  have live := placed.live t s pending (.inl sock)
  have reader := (placed.read s t live).mpr ⟨pending, kind, sock⟩
  have accepter : (c.sock s).acceptTask ≠ some t := fun there => by
    simpa [kind] using ((placed.accept s t live).mp there).2.1
  have absent : t ∉ (c.sock s).wq := fun there => by
    simpa [kind] using ((placed.fifo s t live).mp there).2.1
  refine leaveSock_eq sock ?_
  simp [reader, accepter, List.erase_of_not_mem absent]

/-- The one accepter of a socket leaves by clearing the slot. -/
theorem Placed.leave_accept (placed : c.Placed x h) (pending : c.Pending x t)
    (kind : (c.task t).kind = .taskAccept) (sock : (c.task t).sock = some s) :
    c.leaveSock t = c.modSock s ({ · with acceptTask := none }) := by
  have live := placed.live t s pending (.inl sock)
  have accepter := (placed.accept s t live).mpr ⟨pending, kind, sock⟩
  have reader : (c.sock s).readTask ≠ some t := fun there => by
    simpa [kind] using ((placed.read s t live).mp there).2.1
  have absent : t ∉ (c.sock s).wq := fun there => by
    simpa [kind] using ((placed.fifo s t live).mp there).2.1
  refine leaveSock_eq sock ?_
  simp [reader, accepter, List.erase_of_not_mem absent]

/-- A write leaves by being unlinked from the FIFO. -/
theorem Placed.leave_write (placed : c.Placed x h) (pending : c.Pending x t)
    (kind : (c.task t).kind = .taskSockWrite) (sock : (c.task t).sock = some s) :
    c.leaveSock t = c.modSock s fun k => { k with wq := wqRemove k.wq t } := by
  have live := placed.live t s pending (.inl sock)
  have reader : (c.sock s).readTask ≠ some t := fun there => by
    simpa [kind] using ((placed.read s t live).mp there).2.1
  have accepter : (c.sock s).acceptTask ≠ some t := fun there => by
    simpa [kind] using ((placed.accept s t live).mp there).2.1
  refine leaveSock_eq sock ?_
  simp [reader, accepter, wqRemove]

/-- The head of a FIFO leaves by being popped. -/
theorem Placed.leave_head (placed : c.Placed x h) (live : s ∈ c.socks) {rest : List TaskId}
    (wq : (c.sock s).wq = t :: rest) :
    c.leaveSock t = c.modSock s fun k => { k with wq := (wqPop k.wq).1 } := by
  obtain ⟨pending, kind, sock⟩ := (placed.fifo s t live).mp (by simp [wq])
  rw [placed.leave_write pending kind sock]
  unfold modSock
  simp [wqRemove, wqPop, wq]

/-- A task of another kind is in no slot and no FIFO. -/
theorem Placed.leave_other (placed : c.Placed x h) (pending : c.Pending x t)
    (read : (c.task t).kind ≠ .taskSockRead) (accept : (c.task t).kind ≠ .taskAccept)
    (write : (c.task t).kind ≠ .taskSockWrite) : c.leaveSock t = c := by
  have live : ∀ s, (c.task t).sock = some s → s ∈ c.socks := fun s sock =>
    placed.live t s pending (.inl sock)
  refine leaveSock_self (fun s sock there => ?_) (fun s sock there => ?_) fun s sock there => ?_
  · exact read ((placed.read s t (live s sock)).mp there).2.1
  · exact accept ((placed.accept s t (live s sock)).mp there).2.1
  · exact write ((placed.fifo s t (live s sock)).mp there).2.1

/-! ### Completion -/

/-- A task whose memory goes with its completion also lets go of a socket it won. -/
def reaped (c : Core) (t : TaskId) (e : Result) : Core :=
  match (c.task t).detached, e.ptr with
  | true, some s => (c.settle t e).sockRelease s
  | _, _ => c.settle t e

/-- Storing a result and reaping, as one write. -/
theorem finish_reapIfDetached (c : Core) (t : TaskId) (e : Result) :
    (c.finish t e).reapIfDetached t = c.reaped t e := by
  have finished : (c.finish t e).task t =
      { c.task t with res := e, done := true, dones := (c.task t).dones + 1 } := by
    simp [finish, modTask]
  unfold reapIfDetached reaped
  rw [finished]
  cases detached : (c.task t).detached with
  | false =>
    simp only [Bool.false_eq_true, if_false]
    unfold finish settle modTask settled
    simp [detached]
  | true =>
    simp only [if_true]
    unfold taskReap
    rw [finished]
    have freed : ∀ c' : Core, c'.task = (c.finish t e).task →
        c'.freeMem t = { c' with task := (c.settle t e).task } := by
      intro c' same
      unfold freeMem modTask
      rw [same, finished]
      simp [finish, settle, settled, modTask, detached]
    cases ptr : e.ptr with
    | none => exact freed _ rfl
    | some s => exact freed ((c.finish t e).sockRelease s) rfl

/-- A task that won no socket lets go of none. -/
theorem reaped_plain (c : Core) (t : TaskId) (ptr : e.ptr = none) :
    c.reaped t e = c.settle t e := by
  unfold reaped
  rw [ptr]
  cases (c.task t).detached <;> rfl

/-- When a result without a socket may be stored. -/
theorem Settles.plain (status : e.status ≠ .pending) (ptr : e.ptr = none)
    {bounded : Prop} (kind : (c.task t).kind ≠ .taskSockWrite ∨ e.status ≠ .ok) : c.Settles bounded x t e where
  status := status
  ptr s points := by rw [ptr] at points; cases points
  write _ isWrite okay := by
    rcases kind with other | failed
    · exact absurd isWrite other
    · exact absurd okay failed

/-- A task in hand is completed. -/
theorem settle_moves (submitted : t < c.ntask) (isOpen : (c.task t).done = false)
    (out : x t = true) (settles : c.Settles r.bounded x t e) (allowed : r.ends (c.task t).kind e)
    (live : ∀ s, e.ptr = some s → s ∈ c.socks) :
    Moves r ⟨c, x, h⟩ ⟨(c.finish t e).reapIfDetached t, update x t false, h⟩ := by
  have settled : Moves r ⟨c, x, h⟩ ⟨c.settle t e, update x t false, h⟩ :=
    .one (.settle submitted isOpen out settles allowed)
  rw [finish_reapIfDetached]
  unfold reaped
  split
  · -- Nobody will ask for the socket of a detached task.
    rename_i s detached ptr
    refine settled.snoc (.release ⟨live s ptr, fun u there refers => ?_⟩)
    have fields : ∀ v, (c.settle t e).task v =
        if v = t then Core.settled e (c.task t) else c.task v := by
      intro v; simp only [Core.settle, modTask, Function.update_apply]
    have isOpenU := there.2.1
    rw [fields] at isOpenU
    have other : u ≠ t := by rintro rfl; simp [Core.settled] at isOpenU
    rw [if_neg other] at isOpenU
    unfold Refers at refers
    rw [fields, if_neg other] at refers
    exact (settles.ptr s ptr).2.2.2 u there.1 isOpenU other refers
  · exact settled

/-- A task that cannot be in anyone's way leaves without exposing a FIFO. -/
theorem exposes_false (kind : (c.task t).kind ≠ .taskSockWrite ∨ (c.task t).sock = none) :
    c.exposes t = fun _ => false := by
  funext s
  unfold exposes
  rcases kind with other | none
  · simp [other]
  · simp [none]

/-- A pending task that was in hand for a while. -/
theorem Pending.back (pending : c.Pending x t) : update (update x t true) t false = x := by
  rw [Function.update_idem, ← pending.2.2, Function.update_eq_self]

/-- A pending task that is no write leaves its socket's slot. -/
theorem exit_moves (pending : c.Pending x t)
    (kind : (c.task t).kind ≠ .taskSockWrite ∨ (c.task t).sock = none) :
    Moves r ⟨c, x, h⟩ ⟨(c.leaveSock t).disarm t, update x t true, h⟩ := by
  have left : Moves r ⟨c, x, h⟩
      ⟨(c.disarm t).leaveSock t, update x t true, fun s => h s || c.exposes t s⟩ :=
    .one (.exit pending)
  rw [disarm_leaveSock, exposes_false kind] at left
  simpa using left

/-- A pending task that is no write leaves its socket's slot and is completed. -/
theorem complete_moves (pending : c.Pending x t)
    (kind : (c.task t).kind ≠ .taskSockWrite ∨ (c.task t).sock = none)
    (status : e.status ≠ .pending) (ptr : e.ptr = none)
    (plain : (c.task t).kind ≠ .taskSockWrite ∨ e.status ≠ .ok)
    (allowed : r.ends (c.task t).kind e) :
    Moves r ⟨c, x, h⟩ ⟨(((c.leaveSock t).disarm t).finish t e).reapIfDetached t, x, h⟩ := by
  have task : ((c.leaveSock t).disarm t).task = c.task := by rw [leaveSock_rest]; rfl
  have ntask : ((c.leaveSock t).disarm t).ntask = c.ntask := by rw [leaveSock_rest]; rfl
  have ended := settle_moves (r := r) (c := (c.leaveSock t).disarm t) (x := update x t true)
    (h := h) (t := t) (e := e) (by rw [ntask]; exact pending.1)
    (by rw [task]; exact pending.2.1) (by simp) (Settles.plain status ptr (by rw [task]; exact plain))
    (by rw [task]; exact allowed) (fun s points => by rw [ptr] at points; cases points)
  rw [pending.back] at ended
  exact (exit_moves pending kind).trans ended

end Core

end Myio.Loop
