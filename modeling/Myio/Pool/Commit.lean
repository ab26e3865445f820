import Myio.Pool.Sound

/-! The end of a task on a worker, as far as the two pools have it in common. -/

namespace Myio

open Function (update)

namespace Core

/-- The cut between two critical sections. -/
def rest (c : Core) : Cut := ⟨c, fun _ => false, fun _ => false⟩

/-- Once the instance is being destroyed, no task waits for a worker any more. -/
def WoundDown (c : Core) : Prop :=
  c.shutdown = true → c.queue = [] ∧ ∀ t, c.Pending (fun _ => false) t → (c.task t).started = true

/-- A socket linked just now, for the task that is about to deliver it. -/
structure Won (c : Core) (s : SockId) : Prop where
  live : s ∈ c.socks
  tasks : ∀ t, t < c.ntask → (c.task t).sock ≠ some s
  ptrs : ∀ t, t < c.ntask → (c.task t).res.ptr ≠ some s
  unclaimed : c.claimed s = false
  usable : (c.sock s).closing = false

/-- A won socket that nobody will get is closed. -/
def dropWon (c : Core) (res : Result) : Core :=
  match res.ptr with
  | some s => c.sockDiscard s
  | none => c

/-- The last lines of a commit: the result is stored, and a detached task is reaped. -/
def conclude (c : Core) (t : TaskId) (res : Result) : Core :=
  { c.finish t res with nrunning := c.nrunning - 1 }.reapIfDetached t

/-- The end of a commit: on a closing socket the result gives way to `MYIO_CANCELED`. -/
def commit (c : Core) (t : TaskId) (res : Result) : Core :=
  if opOnSock (c.task t).kind && (c.sock (c.sockOf t)).closing
  then (c.dropWon res).conclude t rCanceled else c.conclude t res

variable {o : OpKind → Result → Prop} {c : Core} {x : TaskId → Bool} {h : SockId → Bool}
  {t : TaskId} {res : Result} {s : SockId} {fd : Fd}

/-- A new socket is known to nobody yet. -/
theorem won_of_link (sound : Sound ⟨c, x, h⟩) (fd : Fd) : (c.sockLink fd).Won c.nsock := by
  constructor
  case live => simp [sockLink]
  case tasks =>
    intro t inside sock
    exact Nat.lt_irrefl _ (sound.closes.sock_bound t c.nsock inside sock)
  case ptrs =>
    intro t inside ptr
    exact Nat.lt_irrefl _ (sound.claims.ptr_bound t c.nsock inside ptr)
  case unclaimed =>
    rw [← Bool.not_eq_true]
    exact fun claimed => Nat.lt_irrefl _ (sound.claims.claimed_bound c.nsock claimed)
  case usable => simp [sockLink]

/-- Leaving one socket and linking another are independent. -/
theorem leaveSock_sockLink (other : opOnSock (c.task t).kind → c.sockOf t ≠ c.nsock) :
    (c.sockLink fd).leaveSock t = (c.leaveSock t).sockLink fd := by
  by_cases blocks : opOnSock (c.task t).kind = true
  · have blocks' : opOnSock ((c.sockLink fd).task t).kind = true := blocks
    have sockOf : (c.sockLink fd).sockOf t = c.sockOf t := rfl
    have differ := other blocks
    unfold leaveSock
    rw [if_pos blocks, if_pos blocks', sockOf]
    simp only [modSock, sockLink, Function.update_of_ne differ]
    rw [Function.update_comm differ.symm]
  · have blocks' : ¬ opOnSock ((c.sockLink fd).task t).kind = true := blocks
    unfold leaveSock
    rw [if_neg blocks, if_neg blocks']

/-- Leaving a socket and closing a descriptor are independent. -/
theorem leaveSock_closeDesc (c : Core) (t : TaskId) (fd : Fd) :
    (c.closeDesc fd).leaveSock t = (c.leaveSock t).closeDesc fd := by
  unfold leaveSock
  by_cases blocks : opOnSock (c.task t).kind = true
  · rw [if_pos blocks]; exact if_pos blocks
  · rw [if_neg blocks]; exact if_neg blocks

/-- A task that leaves its socket takes no descriptor with it. -/
theorem Loose.leaveSock (loose : c.Loose fd) (t : TaskId) : (c.leaveSock t).Loose fd := by
  obtain ⟨bound, other, worker, wrapping, wire⟩ := loose
  have fds : ∀ s, ((c.leaveSock t).sock s).fd = (c.sock s).fd := fun s => by rw [leaveSock_sock]
  rw [leaveSock_rest]
  exact ⟨bound, fun s made => by dsimp only; rw [fds]; exact other s made, worker, wrapping, wire⟩

/-- A won socket may be closed again. -/
theorem Won.unused (won : c.Won s) (lives : c.Lives) : c.Unused x s where
  live := won.live
  tasks t pending := won.tasks t pending.1
  handles := .inr ⟨won.unclaimed, fun t held => won.ptrs t (lives.bound t held)⟩

/-- What a result has to meet before a worker may store it. -/
structure Ends (c : Core) (t : TaskId) (res : Result) : Prop where
  status : res.status ≠ .pending ∧ (res.ptr ≠ none → res.status = .ok)
  won : ∀ s, res.ptr = some s → c.Won s
  closed : (c.task t).kind = .opSockClose → ∀ s, (c.task t).sock = some s →
    s ∉ c.socks ∧ (c.sock s).frees = 1 ∧ 0 < (c.desc (c.sock s).fd).closes
  write : (c.task t).kind = .opSockWrite → res.status = .ok →
    (c.task t).sent = (c.task t).buf.length ∧ res.value = (c.task t).buf.length

/-- Storing a result and reaping the task is closing what it won, then settling. -/
theorem conclude_eq (started : (c.task t).started = true) :
    c.conclude t res = (if (c.task t).detached then c.dropWon res else c).settle t res := by
  have detached : ({ c.finish t res with nrunning := c.nrunning - 1 }.task t).detached =
      (c.task t).detached := by simp [finish, modTask]
  unfold conclude reapIfDetached
  rw [detached]
  split
  · rename_i isDetached
    have ptr : ({ c.finish t res with nrunning := c.nrunning - 1 }.task t).res.ptr = res.ptr := by
      simp [finish, modTask]
    unfold reap dropWon
    rw [ptr]
    cases res.ptr with
    | none => simp [taskFreeMem, finish, modTask, settle, settled, isDetached, started]
    | some s =>
      simp [taskFreeMem, finish, modTask, settle, settled, isDetached, started, sockDiscard,
        sockFree, modSock, closeDesc, modDesc, sockUnlink]
  · rename_i isHeld
    simp [finish, modTask, settle, settled, isHeld, started]

/-- The end of a task on a worker, with a result that stands. -/
theorem conclude_spec (sound : Sound ⟨c, x, h⟩) (submitted : t < c.ntask)
    (isOpen : (c.task t).done = false) (started : (c.task t).started = true) (out : x t = true)
    (ends : c.Ends t res)
    (closing : opOnSock (c.task t).kind → ∀ s, (c.task t).sock = some s →
      (c.sock s).closing = true → res.status = .canceled)
    (allowed : o (c.task t).kind res) :
    Moves o ⟨c, x, h⟩ ⟨c.conclude t res, update x t false, h⟩ := by
  have settles : c.Settles t res := by
    refine ⟨ends.status, fun s ptr => ?_, fun isClose s sock => ?_, closing, ends.write⟩
    · have won := ends.won s ptr
      exact ⟨sound.linked.bound s won.live, won.ptrs, won.unclaimed, won.usable, fun _ => won.live⟩
    · have closed := ends.closed isClose s sock
      exact ⟨fun live => absurd live closed.1, fun _ => closed⟩
  rw [conclude_eq started]
  split
  · rename_i detached
    unfold dropWon
    cases ptr : res.ptr with
    | none => exact .one (.settle submitted isOpen out settles allowed)
    | some s =>
      -- The socket is closed before the result that names it is stored.
      have won := ends.won s ptr
      refine .snoc (.one (.discard (won.unused sound.lives))) (.settle submitted isOpen out ?_ allowed)
      refine ⟨ends.status, fun u there => ?_, fun isClose u sock => ?_, fun blocks u sock busy => ?_,
        ends.write⟩
      · obtain rfl : s = u := Option.some.inj (ptr.symm.trans there)
        refine ⟨sound.linked.bound s won.live, won.ptrs, won.unclaimed, ?_, fun held => ?_⟩
        · simpa [sockDiscard, sockFree, modSock, closeDesc, modDesc, sockUnlink] using won.usable
        · exact Bool.noConfusion (detached.symm.trans held)
      · have other : u ≠ s := by rintro rfl; exact won.tasks t submitted sock
        obtain ⟨outside, freed, shut⟩ := ends.closed isClose u sock
        have outside' : u ∉ (c.sockDiscard s).socks := fun there =>
          outside ((sound.linked.mem_unlink s u).mp there).2
        refine ⟨fun live => absurd live outside', fun _ => ⟨outside', ?_, ?_⟩⟩
        · simpa [sockDiscard, sockFree, modSock, closeDesc, modDesc, sockUnlink, other] using freed
        · simp only [sockDiscard, sockFree, modSock, closeDesc, modDesc, sockUnlink,
            Function.update_of_ne other, Function.update_apply]
          grind
      · have other : u ≠ s := by rintro rfl; exact won.tasks t submitted sock
        refine closing blocks u sock ?_
        simpa [sockDiscard, sockFree, modSock, closeDesc, modDesc, sockUnlink, other] using busy
  · exact .one (.settle submitted isOpen out settles allowed)

/-- The end of a commit. -/
theorem commit_spec (sound : Sound ⟨c, x, h⟩) (submitted : t < c.ntask)
    (isOpen : (c.task t).done = false) (started : (c.task t).started = true) (out : x t = true)
    (ends : c.Ends t res) (notClose : (c.task t).kind ≠ .opSockClose)
    (allowed : ∀ res, o (c.task t).kind res) :
    Moves o ⟨c, x, h⟩ ⟨c.commit t res, update x t false, h⟩ := by
  unfold commit
  split
  · rename_i busy
    have dropped : Moves o ⟨c, x, h⟩ ⟨c.dropWon res, x, h⟩ := by
      unfold dropWon
      cases ptr : res.ptr with
      | none => exact .refl _
      | some s => exact .one (.discard ((ends.won s ptr).unused sound.lives))
    have task : (c.dropWon res).task = c.task := by unfold dropWon; split <;> rfl
    have ntask : (c.dropWon res).ntask = c.ntask := by unfold dropWon; split <;> rfl
    refine dropped.trans (conclude_spec (sound.moves dropped) (ntask ▸ submitted) (task ▸ isOpen)
      (task ▸ started) out ⟨by simp, by simp, ?_, by simp⟩ (by simp) ?_)
    · rw [task]; exact fun isClose => absurd isClose notClose
    · rw [task]; exact allowed rCanceled
  · rename_i calm
    refine conclude_spec sound submitted isOpen started out ends (fun blocks s sock busy => ?_)
      (allowed res)
    refine absurd ?_ calm
    simp [blocks, sockOf, sock, busy]

/-! ### Ending a task no worker has touched -/

/-- A task that goes out and comes back leaves the exceptions as they were. -/
theorem update_out (inside : x t = false) : update (update x t true) t false = x := by
  rw [Function.update_idem, ← inside, Function.update_eq_self]

/-- Ending a task no worker has touched is one change of its record. -/
theorem settle_unstarted (unstarted : (c.task t).started = false) (res : Result) :
    c.settle t res = c.modTask t (settled res) := by
  unfold settle
  simp [unstarted]
  rfl

/-- A task lifted out may be canceled; the socket of a close task has been drained by then. -/
theorem settles_canceled {c' : Core} (sound : Sound ⟨c, x, h⟩) (pending : c.Pending x t)
    (task : c'.task t = c.task t)
    (same : (c.task t).kind = .opSockClose → c' = c.queueRemove t) : c'.Settles t rCanceled := by
  refine ⟨by simp, by simp, fun isClose s sock => ⟨fun live u there => ?_, by simp⟩, by simp,
    by simp⟩
  rw [task] at isClose sock
  rw [same isClose, queueRemove_rest] at live there ⊢
  have closing := sound.closes.closing t s pending.1 isClose sock
  -- The only close task of the socket is not on its way, so the socket has been drained.
  have noLoose : ¬ c.CloseLoose x s := by
    rintro ⟨v, inside, isClose', sock', out, _⟩
    obtain rfl := sound.closes.close_inj t v s pending.1 inside isClose isClose' sock sock'
    exact Bool.noConfusion (pending.2.2.symm.trans out)
  have other : u ≠ t := by
    rintro rfl
    have := ((sound.placed.wq_mem s u live).mp there).2.1
    exact OpKind.noConfusion (this.symm.trans isClose)
  refine (sound.closes.drained s live closing noLoose u there).imp (fun queued => ?_) id
  change u ∈ (c.queueRemove t).queue
  rw [queueRemove_queue]
  exact (List.mem_erase_of_ne other).mpr queued

/-! ### Ending a task as it is made -/

/-- Only the value written matters. -/
theorem modTask_congr {f g : Task → Task}
    (same : f (c.task t) = g (c.task t)) : c.modTask t f = c.modTask t g := by
  unfold modTask
  rw [same]

/-- A task the caller still holds is completed without being freed. -/
theorem finish_eq (held : (c.task t).detached = false) (res : Result) :
    c.finish t res = c.modTask t (settled res) :=
  modTask_congr (by simp [settled, held])

/-- A new task may fail at once. -/
theorem settles_failed {k : Task} (fresh : c.Fresh k) (err : Int) :
    (c.taskNew k).Settles c.ntask (rErr err) := by
  have new : (c.taskNew k).task c.ntask = k := by simp [taskNew]
  refine ⟨by simp, by simp, fun isClose => ?_, fun blocks s sock closing => ?_, by simp⟩
  · rw [new] at isClose; exact absurd isClose fresh.kind
  · rw [new] at blocks sock
    obtain ⟨u, _, there, usable, _⟩ := fresh.sock blocks
    obtain rfl : s = u := Option.some.inj (sock.symm.trans there)
    exact Bool.noConfusion (usable.symm.trans closing)

/-! ### Closing a socket -/

/-- A socket's count at zero means that no pending task blocks on it. -/
theorem unblocked (sound : Sound ⟨c, x, h⟩) (live : s ∈ c.socks)
    (calm : (c.sock s).inflight = 0) (t : TaskId) (pending : c.Pending x t)
    (blocks : opOnSock (c.task t).kind = true) : (c.task t).sock ≠ some s := by
  intro sock
  have count := sound.counted.inflight s live
  dsimp only at count
  rw [calm] at count
  exact Machine.count_eq_zero.mp count.symm t pending.1 ⟨pending, blocks, sock⟩

/-- A FIFO of at most one write is drained: its head has been dispatched. -/
theorem drained_of_short (sound : Sound ⟨c, x, h⟩)
    (live : s ∈ c.socks) (headed : h s = false) (short : (c.sock s).wq.length ≤ 1) :
    c.Drained s := by
  intro t there
  refine sound.placed.wq_head s t live headed ?_
  rcases list : (c.sock s).wq with _ | ⟨a, _ | ⟨b, l⟩⟩
  · simp [list] at there
  · simp only [list, List.mem_singleton] at there
    simp [there]
  · simp [list] at short

/-- A socket no operation blocks on is closed, and the task that closes it is done. -/
theorem closeNow (sound : Sound ⟨c, x, h⟩) (inside : t < c.ntask)
    (task : c.task t = { kind := .opSockClose, sock := some s }) (out : x t = true) (live : s ∈ c.socks)
    (marked : (c.sock s).closing = true) (calm : (c.sock s).inflight = 0)
    (closed : o .opSockClose (rOk 0 none)) :
    Moves o ⟨c, x, h⟩ ⟨(c.sockDiscard s).finish t (rOk 0 none), update x t false, h⟩ := by
  have discard : Move o ⟨c, x, h⟩ ⟨c.sockDiscard s, x, h⟩ := by
    refine .discard ⟨live, fun u pending sock => ?_, .inl marked⟩
    -- The only close task of the socket is the one being made.
    rcases sound.closes.sock_kind u s pending.1 sock with blocks | isClose
    · exact unblocked sound live calm u pending blocks sock
    · have isNew : u = t := sound.closes.close_inj u t s pending.1 inside isClose
        (by simp [task]) sock (by simp [task])
      rw [isNew] at pending
      exact Bool.noConfusion (pending.2.2.symm.trans out)
  have task' : (c.sockDiscard s).task t = { kind := .opSockClose, sock := some s } := task
  have settles : (c.sockDiscard s).Settles t (rOk 0 none) := by
    refine ⟨by simp, by simp, fun _ u sock => ?_, by simp [task', opOnSock], by simp [task']⟩
    obtain rfl : s = u := by simpa [task'] using sock
    have outside : s ∉ (c.sockDiscard s).socks := fun there =>
      ((sound.linked.mem_unlink s s).mp there).1 rfl
    have unfreed : (c.sock s).frees = 0 := sound.linked.unfreed s live
    refine ⟨fun there => absurd there outside, fun _ => ⟨outside, ?_, ?_⟩⟩
    · simp [sockDiscard, sockFree, modSock, closeDesc, modDesc, sockUnlink, unfreed]
    · simp [sockDiscard, sockFree, modSock, closeDesc, modDesc, sockUnlink]
  have ended : Move o ⟨c.sockDiscard s, x, h⟩ ⟨_, _, _⟩ :=
    .settle (t := t) (r := rOk 0 none) inside (by rw [task']) out settles (by rw [task']; exact closed)
  rw [settle_unstarted (by rw [task']), ← finish_eq (by rw [task'])] at ended
  exact (Moves.one discard).snoc ended

/-- The task that closes a socket goes on the work queue once nothing waits in the FIFO. -/
theorem closeLater (inside : t < c.ntask)
    (task : c.task t = { kind := .opSockClose, sock := some s }) (out : x t = true) (live : s ∈ c.socks)
    (drained : c.Drained s) : Move o ⟨c, x, h⟩ ⟨c.queuePush t, update x t false, h⟩ := by
  have queued : Move o ⟨c, x, h⟩ ⟨_, _, _⟩ :=
    .enqueue (t := t) inside (by rw [task]) (by rw [task]) out (by simp [task])
      (fun u sock => by
        obtain rfl : s = u := by simpa [task] using sock
        exact ⟨live, fun _ => drained⟩)
      (by simp [task, opOnSock]) (by simp [task, opOnSock])
  have apart : opOnSock (c.task t).kind = false := by rw [task]; rfl
  rw [apart] at queued
  exact queued

end Core

end Myio
