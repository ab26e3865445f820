import Myio.Pool.Owned
import Myio.Pool.Sockets

/-! The tasks that close a socket. -/

namespace Myio.Core

open Function (update)

/-- The close task of a socket has not been queued or completed yet. -/
def CloseLoose (c : Core) (x : TaskId → Bool) (s : SockId) : Prop :=
  ∃ t, t < c.ntask ∧ (c.task t).kind = .opSockClose ∧ (c.task t).sock = some s ∧ x t = true ∧
    (c.task t).done = false

/-- A worker has unlinked the socket of the close task it runs. -/
def Unlinking (c : Core) (t : TaskId) : Prop :=
  ∃ w phase, c.At w t phase ∧ phase.unlinked

/-- The tasks that close a socket: at most one each, and the socket is linked until it is closed. -/
structure Closes (c : Core) (x : TaskId → Bool) : Prop where
  sock_bound : ∀ t s, t < c.ntask → (c.task t).sock = some s → s < c.nsock
  sock_kind : ∀ t s, t < c.ntask → (c.task t).sock = some s →
    opOnSock (c.task t).kind ∨ (c.task t).kind = .opSockClose
  close_sock : ∀ t, t < c.ntask → (c.task t).kind = .opSockClose → ∃ s, (c.task t).sock = some s
  closing : ∀ t s, t < c.ntask → (c.task t).kind = .opSockClose → (c.task t).sock = some s →
    (c.sock s).closing = true
  close_inj : ∀ t u s, t < c.ntask → u < c.ntask → (c.task t).kind = .opSockClose →
    (c.task u).kind = .opSockClose → (c.task t).sock = some s → (c.task u).sock = some s → t = u
  close_live : ∀ t s, c.Pending x t → (c.task t).kind = .opSockClose → (c.task t).sock = some s →
    s ∈ c.socks ∨ c.Unlinking t
  drained : ∀ s, s ∈ c.socks → (c.sock s).closing = true → ¬ c.CloseLoose x s → c.Drained s
  closed : ∀ t s, t < c.ntask → (c.task t).kind = .opSockClose → (c.task t).sock = some s →
    (c.task t).done = true → (c.task t).res.status = .ok →
    s ∉ c.socks ∧ (c.sock s).frees = 1 ∧ 0 < (c.desc (c.sock s).fd).closes

section Closes

variable {o : OpKind → Result → Prop} {c c' : Core} {x x' : TaskId → Bool}
  {h h' : SockId → Bool}

/-- A change that leaves the sockets linked and the tasks that close them where they are. -/
theorem Closes.congr (closes : c.Closes x) (ntask : c'.ntask = c.ntask) (nsock : c'.nsock = c.nsock)
    (socks : c'.socks = c.socks) (closing : ∀ s, (c'.sock s).closing = (c.sock s).closing)
    (task : ∀ t, (c'.task t).kind = (c.task t).kind ∧ (c'.task t).sock = (c.task t).sock ∧
      ((c.task t).kind = .opSockClose →
        (c'.task t).done = (c.task t).done ∧ (c'.task t).res = (c.task t).res))
    (pending : ∀ t, (c.task t).kind = .opSockClose → c'.Pending x' t → c.Pending x t)
    (unlinking : ∀ t, c'.Pending x' t → c.Unlinking t → c'.Unlinking t)
    (loose : ∀ s, s ∈ c.socks → c.CloseLoose x s → c'.CloseLoose x' s)
    (drained : ∀ s, s ∈ c.socks → (c.sock s).closing = true → c.Drained s → c'.Drained s)
    (closed : ∀ s, s ∉ c.socks → s < c.nsock → (c'.sock s).frees = (c.sock s).frees ∧
      (c'.sock s).fd = (c.sock s).fd ∧
      (c.desc (c.sock s).fd).closes ≤ (c'.desc (c.sock s).fd).closes) : c'.Closes x' := by
  obtain ⟨sockBound, sockKind, closeSock, isClosing, closeInj, closeLive, isDrained, isClosed⟩ := closes
  constructor
  case sock_bound => grind
  case sock_kind => grind
  case close_sock => grind
  case closing => grind
  case close_inj => grind
  case close_live =>
    intro t s there isClose sock
    rw [(task t).1] at isClose
    rw [(task t).2.1] at sock
    rw [socks]
    exact (closeLive t s (pending t isClose there) isClose sock).imp id (unlinking t there)
  case drained =>
    intro s inside usable noLoose
    rw [socks] at inside
    rw [closing] at usable
    exact drained s inside usable
      (isDrained s inside usable fun isLoose => noLoose (loose s inside isLoose))
  case closed =>
    intro t s inside isClose sock done okay
    rw [ntask] at inside
    rw [(task t).1] at isClose
    rw [(task t).2.1] at sock
    rw [((task t).2.2 isClose).1] at done
    rw [((task t).2.2 isClose).2] at okay
    obtain ⟨outside, freed, isOpen⟩ := isClosed t s inside isClose sock done okay
    obtain ⟨frees, fd, more⟩ := closed s outside (sockBound t s inside sock)
    rw [socks, frees, fd]
    exact ⟨outside, freed, Nat.lt_of_lt_of_le isOpen more⟩

/-- A change of the workers, the queue or the descriptors alone. -/
theorem Closes.same (closes : c.Closes x) (ntask : c'.ntask = c.ntask) (nsock : c'.nsock = c.nsock)
    (socks : c'.socks = c.socks) (sock : c'.sock = c.sock) (task : c'.task = c.task)
    (unlinking : ∀ t, c.Unlinking t → c'.Unlinking t) (queue : c'.queue = c.queue)
    (desc : ∀ fd, fd < c.ndesc → (c.desc fd).closes ≤ (c'.desc fd).closes)
    (bound : ∀ s, s < c.nsock → (c.sock s).fd < c.ndesc) : c'.Closes x := by
  refine closes.congr ntask nsock socks (fun _ => by rw [sock]) (fun _ => by simp [task]) ?_
    (fun t _ => unlinking t) ?_ ?_ ?_
  · simp [Pending, ntask, task]
  · simp [CloseLoose, ntask, task]
  · simp [Drained, sock, queue, task]
  · intro s _ made; rw [sock]; exact ⟨rfl, rfl, desc _ (bound s made)⟩

/-- A change inside one task's record that leaves its kind, its socket and its end alone. -/
theorem Closes.modTask (closes : c.Closes x) (t : TaskId) (f : Task → Task)
    (kind : (f (c.task t)).kind = (c.task t).kind) (sock : (f (c.task t)).sock = (c.task t).sock)
    (done : (f (c.task t)).done = (c.task t).done) (res : (f (c.task t)).res = (c.task t).res)
    (started : (f (c.task t)).started = (c.task t).started) : (c.modTask t f).Closes x := by
  have fields : ∀ u, ((c.modTask t f).task u).kind = (c.task u).kind ∧
      ((c.modTask t f).task u).sock = (c.task u).sock ∧
      ((c.modTask t f).task u).done = (c.task u).done ∧
      ((c.modTask t f).task u).res = (c.task u).res ∧
      ((c.modTask t f).task u).started = (c.task u).started := by
    intro u; simp only [Core.modTask, Function.update_apply]; grind
  refine closes.congr rfl rfl rfl (fun _ => rfl) (fun u => by simp [fields u]) ?_
    (fun _ _ there => there) ?_ ?_ (fun _ _ _ => ⟨rfl, rfl, Nat.le_refl _⟩)
  · intro u _ there; simp only [Pending, fields] at there; exact there
  · intro s _ there; simp only [CloseLoose, fields]; exact there
  · intro s _ _ there; simp only [Drained, fields]; exact there

/-- A worker that moves on does not touch the tasks of the others. -/
theorem Unlinking.setPc_other {w : WorkerId} {t : TaskId} {from_ : Phase} {pc : Pc}
    (at_ : c.At w t from_) {u : TaskId} (other : u ≠ t) (unlinking : c.Unlinking u) :
    (c.setPc w pc).Unlinking u := by
  obtain ⟨v, phase, there, unlinked⟩ := unlinking
  have differs : v ≠ w := by
    rintro rfl
    have := there.2.symm.trans at_.2
    simp only [Pc.running.injEq] at this
    exact other this.1
  exact ⟨v, phase, (setPc_at ..).mpr (by rw [if_neg differs]; exact there), unlinked⟩

/-- A worker that has not unlinked a socket yet may go on without touching those that have. -/
theorem Unlinking.setPc {w : WorkerId} {t : TaskId} {from_ : Phase} {pc : Pc}
    (at_ : c.At w t from_) (linked : from_.unlinked = false)
    {u : TaskId} (unlinking : c.Unlinking u) : (c.setPc w pc).Unlinking u := by
  obtain ⟨v, phase, there, unlinked⟩ := unlinking
  have differs : v ≠ w := by
    rintro rfl
    have := there.2.symm.trans at_.2
    simp only [Pc.running.injEq] at this
    simp [this.2, linked] at unlinked
  exact ⟨v, phase, (setPc_at ..).mpr (by rw [if_neg differs]; exact there), unlinked⟩

/-- A worker that has unlinked its task's socket. -/
theorem Unlinking.of_setPc {w : WorkerId} {t : TaskId} {phase : Phase} (inside : w < c.nworker)
    (unlinked : phase.unlinked) : (c.setPc w (.running t phase)).Unlinking t :=
  ⟨w, phase, (setPc_at ..).mpr (by rw [if_pos rfl]; exact ⟨inside, rfl⟩), unlinked⟩

/-- A task no worker has touched is lifted out. -/
theorem Closes.exit {t : TaskId} (closes : c.Closes x) (placed : c.Placed x h) :
    ((c.queueRemove t).leaveSock t).Closes (update x t true) := by
  have rest := leaveSock_rest (c.queueRemove t) t
  have shared := queueRemove_rest c t
  have sock : ∀ s, ((c.queueRemove t).leaveSock t).sock s = { c.sock s with
      inflight := (((c.queueRemove t).leaveSock t).sock s).inflight
      wq := (((c.queueRemove t).leaveSock t).sock s).wq } := by
    intro s; rw [leaveSock_sock, shared]
  refine closes.congr ?_ ?_ ?_ (fun s => by rw [sock]) ?_ ?_ ?_ ?_ ?_ ?_
  · rw [rest, shared]
  · rw [rest, shared]
  · rw [rest, shared]
  · intro u; rw [rest, shared]; simp
  · intro u _; rw [rest, shared]; simp only [Pending, Function.update_apply]; grind
  · intro u _ there; rw [rest, shared]; exact there
  · rintro s _ ⟨u, inside, isClose, there, out, isOpen⟩
    rw [rest, shared]
    exact ⟨u, inside, isClose, there, by simp only [Function.update_apply]; grind, isOpen⟩
  · -- What stays in the FIFO is another task, and stays on the queue if it was there.
    intro s inside _ dispatched u there
    rw [placed.exit_wq t inside] at there
    have nodup : (c.sock s).wq.Nodup :=
      (placed.wq_sorted s inside).imp fun less => Nat.ne_of_lt less
    obtain ⟨other, there⟩ := nodup.mem_erase_iff.mp there
    rw [rest]
    change u ∈ (c.queueRemove t).queue ∨ ((c.queueRemove t).task u).started = true
    rw [queueRemove_queue, shared]
    exact (dispatched u there).imp (fun queued => (List.mem_erase_of_ne other).mpr queued) id
  · intro s _ _
    rw [sock, rest, shared]
    exact ⟨rfl, rfl, Nat.le_refl _⟩

/-- A worker is through with its task. -/
theorem Closes.exitRun {w : WorkerId} {t : TaskId} {phase : Phase} (closes : c.Closes x)
    (at_ : c.At w t phase) :
    ((c.setPc w .ready).leaveSock t).Closes (update x t true) := by
  have rest := leaveSock_rest (c.setPc w .ready) t
  have sock : ∀ s, ((c.setPc w .ready).leaveSock t).sock s = { c.sock s with
      inflight := (((c.setPc w .ready).leaveSock t).sock s).inflight
      wq := (((c.setPc w .ready).leaveSock t).sock s).wq } := by
    intro s; rw [leaveSock_sock]; rfl
  refine closes.congr ?_ ?_ ?_ (fun s => by rw [sock]) ?_ ?_ ?_ ?_ ?_ ?_
  · rw [rest]; rfl
  · rw [rest]; rfl
  · rw [rest]; rfl
  · intro u; rw [rest]; exact ⟨rfl, rfl, fun _ => ⟨rfl, rfl⟩⟩
  · intro u _; rw [rest]; simp only [Pending, Function.update_apply, setPc, modWorker]; grind
  · -- Another task's worker is another worker.
    intro u there unlinking
    have other : u ≠ t := by
      rintro rfl
      simp [Pending] at there
    rw [rest]
    exact Unlinking.setPc_other at_ other unlinking
  · rintro s _ ⟨u, inside, isClose, there, out, isOpen⟩
    rw [rest]
    exact ⟨u, inside, isClose, there, by simp only [Function.update_apply]; grind, isOpen⟩
  · intro s inside _ dispatched u there
    rw [leaveSock_wq] at there
    rw [rest]
    refine dispatched u ?_
    split at there
    · exact List.mem_of_mem_erase there
    · exact there
  · intro s _ _
    rw [sock, rest]
    exact ⟨rfl, rfl, Nat.le_refl _⟩

/-- A task ends. -/
theorem Closes.settle {t : TaskId} {res : Result} (closes : c.Closes x)
    (settles : c.Settles t res) (out : x t = true) :
    (c.settle t res).Closes (update x t false) := by
  have fields : ∀ u, ((c.settle t res).task u).kind = (c.task u).kind ∧
      ((c.settle t res).task u).sock = (c.task u).sock ∧
      ((c.settle t res).task u).started = (c.task u).started ∧
      ((c.settle t res).task u).done = (if u = t then true else (c.task u).done) ∧
      ((c.settle t res).task u).res = (if u = t then res else (c.task u).res) := by
    intro u; simp only [Core.settle, Core.modTask, Function.update_apply, settled]; grind
  obtain ⟨sockBound, sockKind, closeSock, isClosing, closeInj, closeLive, isDrained, isClosed⟩ := closes
  constructor
  case sock_bound => intro u s; rw [(fields u).2.1]; exact sockBound u s
  case sock_kind => intro u s; rw [(fields u).1, (fields u).2.1]; exact sockKind u s
  case close_sock => intro u; rw [(fields u).1, (fields u).2.1]; exact closeSock u
  case closing => intro u s; rw [(fields u).1, (fields u).2.1]; exact isClosing u s
  case close_inj =>
    intro u v s
    rw [(fields u).1, (fields u).2.1, (fields v).1, (fields v).2.1]
    exact closeInj u v s
  case close_live =>
    intro u s there
    rw [(fields u).1, (fields u).2.1]
    refine closeLive u s ?_
    obtain ⟨inside, isOpen, notOut⟩ := there
    have other : u ≠ t := by
      rintro rfl
      simp [fields] at isOpen
    simp only [(fields u).2.2.2.1, other, if_false, Function.update_of_ne other] at isOpen notOut
    exact ⟨inside, isOpen, notOut⟩
  case drained =>
    intro s inside usable noLoose
    have same : (c.settle t res).Drained s ↔ c.Drained s := by
      simp only [Drained, fields]; exact Iff.rfl
    rw [same]
    by_cases mine : (c.task t).kind = .opSockClose ∧ (c.task t).sock = some s
    · exact (settles.close mine.1 s mine.2).1 inside
    · refine isDrained s inside usable fun loose => ?_
      obtain ⟨u, below, isClose, there, isOut, isOpen⟩ := loose
      have other : u ≠ t := by rintro rfl; exact mine ⟨isClose, there⟩
      refine noLoose ⟨u, below, ?_, ?_, ?_, ?_⟩
      · rw [(fields u).1]; exact isClose
      · rw [(fields u).2.1]; exact there
      · rw [Function.update_of_ne other]; exact isOut
      · rw [(fields u).2.2.2.1, if_neg other]; exact isOpen
  case closed =>
    intro u s inside isClose there done okay
    rw [(fields u).1] at isClose
    rw [(fields u).2.1] at there
    by_cases same : u = t
    · subst same
      simp only [(fields u).2.2.2.2, if_true] at okay
      exact (settles.close isClose s there).2 okay
    · simp only [(fields u).2.2.2.1, (fields u).2.2.2.2, same, if_false] at done okay
      exact isClosed u s inside isClose there done okay

/-- A task is made; one that closes a socket is the first to do so, and marks the socket. -/
theorem Closes.made {k : Task} (closes : c.Closes x) (placed : c.Placed x h)
    (ntask : c'.ntask = c.ntask + 1) (task : c'.task = update c.task c.ntask k)
    (nsock : c'.nsock = c.nsock) (socks : c'.socks = c.socks) (queue : c'.queue = c.queue)
    (desc : c'.desc = c.desc) (unlinking : ∀ t, c.Unlinking t → c'.Unlinking t)
    (sock : ∀ s, (c'.sock s).wq = (c.sock s).wq ∧ (c'.sock s).frees = (c.sock s).frees ∧
      (c'.sock s).fd = (c.sock s).fd)
    (closing : ∀ s, (c'.sock s).closing = true ↔
      (c.sock s).closing = true ∨ (k.kind = .opSockClose ∧ k.sock = some s))
    (bound : ∀ s, k.sock = some s → s < c.nsock)
    (kind : ∀ s, k.sock = some s → opOnSock k.kind ∨ k.kind = .opSockClose)
    (close : k.kind = .opSockClose → ∃ s, k.sock = some s ∧ (c.sock s).closing = false)
    (open_ : k.done = false) : c'.Closes (update x c.ntask true) := by
  have old : ∀ u, u ≠ c.ntask → c'.task u = c.task u := by
    intro u other; rw [task, Function.update_of_ne other]
  have new : c'.task c.ntask = k := by rw [task, Function.update_self]
  have below : ∀ u, u < c'.ntask → u ≠ c.ntask → u < c.ntask := by
    intro u inside other
    rw [ntask] at inside
    exact Nat.lt_of_le_of_ne (Nat.le_of_lt_succ inside) other
  obtain ⟨sockBound, sockKind, closeSock, isClosing, closeInj, closeLive, isDrained, isClosed⟩ := closes
  constructor
  case sock_bound => grind
  case sock_kind => grind
  case close_sock => grind
  case closing => grind
  case close_inj => grind
  case close_live =>
    intro u s there isClose
    obtain ⟨inside, isOpen, notOut⟩ := there
    have other : u ≠ c.ntask := by rintro rfl; simp at notOut
    rw [old u other] at isClose isOpen ⊢
    rw [Function.update_of_ne other] at notOut
    rw [socks]
    exact fun sock => (closeLive u s ⟨below u inside other, isOpen, notOut⟩ isClose sock).imp id
      (unlinking u)
  case drained =>
    intro s inside usable noLoose u there
    rw [socks] at inside
    rw [(sock s).1] at there
    have less := ((placed.wq_mem s u inside).mp there).1.1
    rw [queue, old u (Nat.ne_of_lt less)]
    -- The socket was marked before, since a new close task would still be loose.
    rcases (closing s).mp usable with before | ⟨isClose, there⟩
    · refine isDrained s inside before (fun loose => ?_) u ‹_›
      obtain ⟨v, less, isClose, sock, out, isOpen⟩ := loose
      have other := Nat.ne_of_lt less
      refine noLoose ⟨v, ntask ▸ Nat.lt_succ_of_lt less, ?_⟩
      rw [old v other, Function.update_of_ne other]
      exact ⟨isClose, sock, out, isOpen⟩
    · exact absurd ⟨c.ntask, ntask ▸ Nat.lt_succ_self _, new ▸ isClose, new ▸ there, by simp,
        new ▸ open_⟩ noLoose
  case closed =>
    intro u s inside isClose there done okay
    have other : u ≠ c.ntask := by rintro rfl; simp [new, open_] at done
    rw [old u other] at isClose there done okay
    rw [socks, (sock s).2.1, (sock s).2.2, desc]
    exact isClosed u s (below u inside other) isClose there done okay

/-- A task goes on the work queue. -/
theorem Closes.enqueue {t : TaskId} (closes : c.Closes x) (out : x t = true)
    (ntask : c'.ntask = c.ntask) (task : c'.task = c.task) (nsock : c'.nsock = c.nsock)
    (socks : c'.socks = c.socks) (queue : ∀ u, u ∈ c.queue → u ∈ c'.queue)
    (desc : c'.desc = c.desc) (unlinking : ∀ t, c.Unlinking t → c'.Unlinking t)
    (sock : ∀ s, (c'.sock s).frees = (c.sock s).frees ∧ (c'.sock s).fd = (c.sock s).fd ∧
      (c'.sock s).closing = (c.sock s).closing ∧
      ((c'.sock s).closing = true → (c'.sock s).wq = (c.sock s).wq))
    (live : (c.task t).kind = .opSockClose → ∀ s, (c.task t).sock = some s →
      s ∈ c.socks ∧ c.Drained s) : c'.Closes (update x t false) := by
  have drained : ∀ s, (c'.sock s).closing = true → c.Drained s → c'.Drained s := by
    intro s usable dispatched u there
    rw [(sock s).2.2.2 usable] at there
    rw [task]
    exact (dispatched u there).imp (queue u) id
  obtain ⟨sockBound, sockKind, closeSock, isClosing, closeInj, closeLive, isDrained, isClosed⟩ := closes
  constructor
  case sock_bound => rw [ntask, task, nsock]; exact sockBound
  case sock_kind => rw [ntask, task]; exact sockKind
  case close_sock => rw [ntask, task]; exact closeSock
  case closing => rw [ntask, task]; intro u s; rw [(sock s).2.2.1]; exact isClosing u s
  case close_inj => rw [ntask, task]; exact closeInj
  case close_live =>
    intro u s there isClose sock
    rw [task] at isClose sock
    rw [socks]
    by_cases same : u = t
    · subst same; exact .inl (live isClose s sock).1
    · obtain ⟨inside, isOpen, notOut⟩ := there
      rw [ntask] at inside
      rw [task] at isOpen
      rw [Function.update_of_ne same] at notOut
      exact (closeLive u s ⟨inside, isOpen, notOut⟩ isClose sock).imp id (unlinking u)
  case drained =>
    intro s inside usable noLoose
    rw [socks] at inside
    refine drained s usable ?_
    by_cases mine : (c.task t).kind = .opSockClose ∧ (c.task t).sock = some s
    · exact (live mine.1 s mine.2).2
    · refine isDrained s inside ((sock s).2.2.1 ▸ usable) fun loose => ?_
      obtain ⟨u, less, isClose, there, isOut, isOpen⟩ := loose
      have other : u ≠ t := by rintro rfl; exact mine ⟨isClose, there⟩
      refine noLoose ⟨u, ntask ▸ less, ?_⟩
      rw [task, Function.update_of_ne other]
      exact ⟨isClose, there, isOut, isOpen⟩
  case closed =>
    intro u s
    rw [ntask, task, socks, (sock s).1, (sock s).2.1, desc]
    exact isClosed u s

/-- A socket is made. -/
theorem Closes.sockLink (closes : c.Closes x) (linked : c.Linked) (fd : Fd) :
    (c.sockLink fd).Closes x := by
  have fresh : c.nsock ∉ c.socks := fun inside => Nat.lt_irrefl _ (linked.bound _ inside)
  have old : ∀ s, s < c.nsock → (c.sockLink fd).sock s = c.sock s := by
    intro s less; simp [Core.sockLink, Function.update_of_ne (Nat.ne_of_lt less)]
  have inside : ∀ s, s ∈ (c.sockLink fd).socks ↔ s = c.nsock ∨ s ∈ c.socks := by
    intro s; simp [Core.sockLink]
  obtain ⟨sockBound, sockKind, closeSock, isClosing, closeInj, closeLive, isDrained, isClosed⟩ := closes
  constructor
  case sock_bound => exact fun t s less sock => Nat.lt_succ_of_lt (sockBound t s less sock)
  case sock_kind => exact sockKind
  case close_sock => exact closeSock
  case closing =>
    intro t s less isClose sock
    rw [old s (sockBound t s less sock)]
    exact isClosing t s less isClose sock
  case close_inj => exact closeInj
  case close_live =>
    intro t s there isClose sock
    exact (closeLive t s there isClose sock).imp (fun live => (inside s).mpr (.inr live)) id
  case drained =>
    intro s linkedNow usable noLoose
    rcases (inside s).mp linkedNow with rfl | live
    · simp [Core.sockLink] at usable
    · have less := linked.bound s live
      unfold Drained
      rw [old s less] at usable ⊢
      exact isDrained s live usable noLoose
  case closed =>
    intro t s less isClose sock done okay
    have made := sockBound t s less sock
    obtain ⟨outside, freed, shut⟩ := isClosed t s less isClose sock done okay
    rw [old s made]
    refine ⟨fun there => ?_, freed, shut⟩
    rcases (inside s).mp there with rfl | live
    · exact Nat.lt_irrefl _ made
    · exact outside live

/-- A socket goes; its close task, if it is still pending, is the one that unlinked it. -/
theorem Closes.unlinked {s : SockId} (closes : c.Closes x) (ntask : c'.ntask = c.ntask)
    (task : c'.task = c.task) (nsock : c'.nsock = c.nsock) (queue : c'.queue = c.queue)
    (socks : ∀ u, u ∈ c'.socks ↔ u ≠ s ∧ u ∈ c.socks)
    (sock : ∀ u, u ≠ s → c'.sock u = c.sock u) (inside : s ∈ c.socks ∨ ∀ t, t < c.ntask →
      (c.task t).kind = .opSockClose → (c.task t).sock = some s → (c.task t).done = false)
    (closing : (c'.sock s).closing = (c.sock s).closing)
    (desc : ∀ fd, (c.desc fd).closes ≤ (c'.desc fd).closes)
    (unlinking : ∀ t, c.Unlinking t → c'.Unlinking t)
    (last : ∀ t, c.Pending x t → (c.task t).kind = .opSockClose → (c.task t).sock = some s →
      c'.Unlinking t) : c'.Closes x := by
  obtain ⟨sockBound, sockKind, closeSock, isClosing, closeInj, closeLive, isDrained, isClosed⟩ := closes
  have sameClosing : ∀ u, (c'.sock u).closing = (c.sock u).closing := by
    intro u
    by_cases same : u = s
    · subst same; exact closing
    · rw [sock u same]
  constructor
  case sock_bound => rw [ntask, task, nsock]; exact sockBound
  case sock_kind => rw [ntask, task]; exact sockKind
  case close_sock => rw [ntask, task]; exact closeSock
  case closing => rw [ntask, task]; intro t u; rw [sameClosing]; exact isClosing t u
  case close_inj => rw [ntask, task]; exact closeInj
  case close_live =>
    intro t u there isClose isSock
    have there : c.Pending x t := by simpa only [Pending, ntask, task] using there
    rw [task] at isClose isSock
    by_cases same : u = s
    · subst same; exact .inr (last t there isClose isSock)
    · exact (closeLive t u there isClose isSock).imp (fun live => (socks u).mpr ⟨same, live⟩)
        (unlinking t)
  case drained =>
    intro u live usable noLoose
    obtain ⟨other, live⟩ := (socks u).mp live
    unfold Drained
    rw [sock u other, queue, task]
    rw [sameClosing] at usable
    refine isDrained u live usable fun isLoose => noLoose ?_
    simpa only [CloseLoose, ntask, task] using isLoose
  case closed =>
    intro t u less isClose isSock done okay
    rw [ntask] at less
    rw [task] at isClose isSock done okay
    obtain ⟨outside, freed, shut⟩ := isClosed t u less isClose isSock done okay
    have other : u ≠ s := by
      rintro rfl
      rcases inside with live | notDone
      · exact outside live
      · simp [notDone t less isClose isSock] at done
    rw [sock u other]
    exact ⟨fun there => outside ((socks u).mp there).2, freed, Nat.lt_of_lt_of_le shut (desc _)⟩

/-- Every worker is where the task it runs allows. -/
def Phased (c : Core) : Prop := ∀ w t phase, c.At w t phase → c.PhaseOk t phase

/-- Every move keeps the tasks that close sockets in order. -/
theorem Closes.move (move : Move o ⟨c, x, h⟩ ⟨c', x', h'⟩) (closes : c.Closes x)
    (placed : c.Placed x h) (linked : c.Linked) (owned : c.Owned) (phased : c.Phased) :
    c'.Closes x' := by
  have bound := owned.sock_bound
  cases move with
  | stir stirred =>
    have pcs := stirred.pcs
    rw [stirred.rest] at pcs ⊢
    refine closes.same rfl rfl rfl rfl rfl (fun t unlinking => ?_) rfl
      (fun _ _ => Nat.le_refl _) bound
    obtain ⟨w, phase, there, unlinked⟩ := unlinking
    exact ⟨w, phase, (pcs w t _).mpr there, unlinked⟩
  | exit pending unstarted => exact closes.exit placed
  | exitRun at_ pending => exact closes.exitRun at_
  | settle submitted open_ out settles allowed => exact closes.settle settles out
  | promote live bare head =>
    refine closes.congr rfl rfl rfl (fun _ => rfl) (fun _ => ⟨rfl, rfl, fun _ => ⟨rfl, rfl⟩⟩)
      (fun _ _ => id) (fun _ _ => id) (fun _ _ => id) ?_ (fun _ _ _ => ⟨rfl, rfl, Nat.le_refl _⟩)
    intro s _ _ dispatched u there
    exact (dispatched u there).imp (fun queued => List.mem_append_left _ queued) id
  | fail live bare usable wq =>
    rename_i s n rest
    have member : n ∈ (c.sock s).wq := by simp [wq]
    obtain ⟨pending, kind, sock⟩ := (placed.wq_mem s n live).mp member
    rw [failHead_eq]
    have fields : ∀ u, u ≠ n → ((c.modSock s fun k =>
        { k with wq := k.wq.tail, inflight := k.inflight - 1 }).modTask n
          (settled (rErr EAGAIN))).task u = c.task u := by
      intro u other; simp [Core.modTask, modSock, other]
    have notClose : ∀ u, (c.task u).kind = .opSockClose → u ≠ n := by
      rintro u isClose rfl; simp [kind] at isClose
    refine closes.congr rfl rfl rfl ?_ ?_ ?_ (fun _ _ => id) ?_ ?_ ?_
    · intro u; simp only [Core.modTask, modSock, Function.update_apply]; grind
    · intro u
      by_cases same : u = n
      · subst same; simp [Core.modTask, modSock, settled, kind]
      · rw [fields u same]; exact ⟨rfl, rfl, fun _ => ⟨rfl, rfl⟩⟩
    · intro u isClose there
      unfold Pending at there
      rw [fields u (notClose u isClose)] at there
      exact there
    · rintro u _ ⟨v, less, isClose, there, out, isOpen⟩
      refine ⟨v, less, ?_⟩
      rw [fields v (notClose v isClose)]
      exact ⟨isClose, there, out, isOpen⟩
    · intro u inside isClosing dispatched v there
      have other : u ≠ s := by rintro rfl; simp [usable] at isClosing
      simp only [Core.modTask, modSock, Function.update_of_ne other] at there
      have := dispatched v there
      simp only [Core.modTask, modSock, Function.update_apply, settled]
      grind
    · intro u _ _
      simp only [Core.modTask, modSock, Function.update_apply]
      grind
  | headed empty => exact closes
  | create fresh =>
    rename_i k
    refine closes.made placed rfl rfl rfl rfl rfl rfl (fun _ => id) (fun _ => ⟨rfl, rfl, rfl⟩)
      ?_ ?_ ?_ (fun isClose => absurd isClose fresh.kind) fresh.done
    · intro s; simp [Core.taskNew, fresh.kind]
    · intro s sock
      by_cases blocks : opOnSock k.kind = true
      · obtain ⟨v, live, there, _⟩ := fresh.sock blocks
        obtain rfl : s = v := Option.some.inj (sock.symm.trans there)
        exact linked.bound s live
      · simp [fresh.bare (by simpa using blocks)] at sock
    · intro s sock
      by_cases blocks : opOnSock k.kind = true
      · exact .inl blocks
      · simp [fresh.bare (by simpa using blocks)] at sock
  | createClose live open_ mine =>
    rename_i s
    refine closes.made (k := { kind := .opSockClose, sock := some s }) placed rfl rfl rfl rfl rfl
      rfl (fun _ => id) ?_ ?_ ?_ (fun _ _ => .inr rfl) (fun _ => ⟨s, rfl, open_⟩) rfl
    · intro u; simp only [modSock, Core.taskNew, Function.update_apply]; grind
    · intro u; simp only [modSock, Core.taskNew, Function.update_apply]; grind
    · rintro u isSock; obtain rfl := Option.some.inj isSock; exact linked.bound s live
  | enqueue submitted open_ unstarted out kind live onSock =>
    have given : (c.task _).kind = .opSockClose → ∀ s, (c.task _).sock = some s →
      s ∈ c.socks ∧ c.Drained s := fun isClose s sock => ⟨(live s sock).1, (live s sock).2 isClose⟩
    split
    · refine closes.enqueue out rfl rfl rfl rfl
        (fun _ there => List.mem_append_left _ there) rfl (fun _ => id) ?_ given
      intro s; simp only [queuePush, inflightInc, modSock, Function.update_apply]; grind
    · exact closes.enqueue out rfl rfl rfl rfl (fun _ there => List.mem_append_left _ there) rfl
        (fun _ => id) (fun _ => ⟨rfl, rfl, rfl, fun _ => rfl⟩) given
  | park submitted open_ unstarted out kind sock live usable =>
    refine closes.enqueue out rfl rfl rfl rfl (fun _ there => there) rfl (fun _ => id) ?_
      (fun isClose => by simp [kind] at isClose)
    intro s; simp only [inflightInc, modSock, Function.update_apply]; grind
  | take queue inside free =>
    rename_i w t rest
    have fields : ∀ u, ((({ c with queue := rest, nqueued := c.nqueued - 1
                                   nrunning := c.nrunning + 1 }.modTask t
        fun k => { k with started := true, worker := some w }).setPc w
          (.running t .entry)).task u) =
        if u = t then { c.task t with started := true, worker := some w } else c.task u := by
      intro u; simp only [setPc, modWorker, Core.modTask, Function.update_apply]
    refine closes.congr rfl rfl rfl (fun _ => rfl) (fun u => ?_) (fun u _ there => ?_)
      (fun u _ there => ?_) (fun s _ there => ?_) (fun s _ _ dispatched u there => ?_)
      (fun _ _ _ => ⟨rfl, rfl, Nat.le_refl _⟩)
    · rw [fields]; grind
    · obtain ⟨less, isOpen, notOut⟩ := there
      rw [fields] at isOpen
      exact ⟨less, by grind, notOut⟩
    · obtain ⟨v, phase, there, unlinked⟩ := there
      have differs : v ≠ w := by
        rintro rfl
        simp [there.2] at free
      exact ⟨v, phase, (setPc_at ..).mpr (by rw [if_neg differs]; exact there), unlinked⟩
    · obtain ⟨v, less, isClose, sock, out, isOpen⟩ := there
      refine ⟨v, less, ?_⟩
      rw [fields]; grind
    · have := dispatched u there
      rw [fields]
      change u ∈ rest ∨ _
      grind
  | phase at_ plain plain' kept =>
    exact closes.same rfl rfl rfl rfl rfl (fun _ => .setPc at_ (Phase.linked_of_plain plain)) rfl
      (fun _ _ => Nat.le_refl _) bound
  | flag => exact closes.modTask _ _ rfl rfl rfl rfl rfl
  | kicks =>
    refine closes.same rfl rfl rfl rfl rfl (fun t unlinking => ?_) rfl
      (fun _ _ => Nat.le_refl _) bound
    obtain ⟨v, phase, there, unlinked⟩ := unlinking
    refine ⟨v, phase, ?_, unlinked⟩
    simp only [At, modWorker, Function.update_apply] at there ⊢
    grind
  | win at_ plain kept =>
    refine closes.same rfl rfl rfl rfl rfl ?_ rfl (fun fd less => ?_) bound
    · exact fun t unlinking => Unlinking.setPc (c := c.newDesc) at_ (Phase.linked_of_plain plain) unlinking
    · simp [setPc, modWorker, newDesc, Function.update_of_ne (Nat.ne_of_lt less)]
  | send at_ fits =>
    rename_i w t off n
    refine (closes.modTask t (fun k => { k with sent := off + n }) rfl rfl rfl rfl rfl).same
      rfl rfl rfl rfl rfl ?_ rfl (fun fd _ => ?_) bound
    · exact fun u unlinking => Unlinking.setPc (c := c.modTask t _) at_ rfl unlinking
    · simp only [Pool.sendBytes, setPc, modWorker, Core.modTask, modDesc, Function.update_apply]
      grind
  | link loose => exact closes.sockLink linked _
  | close loose =>
    refine closes.same rfl rfl rfl rfl rfl (fun _ => id) rfl (fun fd _ => ?_) bound
    simp only [closeDesc, modDesc, Function.update_apply]; grind
  | discard unused =>
    rename_i s
    refine closes.unlinked (s := s) rfl rfl rfl rfl (linked.mem_unlink s) (fun u other => ?_)
      (.inl unused.live) ?_ (fun fd => ?_) (fun _ => id) ?_
    · simp [sockDiscard, sockFree, modSock, closeDesc, modDesc, sockUnlink, other]
    · simp [sockDiscard, sockFree, modSock, closeDesc, modDesc, sockUnlink]
    · simp only [sockDiscard, sockFree, modSock, closeDesc, modDesc, sockUnlink,
        Function.update_apply]
      grind
    · exact fun t pending _ sock => absurd sock (unused.tasks t pending)
  | unlink at_ sock unused =>
    rename_i w t s
    have runs : c.Runs w t := at_.runs
    have pending := (placed.run_pending w t runs).1
    have isClose : (c.task t).kind = .opSockClose := phased w t _ at_
    refine closes.unlinked (s := s) rfl rfl rfl rfl (linked.mem_unlink s) (fun _ _ => rfl)
      (.inr fun u less isClose' sock' => ?_) rfl (fun _ => Nat.le_refl _)
      (fun u => Unlinking.setPc (c := c.sockUnlink s) at_ rfl) ?_
    · obtain rfl := closes.close_inj t u s pending.1 less isClose isClose' sock sock'
      exact pending.2.1
    · intro u pending' isClose' sock'
      obtain rfl := closes.close_inj t u s pending.1 pending'.1 isClose isClose' sock sock'
      exact .of_setPc at_.1 rfl
  | freeSock at_ sock =>
    rename_i w t s fd
    have pending := (placed.run_pending w t at_.runs).1
    obtain ⟨isClose, there⟩ : c.PhaseOk t (.release fd) := phased w t _ at_
    have outside := (there s sock).1
    have unlinked : ((c.sockFree s).setPc w (.running t (.closeFd fd))).Unlinking t :=
      .of_setPc at_.1 rfl
    refine closes.unlinked (s := s) rfl rfl rfl rfl (fun u => ?_) (fun u other => ?_)
      (.inr fun u less isClose' sock' => ?_) ?_ (fun _ => Nat.le_refl _) (fun u unlinking => ?_) ?_
    · exact ⟨fun live => ⟨fun same => outside (same ▸ live), live⟩, fun live => live.2⟩
    · simp [setPc, modWorker, sockFree, modSock, other]
    · obtain rfl := closes.close_inj t u s pending.1 less isClose isClose' sock sock'
      exact pending.2.1
    · simp [setPc, modWorker, sockFree, modSock]
    · by_cases same : u = t
      · subst same; exact unlinked
      · exact Unlinking.setPc_other (c := c.sockFree s) at_ same unlinking
    · intro u pending' isClose' sock'
      obtain rfl := closes.close_inj t u s pending.1 pending'.1 isClose isClose' sock sock'
      exact unlinked
  | closeFd at_ =>
    rename_i w t fd
    refine closes.same rfl rfl rfl rfl rfl (fun u unlinking => ?_) rfl (fun fd _ => ?_) bound
    · by_cases same : u = t
      · subst same; exact .of_setPc at_.1 rfl
      · exact Unlinking.setPc_other (c := c.closeDesc fd) at_ same unlinking
    · simp only [setPc, modWorker, closeDesc, modDesc, Function.update_apply]; grind
  | detach open_ held =>
    rename_i t
    exact (closes.modTask t ({ · with detached := true }) rfl rfl rfl rfl rfl).same
      rfl rfl rfl rfl rfl (fun _ => id) rfl (fun _ _ => Nat.le_refl _) bound
  | free done held =>
    rename_i t
    exact (closes.modTask t (fun k => { k with frees := k.frees + 1 }) rfl rfl rfl rfl rfl).same
      rfl rfl rfl rfl rfl (fun _ => id) rfl (fun _ _ => Nat.le_refl _) bound
  | wrap free =>
    refine closes.same rfl rfl rfl rfl rfl (fun _ => id) rfl (fun fd less => ?_) bound
    simp [newDesc, Function.update_of_ne (Nat.ne_of_lt less)]
  | sweep idle =>
    rw [closeSocks_rest]
    obtain ⟨sockBound, sockKind, closeSock, isClosing, closeInj, closeLive, isDrained, isClosed⟩ := closes
    refine ⟨sockBound, sockKind, closeSock, ?_, closeInj, fun t _ pending => absurd pending (idle t),
      fun _ live => (List.not_mem_nil live).elim, ?_⟩
    · intro t s less isClose sock
      have := isClosing t s less isClose sock
      exact (closeSocks_closing c c.socks s).trans this
    · intro t s less isClose sock done okay
      obtain ⟨outside, freed, shut⟩ := isClosed t s less isClose sock done okay
      refine ⟨List.not_mem_nil, ?_, ?_⟩
      · change ((Pool.closeSocks c c.socks).sock s).frees = 1
        rw [closeSocks_sock c.socks c s outside]
        exact freed
      · change 0 < ((Pool.closeSocks c c.socks).desc
          ((Pool.closeSocks c c.socks).sock s).fd).closes
        rw [closeSocks_sock c.socks c s outside]
        exact Nat.lt_of_lt_of_le shut (closeSocks_closes c.socks c _)
  | _ => exact closes.same rfl rfl rfl rfl rfl (fun _ => id) rfl (fun _ _ => Nat.le_refl _) bound

end Closes

end Myio.Core
