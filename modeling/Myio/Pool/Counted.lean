import Myio.Lib.Count
import Myio.Pool.Placed

/-! The counters the pools keep: queued tasks, running tasks, and operations per socket. -/

namespace Myio.Core

open Machine

/-- A task a worker has dequeued and not yet completed. -/
def Underway (c : Core) (t : TaskId) : Prop := (c.task t).done = false ∧ (c.task t).started = true

instance (c : Core) : DecidablePred c.Underway :=
  fun _ => inferInstanceAs (Decidable (_ ∧ _))

/-- A pending read, write or accept on a socket. -/
def OnSock (c : Core) (x : TaskId → Bool) (s : SockId) (t : TaskId) : Prop :=
  c.Pending x t ∧ opOnSock (c.task t).kind = true ∧ (c.task t).sock = some s

instance (c : Core) (x : TaskId → Bool) (s : SockId) : DecidablePred (c.OnSock x s) :=
  fun _ => inferInstanceAs (Decidable (_ ∧ _ ∧ _))

/-- Every counter counts what it says. -/
structure Counted (c : Core) (x : TaskId → Bool) : Prop where
  nqueued : c.nqueued = c.queue.length
  nrunning : c.nrunning = Nat.count c.Underway c.ntask
  inflight : ∀ s, s ∈ c.socks → (c.sock s).inflight = Nat.count (c.OnSock x s) c.ntask

section Frame

variable {c c' : Core} {x x' : TaskId → Bool}

/-- The counters are right after any change that neither starts, ends nor moves a task. -/
theorem Counted.congr (counted : c.Counted x) (ntask : c'.ntask = c.ntask)
    (queue : c'.nqueued = c'.queue.length) (nrunning : c'.nrunning = c.nrunning)
    (underway : ∀ t, t < c.ntask → (c'.Underway t ↔ c.Underway t))
    (socks : ∀ s, s ∈ c'.socks → s ∈ c.socks ∧ (c'.sock s).inflight = (c.sock s).inflight)
    (onSock : ∀ s t, s ∈ c'.socks → t < c.ntask → (c'.OnSock x' s t ↔ c.OnSock x s t)) :
    c'.Counted x' := by
  refine ⟨queue, ?_, fun s inside => ?_⟩
  · rw [nrunning, counted.nrunning, ntask]
    exact count_congr fun t below => (underway t below).symm
  · rw [(socks s inside).2, counted.inflight s (socks s inside).1, ntask]
    exact count_congr fun t below => (onSock s t inside below).symm

/-- A change of what the counters do not depend on. -/
theorem Counted.same (counted : c.Counted x) (ntask : c'.ntask = c.ntask)
    (task : c'.task = c.task) (queue : c'.queue = c.queue) (nqueued : c'.nqueued = c.nqueued)
    (nrunning : c'.nrunning = c.nrunning) (socks : c'.socks = c.socks) (sock : c'.sock = c.sock) :
    c'.Counted x := by
  refine counted.congr ntask ?_ nrunning ?_ ?_ ?_
  · rw [queue, nqueued]; exact counted.nqueued
  · simp [Underway, task]
  · simp [socks, sock]
  · simp [OnSock, Pending, ntask, task]

/-- A change inside one task's record that neither starts nor ends it. -/
theorem Counted.modTask (counted : c.Counted x) (t : TaskId) (f : Task → Task)
    (done : (f (c.task t)).done = (c.task t).done) (kind : (f (c.task t)).kind = (c.task t).kind)
    (sock : (f (c.task t)).sock = (c.task t).sock)
    (started : (f (c.task t)).started = (c.task t).started) : (c.modTask t f).Counted x := by
  refine counted.congr rfl counted.nqueued rfl ?_ (fun _ inside => ⟨inside, rfl⟩) ?_
  · intro u _; simp only [Underway, Core.modTask, Function.update_apply]; grind
  · intro s u _ _; simp only [OnSock, Pending, Core.modTask, Function.update_apply]; grind

/-- A change inside a socket's record that leaves its count alone. -/
theorem Counted.modSock (counted : c.Counted x) (s : SockId) (f : Sock → Sock)
    (inflight : (f (c.sock s)).inflight = (c.sock s).inflight) : (c.modSock s f).Counted x := by
  refine counted.congr rfl counted.nqueued rfl (fun _ _ => Iff.rfl) ?_ (fun _ _ _ _ => Iff.rfl)
  intro u inside
  refine ⟨inside, ?_⟩
  simp only [Core.modSock, Function.update_apply]
  grind

/-- A socket that goes takes its count with it. -/
theorem Counted.sockUnlink (counted : c.Counted x) (s : SockId) : (c.sockUnlink s).Counted x :=
  counted.congr rfl counted.nqueued rfl (fun _ _ => Iff.rfl)
    (fun _ inside => ⟨List.mem_of_mem_erase inside, rfl⟩) (fun _ _ _ _ => Iff.rfl)

/-- A new task is not counted anywhere yet. -/
theorem Counted.taskNew (counted : c.Counted x) {k : Task} (started : k.started = false) :
    (c.taskNew k).Counted (Function.update x c.ntask true) := by
  have below : ∀ t, t < c.ntask → (c.taskNew k).task t = c.task t := by
    intro t inside
    simp [Core.taskNew, Function.update_of_ne (Nat.ne_of_lt inside)]
  refine ⟨counted.nqueued, ?_, fun s inside => ?_⟩
  · have fresh : ¬ (c.taskNew k).Underway c.ntask := by simp [Underway, Core.taskNew, started]
    change c.nrunning = Nat.count _ (c.ntask + 1)
    rw [Nat.count_succ, if_neg fresh, counted.nrunning]
    exact count_congr fun t less => by simp [Underway, below t less]
  · have fresh : ¬ (c.taskNew k).OnSock (Function.update x c.ntask true) s c.ntask := by
      simp [OnSock, Pending]
    change (c.sock s).inflight = Nat.count _ (c.ntask + 1)
    rw [Nat.count_succ, if_neg fresh, counted.inflight s inside]
    refine count_congr fun t less => ?_
    have other : t ≠ c.ntask := Nat.ne_of_lt less
    have inside : t < (c.taskNew k).ntask := Nat.lt_succ_of_lt less
    simp [OnSock, Pending, below t less, other, less, inside]

/-- A new socket counts nothing, and no operation refers to it. -/
theorem Counted.sockLink (counted : c.Counted x) (fd : Fd)
    (bound : ∀ s, s ∈ c.socks → s < c.nsock)
    (live : ∀ s t, c.OnSock x s t → s ∈ c.socks) : (c.sockLink fd).Counted x := by
  refine ⟨counted.nqueued, counted.nrunning, fun s inside => ?_⟩
  have fresh : c.nsock ∉ c.socks := fun there => Nat.lt_irrefl _ (bound _ there)
  have linked : s = c.nsock ∨ s ∈ c.socks := by simpa [Core.sockLink] using inside
  rcases linked with rfl | before
  · have nobody : Nat.count (c.OnSock x c.nsock) c.ntask = 0 :=
      count_eq_zero.mpr fun t _ there => fresh (live _ t there)
    have empty : ((c.sockLink fd).sock c.nsock).inflight = 0 := by simp [Core.sockLink]
    exact empty.trans nobody.symm
  · have other : s ≠ c.nsock := fun same => fresh (same ▸ before)
    have old : (c.sockLink fd).sock s = c.sock s := by simp [Core.sockLink, other]
    rw [old]
    exact counted.inflight s before

/-- One operation more on its socket, and the socket's count goes up. -/
theorem Counted.arrive (counted : c.Counted x) {t : TaskId} (ntask : c'.ntask = c.ntask)
    (inside : t < c.ntask) (absent : ¬ c.Pending x t)
    (pending : ∀ u, c'.Pending x' u ↔ c.Pending x u ∨ u = t)
    (same : ∀ u, (c'.task u).kind = (c.task u).kind ∧ (c'.task u).sock = (c.task u).sock)
    {s : SockId} (live : s ∈ c.socks) (inflight : (c'.sock s).inflight =
      if opOnSock (c.task t).kind ∧ (c.task t).sock = some s then (c.sock s).inflight + 1
      else (c.sock s).inflight) :
    (c'.sock s).inflight = Nat.count (c'.OnSock x' s) c'.ntask := by
  rw [inflight, ntask, counted.inflight s live]
  split
  · rename_i onSock
    refine (count_gain inside ?_ ?_ ?_).symm
    · exact fun there => absent there.1
    · exact ⟨(pending t).mpr (.inr rfl), by simpa [(same t).1] using onSock.1,
        by simpa [(same t).2] using onSock.2⟩
    · intro u _ other; simp [OnSock, pending, same, other]
  · rename_i elsewhere
    refine count_congr fun u _ => ?_
    by_cases isT : u = t
    · subst isT; simp [OnSock, absent, same]; grind
    · simp [OnSock, pending, same, isT]

/-- One operation fewer on its socket, and the socket's count goes down. -/
theorem Counted.leave (counted : c.Counted x) {t : TaskId} (ntask : c'.ntask = c.ntask)
    (present : c.Pending x t) (pending : ∀ u, c'.Pending x' u ↔ c.Pending x u ∧ u ≠ t)
    (same : ∀ u, u ≠ t → (c'.task u).kind = (c.task u).kind ∧ (c'.task u).sock = (c.task u).sock)
    {s : SockId} (live : s ∈ c.socks) (inflight : (c'.sock s).inflight =
      if opOnSock (c.task t).kind ∧ (c.task t).sock = some s then (c.sock s).inflight - 1
      else (c.sock s).inflight) :
    (c'.sock s).inflight = Nat.count (c'.OnSock x' s) c'.ntask := by
  rw [inflight, ntask, counted.inflight s live]
  have others : ∀ u, u < c.ntask → u ≠ t → (c'.OnSock x' s u ↔ c.OnSock x s u) := by
    intro u _ other; simp [OnSock, pending, same u other, other]
  have gone : ¬ c'.OnSock x' s t := fun there => ((pending t).mp there.1).2 rfl
  split
  · rename_i onSock
    have present : c.OnSock x s t := ⟨present, onSock.1, onSock.2⟩
    have := count_gain present.1.1 gone present others
    omega
  · rename_i elsewhere
    refine count_congr fun u below => ?_
    by_cases isT : u = t
    · subst isT
      exact ⟨fun there => absurd there.2 elsewhere, fun there => absurd there gone⟩
    · exact (others u below isT).symm

end Frame

/-- A socket's count after a task has left it. -/
theorem leaveSock_inflight {c : Core} {t : TaskId}
    (onSock : opOnSock (c.task t).kind → ∃ s, (c.task t).sock = some s) (s : SockId) :
    ((c.leaveSock t).sock s).inflight =
      if opOnSock (c.task t).kind ∧ (c.task t).sock = some s then (c.sock s).inflight - 1
      else (c.sock s).inflight := by
  unfold leaveSock
  split
  · rename_i blocks
    obtain ⟨u, sock⟩ := onSock blocks
    simp only [modSock, sockOf, sock, Option.getD_some, Function.update_apply]
    grind
  · rename_i apart; simp [apart]

section Move

variable {o : OpKind → Result → Prop} {c : Core} {x : TaskId → Bool} {h : SockId → Bool}

/-- A task no worker has touched is lifted out. -/
theorem Counted.exit {t : TaskId} (counted : c.Counted x) (placed : c.Placed x h)
    (pending : c.Pending x t) :
    ((c.queueRemove t).leaveSock t).Counted (Function.update x t true) := by
  have rest := leaveSock_rest (c.queueRemove t) t
  have shared := queueRemove_rest c t
  refine ⟨?_, ?_, fun s inside => ?_⟩
  · rw [rest]
    unfold queueRemove
    split
    · rename_i there
      simp only [List.length_erase_of_mem there, counted.nqueued]
    · exact counted.nqueued
  · rw [rest, shared]; exact counted.nrunning
  · have onSock : opOnSock (c.task t).kind → ∃ s, (c.task t).sock = some s := fun blocks =>
      (placed.sock_live t pending blocks).imp fun _ there => there.1
    have live : s ∈ c.socks := by rw [rest, shared] at inside; exact inside
    refine counted.leave (t := t) ?_ pending ?_ ?_ live ?_
    · rw [rest, shared]
    · intro u; rw [rest, shared]; simp only [Pending, Function.update_apply]; grind
    · intro u _; rw [rest, shared]; exact ⟨rfl, rfl⟩
    · have count := leaveSock_inflight (c := c.queueRemove t) (t := t) (by rw [shared]; exact onSock) s
      rw [count, shared]

/-- A running task leaves its socket. -/
theorem Counted.exitRun {t : TaskId} {w : WorkerId} (counted : c.Counted x)
    (placed : c.Placed x h) (pending : c.Pending x t) :
    ((c.setPc w .ready).leaveSock t).Counted (Function.update x t true) := by
  have rest := leaveSock_rest (c.setPc w .ready) t
  refine ⟨?_, ?_, fun s inside => ?_⟩
  · rw [rest]; exact counted.nqueued
  · rw [rest]; exact counted.nrunning
  · have onSock : opOnSock (c.task t).kind → ∃ s, (c.task t).sock = some s := fun blocks =>
      (placed.sock_live t pending blocks).imp fun _ there => there.1
    have live : s ∈ c.socks := by rw [rest] at inside; exact inside
    refine counted.leave (t := t) ?_ pending ?_ ?_ live ?_
    · rw [rest]; rfl
    · intro u; rw [rest]; simp only [Pending, setPc, modWorker, Function.update_apply]; grind
    · intro u _; rw [rest]; exact ⟨rfl, rfl⟩
    · exact leaveSock_inflight (c := c.setPc w .ready) (t := t) onSock s

/-- A task on its way out is marked done. -/
theorem Counted.settle {t : TaskId} (counted : c.Counted x) (submitted : t < c.ntask)
    (open_ : (c.task t).done = false) (out : x t = true) (res : Result) :
    (c.settle t res).Counted (Function.update x t false) := by
  have others : ∀ u, u ≠ t → (c.settle t res).task u = c.task u := by
    intro u other; simp [Core.settle, Core.modTask, other]
  have ended : ((c.settle t res).task t).done = true := by
    simp [Core.settle, Core.modTask, settled]
  refine ⟨counted.nqueued, ?_, fun s inside => ?_⟩
  · change (if (c.task t).started then c.nrunning - 1 else c.nrunning) =
      Nat.count (c.settle t res).Underway c.ntask
    have agree : ∀ u, u < c.ntask → u ≠ t → ((c.settle t res).Underway u ↔ c.Underway u) := by
      intro u _ other; simp [Underway, others u other]
    have gone : ¬ (c.settle t res).Underway t := by simp [Underway, ended]
    rw [counted.nrunning]
    split
    · rename_i started
      have := count_gain submitted gone ⟨open_, started⟩ agree
      omega
    · rename_i unstarted
      refine count_congr fun u below => ?_
      by_cases isT : u = t
      · subst isT; exact ⟨fun there => absurd there.2 unstarted, fun there => absurd there gone⟩
      · exact (agree u below isT).symm
  · refine (counted.inflight s inside).trans (count_congr fun u _ => ?_)
    by_cases isT : u = t
    · subst isT; simp [OnSock, Pending, out, ended]
    · simp only [OnSock, Pending, others u isT, Function.update_of_ne isT]; rfl

/-- A head with no worker to be had leaves its FIFO, done. -/
theorem Counted.failHead {s : SockId} {n : TaskId} {rest : List TaskId} (counted : c.Counted x)
    (placed : c.Placed x h) (inside : s ∈ c.socks) (bare : h s = true)
    (wq : (c.sock s).wq = n :: rest) : (Pool.failHead c s n).Counted x := by
  have member : n ∈ (c.sock s).wq := by simp [wq]
  obtain ⟨pending, kind, sock⟩ := (placed.wq_mem s n inside).mp member
  have unstarted := (placed.wq_rest s n inside member (.inl bare)).2
  rw [failHead_eq]
  refine ⟨counted.nqueued, ?_, fun u live => ?_⟩
  · refine counted.nrunning.trans (count_congr fun u _ => ?_)
    simp only [Underway, Core.modTask, Core.modSock, Function.update_apply, settled]
    grind
  · refine counted.leave (t := n) ?_ pending ?_ ?_ live ?_
    · rfl
    · intro u; simp only [Pending, Core.modTask, Core.modSock, Function.update_apply, settled]; grind
    · intro u other; simp [Core.modTask, Core.modSock, other]
    · have onSock : opOnSock (c.task n).kind = true := by rw [kind]; rfl
      simp only [Core.modTask, Core.modSock, Function.update_apply, onSock, sock]
      grind

/-- A worker takes the head of the work queue. -/
theorem Counted.take {w : WorkerId} {t : TaskId} {rest : List TaskId} (counted : c.Counted x)
    (placed : c.Placed x h) (queue : c.queue = t :: rest) :
    (({ c with queue := rest, nqueued := c.nqueued - 1, nrunning := c.nrunning + 1 }.modTask t
      fun k => { k with started := true, worker := some w }).setPc w
        (.running t .entry)).Counted x := by
  obtain ⟨pending, unstarted⟩ := placed.queue_pending t (by simp [queue])
  refine ⟨?_, ?_, fun s inside => ?_⟩
  · change c.nqueued - 1 = rest.length
    rw [counted.nqueued, queue]; rfl
  · change c.nrunning + 1 = _
    rw [counted.nrunning]
    refine (count_gain pending.1 ?_ ?_ ?_).symm
    · simp [Underway, unstarted]
    · simp [Underway, setPc, modWorker, Core.modTask, pending.2.1]
    · intro u _ other; simp [Underway, setPc, modWorker, Core.modTask, other]
  · refine (counted.inflight s inside).trans (count_congr fun u _ => ?_)
    simp only [OnSock, Pending, setPc, modWorker, Core.modTask, Function.update_apply]
    grind

/-- A task that arrives is counted on its socket. -/
theorem Counted.enqueue {t : TaskId} (counted : c.Counted x) (submitted : t < c.ntask)
    (open_ : (c.task t).done = false) (out : x t = true)
    (onSock : opOnSock (c.task t).kind → ∃ s, (c.task t).sock = some s ∧ s ∈ c.socks) :
    ((if opOnSock (c.task t).kind then c.inflightInc (c.sockOf t) else c).queuePush t).Counted
      (Function.update x t false) := by
  have absent : ¬ c.Pending x t := fun there => by simp [Pending, out] at there
  refine ⟨?_, ?_, fun s inside => ?_⟩
  · split <;> simp [queuePush, inflightInc, Core.modSock, counted.nqueued]
  · split <;> exact counted.nrunning
  · have live : s ∈ c.socks := by split at inside <;> exact inside
    refine counted.arrive (t := t) ?_ submitted absent ?_ ?_ live ?_
    · split <;> rfl
    · intro u
      split <;> simp only [Pending, queuePush, inflightInc, Core.modSock, Function.update_apply] <;>
        grind
    · intro u; split <;> exact ⟨rfl, rfl⟩
    · split
      · rename_i blocks
        obtain ⟨u, sock, _⟩ := onSock blocks
        simp only [queuePush, inflightInc, Core.modSock, sockOf, sock, Option.getD_some,
          Function.update_apply]
        grind
      · rename_i apart; simp [apart, queuePush]

/-- A write that arrives is counted on its socket. -/
theorem Counted.park {t : TaskId} {s : SockId} (counted : c.Counted x) (submitted : t + 1 = c.ntask)
    (open_ : (c.task t).done = false) (out : x t = true)
    (kind : (c.task t).kind = .opSockWrite) (sock : (c.task t).sock = some s) :
    ((c.inflightInc s).modSock s fun k => { k with wq := k.wq ++ [t] }).Counted
      (Function.update x t false) := by
  have absent : ¬ c.Pending x t := fun there => by simp [Pending, out] at there
  have inside : t < c.ntask := submitted ▸ Nat.lt_succ_self t
  refine ⟨counted.nqueued, counted.nrunning, fun u live => ?_⟩
  refine counted.arrive (t := t) ?_ inside absent ?_ ?_ live ?_
  · rfl
  · intro v; simp only [Pending, inflightInc, Core.modSock, Function.update_apply]; grind
  · exact fun _ => ⟨rfl, rfl⟩
  · have onSock : opOnSock (c.task t).kind = true := by rw [kind]; rfl
    simp only [inflightInc, Core.modSock, Function.update_apply, onSock, sock]
    grind

/-- Every move keeps the counters right. -/
theorem Counted.move {c' : Core} {x' : TaskId → Bool} {h' : SockId → Bool}
    (move : Move o ⟨c, x, h⟩ ⟨c', x', h'⟩) (counted : c.Counted x) (placed : c.Placed x h)
    (bound : ∀ s, s ∈ c.socks → s < c.nsock) : c'.Counted x' := by
  cases move with
  | stir stirred => rw [stirred.rest]; exact counted.same rfl rfl rfl rfl rfl rfl rfl
  | exit pending unstarted => exact counted.exit placed pending
  | exitRun at_ pending => exact counted.exitRun placed pending
  | settle submitted open_ out settles allowed => exact counted.settle submitted open_ out _
  | promote live bare head =>
    refine ⟨?_, counted.nrunning, counted.inflight⟩
    simp [queuePush, counted.nqueued]
  | fail live bare usable wq => exact counted.failHead placed live bare wq
  | headed empty => exact counted
  | create fresh => exact counted.taskNew fresh.started
  | createClose live open_ mine => exact (counted.taskNew rfl).modSock _ _ rfl
  | enqueue submitted open_ unstarted out kind live onSock =>
    exact counted.enqueue submitted open_ out onSock
  | park submitted open_ unstarted out kind sock live usable =>
    exact counted.park submitted open_ out kind sock
  | take queue inside free => exact counted.take placed queue
  | flag => exact counted.modTask _ _ rfl rfl rfl rfl
  | send at_ fits =>
    rename_i w t off n
    exact (counted.modTask t (fun k => { k with sent := off + n }) rfl rfl rfl rfl).same
      rfl rfl rfl rfl rfl rfl rfl
  | link loose =>
    refine counted.sockLink _ bound fun s t onSock => ?_
    obtain ⟨u, sock, live⟩ := placed.sock_live t onSock.1 onSock.2.1
    exact Option.some.inj (sock.symm.trans onSock.2.2) ▸ live
  | discard unused =>
    rename_i s
    have closed : ((c.sockUnlink s).closeDesc (c.sock s).fd).Counted x :=
      (counted.sockUnlink s).same rfl rfl rfl rfl rfl rfl rfl
    exact closed.modSock s (fun k => { k with frees := k.frees + 1 }) rfl
  | unlink at_ sock unused => exact (counted.sockUnlink _).same rfl rfl rfl rfl rfl rfl rfl
  | freeSock at_ sock =>
    rename_i w t s fd
    exact (counted.modSock s (fun k => { k with frees := k.frees + 1 }) rfl).same
      rfl rfl rfl rfl rfl rfl rfl
  | detach open_ held =>
    rename_i t
    exact (counted.modTask t ({ · with detached := true }) rfl rfl rfl rfl).same
      rfl rfl rfl rfl rfl rfl rfl
  | free done held =>
    rename_i t
    exact (counted.modTask t (fun k => { k with frees := k.frees + 1 }) rfl rfl rfl rfl).same
      rfl rfl rfl rfl rfl rfl rfl
  | sweep idle =>
    rw [closeSocks_rest]
    exact ⟨counted.nqueued, counted.nrunning, fun _ inside => by cases inside⟩
  | _ => exact counted.same rfl rfl rfl rfl rfl rfl rfl

end Move

end Myio.Core
