import Myio.Pool.Sound

/-!
The order of the work queue, as far as it matters to the task that closes a socket: what it will wait
for comes before it.
-/

namespace Myio.Core

open Function (update)

/--
A socket's operations are older than its close task; one that no worker has touched is on the queue
before it.
-/
structure Behind (c : Core) (x : TaskId → Bool) : Prop where
  prior : ∀ t u s, t < c.ntask → u < c.ntask → (c.task t).kind = .opSockClose →
    (c.task t).sock = some s → opOnSock (c.task u).kind → (c.task u).sock = some s → u < t
  order : ∀ t u s, c.Pending x t → c.Pending x u → (c.task t).kind = .opSockClose →
    (c.task t).sock = some s → opOnSock (c.task u).kind → (c.task u).sock = some s →
    (c.task u).started = false → (c.task t).started = false ∧ [u, t].Sublist c.queue

variable {o : OpKind → Result → Prop} {c c' : Core} {x x' : TaskId → Bool} {h h' : SockId → Bool}
  {t u : TaskId} {s : SockId}

/-- A change that makes no task, and reorders nothing. -/
theorem Behind.congr (behind : c.Behind x) (ntask : c'.ntask = c.ntask)
    (task : ∀ t, t < c.ntask → (c'.task t).kind = (c.task t).kind ∧ (c'.task t).sock = (c.task t).sock ∧
      (c'.Pending x' t → c.Pending x t ∧ (c'.task t).started = (c.task t).started))
    (queue : ∀ t u, c'.Pending x' t → c'.Pending x' u → [u, t].Sublist c.queue →
      [u, t].Sublist c'.queue) : c'.Behind x' := by
  constructor
  · intro t u s insideT insideU isClose sock blocks there
    rw [ntask] at insideT insideU
    rw [(task t insideT).1] at isClose
    rw [(task t insideT).2.1] at sock
    rw [(task u insideU).1] at blocks
    rw [(task u insideU).2.1] at there
    exact behind.prior t u s insideT insideU isClose sock blocks there
  · intro t u s pendingT pendingU isClose sock blocks there unstarted
    have insideT := ntask ▸ pendingT.1
    have insideU := ntask ▸ pendingU.1
    obtain ⟨kindT, sockT, beforeT⟩ := task t insideT
    obtain ⟨kindU, sockU, beforeU⟩ := task u insideU
    obtain ⟨pendingT', startedT⟩ := beforeT pendingT
    obtain ⟨pendingU', startedU⟩ := beforeU pendingU
    rw [kindT] at isClose
    rw [sockT] at sock
    rw [kindU] at blocks
    rw [sockU] at there
    obtain ⟨idle, before⟩ := behind.order t u s pendingT' pendingU' isClose sock blocks there
      (startedU ▸ unstarted)
    exact ⟨startedT.trans idle, queue t u pendingT pendingU before⟩

/-- A change of neither tasks nor queue. -/
theorem Behind.same (behind : c.Behind x) (ntask : c'.ntask = c.ntask) (task : c'.task = c.task)
    (queue : c'.queue = c.queue) : c'.Behind x := by
  refine behind.congr ntask (fun t _ => ?_) fun t u _ _ before => queue ▸ before
  rw [task]
  refine ⟨rfl, rfl, fun pending => ⟨?_, rfl⟩⟩
  unfold Pending at pending ⊢
  rw [ntask, task] at pending
  exact pending

/-- A change inside one task's record that neither starts, ends nor moves it. -/
theorem Behind.modTask (behind : c.Behind x) (t : TaskId) (f : Task → Task)
    (kind : (f (c.task t)).kind = (c.task t).kind) (sock : (f (c.task t)).sock = (c.task t).sock)
    (done : (f (c.task t)).done = (c.task t).done) (started : (f (c.task t)).started = (c.task t).started) :
    (c.modTask t f).Behind x := by
  refine behind.congr rfl (fun u _ => ?_) fun _ _ _ _ => id
  simp only [Pending, Core.modTask, Function.update_apply]
  split
  · rename_i same; subst same; exact ⟨kind, sock, fun pending => ⟨done ▸ pending, started⟩⟩
  · exact ⟨rfl, rfl, fun pending => ⟨pending, rfl⟩⟩

/-- A pair that another task leaves stays in order. -/
theorem sublist_erase {l : List Nat} {v : Nat} (before : [u, t].Sublist l) (otherU : u ≠ v)
    (otherT : t ≠ v) : [u, t].Sublist (l.erase v) := by
  have := before.erase v
  rwa [List.erase_of_not_mem (by simp [Ne.symm otherU, Ne.symm otherT])] at this

/-- What is pending with one more task on its way out is another task. -/
theorem Pending.of_out (pending : c.Pending (update x u true) t) : t ≠ u ∧ c.Pending x t := by
  obtain ⟨inside, isOpen, out⟩ := pending
  have other : t ≠ u := by
    rintro rfl
    simp at out
  exact ⟨other, inside, isOpen, by simpa [other] using out⟩

/-- What is pending with one more task come in is that task, or was before. -/
theorem Pending.of_in (pending : c.Pending (update x u false) t) (other : t ≠ u) : c.Pending x t := by
  obtain ⟨inside, isOpen, out⟩ := pending
  exact ⟨inside, isOpen, by simpa [other] using out⟩

/-- A task ends. -/
theorem Behind.ended (behind : c.Behind x) {v : TaskId} {e : Result} (ntask : c'.ntask = c.ntask)
    (task : ∀ t, c'.task t = if t = v then settled e (c.task v) else c.task t)
    (queue : c'.queue = c.queue) (out : ∀ t, t ≠ v → x' t = x t) : c'.Behind x' := by
  refine behind.congr ntask (fun t inside => ?_) fun _ _ _ _ before => queue ▸ before
  rw [task]
  by_cases same : t = v
  · subst same
    rw [if_pos rfl]
    refine ⟨rfl, rfl, fun pending => ?_⟩
    have isOpen := pending.2.1
    rw [task, if_pos rfl] at isOpen
    cases isOpen
  · rw [if_neg same]
    refine ⟨rfl, rfl, fun pending => ⟨⟨inside, ?_, ?_⟩, rfl⟩⟩
    · have isOpen := pending.2.1
      rwa [task, if_neg same] at isOpen
    · exact (out t same).symm.trans pending.2.2

/-- A task is made, and is on its way in. -/
theorem Behind.made (behind : c.Behind x) (ntask : c'.ntask = c.ntask + 1)
    (task : ∀ t, t < c.ntask → c'.task t = c.task t) (queue : c'.queue = c.queue)
    (apart : opOnSock (c'.task c.ntask).kind → ∀ t s, t < c.ntask →
      (c.task t).kind = .opSockClose → (c.task t).sock = some s → (c'.task c.ntask).sock ≠ some s) :
    c'.Behind (update x c.ntask true) := by
  have old : ∀ t, t < c'.ntask → t ≠ c.ntask → t < c.ntask := fun t inside other =>
    Nat.lt_of_le_of_ne (by omega) other
  have before : ∀ t, c'.Pending (update x c.ntask true) t → t < c.ntask ∧ c.Pending x t := by
    intro t pending
    obtain ⟨other, inside, isOpen, out⟩ := pending.of_out
    have less := old t inside other
    exact ⟨less, less, task t less ▸ isOpen, out⟩
  constructor
  · intro t u s insideT insideU isClose sock blocks there
    by_cases newU : u = c.ntask
    · -- A new operation is on a socket that nobody closes.
      subst newU
      by_cases newT : t = c.ntask
      · subst newT
        rw [isClose] at blocks
        cases blocks
      · have less := old t insideT newT
        rw [task t less] at isClose sock
        exact absurd there (apart blocks t s less isClose sock)
    · have lessU := old u insideU newU
      by_cases newT : t = c.ntask
      · rw [newT]; exact lessU
      · have lessT := old t insideT newT
        rw [task t lessT] at isClose sock
        rw [task u lessU] at blocks there
        exact behind.prior t u s lessT lessU isClose sock blocks there
  · intro t u s pendingT pendingU isClose sock blocks there unstarted
    obtain ⟨lessT, pendingT⟩ := before t pendingT
    obtain ⟨lessU, pendingU⟩ := before u pendingU
    rw [task t lessT] at isClose sock ⊢
    rw [task u lessU] at blocks there unstarted
    rw [queue]
    exact behind.order t u s pendingT pendingU isClose sock blocks there unstarted

/-- A task has come in: it closes a socket, or it is the newest. -/
theorem Behind.entered (behind : c.Behind x) {v : TaskId} (ntask : c'.ntask = c.ntask)
    (task : c'.task = c.task) (queue : c.queue.Sublist c'.queue)
    (newest : opOnSock (c.task v).kind → v + 1 = c.ntask)
    (close : ∀ u s, c.Pending x u → (c.task v).kind = .opSockClose → (c.task v).sock = some s →
      opOnSock (c.task u).kind → (c.task u).sock = some s → (c.task u).started = false →
      (c.task v).started = false ∧ [u, v].Sublist c'.queue) : c'.Behind (update x v false) := by
  have before : ∀ t, c'.Pending (update x v false) t → t ≠ v → c.Pending x t := by
    intro t pending other
    obtain ⟨inside, isOpen, out⟩ := pending.of_in other
    exact ⟨ntask ▸ inside, task ▸ isOpen, out⟩
  constructor
  · rw [ntask, task]; exact behind.prior
  · intro t u s pendingT pendingU isClose sock blocks there unstarted
    have insideT : t < c.ntask := ntask ▸ pendingT.1
    have insideU : u < c.ntask := ntask ▸ pendingU.1
    rw [task] at isClose sock blocks there unstarted ⊢
    by_cases newU : u = v
    · -- It would be older than the task that closes its socket.
      subst newU
      have older := behind.prior t u s insideT insideU isClose sock blocks there
      have notNewer : t < u + 1 := (newest blocks).symm ▸ insideT
      exact absurd older (Nat.not_lt_of_le (Nat.le_of_lt_succ notNewer))
    · have early := before u pendingU newU
      by_cases newT : t = v
      · subst newT
        exact close u s early isClose sock blocks there unstarted
      · obtain ⟨idle, order⟩ := behind.order t u s (before t pendingT newT) early isClose sock blocks
          there unstarted
        exact ⟨idle, order.trans queue⟩

/-- A worker takes the head of the queue. -/
theorem Behind.take (behind : c.Behind x) {v : TaskId} {rest : List TaskId} (nodup : c.queue.Nodup)
    (isHead : c.queue = v :: rest) (ntask : c'.ntask = c.ntask) (queue : c'.queue = rest)
    (task : ∀ t, (c'.task t).kind = (c.task t).kind ∧ (c'.task t).sock = (c.task t).sock ∧
      (c'.task t).done = (c.task t).done ∧
      (c'.task t).started = if t = v then true else (c.task t).started) : c'.Behind x := by
  have before : ∀ t, c'.Pending x t → c.Pending x t := fun t pending =>
    ⟨ntask ▸ pending.1, (task t).2.2.1 ▸ pending.2.1, pending.2.2⟩
  constructor
  · intro t u s insideT insideU isClose sock blocks there
    rw [(task t).1] at isClose
    rw [(task t).2.1] at sock
    rw [(task u).1] at blocks
    rw [(task u).2.1] at there
    exact behind.prior t u s (ntask ▸ insideT) (ntask ▸ insideU) isClose sock blocks there
  · intro t u s pendingT pendingU isClose sock blocks there unstarted
    rw [(task t).1] at isClose
    rw [(task t).2.1] at sock
    rw [(task u).1] at blocks
    rw [(task u).2.1] at there
    have otherU : u ≠ v := by
      rintro rfl
      rw [(task u).2.2.2, if_pos rfl] at unstarted
      cases unstarted
    rw [(task u).2.2.2, if_neg otherU] at unstarted
    obtain ⟨idle, order⟩ := behind.order t u s (before t pendingT) (before u pendingU) isClose sock
      blocks there unstarted
    -- The head of the queue is not the first of the pair, so both are behind it.
    rw [isHead] at order nodup
    have behindHead : [u, t].Sublist rest := by
      cases order with
      | cons _ order => exact order
      | cons_cons _ => exact absurd rfl otherU
    have otherT : t ≠ v := by
      rintro rfl
      exact (List.nodup_cons.mp nodup).1 (behindHead.subset (by simp))
    rw [(task t).2.2.2, if_neg otherT, queue]
    exact ⟨idle, behindHead⟩

/-- Every move keeps the order. -/
theorem Behind.move (move : Move o ⟨c, x, h⟩ ⟨c', x', h'⟩) (behind : c.Behind x)
    (placed : c.Placed x h) (closes : c.Closes x) : c'.Behind x' := by
  cases move with
  | stir stirred => rw [stirred.rest]; exact behind.same rfl rfl rfl
  | exit pending unstarted =>
    rename_i v
    rw [leaveSock_rest]
    refine behind.congr ?_ (fun t _ => ?_) fun t u pendingT pendingU before => ?_
    · rw [queueRemove_rest]
    · rw [queueRemove_rest]
      exact ⟨rfl, rfl, fun pending => ⟨pending.of_out.2, rfl⟩⟩
    · change [u, t].Sublist (c.queueRemove v).queue
      rw [queueRemove_queue]
      exact sublist_erase before pendingU.of_out.1 pendingT.of_out.1
  | exitRun at_ pending =>
    rw [leaveSock_rest]
    exact behind.congr rfl (fun t _ => ⟨rfl, rfl, fun pending => ⟨pending.of_out.2, rfl⟩⟩)
      fun _ _ _ _ => id
  | settle submitted open_ out settles allowed =>
    rename_i v res
    refine behind.ended (v := v) (e := res) rfl (fun t => ?_) rfl fun t other => by simp [other]
    simp only [Core.settle, Core.modTask, Function.update_apply]
  | promote live bare head =>
    exact behind.congr rfl (fun _ _ => ⟨rfl, rfl, fun pending => ⟨pending, rfl⟩⟩)
      fun _ _ _ _ before => before.trans (List.sublist_append_left _ _)
  | fail live bare usable wq =>
    rename_i s n rest
    rw [failHead_eq]
    refine behind.ended (v := n) (e := rErr EAGAIN) rfl (fun t => ?_) rfl fun _ _ => rfl
    simp only [Core.modTask, Core.modSock, Function.update_apply]
  | headed empty => exact behind.same rfl rfl rfl
  | create fresh =>
    rename_i k
    refine behind.made rfl (fun t less => ?_) rfl fun blocks t s less isClose sock there => ?_
    · simp [taskNew, Function.update_of_ne (Nat.ne_of_lt less)]
    · simp only [taskNew, Function.update_self] at blocks there
      obtain ⟨u, _, sock', isOpen, _⟩ := fresh.sock blocks
      obtain rfl : u = s := Option.some.inj (sock'.symm.trans there)
      rw [closes.closing t u less isClose sock] at isOpen
      cases isOpen
  | createClose live open_ mine =>
    refine behind.made rfl (fun t less => ?_) rfl fun blocks => ?_
    · simp [taskNew, Core.modSock, Function.update_of_ne (Nat.ne_of_lt less)]
    · simp [taskNew, Core.modSock, opOnSock] at blocks
  | enqueue submitted open_ unstarted out kind live onSock newest =>
    rename_i v
    have queue : ((if opOnSock (c.task v).kind then c.inflightInc (c.sockOf v) else c).queuePush v).queue
        = c.queue ++ [v] := by
      split <;> rfl
    refine behind.entered ?_ ?_ (queue ▸ List.sublist_append_left _ _) newest
      fun u s pending isClose sock blocks there idle => ⟨unstarted, ?_⟩
    · split <;> rfl
    · split <;> rfl
    · -- Whatever the close will wait for is on the queue already.
      have queued : u ∈ c.queue := by
        by_cases isWrite : (c.task u).kind = .opSockWrite
        · obtain ⟨inside, drained⟩ := live s sock
          have member := (placed.wq_mem s u inside).mpr ⟨pending, isWrite, there⟩
          rcases drained isClose u member with queued | started
          · exact queued
          · rw [idle] at started; cases started
        · exact placed.waiting u pending idle isWrite
      rw [queue]
      exact (List.singleton_sublist.mpr queued).append (List.Sublist.refl [v])
  | park newest open_ unstarted out kind sock live usable =>
    refine behind.entered rfl rfl (List.Sublist.refl _) (fun _ => newest) fun u s _ isClose => ?_
    rw [kind] at isClose
    cases isClose
  | take queue inside free =>
    rename_i w v rest
    refine behind.take placed.queue_nodup queue rfl rfl fun t => ?_
    simp only [Core.modTask, setPc, modWorker, Function.update_apply]
    split
    · rename_i same; subst same; exact ⟨rfl, rfl, rfl, rfl⟩
    · exact ⟨rfl, rfl, rfl, rfl⟩
  | phase at_ plain plain' kept => exact behind.same rfl rfl rfl
  | flag => exact behind.modTask _ _ rfl rfl rfl rfl
  | kicks => exact behind.same rfl rfl rfl
  | win at_ plain kept => exact behind.same rfl rfl rfl
  | send at_ fits =>
    rename_i w t off n
    exact (behind.modTask t ({ · with sent := off + n }) rfl rfl rfl rfl).same rfl rfl rfl
  | link loose => exact behind.same rfl rfl rfl
  | close loose => exact behind.same rfl rfl rfl
  | discard unused => exact behind.same rfl rfl rfl
  | unlink at_ sock unused => exact behind.same rfl rfl rfl
  | freeSock at_ sock => exact behind.same rfl rfl rfl
  | closeFd at_ => exact behind.same rfl rfl rfl
  | detach open_ held =>
    rename_i t
    exact (behind.modTask t ({ · with detached := true }) rfl rfl rfl rfl).same rfl rfl rfl
  | free done held =>
    rename_i t
    exact (behind.modTask t (fun k => { k with frees := k.frees + 1 }) rfl rfl rfl rfl).same rfl rfl rfl
  | claim bound live => exact behind.same rfl rfl rfl
  | unclaim usable => exact behind.same rfl rfl rfl
  | wrap free => exact behind.same rfl rfl rfl
  | unwrap => exact behind.same rfl rfl rfl
  | shutdown => exact behind.same rfl rfl rfl
  | sweep idle =>
    rw [closeSocks_rest]
    exact behind.same rfl rfl rfl

/-- Every critical section keeps the order. -/
theorem Behind.moves {a b : Cut} (moves : Moves o a b) (sound : Sound a)
    (behind : a.core.Behind a.out) : b.core.Behind b.out := by
  have both : Sound b ∧ b.core.Behind b.out := by
    have each : ∀ a b, Move o a b → Sound a ∧ a.core.Behind a.out → Sound b ∧ b.core.Behind b.out :=
      fun a b move before =>
        ⟨before.1.move move, before.2.move move before.1.placed before.1.closes⟩
    exact moves.preserves each ⟨sound, behind⟩
  exact both.2

end Myio.Core
