import Myio.Lib.Chain
import Myio.Pool.Places

/-! What a dispatch that secures no worker leaves behind. -/

namespace Myio.Pool

open Core
open Machine (Chain)

variable {os : Os} {p q : Pool} {t : TaskId} {s : SockId} {k : Task}

/-! ### The work queue's pointers -/

/-- `queue_push` on the pointers appends to the list they represent. -/
theorem queuePush_holds {c : Core} {chain : Chain TaskId} (holds : chain.Holds c.queue)
    (absent : t ∉ c.queue) : (chain.push t).Holds (c.queuePush t).queue :=
  holds.push absent

/-- `queue_remove` on the pointers erases from the list they represent. -/
theorem queueRemove_holds {c : Core} {chain : Chain TaskId} (holds : chain.Holds c.queue)
    (fuel : Nat) (enough : c.queue.length ≤ fuel) : (chain.remove fuel t).Holds (c.queueRemove t).queue := by
  have removed := holds.remove t enough
  unfold queueRemove
  split
  · exact removed
  · rename_i absent
    rwa [List.erase_of_not_mem absent] at removed

/-- A push that is taken back leaves the queue's pointers at the same two ends. -/
theorem push_remove_holds {c : Core} {chain : Chain TaskId} (holds : chain.Holds c.queue)
    (absent : t ∉ c.queue) :
    ((chain.push t).remove (c.queue.length + 1) t).Holds c.queue ∧
      ((chain.push t).remove (c.queue.length + 1) t).head = chain.head ∧
      ((chain.push t).remove (c.queue.length + 1) t).tail = chain.tail := by
  have pushed := queuePush_holds holds absent
  have removed := queueRemove_holds (t := t) pushed (c.queue.length + 1) (by simp [queuePush])
  have back : ((c.queuePush t).queueRemove t).queue = c.queue := by
    simp [queueRemove, queuePush, List.erase_append_right _ absent]
  rw [back] at removed
  refine ⟨removed, ?_, ?_⟩
  · rw [removed.ends.1, holds.ends.1]
  · rw [removed.ends.2, holds.ends.2]

/-! ### One dispatch -/

/-- A dispatch that secures no worker changes nothing but the environment's clock. -/
theorem dispatchLocked_failed (absent : t ∉ p.queue) (none : p.securable = false) :
    p.dispatchLocked t = ({ p with tick := p.tick + 1 }, false) := by
  obtain ⟨busy, refused⟩ : ¬ p.nqueued < p.idle ∧ p.os.create p.tick = false := by
    simpa [securable] using none
  unfold dispatchLocked spawnThread
  dsimp only
  rw [if_neg (show ¬ (p.on (·.queuePush t)).nqueued ≤ (p.on (·.queuePush t)).idle from busy)]
  rw [show (p.on (·.queuePush t)).os.create (p.on (·.queuePush t)).tick = false from refused]
  have back : (p.queuePush t).queueRemove t = p.toCore := by
    simp [queueRemove, queuePush, List.erase_append_right _ absent]
  simp only [on, Bool.false_eq_true, if_false]
  rw [back]

/-- A dispatch that secures a worker queues the task and moves no other. -/
theorem dispatchLocked_secured (some : p.securable = true) :
    (p.dispatchLocked t).2 = true ∧ (p.dispatchLocked t).1.queue = p.queue ++ [t] ∧
      (p.dispatchLocked t).1.nqueued = p.nqueued + 1 ∧ (p.dispatchLocked t).1.task = p.task ∧
      (p.dispatchLocked t).1.sock = p.sock := by
  refine ⟨by rw [dispatchLocked_secures, some], ?_⟩
  unfold dispatchLocked
  dsimp only
  split
  · exact ⟨rfl, rfl, rfl, rfl⟩
  · rename_i busy
    have create : p.os.create p.tick = true := by
      rcases Bool.or_eq_true _ _ ▸ some with enough | create
      · exact absurd (of_decide_eq_true enough) busy
      · exact create
    unfold spawnThread
    rw [if_pos (show (p.on (·.queuePush t)).os.create (p.on (·.queuePush t)).tick = true
      from create)]
    exact ⟨rfl, rfl, rfl, rfl⟩

/-! ### A failed submission -/

/-- The submission asks for a worker: it is no write that waits behind another. -/
def Dispatches (p : Pool) (k : Task) : Prop :=
  k.kind = .opSockWrite → ∃ s, k.sock = some s ∧ (p.sock s).wq = []

/-- A submission that secures no worker only adds the failed task. -/
theorem submit_failed (absent : p.ntask ∉ p.queue) (dispatches : p.Dispatches k)
    (none : p.securable = false) :
    (p.submit k).toCore = (p.taskNew k).finish p.ntask (rErr EAGAIN) := by
  by_cases write : k.kind = .opSockWrite
  · obtain ⟨s, sock, empty⟩ := dispatches write
    rw [submit_eq_write write sock, if_pos empty,
      dispatchLocked_failed (p := p.on (admitWrite · k s)) absent none]
    have back : ((admitWrite p.toCore k s).inflightDec s).modSock s
        (fun q => { q with wq := (wqPop q.wq).1 }) = p.taskNew k := by
      simp only [admitWrite, inflightInc, inflightDec, modSock_modSock]
      have restored : ((fun q : Sock => { q with wq := (wqPop q.wq).1 }) ∘
          (fun q => { q with inflight := q.inflight - 1 }) ∘
          (fun q => { q with wq := q.wq ++ [p.ntask] }) ∘
          (fun q => { q with inflight := q.inflight + 1 })) ((p.taskNew k).sock s) =
          (p.taskNew k).sock s := by
        have wq : ((p.taskNew k).sock s).wq = [] := empty
        simp only [Function.comp, wq, wqPop, List.nil_append, List.tail_cons, Nat.add_sub_cancel]
        rw [← wq]
      unfold modSock
      rw [restored, Function.update_eq_self]
    simp only [on_toCore]
    rw [← back]
  · rw [submit_eq_apart write]
    have queue : (p.on (enroll · k)).queue = p.queue := by
      rw [on_toCore]; unfold enroll; split <;> rfl
    have insecure : (p.on (enroll · k)).securable = false := by
      rw [← none]
      unfold securable
      rw [show (p.on (enroll · k)).nqueued = p.nqueued by
        rw [on_toCore]; unfold enroll; split <;> rfl]
      rfl
    rw [dispatchLocked_failed (queue ▸ absent) insecure]
    by_cases blocks : opOnSock k.kind = true
    · simp only [if_pos blocks, on_toCore, enroll, inflightDec_inflightInc]
    · simp only [if_neg blocks, on_toCore, enroll]

/-! ### Promotion with failures -/

/-- The `n`-th request for a worker from here would be met. -/
def securableAt (p : Pool) (n : Nat) : Bool := p.nqueued < p.idle || p.os.create n

/--
A promotion in which the writes `failed` found no worker and the first of `kept` did.

Nothing is said of the workers: a signal wakes some, or one is created.
-/
structure Promotion (p p' : Pool) (s : SockId) (failed kept : List TaskId) : Prop where
  /-- The requests were refused one by one, up to the one that was met. -/
  refused : ∀ i < failed.length, p.securableAt (p.tick + i) = false
  secured : kept ≠ [] → p.securableAt (p.tick + failed.length) = true
  /-- Each failing write is completed once and removed. -/
  completed : ∀ n ∈ failed, p'.task n = settled (rErr EAGAIN) (p.task n)
  untouched : ∀ n, n ∉ failed → p'.task n = p.task n
  /-- The rest of the FIFO stays in order, with its head queued. -/
  fifo : (p'.sock s).wq = kept
  queue : p'.queue = p.queue ++ kept.head?.toList
  nqueued : p'.nqueued = p.nqueued + kept.head?.toList.length
  /-- The socket's count drops by the number removed, and no other socket changes. -/
  inflight : (p'.sock s).inflight + failed.length = (p.sock s).inflight
  others : ∀ u, u ≠ s → p'.sock u = p.sock u

/-- The loop of `write_advance`, whatever pattern of requests fails. -/
theorem promote_failing (s : SockId) (l : List TaskId) : ∀ {p : Pool}, (p.sock s).wq = l →
    l.Nodup → (∀ n ∈ l, n ∉ p.queue) → l.length ≤ (p.sock s).inflight →
    ∃ failed kept, l = failed ++ kept ∧ Promotion p (promote p s l) s failed kept := by
  -- Each round ends the loop with a dispatched head, or fails the head and goes on with the rest.
  induction l with
  | nil =>
    intro p wq _ _ _
    refine ⟨[], [], rfl, ?_⟩
    constructor <;> simp [promote, wq]
  | cons n rest ih =>
    intro p wq nodup parked enough
    obtain ⟨outside, nodupRest⟩ := List.nodup_cons.mp nodup
    have absent : n ∉ p.queue := parked n (by simp)
    cases secures : p.securable with
    | true =>
      obtain ⟨yes, queue, nqueued, task, sock⟩ := dispatchLocked_secured (t := n) secures
      have ends : promote p s (n :: rest) = (p.dispatchLocked n).1 := by
        unfold promote
        rcases dispatched : p.dispatchLocked n with ⟨q, secured⟩
        rw [dispatched] at yes
        cases yes
        rfl
      refine ⟨[], n :: rest, rfl, ?_⟩
      rw [ends]
      constructor
      case secured => intro _; exact secures
      all_goals simp [queue, nqueued, task, sock, wq]
    | false =>
      let q : Pool := { p with tick := p.tick + 1, toCore := failHead p.toCore s n }
      have goes : promote p s (n :: rest) = promote q s rest := by
        rw [promote, dispatchLocked_failed absent secures]
        rfl
      have core : q.toCore = (p.modSock s fun k =>
          { k with wq := k.wq.tail, inflight := k.inflight - 1 }).modTask n
            (settled (rErr EAGAIN)) := failHead_eq p.toCore s n
      have task : ∀ u, q.task u = if u = n then settled (rErr EAGAIN) (p.task n) else p.task u := by
        intro u
        rw [core]
        simp [modTask, modSock, Function.update_apply]
      have here : q.sock s = { p.sock s with
          wq := (p.sock s).wq.tail, inflight := (p.sock s).inflight - 1 } := by
        rw [core]
        simp [modTask, modSock]
      have there : ∀ u, u ≠ s → q.sock u = p.sock u := by
        intro u other
        rw [core]
        simp [modTask, modSock, other]
      have queue : q.queue = p.queue := by rw [core]; rfl
      have nqueued : q.nqueued = p.nqueued := by rw [core]; rfl
      have tick : ∀ i, q.securableAt i = p.securableAt i := by
        intro i
        unfold securableAt
        rw [nqueued]
      rw [List.length_cons] at enough
      obtain ⟨failed, kept, split, later⟩ := @ih q (by rw [here, wq]; rfl) nodupRest
        (fun m member => queue ▸ parked m (by simp [member])) (by rw [here]; dsimp only; omega)
      have apart : n ∉ failed := fun member => outside (by rw [split]; simp [member])
      refine ⟨n :: failed, kept, by rw [split]; rfl, ?_⟩
      rw [goes]
      have clock : q.tick = p.tick + 1 := rfl
      constructor
      case refused =>
        intro i below
        cases i with
        | zero => exact secures
        | succ i =>
          have earlier := later.refused i (by simpa using below)
          rw [tick, clock] at earlier
          rw [← earlier]
          congr 1
          omega
      case secured =>
        intro more
        have met := later.secured more
        rw [tick, clock] at met
        rw [← met, List.length_cons]
        congr 1
        omega
      case completed =>
        intro m member
        rcases List.mem_cons.mp member with rfl | behind
        · rw [later.untouched m apart, task, if_pos rfl]
        · rw [later.completed m behind, task, if_neg]
          rintro rfl
          exact apart behind
      case untouched =>
        intro m elsewhere
        obtain ⟨other, below⟩ := List.ne_and_not_mem_of_not_mem_cons elsewhere
        rw [later.untouched m below, task, if_neg other]
      case fifo => exact later.fifo
      case queue => rw [later.queue, queue]
      case nqueued => rw [later.nqueued, nqueued]
      case inflight =>
        have rest := later.inflight
        rw [here] at rest
        dsimp only at rest
        rw [List.length_cons]
        omega
      case others =>
        intro u other
        rw [later.others u other, there u other]

/--
The state in which `write_advance` is called for a write that is the head of its FIFO: from
`complete_unrun`, with the write off the work queue, or from the commit of the worker that ran it.
-/
def Leaves (p q : Pool) (t : TaskId) : Prop :=
  (p.task t).started = false ∧ q = (p.on (·.queueRemove t)).on (·.inflightDec (p.sockOf t)) ∨
    ∃ w, p.Runs w t ∧ q = (p.on (·.setPc w .ready)).on (·.inflightDec (p.sockOf t))

/-- Leaving touches the work queue and one count, and nothing else that promotion reads. -/
theorem Leaves.rest (leaves : p.Leaves q t) :
    (∀ u, u ∉ p.queue → u ∉ q.queue) ∧ q.task = p.task ∧ q.shutdown = p.shutdown ∧
      (∀ s, (q.sock s).wq = (p.sock s).wq) ∧
      (q.sock (p.sockOf t)).inflight = (p.sock (p.sockOf t)).inflight - 1 := by
  have wq : ∀ (c : Core) (s u : SockId), ((c.inflightDec s).sock u).wq = (c.sock u).wq := by
    intro c s u
    simp only [inflightDec, modSock, Function.update_apply]
    split
    · rename_i same
      rw [same]
    · rfl
  rcases leaves with ⟨_, rfl⟩ | ⟨w, _, rfl⟩
  · simp only [on_toCore]
    unfold queueRemove
    split
    · exact ⟨fun u outside there => outside (List.mem_of_mem_erase there), rfl, rfl,
        fun s => wq _ _ s, by simp [inflightDec, modSock]⟩
    · exact ⟨fun u outside => outside, rfl, rfl, fun s => wq _ _ s,
        by simp [inflightDec, modSock]⟩
  · exact ⟨fun u outside => outside, rfl, rfl, fun s => wq _ _ s,
      by simp [inflightDec, modSock, setPc, modWorker]⟩

/-- A head that leaves a FIFO hands on to the first write behind it that finds a worker. -/
theorem writeAdvance_failing (sound : Sound p.rest) (up : p.shutdown = false) (live : s ∈ p.socks)
    {behind : List TaskId} (fifo : (p.sock s).wq = t :: behind) (sock : p.sockOf t = s)
    (leaves : p.Leaves q t) :
    ∃ failed kept, behind = failed ++ kept ∧
      Promotion q (q.writeAdvance t) s failed kept := by
  have placed : p.Placed (fun _ => false) fun _ => false := sound.placed
  have counted : p.Counted fun _ => false := sound.counted
  obtain ⟨queue, task, shutdown, wq, inflight⟩ := leaves.rest
  have sorted := placed.wq_sorted s live
  have nodup : (t :: behind).Nodup := by
    rw [← fifo]
    exact sorted.imp Nat.ne_of_lt
  obtain ⟨outside, nodupBehind⟩ := List.nodup_cons.mp nodup
  have parked : ∀ n ∈ behind, n ∉ q.queue := by
    intro n member
    refine queue n (placed.wq_rest s n live (by rw [fifo]; simp [member]) (.inr ?_)).1
    rw [fifo, List.head?_cons]
    intro same
    rw [Option.some.inj same] at outside
    exact outside member
  have enough : (t :: behind).length ≤ (p.sock s).inflight := by
    rw [counted.inflight s live]
    refine Machine.length_le_count nodup fun n member => ?_
    obtain ⟨pending, write, isS⟩ := (placed.wq_mem s n live).mp (by rw [fifo]; exact member)
    exact ⟨pending.1, pending, by rw [write]; rfl, isS⟩
  rw [List.length_cons] at enough
  have sock' : q.sockOf t = s := by rw [← sock]; simp [sockOf, task]
  -- The head is popped, and the loop starts from what is left.
  let popped : Pool := q.on (·.modSock s fun k => { k with wq := (wqPop k.wq).1 })
  have here : popped.sock s = { q.sock s with wq := (wqPop (q.sock s).wq).1 } := by
    simp [popped, on, modSock]
  have list : (popped.sock s).wq = behind := by rw [here, wq s, fifo]; rfl
  have runs : q.writeAdvance t = promote popped s behind := by
    unfold writeAdvance
    dsimp only
    rw [sock', if_neg (by rw [wq s, fifo]; simp)]
    rw [if_neg (show ¬ (popped.shutdown = true) by
      rw [show popped.shutdown = q.shutdown from rfl, shutdown, up]; simp)]
    rw [show ((q.on (·.modSock s fun k => { k with wq := (wqPop k.wq).1 })).sock s).wq = behind
      from list]
  rw [sock] at inflight
  obtain ⟨failed, kept, split, promotion⟩ := promote_failing s behind list nodupBehind parked
    (by rw [here]; dsimp only; omega)
  refine ⟨failed, kept, split, ?_⟩
  rw [runs]
  constructor
  case inflight => rw [promotion.inflight, here]
  case others =>
    intro u other
    rw [promotion.others u other]
    simp [popped, on, modSock, other]
  case refused => exact promotion.refused
  case secured => exact promotion.secured
  case completed => exact promotion.completed
  case untouched => exact promotion.untouched
  case fifo => exact promotion.fifo
  case queue => exact promotion.queue
  case nqueued => exact promotion.nqueued

/-- A submission that found no worker: the task is done, and the rest is as it was. -/
structure Refused (p : Pool) (k : Task) : Prop where
  task : (p.submit k).task p.ntask =
    { k with res := rErr EAGAIN, done := true, dones := k.dones + 1 }
  others : ∀ u, u ≠ p.ntask → (p.submit k).task u = p.task u
  queue : (p.submit k).queue = p.queue
  nqueued : (p.submit k).nqueued = p.nqueued
  sock : (p.submit k).sock = p.sock
  /-- The pointers of the work queue are back at the same two ends. -/
  ends : ∀ chain : Chain TaskId, chain.Holds p.queue →
    ((chain.push p.ntask).remove (p.queue.length + 1) p.ntask).Holds p.queue ∧
      ((chain.push p.ntask).remove (p.queue.length + 1) p.ntask).head = chain.head ∧
      ((chain.push p.ntask).remove (p.queue.length + 1) p.ntask).tail = chain.tail

/--
A submission that secures no worker returns a failed task and leaves the queue and the socket as
they were. A promotion completes each write that finds no worker, once, and queues the first one
that does, with the rest parked behind it.
-/
theorem failed_dispatch (run : Run (Pool.new os) p) :
    (∀ k, p.Dispatches k → p.securable = false → p.Refused k) ∧
    ∀ s t behind, s ∈ p.socks → p.shutdown = false → (p.sock s).wq = t :: behind →
      ∀ q, p.Leaves q t →
        (∀ n ∈ behind, (q.task n).done = false ∧ (q.task n).dones = 0) ∧
        ∃ failed kept, behind = failed ++ kept ∧
          Promotion q (q.writeAdvance t) s failed kept := by
  have sound := run.good.sound
  have placed : p.Placed (fun _ => false) fun _ => false := sound.placed
  have absent : p.ntask ∉ p.queue := fun there =>
    Nat.lt_irrefl _ (placed.queue_pending _ there).1.1
  constructor
  · intro k dispatches none
    have failed := submit_failed absent dispatches none
    constructor
    case task => rw [failed]; simp [finish, modTask, taskNew]
    case others =>
      intro u other
      rw [failed]
      simp [finish, modTask, taskNew, other]
    case queue => rw [failed]; rfl
    case nqueued => rw [failed]; rfl
    case sock => rw [failed]; rfl
    case ends =>
      intro chain holds
      exact push_remove_holds holds absent
  · intro s t behind live up fifo q leaves
    obtain ⟨_, write, sock⟩ := (placed.wq_mem s t live).mp (by rw [fifo]; simp)
    refine ⟨?_, writeAdvance_failing sound up live fifo (by simp [sockOf, sock]) leaves⟩
    intro n member
    obtain ⟨pending, _⟩ := (placed.wq_mem s n live).mp (by rw [fifo]; simp [member])
    rw [leaves.rest.2.1]
    refine ⟨pending.2.1, ?_⟩
    have lives : p.Lives := sound.lives
    have dones := (lives.each n pending.1).dones
    simpa [pending.2.1] using dones

/-- An environment in which the second thread cannot be created. -/
def scarce : Os := { create := fun n => n != 1, wakes := fun _ _ => false }

/-- Three writes on one socket, of which the first has been sent. -/
def threeWrites : List Label :=
  [.user .tcpListen, .user (.resume true), .user (.sockWrite 0 [1]), .user (.sockWrite 0 [2]),
    .user (.sockWrite 0 [3]), .worker 0 .main, .worker 0 .enter, .worker 0 (.send 1),
    .worker 0 .sendEnd]

/-- The state in which the first of the three writes commits. -/
def firstSent : Pool := Machine.drive step (Pool.new scarce) threeWrites

theorem failed_dispatch_threeWrites :
    (firstSent.submit { kind := .opSleep }).task 3 =
        { kind := .opSleep, res := rErr EAGAIN, done := true, dones := 1 } ∧
      ∃ failed kept, [1, 2] = failed ++ kept ∧
        Promotion ((firstSent.on (·.setPc 0 .ready)).on (·.inflightDec 0))
          (((firstSent.on (·.setPc 0 .ready)).on (·.inflightDec 0)).writeAdvance 0) 0 failed kept := by
  have run : Run (Pool.new scarce) firstSent :=
    .of_legal obeys (fun _ _ => id) threeWrites (.refl _) (by decide +kernel)
  obtain ⟨refused, promoted⟩ := failed_dispatch run
  have ntask : firstSent.ntask = 3 := by decide +kernel
  have failed := (refused { kind := .opSleep } (fun write => by cases write) (by decide +kernel)).task
  rw [ntask] at failed
  have sock : firstSent.sockOf 0 = 0 := by decide +kernel
  have runs : firstSent.Runs 0 0 := ⟨by decide +kernel, by decide +kernel⟩
  refine ⟨failed, (promoted 0 0 [1, 2] (by decide +kernel) (by decide +kernel) (by decide +kernel)
    _ (.inr ⟨0, runs, ?_⟩)).2⟩
  rw [sock]

end Myio.Pool
