import Mathlib.Data.Set.Card
import Myio.Pool.Runs

/-! Every task that is not done is in exactly one place, and the counters count the places. -/

namespace Myio

/-- The three places a task that is not done can be in. -/
inductive Place
  | queued
  | running
  | parked
  deriving DecidableEq

namespace Core

/-- A structure of the pool leads to a task, whatever the task's own fields say. -/
def Reaches (c : Core) (t : TaskId) : Place → Prop
  | .queued => t ∈ c.queue
  | .running => ∃ w, c.Runs w t
  | .parked => ∃ s, s ∈ c.socks ∧ t ∈ (c.sock s).wq.tail

/-- On the work queue, exactly once, and not started. -/
def Queued (c : Core) (t : TaskId) : Prop := c.queue.count t = 1 ∧ (c.task t).started = false

/-- Started, and run by exactly one worker. -/
def Running (c : Core) (t : TaskId) : Prop := (c.task t).started = true ∧ ∃! w, c.Runs w t

/-- A write behind the head of its socket's FIFO, whose head the workers have or will have. -/
def Parked (c : Core) (t : TaskId) : Prop :=
  (c.task t).kind = .opSockWrite ∧ (c.task t).started = false ∧ t ∉ c.queue ∧
    ∃ s head, (c.task t).sock = some s ∧ s ∈ c.socks ∧ t ∈ (c.sock s).wq.tail ∧
      (c.sock s).wq.head? = some head ∧ (c.Queued head ∨ c.Running head)

/-- A task is in a place, with everything in order there. -/
def InPlace (c : Core) (t : TaskId) : Place → Prop
  | .queued => c.Queued t
  | .running => c.Running t
  | .parked => c.Parked t

variable {c : Core} {t : TaskId}

theorem InPlace.reaches {place : Place} (here : c.InPlace t place) : c.Reaches t place := by
  cases place with
  | queued => exact List.count_pos_iff.mp (by rw [here.1]; decide)
  | running =>
    obtain ⟨_, w, runs, _⟩ := here
    exact ⟨w, runs⟩
  | parked =>
    obtain ⟨_, _, _, s, _, _, live, behind, _⟩ := here
    exact ⟨s, live, behind⟩

/-- Between two critical sections no task is on its way in or out. -/
theorem pending_iff : c.Pending (fun _ => false) t ↔ t < c.ntask ∧ (c.task t).done = false := by
  simp [Pending]

section Places

variable (placed : c.Placed (fun _ => false) fun _ => false)

include placed

theorem Placed.queued_of_mem (there : t ∈ c.queue) : c.Queued t :=
  ⟨List.count_eq_one_of_mem placed.queue_nodup there, (placed.queue_pending t there).2⟩

theorem Placed.running_of_runs {w : WorkerId} (runs : c.Runs w t) : c.Running t :=
  ⟨(placed.run_pending w t runs).2, w, runs, fun v runs' => placed.run_inj v w t runs' runs⟩

/-- The head of a FIFO is on the work queue or with a worker. -/
theorem Placed.head_in_hand {s : SockId} (live : s ∈ c.socks)
    (head : (c.sock s).wq.head? = some t) : c.Queued t ∨ c.Running t := by
  rcases placed.wq_head s t live rfl head with queued | started
  · exact .inl (placed.queued_of_mem queued)
  · -- A started task that is not done is with the worker that started it.
    have pending := ((placed.wq_mem s t live).mp (List.mem_of_mem_head? head)).1
    obtain ⟨w, runs⟩ := placed.started_run t pending started
    exact .inr (placed.running_of_runs runs)

/-- A member of a FIFO behind the head is nowhere else. -/
theorem Placed.tail_waits {s : SockId} (live : s ∈ c.socks) (behind : t ∈ (c.sock s).wq.tail) :
    t ∉ c.queue ∧ (c.task t).started = false := by
  refine placed.wq_rest s t live (List.mem_of_mem_tail behind) (.inr fun head => ?_)
  -- The FIFO is strictly sorted, so its head does not come again.
  cases fifo : (c.sock s).wq with
  | nil => simp [fifo] at behind
  | cons first rest =>
    have sorted := placed.wq_sorted s live
    rw [fifo] at sorted behind head
    obtain rfl : first = t := by simpa using head
    exact Nat.lt_irrefl _ (List.rel_of_pairwise_cons sorted behind)

/-- A pending task is in some place. -/
theorem Placed.inPlace (pending : c.Pending (fun _ => false) t) : ∃ place, c.InPlace t place := by
  cases started : (c.task t).started with
  | true =>
    obtain ⟨w, runs⟩ := placed.started_run t pending started
    exact ⟨.running, placed.running_of_runs runs⟩
  | false =>
    by_cases queued : t ∈ c.queue
    · exact ⟨.queued, placed.queued_of_mem queued⟩
    · -- What is neither queued nor started can only be a write that waits its turn.
      have isWrite : (c.task t).kind = .opSockWrite := by
        by_contra other
        exact queued (placed.waiting t pending started other)
      obtain ⟨s, sock, live⟩ := placed.sock_live t pending (by rw [isWrite]; rfl)
      have member := (placed.wq_mem s t live).mpr ⟨pending, isWrite, sock⟩
      cases fifo : (c.sock s).wq with
      | nil => simp [fifo] at member
      | cons first rest =>
        have head : (c.sock s).wq.head? = some first := by rw [fifo]; rfl
        have inHand := placed.head_in_hand live head
        refine ⟨.parked, isWrite, started, queued, s, first, sock, live, ?_, head, inHand⟩
        rw [fifo] at member ⊢
        rcases List.mem_cons.mp member with rfl | behind
        · rcases placed.wq_head s t live rfl head with there | there
          · exact absurd there queued
          · rw [started] at there; cases there
        · exact behind

/-- A task in one place is reached from nowhere else. -/
theorem Placed.only {place other : Place} (here : c.InPlace t place) (there : c.Reaches t other) :
    other = place := by
  -- What reaches a task tells whether it is started, and a parked one is off the queue.
  cases place <;> cases other <;> first | rfl | exfalso
  · obtain ⟨w, runs⟩ := there
    have := (placed.run_pending w t runs).2
    rw [here.2] at this; cases this
  · obtain ⟨s, live, behind⟩ := there
    exact (placed.tail_waits live behind).1 (InPlace.reaches (show c.InPlace t .queued from here))
  · have := (placed.queue_pending t there).2
    rw [here.1] at this; cases this
  · obtain ⟨s, live, behind⟩ := there
    have := (placed.tail_waits live behind).2
    rw [here.1] at this; cases this
  · exact here.2.2.1 there
  · obtain ⟨w, runs⟩ := there
    have := (placed.run_pending w t runs).2
    rw [here.2.1] at this; cases this

/-- The tasks in the running place are those a worker has dequeued and not completed. -/
theorem Placed.running_iff (inside : t < c.ntask) : c.Running t ↔ c.Underway t := by
  constructor
  · rintro ⟨started, w, runs, _⟩
    exact ⟨(placed.run_pending w t runs).1.2.1, started⟩
  · rintro ⟨isOpen, started⟩
    obtain ⟨w, runs⟩ := placed.started_run t ⟨inside, isOpen, rfl⟩ started
    exact placed.running_of_runs runs

end Places

/-- The count of running tasks is the size of the set of them. -/
theorem Counted.running_ncard (counted : c.Counted fun _ => false)
    (placed : c.Placed (fun _ => false) fun _ => false) :
    c.nrunning = {t | c.Running t}.ncard := by
  have inside : ∀ t, c.Running t → t < c.ntask := fun t running => by
    obtain ⟨_, w, runs, _⟩ := running
    exact (placed.run_pending w t runs).1.1
  have same : {t | c.Running t} = ((Finset.range c.ntask).filter c.Underway : Finset TaskId) := by
    ext t
    simp only [Set.mem_ofPred_eq, Finset.coe_filter, Finset.mem_range]
    exact ⟨fun running => ⟨inside t running, (placed.running_iff (inside t running)).mp running⟩,
      fun there => (placed.running_iff there.1).mpr there.2⟩
  rw [counted.nrunning, Nat.count_eq_card_filter_range, same, Set.ncard_coe_finset]

end Core

namespace Pool

/-- An environment in which every thread is created and a signal wakes the first sleeper. -/
def calm : Os := { create := fun _ => true, wakes := fun _ _ => false }

/-- The state a list of steps leads to in the calm environment. -/
def after (labels : List Label) : Pool := Machine.drive step (Pool.new calm) labels

/-- Steps that check out make a run. -/
theorem run_after (labels : List Label)
    (checked : Machine.legal step obeys (Pool.new calm) labels = true) :
    Run (Pool.new calm) (after labels) :=
  .of_legal obeys (fun _ _ => id) labels (.refl _) checked

/--
Every submitted task that is not done is in exactly one place, and no structure of the pool leads
to it from another one; the two counters count the queue and the running tasks.
-/
theorem one_place {os : Os} {p : Pool} (run : Run (Pool.new os) p) :
    (∀ t : TaskId, t < p.ntask → (p.task t).done = false → (∃! place, p.InPlace t place) ∧
      ∀ place other, p.InPlace t place → p.Reaches t other → other = place) ∧
    p.nqueued = p.queue.length ∧ p.nrunning = {t | p.Running t}.ncard := by
  have placed := run.good.sound.placed
  have counted := run.good.sound.counted
  refine ⟨fun t inside isOpen => ⟨?_, fun _ _ => placed.only⟩, counted.nqueued,
    counted.running_ncard placed⟩
  obtain ⟨place, here⟩ := placed.inPlace (Core.pending_iff.mpr ⟨inside, isOpen⟩)
  exact ⟨place, here, fun other there => placed.only here (Core.InPlace.reaches there)⟩

/-- A listener, two writes on its socket and a sleep; a worker has taken the first write. -/
def threePlaces : List Label :=
  [.user .tcpListen, .user (.resume true), .user (.sockWrite 0 [1, 2]), .user (.sockWrite 0 [3]),
    .user .sleep, .worker 0 .main]

theorem one_place_threePlaces :
    (after threePlaces).ntask = 3 ∧ (after threePlaces).queue = [2] ∧
    ((after threePlaces).sock 0).wq = [0, 1] ∧
    (∃! place, (after threePlaces).InPlace 1 place) ∧ (after threePlaces).nrunning = 1 ∧
    1 = {t | (after threePlaces).Running t}.ncard := by
  obtain ⟨placed, _, nrunning⟩ := one_place (run_after threePlaces (by decide +kernel))
  exact ⟨by decide +kernel, by decide +kernel, by decide +kernel, (placed 1 (by decide +kernel) (by decide +kernel)).1, by decide +kernel, nrunning⟩

end Pool

end Myio
