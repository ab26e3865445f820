import Mathlib.Data.List.Nodup
import Myio.Uring.Kept

/-! What the io_uring backend promises: its books, the order of writes, closing, and teardown. -/

namespace Myio.Loop

open Function (update)
open Loop.Core

namespace UringIo

variable {c : Core} {t v : TaskId} {s : SockId} {u u' : UringIo}

/-! ### The books -/

/-- A pending task that cannot complete waits behind the head of a FIFO. -/
theorem armed_or_queued {B : Prop} (firm : Firm B c.rest) (pending : c.Pending (fun _ => false) t) :
    t ∈ c.armed ∨ (t ∉ c.armed ∧ ∃ s ∈ c.socks, t ∈ (c.sock s).wq.tail) := by
  by_cases armed : t ∈ c.armed
  · exact .inl armed
  have notTurn : ¬ c.InTurn (fun _ => false) t := fun inTurn =>
    armed ((firm.sound.placed.armed t).mpr ⟨pending, inTurn⟩)
  refine .inr ⟨armed, ?_⟩
  by_contra none_
  refine notTurn fun s kind sock => ⟨rfl, ?_⟩
  have live : s ∈ c.socks := firm.sound.placed.live t s pending (.inl sock)
  have queued : t ∈ (c.sock s).wq := (firm.sound.placed.fifo s t live).mpr ⟨pending, kind, sock⟩
  obtain ⟨w, rest, wq⟩ := List.exists_cons_of_ne_nil (List.ne_nil_of_mem queued)
  rw [wq] at queued ⊢
  rcases List.mem_cons.mp queued with rfl | behind
  · rfl
  · exact absurd ⟨s, live, by rw [wq]; exact behind⟩ none_

/-- The head of a FIFO is on the ring. -/
theorem head_armed {B : Prop} (firm : Firm B c.rest) (live : s ∈ c.socks)
    (head : (c.sock s).wq.head? = some t) : t ∈ c.armed := by
  obtain ⟨rest, wq⟩ := List.head?_eq_some_iff.mp head
  obtain ⟨pending, _, sock⟩ := (firm.sound.placed.fifo s t live).mp (by
    change t ∈ (c.sock s).wq; rw [wq]; exact List.mem_cons_self)
  refine (firm.sound.placed.armed t).mpr ⟨pending, fun s' _ sock' => ?_⟩
  obtain rfl : s = s' := Option.some.inj (sock.symm.trans sock')
  exact ⟨rfl, head⟩

/-- Nothing on the ring belongs to a task that is done, or whose memory has gone back. -/
theorem armed_alive {B : Prop} (firm : Firm B c.rest) (armed : t ∈ c.armed) :
    t < c.ntask ∧ (c.task t).done = false ∧ (c.task t).frees = 0 := by
  have pending : c.Pending (fun _ => false) t := ((firm.sound.placed.armed t).mp armed).1
  refine ⟨pending.1, pending.2.1, (firm.sound.lives.each t pending.1).frees.trans ?_⟩
  rw [show (c.rest.core.task t).done = false from pending.2.1]
  rfl

/--
The books of the backend in every reachable state, whatever the completions say and in any order.

What is counted in flight is on the ring: an entry for every task that is not done, less the writes
behind the head of a FIFO, and the cancel requests. No completion will find its task done or freed,
nor follow a pointer to a freed socket. A step that returns at once returns 0, and then every task
is done; a call that waits for a task never finds the ring empty before.
-/
theorem ring_exact {sqes : Nat → Bool} (run : Run (UringIo.new sqes) u) (there : u.user ≠ .destroyed) :
    u.inflight = u.armed.length + u.cancels ∧ u.armed.Nodup ∧
    (∀ t ∈ u.armed, t < u.ntask ∧ (u.task t).done = false ∧ (u.task t).frees = 0) ∧
    (∀ t, t < u.ntask → (u.task t).done = false →
      t ∈ u.armed ∨ (t ∉ u.armed ∧ ∃ s ∈ u.socks, t ∈ (u.sock s).wq.tail)) ∧
    (∀ s ∈ u.socks, (u.sock s).frees = 0 ∧ (u.sock s).wq.Pairwise (· < ·) ∧
      (∀ t, (u.sock s).wq.head? = some t → t ∈ u.armed) ∧
      (∀ t, t ∈ (u.sock s).wq ↔ (t < u.ntask ∧ (u.task t).done = false) ∧
        (u.task t).kind = .taskSockWrite ∧ (u.task t).sock = some s) ∧
      (∀ t, (u.sock s).readTask = some t ↔ (t < u.ntask ∧ (u.task t).done = false) ∧
        (u.task t).kind = .taskSockRead ∧ (u.task t).sock = some s) ∧
      ∀ t, (u.sock s).acceptTask = some t ↔ (t < u.ntask ∧ (u.task t).done = false) ∧
        (u.task t).kind = .taskAccept ∧ (u.task t).sock = some s) ∧
    (∀ t s, t < u.ntask → (u.task t).done = false →
      (u.task t).sock = some s ∨ (u.task t).newsock = some s → s ∈ u.socks) ∧
    (∀ u', u.step .step = some u' → u'.user = .idle →
      u'.ret = some (.stepped 0) ∧ ∀ t, t < u.ntask → (u.task t).done = true) ∧
    ∀ t, (u.task t).done = false → (∃ free, u.user = .canceling t free) ∨ u.user = .freeing t →
      0 < u.inflight := by
  have steady := steady_of_run run there
  have firm := steady.firm
  have pending : ∀ t, u.Pending (fun _ => false) t ↔ t < u.ntask ∧ (u.task t).done = false := by
    intro t; simp [Pending]
  refine ⟨steady.counted, firm.sound.placed.nodup, fun t armed => armed_alive firm armed,
    fun t less isOpen => armed_or_queued firm ((pending t).mpr ⟨less, isOpen⟩),
    fun s live => ⟨?_, firm.sound.placed.sorted s live, fun t head => head_armed firm live head,
      fun t => ?_, fun t => ?_, fun t => ?_⟩, fun t s less isOpen refers => ?_, fun u' step back => ?_,
    fun t isOpen waits => ?_⟩
  · -- A socket on the list has not been released.
    refine (firm.sound.linked.frees s (firm.sound.linked.bound s live)).trans ?_
    exact if_pos live
  · rw [← pending]; exact firm.sound.placed.fifo s t live
  · rw [← pending]; exact firm.sound.placed.read s t live
  · rw [← pending]; exact firm.sound.placed.accept s t live
  · exact firm.sound.placed.live t s ((pending t).mpr ⟨less, isOpen⟩) refers
  · -- A step that is back at once found nothing in flight.
    simp only [UringIo.step] at step
    split at step
    · obtain rfl := Option.some.inj step
      unfold implStep at *
      split
      · rename_i zero
        exact ⟨rfl, fun t => done_of_empty firm (steady.counted.empty zero)⟩
      · rename_i some_
        change (UringIo.implStep u).user = _ at back
        unfold implStep at back
        rw [if_neg some_] at back
        cases back
    · cases step
  · -- The task waited for is pending, so the ring is not empty.
    have held : u.held t = true := steady.target t (by
      rcases waits with ⟨free, waiting⟩ | waiting <;> rw [waiting] <;> rfl)
    refine Nat.pos_of_ne_zero fun zero => ?_
    have done := done_of_empty firm (steady.counted.empty zero) (firm.sound.lives.bound t held)
    rw [show (u.toCore.task t).done = false from isOpen] at done
    cases done

/-- A short send that is gone on with, a write behind it, and an accept that is being canceled. -/
def oneCanceling : List Label :=
  [.tcpListen (.listening true), .tcpAccept true true 0, .sockWrite true 0 [1, 2, 3],
    .sockWrite true 0 [4, 5], .step, .cqe 1 2, .drained, .cancel 0]

theorem ring_exact_oneCanceling :
    (after [] oneCanceling).inflight = 3 ∧ (after [] oneCanceling).armed = [1, 0] ∧
    (after [] oneCanceling).cancels = 1 ∧ 2 ∉ (after [] oneCanceling).armed ∧
    (∃ s ∈ (after [] oneCanceling).socks, 2 ∈ ((after [] oneCanceling).sock s).wq.tail) ∧
    ((after [] oneCanceling).task 0).newsock = some 1 ∧ 1 ∈ (after [] oneCanceling).socks ∧
    0 < (after [] oneCanceling).inflight := by
  obtain ⟨_, _, _, where_, _, live, _, waits⟩ :=
    ring_exact (fair_after [] oneCanceling (by decide +kernel)).run (by decide +kernel)
  obtain ⟨absent, queued⟩ := (where_ 2 (by decide +kernel) (by decide +kernel)).resolve_left
    (by decide +kernel)
  exact ⟨by decide +kernel, by decide +kernel, by decide +kernel, absent, queued, by decide +kernel,
    live 0 1 (by decide +kernel) (by decide +kernel) (.inr (by decide +kernel)),
    waits 0 (by decide +kernel) (.inl ⟨false, by decide +kernel⟩)⟩

/-! ### What stays on the ring -/

/-- Whether the next completion of a task is its last: it sends nothing, or was cut short. -/
def Ending (c : Core) (t : TaskId) : Prop :=
  (c.task t).kind ≠ .taskSockWrite ∨ (c.task t).sock = none ∨ (c.task t).wcanceled = true

/-- What the completion of a send makes of its write. -/
theorem dispatchWrite_spec (res : Int) (kind : (u.task t).kind = .taskSockWrite) :
    ((u.dispatchWrite t res).task t).done = true ∨
      ¬ Ending u.toCore t ∧ t ∈ (u.dispatchWrite t res).armed ∧ 0 ≤ res ∧
        (u.dispatchWrite t res).task t = { u.task t with off := (u.task t).off + res.toNat } ∧
        (u.task t).off + res.toNat < (u.task t).buf.length ∧
        (u.dispatchWrite t res).entry t = toU32 ((u.task t).buf.length - ((u.task t).off + res.toNat)) := by
  unfold dispatchWrite
  split
  · exact .inl (writeFinish_task u t res).1
  rename_i goes
  dsimp only
  generalize isNext : u.on (·.sendBytes t res.toNat) = p
  have task : p.task t = { u.task t with off := (u.task t).off + res.toNat } := by
    rw [← isNext]
    change (u.sendBytes t res.toNat).task t = _
    rw [sendBytes_task, if_pos rfl]
  split
  · rename_i short
    split
    · exact .inl (writeFinish_task p t _).1
    rename_i again
    rcases writeArm_cases p t with got | got <;> rw [got]
    · -- Neither closed nor canceled, and there was an entry: the rest is sent.
      refine .inr ⟨?_, List.mem_cons_self, by omega, task, ?_, ?_⟩
      · rintro (other | none_ | marked)
        · exact other kind
        · exact again (.inl (by rw [task]; exact none_))
        · exact again (.inr (by rw [task]; exact marked))
      · rw [task] at short
        exact short
      · simp [sqeFlush, task]
    · exact .inl (writeFinish_task _ t _).1
  · exact .inl (writeFinish_task p t _).1

/-- Storing a result marks the task done, and its memory going back does not change that. -/
theorem taskFinish_done (c : Core) (t : TaskId) (e : Result) : ((taskFinish c t e).task t).done = true := by
  have finished : ((c.finish t e).task t).done = true := by simp [finish, modTask]
  unfold taskFinish reapIfDetached
  split
  · unfold taskReap
    split <;> simpa [freeMem, modTask, sockRelease] using finished
  · exact finished

/-- The completion of an operation that is not a send, or of a send that was cut short, is its last. -/
theorem drainOp_last (res : Int) (ending : Ending u.toCore t) : ((u.drainOp t res).task t).done = true := by
  rw [drainOp_eq]
  unfold dispatch
  split
  · exact (taskComplete_task _ t _).1
  · unfold on dispatchConnect
    dsimp only
    split
    · exact taskFinish_done _ t _
    · exact (taskComplete_task _ t res).1
  · unfold on dispatchAccept
    dsimp only
    split
    · exact taskFinish_done _ t _
    · exact (taskComplete_task _ t res).1
  · exact (taskComplete_task _ t res).1
  · rename_i kind
    exact (dispatchWrite_spec res kind).resolve_right fun again => again.1 ending
  · exact (taskComplete_task _ t res).1
  · exact (taskComplete_task _ t res).1

/-- A completion is drained from the ring by a call that waits. -/
theorem step_drains {res : Int} (taken : u.step (.cqe t res) = some u') :
    t ∈ u.armed ∧ ∃ why free got, u.user = .draining why free got ∧
      u' = { u.drainOp t res with user := .draining why free true } := by
  simp only [UringIo.step] at taken
  split at taken
  · rename_i why free got draining
    split at taken
    · rename_i armed
      exact ⟨armed, why, free, got, draining, (Option.some.inj taken).symm⟩
    · cases taken
  · cases taken

/-- No completion is counted inside the dispatch of another. -/
theorem dispatchWrite_served (res : Int) : (u.dispatchWrite t res).served = u.served := by
  have finishes : ∀ (w : UringIo) (n : Int), (w.writeFinish t n).served = w.served := fun w n =>
    funext fun v => (Remains.writeFinish (t := v) (u := w) t n).2
  -- Each way through ends in a finished write, or in one more submission.
  unfold dispatchWrite
  split
  · exact finishes u res
  dsimp only
  generalize isNext : u.on (·.sendBytes t res.toNat) = p
  have served : p.served = u.served := by rw [← isNext]; rfl
  split
  · split
    · exact (finishes p _).trans served
    · rcases writeArm_cases p t with got | got <;> rw [got]
      · exact served
      · exact (finishes _ _).trans served
  · exact (finishes p _).trans served

theorem drainOp_served (res : Int) : (u.drainOp t res).served t = u.served t + 1 := by
  have taken : (u.taken t).served t = u.served t + 1 := by simp [UringIo.taken]
  -- The entry is taken and counted before it is dispatched.
  rw [drainOp_eq, ← taken]
  unfold dispatch
  split
  case h_5 => rw [dispatchWrite_served]
  all_goals rfl

/-- A step leaves an operation on the ring, or is its completion. -/
theorem step_ring {label : Label} (submitted : t < u.ntask) (taken : u.step label = some u')
    (there : u'.user ≠ .destroyed) :
    Remains t u u' ∨ t ∈ u.armed ∧ u'.served t = u.served t + 1 ∧
      (Ending u.toCore t → (u'.task t).done = true) := by
  -- Only the task's own completion takes it off the ring.
  by_cases mine : ∃ res, label = .cqe t res
  · obtain ⟨res, rfl⟩ := mine
    obtain ⟨armed, _, _, _, _, rfl⟩ := step_drains taken
    exact .inr ⟨armed, drainOp_served res, drainOp_last res⟩
  · exact .inl (step_remains submitted taken there fun res same => mine ⟨res, same⟩)

/-- A step makes no task unsubmitted, another kind, or undone. -/
theorem Works.later {B : Prop} (works : Works B u u') :
    u.ntask ≤ u'.ntask ∧ ∀ t, t < u.ntask → (u'.task t).kind = (u.task t).kind ∧
      ((u.task t).done = true → (u'.task t).done = true) := by
  rcases works with moves | ⟨v, core⟩
  · exact ⟨moves.later.ntask, fun t inside => ⟨(moves.later.args t inside).1, fun done =>
      (moves.later.done t inside done).1⟩⟩
  · rw [core]
    refine ⟨Nat.le_refl _, fun t _ => ?_⟩
    unfold wcancel modTask
    by_cases same : t = v
    · subst same; simp
    · simp [same]

/-- An operation that was on the ring is still there, untouched, or has had a completion, which was the
last one if it was to be. -/
def KeptSince (u : UringIo) (t : TaskId) (v : UringIo) : Prop :=
  t ∈ v.armed ∧ Remains t u v ∨ u.served t < v.served t ∧
    (Ending u.toCore t → (v.task t).done = true ∧ v.served t = u.served t + 1)

/-- A task that is to end with its next completion still is when nothing has happened to it. -/
theorem Ending.remains (ending : Ending u.toCore t) (remains : Remains t u u')
    (kind : (u'.task t).kind = (u.task t).kind) : Ending u'.toCore t := by
  -- Neither its kind, nor the loss of its socket, nor the mark is undone.
  rcases ending with other | none_ | marked
  · exact .inl (by rw [show (u'.toCore.task t).kind = _ from kind]; exact other)
  · exact .inr (.inl (remains.1.sock.elim id fun same => same.trans none_))
  · exact .inr (.inr (remains.1.wcanceled marked))

/-- What a step makes of an operation that was on the ring. -/
theorem KeptSince.step {v w : UringIo} {label : Label} (kept : KeptSince u t v) (steady : Steady False v)
    (submitted : t < v.ntask) (kind : (v.task t).kind = (u.task t).kind) (works : Works False v w)
    (taken : v.step label = some w) (there : w.user ≠ .destroyed) : KeptSince u t w := by
  -- Two cases for what has happened so far, and two for what the step does.
  have moved := step_ring submitted taken there
  rcases kept with ⟨onRing, remains⟩ | ⟨more, last⟩
  · rcases moved with stays | ⟨_, served, ended⟩
    · exact .inl ⟨stays.1.armed onRing, remains.trans stays⟩
    · rw [remains.2] at served
      refine .inr ⟨by omega, fun ending => ⟨ended (ending.remains remains kind), served⟩⟩
  · rcases moved with stays | ⟨onRing, served, _⟩
    · refine .inr ⟨by rw [stays.2]; exact more, fun ending => ?_⟩
      obtain ⟨done, once⟩ := last ending
      exact ⟨(works.later.2 t submitted).2 done, by rw [stays.2]; exact once⟩
    · -- A task that is done has nothing on the ring.
      refine .inr ⟨by omega, fun ending => ?_⟩
      have isOpen := (armed_alive steady.firm onRing).2.1
      rw [show (v.toCore.task t).done = true from (last ending).1] at isOpen
      cases isOpen

/--
No operation is lost on the ring, and none is completed twice.

In every run an operation stays on the ring, its task pending, in memory and no further than it was,
until its completion. Only the send of a write that is neither closed nor canceled may go back on the
ring then; every other operation ends with its one completion.
-/
theorem ring_kept {sqes : Nat → Bool} (run : Run (UringIo.new sqes) u) (onRing : t ∈ u.armed)
    (later : Run u u') (there : u'.user ≠ .destroyed) :
    (t ∈ u'.armed ∧ (u'.task t).done = false ∧ (u'.task t).frees = 0 ∧
      (u'.task t).off = (u.task t).off ∧ u'.served t = u.served t) ∨
    (u.served t < u'.served t ∧
      (Ending u.toCore t → (u'.task t).done = true ∧ u'.served t = u.served t + 1)) := by
  -- By induction on what follows: where the operation is, as long as the instance is there.
  have goes : u'.user = .destroyed ∨ Steady False u' ∧ t < u'.ntask ∧ (u'.task t).kind = (u.task t).kind ∧
      KeptSince u t u' := by
    refine later.invariant (fun w => w.user = .destroyed ∨ Steady False w ∧ t < w.ntask ∧
      (w.task t).kind = (u.task t).kind ∧ KeptSince u t w) (fun v label w before allowed taken => ?_) ?_
    · rcases before with gone | ⟨steady, submitted, kind, kept⟩
      · rw [step_destroyed gone] at taken
        cases taken
      · by_cases gone : w.user = .destroyed
        · exact .inl gone
        · obtain ⟨steady', works⟩ := (step_steady steady allowed False.elim taken).resolve_left gone
          obtain ⟨more, args⟩ := works.later
          exact .inr ⟨steady', Nat.lt_of_lt_of_le submitted more, (args t submitted).1.trans kind,
            kept.step steady submitted kind works taken gone⟩
    · by_cases gone : u.user = .destroyed
      · exact .inl gone
      · have steady := steady_of_run run gone
        exact .inr ⟨steady, (armed_alive steady.firm onRing).1, rfl, .inl ⟨onRing, .refl u⟩⟩
  obtain ⟨steady, _, _, kept | ended⟩ := goes.resolve_left there
  · obtain ⟨_, isOpen, frees⟩ := armed_alive steady.firm kept.1
    exact .inl ⟨kept.1, isOpen, frees, kept.2.1.off, kept.2.2⟩
  · exact .inr ended

/-- The cancel's wait drains the rest of the send, and then the accept. -/
def bothEnded : List Label := [.resume, .cqe 1 1, .cqe 0 (-125)]

theorem ring_kept_bothEnded :
    0 ∈ (after [] oneCanceling).armed ∧
    ((Machine.drive step (after [] oneCanceling) bothEnded).task 0).done = true ∧
    (Machine.drive step (after [] oneCanceling) bothEnded).served 0 = (after [] oneCanceling).served 0 + 1 := by
  have run := (fair_after [] oneCanceling (by decide +kernel)).run
  have later : Run (after [] oneCanceling) (Machine.drive step (after [] oneCanceling) bothEnded) :=
    Fair.run (.of_legal obeys (fun _ _ => fair_of_obeys) bothEnded (.refl _) (by decide +kernel))
  have absent : 0 ∉ (Machine.drive step (after [] oneCanceling) bothEnded).armed := by decide +kernel
  obtain ⟨_, last⟩ := (ring_kept (t := 0) run (by decide +kernel) later (by decide +kernel)).resolve_left
    fun there => absent there.1
  exact ⟨by decide +kernel, last (.inl (by decide +kernel))⟩

/-! ### The order of writes -/

/-- The first waiting write is sent, or fails for want of an entry. -/
theorem promote_first (n : TaskId) (rest : List TaskId) :
    n ∈ (u.promote s (n :: rest)).armed ∨ (n ∉ rest → ((u.promote s (n :: rest)).task n).done = true ∧
      ((u.promote s (n :: rest)).task n).res.status = .error) := by
  unfold promote
  rcases writeArm_cases u n with got | got <;> rw [got]
  · exact .inl List.mem_cons_self
  · refine .inr fun apart => ?_
    dsimp only
    rw [promote_other rest apart]
    have ended := taskComplete_task ((u.toCore.modSock s fun k => { k with wq := (wqPop k.wq).1 }).modTask n
      ({ · with sock := none })) n (-EAGAIN)
    exact ⟨ended.1, congrArg Result.status ended.2⟩

/-- Completing one task leaves the records of the others. -/
theorem taskComplete_other {res : Int} (other : v ≠ t) : (taskComplete c t res).task v = c.task v := by
  unfold taskComplete
  rw [taskFinish_plain (cqeResult_ptr res)]
  simp [settle, modTask, other]

/-- When the head of a FIFO is done, the write behind it is sent or fails for want of an entry. -/
theorem writeFinish_next {res : Int} {rest : List TaskId} (sock : (u.task t).sock = some s)
    (wq : (u.sock s).wq = t :: v :: rest) (nodup : (t :: v :: rest).Nodup) :
    v ∈ (u.writeFinish t res).armed ∨
      (((u.writeFinish t res).task v).done = true ∧ ((u.writeFinish t res).task v).res.status = .error) := by
  have apart : v ≠ t := fun same => (List.nodup_cons.mp nodup).1 (same ▸ List.mem_cons_self)
  have alone : v ∉ rest := (List.nodup_cons.mp (List.nodup_cons.mp nodup).2).1
  unfold writeFinish
  rw [sock]
  dsimp only
  generalize isPopped : (u.on (·.modTask t ({ · with sock := none }))).on
    (·.modSock s fun k => { k with wq := (wqPop k.wq).1 }) = p
  have behind : (p.sock s).wq = v :: rest := by
    rw [← isPopped]
    simp [on, modTask, modSock, wqPop, wq]
  rw [behind]
  rcases promote_first (u := p) (s := s) v rest with armed | failed
  · refine .inl ?_
    change v ∈ (taskComplete (p.promote s (v :: rest)).toCore t res).armed
    rw [taskComplete_armed]
    exact armed
  · refine .inr ?_
    change ((taskComplete (p.promote s (v :: rest)).toCore t res).task v).done = true ∧
      ((taskComplete (p.promote s (v :: rest)).toCore t res).task v).res.status = .error
    rw [taskComplete_other apart]
    exact failed alone

/-- When a send's completion ends its write, the next of the FIFO is sent or fails for want of an entry. -/
theorem dispatchWrite_next {res : Int} {rest : List TaskId} (sock : (u.task t).sock = some s)
    (wq : (u.sock s).wq = t :: v :: rest) (nodup : (t :: v :: rest).Nodup)
    (ended : ((u.dispatchWrite t res).task t).done = true) (isOpen : (u.task t).done = false) :
    v ∈ (u.dispatchWrite t res).armed ∨ (((u.dispatchWrite t res).task v).done = true ∧
      ((u.dispatchWrite t res).task v).res.status = .error) := by
  unfold dispatchWrite at ended ⊢
  split
  · exact writeFinish_next sock wq nodup
  rename_i goes
  rw [if_neg goes] at ended
  dsimp only at ended ⊢
  generalize isNext : u.on (·.sendBytes t res.toNat) = p at ended ⊢
  -- Where the write stands does not depend on what was sent of it.
  have task : p.task t = { u.task t with off := (u.task t).off + res.toNat } := by
    rw [← isNext]
    change (u.sendBytes t res.toNat).task t = _
    rw [sendBytes_task, if_pos rfl]
  have stands : (p.task t).sock = some s ∧ (p.sock s).wq = t :: v :: rest := by
    refine ⟨by rw [task]; exact sock, ?_⟩
    rw [← isNext]
    exact wq
  split
  · rename_i short
    rw [if_pos short] at ended
    split
    · exact writeFinish_next stands.1 stands.2 nodup
    · rename_i again
      rw [if_neg again] at ended
      rcases writeArm_cases p t with got | got <;> rw [got] at ended ⊢
      · change (p.task t).done = true at ended
        rw [task] at ended
        rw [show (u.task t).done = false from isOpen] at ended
        cases ended
      · exact writeFinish_next (u := { p with tick := p.tick + 1 }) stands.1 stands.2 nodup
  · exact writeFinish_next stands.1 stands.2 nodup

/--
What the writes of a socket put on the wire, whatever the order of completions and calls.

The bytes sent on a descriptor are those of its socket's writes, each up to where it got, in the order
the writes were submitted. A write that succeeded sent every byte, after all earlier writes were done.
A socket has one send on the ring at a time. The completion of a send puts the rest of its write back
on the ring, asking for what is left, or ends the write and has the next one sent, which fails when
there is no entry for it.
-/
theorem ring_write_order {sqes : Nat → Bool} (fair : Fair (UringIo.new sqes) u)
    (there : u.user ≠ .destroyed) :
    (∀ s fd, s < u.nsock → (u.sock s).fd = some fd → (u.desc fd).wire =
      (List.range u.ntask).flatMap fun t =>
        if (u.task t).kind = .taskSockWrite ∧ (u.task t).on = some s
        then (u.task t).buf.take (u.task t).off else []) ∧
    (∀ t, t < u.ntask → (u.task t).kind = .taskSockWrite →
      (u.task t).off ≤ (u.task t).buf.length ∧
      ((u.task t).done = true → (u.task t).res.status = .ok →
        (u.task t).off = (u.task t).buf.length ∧ (u.task t).res.value = (u.task t).buf.length ∧
        ∀ v s, v < t → u.WriteOn s v → u.WriteOn s t → (u.task v).done = true)) ∧
    (∀ t v s, t ∈ u.armed → v ∈ u.armed → u.WriteOn s t → u.WriteOn s v → t = v) ∧
    ∀ t res u', u.step (.cqe t res) = some u' → (u.task t).kind = .taskSockWrite →
      ((u'.task t).done = false ∧ t ∈ u'.armed ∧ 0 ≤ res ∧
        (u'.task t).off = (u.task t).off + res.toNat ∧ (u'.task t).off < (u.task t).buf.length ∧
        u'.entry t = toU32 ((u.task t).buf.length - (u'.task t).off)) ∨
      ((u'.task t).done = true ∧ ∀ s v rest, s ∈ u.socks → (u.sock s).wq = t :: v :: rest →
        v ∈ u'.armed ∨ ((u'.task v).done = true ∧ (u'.task v).res.status = .error)) := by
  have steady := steady_of_fair fair there
  have firm := steady.firm
  have wired := firm.sound.wired trivial
  refine ⟨fun s fd made isFd => wired.wire s fd made isFd, fun t less kind => ⟨wired.fits t less, fun done okay => ?_⟩,
    fun t v s armed armedV on onV => ?_, fun t res u' taken kind => ?_⟩
  · obtain ⟨sent, value⟩ := wired.whole t less kind done okay
    refine ⟨sent, value, fun v s before onV on => ?_⟩
    have ended := wired.ordered v t s before less onV on done okay
    by_contra isOpen
    exact ended ⟨Nat.lt_trans before less, Bool.eq_false_iff.mpr isOpen, rfl⟩
  · -- Each of the two is the first that is not done.
    have pending := ((firm.sound.placed.armed t).mp armed).1
    have pendingV := ((firm.sound.placed.armed v).mp armedV).1
    rcases Nat.lt_trichotomy t v with less | same | more
    · exact absurd pending (front_of_armed firm steady.tidy.lone armedV s t onV on less)
    · exact same
    · exact absurd pendingV (front_of_armed firm steady.tidy.lone armed s v on onV more)
  · obtain ⟨armed, _, _, _, _, rfl⟩ := step_drains taken
    have isOpen := (armed_alive firm armed).2.1
    have dispatched : u.drainOp t res = (u.taken t).dispatchWrite t res := by
      rw [drainOp_eq]
      unfold dispatch
      rw [show ((u.taken t).task t).kind = .taskSockWrite from kind]
    dsimp only
    rw [dispatched]
    cases ended : (((u.taken t).dispatchWrite t res).task t).done with
    | true =>
      refine .inr ⟨rfl, fun s v rest live wq => ?_⟩
      obtain ⟨_, _, sock⟩ := (firm.sound.placed.fifo s t live).mp (by
        change t ∈ (u.sock s).wq; rw [wq]; exact List.mem_cons_self)
      have sorted : (u.sock s).wq.Pairwise (· < ·) := firm.sound.placed.sorted s live
      rw [wq] at sorted
      exact dispatchWrite_next (u := u.taken t) sock wq (sorted.imp Nat.ne_of_lt) ended isOpen
    | false =>
      rcases dispatchWrite_spec (u := u.taken t) res kind with done | ⟨_, back, sent, task, short, entry⟩
      · rw [done] at ended; cases ended
      · rw [task]
        exact .inl ⟨rfl, back, sent, rfl, short, entry⟩

/-- The cancel's wait is about to drain the rest of the short send. -/
def oneShort : List Label := oneCanceling ++ [.resume]

theorem ring_write_order_oneShort :
    ((after [] oneShort).desc 0).wire = [1, 2] ∧
    ((Machine.drive step (after [] oneShort) [.cqe 1 1]).task 1).res = rOk 3 none ∧
    2 ∈ (Machine.drive step (after [] oneShort) [.cqe 1 1]).armed := by
  obtain ⟨bytes, _, _, ends⟩ := ring_write_order (fair_after [] oneShort (by decide +kernel)) (by decide +kernel)
  have taken : step (after [] oneShort) (.cqe 1 1) = some (Machine.drive step (after [] oneShort) [.cqe 1 1]) :=
    Machine.drive_one (by decide +kernel)
  have done : ¬ ((Machine.drive step (after [] oneShort) [.cqe 1 1]).task 1).done = false := by decide +kernel
  have next := ((ends 1 1 _ taken (by decide +kernel)).resolve_left fun again => done again.1).2 0 2 []
    (by decide +kernel) (by decide +kernel)
  refine ⟨(bytes 0 0 (by decide +kernel) (by decide +kernel)).trans (by decide +kernel), by decide +kernel,
    next.resolve_right fun failed => ?_⟩
  exact absurd failed.1 (by decide +kernel)

/-! ### Closing -/

/-- A socket that is off the list does not come back. -/
theorem gone_stays {r : Rules} {a b : Cut} (moves : Moves r a b) (made : s < a.core.nsock)
    (gone : s ∉ a.core.socks) : s < b.core.nsock ∧ s ∉ b.core.socks := by
  refine @Moves.preserves r a b (fun cut => s < cut.core.nsock ∧ s ∉ cut.core.socks) moves
    (fun a b move before => ?_) ⟨made, gone⟩
  cases move with
  | sockNew =>
    obtain ⟨made, gone⟩ := before
    refine ⟨Nat.lt_succ_of_lt made, fun there => ?_⟩
    exact (List.mem_cons.mp there).elim (fun same => absurd same (Nat.ne_of_lt made)) gone
  | release => exact ⟨before.1, fun there => before.2 (List.mem_of_mem_erase there)⟩
  | enter => rw [setSlot_rest]; exact before
  | exit => rw [leaveSock_rest]; exact before
  | sever => exact (by rw [leaveSock_rest]; exact before)
  | _ => exact before

/-- A close that was pending still is, with its socket, or is done and its socket gone. -/
def ClosedSince (t : TaskId) (s : SockId) (u : UringIo) : Prop :=
  (t ∈ u.armed ∧ (u.task t).sock = some s) ∨ ((u.task t).done = true ∧ s ∉ u.socks)

/-- The completion of a close takes its socket off the list. -/
theorem dispatchClose_socks (res : Int) (sock : (c.task t).sock = some s) :
    (dispatchClose c t res).socks = c.socks.erase s := by
  unfold dispatchClose
  rw [sock]
  dsimp only
  unfold taskComplete
  rw [taskFinish_plain (cqeResult_ptr res)]
  rfl

/-- What a step makes of a close and its socket. -/
theorem ClosedSince.step {label : Label} (closed : ClosedSince t s u) (steady : Steady False u)
    (steady' : Steady False u') (submitted : t < u.ntask) (kind : (u.task t).kind = .taskSockClose)
    (made : s < u.nsock) (works : Works False u u') (taken : u.step label = some u')
    (there : u'.user ≠ .destroyed) : ClosedSince t s u' := by
  obtain ⟨_, args⟩ := works.later
  rcases closed with ⟨onRing, sock⟩ | ⟨done, gone⟩
  · by_cases mine : ∃ res, label = .cqe t res
    · obtain ⟨res, rfl⟩ := mine
      obtain ⟨_, _, _, _, _, rfl⟩ := step_drains taken
      refine .inr ⟨drainOp_last res (.inl (by rw [show (u.toCore.task t).kind = _ from kind]; decide)), ?_⟩
      change s ∉ (u.drainOp t res).socks
      rw [drainOp_eq]
      unfold dispatch
      rw [show ((u.taken t).task t).kind = .taskSockClose from kind]
      change s ∉ (dispatchClose (u.taken t).toCore t res).socks
      rw [dispatchClose_socks (c := (u.taken t).toCore) res sock]
      exact steady.firm.sound.linked.nodup.not_mem_erase
    · -- Left alone it stays on the ring, and a close on the ring has its socket.
      have stays := (step_remains submitted taken there fun res same => mine ⟨res, same⟩).1
      have onRing' := stays.armed onRing
      have shape := steady'.firm.sound.shaped t ((steady'.firm.sound.placed.armed t).mp onRing').1
      unfold Rules.Fits ring uShape at shape
      rw [show (u'.rest.core.task t).kind = .taskSockClose from (args t submitted).1.trans kind] at shape
      exact .inl ⟨onRing', (stays.sock.resolve_left shape.1).trans sock⟩
  · refine .inr ⟨(args t submitted).2 done, ?_⟩
    rcases works with moves | ⟨v, core⟩
    · exact (gone_stays moves made gone).2
    · rw [core]
      exact gone

/-- The completion of an operation that puts nothing back on the ring. -/
theorem drainOp_inflight (res : Int) (cut : (u.task t).kind = .taskSockWrite → (u.task t).sock = none) :
    (u.drainOp t res).inflight = u.inflight - 1 := by
  have finishes : ∀ (w : UringIo) (n : Int), (w.task t).sock = none → (w.writeFinish t n).inflight = w.inflight := by
    intro w n none_
    unfold writeFinish
    rw [none_]
    rfl
  rw [drainOp_eq]
  change _ = (u.taken t).inflight
  unfold dispatch
  split
  case h_5 kind =>
    have none_ : ((u.taken t).task t).sock = none := cut kind
    unfold dispatchWrite
    split
    · exact finishes _ res none_
    dsimp only
    generalize isNext : (u.taken t).on (·.sendBytes t res.toNat) = p
    have sock : (p.task t).sock = none := by
      rw [← isNext]
      change (((u.taken t).sendBytes t res.toNat).task t).sock = none
      rw [sendBytes_task, if_pos rfl]
      exact none_
    have same : p.inflight = (u.taken t).inflight := by rw [← isNext]; rfl
    split
    · rw [if_pos (.inl sock)]
      exact (finishes p _ sock).trans same
    · exact (finishes p _ sock).trans same
  all_goals rfl

/-- What is drained off the ring. -/
def completes : Label → Bool
  | .cqe _ _ | .cancelCqe => true
  | _ => false

/-- A teardown is inside a call. -/
theorem over_busy (torn : UUser.over u.user) : u.user ≠ .idle := by
  rintro idle
  rw [idle] at torn
  exact torn

/-- One step of the teardown: a completion lowers the count by one, and nothing raises it. -/
theorem teardown_step {label : Label} (steady : Steady False u) (torn : UUser.over u.user)
    (taken : u.step label = some u') :
    UUser.over u'.user ∧ u'.inflight + (if completes label then 1 else 0) = u.inflight := by
  have busy := over_busy torn
  cases label with
  | cqe t res =>
    obtain ⟨armed, why, free, got, draining, rfl⟩ := step_drains taken
    have pending := ((steady.firm.sound.placed.armed t).mp armed).1
    have some_ : 0 < u.armed.length := List.length_pos_of_mem armed
    have counted := steady.counted
    unfold Counted at counted
    rw [draining] at torn
    refine ⟨by cases why <;> exact torn, ?_⟩
    change (u.drainOp t res).inflight + 1 = u.inflight
    rw [drainOp_inflight res (steady.tidy.cleared (by rw [draining]; exact torn) t pending)]
    omega
  | cancelCqe =>
    simp only [UringIo.step] at taken
    split at taken
    · rename_i why free got draining
      split at taken
      · obtain rfl := Option.some.inj taken
        have counted := steady.counted
        unfold Counted at counted
        rw [draining] at torn
        refine ⟨by cases why <;> exact torn, ?_⟩
        change u.inflight - 1 + 1 = u.inflight
        omega
      · cases taken
    · cases taken
  | drained =>
    simp only [UringIo.step] at taken
    split at taken
    · rename_i why free draining
      obtain rfl := Option.some.inj taken
      rw [draining] at torn
      cases why with
      | destroy => exact ⟨trivial, rfl⟩
      | _ => exact torn.elim
    · cases taken
  | resume =>
    simp only [UringIo.step] at taken
    split at taken
    · rename_i t free canceling; rw [canceling] at torn; exact torn.elim
    · rename_i t freeing; rw [freeing] at torn; exact torn.elim
    · obtain rfl := Option.some.inj taken
      unfold destroyLoop
      split
      · exact ⟨trivial, rfl⟩
      · exact ⟨trivial, rfl⟩
    · cases taken
  | _ =>
    simp only [UringIo.step, if_neg busy] at taken
    cases taken

/-- Inside a call the caller makes no other. -/
theorem allowed_of_busy {label : Label} (busy : u.user ≠ .idle) (taken : u.step label = some u') :
    u.Allowed label := by
  cases label with
  | cqe | cancelCqe | drained | resume => trivial
  | _ =>
    simp only [UringIo.step, if_neg busy] at taken
    cases taken

/-- A call that has not drained anything yet waits for something. -/
def Awake (u : UringIo) : Prop := ∀ why free, u.user = .draining why free false → 0 < u.inflight

/-- `impl_cancel` returns, or waits at the condition of its loop. -/
theorem implCancel_user (free : Bool) :
    (u.implCancel t free).user = .idle ∨ (u.implCancel t free).user = .freeing t ∨
      (u.implCancel t free).user = .canceling t free := by
  have returns : ∀ (w : UringIo) (rc : Int), (w.cancelReturn t free rc).user = .idle ∨
      (w.cancelReturn t free rc).user = .freeing t ∨ (w.cancelReturn t free rc).user = .canceling t free :=
    fun w rc => (cancelReturn_core w t free rc).2.imp id .inl
  unfold implCancel
  split
  · exact returns u _
  split
  case h_9 =>
    dsimp only
    split
    · exact returns _ 0
    · rcases cancelSubmit_cases u with got | got <;> rw [got]
      · exact .inr (.inr rfl)
      · exact returns _ _
  case h_10 => exact returns u _
  all_goals
    rcases cancelSubmit_cases u with got | got <;> rw [got]
    · exact .inr (.inr rfl)
    · exact returns _ _

/-- A call returns, stops at the condition of its loop, or waits for something that is in flight. -/
theorem call_user {label : Label} (idle : u.user = .idle) (taken : u.call label = some u') :
    u'.user = .idle ∨ (u'.user = .draining .step false false ∧ 0 < u'.inflight) ∨
      (∃ t free, u'.user = .canceling t free) ∨ (∃ t, u'.user = .freeing t) ∨ u'.user = .destroying := by
  by_cases submits : submitting label = true
  · exact .inl (submitting_user submits taken)
  have cancels : ∀ t free, (u.implCancel t free).user = .idle ∨
      ((u.implCancel t free).user = .draining .step false false ∧ 0 < (u.implCancel t free).inflight) ∨
      (∃ t' free', (u.implCancel t free).user = .canceling t' free') ∨
      (∃ t', (u.implCancel t free).user = .freeing t') ∨ (u.implCancel t free).user = .destroying := by
    intro t free
    rcases implCancel_user (u := u) (t := t) free with is | is | is
    · exact .inl is
    · exact .inr (.inr (.inr (.inl ⟨t, is⟩)))
    · exact .inr (.inr (.inl ⟨t, free, is⟩))
  cases label <;> simp only [UringIo.call, Option.some.injEq, reduceCtorEq] at taken
  all_goals first | exact absurd rfl submits | subst taken
  case step =>
    unfold implStep
    split
    · exact .inl rfl
    · exact .inr (.inl ⟨rfl, Nat.pos_of_ne_zero ‹_›⟩)
  case cancel t => exact cancels t false
  case free t =>
    unfold implTaskFree
    split
    · exact .inl rfl
    · exact cancels t true
  case detach t => exact .inl (by unfold implTaskDetach; split <;> exact idle)
  case result t => exact .inl idle
  case destroy => exact .inr (.inr (.inr (.inr rfl)))

/-- A call begins to wait only when something is in flight. -/
theorem call_awake {label : Label} (idle : u.user = .idle) (taken : u.call label = some u') : Awake u' := by
  intro why free draining
  rcases call_user idle taken with is | ⟨_, some_⟩ | ⟨_, _, is⟩ | ⟨_, is⟩ | is
  · rw [is] at draining; cases draining
  · exact some_
  · rw [is] at draining; cases draining
  · rw [is] at draining; cases draining
  · rw [is] at draining; cases draining

/-- A waiting call always has something to wait for. -/
theorem step_awake {label : Label} (taken : u.step label = some u') : Awake u' := by
  cases label with
  | cqe t res =>
    obtain ⟨_, why, free, got, _, rfl⟩ := step_drains taken
    intro why' free' draining
    cases draining
  | cancelCqe =>
    simp only [UringIo.step] at taken
    split at taken
    · split at taken
      · obtain rfl := Option.some.inj taken
        intro why free draining
        cases draining
      · cases taken
    · cases taken
  | drained =>
    simp only [UringIo.step] at taken
    split at taken
    · obtain rfl := Option.some.inj taken
      intro why free draining
      unfold drained at draining
      split at draining <;> cases draining
    · cases taken
  | resume =>
    have returns : ∀ t free rc, Awake (u.cancelReturn t free rc) := by
      intro t free rc why free' draining
      rcases (cancelReturn_core u t free rc).2 with is | is <;> rw [is] at draining <;> cases draining
    simp only [UringIo.step] at taken
    split at taken
    · obtain rfl := Option.some.inj taken
      unfold cancelLoop
      split
      · exact returns _ _ _
      split
      · exact returns _ _ _
      · exact fun _ _ _ => Nat.pos_of_ne_zero ‹_›
    · obtain rfl := Option.some.inj taken
      unfold freeLoop
      split
      · intro why free draining; cases draining
      · rename_i some_
        intro _ _ _
        refine Nat.pos_of_ne_zero fun zero => some_ ?_
        rw [Bool.or_eq_true, decide_eq_true_eq]
        exact .inr zero
    · obtain rfl := Option.some.inj taken
      unfold destroyLoop
      split
      · intro why free draining; cases draining
      · exact fun _ _ _ => Nat.pos_of_ne_zero ‹_›
    · cases taken
  | _ =>
    simp only [UringIo.step] at taken
    split at taken
    · exact call_awake ‹_› taken
    · cases taken

/-- A call that is not through can go on. -/
theorem goes_on {B : Prop} (steady : Steady B u) (awake : Awake u) (busy : u.user ≠ .idle)
    (there : u.user ≠ .destroyed) : ∃ label u', u.step label = some u' := by
  cases user : u.user with
  | idle => exact absurd user busy
  | destroyed => exact absurd user there
  | canceling t free => exact ⟨.resume, _, by unfold UringIo.step; rw [user]⟩
  | freeing t => exact ⟨.resume, _, by unfold UringIo.step; rw [user]⟩
  | destroying => exact ⟨.resume, _, by unfold UringIo.step; rw [user]⟩
  | draining why free got =>
    cases got with
    | true => exact ⟨.drained, _, by unfold UringIo.step; rw [user]⟩
    | false =>
      -- Something is in flight: an operation, or a cancel request.
      have some_ := awake why free user
      have counted := steady.counted
      unfold Counted at counted
      cases armed : u.armed with
      | cons t rest => exact ⟨.cqe t 0, _, by unfold UringIo.step; rw [user]; exact if_pos (by rw [armed]; exact List.mem_cons_self)⟩
      | nil =>
        rw [armed, List.length_nil] at counted
        exact ⟨.cancelCqe, _, by unfold UringIo.step; rw [user]; exact if_pos (by omega)⟩

/--
The drain of a teardown, over any number of its steps and in any order of completions.

A teardown is not left, puts nothing on the ring, and takes exactly as many completions as were in
flight; until it is through it can always go on.
-/
theorem ring_drain {sqes : Nat → Bool} (run : Run (UringIo.new sqes) u) (torn : UUser.over u.user)
    (labels : List Label) (taken : Machine.legal step (fun _ _ => true) u labels = true) :
    UUser.over (Machine.drive step u labels).user ∧
    (Machine.drive step u labels).inflight + labels.countP completes = u.inflight ∧
    ((Machine.drive step u labels).user ≠ .destroyed →
      ∃ label next, (Machine.drive step u labels).step label = some next) := by
  induction labels generalizing u with
  | nil =>
    refine ⟨torn, rfl, fun there => ?_⟩
    have awake : Awake u := run.invariant Awake (fun _ _ _ _ _ taken => step_awake taken)
      fun why free draining => by cases draining
    exact goes_on (steady_of_run run there) awake (over_busy torn) there
  | cons label rest ih =>
    cases next : u.step label with
    | none => simp [Machine.legal, next] at taken
    | some w =>
      have there : u.user ≠ .destroyed := fun gone => by rw [step_destroyed gone] at next; cases next
      obtain ⟨over', count⟩ := teardown_step (steady_of_run run there) torn next
      simp only [Machine.legal, next, Bool.true_and] at taken
      obtain ⟨past, counts, goes⟩ := ih (run.snoc (allowed_of_busy (over_busy torn) next) next) over' taken
      simp only [Machine.drive, next]
      refine ⟨past, ?_, goes⟩
      rw [List.countP_cons]
      omega

/-- A teardown that began with a read, a write and an accept on the ring. -/
def tearing : List Label :=
  [.tcpListen (.listening true), .tcpAccept true true 0, .sockRead true 0 8, .sockWrite true 0 [1],
    .sockWrite true 0 [2], .destroy]

theorem ring_drain_tearing :
    (after [] tearing).inflight = 6 ∧
    (Machine.drive step (after [] tearing) [.resume, .cqe 2 1, .cancelCqe, .drained]).inflight = 4 ∧
    ∃ label next, (Machine.drive step (after [] tearing) [.resume, .cqe 2 1, .cancelCqe, .drained]).step label
      = some next := by
  obtain ⟨_, counts, goes⟩ := ring_drain (fair_after [] tearing (by decide +kernel)).run
    (by rw [show (after [] tearing).user = .destroying by decide +kernel]; trivial)
    [.resume, .cqe 2 1, .cancelCqe, .drained] (by decide +kernel)
  have began : (after [] tearing).inflight = 6 := by decide +kernel
  rw [began] at counts
  refine ⟨began, ?_, goes (by decide +kernel)⟩
  change _ + 2 = 6 at counts
  omega

/-- Everything the instance had is given back, once. -/
structure Released (c : Core) : Prop where
  tasks : ∀ t, t < c.ntask → (c.task t).done = true ∧ (c.task t).dones = 1 ∧ (c.task t).frees = 1
  socks : c.socks = []
  memory : ∀ s, s < c.nsock → (c.sock s).frees = 1
  descs : ∀ s fd, s < c.nsock → (c.sock s).fd = some fd → (c.desc fd).closes = 1

end UringIo

end Myio.Loop
