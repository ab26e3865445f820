import Myio.Pool.Commit

/-!
Teardown, as far as the two pools have it in common: what no worker has started is dropped.

Once `shutdown` is set nothing is handed on, so that dropping a task only takes it out.
-/

namespace Myio.Core

open Function (update)

/-- The record of a task dropped at teardown: canceled, and its memory gone whoever owned it. -/
def dropped (k : Task) : Task :=
  { k with res := rCanceled, done := true, dones := k.dones + 1, frees := k.frees + 1 }

/-- A task is lifted out, canceled and freed. -/
def drop (c : Core) (t : TaskId) : Core :=
  { ((c.queueRemove t).leaveSock t).modTask t dropped with held := update c.held t false }

/-- The work queue is emptied from its head. -/
def dropQueue : Nat → Core → Core
  | 0, c => c
  | n + 1, c =>
    match c.queue with
    | [] => c
    | t :: _ => dropQueue n (c.drop t)

/-- The writes of one FIFO that no worker is sending. -/
def unsent (c : Core) (s : SockId) : List TaskId :=
  match (c.sock s).wq with
  | [] => []
  | h :: rest => if (c.task h).started then rest else h :: rest

/-- Tasks are dropped one after the other. -/
def dropAll (c : Core) : List TaskId → Core
  | [] => c
  | t :: rest => dropAll (c.drop t) rest

/-- The FIFOs are emptied, up to the write a worker is sending. -/
def dropFifos (c : Core) : List SockId → Core
  | [] => c
  | s :: rest => dropFifos (c.dropAll (c.unsent s)) rest

/-- What dropping tasks may change. -/
structure Swept (c c' : Core) : Prop where
  rest : c' = { c with task := c'.task, sock := c'.sock, queue := c'.queue, nqueued := c'.nqueued
                       held := c'.held }
  task : ∀ t, c'.task t = c.task t ∧ c'.held t = c.held t ∨
    (c.task t).done = false ∧ (c.task t).started = false ∧ c'.task t = dropped (c.task t) ∧
      c'.held t = false
  queue : ∀ t, t ∈ c'.queue → t ∈ c.queue
  wq : ∀ s t, t ∈ (c'.sock s).wq → t ∈ (c.sock s).wq

variable {o : OpKind → Result → Prop} {c c' c'' : Core} {x : TaskId → Bool} {h : SockId → Bool}
  {t : TaskId} {s : SockId}

theorem Swept.refl (c : Core) : Swept c c :=
  ⟨rfl, fun _ => .inl ⟨rfl, rfl⟩, fun _ => id, fun _ _ => id⟩

theorem Swept.trans (first : Swept c c') (second : Swept c' c'') : Swept c c'' := by
  constructor
  case rest => rw [second.rest, first.rest]
  case task =>
    intro t
    rcases first.task t with ⟨task, held⟩ | ⟨isOpen, unstarted, task, held⟩
    · rw [← task, ← held]; exact second.task t
    · rcases second.task t with ⟨task', held'⟩ | ⟨isOpen', _⟩
      · exact .inr ⟨isOpen, unstarted, task'.trans task, held'.trans held⟩
      · rw [task] at isOpen'; cases isOpen'
  case queue => exact fun t there => first.queue t (second.queue t there)
  case wq => exact fun s t there => first.wq s t (second.wq s t there)

/-- Dropping starts no task. -/
theorem Swept.started (swept : Swept c c') (t : TaskId) :
    (c'.task t).started = (c.task t).started := by
  rcases swept.task t with ⟨task, _⟩ | ⟨_, _, task, _⟩ <;> rw [task]
  rfl

/-- A task is taken out and freed; what it leaves behind is not handed on. -/
theorem drop_moves (sound : Sound ⟨c, fun _ => false, h⟩) (pending : c.Pending (fun _ => false) t)
    (unstarted : (c.task t).started = false) (allowed : o (c.task t).kind rCanceled) :
    Moves o ⟨c, fun _ => false, h⟩ ⟨c.drop t, fun _ => false, fun s => h s || c.exposes t s⟩ := by
  have exit : Move o ⟨c, fun _ => false, h⟩ ⟨(c.queueRemove t).leaveSock t,
      update (fun _ => false) t true, fun s => h s || c.exposes t s⟩ := .exit pending unstarted
  have shared : (c.queueRemove t).leaveSock t = { c with
      queue := (c.queueRemove t).queue, nqueued := (c.queueRemove t).nqueued
      sock := ((c.queueRemove t).leaveSock t).sock } := by rw [leaveSock_rest, queueRemove_rest]
  have task : ((c.queueRemove t).leaveSock t).task t = c.task t := by rw [shared]
  have held' : ((c.queueRemove t).leaveSock t).held = c.held := by rw [shared]
  have ended : Move o ⟨(c.queueRemove t).leaveSock t, update (fun _ => false) t true,
      fun s => h s || c.exposes t s⟩ ⟨_, _, _⟩ :=
    .settle (t := t) (r := rCanceled) (by rw [shared]; exact pending.1)
      (by rw [task]; exact pending.2.1) (by simp)
      (settles_canceled sound pending task fun isClose => by
        unfold leaveSock
        refine if_neg ?_
        have kind : ((c.queueRemove t).task t).kind = .opSockClose := by
          rw [queueRemove_rest]; exact isClose
        rw [kind]
        decide)
      (by rw [task]; exact allowed)
  rw [settle_unstarted (by rw [task]; exact unstarted), update_out rfl] at ended
  have moves := (Moves.one exit).snoc ended
  have life := sound.lives.each t pending.1
  cases held : c.held t with
  | false =>
    -- A detached task is freed as it completes.
    have detached : (c.task t).detached = true := by
      have := life.owned pending.2.1
      dsimp only at this
      rw [held] at this
      simpa using this
    have core : c.drop t = ((c.queueRemove t).leaveSock t).modTask t (settled rCanceled) := by
      have unheld : update c.held t false = c.held := by rw [← held, Function.update_eq_self]
      unfold drop modTask
      rw [unheld, task, ← held']
      simp only [settled, dropped, detached, if_true]
    rw [core]
    exact moves
  | true =>
    have attached : (c.task t).detached = false := by
      have := life.owned pending.2.1
      dsimp only at this
      rw [held] at this
      simpa using this
    have freed : Move o ⟨((c.queueRemove t).leaveSock t).modTask t (settled rCanceled), fun _ => false,
        fun s => h s || c.exposes t s⟩ ⟨_, _, _⟩ :=
      .free (t := t) (by simp [modTask, settled]) (by
        change ((c.queueRemove t).leaveSock t).held t = true
        rw [held']; exact held)
    have core : c.drop t = { (((c.queueRemove t).leaveSock t).modTask t (settled rCanceled)).taskFreeMem t
        with held := update ((c.queueRemove t).leaveSock t).held t false } := by
      unfold drop taskFreeMem modTask
      rw [held', task]
      simp [settled, dropped, attached]
    rw [core]
    exact moves.snoc freed

theorem drop_queue (c : Core) (t : TaskId) : (c.drop t).queue = c.queue.erase t := by
  change ((c.queueRemove t).leaveSock t).queue = _
  rw [leaveSock_rest]
  exact queueRemove_queue c t

theorem drop_task (c : Core) (t : TaskId) : (c.drop t).task = update c.task t (dropped (c.task t)) := by
  change update ((c.queueRemove t).leaveSock t).task t _ = _
  rw [leaveSock_rest, queueRemove_rest]

theorem drop_wq (c : Core) (t : TaskId) (s : SockId) :
    ((c.drop t).sock s).wq =
      if (c.task t).kind = .opSockWrite ∧ s = c.sockOf t then (c.sock s).wq.erase t
      else (c.sock s).wq := by
  change (((c.queueRemove t).leaveSock t).sock s).wq = _
  rw [leaveSock_wq, queueRemove_rest]
  rfl

/-- A dropped task is off the queue and out of its FIFO, and nothing else has changed. -/
theorem drop_swept (isOpen : (c.task t).done = false) (unstarted : (c.task t).started = false) :
    Swept c (c.drop t) := by
  constructor
  case rest =>
    unfold drop modTask
    rw [leaveSock_rest, queueRemove_rest]
  case task =>
    intro u
    have held : (c.drop t).held = update c.held t false := rfl
    rw [drop_task, held]
    by_cases same : u = t
    · subst same; simp [isOpen, unstarted]
    · simp [same]
  case queue =>
    intro u there
    rw [drop_queue] at there
    exact List.mem_of_mem_erase there
  case wq =>
    intro s u there
    rw [drop_wq] at there
    split at there
    · exact List.mem_of_mem_erase there
    · exact there

/-- The first loop of `impl_destroy`. -/
theorem dropQueue_spec (n : Nat) : ∀ {c : Core} {h : SockId → Bool}, Sound ⟨c, fun _ => false, h⟩ →
    c.queue.length ≤ n → (∀ t, t ∈ c.queue → o (c.task t).kind rCanceled) →
    (∃ h', Moves o ⟨c, fun _ => false, h⟩ ⟨dropQueue n c, fun _ => false, h'⟩) ∧
      Swept c (dropQueue n c) ∧ (dropQueue n c).queue = [] := by
  induction n with
  | zero =>
    intro c h _ short _
    exact ⟨⟨h, .refl _⟩, .refl _, List.eq_nil_of_length_eq_zero (Nat.le_zero.mp short)⟩
  | succ n ih =>
    intro c h sound short allowed
    unfold dropQueue
    split
    · rename_i empty; exact ⟨⟨h, .refl _⟩, .refl _, empty⟩
    · rename_i t rest queue
      have there : t ∈ c.queue := by simp [queue]
      obtain ⟨pending, unstarted⟩ := sound.placed.queue_pending t there
      have moves := drop_moves (o := o) sound pending unstarted (allowed t there)
      have shorter : (c.drop t).queue = rest := by rw [drop_queue, queue]; simp
      obtain ⟨⟨h', moves'⟩, swept, empty⟩ := ih (sound.moves moves)
        (by rw [shorter]; rw [queue] at short; exact Nat.le_of_succ_le_succ short) (fun u inside => by
          rw [drop_task]
          rw [drop_queue] at inside
          have := allowed u (List.mem_of_mem_erase inside)
          by_cases same : u = t
          · subst same; simpa [dropped] using this
          · simpa [same] using this)
      exact ⟨⟨h', moves.trans moves'⟩, (drop_swept pending.2.1 unstarted).trans swept, empty⟩

/-- The inner loop of `impl_destroy`, over writes that wait in a FIFO. -/
theorem dropAll_spec (l : List TaskId) : ∀ {c : Core} {h : SockId → Bool},
    Sound ⟨c, fun _ => false, h⟩ → l.Nodup → s ∈ c.socks →
    (∀ t, t ∈ l → t ∈ (c.sock s).wq ∧ (c.task t).started = false) →
    (∀ res, o .opSockWrite res) →
    (∃ h', Moves o ⟨c, fun _ => false, h⟩ ⟨c.dropAll l, fun _ => false, h'⟩) ∧
      Swept c (c.dropAll l) ∧ ∀ t, t ∈ l → t ∉ ((c.dropAll l).sock s).wq := by
  induction l with
  | nil => intro c h _ _ _ _ _; exact ⟨⟨h, .refl _⟩, .refl _, by simp⟩
  | cons t rest ih =>
    intro c h sound distinct live waiting allowed
    obtain ⟨fresh, distinct⟩ := List.nodup_cons.mp distinct
    obtain ⟨there, unstarted⟩ := waiting t (by simp)
    obtain ⟨pending, isWrite, sock⟩ : c.Pending (fun _ => false) t ∧ (c.task t).kind = .opSockWrite ∧
        (c.task t).sock = some s := (sound.placed.wq_mem s t live).mp there
    have moves := drop_moves (o := o) sound pending unstarted (by rw [isWrite]; exact allowed _)
    have swept := drop_swept pending.2.1 unstarted
    have wq : ((c.drop t).sock s).wq = (c.sock s).wq.erase t := by
      rw [drop_wq, if_pos ⟨isWrite, by simp [sockOf, sock]⟩]
    have nodup : (c.sock s).wq.Nodup := (sound.placed.wq_sorted s live).imp Nat.ne_of_lt
    obtain ⟨⟨h', moves'⟩, swept', gone⟩ := @ih (c.drop t) _ (sound.moves moves) distinct
      (by rw [swept.rest]; exact live) (fun u inside => by
        have other : u ≠ t := by rintro rfl; exact fresh inside
        obtain ⟨there', unstarted'⟩ := waiting u (List.mem_cons_of_mem t inside)
        rw [wq, swept.started]
        exact ⟨(List.mem_erase_of_ne other).mpr there', unstarted'⟩) allowed
    refine ⟨⟨h', moves.trans moves'⟩, swept.trans swept', fun u inside again => ?_⟩
    rcases List.mem_cons.mp inside with rfl | below
    · have there' := swept'.wq s u again
      rw [wq] at there'
      exact (List.Nodup.mem_erase_iff nodup).mp there' |>.1 rfl
    · exact gone u below again

/-- The second loop of `impl_destroy` leaves only writes that are being sent. -/
theorem dropFifos_spec (l : List SockId) : ∀ {c : Core} {h : SockId → Bool},
    Sound ⟨c, fun _ => false, h⟩ → (∀ s, s ∈ l → s ∈ c.socks) → (∀ res, o .opSockWrite res) →
    (∃ h', Moves o ⟨c, fun _ => false, h⟩ ⟨c.dropFifos l, fun _ => false, h'⟩) ∧
      Swept c (c.dropFifos l) ∧
      ∀ s, s ∈ l → ∀ t, t ∈ ((c.dropFifos l).sock s).wq → (c.task t).started = true := by
  induction l with
  | nil => intro c h _ _ _; exact ⟨⟨h, .refl _⟩, .refl _, by simp⟩
  | cons s rest ih =>
    intro c h sound inside allowed
    have live := inside s (by simp)
    have sorted := sound.placed.wq_sorted s live
    have nodup : (c.sock s).wq.Nodup := sorted.imp Nat.ne_of_lt
    have isRest : ∀ first more, (c.sock s).wq = first :: more → ∀ t, t ∈ more →
        (c.task t).started = false := by
      intro first more wq t below
      refine (sound.placed.wq_rest s t live (by simp [wq, below]) (.inr ?_)).2
      rw [wq] at nodup ⊢
      have other : first ≠ t := by rintro rfl; exact (List.nodup_cons.mp nodup).1 below
      simpa using other
    have waiting : ∀ t, t ∈ c.unsent s → t ∈ (c.sock s).wq ∧ (c.task t).started = false := by
      intro t there
      unfold unsent at there
      split at there
      · simp at there
      · rename_i first more wq
        split at there
        · exact ⟨by simp [wq, there], isRest first more wq t there⟩
        · rename_i idle
          refine ⟨by rw [wq]; exact there, ?_⟩
          rcases List.mem_cons.mp there with rfl | below
          · simpa using idle
          · exact isRest first more wq t below
    have distinct : (c.unsent s).Nodup := by
      unfold unsent
      split
      · exact List.nodup_nil
      · rename_i wq
        rw [wq] at nodup
        split
        · exact (List.nodup_cons.mp nodup).2
        · exact nodup
    have sending : ∀ t, t ∈ (c.sock s).wq → t ∉ c.unsent s → (c.task t).started = true := by
      intro t there apart
      unfold unsent at apart
      split at apart
      · rename_i wq; simp [wq] at there
      · rename_i first more wq
        rw [wq] at there
        split at apart
        · rename_i running
          rcases List.mem_cons.mp there with rfl | below
          · exact running
          · exact absurd below apart
        · exact absurd there apart
    obtain ⟨⟨h', moves⟩, swept, gone⟩ := dropAll_spec (o := o) (c.unsent s) sound distinct live
      waiting allowed
    obtain ⟨⟨h'', moves'⟩, swept', rest'⟩ := @ih (c.dropAll (c.unsent s)) h' (sound.moves moves)
      (fun u there => by rw [swept.rest]; exact inside u (List.mem_cons_of_mem s there)) allowed
    refine ⟨⟨h'', moves.trans moves'⟩, swept.trans swept', fun u there t member => ?_⟩
    rcases List.mem_cons.mp there with rfl | below
    · have here := swept'.wq u t member
      exact sending t (swept.wq u t here) fun listed => gone t listed here
    · rw [← swept.started]
      exact rest' u below t member

/-- `impl_destroy` marks the instance and drops every task no worker has started. -/
def tearDown (c : Core) : Core :=
  (dropQueue c.queue.length { c with shutdown := true }).dropFifos c.socks

/-- After `impl_destroy` has swept, every task that is not done is with a worker. -/
theorem tearDown_spec (sound : Sound c.rest) (allowed : ∀ t, t ∈ c.queue → o (c.task t).kind rCanceled)
    (write : ∀ res, o .opSockWrite res) :
    Moves o c.rest c.tearDown.rest ∧ Swept { c with shutdown := true } c.tearDown ∧
      c.tearDown.WoundDown := by
  have shut : Move o c.rest ⟨{ c with shutdown := true }, fun _ => false, fun _ => false⟩ := .shutdown
  obtain ⟨⟨h, moves⟩, swept, empty⟩ := dropQueue_spec (o := o) c.queue.length (sound.move shut)
    (Nat.le_refl _) allowed
  have moves := (Moves.one shut).trans moves
  obtain ⟨⟨h', moves'⟩, swept', sending⟩ := dropFifos_spec (o := o) c.socks (sound.moves moves)
    (fun s live => by rw [swept.rest]; exact live) write
  have moves := moves.trans moves'
  have sound' := sound.moves moves
  have whole : Swept { c with shutdown := true } c.tearDown := swept.trans swept'
  have sent : ∀ s t, s ∈ c.socks → t ∈ (c.tearDown.sock s).wq → (c.tearDown.task t).started = true := by
    intro s t live there
    rw [whole.started, ← swept.started]
    exact sending s live t there
  have socks : c.tearDown.socks = c.socks := by rw [whole.rest]
  have none : c.tearDown.queue = [] := List.eq_nil_iff_forall_not_mem.mpr fun t there => by
    have := swept'.queue t there
    rw [empty] at this
    cases this
  refine ⟨moves.snoc (.headed fun s live differs => ?_), whole, fun _ => ⟨none, fun t pending => ?_⟩⟩
  · -- A FIFO without a dispatched head holds nothing that is being sent, hence nothing.
    have isBare : h' s = true := by simpa using differs.symm
    refine List.eq_nil_iff_forall_not_mem.mpr fun t there => ?_
    have unstarted := (sound'.placed.wq_rest s t live there (.inl isBare)).2
    exact Bool.noConfusion (unstarted.symm.trans (sent s t (socks ▸ live) there))
  · by_contra idle
    have idle : (c.tearDown.task t).started = false := by simpa using idle
    by_cases isWrite : (c.tearDown.task t).kind = .opSockWrite
    · obtain ⟨s, sock, live⟩ := sound'.placed.sock_live t pending (by
        change opOnSock (c.tearDown.task t).kind = true
        rw [isWrite]; rfl)
      have there := (sound'.placed.wq_mem s t live).mpr ⟨pending, isWrite, sock⟩
      exact Bool.noConfusion (idle.symm.trans (sent s t (socks ▸ live) there))
    · have queued := sound'.placed.waiting t pending idle isWrite
      change t ∈ c.tearDown.queue at queued
      rw [none] at queued
      cases queued

end Myio.Core
