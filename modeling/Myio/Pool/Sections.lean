import Myio.Pool.Commit

/-! Every critical section of the desktop pool is a sequence of moves. -/

namespace Myio

open Function (update)
open Core

namespace Pool

variable {o : OpKind → Result → Prop} {p p' p'' : Pool} {x : TaskId → Bool} {h : SockId → Bool}

/-! ### What the dispatching code leaves alone -/

/-- Nothing changed but the shared part, the number of threads, and the environment's clock. -/
def Quiet (p p' : Pool) : Prop :=
  p' = { p with toCore := p'.toCore, nlive := p'.nlive, tick := p'.tick }

theorem Quiet.refl (p : Pool) : Quiet p p := rfl

theorem Quiet.trans (first : Quiet p p') (second : Quiet p' p'') : Quiet p p'' := by
  unfold Quiet at *
  rw [second, first]

theorem Quiet.on (p : Pool) (f : Core → Core) : Quiet p (p.on f) := rfl

@[simp] theorem on_toCore (p : Pool) (f : Core → Core) : (p.on f).toCore = f p.toCore := rfl

@[simp] theorem on_on (p : Pool) (f g : Core → Core) : (p.on f).on g = p.on (g ∘ f) := rfl

/-- A step of the user thread is a call made between two others, or goes on inside one. -/
theorem userStep_cases {c : Call} (taken : p.userStep c = some p') :
    (p.user = .idle ∧ p.call c = some p') ∨ ∃ o, c = .resume o ∧ p.resume o = some p' := by
  cases c with
  | resume o => exact .inr ⟨o, rfl, taken⟩
  | _ =>
    simp only [userStep] at taken
    split at taken
    · rename_i idle; exact .inl ⟨idle, taken⟩
    · cases taken

/-- A worker gets on with its task: only its own phase and what it works on change. -/
structure Works (w : WorkerId) (t : TaskId) (c c' : Core) : Prop where
  rest : c' = { c with task := c'.task, sock := c'.sock, desc := c'.desc, ndesc := c'.ndesc
                       worker := c'.worker, socks := c'.socks }
  task : ∀ u, c'.task u = { c.task u with sent := (c'.task u).sent }
  here : ∃ phase, (c'.worker w).pc = .running t phase
  others : ∀ v, v ≠ w → c'.worker v = c.worker v

/-- A move of one worker that is running a task: it gets on with it, or it commits. -/
theorem runStep_cases {w : WorkerId} {t : TaskId} {phase : Phase} {act : Act}
    (pc : (p.worker w).pc = .running t phase) (taken : p.runStep w t phase act = some p') :
    (p' = { p with toCore := p'.toCore } ∧ Works w t p.toCore p'.toCore) ∨
      (∃ res newfd linked, phase = .commit res newfd ∧
        p' = p.workerCommit w t res newfd linked) ∨
      (phase = .commitClose ∧ p' = (p.on (·.setPc w .ready)).complete t (rOk 0 none)) := by
  have moved : ∀ next, Works w t p.toCore (p.setPc w (.running t next)) := fun next =>
    ⟨rfl, fun _ => rfl, ⟨next, by simp [setPc, modWorker]⟩, fun v other => by
      simp [setPc, modWorker, other]⟩
  unfold runStep at taken
  split at taken
  · cases taken
    refine .inl ?_
    unfold workerEnter
    split
    case h_2 => split <;> exact ⟨rfl, moved _⟩
    all_goals exact ⟨rfl, moved _⟩
  · split at taken
    · cases taken; exact .inl ⟨rfl, moved _⟩
    · split at taken <;> cases taken <;> exact .inl ⟨rfl, moved _⟩
  · split at taken <;> cases taken
    · refine .inl ⟨rfl, rfl, fun _ => rfl, ⟨.check, by simp [setPc, modWorker]⟩, fun v other => ?_⟩
      simp [setPc, modWorker, other]
    · exact .inl ⟨rfl, moved _⟩
  · cases taken; exact .inl ⟨rfl, moved _⟩
  · split at taken <;> cases taken
    all_goals
      refine .inl ⟨rfl, rfl, fun _ => rfl, ⟨.commit _ (some p.ndesc), by simp [setPc, modWorker]; rfl⟩, ?_⟩
      intro v other
      simp [setPc, modWorker, newDesc, other]
  · split at taken <;> cases taken
    rename_i off n _
    refine .inl ⟨rfl, rfl, fun u => ?_, ⟨.sending (off + n), by simp [sendBytes, setPc, modWorker]⟩,
      fun v other => by simp [sendBytes, setPc, modWorker, modTask, modDesc, other]⟩
    simp only [on_toCore, sendBytes, setPc, modWorker, modTask, modDesc, Function.update_apply]
    split
    · rename_i same; subst same; rfl
    · rfl
  · split at taken <;> cases taken
    exact .inl ⟨rfl, rfl, fun _ => rfl, ⟨_, pc⟩, fun _ _ => rfl⟩
  · split at taken <;> cases taken
    exact .inl ⟨rfl, moved _⟩
  · split at taken <;> cases taken
    exact .inl ⟨rfl, moved _⟩
  · cases taken; exact .inr (.inl ⟨_, _, _, rfl, rfl⟩)
  · dsimp only at taken
    split at taken <;> cases taken
    refine .inl ⟨rfl, rfl, fun _ => rfl, ⟨_, by simp [setPc, modWorker]; rfl⟩, fun v other => ?_⟩
    simp [setPc, modWorker, sockUnlink, other]
  · cases taken
    refine .inl ⟨rfl, rfl, fun _ => rfl, ⟨.commitClose, by simp [setPc, modWorker]⟩, fun v other => ?_⟩
    simp [setPc, modWorker, sockFree, modSock, closeDesc, modDesc, other]
  · cases taken; exact .inr (.inr ⟨rfl, rfl⟩)
  · cases taken

/-! ### Dispatch -/

/-- A signal touches only workers that run no task. -/
theorem wakeAll_stirred (p : Pool) {chosen : WorkerId → Bool}
    (asleep : ∀ w, chosen w = true → (p.worker w).pc = .asleep) :
    Stirred p.toCore (p.wakeAll chosen).toCore := by
  have pc : ∀ w, ((p.wakeAll chosen).worker w).pc =
      if chosen w then .woken false else (p.worker w).pc := by
    intro w; unfold wakeAll; dsimp only; split <;> rfl
  constructor
  case rest => rfl
  case grown => exact Nat.le_refl _
  case runs =>
    intro w t
    unfold Runs
    rw [pc]
    split
    · rename_i isChosen; simp [asleep w isChosen]
    · rfl
  case pcs =>
    intro w t phase
    unfold At
    rw [pc]
    split
    · rename_i isChosen; simp [asleep w isChosen]
    · rfl

/-- Whoever a signal wakes was asleep. -/
theorem asleep_of_signalled {w : WorkerId} (woken : p.signalled w = true) :
    (p.worker w).pc = .asleep := by
  unfold signalled at woken
  split at woken
  · simp only [isAsleep, Bool.and_eq_true, decide_eq_true_eq] at woken
    exact woken.1.2
  · have := List.find?_some (of_decide_eq_true woken)
    simp only [isAsleep, Bool.and_eq_true, decide_eq_true_eq] at this
    exact this.2

/-- A new worker runs no task. -/
theorem spawned_stirred (p : Pool) :
    Stirred p.toCore { p.toCore with
      nworker := p.nworker + 1, worker := update p.worker p.nworker { pc := .ready } } := by
  constructor
  case rest => rfl
  case grown => exact Nat.le_succ _
  case runs =>
    intro w t
    simp only [Runs, Function.update_apply]
    split
    · rename_i same; subst same; simp
    · rename_i other
      exact ⟨fun there => ⟨Nat.lt_of_le_of_ne (Nat.le_of_lt_succ there.1) other, there.2⟩,
        fun there => ⟨Nat.lt_succ_of_lt there.1, there.2⟩⟩
  case pcs =>
    intro w t phase
    simp only [At, Function.update_apply]
    split
    · rename_i same; subst same; simp
    · rename_i other
      exact ⟨fun there => ⟨Nat.lt_of_le_of_ne (Nat.le_of_lt_succ there.1) other, there.2⟩,
        fun there => ⟨Nat.lt_succ_of_lt there.1, there.2⟩⟩

/-- A dispatch queues the task and stirs the idle workers, or changes nothing that is shared. -/
theorem dispatchLocked_spec (p : Pool) {t : TaskId} (absent : t ∉ p.queue) :
    Quiet p (p.dispatchLocked t).1 ∧
      if (p.dispatchLocked t).2 then Stirred (p.queuePush t) (p.dispatchLocked t).1.toCore
      else (p.dispatchLocked t).1.toCore = p.toCore := by
  unfold dispatchLocked
  dsimp only
  split
  · refine ⟨rfl, ?_⟩
    rw [if_pos rfl]
    exact wakeAll_stirred (p.on (·.queuePush t)) fun w => asleep_of_signalled
  · by_cases created : (p.on (·.queuePush t)).os.create (p.on (·.queuePush t)).tick = true
    · simp only [spawnThread, created, if_true]
      exact ⟨rfl, spawned_stirred (p.on (·.queuePush t))⟩
    · simp only [spawnThread, created]
      refine ⟨rfl, ?_⟩
      change (p.queuePush t).queueRemove t = p.toCore
      simp [queueRemove, queuePush, List.erase_append_right _ absent]

/-- A worker can be secured: one of the idle ones is not spoken for, or one can be created. -/
def securable (p : Pool) : Bool := p.nqueued < p.idle || p.os.create p.tick

/-- A dispatch succeeds exactly when a worker can be secured. -/
theorem dispatchLocked_secures (p : Pool) (t : TaskId) : (p.dispatchLocked t).2 = p.securable := by
  unfold dispatchLocked securable spawnThread
  dsimp only
  by_cases enough : p.nqueued < p.idle
  · rw [if_pos (show (p.on (·.queuePush t)).nqueued ≤ (p.on (·.queuePush t)).idle from enough)]
    simp [enough]
  · rw [if_neg (show ¬ (p.on (·.queuePush t)).nqueued ≤ (p.on (·.queuePush t)).idle from enough)]
    have create : (p.on (·.queuePush t)).os.create (p.on (·.queuePush t)).tick =
        p.os.create p.tick := rfl
    rw [create]
    cases p.os.create p.tick <;> simp [enough]

/-! ### Promotion -/

/-- What promotion may touch: the FIFO's writes, the queue, and workers that run no task. -/
structure Advanced (c c' : Core) : Prop where
  rest : c' = { c with task := c'.task, sock := c'.sock, queue := c'.queue, nqueued := c'.nqueued
                       worker := c'.worker, nworker := c'.nworker }
  sock : ∀ s, c'.sock s = { c.sock s with wq := (c'.sock s).wq, inflight := (c'.sock s).inflight }

theorem Advanced.refl (c : Core) : Advanced c c := ⟨rfl, fun _ => rfl⟩

theorem Advanced.trans {c c' c'' : Core} (first : Advanced c c') (second : Advanced c' c'') :
    Advanced c c'' := by
  refine ⟨?_, fun s => ?_⟩
  · rw [second.rest, first.rest]
  · rw [second.sock s, first.sock s]

/-- The loop of `write_advance`, with a FIFO whose head is to be handed on. -/
theorem promote_spec (s : SockId) (l : List TaskId) : ∀ {p : Pool} {x : TaskId → Bool}
    {h : SockId → Bool}, Sound ⟨p.toCore, x, h⟩ → s ∈ p.socks → h s = true → (p.sock s).wq = l →
    (l ≠ [] → (p.sock s).closing = false) →
    Quiet p (promote p s l) ∧ Advanced p.toCore (promote p s l).toCore ∧
      (∀ u, u ∉ l → (promote p s l).task u = p.task u) ∧
      Moves o ⟨p.toCore, x, h⟩ ⟨(promote p s l).toCore, x, update h s false⟩ := by
  -- Each round ends the loop with a dispatched head, or fails the head and goes on with the rest.
  induction l with
  | nil =>
    intro p x h _ live bare wq _
    refine ⟨.refl _, .refl _, fun _ _ => rfl, .one (.headed fun u _ differs => ?_)⟩
    by_cases same : u = s
    · rw [same]; exact wq
    · simp [same] at differs
  | cons n rest ih =>
    intro p x h sound live bare wq usable
    have head : (p.sock s).wq.head? = some n := by rw [wq]; rfl
    have member : n ∈ (p.sock s).wq := by simp [wq]
    have absent := (sound.placed.wq_rest s n live member (.inl bare)).1
    obtain ⟨quiet, outcome⟩ := dispatchLocked_spec p absent
    unfold promote
    rcases dispatched : p.dispatchLocked n with ⟨q, secured⟩
    rw [dispatched] at quiet outcome
    cases secured with
    | true =>
      have same := (outcome : Stirred _ _).rest
      refine ⟨quiet, ⟨?_, fun u => ?_⟩, fun u _ => ?_,
        .snoc (.one (.promote live bare head)) (.stir outcome)⟩ <;> dsimp only at same ⊢ <;>
        rw [same] <;> rfl
    | false =>
      have same : q.toCore = p.toCore := outcome
      have failed : Move o ⟨p.toCore, x, h⟩ ⟨failHead p.toCore s n, x, h⟩ :=
        .fail live bare (usable (by simp)) wq
      have next := sound.move failed
      have advanced : Advanced p.toCore (q.on (failHead · s n)).toCore := by
        rw [on_toCore, same, failHead_eq]
        refine ⟨rfl, fun u => ?_⟩
        simp only [modTask, modSock, Function.update_apply]
        split
        · rename_i isS; subst isS; rfl
        · rfl
      obtain ⟨quiet', advanced', others, moves⟩ := @ih (q.on (failHead · s n)) x h
        (by rw [on_toCore, same]; exact next)
        (by rw [on_toCore, same, failHead_eq]; exact live) bare
        (by rw [on_toCore, same, failHead_eq]; simp [modTask, modSock, wq])
        (fun _ => by
          rw [on_toCore, same, failHead_eq]; simpa [modTask, modSock] using usable (by simp))
      refine ⟨(quiet.trans (.on q _)).trans quiet', advanced.trans advanced', fun u outside => ?_,
        ?_⟩
      · obtain ⟨other, below⟩ := List.ne_and_not_mem_of_not_mem_cons outside
        dsimp only
        rw [others u below, on_toCore, same, failHead_eq]
        simp [modTask, modSock, other]
      · rw [on_toCore, same] at moves
        exact (Moves.one failed).trans moves

/-- What becomes of a FIFO whose head has left. -/
def handOn (p : Pool) (s : SockId) : Pool :=
  if p.shutdown then p else promote p s (p.sock s).wq

/-- Whether a task is the head of its socket's FIFO. -/
def heads (c : Core) (t : TaskId) : Bool :=
  (c.task t).kind = .opSockWrite && (c.sock (c.sockOf t)).wq.head? = some t

/-- `write_advance` takes the task out of the FIFO, and hands on if it was the head. -/
theorem writeAdvance_eq (p : Pool) (t : TaskId) :
    p.writeAdvance t =
      if (p.sock (p.sockOf t)).wq.head? = some t
      then (p.on (·.modSock (p.sockOf t) fun k => { k with wq := k.wq.erase t })).handOn (p.sockOf t)
      else p.on (·.modSock (p.sockOf t) fun k => { k with wq := k.wq.erase t }) := by
  unfold writeAdvance
  by_cases headed : (p.sock (p.sockOf t)).wq.head? = some t
  · have popped : (p.on (·.modSock (p.sockOf t) fun k => { k with wq := (wqPop k.wq).1 })) =
        p.on (·.modSock (p.sockOf t) fun k => { k with wq := k.wq.erase t }) := by
      unfold on modSock
      simp only [wqPop, erase_head headed]
    rw [if_pos headed, ← popped]
    dsimp only
    rw [if_neg (not_not.mpr headed)]
    rfl
  · rw [if_neg headed]
    dsimp only
    rw [if_pos headed]
    rfl

/-- The part of a task's end that settles accounts with its socket. -/
def leave (p : Pool) (t : TaskId) : Pool :=
  let p := if opOnSock (p.task t).kind then p.on (·.inflightDec (p.sockOf t)) else p
  if (p.task t).kind = .opSockWrite then p.writeAdvance t else p

/-- A task leaves its socket, and what it leaves behind is handed on. -/
theorem leave_eq (p : Pool) (t : TaskId) :
    p.leave t =
      if heads p.toCore t then (p.on (·.leaveSock t)).handOn (p.sockOf t)
      else p.on (·.leaveSock t) := by
  unfold leave
  have task : (p.on (·.inflightDec (p.sockOf t))).task = p.task := rfl
  by_cases write : (p.task t).kind = .opSockWrite
  · have blocks : opOnSock (p.task t).kind = true := by rw [write]; rfl
    have wq : ((p.on (·.inflightDec (p.sockOf t))).sock (p.sockOf t)).wq =
        (p.sock (p.sockOf t)).wq := by simp [inflightDec, modSock]
    have left : (p.on (·.inflightDec (p.sockOf t))).on
        (·.modSock (p.sockOf t) fun k => { k with wq := k.wq.erase t }) = p.on (·.leaveSock t) := by
      unfold on
      simp only [leaveSock, if_pos blocks, if_pos write, inflightDec, modSock_modSock]
      rfl
    have sockOf : (p.on (·.inflightDec (p.sockOf t))).sockOf t = p.sockOf t := rfl
    simp only [if_pos blocks, task, if_pos write]
    rw [writeAdvance_eq, sockOf, wq, left]
    simp only [heads, write, decide_true, Bool.true_and, decide_eq_true_eq]
  · have notHead : heads p.toCore t = false := by simp [heads, write]
    rw [notHead]
    by_cases blocks : opOnSock (p.task t).kind = true
    · simp only [if_pos blocks, task, if_neg write]
      unfold on
      simp only [leaveSock, if_pos blocks, if_neg write, inflightDec]
      rfl
    · simp only [if_neg blocks, if_neg write]
      unfold on
      simp only [leaveSock, if_neg blocks]
      rfl

/-- A task that blocks on no socket has nothing to settle. -/
theorem leave_of_apart {t : TaskId} (apart : opOnSock (p.task t).kind = false) : p.leave t = p := by
  have write : (p.task t).kind ≠ .opSockWrite := by
    intro same
    rw [same] at apart
    cases apart
  unfold leave
  simp only [apart, Bool.false_eq_true, if_false, if_neg write]

/-- The commit settles accounts by leaving the socket, and a closing socket takes its toll. -/
theorem settleSock_eq (p : Pool) (t : TaskId) (res : Result) :
    p.settleSock t res =
      if opOnSock (p.task t).kind then
        if ((p.leave t).sock (p.sockOf t)).closing then ((p.leave t).dropWon res, rCanceled)
        else (p.leave t, res)
      else (p, res) := by
  unfold settleSock
  split
  · rename_i blocks
    have left : (if ((p.on (·.inflightDec (p.sockOf t))).task t).kind = .opSockWrite
        then (p.on (·.inflightDec (p.sockOf t))).writeAdvance t
        else p.on (·.inflightDec (p.sockOf t))) = p.leave t := by
      unfold leave
      simp only [if_pos blocks]
    simp only [left]
  · rfl

/-- `complete_unrun`: the task leaves, what it leaves behind is handed on, and it is canceled. -/
theorem completeUnrun_eq (p : Pool) (t : TaskId) :
    p.completeUnrun t =
      ((p.on (·.queueRemove t)).leave t).on (·.modTask t (settled rCanceled)) := by
  change (((p.on (·.queueRemove t)).leave t).on (·.finish t rCanceled)).on (·.reapIfDetached t) = _
  unfold on
  simp only [finish_reapIfDetached _ _ rCanceled_ptr]

/-- What is left of a FIFO that is being closed once its dispatched head has gone: nothing. -/
theorem Sound.empty_of_closing {c : Core} (sound : Sound ⟨c, x, h⟩) {s : SockId}
    (live : s ∈ c.socks) (bare : h s = true) (closing : (c.sock s).closing = true)
    (noLoose : ¬ c.CloseLoose x s) : (c.sock s).wq = [] := by
  refine List.eq_nil_iff_forall_not_mem.mpr fun t there => ?_
  have undispatched := sound.placed.wq_rest s t live there (.inl bare)
  rcases sound.closes.drained s live closing noLoose t there with queued | started
  · exact undispatched.1 queued
  · exact Bool.noConfusion (undispatched.2.symm.trans started)

/-- A task has been taken out; its end is settled with its socket. -/
theorem leave_spec {c : Core} {t : TaskId} {x' : TaskId → Bool}
    (sound : Sound ⟨(p.on (·.leaveSock t)).toCore, x', fun s => h s || c.exposes t s⟩)
    (out : x' t = true) (task : p.task = c.task) (sock : p.sock = c.sock) (socks : p.socks = c.socks)
    (onSock : opOnSock (c.task t).kind → ∃ s, (c.task t).sock = some s ∧ s ∈ c.socks)
    (clear : p.shutdown = false → ∀ s, h s = false)
    (noLoose : (c.task t).kind = .opSockWrite → ∀ s, (c.task t).sock = some s →
      (c.sock s).wq.head? = some t → ¬ (p.on (·.leaveSock t)).CloseLoose x' s) :
    Quiet p (p.leave t) ∧ Advanced (p.on (·.leaveSock t)).toCore (p.leave t).toCore ∧
      (p.leave t).task t = p.task t ∧
      Moves o ⟨(p.on (·.leaveSock t)).toCore, x', fun s => h s || c.exposes t s⟩
        ⟨(p.leave t).toCore, x', fun s => h s || (p.shutdown && c.exposes t s)⟩ := by
  have rest := leaveSock_rest p.toCore t
  rw [leave_eq]
  by_cases heads : heads p.toCore t = true
  · rw [if_pos heads]
    simp only [Pool.heads, Bool.and_eq_true, decide_eq_true_eq, task, sock] at heads
    obtain ⟨write, head⟩ := heads
    obtain ⟨s, isSock, live⟩ := onSock (by rw [write]; rfl)
    have sockOf : p.sockOf t = s := by simp [Core.sockOf, task, isSock]
    have exposed : ∀ u, c.exposes t u = decide (u = s) := by
      intro u
      have wq : (c.sock s).wq.head? = some t := by
        simpa [Core.sockOf, task, isSock] using head
      by_cases same : u = s
      · subst same; simp [exposes, write, isSock, wq]
      · simp [exposes, isSock, same, Ne.symm same]
    rw [sockOf]
    unfold handOn
    split
    · rename_i down
      have down : p.shutdown = true := by rw [on_toCore, rest] at down; exact down
      refine ⟨.on p _, .refl _, ?_, ?_⟩
      · rw [on_toCore, rest]
      · simp only [down, Bool.true_and]; exact .refl _
    · rename_i up
      have up : p.shutdown = false := by
        rw [on_toCore, rest] at up; simpa using up
      have live' : s ∈ (p.on (·.leaveSock t)).socks := by rw [on_toCore, rest, socks]; exact live
      have bare : (h s || c.exposes t s) = true := by simp [exposed]
      obtain ⟨quiet, advanced, others, moves⟩ := promote_spec (o := o) s _ sound live' bare rfl
        fun nonempty => by
          by_contra closing
          refine nonempty (Sound.empty_of_closing sound live' bare (by simpa using closing) ?_)
          exact noLoose write s isSock (by simpa [Core.sockOf, task, isSock] using head)
      refine ⟨(Quiet.on p _).trans quiet, advanced, ?_, ?_⟩
      · rw [others t fun there => ?_]
        · rw [on_toCore, rest]
        · have := ((sound.placed.wq_mem s t live').mp there).1.2.2
          simp [out] at this
      · have same : (fun u => h u || (p.shutdown && c.exposes t u)) =
            update (fun u => h u || c.exposes t u) s false := by
          funext u
          simp only [Function.update_apply, exposed, clear up, up]
          grind
        rw [same]
        exact moves
  · rw [if_neg heads]
    have hidden : ∀ s, c.exposes t s = false := by
      intro s
      by_contra exposed
      simp only [exposes, Bool.not_eq_false, Bool.and_eq_true, decide_eq_true_eq] at exposed
      refine heads ?_
      simp [Pool.heads, Core.sockOf, task, sock, exposed.1.1, exposed.1.2, exposed.2]
    refine ⟨.on p _, .refl _, ?_, ?_⟩
    · rw [on_toCore, rest]
    · simp only [hidden, Bool.and_false]; exact .refl _

/-- `complete_unrun`. -/
theorem completeUnrun_spec {t : TaskId} (sound : Sound ⟨p.toCore, x, h⟩) (pending : p.Pending x t)
    (unstarted : (p.task t).started = false) (clear : p.shutdown = false → ∀ s, h s = false)
    (noLoose : (p.task t).kind = .opSockWrite → ∀ s, (p.task t).sock = some s →
      (p.sock s).wq.head? = some t → ¬ p.CloseLoose x s) (allowed : o (p.task t).kind rCanceled) :
    Quiet p (p.completeUnrun t) ∧ Advanced p.toCore (p.completeUnrun t).toCore ∧
      (p.completeUnrun t).task t = settled rCanceled (p.task t) ∧
      Moves o ⟨p.toCore, x, h⟩ ⟨(p.completeUnrun t).toCore, x,
        fun s => h s || (p.shutdown && p.exposes t s)⟩ := by
  have shared := queueRemove_rest p.toCore t
  have exit : Move o ⟨p.toCore, x, h⟩ ⟨((p.on (·.queueRemove t)).on (·.leaveSock t)).toCore,
      update x t true, fun s => h s || p.exposes t s⟩ := .exit pending unstarted
  have stillNoLoose : (p.task t).kind = .opSockWrite → ∀ s, (p.task t).sock = some s →
      (p.sock s).wq.head? = some t →
      ¬ ((p.on (·.queueRemove t)).on (·.leaveSock t)).CloseLoose (update x t true) s := by
    rintro write s isSock head ⟨u, inside, isClose, sock, out, isOpen⟩
    rw [on_toCore, leaveSock_rest, on_toCore, shared] at inside isClose sock isOpen
    have other : u ≠ t := by rintro rfl; exact OpKind.noConfusion (write.symm.trans isClose)
    rw [Function.update_of_ne other] at out
    exact noLoose write s isSock head ⟨u, inside, isClose, sock, out, isOpen⟩
  obtain ⟨quiet, advanced, task, left⟩ := leave_spec (o := o) (p := p.on (·.queueRemove t))
    (c := p.toCore) (sound.move exit) (by simp) (by rw [on_toCore, shared])
    (by rw [on_toCore, shared]) (by rw [on_toCore, shared]) (sound.placed.sock_live t pending)
    (by rw [on_toCore, shared]; exact clear) stillNoLoose
  have task' : ((p.on (·.queueRemove t)).leave t).task t = p.task t := by
    rw [task, on_toCore, shared]
  have submitted : t < ((p.on (·.queueRemove t)).leave t).ntask := by
    rw [advanced.rest, on_toCore, leaveSock_rest, on_toCore, shared]
    exact pending.1
  have down : (p.on (·.queueRemove t)).shutdown = p.shutdown := by rw [on_toCore, shared]
  rw [down] at left
  have same : (p.task t).kind = .opSockClose →
      ((p.on (·.queueRemove t)).leave t).toCore = p.queueRemove t := fun isClose => by
    have kind : ((p.on (·.queueRemove t)).task t).kind = .opSockClose := by
      rw [on_toCore, shared]; exact isClose
    rw [leave_of_apart (by rw [kind]; rfl), on_toCore]
  have ended : Move o ⟨((p.on (·.queueRemove t)).leave t).toCore, update x t true,
      fun s => h s || (p.shutdown && p.exposes t s)⟩ ⟨_, _, _⟩ :=
    .settle (t := t) (r := rCanceled) submitted (by rw [task']; exact pending.2.1) (by simp)
      (settles_canceled sound pending task' same) (by rw [task']; exact allowed)
  rw [settle_unstarted (by rw [task']; exact unstarted), update_out pending.2.2] at ended
  have lifted : Advanced p.toCore ((p.on (·.queueRemove t)).on (·.leaveSock t)).toCore := by
    refine ⟨by rw [on_toCore, leaveSock_rest, on_toCore, shared], fun s => ?_⟩
    have sockets : (p.queueRemove t).sock = p.sock := by rw [shared]
    have left := leaveSock_sock (p.queueRemove t) t s
    rw [sockets] at left
    exact left
  rw [completeUnrun_eq]
  exact ⟨((Quiet.on p _).trans quiet).trans (.on _ _), (lifted.trans advanced).trans ⟨rfl, fun _ => rfl⟩,
    by simp [modTask, task'], ((Moves.one exit).trans left).snoc ended⟩

/-! ### Submission -/

theorem inflightDec_inflightInc (c : Core) (s : SockId) :
    (c.inflightInc s).inflightDec s = c := by
  unfold inflightDec inflightInc
  rw [modSock_modSock]
  simp [modSock]

/-- A task just made, counted on its socket if it blocks on one. -/
def enroll (c : Core) (k : Task) : Core :=
  if opOnSock k.kind then (c.taskNew k).inflightInc (k.sock.getD 0) else c.taskNew k

/-- `submit` of a task that is not a write. -/
theorem submit_eq_apart {k : Task} (apart : k.kind ≠ .opSockWrite) :
    p.submit k =
      match (p.on (enroll · k)).dispatchLocked p.ntask with
      | (q, true) => q
      | (q, false) => (if opOnSock k.kind then q.on (·.inflightDec (k.sock.getD 0)) else q).on
          (·.finish p.ntask (rErr EAGAIN)) := by
  have sockOf : (p.on (·.taskNew k)).sockOf p.ntask = k.sock.getD 0 := by
    simp [Core.sockOf, taskNew]
  unfold submit
  by_cases blocks : opOnSock k.kind = true
  · have enrolled : (p.on (·.taskNew k)).on (·.inflightInc (k.sock.getD 0)) =
        p.on (enroll · k) := by unfold on; simp only [enroll, if_pos blocks]
    have sockOf' : (p.on (enroll · k)).sockOf p.ntask = k.sock.getD 0 := by
      simp [enroll, blocks, Core.sockOf, taskNew, inflightInc, modSock]
    simp only [if_pos blocks, sockOf, enrolled, sockOf', apart, decide_false, Bool.false_and,
      Bool.false_eq_true, if_false] <;> rfl
  · have enrolled : p.on (·.taskNew k) = p.on (enroll · k) := by
      unfold on; simp only [enroll, if_neg blocks]
    simp only [if_neg blocks, enrolled, apart, decide_false, Bool.false_and, Bool.false_eq_true,
      if_false] <;> rfl

/-- `submit` of a task that is not a write. -/
theorem submit_spec_apart {k : Task} (sound : Sound p.rest) (fresh : p.Fresh k)
    (apart : k.kind ≠ .opSockWrite) (allowed : o k.kind (rErr EAGAIN)) :
    Quiet p (p.submit k) ∧ Moves o p.rest (p.submit k).rest := by
  have create : Move o p.rest ⟨p.taskNew k, update (fun _ => false) p.ntask true, fun _ => false⟩ :=
    .create fresh
  have new : (p.taskNew k).task p.ntask = k := by simp [taskNew]
  have absent : p.ntask ∉ p.queue := fun there =>
    Nat.lt_irrefl _ (sound.placed.queue_pending _ there).1.1
  have queue : (p.on (enroll · k)).queue = p.queue := by
    rw [on_toCore]; unfold enroll; split <;> rfl
  obtain ⟨quiet, outcome⟩ := dispatchLocked_spec (p.on (enroll · k)) (queue ▸ absent)
  rw [submit_eq_apart apart]
  rcases dispatched : (p.on (enroll · k)).dispatchLocked p.ntask with ⟨q, secured⟩
  rw [dispatched] at quiet outcome
  cases secured with
  | true =>
    refine ⟨(Quiet.on p _).trans quiet, ?_⟩
    have enqueue : Move o
        ⟨p.taskNew k, update (fun _ => false) p.ntask true, fun _ => false⟩
        ⟨_, _, fun _ => false⟩ :=
      .enqueue (t := p.ntask) (Nat.lt_succ_self _) (by rw [new]; exact fresh.done)
        (by rw [new]; exact fresh.started) (by simp) (by rw [new]; exact apart)
        (fun s sock => by
          rw [new] at sock ⊢
          have blocks : opOnSock k.kind = true := by
            by_contra apart'
            simp [fresh.bare (by simpa using apart')] at sock
          obtain ⟨u, live, there, _⟩ := fresh.sock blocks
          obtain rfl : s = u := Option.some.inj (sock.symm.trans there)
          exact ⟨live, fun isClose => absurd isClose fresh.kind⟩)
        (fun blocks => by
          rw [new] at blocks ⊢
          obtain ⟨u, live, there, _⟩ := fresh.sock blocks
          exact ⟨u, there, live⟩)
        (fun _ => rfl)
    rw [new, update_out rfl] at enqueue
    have sockOf : (p.taskNew k).sockOf p.ntask = k.sock.getD 0 := by simp [Core.sockOf, new]
    rw [sockOf] at enqueue
    exact ((Moves.one create).snoc enqueue).snoc (.stir outcome)
  | false =>
    have same : q.toCore = enroll p.toCore k := outcome
    have back : (if opOnSock k.kind then q.on (·.inflightDec (k.sock.getD 0)) else q).toCore =
        p.taskNew k := by
      unfold enroll at same
      split
      · rename_i blocks
        rw [if_pos blocks] at same
        rw [on_toCore, same, inflightDec_inflightInc]
      · rename_i free
        rw [if_neg free] at same
        exact same
    refine ⟨((Quiet.on p _).trans quiet).trans ?_, ?_⟩
    · by_cases blocks : opOnSock k.kind = true
      · simp only [if_pos blocks]; exact .on _ _
      · simp only [if_neg blocks]; exact .on _ _
    · have ended : Move o ⟨p.taskNew k, update (fun _ => false) p.ntask true, fun _ => false⟩
          ⟨_, _, fun _ => false⟩ :=
        .settle (t := p.ntask) (r := rErr EAGAIN) (Nat.lt_succ_self _)
          (by rw [new]; exact fresh.done) (by simp) (settles_failed fresh _)
          (by rw [new]; exact allowed)
      rw [settle_unstarted (by rw [new]; exact fresh.started), update_out rfl,
        ← finish_eq (by rw [new]; exact fresh.detached)] at ended
      unfold Core.rest
      dsimp only
      rw [on_toCore, back]
      exact (Moves.one create).snoc ended

/-- A write just made, at the end of its socket's FIFO. -/
def admitWrite (c : Core) (k : Task) (s : SockId) : Core :=
  ((c.taskNew k).inflightInc s).modSock s fun q => { q with wq := q.wq ++ [c.ntask] }

/-- `submit` of a write. -/
theorem submit_eq_write {k : Task} {s : SockId} (write : k.kind = .opSockWrite)
    (sock : k.sock = some s) :
    p.submit k =
      if (p.sock s).wq = [] then
        match (p.on (admitWrite · k s)).dispatchLocked p.ntask with
        | (q, true) => q
        | (q, false) => ((q.on (·.inflightDec s)).on
            (·.modSock s fun q => { q with wq := (wqPop q.wq).1 })).on
              (·.finish p.ntask (rErr EAGAIN))
      else p.on (admitWrite · k s) := by
  have blocks : opOnSock k.kind = true := by rw [write]; rfl
  have sockOf : (p.on (·.taskNew k)).sockOf p.ntask = s := by simp [Core.sockOf, taskNew, sock]
  have sockOf' : ((p.on (·.taskNew k)).on (·.inflightInc s)).sockOf p.ntask = s := by
    simp [Core.sockOf, taskNew, inflightInc, modSock, sock]
  have wq : (((p.on (·.taskNew k)).on (·.inflightInc s)).sock s).wq = (p.sock s).wq := by
    simp [taskNew, inflightInc, modSock]
  have enrolled : ((p.on (·.taskNew k)).on (·.inflightInc s)).on
      (·.modSock s fun q => { q with wq := (wqPush q.wq p.ntask).1 }) = p.on (admitWrite · k s) :=
    rfl
  unfold submit
  simp only [if_pos blocks, sockOf, sockOf', if_pos write, enrolled, wq]
  cases list : (p.sock s).wq with
  | nil => simp only [wqPush, List.isEmpty_nil, write]; rfl
  | cons n rest => simp only [wqPush, List.isEmpty_cons, write]; rfl

/-- `submit` of a write. -/
theorem submit_spec_write {k : Task} (sound : Sound p.rest) (fresh : p.Fresh k)
    (write : k.kind = .opSockWrite) :
    Quiet p (p.submit k) ∧ Moves o p.rest (p.submit k).rest := by
  have blocks : opOnSock k.kind = true := by rw [write]; rfl
  obtain ⟨s, live, sock, usable, _⟩ := fresh.sock blocks
  have create : Move o p.rest ⟨p.taskNew k, update (fun _ => false) p.ntask true, fun _ => false⟩ :=
    .create fresh
  have new : (p.taskNew k).task p.ntask = k := by simp [taskNew]
  have park : Move o ⟨p.taskNew k, update (fun _ => false) p.ntask true, fun _ => false⟩
      ⟨admitWrite p.toCore k s, _, _⟩ :=
    .park (t := p.ntask) (s := s) rfl (by rw [new]; exact fresh.done)
      (by rw [new]; exact fresh.started) (by simp) (by rw [new]; exact write)
      (by rw [new]; exact sock) live usable
  rw [update_out rfl] at park
  have parked := (Moves.one create).snoc park
  rw [submit_eq_write write sock]
  by_cases empty : (p.sock s).wq = []
  · rw [if_pos empty]
    have wq : ((admitWrite p.toCore k s).sock s).wq = [p.ntask] := by
      simp [admitWrite, modSock, inflightInc, taskNew, empty]
    have live' : s ∈ (admitWrite p.toCore k s).socks := live
    have absent : p.ntask ∉ (p.on (admitWrite · k s)).queue := fun there =>
      Nat.lt_irrefl _ (sound.placed.queue_pending _ there).1.1
    have bare : (false || (decide (s = s) && ((p.taskNew k).sock s).wq.isEmpty)) = true := by
      simp [taskNew, empty]
    obtain ⟨quiet, outcome⟩ := dispatchLocked_spec (p.on (admitWrite · k s)) absent
    rcases dispatched : (p.on (admitWrite · k s)).dispatchLocked p.ntask with ⟨q, secured⟩
    rw [dispatched] at quiet outcome
    have clear : update (fun u => false || (decide (u = s) && ((p.taskNew k).sock s).wq.isEmpty)) s
        false = fun _ => false := by
      funext u; simp only [Function.update_apply]; grind
    cases secured with
    | true =>
      refine ⟨(Quiet.on p _).trans quiet, ?_⟩
      have promote := parked.snoc (.promote live' bare (by rw [wq]; rfl))
      rw [clear] at promote
      exact promote.snoc (.stir outcome)
    | false =>
      have same : q.toCore = admitWrite p.toCore k s := outcome
      refine ⟨(((Quiet.on p _).trans quiet).trans (.on _ _)).trans ((Quiet.on _ _).trans (.on _ _)),
        ?_⟩
      have failed := parked.snoc (.fail live' bare (by
        simpa [admitWrite, modSock, inflightInc, taskNew] using usable) wq)
      have emptied := failed.snoc (.headed (g := fun _ => false) fun u _ differs => by
        have isS : u = s := by
          by_contra other
          simp [other] at differs
        rw [failHead_eq, isS]
        simp [modTask, modSock, wq])
      have task : ((admitWrite p.toCore k s).task p.ntask).detached = false := by
        simpa [admitWrite, modSock, inflightInc, taskNew] using fresh.detached
      have core : (((q.on (·.inflightDec s)).on
          (·.modSock s fun q => { q with wq := (wqPop q.wq).1 })).on
            (·.finish p.ntask (rErr EAGAIN))).toCore = failHead (admitWrite p.toCore k s) s p.ntask := by
        rw [failHead_eq]
        simp only [on_toCore, same]
        rw [inflightDec, modSock_modSock]
        exact finish_eq (c := (admitWrite p.toCore k s).modSock s _) task _
      unfold Core.rest at emptied ⊢
      dsimp only
      rw [core]
      exact emptied
  · rw [if_neg empty]
    refine ⟨.on p _, ?_⟩
    have clear : (fun u => false || (decide (u = s) && ((p.taskNew k).sock s).wq.isEmpty)) =
        fun _ => false := by
      funext u
      have : ((p.taskNew k).sock s).wq.isEmpty = false := by
        simpa [taskNew] using empty
      simp [this]
    rw [clear] at parked
    exact parked

/-- `submit`. -/
theorem submit_spec {k : Task} (sound : Sound p.rest) (fresh : p.Fresh k)
    (allowed : o k.kind (rErr EAGAIN)) :
    Quiet p (p.submit k) ∧ Moves o p.rest (p.submit k).rest := by
  by_cases write : k.kind = .opSockWrite
  · exact submit_spec_write sound fresh write
  · exact submit_spec_apart sound fresh write allowed

/-! ### Closing a socket -/

/-- The loop of `impl_sock_close` cancels every write behind the head. -/
theorem cancelParked_spec (s : SockId) (n : Nat) : ∀ {p : Pool} {x : TaskId → Bool},
    Sound ⟨p.toCore, x, fun _ => false⟩ → s ∈ p.socks → (p.sock s).wq.length ≤ n + 1 →
    o .opSockWrite rCanceled →
    cancelParked n p s = { p with toCore := (cancelParked n p s).toCore } ∧
      (cancelParked n p s).nqueued = p.nqueued ∧
      Advanced p.toCore (cancelParked n p s).toCore ∧
      (∀ u, x u = true → (cancelParked n p s).task u = p.task u) ∧
      ((cancelParked n p s).sock s).wq.length ≤ 1 ∧
      Moves o ⟨p.toCore, x, fun _ => false⟩ ⟨(cancelParked n p s).toCore, x, fun _ => false⟩ := by
  induction n with
  | zero =>
    intro p x _ _ short _; exact ⟨rfl, rfl, .refl _, fun _ _ => rfl, short, .refl _⟩
  | succ n ih =>
    intro p x sound live short allowed
    unfold cancelParked
    split
    · rename_i first t rest wq
      have member : t ∈ (p.sock s).wq := by simp [wq]
      obtain ⟨pending, write, sock⟩ : p.Pending x t ∧ (p.task t).kind = .opSockWrite ∧
          (p.task t).sock = some s := (sound.placed.wq_mem s t live).mp member
      have sorted := sound.placed.wq_sorted s live
      -- The write behind the head is parked, so that nothing is handed on when it goes.
      have notHead : (p.sock s).wq.head? ≠ some t := by
        dsimp only at sorted
        rw [wq] at sorted ⊢
        have less := (List.pairwise_cons.mp sorted).1 t (by simp)
        simpa using Nat.ne_of_lt less
      have unstarted := (sound.placed.wq_rest s t live member (.inr notHead)).2
      have elsewhere : ∀ u, (p.task t).sock = some u → (p.sock u).wq.head? ≠ some t := by
        intro u there
        obtain rfl : s = u := Option.some.inj (sock.symm.trans there)
        exact notHead
      have hidden : ∀ u, p.exposes t u = false := by
        intro u
        by_contra exposed
        simp only [exposes, Bool.not_eq_false, Bool.and_eq_true, decide_eq_true_eq] at exposed
        exact elsewhere u exposed.1.2 exposed.2
      have absent := (sound.placed.wq_rest s t live member (.inr notHead)).1
      have core : p.completeUnrun t = { p with
          toCore := ((p.queueRemove t).leaveSock t).modTask t (settled rCanceled) } := by
        have shared := queueRemove_rest p.toCore t
        have parked : heads (p.on (·.queueRemove t)).toCore t = false := by
          rw [on_toCore, shared]
          unfold heads Core.sockOf
          simp [sock, notHead]
        rw [completeUnrun_eq, leave_eq, parked]
        rfl
      have nqueued : (p.completeUnrun t).nqueued = p.nqueued := by
        rw [core]
        change ((p.queueRemove t).leaveSock t).nqueued = p.nqueued
        rw [leaveSock_rest]
        change (p.queueRemove t).nqueued = p.nqueued
        unfold Core.queueRemove
        rw [if_neg absent]
      obtain ⟨_, advanced, _, moves⟩ := completeUnrun_spec (o := o) sound pending unstarted
        (fun _ _ => rfl) (fun _ u there head => absurd head (elsewhere u there)) (by
          rw [write]; exact allowed)
      simp only [hidden, Bool.and_false, Bool.or_false] at moves
      obtain ⟨same, nqueued', advanced', others, short', moves'⟩ := @ih (p.completeUnrun t) x (sound.moves moves)
        (by rw [core, show (((p.queueRemove t).leaveSock t).modTask t (settled rCanceled)).socks =
              ((p.queueRemove t).leaveSock t).socks from rfl, leaveSock_rest, queueRemove_rest]
            exact live)
        (by rw [core, show (((p.queueRemove t).leaveSock t).modTask t (settled rCanceled)).sock =
              ((p.queueRemove t).leaveSock t).sock from rfl, sound.placed.exit_wq t live,
              List.length_erase_of_mem member]
            exact Nat.sub_le_of_le_add short) allowed
      refine ⟨?_, nqueued'.trans nqueued, advanced.trans advanced', fun u out => ?_, short',
        moves.trans moves'⟩
      · rw [same, core]
      have other : u ≠ t := by rintro rfl; exact Bool.noConfusion (pending.2.2.symm.trans out)
      rw [others u out, core]
      simp only [modTask, Function.update_of_ne other]
      rw [leaveSock_rest, queueRemove_rest]
    · rename_i other
      refine ⟨rfl, rfl, .refl _, fun _ _ => rfl, ?_, .refl _⟩
      rcases list : (p.sock s).wq with _ | ⟨a, _ | ⟨b, l⟩⟩
      · simp
      · simp
      · exact absurd list (other a b l)

/-- The task of `impl_sock_close` is made, and its socket is marked. -/
def closeMade (p : Pool) (s : SockId) : Pool :=
  (p.on (·.taskNew { kind := .opSockClose, sock := some s })).on
    (·.modSock s ({ · with closing := true }))

theorem closeMade_task (p : Pool) (s : SockId) :
    (p.closeMade s).task p.ntask = { kind := .opSockClose, sock := some s } := by
  simp [closeMade, taskNew, modSock]

/-- The moment in `impl_sock_close` when the socket is marked and the new task goes nowhere yet. -/
def closeCut (p : Pool) (s : SockId) : Cut :=
  ⟨(p.closeMade s).toCore, update (fun _ => false) p.ntask true, fun _ => false⟩

/-- `impl_sock_close` up to the mark. -/
theorem closeCut_move {s : SockId} (live : s ∈ p.socks) (usable : (p.sock s).closing = false)
    (mine : p.claimed s = true) : Move o p.rest (p.closeCut s) :=
  .createClose live usable mine

/-- `impl_sock_close` of a socket no operation blocks on. -/
theorem closeInline_spec {s : SockId} (made : Sound (p.closeCut s)) (live : s ∈ p.socks)
    (calm : (p.sock s).inflight = 0) (closed : o .opSockClose (rOk 0 none)) :
    Moves o (p.closeCut s)
      (((p.closeMade s).on (·.sockDiscard s)).on (·.finish p.ntask (rOk 0 none))).rest := by
  have now := closeNow (o := o) made (Nat.lt_succ_self _) (closeMade_task p s) (by simp) live
    (by simp [closeMade, modSock]) (by simpa [closeMade, taskNew, modSock] using calm) closed
  rw [update_out rfl] at now
  exact now

/-- `impl_sock_close` of a socket that operations block on. -/
theorem closeBusy_spec {s : SockId} (made : Sound (p.closeCut s)) (live : s ∈ p.socks)
    (canceled : o .opSockWrite rCanceled)
    (failed : p.securable = false → o .opSockClose (rErr EAGAIN)) {q : Pool}
    (stripped : q = cancelParked ((p.closeMade s).sock s).wq.length (p.closeMade s) s) {r : Pool}
    (result : r = match q.dispatchLocked p.ntask with
      | (q, true) => q
      | (q, false) => q.on (·.finish p.ntask (rErr EAGAIN))) :
    Quiet p r ∧ Moves o (p.closeCut s) r.rest := by
  obtain ⟨same, nqueued, advanced, others, short, moves⟩ := cancelParked_spec (o := o) s
    ((p.closeMade s).sock s).wq.length made live (Nat.le_succ _) canceled
  rw [← stripped] at same nqueued advanced others short moves
  have sound' := made.moves moves
  have task : q.task p.ntask = { kind := .opSockClose, sock := some s } := by
    rw [others p.ntask (by simp), closeMade_task]
  have bound : p.ntask < q.ntask := by rw [advanced.rest]; exact Nat.lt_succ_self _
  have live' : s ∈ q.socks := by rw [advanced.rest]; exact live
  have drained : q.Drained s := drained_of_short sound' live' rfl short
  have absent : p.ntask ∉ q.queue := fun there => by
    have inside := (sound'.placed.queue_pending _ there).1.2.2
    simp at inside
  have stripped : Quiet p q := by rw [same]; rfl
  have securable : q.securable = p.securable := by
    unfold Pool.securable
    rw [nqueued, same]
    rfl
  obtain ⟨quiet', outcome⟩ := dispatchLocked_spec q absent
  rw [result]
  rcases dispatched : q.dispatchLocked p.ntask with ⟨r, secured⟩
  rw [dispatched] at quiet' outcome
  cases secured with
  | true =>
    refine ⟨stripped.trans quiet', ?_⟩
    have queued : Move o ⟨q.toCore, update (fun _ => false) p.ntask true, fun _ => false⟩ ⟨_, _, _⟩ :=
      closeLater bound task (by simp) live' drained
    rw [update_out rfl] at queued
    exact (moves.snoc queued).snoc (.stir outcome)
  | false =>
    have same : r.toCore = q.toCore := outcome
    have stuck : p.securable = false := by
      rw [← securable, ← dispatchLocked_secures q p.ntask, dispatched]
    refine ⟨(stripped.trans quiet').trans (.on _ _), ?_⟩
    have settles : q.Settles p.ntask (rErr EAGAIN) := by
      refine ⟨by simp, by simp, fun _ u sock => ?_, by simp [task, opOnSock], by simp⟩
      obtain rfl : s = u := by simpa [task] using sock
      exact ⟨fun _ => drained, by simp⟩
    have ended : Move o ⟨q.toCore, update (fun _ => false) p.ntask true, fun _ => false⟩
        ⟨_, _, _⟩ :=
      .settle (t := p.ntask) (r := rErr EAGAIN) bound (by rw [task]) (by simp) settles
        (by rw [task]; exact failed stuck)
    rw [settle_unstarted (by rw [task]), update_out rfl, ← finish_eq (by rw [task])] at ended
    unfold Core.rest
    dsimp only
    rw [on_toCore, same]
    exact moves.snoc ended

/-- `impl_sock_close`, after its task is made. -/
theorem implSockClose_eq (p : Pool) (s : SockId) :
    p.implSockClose s =
      if (p.sock s).inflight = 0 then
        ((p.closeMade s).on (·.sockDiscard s)).on (·.finish p.ntask (rOk 0 none))
      else
        match (cancelParked ((p.closeMade s).sock s).wq.length (p.closeMade s) s).dispatchLocked
          p.ntask with
        | (q, true) => q
        | (q, false) => q.on (·.finish p.ntask (rErr EAGAIN)) := by
  have inflight : ((p.closeMade s).sock s).inflight = (p.sock s).inflight := by
    simp [closeMade, taskNew, modSock]
  rw [← inflight]
  rfl

/-- `impl_sock_close`, from the mark on. -/
theorem implSockClose_spec {s : SockId} (made : Sound (p.closeCut s)) (live : s ∈ p.socks)
    (canceled : o .opSockWrite rCanceled) (closed : o .opSockClose (rOk 0 none))
    (failed : (p.sock s).inflight ≠ 0 → p.securable = false → o .opSockClose (rErr EAGAIN)) :
    Quiet p (p.implSockClose s) ∧ Moves o (p.closeCut s) (p.implSockClose s).rest := by
  rw [implSockClose_eq]
  split
  · rename_i calm
    exact ⟨rfl, closeInline_spec made live calm closed⟩
  · rename_i busy
    exact closeBusy_spec made live canceled (failed busy) rfl rfl

end Pool

end Myio
