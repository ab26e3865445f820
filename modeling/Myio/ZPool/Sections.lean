import Myio.ZPool.Shadow

/-! The critical sections of the Zephyr pool, and that each of them is made of moves. -/

namespace Myio

open Function (update)
open Core

namespace ZPool

variable {o : OpKind → Result → Prop} {z z' : ZPool} {x : TaskId → Bool} {h : SockId → Bool}
  {t : TaskId} {s : SockId} {w : WorkerId}

/-! ### Leaving and ending -/

/-- A signal moves a worker that runs no task, and nothing else. -/
theorem condSignal_rest (z : ZPool) :
    z.condSignal = { z with worker := z.condSignal.worker, tick := z.tick + 1 } := by
  unfold condSignal
  split <;> rfl

theorem condSignal_stirred (z : ZPool) : Stirred z.toCore z.condSignal.toCore := by
  unfold condSignal
  split
  · rename_i v chosen
    have asleep := asleep_of_signalled chosen
    simp only [isAsleep, Bool.and_eq_true, decide_eq_true_eq] at asleep
    exact Pool.setPc_stirred (by rw [asleep.2]; rfl) rfl
  · exact ⟨rfl, Nat.le_refl _, fun _ _ => .rfl, fun _ _ _ => .rfl⟩

/-- What handing on changes: the FIFO, and the queue with the worker woken for it. -/
theorem writeAdvance_rest (z : ZPool) (t : TaskId) :
    z.writeAdvance t = { z with
      sock := (z.writeAdvance t).sock, queue := (z.writeAdvance t).queue
      nqueued := (z.writeAdvance t).nqueued, worker := (z.writeAdvance t).worker
      tick := (z.writeAdvance t).tick } := by
  unfold writeAdvance
  dsimp only
  split
  · rfl
  · split
    · rfl
    · split
      · rfl
      · unfold enqueue
        rw [condSignal_rest]
        rfl

/-- Leaving a socket is clearing its slot, counting down, and handing on. -/
theorem leave_cases (z : ZPool) (t : TaskId) :
    ∃ y : ZPool, (y = z ∨ opOnSock (z.task t).kind = true ∧
      y = (z.on (·.inflightDec (z.sockOf t))).sockSlotsClear t) ∧
      (opOnSock (z.task t).kind = true → y = (z.on (·.inflightDec (z.sockOf t))).sockSlotsClear t) ∧
      (z.leave t = y ∨ z.leave t = y.writeAdvance t) := by
  refine ⟨if opOnSock (z.task t).kind then (z.on (·.inflightDec (z.sockOf t))).sockSlotsClear t
    else z, ?_, fun blocks => by rw [if_pos blocks], ?_⟩
  · split
    · rename_i blocks; exact .inr ⟨blocks, rfl⟩
    · exact .inl rfl
  · unfold leave
    dsimp only
    generalize (if opOnSock (z.task t).kind then (z.on (·.inflightDec (z.sockOf t))).sockSlotsClear t
      else z) = y
    split
    · exact .inr rfl
    · exact .inl rfl

/-- A task that leaves its socket changes its counts, slots and FIFO, and may queue the next. -/
theorem leave_rest (z : ZPool) (t : TaskId) :
    z.leave t = { z with
      sock := (z.leave t).sock, queue := (z.leave t).queue, nqueued := (z.leave t).nqueued
      worker := (z.leave t).worker, tick := (z.leave t).tick
      readTask := (z.leave t).readTask, acceptTask := (z.leave t).acceptTask } := by
  obtain ⟨y, counted, _, left⟩ := leave_cases z t
  have rest : y = { z with sock := y.sock, readTask := y.readTask, acceptTask := y.acceptTask } := by
    rcases counted with rfl | ⟨_, rfl⟩
    · rfl
    · rw [sockSlotsClear_rest]; rfl
  rcases left with left | left
  · rw [left, rest]
  · rw [left, writeAdvance_rest, rest]

/-- The two slots of a socket. -/
def slot (z : ZPool) (k : OpKind) (s : SockId) : Option TaskId :=
  if k = .opSockRead then z.readTask s else if k = .opAccept then z.acceptTask s else none

/-- Clearing a task's slots leaves the other tasks in theirs. -/
theorem slot_sockSlotsClear {k : OpKind} {u : TaskId}
    (there : (z.sockSlotsClear t).slot k s = some u) :
    z.slot k s = some u ∧ ¬ (u = t ∧ (z.task t).kind = k ∧ s = z.sockOf t) := by
  unfold slot sockSlotsClear at there
  unfold slot
  dsimp only at there
  split at there
  · rename_i isRead
    subst isRead
    rw [if_pos rfl]
    split at there <;> split at there <;> simp_all [Function.update_apply]
    all_goals grind
  · rename_i notRead
    rw [if_neg notRead]
    split at there
    · rename_i isAccept
      subst isAccept
      rw [if_pos rfl]
      split at there <;> split at there <;> simp_all [Function.update_apply]
      all_goals grind
    · cases there

/-- A task that leaves its socket leaves the other tasks in their slots. -/
theorem slot_leave {k : OpKind} {u : TaskId} (there : (z.leave t).slot k s = some u) :
    z.slot k s = some u ∧
      (opOnSock (z.task t).kind = true → ¬ (u = t ∧ (z.task t).kind = k ∧ s = z.sockOf t)) := by
  obtain ⟨y, counted, blocked, left⟩ := leave_cases z t
  have before : y.slot k s = some u := by
    rcases left with left | left
    · rw [left] at there; exact there
    · rw [left, writeAdvance_rest] at there; exact there
  refine ⟨?_, fun blocks => ?_⟩
  · rcases counted with rfl | ⟨_, rfl⟩
    · exact before
    · exact (slot_sockSlotsClear before).1
  · rw [blocked blocks] at before
    exact (slot_sockSlotsClear before).2

/-- `complete_unrun` ends one task, which leaves its slot. -/
theorem completeUnrun_slot {k : OpKind} {u : TaskId}
    (there : (z.completeUnrun t rCanceled).slot k s = some u) :
    z.slot k s = some u ∧
      (opOnSock (z.task t).kind = true → ¬ (u = t ∧ (z.task t).kind = k ∧ s = z.sockOf t)) := by
  have left : ((z.on (·.queueRemove t)).leave t).slot k s = some u := there
  obtain ⟨before, cleared⟩ := slot_leave left
  rw [Core.sockOf, on_toCore, queueRemove_rest] at cleared
  exact ⟨before, cleared⟩

theorem completeUnrun_others {u : TaskId} (other : u ≠ t) :
    (z.completeUnrun t rCanceled).task u = z.task u := by
  rw [completeUnrun_eq]
  change ((((z.on (·.queueRemove t)).leave t).finish t rCanceled).reapIfDetached t).task u = _
  rw [finish_reapIfDetached _ _ rCanceled_ptr]
  simp only [modTask, Function.update_of_ne other]
  rw [leave_rest, on_toCore, queueRemove_rest]

/-- `complete_unrun`. -/
theorem completeUnrun_spec (sound : Sound ⟨z.toCore, x, h⟩) (pending : z.Pending x t)
    (unstarted : (z.task t).started = false) (clear : z.shutdown = false → ∀ s, h s = false)
    (noLoose : (z.task t).kind = .opSockWrite → ∀ s, (z.task t).sock = some s →
      (z.sock s).wq.head? = some t → ¬ z.CloseLoose x s) (allowed : o (z.task t).kind rCanceled) :
    Pool.Advanced z.toCore (z.completeUnrun t rCanceled).toCore ∧
      (z.completeUnrun t rCanceled).task t = settled rCanceled (z.task t) ∧
      Moves o ⟨z.toCore, x, h⟩ ⟨(z.completeUnrun t rCanceled).toCore, x,
        fun s => h s || (z.shutdown && z.exposes t s)⟩ := by
  have code := (shadow_desktop z).completeUnrun t
  obtain ⟨_, advanced, task, moves⟩ := Pool.completeUnrun_spec (o := o)
    (p := z.desktop z.signalled) sound pending unstarted clear noLoose allowed
  rw [code] at advanced task moves
  exact ⟨advanced, task, moves⟩

/-- `complete_unrun` between two critical sections. -/
theorem completeUnrun_rest (sound : Sound z.rest) (up : z.shutdown = false) (submitted : t < z.ntask)
    (isOpen : (z.task t).done = false) (unstarted : (z.task t).started = false)
    (allowed : o (z.task t).kind rCanceled) :
    Pool.Advanced z.toCore (z.completeUnrun t rCanceled).toCore ∧
      (z.completeUnrun t rCanceled).task t = settled rCanceled (z.task t) ∧
      Moves o z.rest (z.completeUnrun t rCanceled).rest := by
  have code := (shadow_desktop z).completeUnrun t
  obtain ⟨_, advanced, task, moves⟩ := Pool.completeUnrun_rest (o := o)
    (p := z.desktop z.signalled) sound up submitted isOpen unstarted allowed
  unfold Core.rest at moves ⊢
  rw [code] at advanced task moves
  exact ⟨advanced, task, moves⟩

/-! ### Submission -/

/-- `submit`. -/
theorem submit_spec {k : Task} (sound : Sound z.rest) (fresh : z.Fresh k)
    (allowed : o k.kind (rErr EAGAIN)) : Moves o z.rest (z.submit k).rest := by
  have code := (shadow_desktop z).submit k
  have moves := (Pool.submit_spec (o := o) (p := z.desktop z.signalled) sound fresh allowed).2
  unfold Core.rest at moves ⊢
  rw [code] at moves
  exact moves

/-- A submission that fails on the spot. -/
theorem taskNewFailed_spec {k : OpKind} (apart : opOnSock k = false) (notClose : k ≠ .opSockClose)
    (err : Int) (allowed : o k (rErr err)) : Moves o z.rest (z.taskNewFailed k err).rest := by
  have fresh : z.Fresh { kind := k } := Pool.fresh_apart z.toCore apart notClose
  have create : Move o z.rest ⟨z.taskNew { kind := k }, update (fun _ => false) z.ntask true,
      fun _ => false⟩ := .create fresh
  have new : (z.taskNew { kind := k }).task z.ntask = { kind := k } := by simp [taskNew]
  have ended : Move o ⟨z.taskNew { kind := k }, update (fun _ => false) z.ntask true,
      fun _ => false⟩ ⟨_, _, _⟩ :=
    .settle (t := z.ntask) (r := rErr err) (Nat.lt_succ_self _) (by rw [new]) (by simp)
      (settles_failed fresh err) (by rw [new]; exact allowed)
  rw [settle_unstarted (by rw [new]), update_out rfl, ← finish_eq (by rw [new])] at ended
  exact (Moves.one create).snoc ended

/-! ### Closing -/

/-- A kick is noted on the task and counted by its worker. -/
theorem kick_moves (c : Core) (t : TaskId) (x : TaskId → Bool) (h : SockId → Bool) :
    Moves o ⟨c, x, h⟩ ⟨kick c t, x, h⟩ := by
  unfold kick
  dsimp only
  split
  · rename_i w _
    exact .snoc (.one .flag) (.kicks (n := (c.worker w).kicks + 1))
  · exact .one .flag

/-- A kick changes one flag of one task, and the count of one worker. -/
theorem kick_rest (c : Core) (t : TaskId) :
    kick c t = { c.modTask t ({ · with cancelReq := true }) with worker := (kick c t).worker } := by
  unfold kick
  dsimp only
  split <;> rfl

theorem kick_pc (c : Core) (t : TaskId) (w : WorkerId) :
    ((kick c t).worker w).pc = (c.worker w).pc := by
  unfold kick
  dsimp only
  split
  · simp only [modWorker, modTask, Function.update_apply]
    split
    · rename_i same; subst same; rfl
    · rfl
  · rfl

/-- Whom a slot names: a pending task of the slot's kind, on the slot's socket. -/
structure InSlot (c : Core) (k : OpKind) (s : SockId) (t : TaskId) : Prop where
  inside : t < c.ntask
  isOpen : (c.task t).done = false
  kind : (c.task t).kind = k
  sock : (c.task t).sock = some s

/-- What the loops of `impl_sock_close` leave as it was. -/
structure Spares (z z' : ZPool) (x : TaskId → Bool) : Prop where
  ntask : z'.ntask = z.ntask
  socks : z'.socks = z.socks
  closing : ∀ s, (z'.sock s).closing = (z.sock s).closing
  task : ∀ u, x u = true → z'.task u = z.task u
  slot : ∀ k s u, z'.slot k s = some u → z.slot k s = some u

theorem Spares.refl (z : ZPool) (x : TaskId → Bool) : Spares z z x :=
  ⟨rfl, rfl, fun _ => rfl, fun _ _ => rfl, fun _ _ _ => id⟩

theorem Spares.trans {z'' : ZPool} (first : Spares z z' x) (second : Spares z' z'' x) :
    Spares z z'' x :=
  ⟨second.ntask.trans first.ntask, second.socks.trans first.socks,
    fun s => (second.closing s).trans (first.closing s),
    fun u out => (second.task u out).trans (first.task u out),
    fun k s u there => first.slot k s u (second.slot k s u there)⟩

/-- Ending one pending task spares those on their way in or out. -/
theorem Spares.completeUnrun (advanced : Pool.Advanced z.toCore (z.completeUnrun t rCanceled).toCore)
    (pending : z.Pending x t) : Spares z (z.completeUnrun t rCanceled) x where
  ntask := by rw [advanced.rest]
  socks := by rw [advanced.rest]
  closing s := by rw [advanced.sock]
  task u out := completeUnrun_others (by
    rintro rfl
    exact Bool.noConfusion (pending.2.2.symm.trans out))
  slot _ _ _ there := (completeUnrun_slot there).1

/-- The task in a slot is canceled outright, or flagged and kicked. -/
theorem stopSlot_spec {k : OpKind} (named : Option TaskId)
    (sound : Sound ⟨z.toCore, x, fun _ => false⟩) (unwritten : k ≠ .opSockWrite)
    (names : ∀ c, named = some c → InSlot z.toCore k s c ∧ x c = false) (allowed : o k rCanceled) :
    Spares z (z.stopSlot named) x ∧ (∀ u, named ≠ some u → (z.stopSlot named).task u = z.task u) ∧
      Moves o ⟨z.toCore, x, fun _ => false⟩ ⟨(z.stopSlot named).toCore, x, fun _ => false⟩ := by
  cases named with
  | none => exact ⟨.refl z x, fun _ _ => rfl, .refl _⟩
  | some c =>
    obtain ⟨⟨inside, isOpen, kind, _⟩, stays⟩ := names c rfl
    have pending : z.Pending x c := ⟨inside, isOpen, stays⟩
    unfold stopSlot
    dsimp only
    split
    · rename_i unstarted
      obtain ⟨advanced, _, moves⟩ := completeUnrun_spec (o := o) sound pending unstarted
        (fun _ _ => rfl) (fun write => absurd (kind.symm.trans write) unwritten)
        (by rw [kind]; exact allowed)
      have hidden : ∀ u, z.exposes c u = false := fun u => by simp [exposes, kind, unwritten]
      simp only [hidden, Bool.and_false, Bool.or_false] at moves
      exact ⟨.completeUnrun advanced pending, fun u other => completeUnrun_others fun same =>
        other (by rw [same]), moves⟩
    · have others : ∀ u, u ≠ c → (kick z.toCore c).task u = z.task u := fun u other => by
        rw [kick_rest]; simp [modTask, other]
      refine ⟨⟨?_, ?_, fun s => ?_, fun u out => others u ?_, fun _ _ _ => id⟩,
        fun u other => others u fun same => other (by rw [same]), kick_moves z.toCore c x _⟩
      · rw [on_toCore, kick_rest]; rfl
      · rw [on_toCore, kick_rest]; rfl
      · rw [on_toCore, kick_rest]; rfl
      · rintro rfl; exact Bool.noConfusion (stays.symm.trans out)

/-- The loop of `impl_sock_close` cancels every write behind the head. -/
theorem cancelParked_spec (s : SockId) (n : Nat) : ∀ {z : ZPool} {x : TaskId → Bool},
    Sound ⟨z.toCore, x, fun _ => false⟩ → s ∈ z.socks → (z.sock s).wq.length ≤ n + 1 →
    o .opSockWrite rCanceled →
    Spares z (cancelParked n z s) x ∧ ((cancelParked n z s).sock s).wq.length ≤ 1 ∧
      Moves o ⟨z.toCore, x, fun _ => false⟩ ⟨(cancelParked n z s).toCore, x, fun _ => false⟩ := by
  induction n with
  | zero => intro z x _ _ short _; exact ⟨.refl z x, short, .refl _⟩
  | succ n ih =>
    intro z x sound live short allowed
    unfold cancelParked
    split
    · rename_i first t rest wq
      have member : t ∈ (z.sock s).wq := by simp [wq]
      obtain ⟨pending, write, sock⟩ : z.Pending x t ∧ (z.task t).kind = .opSockWrite ∧
          (z.task t).sock = some s := (sound.placed.wq_mem s t live).mp member
      have sorted : (z.sock s).wq.Pairwise (· < ·) := sound.placed.wq_sorted s live
      -- The write behind the head is parked, so that nothing is handed on when it goes.
      have notHead : (z.sock s).wq.head? ≠ some t := by
        rw [wq] at sorted ⊢
        have less := (List.pairwise_cons.mp sorted).1 t (by simp)
        simpa using Nat.ne_of_lt less
      have elsewhere : ∀ u, (z.task t).sock = some u → (z.sock u).wq.head? ≠ some t := by
        intro u there
        obtain rfl : s = u := Option.some.inj (sock.symm.trans there)
        exact notHead
      have hidden : ∀ u, z.exposes t u = false := by
        intro u
        by_contra exposed
        simp only [exposes, Bool.not_eq_false, Bool.and_eq_true, decide_eq_true_eq] at exposed
        exact elsewhere u exposed.1.2 exposed.2
      have unstarted := (sound.placed.wq_rest s t live member (.inr notHead)).2
      obtain ⟨advanced, task, moves⟩ := completeUnrun_spec (o := o) sound pending unstarted
        (fun _ _ => rfl) (fun _ u there head => absurd head (elsewhere u there))
        (by rw [write]; exact allowed)
      simp only [hidden, Bool.and_false, Bool.or_false] at moves
      have spares : Spares z (z.completeUnrun t rCanceled) x := .completeUnrun advanced pending
      have live' : s ∈ (z.completeUnrun t rCanceled).socks := by rw [spares.socks]; exact live
      have fewer : ((z.completeUnrun t rCanceled).sock s).wq.length ≤ n + 1 := by
        -- The FIFO has lost the task, and nothing has joined it.
        have sound' := sound.moves moves
        have gone : t ∉ ((z.completeUnrun t rCanceled).sock s).wq := fun there => by
          have isOpen := ((sound'.placed.wq_mem s t live').mp there).1.2.1
          dsimp only at isOpen
          rw [task] at isOpen
          cases isOpen
        have within : ∀ u, u ∈ ((z.completeUnrun t rCanceled).sock s).wq → u ∈ (z.sock s).wq := by
          intro u there
          obtain ⟨⟨inside, isOpen, stays⟩, isWrite, isSock⟩ := (sound'.placed.wq_mem s u live').mp there
          have other : u ≠ t := by rintro rfl; exact gone there
          dsimp only at inside isOpen isWrite isSock
          rw [completeUnrun_others other] at isOpen isWrite isSock
          exact (sound.placed.wq_mem s u live).mpr
            ⟨⟨spares.ntask ▸ inside, isOpen, stays⟩, isWrite, isSock⟩
        have nodup : ((z.completeUnrun t rCanceled).sock s).wq.Nodup :=
          (sound'.placed.wq_sorted s live').imp fun less => Nat.ne_of_lt less
        have shorter : ((z.completeUnrun t rCanceled).sock s).wq.length ≤ ((z.sock s).wq.erase t).length :=
          (nodup.subperm fun u there => (List.mem_erase_of_ne (by
            rintro rfl; exact gone there)).mpr (within u there)).length_le
        rw [List.length_erase_of_mem member] at shorter
        omega
      obtain ⟨spares', short', moves'⟩ := @ih (z.completeUnrun t rCanceled) x (sound.moves moves) live'
        fewer allowed
      exact ⟨spares.trans spares', short', moves.trans moves'⟩
    · rename_i other
      refine ⟨.refl z x, ?_, .refl _⟩
      rcases list : (z.sock s).wq with _ | ⟨a, _ | ⟨b, l⟩⟩
      · simp
      · simp
      · exact absurd list (other a b l)

/-- The task of `impl_sock_close` is made, and its socket is marked. -/
def closeMade (z : ZPool) (s : SockId) : ZPool :=
  (z.on (·.taskNew { kind := .opSockClose, sock := some s })).on
    (·.modSock s ({ · with closing := true }))

/-- The three loops of `impl_sock_close`: over the two slots, and over the parked writes. -/
def closeStripped (z : ZPool) (s : SockId) : ZPool :=
  let y := ((z.closeMade s).stopSlot (z.readTask s)).stopSlot (z.acceptTask s)
  cancelParked (y.sock s).wq.length y s

theorem implSockClose_eq (z : ZPool) (s : SockId) :
    z.implSockClose s =
      if ((z.closeStripped s).sock s).inflight = 0 then
        ((z.closeStripped s).on (·.sockDiscard s)).on (·.finish z.ntask (rOk 0 none))
      else (z.closeStripped s).enqueue z.ntask := rfl

/-- What `impl_sock_close` strips a socket of, before it closes it or queues its task. -/
theorem closeStripped_spec (sound : Sound z.rest) (live : s ∈ z.socks)
    (usable : (z.sock s).closing = false) (mine : z.claimed s = true)
    (reads : ∀ t, z.readTask s = some t → InSlot z.toCore .opSockRead s t)
    (accepts : ∀ t, z.acceptTask s = some t → InSlot z.toCore .opAccept s t)
    (allowed : ∀ k res, k ≠ .opSockClose → o k res) :
    Spares (z.closeMade s) (z.closeStripped s) (update (fun _ => false) z.ntask true) ∧
      ((z.closeStripped s).sock s).wq.length ≤ 1 ∧
      Moves o z.rest
        ⟨(z.closeStripped s).toCore, update (fun _ => false) z.ntask true, fun _ => false⟩ := by
  let x := update (fun _ : TaskId => false) z.ntask true
  have create : Move o z.rest ⟨(z.closeMade s).toCore, x, fun _ => false⟩ :=
    .createClose live usable mine
  have made := sound.move create
  have old : ∀ t, t < z.ntask → (z.closeMade s).task t = z.task t := fun t inside => by
    simp [closeMade, taskNew, modSock, Function.update_of_ne (Nat.ne_of_lt inside)]
  have kept : ∀ {k t}, InSlot z.toCore k s t → InSlot (z.closeMade s).toCore k s t ∧ x t = false := by
    rintro k t ⟨inside, isOpen, kind, sock⟩
    refine ⟨⟨Nat.lt_succ_of_lt inside, ?_, ?_, ?_⟩, ?_⟩
    · rw [old t inside]; exact isOpen
    · rw [old t inside]; exact kind
    · rw [old t inside]; exact sock
    · exact Function.update_of_ne (Nat.ne_of_lt inside) _ _
  obtain ⟨spares, others, moves⟩ := stopSlot_spec (o := o) (k := .opSockRead) (s := s)
    (z.readTask s) made (by decide) (fun c named => kept (reads c named)) (allowed _ _ (by decide))
  obtain ⟨spares', _, moves'⟩ := stopSlot_spec (o := o) (k := .opAccept) (s := s)
    (z.acceptTask s) (made.moves moves) (by decide)
    (fun c named => by
      -- The accept is not the read that has just been stopped.
      obtain ⟨⟨inside, isOpen, kind, sock⟩, stays⟩ := kept (accepts c named)
      have other : z.readTask s ≠ some c := fun same =>
        OpKind.noConfusion ((reads c same).kind.symm.trans (accepts c named).kind)
      have task := others c other
      exact ⟨⟨spares.ntask ▸ inside, by rw [task]; exact isOpen, by rw [task]; exact kind,
        by rw [task]; exact sock⟩, stays⟩)
    (allowed _ _ (by decide))
  have stopped := moves.trans moves'
  have live' : s ∈ (((z.closeMade s).stopSlot (z.readTask s)).stopSlot (z.acceptTask s)).socks := by
    rw [spares'.socks, spares.socks]; exact live
  obtain ⟨spares'', short, moves''⟩ := cancelParked_spec (o := o) s
    ((((z.closeMade s).stopSlot (z.readTask s)).stopSlot (z.acceptTask s)).sock s).wq.length
    (made.moves stopped) live' (Nat.le_succ _) (allowed _ _ (by decide))
  exact ⟨(spares.trans spares').trans spares'', short,
    ((Moves.one create).trans stopped).trans moves''⟩

/-- `impl_sock_close`. -/
theorem implSockClose_spec (sound : Sound z.rest) (live : s ∈ z.socks)
    (usable : (z.sock s).closing = false) (mine : z.claimed s = true)
    (reads : ∀ t, z.readTask s = some t → InSlot z.toCore .opSockRead s t)
    (accepts : ∀ t, z.acceptTask s = some t → InSlot z.toCore .opAccept s t)
    (allowed : ∀ k res, k ≠ .opSockClose → o k res) (closed : o .opSockClose (rOk 0 none)) :
    Moves o z.rest (z.implSockClose s).rest := by
  obtain ⟨spares, short, moves⟩ := closeStripped_spec (o := o) sound live usable mine reads accepts
    allowed
  have stripped := sound.moves moves
  have inside : z.ntask < (z.closeStripped s).ntask := by
    rw [spares.ntask]; exact Nat.lt_succ_self _
  have task : (z.closeStripped s).task z.ntask = { kind := .opSockClose, sock := some s } := by
    rw [spares.task z.ntask (by simp)]; simp [closeMade, taskNew, modSock]
  have live' : s ∈ (z.closeStripped s).socks := by rw [spares.socks]; exact live
  have marked : ((z.closeStripped s).sock s).closing = true := by
    rw [spares.closing]; simp [closeMade, modSock]
  rw [implSockClose_eq]
  split
  · rename_i calm
    have now := closeNow (o := o) stripped inside task (by simp) live' marked calm closed
    rw [update_out rfl] at now
    exact moves.trans now
  · have later : Move o ⟨(z.closeStripped s).toCore, update (fun _ => false) z.ntask true,
        fun _ => false⟩ ⟨_, _, _⟩ :=
      closeLater inside task (by simp) live' (drained_of_short stripped live' rfl short)
    rw [update_out rfl] at later
    exact (moves.snoc later).snoc
      (.stir (condSignal_stirred ((z.closeStripped s).on (·.queuePush z.ntask))))

end ZPool

end Myio
