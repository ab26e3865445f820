import Myio.ZPool.Runs

/-!
Properties that the calls of the Zephyr pool keep because what the calls are made of keeps them.

The pieces are those of the desktop pool; around them stand the two slots of a socket, and a signal
where the desktop pool has a dispatch.
-/

namespace Myio.ZPool

open Function (update)
open Core

variable {z z' y : ZPool} {t : TaskId} {s : SockId} {w : WorkerId}

/-- A property that every piece keeps, and a change of the slots, and a queued task. -/
structure Stable (Holds : ZPool → Prop) : Prop where
  piece : ∀ {z : ZPool} {f : Core → Core}, Holds z → Pool.Piece f → Holds (z.on f)
  slots : ∀ {z : ZPool}, Holds z → ∀ reads accepts,
    Holds { z with readTask := reads, acceptTask := accepts }
  enqueue : ∀ {z : ZPool}, Holds z → ∀ t, Holds (z.enqueue t)

namespace Stable

variable {Holds : ZPool → Prop}

/-- Both branches keep what each of them keeps. -/
theorem ite {cond : Prop} [Decidable cond] (yes : Holds z) (no : Holds z') :
    Holds (if cond then z else z') := by
  split
  · exact yes
  · exact no

theorem sockSlotsClear (stable : Stable Holds) (holds : Holds z) (t : TaskId) :
    Holds (z.sockSlotsClear t) := by
  -- The second slot is looked at in the state the first has left.
  have first : Holds (if (z.task t).kind = .opSockRead ∧ z.readTask (z.sockOf t) = some t
      then { z with readTask := update z.readTask (z.sockOf t) none } else z) :=
    ite (stable.slots holds _ z.acceptTask) holds
  unfold ZPool.sockSlotsClear
  dsimp only
  generalize (if (z.task t).kind = .opSockRead ∧ z.readTask (z.sockOf t) = some t
    then { z with readTask := update z.readTask (z.sockOf t) none } else z) = y at first ⊢
  exact ite (stable.slots first y.readTask _) first

theorem writeAdvance (stable : Stable Holds) (holds : Holds z) (t : TaskId) :
    Holds (z.writeAdvance t) := by
  have popped := stable.piece holds (.modSock (z.sockOf t)
    (fun k => { k with wq := (wqPop k.wq).1 }) fun _ => rfl)
  unfold ZPool.writeAdvance
  dsimp only
  split
  · exact stable.piece holds (.modSock _ _ fun _ => rfl)
  · split
    · exact popped
    · exact ite popped (stable.enqueue popped _)

theorem leave (stable : Stable Holds) (holds : Holds z) (t : TaskId) : Holds (z.leave t) := by
  have fewer : Holds (z.on (·.inflightDec (z.sockOf t))) :=
    stable.piece holds (.modSock _ _ fun _ => rfl)
  have counted : Holds (if opOnSock (z.task t).kind
      then (z.on (·.inflightDec (z.sockOf t))).sockSlotsClear t else z) :=
    ite (stable.sockSlotsClear fewer t) holds
  exact ite (stable.writeAdvance counted t) counted

theorem completeUnrun (stable : Stable Holds) (holds : Holds z) (t : TaskId) :
    Holds (z.completeUnrun t rCanceled) := by
  -- A canceled task names no socket, so that reaping it only frees its record.
  have left := stable.leave (stable.piece holds (.queueRemove t)) t
  have same : z.completeUnrun t rCanceled =
      ((z.on (·.queueRemove t)).leave t).on (·.modTask t (settled rCanceled)) := by
    rw [completeUnrun_eq]
    generalize (z.on (·.queueRemove t)).leave t = y
    change { y with toCore := (y.finish t rCanceled).reapIfDetached t } = _
    rw [finish_reapIfDetached _ _ rCanceled_ptr]
    rfl
  rw [same]
  exact stable.piece left (.settled t _ rfl)

theorem submit (stable : Stable Holds) (holds : Holds z) (k : Task) (new : Pool.New k) :
    Holds (z.submit k) := by
  have made := stable.piece holds (.taskNew k new)
  unfold ZPool.submit
  dsimp only
  generalize z.on (·.taskNew k) = q at made ⊢
  have counted : Holds (if opOnSock k.kind then q.on (·.inflightInc (q.sockOf z.ntask)) else q) :=
    ite (stable.piece made (.modSock _ _ fun _ => rfl)) made
  generalize (if opOnSock k.kind then q.on (·.inflightInc (q.sockOf z.ntask)) else q) = q at counted ⊢
  have pushed : Holds (if k.kind = .opSockWrite
      then q.on (·.modSock (q.sockOf z.ntask) fun k => { k with wq := (wqPush k.wq z.ntask).1 })
      else q) := ite (stable.piece counted (.modSock _ _ fun _ => rfl)) counted
  exact ite pushed (stable.enqueue pushed z.ntask)

theorem taskNewFailed (stable : Stable Holds) (holds : Holds z) (kind : OpKind) (err : Int) :
    Holds (z.taskNewFailed kind err) :=
  stable.piece (stable.piece holds (.taskNew _ ⟨rfl, rfl, rfl⟩)) (.finish _ _ rfl)

theorem stopSlot (stable : Stable Holds) (kick : ∀ {z : ZPool}, Holds z → ∀ t, Holds (z.on (kick · t)))
    (holds : Holds z) (named : Option TaskId) : Holds (z.stopSlot named) := by
  unfold ZPool.stopSlot
  split
  · exact holds
  · exact ite (stable.completeUnrun holds _) (kick holds _)

theorem cancelParked (stable : Stable Holds) (n : Nat) : ∀ {z : ZPool}, Holds z → (s : SockId) →
    Holds (ZPool.cancelParked n z s) := by
  induction n with
  | zero => exact fun holds _ => holds
  | succ n ih =>
    intro z holds s
    unfold ZPool.cancelParked
    split
    · exact ih (stable.completeUnrun holds _) s
    · exact holds

theorem implSockClose (stable : Stable Holds)
    (kick : ∀ {z : ZPool}, Holds z → ∀ t, Holds (z.on (kick · t))) (holds : Holds z) (s : SockId) :
    Holds (z.implSockClose s) := by
  have made : Holds (z.closeMade s) :=
    stable.piece (stable.piece holds (.taskNew _ ⟨rfl, rfl, rfl⟩)) (.modSock s _ fun _ => rfl)
  have stripped : Holds (z.closeStripped s) := by
    unfold closeStripped
    exact stable.cancelParked _ (stable.stopSlot kick (stable.stopSlot kick made _) _) s
  rw [implSockClose_eq]
  generalize z.closeStripped s = y at stripped ⊢
  refine ite ?_ (stable.enqueue stripped _)
  -- Unlinking, freeing and closing the descriptor make up what the desktop pool does in one piece.
  exact stable.piece (stable.piece stripped (.sockDiscard s)) (.finish _ _ rfl)

theorem implCancel (stable : Stable Holds) (holds : Holds z) (t : TaskId)
    (kicked : Holds (z.on (kick · t))) : Holds (z.implCancel t) :=
  ite holds (ite (stable.completeUnrun holds t) (ite kicked holds))

theorem wrapWon (stable : Stable Holds) (holds : Holds z) (res : Result) (newfd : Option Fd)
    (linked : Bool) : Holds (z.wrapWon res newfd linked).1 := by
  unfold ZPool.wrapWon
  split
  · exact holds
  · split
    · exact stable.slots (stable.piece holds (.sockLink _)) _ _
    · exact stable.piece holds (.closeDesc _)

theorem dropWon (stable : Stable Holds) (holds : Holds z) (res : Result) :
    Holds (z.dropWon res) := by
  unfold ZPool.dropWon
  split
  · exact stable.piece holds (.sockDiscard _)
  · exact holds

theorem settleSock (stable : Stable Holds) (holds : Holds z) (t : TaskId) (res : Result) :
    Holds (z.settleSock t res).1 := by
  rw [settleSock_eq]
  split
  · split
    · exact stable.dropWon (stable.leave holds t) res
    · exact stable.leave holds t
  · exact holds

end Stable

/-! ### The moves of a worker -/

/-- A worker goes on with its task, in some phase. -/
structure Goes (z : ZPool) (w : WorkerId) (t : TaskId) (z' : ZPool) : Prop where
  rest : z' = { z with task := z'.task, desc := z'.desc, ndesc := z'.ndesc, sock := z'.sock
                       socks := z'.socks, worker := z'.worker }
  task : ∀ u, z'.task u = { z.task u with sent := (z'.task u).sent }
  pc : ∃ phase, ∀ v, (z'.worker v).pc = ((z.setPc w (.running t phase)).worker v).pc

theorem Goes.setPc (z : ZPool) (w : WorkerId) (t : TaskId) (phase : Phase) :
    Goes z w t (z.on (·.setPc w (.running t phase))) :=
  ⟨rfl, fun _ => rfl, phase, fun _ => rfl⟩

/-- A worker that runs a task goes on with it, or commits it. -/
theorem runStep_cases {phase : Phase} {act : Pool.Act} (taken : z.runStep w t phase act = some z') :
    Goes z w t z' ∨
    (∃ res newfd linked, phase = .commit res newfd ∧ z' = z.workerCommit w t res newfd linked) ∨
    (phase = .commitClose ∧ z' = (z.on (·.setPc w .ready)).complete t (rOk 0 none)) := by
  unfold runStep at taken
  split at taken
  · cases taken
    left
    unfold workerEnter
    split
    · exact .setPc z w t _
    · split
      case h_2 => split <;> exact .setPc z w t _
      all_goals exact .setPc z w t _
  · split at taken
    · cases taken; exact .inl (.setPc z w t _)
    · split at taken <;> cases taken <;> exact .inl (.setPc z w t _)
  · split at taken
    · split at taken <;> cases taken
      -- Draining the kicks leaves every worker where it is.
      refine .inl ⟨rfl, fun _ => rfl, .check, fun v => ?_⟩
      by_cases same : v = w
      · subst same; simp [on, Core.setPc, modWorker]
      · simp [on, Core.setPc, modWorker, same]
    · cases taken; exact .inl (.setPc z w t _)
  · cases taken; exact .inl (.setPc z w t _)
  · split at taken <;> cases taken <;> exact .inl ⟨rfl, fun _ => rfl, _, fun _ => rfl⟩
  · split at taken <;> cases taken
    refine .inl ⟨rfl, fun u => ?_, _, fun _ => rfl⟩
    simp only [on, Pool.sendBytes, Core.setPc, modWorker, modTask, modDesc, Function.update_apply]
    split
    · rename_i same; rw [same]
    · rfl
  · split at taken <;> cases taken; exact .inl (.setPc z w t _)
  · split at taken <;> cases taken; exact .inl (.setPc z w t _)
  · cases taken; exact .inr (.inl ⟨_, _, _, rfl, rfl⟩)
  · dsimp only at taken
    split at taken <;> cases taken; exact .inl ⟨rfl, fun _ => rfl, _, fun _ => rfl⟩
  · cases taken; exact .inl ⟨rfl, fun _ => rfl, _, fun _ => rfl⟩
  · cases taken; exact .inr (.inr ⟨rfl, rfl⟩)
  · cases taken

/-- What a worker does: it is woken, it comes to the top of its loop, or it runs its task. -/
theorem workerStep_cases {act : Pool.Act} (taken : z.workerStep w act = some z') :
    w < z.nworker ∧
    (((z.worker w).pc = .asleep ∧ z' = z.on (·.setPc w (.woken false))) ∨
    ((z.worker w).pc = .ready ∧ z' = (z.clearCurrent w).workerMain w) ∨
    (∃ late, (z.worker w).pc = .woken late ∧ z' = z.workerMain w) ∨
    ∃ t phase, (z.worker w).pc = .running t phase ∧ z.runStep w t phase act = some z') := by
  unfold workerStep at taken
  split at taken
  · cases taken
  · rename_i outside
    refine ⟨Nat.lt_of_not_le outside, ?_⟩
    split at taken
    · rename_i pc; cases taken; exact .inl ⟨pc, rfl⟩
    · rename_i pc; cases taken; exact .inr (.inl ⟨pc, rfl⟩)
    · rename_i pc; cases taken; exact .inr (.inr (.inl ⟨_, pc, rfl⟩))
    · rename_i pc; exact .inr (.inr (.inr ⟨_, _, pc, taken⟩))
    · cases taken

/-- The top of a worker's loop: it takes a task, retires or goes to sleep. -/
theorem workerMain_cases (z : ZPool) (w : WorkerId) :
    (∃ t rest, z.queue = t :: rest ∧ z.workerMain w = z.take w t) ∨
    (z.queue = [] ∧ z.shutdown = true ∧ z.workerMain w = z.on (·.setPc w .retired)) ∨
    (z.queue = [] ∧ z.shutdown = false ∧ z.workerMain w = z.on (·.setPc w .asleep)) := by
  unfold ZPool.workerMain
  cases queue : z.queue with
  | cons t rest => exact .inl ⟨t, rest, rfl, rfl⟩
  | nil =>
    cases down : z.shutdown with
    | true => exact .inr (.inl ⟨rfl, rfl, rfl⟩)
    | false => exact .inr (.inr ⟨rfl, rfl, rfl⟩)

/-! ### The end of a task -/

theorem reap_done (c : Core) (t u : TaskId) : ((c.reap t).task u).done = (c.task u).done := by
  -- Reaping a task writes its `frees` only; the socket it won is another record.
  have freed : ∀ c : Core, ((c.taskFreeMem t).task u).done = (c.task u).done := by
    intro c
    by_cases same : u = t
    · subst same; simp [taskFreeMem, modTask]
    · simp [taskFreeMem, modTask, same]
  unfold reap
  split
  · exact (freed _).trans rfl
  · exact freed _

theorem reapIfDetached_done (c : Core) (t u : TaskId) :
    ((c.reapIfDetached t).task u).done = (c.task u).done := by
  unfold Core.reapIfDetached
  split
  · exact reap_done c t u
  · rfl

theorem complete_task (z : ZPool) (t : TaskId) (res : Result) :
    ((z.complete t res).task t).done = true ∧
      ∀ u, u ≠ t → ((z.complete t res).task u).done = (z.task u).done := by
  constructor
  · refine (reapIfDetached_done _ t t).trans ?_
    simp [on, finish, modTask]
  · intro u other
    refine (reapIfDetached_done _ t u).trans ?_
    simp [on, finish, modTask, other]

theorem complete_kind (z : ZPool) (t : TaskId) (res : Result) (u : TaskId) :
    ((z.complete t res).task u).kind = (z.task u).kind := by
  have freed : ∀ c : Core, ((c.taskFreeMem t).task u).kind = (c.task u).kind := by
    intro c
    by_cases same : u = t
    · subst same; simp [taskFreeMem, modTask]
    · simp [taskFreeMem, modTask, same]
  have reaped : ∀ c : Core, ((c.reapIfDetached t).task u).kind = (c.task u).kind := by
    intro c
    unfold Core.reapIfDetached Core.reap
    split
    · split
      · exact (freed _).trans rfl
      · exact freed _
    · rfl
  refine (reaped _).trans ?_
  by_cases same : u = t
  · subst same; simp [on, finish, modTask]
  · simp [on, finish, modTask, same]

theorem complete_rest (z : ZPool) (t : TaskId) (res : Result) :
    (z.complete t res).ntask = z.ntask ∧ (z.complete t res).nsock = z.nsock ∧
      (z.complete t res).slot = z.slot := by
  have rest : ∀ c : Core, (c.reapIfDetached t).ntask = c.ntask ∧ (c.reapIfDetached t).nsock = c.nsock := by
    intro c
    unfold Core.reapIfDetached Core.reap
    split
    · cases (c.task t).res.ptr <;> exact ⟨rfl, rfl⟩
    · exact ⟨rfl, rfl⟩
  exact ⟨(rest _).1, (rest _).2, rfl⟩

/-- A property that what the user thread does besides keeps too: kicks, and changes aside of the workers. -/
structure Settled (Holds : ZPool → Prop) : Prop extends Stable Holds where
  kick : ∀ {z : ZPool}, Holds z → ∀ t, Holds (z.on (kick · t))
  aside : ∀ {z : ZPool}, Holds z → ∀ task desc ndesc sock nsock socks wrapping held claimed user ret,
    Holds { z with task, desc, ndesc, sock, nsock, socks, wrapping, held, claimed, user, ret }

namespace Settled

variable {Holds : ZPool → Prop}

theorem freed (settled : Settled Holds) (holds : Holds z) (t : TaskId) :
    Holds ((z.dropHandle t).on (·.taskFreeMem t)) :=
  settled.aside holds (z.taskFreeMem t).task z.desc z.ndesc z.sock z.nsock z.socks z.wrapping
    (update z.held t false) z.claimed z.user z.ret

/-- Reaping touches a task, the socket it won and its descriptor. -/
theorem reap (settled : Settled Holds) (holds : Holds z) (t : TaskId) : Holds (z.on (·.reap t)) := by
  have rest : z.reap t = { z.toCore with task := (z.reap t).task, desc := (z.reap t).desc
                                         sock := (z.reap t).sock, socks := (z.reap t).socks } := by
    unfold Core.reap
    cases (z.task t).res.ptr <;> rfl
  change Holds { z with toCore := z.reap t }
  rw [rest]
  exact settled.aside holds _ _ z.ndesc _ z.nsock _ z.wrapping z.held z.claimed z.user z.ret

/-- A vtable call, other than destroy. -/
theorem call (settled : Settled Holds) {c : Call} (holds : Holds z) (lives : c ≠ .destroy)
    (taken : z.call c = some z') : Holds z' := by
  have stable := settled.toStable
  have submitted : ∀ k, Pool.New k → Holds (z.submit k) := fun k new => stable.submit holds k new
  have failed : ∀ k err, Holds (z.taskNewFailed k err) := fun k err => stable.taskNewFailed holds k err
  have slotted : ∀ (k : Task) reads accepts, Pool.New k →
      Holds ({ z with readTask := reads, acceptTask := accepts }.submit k) :=
    fun k reads accepts new => stable.submit (stable.slots holds reads accepts) k new
  have given : ∀ held claimed user ret, Holds { z with held, claimed, user, ret } :=
    settled.aside holds z.task z.desc z.ndesc z.sock z.nsock z.socks z.wrapping
  cases c with
  | «open» fits => cases taken; exact Stable.ite (submitted _ ⟨rfl, rfl, rfl⟩) (failed _ _)
  | close known => cases taken; exact Stable.ite (submitted _ ⟨rfl, rfl, rfl⟩) (failed _ _)
  | read known => cases taken; exact Stable.ite (submitted _ ⟨rfl, rfl, rfl⟩) (failed _ _)
  | write known => cases taken; exact Stable.ite (submitted _ ⟨rfl, rfl, rfl⟩) (failed _ _)
  | sleep => cases taken; exact submitted _ ⟨rfl, rfl, rfl⟩
  | spawn => cases taken; exact submitted _ ⟨rfl, rfl, rfl⟩
  | tcpConnect fits => cases taken; exact Stable.ite (submitted _ ⟨rfl, rfl, rfl⟩) (failed _ _)
  | tcpListen =>
    cases taken
    exact settled.aside holds z.task _ _ z.sock z.nsock z.socks _ z.held z.claimed _ z.ret
  | tcpAccept ls => cases taken; exact Stable.ite (failed _ _) (slotted _ _ _ ⟨rfl, rfl, rfl⟩)
  | sockRead s => cases taken; exact Stable.ite (failed _ _) (slotted _ _ _ ⟨rfl, rfl, rfl⟩)
  | sockWrite s buf => cases taken; exact submitted _ ⟨rfl, rfl, rfl⟩
  | sockClose s => cases taken; exact stable.implSockClose settled.kick holds s
  | wait goal => cases goal <;> cases taken <;> exact given z.held z.claimed _ z.ret
  | cancel t => cases taken; exact stable.implCancel holds t (settled.kick holds t)
  | taskResult t =>
    cases taken
    unfold implTaskResult
    split
    · exact given z.held _ z.user z.ret
    · exact holds
  | taskFree t =>
    cases taken
    refine Stable.ite (settled.freed holds t) (Stable.ite ?_ ?_)
    · exact settled.freed (stable.completeUnrun holds t) t
    · have kicked : Holds (if opInterruptible (z.task t).kind then z.on (ZPool.kick · t) else z) :=
        Stable.ite (settled.kick holds t) holds
      generalize (if opInterruptible (z.task t).kind then z.on (ZPool.kick · t) else z) = y at kicked ⊢
      exact settled.aside kicked y.task y.desc y.ndesc y.sock y.nsock y.socks y.wrapping y.held
        y.claimed _ y.ret
  | taskDetach t =>
    cases taken
    have dropped : ∀ v, Holds ((z.dropHandle t).dropSock v) := by
      intro v
      cases v with
      | none => exact given _ z.claimed z.user z.ret
      | some s => exact given _ _ z.user z.ret
    refine Stable.ite (settled.reap (dropped _) t) ?_
    exact settled.aside holds _ z.desc z.ndesc z.sock z.nsock z.socks z.wrapping _ z.claimed z.user z.ret
  | destroy => exact absurd rfl lives
  | resume => cases taken

end Settled

end Myio.ZPool
