import Myio.Pool.Sections

/-!
Properties that the calls keep because what the calls are made of keeps them.

The calls of the desktop pool are put together from pieces of shared code and dispatches.
-/

namespace Myio.Pool

open Core

variable {p p' : Pool} {t : TaskId} {s : SockId}

/-- A record as the submit functions make it. -/
structure New (k : Task) : Prop where
  ptr : k.res.ptr = none
  started : k.started = false
  cancelReq : k.cancelReq = false

/-- The pieces of shared code the calls are put together from. -/
inductive Piece : (Core → Core) → Prop
  | modSock (s : SockId) (f : Sock → Sock) (same : ∀ k, (f k).fd = k.fd) : Piece (·.modSock s f)
  | sockDiscard (s : SockId) : Piece (·.sockDiscard s)
  | sockLink (fd : Fd) : Piece (·.sockLink fd)
  | closeDesc (fd : Fd) : Piece (·.closeDesc fd)
  | queueRemove (t : TaskId) : Piece (·.queueRemove t)
  | taskNew (k : Task) (new : New k) : Piece (·.taskNew k)
  | finish (t : TaskId) (res : Result) (bare : res.ptr = none) : Piece (·.finish t res)
  | settled (t : TaskId) (res : Result) (bare : res.ptr = none) : Piece (·.modTask t (settled res))
  | failHead (s : SockId) (n : TaskId) : Piece (failHead · s n)

/-- What no piece changes: where the workers are, and what the user thread relies on. -/
structure Apart (c c' : Core) : Prop where
  nworker : c'.nworker = c.nworker
  worker : ∀ w, (c'.worker w).pc = (c.worker w).pc
  shutdown : c'.shutdown = c.shutdown
  wrapping : c'.wrapping = c.wrapping
  gone : c'.gone = c.gone
  claimed : c'.claimed = c.claimed
  held : ∀ t, c.held t = true → c'.held t = true
  nqueued : c'.nqueued ≤ c.nqueued
  queue : c.nqueued = c.queue.length → c'.nqueued = c'.queue.length

/-- A change of tasks, sockets and descriptors only. -/
theorem Apart.of_rest {c c' : Core}
    (rest : c' = { c with task := c'.task, sock := c'.sock, nsock := c'.nsock, desc := c'.desc
                          socks := c'.socks }) : Apart c c' := by
  constructor <;> rw [rest]
  · exact fun _ => rfl
  · exact fun _ => id
  · exact id

theorem apart_queueRemove (c : Core) (t : TaskId) : Apart c (c.queueRemove t) := by
  have rest := queueRemove_rest c t
  constructor
  case nqueued =>
    unfold Core.queueRemove
    split
    · exact Nat.sub_le _ _
    · exact Nat.le_refl _
  case queue =>
    intro count
    unfold Core.queueRemove
    split
    · rename_i there; simp [List.length_erase_of_mem there, count]
    · exact count
  all_goals rw [rest]
  · exact fun _ => rfl
  · exact fun _ => id

theorem apart_taskNew (c : Core) (k : Task) : Apart c (c.taskNew k) := by
  refine ⟨rfl, fun _ => rfl, rfl, rfl, rfl, rfl, fun t before => ?_, Nat.le_refl _, id⟩
  by_cases new : t = c.ntask
  · subst new; simp [Core.taskNew]
  · simpa [Core.taskNew, new] using before

theorem apart_kick (c : Core) (t : TaskId) : Apart c (kick c t) := by
  refine ⟨rfl, fun w => ?_, rfl, rfl, rfl, rfl, fun _ => id, Nat.le_refl _, id⟩
  simp only [kick, modWorker, modTask, Function.update_apply]
  split
  · rename_i same; subst same; rfl
  · rfl

theorem apart_failHead (c : Core) (s : SockId) (n : TaskId) : Apart c (failHead c s n) := by
  rw [failHead_eq]
  exact .of_rest rfl

theorem Piece.apart {f : Core → Core} (piece : Piece f) (c : Core) : Apart c (f c) := by
  cases piece with
  | queueRemove t => exact apart_queueRemove c t
  | taskNew k new => exact apart_taskNew c k
  | failHead s n => exact apart_failHead c s n
  | _ => exact .of_rest rfl

theorem apart_reap (c : Core) (t : TaskId) : Apart c (c.reap t) := .of_rest (by
  unfold Core.reap
  cases (c.task t).res.ptr <;> rfl)

theorem apart_reapIfDetached (c : Core) (t : TaskId) : Apart c (c.reapIfDetached t) := .of_rest (by
  unfold Core.reapIfDetached Core.reap
  by_cases detached : (c.task t).detached = true
  · simp only [detached, if_true]
    cases (c.task t).res.ptr <;> rfl
  · simp only [detached]; rfl)

/-- A property that every piece keeps, and a dispatch. -/
structure Stable (Holds : Pool → Prop) : Prop where
  piece : ∀ {p : Pool} {f : Core → Core}, Holds p → Piece f → Holds (p.on f)
  dispatch : ∀ {p : Pool}, Holds p → ∀ t, Holds (p.dispatchLocked t).1

namespace Stable

variable {Holds : Pool → Prop}

/-- Both branches keep what each of them keeps. -/
theorem ite {cond : Prop} [Decidable cond] (yes : Holds p) (no : Holds p') :
    Holds (if cond then p else p') := by
  split
  · exact yes
  · exact no

/-- The loop of `write_advance`. -/
theorem promote (stable : Stable Holds) (s : SockId) (l : List TaskId) : ∀ {p : Pool}, Holds p →
    Holds (Pool.promote p s l) := by
  induction l with
  | nil => exact id
  | cons n rest ih =>
    intro p holds
    have next := stable.dispatch holds n
    unfold Pool.promote
    rcases dispatched : p.dispatchLocked n with ⟨q, _ | _⟩ <;> rw [dispatched] at next
    · exact ih (stable.piece next (.failHead s n))
    · exact next

theorem writeAdvance (stable : Stable Holds) (holds : Holds p) (t : TaskId) :
    Holds (p.writeAdvance t) := by
  rw [writeAdvance_eq]
  have left := stable.piece holds (.modSock (p.sockOf t)
    (fun k => { k with wq := k.wq.erase t }) fun _ => rfl)
  unfold handOn
  exact ite (ite left (stable.promote _ _ left)) left

theorem leave (stable : Stable Holds) (holds : Holds p) (t : TaskId) : Holds (p.leave t) := by
  have counted : Holds (if opOnSock (p.task t).kind then p.on (·.inflightDec (p.sockOf t)) else p) :=
    ite (stable.piece holds (.modSock _ _ fun _ => rfl)) holds
  exact ite (stable.writeAdvance counted t) counted

theorem completeUnrun (stable : Stable Holds) (holds : Holds p) (t : TaskId) :
    Holds (p.completeUnrun t) := by
  rw [completeUnrun_eq]
  exact stable.piece (stable.leave (stable.piece holds (.queueRemove t)) t) (.settled t _ rfl)

theorem submit (stable : Stable Holds) (holds : Holds p) (k : Task) (new : New k) :
    Holds (p.submit k) := by
  have made := stable.piece holds (.taskNew k new)
  unfold Pool.submit
  dsimp only
  generalize p.on (·.taskNew k) = q at made ⊢
  have counted : Holds (if opOnSock k.kind then q.on (·.inflightInc (q.sockOf p.ntask)) else q) :=
    ite (stable.piece made (.modSock _ _ fun _ => rfl)) made
  generalize (if opOnSock k.kind then q.on (·.inflightInc (q.sockOf p.ntask)) else q) = q at counted ⊢
  have pushed : Holds (if k.kind = .opSockWrite
      then q.on (·.modSock (q.sockOf p.ntask) fun k => { k with wq := (wqPush k.wq p.ntask).1 })
      else q) := ite (stable.piece counted (.modSock _ _ fun _ => rfl)) counted
  refine ite pushed ?_
  have next := stable.dispatch pushed p.ntask
  split
  · rename_i dispatched; rw [dispatched] at next; exact next
  · rename_i r dispatched
    rw [dispatched] at next
    have uncounted : Holds (if opOnSock k.kind then r.on (·.inflightDec (q.sockOf p.ntask)) else r) :=
      ite (stable.piece next (.modSock (q.sockOf p.ntask) _ fun _ => rfl)) next
    exact stable.piece (ite (stable.piece uncounted (.modSock _ _ fun _ => rfl)) uncounted) (.finish _ _ rfl)

theorem cancelParked (stable : Stable Holds) (n : Nat) : ∀ {p : Pool}, Holds p → (s : SockId) →
    Holds (Pool.cancelParked n p s) := by
  induction n with
  | zero => exact fun holds _ => holds
  | succ n ih =>
    intro p holds s
    unfold Pool.cancelParked
    split
    · exact ih (stable.completeUnrun holds _) s
    · exact holds

theorem implSockClose (stable : Stable Holds) (holds : Holds p) (s : SockId) :
    Holds (p.implSockClose s) := by
  have made : Holds (p.closeMade s) :=
    stable.piece (stable.piece holds (.taskNew _ ⟨rfl, rfl, rfl⟩)) (.modSock s _ fun _ => rfl)
  have next := stable.dispatch
    (stable.cancelParked ((p.closeMade s).sock s).wq.length made s) p.ntask
  rw [implSockClose_eq]
  refine ite (stable.piece (stable.piece made (.sockDiscard s)) (.finish _ _ rfl)) ?_
  split
  · rename_i dispatched; rw [dispatched] at next; exact next
  · rename_i dispatched; rw [dispatched] at next; exact stable.piece next (.finish _ _ rfl)

theorem implCancel (stable : Stable Holds) (holds : Holds p) (t : TaskId)
    (kicked : Holds (p.on (kick · t))) : Holds (p.implCancel t) :=
  ite holds (ite (stable.completeUnrun holds t) (ite kicked holds))

theorem dropWon (stable : Stable Holds) (holds : Holds p) (res : Result) :
    Holds (p.dropWon res) := by
  unfold Pool.dropWon
  split
  · exact stable.piece holds (.sockDiscard _)
  · exact holds

theorem wrapWon (stable : Stable Holds) (holds : Holds p) (res : Result) (newfd : Option Fd)
    (linked : Bool) : Holds (p.wrapWon res newfd linked).1 := by
  unfold Pool.wrapWon
  split
  · exact holds
  · split
    · exact stable.piece holds (.sockLink _)
    · exact stable.piece holds (.closeDesc _)

theorem settleSock (stable : Stable Holds) (holds : Holds p) (t : TaskId) (res : Result) :
    Holds (p.settleSock t res).1 := by
  rw [settleSock_eq]
  split
  · split
    · exact stable.dropWon (stable.leave holds t) res
    · exact stable.leave holds t
  · exact holds

end Stable

end Myio.Pool
