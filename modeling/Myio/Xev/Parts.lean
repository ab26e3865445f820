import Myio.Lib.Chain
import Myio.Lib.Select
import Myio.Xev.Code

/-! What the parts the libxev backend's calls and callbacks are made of change, and what not. -/

namespace Myio.Xev.Io

open Function (update)

variable {io : Io} {t : TaskId} {s : SockId}

@[simp] theorem modTask_task (io : Io) (t : TaskId) (f : Task → Task) :
    (io.modTask t f).task = update io.task t (f (io.task t)) := rfl
@[simp] theorem modTask_sock (io : Io) (t : TaskId) (f : Task → Task) :
    (io.modTask t f).sock = io.sock := rfl
@[simp] theorem modSock_task (io : Io) (s : SockId) (f : Sock → Sock) :
    (io.modSock s f).task = io.task := rfl
@[simp] theorem modSock_sock (io : Io) (s : SockId) (f : Sock → Sock) :
    (io.modSock s f).sock = update io.sock s (f (io.sock s)) := rfl

/-! ### The end of a task -/

/-- How a task is completed: a change of its result, which the socket in it survives, and the end. -/
def settle (io : Io) (t : TaskId) (r : Result → Result) : Io :=
  (io.modTask t fun k => { k with res := r k.res }).finish t

/-- The record of a task that is completed. -/
def settled (r : Result → Result) (k : Task) : Task :=
  { k with done := true, dones := k.dones + 1
           res := if k.detached then { r k.res with ptr := none } else r k.res }

/-- The sockets when a detached task has discarded the one it won. -/
def discarded (io : Io) (t : TaskId) : SockId → Sock :=
  match (io.task t).detached, (io.task t).res.ptr with
  | true, some s =>
    update io.sock s { io.sock s with cClose := true, loopCloses := (io.sock s).loopCloses + 1 }
  | _, _ => io.sock

/-- A change of a result that leaves the socket in it alone. -/
def Result.Keeps (r : Result → Result) : Prop := ∀ x, (r x).ptr = x.ptr

/-- What becomes of an instance when a task is completed. -/
theorem settle_eq {r : Result → Result} (keeps : Result.Keeps r) (io : Io) (t : TaskId) :
    io.settle t r = { io with
      task := update io.task t (settled r (io.task t)), sock := io.discarded t
      ncompleted := io.ncompleted + 1
      reap := if (io.task t).detached then t :: io.reap else io.reap } := by
  have same := keeps (io.task t).res
  unfold settle finish discarded
  cases detached : (io.task t).detached with
  | false => simp [modTask, settled, detached]
  | true =>
    cases ptr : (io.task t).res.ptr with
    | none =>
      rw [ptr] at same
      simp [modTask, settled, detached, discardResult, same]
      congr 1
      rw [← same]
    | some s =>
      rw [ptr] at same
      simp [modTask, settled, detached, discardResult, sockDiscardAsync, modSock, same]

/-- The three changes of a result with which tasks end. -/
def asOk (value : Int) (x : Result) : Result := { x with status := .ok, value }
def asErr (errno : Int) (x : Result) : Result := { x with status := .error, error := errno }
def asCanceled (x : Result) : Result := { x with status := .canceled }

theorem asOk_keeps (value : Int) : Result.Keeps (asOk value) := fun _ => rfl
theorem asErr_keeps (errno : Int) : Result.Keeps (asErr errno) := fun _ => rfl
theorem asCanceled_keeps : Result.Keeps asCanceled := fun _ => rfl

theorem completeCanceled_eq (io : Io) (t : TaskId) : io.completeCanceled t = io.settle t asCanceled := rfl

/-- A cancel and any other error each end a task. -/
theorem completeFailed_eq (io : Io) (t : TaskId) (err : XevError) :
    ∃ r, Result.Keeps r ∧ (∀ x, (r x).status ≠ .ok) ∧ io.completeFailed t err = io.settle t r := by
  unfold completeFailed
  split
  · exact ⟨asCanceled, asCanceled_keeps, by simp [asCanceled], rfl⟩
  · exact ⟨asErr (errnoOf err), asErr_keeps _, by simp [asErr], rfl⟩

/-! ### The write FIFO -/

/-- The pointers of a socket's FIFO. -/
def chain (io : Io) (s : SockId) : Machine.Chain TaskId :=
  ⟨(io.sock s).writeHead, (io.sock s).writeTail, fun t => (io.task t).wnext⟩

/-- A FIFO's pointers are replaced. -/
def relink (io : Io) (s : SockId) (q : Machine.Chain TaskId) : Io :=
  { io with
    task := fun t => { io.task t with wnext := q.next t }
    sock := update io.sock s { io.sock s with writeHead := q.head, writeTail := q.tail } }

/-- An instance is known by its tasks and its sockets, where nothing else is written. -/
theorem eq_of_tables {a b : Io} (rest : a = { b with task := a.task, sock := a.sock })
    (task : ∀ t, a.task t = b.task t) (sock : ∀ s, a.sock s = b.sock s) : a = b := by
  rw [rest, funext task, funext sock]

/-- `writePush` appends to the chain. -/
theorem writePush_eq (io : Io) (s : SockId) (t : TaskId) :
    io.writePush s t = (io.relink s ((io.chain s).push t), (io.sock s).writeTail.isNone) := by
  unfold writePush
  simp only [modTask_sock]
  cases tail : (io.sock s).writeTail with
  | none =>
    refine Prod.ext (eq_of_tables rfl (fun u => ?_) fun v => ?_) rfl
    · simp only [modTask, modSock, relink, chain, Machine.Chain.push, tail, Function.update_apply]
      split
      · rename_i isT; subst isT; rfl
      · rfl
    · simp [modTask, modSock, relink, chain, Machine.Chain.push, tail]
  | some last =>
    refine Prod.ext (eq_of_tables rfl (fun u => ?_) fun v => ?_) rfl
    · simp only [modTask, modSock, relink, chain, Machine.Chain.push, tail, Function.update_apply]
      split <;> split <;> simp_all
    · simp [modTask, modSock, relink, chain, Machine.Chain.push, tail]

/-- Taking out a member that was found takes it out of the chain. -/
theorem writeUnlink_eq (io : Io) (s : SockId) (prev : Option TaskId) (c : TaskId) :
    io.writeUnlink s prev c = io.relink s ((io.chain s).unlink prev c) := by
  unfold writeUnlink
  cases prev with
  | none =>
    refine eq_of_tables (by dsimp only; split <;> rfl) (fun u => ?_) fun v => ?_
    · by_cases last : (io.sock s).writeTail = some c <;> by_cases isC : u = c <;>
        simp [modTask, modSock, relink, chain, Machine.Chain.unlink, last, Function.update_apply, isC]
    · by_cases last : (io.sock s).writeTail = some c <;> by_cases isS : v = s <;>
        simp [modTask, modSock, relink, chain, Machine.Chain.unlink, last, Function.update_apply, isS]
  | some pv =>
    refine eq_of_tables (by dsimp only; split <;> rfl) (fun u => ?_) fun v => ?_
    · by_cases last : (io.sock s).writeTail = some c <;> by_cases isC : u = c <;>
        by_cases isPrev : u = pv <;>
        simp_all [modTask, modSock, relink, chain, Machine.Chain.unlink, Function.update_apply]
    · by_cases last : (io.sock s).writeTail = some c <;> by_cases isS : v = s <;>
        simp_all [modTask, modSock, relink, chain, Machine.Chain.unlink, Function.update_apply]

theorem writeSearch_eq (io : Io) (s : SockId) (t : TaskId) : ∀ fuel prev cur,
    io.writeSearch s t fuel prev cur = io.relink s ((io.chain s).removeFrom t fuel prev cur) := by
  have same : io = io.relink s (io.chain s) :=
    eq_of_tables rfl (fun u => rfl) fun v => by
      simp only [relink, chain, Function.update_apply]
      split
      · rename_i isS; subst isS; rfl
      · rfl
  intro fuel
  induction fuel with
  | zero => intro prev cur; exact same
  | succ fuel ih =>
    intro prev cur
    cases cur with
    | none => exact same
    | some c =>
      simp only [writeSearch, Machine.Chain.removeFrom]
      split
      · rename_i found
        subst found
        exact writeUnlink_eq io s prev c
      · exact ih (some c) _

/-- `writeListRemove` takes a task out of the chain. -/
theorem writeListRemove_eq (io : Io) (s : SockId) (t : TaskId) :
    io.writeListRemove s t = io.relink s ((io.chain s).remove io.ntask t) :=
  writeSearch_eq io s t io.ntask none _

/-- The head of a FIFO, if there is one, is handed to the loop. -/
def startHead (io : Io) (s : SockId) : Io :=
  match (io.sock s).writeHead with
  | some h => io.writeStart h
  | none => io

/-- The head is taken off the chain. -/
theorem writeUnhead_eq (head : (io.sock s).writeHead = some t) :
    io.writeUnhead s t = (io.modTask t ({ · with sock := none })).relink s (io.chain s).pop := by
  unfold writeUnhead
  refine eq_of_tables (by dsimp only; split <;> rfl) (fun u => ?_) fun v => ?_
  · by_cases last : (io.task t).wnext = none <;> by_cases isT : u = t <;>
      simp_all [modTask, modSock, relink, chain, Machine.Chain.pop, Function.update_apply]
  · by_cases last : (io.task t).wnext = none <;> by_cases isS : v = s <;>
      simp_all [modTask, modSock, relink, chain, Machine.Chain.pop, Function.update_apply]

/-- `writePopHead` of the head takes it off the chain, and starts the next write. -/
theorem writePopHead_eq (points : (io.task t).sock = some s) (head : (io.sock s).writeHead = some t) :
    io.writePopHead t =
      ((io.modTask t ({ · with sock := none })).relink s (io.chain s).pop).startHead s := by
  rw [← writeUnhead_eq head]
  unfold writePopHead
  split
  · rename_i nowhere
    cases points.symm.trans nowhere
  · rename_i v found
    obtain rfl : s = v := Option.some.inj (points.symm.trans found)
    rfl

end Myio.Xev.Io
