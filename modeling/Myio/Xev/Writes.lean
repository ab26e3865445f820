import Myio.Xev.Wired

/-! Writes enter, pass through and leave the FIFO of their socket. -/

namespace Myio.Xev.Io

open Function (update)

variable {io : Io} {skip : Option SockId} {t : TaskId} {s : SockId} {r : Result → Result}

namespace Wired

/-- A write that is not done points at the socket it was submitted on. -/
theorem points_of_pends (wired : Wired skip io) (pends : io.pends s t = true) :
    (io.task t).sock = some s := by
  obtain ⟨isWrite, isOpen, on⟩ := pends_iff.mp pends
  rw [(wired.tasks t).aimed isWrite, isOpen, on]
  rfl

/-- A write that points at a socket is one of those pending there. -/
theorem pends_of_points (wired : Wired skip io) (isWrite : (io.task t).kind = .sockWrite)
    (points : (io.task t).sock = some s) : io.pends s t = true := by
  have aimed := (wired.tasks t).aimed isWrite
  rw [points] at aimed
  cases done : (io.task t).done with
  | true => rw [done] at aimed; cases aimed
  | false => rw [done] at aimed; exact pends_iff.mpr ⟨isWrite, done, aimed.symm⟩

/-- The head of a FIFO is the first of the writes that are not done. -/
theorem head_eq (wired : Wired skip io) (used : skip ≠ some s) :
    (io.sock s).writeHead = (io.pend s).head? := (wired.fifo s used).ends.1

theorem inside_sock (wired : Wired skip io) (pends : io.pends s t = true) : s < io.nsock :=
  ((wired.tasks t).points s (wired.points_of_pends pends)).1

theorem member (wired : Wired skip io) (pends : io.pends s t = true) : t ∈ io.pend s :=
  mem_pend.mpr ⟨wired.inside_of_pends pends, pends⟩

end Wired

/-- A write carries no socket in its result. -/
theorem TaskOk.noPtr {k : Task} (fine : TaskOk io t k) (isWrite : k.kind = .sockWrite) :
    k.res.ptr = none := by
  cases ptr : k.res.ptr with
  | none => rfl
  | some s =>
    obtain ⟨_, kind⟩ := fine.won s ptr
    rw [isWrite] at kind
    rcases kind with kind | kind <;> cases kind

/-- A task without a socket in its result discards none. -/
theorem discarded_of_noPtr (ptr : (io.task t).res.ptr = none) : io.discarded t = io.sock := by
  unfold discarded
  rw [ptr]
  cases (io.task t).detached <;> rfl

/-- The head of a FIFO has its send on the loop. -/
theorem startHead_eq (io : Io) (s : SockId) :
    io.startHead s = { io with task := fun u => if (io.sock s).writeHead = some u
      then { io.task u with c := true, slice := (io.task u).wbuf } else io.task u } := by
  unfold startHead
  cases head : (io.sock s).writeHead with
  | none => simp
  | some h =>
    simp only [writeStart, modTask, Option.some.injEq]
    congr 1
    funext u
    rw [Function.update_apply]
    by_cases same : u = h
    · subst same; simp
    · rw [if_neg same, if_neg (Ne.symm same)]

/-- A write that is done, out of its FIFO. -/
theorem TaskOk.settledWrite {k : Task} (fine : TaskOk io t k) (isWrite : k.kind = .sockWrite)
    (keeps : Result.Keeps r) (c : Bool) (next : Option TaskId) (slice : List UInt8)
    (on : ∃ s, k.on = some s ∧ s < io.nsock) :
    TaskOk io t (settled r { k with sock := none, wnext := next, c := c, slice := slice }) := by
  have ptr := fine.noPtr isWrite
  refine .write isWrite rfl (by intros; contradiction) ?_ ?_ (fun _ => rfl) fun _ => on
  · simp only [settled]
    split
    · rfl
    · rw [keeps, ptr]
  · by_contra async
    have kind := (fine.pooled (by simpa [settled] using async)).1
    rw [isWrite] at kind
    cases kind

/-! ### The end of a head -/

/-- The instance after the head of a FIFO has ended and the next write has been handed to the loop. -/
def headEnded (io : Io) (s : SockId) (t : TaskId) (r : Result → Result) : Io :=
  { io with
    task := fun u =>
      if u = t then settled r { io.task t with c := false, sock := none, wnext := none }
      else if (io.task t).wnext = some u then { io.task u with c := true, slice := (io.task u).wbuf }
      else io.task u
    sock := update io.sock s { io.sock s with
      writeHead := (io.task t).wnext
      writeTail := if (io.task t).wnext.isNone then none else (io.sock s).writeTail }
    ncompleted := io.ncompleted + 1
    reap := if (io.task t).detached then t :: io.reap else io.reap }

theorem popHead_settle (keeps : Result.Keeps r) (points : (io.task t).sock = some s)
    (head : (io.sock s).writeHead = some t) (apart : (io.task t).wnext ≠ some t)
    (ptr : (io.task t).res.ptr = none) :
    ((io.disarm t).writePopHead t).settle t r = io.headEnded s t r := by
  have pointsD : ((io.disarm t).task t).sock = some s := by simpa [disarm] using points
  have chain : (io.disarm t).chain s = io.chain s := by
    simp only [Io.chain, disarm, modTask_task, modTask_sock, Machine.Chain.mk.injEq, true_and]
    funext u
    rw [Function.update_apply]
    split
    · rename_i same; rw [same]
    · rfl
  have popped : (io.chain s).pop.head = (io.task t).wnext ∧ (io.chain s).pop.next t = none := by
    simp [Machine.Chain.pop, Io.chain, head]
  have next : ∀ u, u ≠ t → (io.chain s).pop.next u = (io.task u).wnext := by
    intro u other
    exact Machine.Chain.pop_next _ fun same => other (Option.some.inj (head.symm.trans same)).symm
  rw [writePopHead_eq pointsD (by simpa [disarm] using head), chain, startHead_eq, settle_eq keeps]
  have own : ((((io.disarm t).modTask t ({ · with sock := none })).relink s (io.chain s).pop).sock s).writeHead
      = (io.task t).wnext := by simp [relink, popped]
  simp only [own]
  refine eq_of_tables ?_ (fun u => ?_) fun v => ?_
  · simp [headEnded, apart, relink, disarm, modTask]
  · by_cases same : u = t
    · subst same
      simp [headEnded, apart, relink, disarm, popped]
    · simp only [headEnded, Function.update_of_ne same, if_neg same]
      split <;> simp [relink, disarm, Function.update_of_ne same, next u same]
  · rw [discarded_of_noPtr (by simpa [apart, relink, disarm] using ptr)]
    simp [headEnded, relink, disarm, popped, Io.chain, Machine.Chain.pop, head]

namespace Wired

/-- The head of a FIFO ends, and the next write is the only one on the loop. -/
theorem headEnded (wired : Wired none io) (keeps : Result.Keeps r) (pends : io.pends s t = true)
    (head : (io.sock s).writeHead = some t) : Wired none (io.headEnded s t r) := by
  have holds := wired.fifo s (by simp)
  obtain ⟨isWrite, isOpen, on⟩ := pends_iff.mp pends
  have fine := wired.tasks t
  have first : (io.pend s).head? = some t := by rw [← wired.head_eq (by simp)]; exact head
  generalize isR : io.headEnded s t r = w
  have taskW : ∀ u, w.task u =
      if u = t then settled r { io.task t with c := false, sock := none, wnext := none }
      else if (io.task t).wnext = some u then { io.task u with c := true, slice := (io.task u).wbuf }
      else io.task u := by
    intro u; rw [← isR]; rfl
  have sockW : w.sock = update io.sock s { io.sock s with
      writeHead := (io.task t).wnext
      writeTail := if (io.task t).wnext.isNone then none else (io.sock s).writeTail } := by
    rw [← isR]; rfl
  have pendsW : ∀ u, u ≠ t → w.pends s u = io.pends s u := by
    intro u other
    simp only [Io.pends, taskW, if_neg other]
    split <;> rfl
  have endedW : w.pends s t = false := by simp [Io.pends, taskW, settled]
  have pendW : w.pend s = (io.pend s).tail := by
    have erased : w.pend s = (io.pend s).erase t := by
      rw [Io.pend, Io.pend, show w.ntask = io.ntask by rw [← isR]; rfl]
      exact Machine.select_erase (fun u _ other => pendsW u other) endedW
    rw [erased]
    cases members : io.pend s with
    | nil => rfl
    | cons m rest => rw [members] at first; cases first; simp
  -- The write after the head is pending too.
  have next : ∀ h, (io.task t).wnext = some h → h ≠ t ∧ io.pends s h = true := by
    intro h link
    have nextHead : (io.chain s).pop.head = (io.pend s).tail.head? := holds.pop.ends.1
    simp only [Machine.Chain.pop, Io.chain, head, link] at nextHead
    have member : h ∈ (io.pend s).tail := List.mem_of_mem_head? nextHead.symm
    refine ⟨?_, (mem_pend.mp (List.mem_of_mem_tail member)).2⟩
    rintro rfl
    cases members : io.pend s with
    | nil => rw [members] at first; cases first
    | cons m rest =>
      rw [members] at first member
      cases first
      have nodup := holds.nodup
      rw [members] at nodup
      exact (List.nodup_cons.mp nodup).1 member
  refine wired.refile (wired.inside_sock pends) (fun _ _ => id) (fun u => ?_) (by rw [← isR]; rfl)
    (by rw [← isR]; rfl) (fun x other => ?_) ?_ (fun _ => ?_) fun _ u pendsU => ?_
  · rw [taskW]
    split
    · rename_i same
      subst same
      exact .inr ⟨isWrite, on, fine.settledWrite isWrite keeps false none _ ⟨s, on, wired.inside_sock pends⟩, isWrite, .inr on⟩
    · split
      · rename_i other link
        obtain ⟨isWriteU, isOpenU, onU⟩ := pends_iff.mp (next u link).2
        have fineU := wired.tasks u
        refine .inr ⟨isWriteU, onU, ?_, isWriteU, .inr onU⟩
        refine .write isWriteU (fineU.aimed isWriteU) (fun x points => (fineU.points x points).1)
          (fineU.noPtr isWriteU) ?_ (fun canceling => fineU.canceling canceling isWriteU) fun _ =>
            ⟨s, onU, wired.inside_sock pends⟩
        by_contra async
        have kind := (fineU.pooled (by simpa using async)).1
        rw [isWriteU] at kind
        cases kind
      · exact .inl rfl
  · rw [sockW, Function.update_of_ne other]
  · rw [sockW]; simp
  · rw [pendW]
    refine holds.pop.congr ?_ ?_ fun u member => ?_
    · simp [Io.chain, sockW, Machine.Chain.pop, head]
    · simp [Io.chain, sockW, Machine.Chain.pop, head]
    · have other : u ≠ t := by
        rintro rfl
        rw [← pendW, mem_pend, endedW] at member
        cases member.2
      rw [Machine.Chain.pop_next _ fun same => other (Option.some.inj (head.symm.trans same)).symm]
      simp only [Io.chain, taskW, if_neg other]
      split <;> rfl
  · have other : u ≠ t := by
      rintro rfl
      rw [endedW] at pendsU
      cases pendsU
    have wasIdle : (io.task u).c = false := by
      by_contra active
      have isHead := (wired.armed s u (by rw [← pendsW u other]; exact pendsU) (by simp)).mp (by simpa using active)
      exact other (Option.some.inj (head.symm.trans isHead)).symm
    rw [taskW, if_neg other, sockW, Function.update_self]
    split
    · rename_i link; simp [link]
    · rename_i link; simp [wasIdle, link]

/-! ### The end of a queued write -/

/-- A write is taken out of its FIFO wherever it stands and ends. -/
theorem removed (wired : Wired none io) (keeps : Result.Keeps r) (pends : io.pends s t = true)
    (queued : (io.sock s).writeHead ≠ some t) :
    Wired none (((io.writeListRemove s t).modTask t ({ · with sock := none })).settle t r) := by
  have holds := wired.fifo s (by simp)
  obtain ⟨isWrite, isOpen, on⟩ := pends_iff.mp pends
  have fine := wired.tasks t
  generalize isQ : (io.chain s).remove io.ntask t = q
  have fileds : q.Holds ((io.pend s).erase t) := by
    rw [← isQ]
    exact holds.remove t (Machine.select_length_le _ _)
  have outside : ∀ u, u ∉ io.pend s → q.next u = (io.task u).wnext := by
    intro u out; rw [← isQ]; exact holds.remove_next t io.ntask out
  have settles := settle_eq (t := t) keeps
    ((io.writeListRemove s t).modTask t ({ · with sock := none }))
  rw [settles]
  have noPtr : (((io.writeListRemove s t).modTask t ({ · with sock := none })).task t).res.ptr = none := by
    rw [writeListRemove_eq]; simpa [relink] using fine.noPtr isWrite
  rw [discarded_of_noPtr noPtr, writeListRemove_eq, isQ]
  generalize isR : ({ (io.relink s q).modTask t ({ · with sock := none }) with
    task := _, sock := _, ncompleted := _, reap := _ } : Io) = w
  have taskW : ∀ u, w.task u = if u = t
      then settled r { io.task t with sock := none, wnext := q.next t }
      else { io.task u with wnext := q.next u } := by
    intro u
    rw [← isR]
    by_cases same : u = t
    · subst same; simp [relink]
    · simp [Function.update_of_ne same, relink, same]
  have sockW : w.sock = update io.sock s { io.sock s with writeHead := q.head, writeTail := q.tail } := by
    rw [← isR]; simp [relink]
  have pendsW : ∀ u, u ≠ t → w.pends s u = io.pends s u := by
    intro u other
    simp only [Io.pends, taskW, if_neg other]
  have endedW : w.pends s t = false := by simp [Io.pends, taskW, settled]
  have pendW : w.pend s = (io.pend s).erase t := by
    rw [Io.pend, Io.pend, show w.ntask = io.ntask by rw [← isR]; rfl]
    exact Machine.select_erase (fun u _ other => pendsW u other) endedW
  refine wired.refile (wired.inside_sock pends) (fun _ _ => id) (fun u => ?_) (by rw [← isR]; rfl)
    (by rw [← isR]; rfl) (fun x other => ?_) ?_ (fun _ => ?_) fun _ u pendsU => ?_
  · rw [taskW]
    split
    · rename_i same
      subst same
      exact .inr ⟨isWrite, on, fine.settledWrite isWrite keeps _ _ _ ⟨s, on, wired.inside_sock pends⟩, isWrite, .inr on⟩
    · by_cases member : u ∈ io.pend s
      · obtain ⟨isWriteU, isOpenU, onU⟩ := pends_iff.mp (mem_pend.mp member).2
        have fineU := wired.tasks u
        exact .inr ⟨isWriteU, onU, ⟨fineU.aimed, fineU.closing, fineU.closingFile, fineU.connecting, fineU.undone,
          fineU.points, fineU.won, fineU.pooled, fineU.canceling, fineU.sends⟩, isWriteU, .inr onU⟩
      · rw [outside u member]; exact .inl rfl
  · rw [sockW, Function.update_of_ne other]
  · rw [sockW]; simp
  · rw [pendW]
    refine fileds.congr (by simp [Io.chain, sockW]) (by simp [Io.chain, sockW]) fun u _ => ?_
    simp only [Io.chain, taskW]
    split
    · rename_i same; rw [same]; rfl
    · rfl
  · -- The head is not the one that leaves, so it stays the head.
    have other : u ≠ t := by
      rintro rfl
      rw [endedW] at pendsU
      cases pendsU
    have before := wired.armed s u (by rw [← pendsW u other]; exact pendsU) (by simp)
    have stays : q.head = (io.sock s).writeHead := by
      rw [fileds.ends.1, wired.head_eq (by simp)]
      cases members : io.pend s with
      | nil => rfl
      | cons m rest =>
        have first : (io.sock s).writeHead = some m := by rw [wired.head_eq (by simp), members]; rfl
        have apart : m ≠ t := fun same => queued (by rw [first, same])
        rw [List.erase_cons_tail (by simpa using apart)]
        rfl
    rw [taskW, if_neg other, sockW, Function.update_self, stays]
    exact before

/-! ### Submission -/

/-- `implSockWrite` appends to the FIFO, and only a write that becomes the head is sent. -/
theorem implSockWrite (wired : Wired none io) (inside : s < io.nsock) (buf : List UInt8) :
    Wired none (io.implSockWrite s buf) := by
  have made := wired.taskNew .sockWrite
  have new : (io.taskNew .sockWrite).task io.ntask = { kind := .sockWrite } := by
    simp [Io.taskNew]
  generalize isMade : io.taskNew .sockWrite = v at made new
  have ntask : v.ntask = io.ntask + 1 := by rw [← isMade]; rfl
  have nsock : v.nsock = io.nsock := by rw [← isMade]; rfl
  generalize isT : io.ntask = t at new ntask
  have holds := made.fifo s (by simp)
  have absent : t ∉ v.pend s := by
    intro member
    have on := (pends_iff.mp (mem_pend.mp member).2).2.2
    rw [new] at on
    cases on
  -- The state in closed form: the new write is filled in and linked behind the tail.
  generalize isQ : (v.chain s).push t = q
  let k : Task := { kind := .sockWrite, sock := some s, on := some s, wbuf := buf, wnext := q.next t
                    c := (v.sock s).writeTail.isNone
                    slice := if (v.sock s).writeTail.isNone then buf else [] }
  have result : io.implSockWrite s buf = { v with
      task := update (fun u => { v.task u with wnext := q.next u }) t k
      sock := update v.sock s { v.sock s with writeHead := q.head, writeTail := q.tail } } := by
    have chain : (v.modTask t ({ · with sock := some s, on := some s, wbuf := buf })).chain s = v.chain s := by
      simp only [Io.chain, modTask_task, modTask_sock, Machine.Chain.mk.injEq, true_and]
      funext u
      rw [Function.update_apply]
      split
      · rename_i same; rw [same]
      · rfl
    unfold Io.implSockWrite
    simp only [isMade, isT]
    rw [writePush_eq, chain, isQ]
    simp only [modTask_sock]
    cases tail : (v.sock s).writeTail with
    | none =>
      refine eq_of_tables rfl (fun u => ?_) fun _ => rfl
      by_cases same : u = t
      · subst same; simp [writeStart, Io.modTask, relink, new, k, tail]
      · simp [writeStart, Io.modTask, relink, Function.update_apply, same]
    | some last =>
      refine eq_of_tables rfl (fun u => ?_) fun _ => rfl
      by_cases same : u = t
      · subst same; simp [relink, new, k, tail]
      · simp [relink, Function.update_apply, same]
  have next : ∀ u, u ≠ t → v.pends s u = false → q.next u = (v.task u).wnext := by
    intro u other out
    rw [← isQ]
    refine Machine.Chain.push_next _ other fun last => ?_
    have member : u ∈ v.pend s := List.mem_of_mem_getLast? (holds.tail ▸ last)
    rw [(mem_pend.mp member).2] at out
    cases out
  rw [result]
  generalize isR : ({ v with task := _, sock := _ } : Io) = w
  have taskW : ∀ u, w.task u = if u = t then k else { v.task u with wnext := q.next u } := by
    intro u; rw [← isR]; simp only [Function.update_apply]
  have sockW : w.sock = update v.sock s { v.sock s with writeHead := q.head, writeTail := q.tail } := by
    rw [← isR]
  have pendsW : ∀ u, w.pends s u = (v.pends s u || decide (u = t)) := by
    intro u
    by_cases same : u = t
    · simp [pends, taskW, same, k]
    · simp [pends, taskW, same]
  have pendW : w.pend s = v.pend s ++ [t] := by
    have bound : w.ntask = t + 1 := by rw [← isR]; exact ntask
    rw [Io.pend, Io.pend, bound, ntask, Machine.select_succ, Machine.select_succ, pendsW]
    have old : v.pends s t = false := by simp [pends, new]
    have older : Machine.select (w.pends s) t = Machine.select (v.pends s) t :=
      Machine.select_congr fun u below => (pendsW u).trans (by simp [Nat.ne_of_lt below])
    simp [older, old]
  have newHolds : (w.chain s).Holds (w.pend s) := by
    rw [pendW]
    refine (holds.push absent).congr ?_ ?_ fun u _ => ?_
    · simp [Io.chain, sockW, ← isQ]
    · simp [Io.chain, sockW, ← isQ]
    · simp only [Io.chain, taskW]
      split
      · rename_i same; simp [k, same, ← isQ, Io.chain]
      · simp [← isQ, Io.chain]
  refine made.refile (by rw [nsock]; exact inside) (fun _ _ => id) (fun u => ?_) (by rw [← isR])
    (by rw [← isR]) (fun x other => ?_) ?_ (fun _ => newHolds) fun _ u pendsU => ?_
  · rw [taskW]
    split
    · rename_i same
      subst same
      refine .inr ⟨rfl, rfl, .write rfl rfl ?_ rfl rfl (by intros; contradiction)
        fun _ => ⟨s, rfl, nsock.symm ▸ inside⟩, by rw [new], .inl (by rw [new])⟩
      intro x points
      cases points
      rw [nsock]; exact inside
    · rename_i other
      cases out : v.pends s u with
      | false => rw [next u other out]; exact .inl rfl
      | true =>
        obtain ⟨isWrite, isOpen, on⟩ := pends_iff.mp out
        have fine := made.tasks u
        refine .inr ⟨isWrite, on, ?_, isWrite, .inr on⟩
        exact ⟨fine.aimed, fine.closing, fine.closingFile, fine.connecting, fine.undone, fine.points, fine.won,
          fine.pooled, fine.canceling, fine.sends⟩
  · rw [sockW, Function.update_of_ne other]
  · rw [sockW]; simp
  · -- Either the FIFO was empty and the new write is its head, or its head stays.
    have head : (w.sock s).writeHead = q.head := by rw [sockW]; simp
    rw [head, taskW]
    cases tail : (v.sock s).writeTail with
    | none =>
      have empty : v.pend s = [] := by
        have last := holds.tail
        simp only [Io.chain, tail] at last
        exact List.getLast?_eq_none_iff.mp last.symm
      have isNew : u = t := by
        rw [pendsW] at pendsU
        by_contra other
        have member : u ∈ v.pend s := made.member (by simpa [other] using pendsU)
        rw [empty] at member; cases member
      subst isNew
      simp [k, tail, ← isQ, Machine.Chain.push, Io.chain]
    | some last =>
      have stays : q.head = (v.sock s).writeHead := by
        simp [← isQ, Machine.Chain.push, Io.chain, tail]
      rw [stays]
      split
      · rename_i same
        subst same
        simp only [k, tail, Option.isNone_some, Bool.false_eq_true, false_iff]
        intro headed
        rw [made.head_eq (by simp)] at headed
        exact absent (List.mem_of_mem_head? headed)
      · rename_i other
        rw [pendsW] at pendsU
        exact made.armed s u (by simpa [other] using pendsU) (by simp)

end Wired

/-! ### The FIFO of a socket that is closed -/

/-- The loop of `implSockClose` over the members of the FIFO. -/
def dropEach (io : Io) : List TaskId → Io
  | [] => io
  | w :: rest => dropEach ((io.modTask w ({ · with wnext := none, sock := none })).completeCanceled w) rest

/-- The links one round of the loop leaves. -/
theorem dropped_wnext (io : Io) (w u : TaskId) (other : u ≠ w) :
    (((io.modTask w ({ · with wnext := none, sock := none })).completeCanceled w).task u) = io.task u := by
  rw [completeCanceled_eq, settle_eq asCanceled_keeps]
  simp [Function.update_of_ne other]

/-- The loop follows the links, and each round changes only the links behind it. -/
theorem dropWrites_eq : ∀ (l : List TaskId) (io : Io) (fuel : Nat) (first : Option TaskId),
    Machine.Chain.Seg (fun u => (io.task u).wnext) first l none → l.Nodup → l.length ≤ fuel →
      io.dropWrites fuel first = io.dropEach l := by
  intro l
  induction l with
  | nil =>
    intro io fuel first links _ _
    cases fuel with
    | zero => rfl
    | succ fuel => rw [show first = none from links]; rfl
  | cons w rest ih =>
    intro io fuel first links nodup enough
    obtain ⟨rfl, links⟩ := links
    obtain ⟨outside, nodup⟩ := List.nodup_cons.mp nodup
    cases fuel with
    | zero => cases enough
    | succ fuel =>
      refine ih _ fuel _ (links.congr fun u member => ?_) nodup (Nat.le_of_succ_le_succ enough)
      rw [dropped_wnext io w u fun same => outside (same ▸ member)]

/-- A write the loop has been through. -/
def dropped (k : Task) : Task := settled asCanceled { k with wnext := none, sock := none }

/-- What the loop leaves of the tasks. -/
theorem dropEach_task : ∀ (l : List TaskId) (io : Io), l.Nodup → ∀ u,
    (io.dropEach l).task u = if u ∈ l then dropped (io.task u) else io.task u := by
  intro l
  induction l with
  | nil => intro io _ u; rfl
  | cons w rest ih =>
    intro io nodup u
    obtain ⟨outside, nodup⟩ := List.nodup_cons.mp nodup
    rw [dropEach, ih _ nodup u]
    by_cases same : u = w
    · subst same
      rw [if_neg outside, if_pos List.mem_cons_self, completeCanceled_eq, settle_eq asCanceled_keeps]
      simp [dropped]
    · rw [dropped_wnext io w u same]
      simp [same]

/-- The loop changes no socket, since a write has won none. -/
theorem dropEach_sock : ∀ (l : List TaskId) (io : Io), l.Nodup → (∀ w ∈ l, (io.task w).res.ptr = none) →
    (io.dropEach l).sock = io.sock ∧ (io.dropEach l).ntask = io.ntask ∧
      (io.dropEach l).nsock = io.nsock := by
  intro l
  induction l with
  | nil => intro io _ _; exact ⟨rfl, rfl, rfl⟩
  | cons w rest ih =>
    intro io nodup ptr
    obtain ⟨outside, nodup⟩ := List.nodup_cons.mp nodup
    have noPtr : ((io.modTask w ({ · with wnext := none, sock := none })).task w).res.ptr = none := by
      simpa using ptr w (by simp)
    obtain ⟨sock, ntask, nsock⟩ :=
      ih ((io.modTask w ({ · with wnext := none, sock := none })).completeCanceled w) nodup
        fun u member => by
          rw [dropped_wnext io w u fun same => outside (same ▸ member)]
          exact ptr u (by simp [member])
    rw [dropEach, sock, ntask, nsock, completeCanceled_eq, settle_eq asCanceled_keeps,
      discarded_of_noPtr noPtr]
    exact ⟨rfl, rfl, rfl⟩

namespace Wired

/-- A write leaves a FIFO that is being dismantled. -/
theorem drop (wired : Wired (some s) io) (keeps : Result.Keeps r) (pends : io.pends s t = true) :
    Wired (some s) ((io.modTask t ({ · with wnext := none, sock := none })).settle t r) := by
  obtain ⟨isWrite, isOpen, on⟩ := pends_iff.mp pends
  have fine := wired.tasks t
  have noPtr : ((io.modTask t ({ · with wnext := none, sock := none })).task t).res.ptr = none := by
    simpa using fine.noPtr isWrite
  rw [settle_eq keeps, discarded_of_noPtr noPtr]
  refine wired.refile (wired.inside_sock pends) (fun _ _ => id) (fun u => ?_) rfl rfl (fun _ _ => rfl)
    rfl (fun used => absurd rfl used) fun used => absurd rfl used
  by_cases same : u = t
  · subst same
    refine .inr ?_
    simp only [modTask_task, Function.update_self]
    exact ⟨isWrite, on, fine.settledWrite isWrite keeps _ none _ ⟨s, on, wired.inside_sock pends⟩, isWrite, .inr on⟩
  · left
    simp only [modTask_task, Function.update_of_ne same]

theorem dropEach (l : List TaskId) : ∀ {io : Io}, Wired (some s) io → l.Nodup →
    (∀ w ∈ l, io.pends s w = true) → Wired (some s) (io.dropEach l) := by
  induction l with
  | nil => intro io wired _ _; exact wired
  | cons w rest ih =>
    intro io wired nodup pending
    obtain ⟨outside, nodup⟩ := List.nodup_cons.mp nodup
    refine ih (wired.drop asCanceled_keeps (pending w (by simp))) nodup fun u member => ?_
    have other : u ≠ w := fun same => outside (same ▸ member)
    simp only [pends]
    rw [dropped_wnext io w u other]
    exact pending u (by simp [member])

/-- A cancel is asked for; a write must be done already. -/
theorem submitCancel (wired : Wired skip io) (inside : t < io.ntask)
    (ended : (io.task t).kind = .sockWrite → (io.task t).done = true) :
    Wired skip (io.submitCancel t) := by
  have fine := wired.tasks t
  unfold Io.submitCancel
  split
  · exact wired
  · split
    · refine wired.rework inside (fun s => ?_) rfl ?_
      · cases pending : io.pends s t with
        | false => rfl
        | true =>
          obtain ⟨isWrite, isOpen, _⟩ := pends_iff.mp pending
          rw [ended isWrite] at isOpen
          cases isOpen
      · exact { fine with canceling := fun _ isWrite => ended isWrite }
    · exact wired

/-- The loop of `implSockClose` reaches every write of the FIFO. -/
theorem cancelWrites_eq (wired : Wired none io) {h : TaskId} (head : (io.sock s).writeHead = some h) :
    io.cancelWrites s = ((io.dropEach (io.pend s)).modSock s
      ({ · with writeHead := none, writeTail := none })).submitCancel h := by
  have holds := wired.fifo s (by simp)
  have links := holds.links
  simp only [chain, head] at links
  unfold Io.cancelWrites
  rw [head]
  dsimp only
  rw [dropWrites_eq (io.pend s) io io.ntask (some h) links holds.nodup (Machine.select_length_le _ _)]

/-- The FIFO of a socket that is closed is emptied. -/
theorem cancelWrites (wired : Wired none io) (inside : s < io.nsock) : Wired none (io.cancelWrites s) := by
  cases head : (io.sock s).writeHead with
  | none => rw [Io.cancelWrites, head]; exact wired
  | some h =>
    have holds := wired.fifo s (by simp)
    have pending : ∀ w ∈ io.pend s, io.pends s w = true := fun w member => (mem_pend.mp member).2
    have first : h ∈ io.pend s := List.mem_of_mem_head? (by rw [← wired.head_eq (by simp)]; exact head)
    have dropping := dropEach (io.pend s) (wired.skipping s) holds.nodup pending
    have tasks := dropEach_task (io.pend s) io holds.nodup
    obtain ⟨sock, ntask, nsock⟩ := dropEach_sock (io.pend s) io holds.nodup fun w member =>
      (wired.tasks w).noPtr (pends_iff.mp (pending w member)).1
    have empty : ∀ u, (io.dropEach (io.pend s)).pends s u = false := by
      intro u
      simp only [pends, tasks]
      split
      · simp [dropped, settled]
      · rename_i out
        cases pends : io.pends s u with
        | false => exact pends
        | true => exact absurd (wired.member pends) out
    rw [wired.cancelWrites_eq head]
    generalize io.dropEach (io.pend s) = v at dropping tasks sock ntask nsock empty
    have cleared : Wired none (v.modSock s ({ · with writeHead := none, writeTail := none })) := by
      refine dropping.refile (by rw [nsock]; exact inside) (fun _ other _ same => other (Option.some.inj same).symm)
        (fun _ => .inl rfl) rfl rfl (fun x other => ?_) ?_ (fun _ => ?_) fun _ u pends => ?_
      · rw [modSock_sock, Function.update_of_ne other]
      · simp
      · have noneLeft : (v.modSock s ({ · with writeHead := none, writeTail := none })).pend s = [] := by
          rw [List.eq_nil_iff_forall_not_mem]
          intro u member
          have pends : v.pends s u = true := (mem_pend.mp member).2
          rw [empty u] at pends
          cases pends
        rw [noneLeft]
        refine ⟨?_, ?_, List.nodup_nil⟩ <;> simp [chain, Machine.Chain.Seg]
      · have still : v.pends s u = true := pends
        rw [empty u] at still
        cases still
    refine cleared.submitCancel (ntask.symm ▸ wired.inside_of_pends (pending h first)) fun _ => ?_
    rw [modSock_task, tasks, if_pos first]
    rfl

end Wired

end Myio.Xev.Io
