import Myio.Uring.Runs

/-! An operation stays on the ring until its own completion, and a write that was cut short stays so. -/

namespace Myio.Loop

open Function (update)
open Loop.Core

namespace UringIo

variable {c c' c'' : Core} {t v : TaskId} {s : SockId} {u u' u'' : UringIo}

/-! ### Code that takes nothing off the ring -/

/-- A task that is on the ring stays there, sends nothing, is not unmarked, and keeps or loses its socket. -/
structure Stays (t : TaskId) (c c' : Core) : Prop where
  armed : t ∈ c.armed → t ∈ c'.armed
  sock : (c'.task t).sock = none ∨ (c'.task t).sock = (c.task t).sock
  wcanceled : (c.task t).wcanceled = true → (c'.task t).wcanceled = true
  off : (c'.task t).off = (c.task t).off

namespace Stays

theorem refl (c : Core) : Stays t c c := ⟨id, .inr rfl, id, rfl⟩

theorem trans (first : Stays t c c') (second : Stays t c' c'') : Stays t c c'' where
  armed there := second.armed (first.armed there)
  sock := second.sock.elim .inl fun same => first.sock.imp same.trans same.trans
  wcanceled marked := second.wcanceled (first.wcanceled marked)
  off := second.off.trans first.off

/-- A change of neither the ring nor the task. -/
theorem same (armed : c'.armed = c.armed) (task : c'.task t = c.task t) : Stays t c c' :=
  ⟨by rw [armed]; exact id, .inr (by rw [task]), by rw [task]; exact id, by rw [task]⟩

theorem modSock (s : SockId) (f : Sock → Sock) : Stays t c (c.modSock s f) := same rfl rfl

theorem sockRelease (s : SockId) : Stays t c (c.sockRelease s) := same rfl rfl

/-- A field of another task is written. -/
theorem other (apart : v ≠ t) (f : Task → Task) : Stays t c (c.modTask v f) :=
  same rfl (by simp [modTask, Ne.symm apart])

/-- A field that the relation does not read is written, or the socket forgotten. -/
theorem modTask (v : TaskId) (f : Task → Task)
    (sock : (f (c.task v)).sock = none ∨ (f (c.task v)).sock = (c.task v).sock)
    (wcanceled : (c.task v).wcanceled = true → (f (c.task v)).wcanceled = true)
    (off : (f (c.task v)).off = (c.task v).off) : Stays t c (c.modTask v f) := by
  -- For another task nothing is read of the change.
  by_cases same : v = t
  · subst same
    have here : (c.modTask v f).task v = f (c.task v) := by simp [Core.modTask]
    refine ⟨id, by rw [here]; exact sock, fun marked => ?_, by rw [here, off]⟩
    · rw [here]; exact wcanceled marked
  · exact other same f

theorem sever (v : TaskId) : Stays t c (c.modTask v ({ · with sock := none })) :=
  modTask v _ (.inl rfl) id rfl

theorem finish (v : TaskId) (res : Result) : Stays t c (c.finish v res) := modTask v _ (.inr rfl) id rfl

theorem freeMem (v : TaskId) : Stays t c (c.freeMem v) := modTask v _ (.inr rfl) id rfl

theorem taskReap (v : TaskId) : Stays t c (c.taskReap v) := by
  unfold Core.taskReap
  split
  · exact (sockRelease _).trans (freeMem v)
  · exact freeMem v

theorem taskFinish (v : TaskId) (res : Result) : Stays t c (taskFinish c v res) := by
  -- The end of a task, and of its memory when it is detached.
  unfold UringIo.taskFinish reapIfDetached
  split
  · exact (finish v res).trans (taskReap v)
  · exact finish v res

theorem taskComplete (v : TaskId) (res : Int) : Stays t c (taskComplete c v res) := taskFinish v _

theorem writeDrop (s : SockId) (n : TaskId) (res : Int) : Stays t c (writeDrop c s n res) :=
  ((modSock s _).trans (sever n)).trans (taskComplete n res)

theorem clearAccept (v : TaskId) : Stays t c (clearAccept c v) := by
  unfold UringIo.clearAccept
  split
  · split
    · exact modSock _ _
    · exact refl c
  · exact refl c

theorem clearRead (v : TaskId) : Stays t c (clearRead c v) := by
  unfold UringIo.clearRead
  split
  · split
    · exact modSock _ _
    · exact refl c
  · exact refl c

theorem dispatchConnect (v : TaskId) (res : Int) : Stays t c (dispatchConnect c v res) := by
  -- Connected, refused with its socket released, or refused without one.
  unfold UringIo.dispatchConnect
  dsimp only
  split
  · exact (sever v).trans (taskFinish v _)
  · split
    · exact ((sockRelease _).trans (sever v)).trans (taskComplete v res)
    · exact (sever v).trans (taskComplete v res)

theorem dispatchAccept (v : TaskId) (res : Int) : Stays t c (dispatchAccept c v res) := by
  have unwraps : ∀ d : Core, Stays t d (d.modTask v ({ · with newsock := none })) := fun d =>
    modTask v _ (.inr rfl) id rfl
  -- A connection that was won needs a descriptor; both ways the slot is emptied first.
  unfold UringIo.dispatchAccept
  dsimp only
  split
  · have opened : Stays t c (UringIo.clearAccept c v).newDesc := (clearAccept v).trans (same rfl rfl)
    split
    · exact ((opened.trans (modSock _ _)).trans (unwraps _)).trans (taskFinish v _)
    · exact (opened.trans (unwraps _)).trans (taskFinish v _)
  · split
    · exact (((clearAccept v).trans (sockRelease _)).trans (unwraps _)).trans
        (taskComplete v res)
    · exact ((clearAccept v).trans (unwraps _)).trans (taskComplete v res)

theorem dispatchClose (v : TaskId) (res : Int) : Stays t c (dispatchClose c v res) := by
  -- The close lets go of its socket, and releases it.
  unfold UringIo.dispatchClose
  dsimp only
  split
  · exact ((sever v).trans (sockRelease _)).trans (taskComplete v res)
  · exact (sever v).trans (taskComplete v res)

theorem dropQueued (s : SockId) (l : List TaskId) : ∀ {c : Core}, Stays t c (dropQueued c s l) := by
  induction l with
  | nil => intro c; exact refl c
  | cons q rest ih => intro c; exact (writeDrop s q _).trans ih

theorem dismantle (s : SockId) : Stays t c (dismantle c s) := by
  -- The head is cut off, and the writes behind it end.
  unfold UringIo.dismantle
  split
  · exact refl c
  · exact ((sever _).trans (modSock _ _)).trans (dropQueued s _)

theorem dismantleAll (l : List SockId) : ∀ {c : Core}, Stays t c (dismantleAll c l) := by
  induction l with
  | nil => intro c; exact refl c
  | cons s rest ih => intro c; exact (dismantle s).trans ih

theorem unread (s : SockId) : Stays t c (unread c s) := by
  unfold UringIo.unread
  split
  · exact (sever _).trans (modSock s _)
  · exact refl c

theorem unaccept (s : SockId) : Stays t c (unaccept c s) := by
  unfold UringIo.unaccept
  split
  · exact (sever _).trans (modSock s _)
  · exact refl c

theorem severed (s : SockId) : Stays t c (severed c s) :=
  ((unread s).trans (unaccept s)).trans (dismantle s)

theorem readResult (v : TaskId) : Stays t c (readResult c v) := by
  unfold UringIo.readResult
  split
  · exact same rfl rfl
  · exact refl c

end Stays

/-! ### Completions of other tasks -/

/-- As for the shared part, and no completion is dispatched to the task. -/
def Remains (t : TaskId) (u u' : UringIo) : Prop :=
  Stays t u.toCore u'.toCore ∧ u'.served t = u.served t

namespace Remains

theorem refl (u : UringIo) : Remains t u u := ⟨.refl _, rfl⟩

theorem trans (first : Remains t u u') (second : Remains t u' u'') : Remains t u u'' :=
  ⟨first.1.trans second.1, second.2.trans first.2⟩

theorem on {f : Core → Core} (stays : Stays t u.toCore (f u.toCore)) : Remains t u (u.on f) := ⟨stays, rfl⟩

/-- A change of what is beside the shared part. -/
theorem aside (core : u'.toCore = u.toCore) (served : u'.served = u.served) : Remains t u u' :=
  ⟨by rw [core]; exact .refl _, by rw [served]⟩

theorem «then» {w : UringIo} (remains : Remains t u w) {f : Core → Core}
    (stays : Stays t w.toCore (f w.toCore)) : Remains t u (w.on f) :=
  remains.trans (on stays)

theorem give {w : UringIo} (remains : Remains t u w) (ret : URet) : Remains t u (w.give ret) :=
  remains.trans (aside rfl rfl)

/-- A request for an entry, met or not. -/
theorem tick {w : UringIo} (remains : Remains t u w) : Remains t u { w with tick := w.tick + 1 } :=
  remains.trans (aside rfl rfl)

/-- A new task that fails inside its submission. -/
theorem failed {w : UringIo} (remains : Remains t u w) (n : TaskId) (err : Int) :
    Remains t u (w.on (taskFail · n err)) :=
  remains.then (.finish n _)

theorem sqeFlush (n : TaskId) (len : Nat) : Remains t u (u.sqeFlush n len) :=
  ⟨⟨List.mem_cons_of_mem n, .inr rfl, id, rfl⟩, rfl⟩

theorem flush {w : UringIo} (remains : Remains t u w) (n : TaskId) (len : Nat) :
    Remains t u (w.sqeFlush n len) :=
  remains.trans (sqeFlush n len)

theorem cancelSubmit : Remains t u u.cancelSubmit.1 := by
  rcases cancelSubmit_cases u with got | got <;> rw [got] <;> exact aside rfl rfl

theorem writeArm (n : TaskId) : Remains t u (u.writeArm n).1 := by
  rcases writeArm_cases u n with got | got <;> rw [got]
  · exact (show Remains t u { u with tick := u.tick + 1 } from aside rfl rfl).trans (sqeFlush n _)
  · exact aside rfl rfl

theorem promote (s : SockId) (l : List TaskId) : ∀ {u : UringIo}, Remains t u (u.promote s l) := by
  induction l with
  | nil => exact fun {u} => refl u
  | cons n rest ih =>
    intro u
    have arms := writeArm (t := t) (u := u) n
    unfold UringIo.promote
    rcases writeArm_cases u n with got | got <;> rw [got] at arms ⊢
    · exact arms
    · exact (arms.trans (on (f := (writeDrop · s n (-EAGAIN))) (.writeDrop s n _))).trans ih

theorem writeFinish (v : TaskId) (res : Int) : Remains t u (u.writeFinish v res) := by
  unfold UringIo.writeFinish
  dsimp only
  have severs : Remains t u (u.on (·.modTask v ({ · with sock := none }))) := on (.sever v)
  split
  · exact ((severs.trans (on (f := (·.modSock _ _)) (.modSock _ _))).trans (promote _ _)).trans
      (on (f := (taskComplete · v res)) (.taskComplete v res))
  · exact severs.trans (on (f := (taskComplete · v res)) (.taskComplete v res))

/-- The completion of another write's send. -/
theorem dispatchWrite (apart : v ≠ t) (res : Int) : Remains t u (u.dispatchWrite v res) := by
  unfold UringIo.dispatchWrite
  split
  · exact writeFinish v res
  dsimp only
  have sends : Remains t u (u.on (·.sendBytes v res.toNat)) :=
    on (.same rfl (by rw [sendBytes_task, if_neg (Ne.symm apart)]))
  generalize u.on (·.sendBytes v res.toNat) = p at sends ⊢
  split
  · split
    · exact sends.trans (writeFinish v _)
    · have arms := writeArm (t := t) (u := p) v
      rcases writeArm_cases p v with got | got <;> rw [got] at arms ⊢
      · exact sends.trans arms
      · exact (sends.trans arms).trans (writeFinish v _)
  · exact sends.trans (writeFinish v _)

/-- The completion of another operation. -/
theorem drainOp (apart : v ≠ t) (res : Int) : Remains t u (u.drainOp v res) := by
  have takes : Remains t u (u.taken v) := by
    refine ⟨⟨fun there => ?_, .inr rfl, id, rfl⟩, by simp [UringIo.taken, Ne.symm apart]⟩
    exact (List.mem_erase_of_ne (Ne.symm apart)).mpr there
  rw [drainOp_eq]
  refine takes.trans ?_
  unfold dispatch
  split
  · exact on (f := (UringIo.taskComplete · v _)) (.taskComplete v _)
  · exact on (f := (UringIo.dispatchConnect · v res)) (.dispatchConnect v res)
  · exact on (f := (UringIo.dispatchAccept · v res)) (.dispatchAccept v res)
  · exact on (f := fun c => UringIo.taskComplete (UringIo.clearRead c v) v res) ((Stays.clearRead v).trans (.taskComplete v res))
  · exact dispatchWrite apart res
  · exact on (f := (UringIo.dispatchClose · v res)) (.dispatchClose v res)
  · exact on (f := (UringIo.taskComplete · v res)) (.taskComplete v res)

end Remains

/-! ### Calls -/

section Calls

variable (submitted : t < u.ntask)
include submitted

/-- A new task is none of those submitted before. -/
theorem Remains.taskNew (k : Task) : Remains t u (u.on (·.taskNew k)) :=
  .on (.same rfl (by simp [Core.taskNew, Nat.ne_of_lt submitted]))

theorem Remains.submitPlain (kind : TaskKind) (len : Nat) : Remains t u (u.submitPlain kind len) := by
  have made := Remains.taskNew submitted { kind }
  unfold UringIo.submitPlain
  dsimp only
  rcases sqeGet_cases (u.on (·.taskNew { kind })) with got | got <;> rw [got]
  · exact (made.tick.flush _ len).give _
  · exact (made.tick.failed _ _).give _

theorem Remains.implTcpConnect (mem : Bool) (ans : ConnectAns) : Remains t u (u.implTcpConnect mem ans) := by
  have made := Remains.taskNew submitted { kind := .taskConnect }
  have apart := Nat.ne_of_gt submitted
  unfold UringIo.implTcpConnect
  split
  case isFalse => exact (refl u).give _
  dsimp only
  cases ans with
  | unresolved rc errno => exact (made.failed _ _).give _
  | socket errno => exact (made.failed _ _).give _
  | opened memSock =>
    have opened := made.then (f := (·.newDesc)) (.same rfl rfl)
    dsimp only
    split
    · have wrapped := (opened.then (f := (·.sockNew (some u.ndesc))) (.same rfl rfl)).then
        (f := (·.modTask u.ntask ({ · with sock := some u.nsock }))) (.other apart _)
      rcases sqeGet_cases (((u.on (·.taskNew { kind := .taskConnect })).on (·.newDesc)).on
        (·.sockNew (some u.ndesc)) |>.on (·.modTask u.ntask ({ · with sock := some u.nsock })))
        with got | got
      · refine Remains.give ?_ _
        erw [got]
        exact wrapped.tick.flush _ 0
      · refine Remains.give ?_ _
        erw [got]
        exact ((wrapped.tick.then (.sockRelease _)).then (.sever _)).failed _ _
    · exact ((opened.then (.same rfl rfl)).failed _ _).give _

theorem Remains.implTcpAccept (mem memSock : Bool) (ls : SockId) :
    Remains t u (u.implTcpAccept mem memSock ls) := by
  have made := Remains.taskNew submitted { kind := .taskAccept }
  have apart := Nat.ne_of_gt submitted
  unfold UringIo.implTcpAccept
  split
  case isFalse => exact (refl u).give _
  dsimp only
  refine Remains.give ?_ _
  split
  · exact made.failed _ _
  split
  · have wrapped := (made.then (f := (·.sockNew none)) (.same rfl rfl)).then
      (f := (·.modTask u.ntask ({ · with newsock := some u.nsock }))) (.other apart _)
    rcases sqeGet_cases (((u.on (·.taskNew { kind := .taskAccept })).on (·.sockNew none)).on
      (·.modTask u.ntask ({ · with newsock := some u.nsock }))) with got | got <;> erw [got]
    · exact ((wrapped.tick.flush _ 0).then (.other apart _)).then (.modSock _ _)
    · exact ((wrapped.tick.then (.sockRelease _)).then (.other apart _)).failed _ _
  · exact made.failed _ _

theorem Remains.implSockRead (mem : Bool) (s : SockId) (len : Nat) :
    Remains t u (u.implSockRead mem s len) := by
  have made := Remains.taskNew submitted { kind := .taskSockRead }
  unfold UringIo.implSockRead
  split
  case isFalse => exact (refl u).give _
  dsimp only
  refine Remains.give ?_ _
  split
  · exact made.failed _ _
  rcases sqeGet_cases (u.on (·.taskNew { kind := .taskSockRead })) with got | got <;> rw [got]
  · exact ((made.tick.flush _ len).then (.other (Nat.ne_of_gt submitted) _)).then (.modSock _ _)
  · exact made.tick.failed _ _

theorem Remains.implSockWrite (mem : Bool) (s : SockId) (buf : List UInt8) :
    Remains t u (u.implSockWrite mem s buf) := by
  unfold UringIo.implSockWrite
  split
  case isFalse => exact (refl u).give _
  dsimp only
  refine Remains.give ?_ _
  have made := Remains.taskNew submitted
    { kind := .taskSockWrite, sock := some s, buf, fd := (u.sock s).fd, on := some s }
  generalize u.on (·.taskNew
    { kind := .taskSockWrite, sock := some s, buf, fd := (u.sock s).fd, on := some s }) = v at made ⊢
  have pushed := made.then (f := (·.modSock s fun k => { k with wq := (wqPush k.wq u.ntask).1 })) (.modSock _ _)
  generalize v.on (·.modSock s fun k => { k with wq := (wqPush k.wq u.ntask).1 }) = w at pushed ⊢
  split
  · have arms := pushed.trans (.writeArm u.ntask)
    rcases writeArm_cases w u.ntask with got | got <;> rw [got] at arms ⊢
    · exact arms
    · exact ((arms.then (.modSock _ _)).then (.sever _)).failed _ _
  · exact pushed

theorem Remains.implSockClose (mem : Bool) (s : SockId) : Remains t u (u.implSockClose mem s) := by
  unfold UringIo.implSockClose
  split
  case isFalse => exact (refl u).give _
  dsimp only
  refine Remains.give ?_ _
  have marked := (Remains.taskNew submitted { kind := .taskSockClose }).then (f := (·.markShut s)) (.same rfl rfl)
  generalize (u.on (·.taskNew { kind := .taskSockClose })).on (·.markShut s) = v at marked ⊢
  have severs : Remains t v (((v.severRead s).severAccept s).severWrites s) := by
    refine ⟨?_, congrFun (((Keeps.severRead s).trans (.severAccept s)).trans (.severWrites s)).served t⟩
    rw [severs_core]
    exact .severed s
  generalize ((v.severRead s).severAccept s).severWrites s = w at severs ⊢
  rcases sqeGet_cases w with got | got <;> rw [got]
  · exact ((marked.trans severs).tick.flush _ 0).then (.other (Nat.ne_of_gt submitted) _)
  · exact (marked.trans severs).tick.failed _ _

end Calls

theorem Remains.implTcpListen (ans : ListenAns) : Remains t u (u.implTcpListen ans) := by
  have opened : Remains t u (u.on (·.newDesc)) := .on (.same rfl rfl)
  unfold UringIo.implTcpListen
  cases ans with
  | badHost => exact (refl u).give _
  | socket errno => exact (refl u).give _
  | bind errno => exact (opened.then (.same rfl rfl)).give _
  | listening mem =>
    dsimp only
    split
    · exact ((opened.then (f := (·.sockNew (some u.ndesc))) (.same rfl rfl)).then (.same rfl rfl)).give _
    · exact (opened.then (.same rfl rfl)).give _

theorem Remains.cancelReturn {w : UringIo} (remains : Remains t u w) (v : TaskId) (free : Bool) (rc : Int) :
    Remains t u (w.cancelReturn v free rc) := by
  refine ⟨?_, ?_⟩
  · rw [(cancelReturn_core w v free rc).1]; exact remains.1
  · unfold UringIo.cancelReturn; split <;> exact remains.2

theorem Remains.implCancel (v : TaskId) (free : Bool) : Remains t u (u.implCancel v free) := by
  have asked : Remains t u u.cancelSubmit.1 := .cancelSubmit
  unfold UringIo.implCancel
  split
  · exact (refl u).cancelReturn v free _
  split
  case h_9 =>
    dsimp only
    split
    · exact ((((refl u).then (.modSock _ _)).then (.sever v)).then (.taskComplete v _)).cancelReturn v free 0
    · rcases cancelSubmit_cases u with got | got <;> rw [got] at asked ⊢
      · exact (asked.then (f := (·.modTask v ({ · with wcanceled := true }))) (.modTask v _ (.inr rfl)
          (fun _ => rfl) rfl)).trans (.aside rfl rfl)
      · exact asked.cancelReturn v free _
  case h_10 => exact (refl u).cancelReturn v free _
  all_goals
    rcases cancelSubmit_cases u with got | got <;> rw [got] at asked ⊢
    · exact asked.trans (.aside rfl rfl)
    · exact asked.cancelReturn v free _

theorem Remains.freeTask (v : TaskId) : Remains t u (u.freeTask v) :=
  (on (f := fun c => { c.freeMem v with held := update c.held v false })
    ((Stays.freeMem v).trans (.same rfl rfl))).trans (.aside rfl rfl)

theorem Remains.implTaskDetach (v : TaskId) : Remains t u (u.implTaskDetach v) := by
  unfold UringIo.implTaskDetach
  split
  · exact (on (f := fun c => { c.taskReap v with held := update c.held v false })
      ((Stays.taskReap v).trans (.same rfl rfl))).trans (.aside rfl rfl)
  · exact (on (f := fun c => { c.modTask v ({ · with detached := true }) with held := update c.held v false })
      ((Stays.modTask v ({ · with detached := true }) (.inr rfl) id rfl).trans (.same rfl rfl))).trans
      (.aside rfl rfl)

theorem Remains.cancelAll (l : List TaskId) : ∀ {u : UringIo}, Remains t u (u.cancelAll l) := by
  induction l with
  | nil => exact fun {u} => refl u
  | cons v rest ih =>
    intro u
    unfold UringIo.cancelAll
    split
    · exact ih
    · exact Remains.cancelSubmit.trans ih

theorem Remains.implDestroy : Remains t u u.implDestroy :=
  ((on (f := fun c => UringIo.dismantleAll c c.socks) (.dismantleAll _)).trans (.cancelAll _)).trans
    (.aside rfl rfl)

/-- A vtable call takes nothing off the ring. -/
theorem call_remains {label : Label} (submitted : t < u.ntask) (taken : u.call label = some u') :
    Remains t u u' := by
  cases label <;> simp only [UringIo.call, Option.some.injEq, reduceCtorEq] at taken
  all_goals subst taken
  case «open» mem path =>
    unfold implOpen
    split
    · split
      · exact .submitPlain submitted .taskOpen 0
      · exact ((Remains.taskNew submitted _).failed _ _).give _
    · exact (Remains.refl u).give _
  case close mem =>
    unfold implClose
    split
    · exact .submitPlain submitted .taskClose 0
    · exact (Remains.refl u).give _
  case read mem len =>
    unfold implRead
    split
    · exact .submitPlain submitted .taskRead len
    · exact (Remains.refl u).give _
  case write mem len =>
    unfold implWrite
    split
    · exact .submitPlain submitted .taskWrite len
    · exact (Remains.refl u).give _
  case sleep mem =>
    unfold implSleep
    split
    · exact .submitPlain submitted .taskSleep 0
    · exact (Remains.refl u).give _
  case spawn mem ret =>
    unfold implSpawn
    split
    · exact ((Remains.taskNew submitted _).then (.finish _ _)).give _
    · exact (Remains.refl u).give _
  case tcpConnect mem ans => exact .implTcpConnect submitted mem ans
  case tcpListen ans => exact .implTcpListen ans
  case tcpAccept mem memSock ls => exact .implTcpAccept submitted mem memSock ls
  case sockRead mem s len => exact .implSockRead submitted mem s len
  case sockWrite mem s buf => exact .implSockWrite submitted mem s buf
  case sockClose mem s => exact .implSockClose submitted mem s
  case step =>
    unfold implStep
    split
    · exact (Remains.refl u).give _
    · exact .aside rfl rfl
  case cancel v => exact .implCancel v false
  case free v =>
    unfold implTaskFree
    split
    · exact .freeTask v
    · exact .implCancel v true
  case detach v => exact .implTaskDetach v
  case result v => exact .on (.readResult v)
  case destroy => exact .implDestroy

/-- A step takes no operation off the ring but the one whose completion it is. -/
theorem step_remains {label : Label} (submitted : t < u.ntask) (taken : u.step label = some u')
    (there : u'.user ≠ .destroyed) (apart : ∀ res, label ≠ .cqe t res) : Remains t u u' := by
  cases label with
  | cqe v res =>
    have other : v ≠ t := by rintro rfl; exact apart res rfl
    simp only [UringIo.step] at taken
    split at taken
    · split at taken
      · obtain rfl := Option.some.inj taken
        exact (Remains.drainOp other res).trans (.aside rfl rfl)
      · cases taken
    · cases taken
  | cancelCqe =>
    simp only [UringIo.step] at taken
    split at taken
    · split at taken
      · obtain rfl := Option.some.inj taken
        exact .aside rfl rfl
      · cases taken
    · cases taken
  | drained =>
    simp only [UringIo.step] at taken
    split at taken
    · obtain rfl := Option.some.inj taken
      unfold drained
      split <;> exact .aside rfl rfl
    · cases taken
  | resume =>
    simp only [UringIo.step] at taken
    split at taken
    · obtain rfl := Option.some.inj taken
      unfold cancelLoop
      split
      · exact (Remains.refl u).cancelReturn _ _ _
      split
      · exact (Remains.refl u).cancelReturn _ _ _
      · exact .aside rfl rfl
    · obtain rfl := Option.some.inj taken
      unfold freeLoop
      split
      · exact .freeTask _
      · exact .aside rfl rfl
    · obtain rfl := Option.some.inj taken
      unfold destroyLoop at there ⊢
      split
      · rename_i zero
        rw [if_pos zero] at there
        exact absurd rfl there
      · exact .aside rfl rfl
    · cases taken
  | _ =>
    simp only [UringIo.step] at taken
    split at taken
    · exact call_remains submitted taken
    · cases taken

end UringIo

end Myio.Loop
