import Myio.Uring.Sends

/-! How many entries are on the ring: one for each operation that can complete and each cancel request. -/

namespace Myio.Loop

open Function (update)
open Loop.Core

namespace UringIo

variable {c : Core} {u u' : UringIo} {t : TaskId} {s : SockId}

/-! ### Code that puts nothing on the ring -/

@[simp] theorem taskReap_armed (c : Core) (t : TaskId) : (c.taskReap t).armed = c.armed := by
  unfold taskReap
  split <;> rfl

@[simp] theorem taskFinish_armed (c : Core) (t : TaskId) (e : Result) :
    (taskFinish c t e).armed = c.armed := by
  unfold taskFinish reapIfDetached
  split
  · exact taskReap_armed _ t
  · rfl

@[simp] theorem taskComplete_armed (c : Core) (t : TaskId) (res : Int) :
    (taskComplete c t res).armed = c.armed := taskFinish_armed c t _

@[simp] theorem writeDrop_armed (c : Core) (s : SockId) (n : TaskId) (res : Int) :
    (writeDrop c s n res).armed = c.armed := taskComplete_armed _ n res

@[simp] theorem clearAccept_armed (c : Core) (t : TaskId) : (clearAccept c t).armed = c.armed := by
  unfold clearAccept
  split
  · split <;> rfl
  · rfl

@[simp] theorem clearRead_armed (c : Core) (t : TaskId) : (clearRead c t).armed = c.armed := by
  unfold clearRead
  split
  · split <;> rfl
  · rfl

@[simp] theorem dispatchConnect_armed (c : Core) (t : TaskId) (res : Int) :
    (dispatchConnect c t res).armed = c.armed := by
  unfold dispatchConnect
  dsimp only
  split
  · exact taskFinish_armed _ t _
  · refine (taskComplete_armed _ t res).trans ?_
    dsimp only [modTask]
    split <;> rfl

@[simp] theorem dispatchAccept_armed (c : Core) (t : TaskId) (res : Int) :
    (dispatchAccept c t res).armed = c.armed := by
  unfold dispatchAccept
  refine Eq.trans ?_ (clearAccept_armed c t)
  generalize clearAccept c t = d
  dsimp only
  split
  · refine (taskFinish_armed _ t _).trans ?_
    dsimp only [modTask]
    split <;> rfl
  · refine (taskComplete_armed _ t res).trans ?_
    dsimp only [modTask]
    split <;> rfl

@[simp] theorem dispatchClose_armed (c : Core) (t : TaskId) (res : Int) :
    (dispatchClose c t res).armed = c.armed := by
  unfold dispatchClose
  refine (taskComplete_armed _ t res).trans ?_
  split <;> rfl

@[simp] theorem dropQueued_armed (l : List TaskId) : ∀ {c : Core}, (dropQueued c s l).armed = c.armed := by
  induction l with
  | nil => exact fun {c} => rfl
  | cons q rest ih => exact fun {c} => ih.trans (writeDrop_armed c s q _)

@[simp] theorem dismantle_armed (c : Core) (s : SockId) : (dismantle c s).armed = c.armed := by
  unfold dismantle
  split
  · rfl
  · exact dropQueued_armed _

@[simp] theorem dismantleAll_armed (l : List SockId) : ∀ {c : Core}, (dismantleAll c l).armed = c.armed := by
  induction l with
  | nil => exact fun {c} => rfl
  | cons s rest ih => exact fun {c} => ih.trans (dismantle_armed c s)

@[simp] theorem readResult_armed (c : Core) (t : TaskId) : (readResult c t).armed = c.armed := by
  unfold readResult
  split <;> rfl

/-! ### The count -/

/-- Every entry counted in `inflight` is an operation that can complete, or a cancel request. -/
def Counted (u : UringIo) : Prop := u.inflight = u.armed.length + u.cancels

namespace Counted

/-- Code of the shared part that puts nothing on the ring. -/
theorem on (counted : Counted u) {f : Core → Core} (armed : (f u.toCore).armed = u.armed) :
    Counted (u.on f) := by
  unfold Counted UringIo.on
  rw [armed]
  exact counted

theorem aside (counted : Counted u) (armed : u'.armed = u.armed) (inflight : u'.inflight = u.inflight)
    (cancels : u'.cancels = u.cancels) : Counted u' := by
  unfold Counted
  rw [armed, inflight, cancels]
  exact counted

theorem give (counted : Counted u) (ret : URet) : Counted (u.give ret) := counted

/-- An operation is flushed. -/
theorem sqeFlush (counted : Counted u) (t : TaskId) (len : Nat) : Counted (u.sqeFlush t len) := by
  unfold Counted at counted ⊢
  change u.inflight + 1 = (t :: u.armed).length + u.cancels
  rw [List.length_cons, counted]
  omega

/-- A cancel request is flushed, or finds no entry. -/
theorem cancelSubmit (counted : Counted u) : Counted u.cancelSubmit.1 := by
  unfold Counted at counted ⊢
  rcases cancelSubmit_cases u with got | got <;> rw [got]
  · change u.inflight + 1 = u.armed.length + (u.cancels + 1)
    omega
  · exact counted

theorem writeArm (counted : Counted u) (t : TaskId) : Counted (u.writeArm t).1 := by
  rcases writeArm_cases u t with got | got <;> rw [got]
  · exact sqeFlush (u := { u with tick := u.tick + 1 }) counted t _
  · exact counted

theorem promote (s : SockId) (l : List TaskId) : ∀ {u : UringIo}, Counted u → Counted (u.promote s l) := by
  induction l with
  | nil => exact fun counted => counted
  | cons n rest ih =>
    intro u counted
    have arms := counted.writeArm n
    unfold UringIo.promote
    rcases writeArm_cases u n with got | got <;> rw [got] at arms ⊢
    · exact arms
    · exact ih (arms.on (writeDrop_armed _ s n _))

theorem writeFinish (counted : Counted u) (t : TaskId) (res : Int) : Counted (u.writeFinish t res) := by
  have severed : Counted (u.on (·.modTask t ({ · with sock := none }))) := counted.on rfl
  unfold UringIo.writeFinish
  dsimp only
  split
  · exact (promote _ _ (severed.on (f := (·.modSock _ fun k => { k with wq := (wqPop k.wq).1 })) rfl)).on
      (taskComplete_armed _ t res)
  · exact severed.on (taskComplete_armed _ t res)

theorem dispatchWrite (counted : Counted u) (t : TaskId) (res : Int) : Counted (u.dispatchWrite t res) := by
  have sent : Counted (u.on (·.sendBytes t res.toNat)) := counted.on rfl
  unfold UringIo.dispatchWrite
  dsimp only
  split
  · exact counted.writeFinish t res
  split
  · split
    · exact sent.writeFinish t _
    · have arms := sent.writeArm t
      rcases writeArm_cases (u.on (·.sendBytes t res.toNat)) t with got | got <;> rw [got] at arms ⊢
      · exact arms
      · exact arms.writeFinish t _
  · exact sent.writeFinish t _

/-- An operation's completion is taken off the ring and dispatched. -/
theorem drainOp (counted : Counted u) (armed : t ∈ u.armed) (res : Int) : Counted (u.drainOp t res) := by
  have taken : Counted (u.taken t) := by
    unfold Counted at counted ⊢
    change u.inflight - 1 = (u.armed.erase t).length + u.cancels
    rw [List.length_erase_of_mem armed]
    have some_ := List.length_pos_of_mem armed
    omega
  rw [drainOp_eq]
  unfold dispatch
  split
  · exact taken.on (taskComplete_armed _ t _)
  · exact taken.on (dispatchConnect_armed _ t res)
  · exact taken.on (dispatchAccept_armed _ t res)
  · exact taken.on ((taskComplete_armed _ t res).trans (clearRead_armed _ t))
  · exact taken.dispatchWrite t res
  · exact taken.on (dispatchClose_armed _ t res)
  · exact taken.on (taskComplete_armed _ t res)

/-- A cancel request's completion is taken off the ring. -/
theorem drainCancel (counted : Counted u) (some_ : 0 < u.cancels) : Counted u.drainCancel := by
  unfold Counted at counted ⊢
  change u.inflight - 1 = u.armed.length + (u.cancels - 1)
  omega

/-! ### Calls -/

theorem submitPlain (counted : Counted u) (kind : TaskKind) (len : Nat) : Counted (u.submitPlain kind len) := by
  have made : Counted (u.on (·.taskNew { kind })) := counted.on rfl
  unfold UringIo.submitPlain
  rcases sqeGet_cases (u.on (·.taskNew { kind })) with got | got <;> rw [got]
  · exact sqeFlush (u := { u.on (·.taskNew { kind }) with tick := _ }) made u.ntask len
  · exact on (u := { u.on (·.taskNew { kind }) with tick := _ }) made (f := (taskFail · u.ntask EAGAIN)) rfl

theorem plain (counted : Counted u) (mem : Bool) (kind : TaskKind) (len : Nat) :
    Counted (if mem then u.submitPlain kind len else u.give (.submitted none)) := by
  split
  · exact counted.submitPlain kind len
  · exact counted

theorem implOpen (counted : Counted u) (mem path : Bool) : Counted (u.implOpen mem path) := by
  unfold UringIo.implOpen
  split
  · split
    · exact counted.submitPlain _ 0
    · exact counted
  · exact counted

theorem implSpawn (counted : Counted u) (mem : Bool) (ret : Int) : Counted (u.implSpawn mem ret) := by
  unfold UringIo.implSpawn
  split <;> exact counted

theorem implTcpConnect (counted : Counted u) (mem : Bool) (ans : ConnectAns) :
    Counted (u.implTcpConnect mem ans) := by
  unfold UringIo.implTcpConnect
  split
  case isFalse => exact counted
  cases ans with
  | unresolved rc errno => exact counted
  | socket errno => exact counted
  | opened memSock =>
    dsimp only
    split
    · generalize isNext : (((u.on (·.taskNew { kind := .taskConnect })).on (·.newDesc)).on
        (·.sockNew (some (u.on (·.taskNew { kind := .taskConnect })).ndesc))).on
        (·.modTask u.ntask ({ · with sock := some ((u.on (·.taskNew { kind := .taskConnect })).on
          (·.newDesc)).nsock })) = p
      have before : Counted p := by rw [← isNext]; exact counted
      rcases sqeGet_cases p with got | got <;> rw [got]
      · exact sqeFlush (u := { p with tick := p.tick + 1 }) before u.ntask 0
      · exact before
    · exact counted

theorem implTcpListen (counted : Counted u) (ans : ListenAns) : Counted (u.implTcpListen ans) := by
  unfold UringIo.implTcpListen
  cases ans with
  | listening mem => dsimp only; split <;> exact counted
  | _ => exact counted

theorem implTcpAccept (counted : Counted u) (mem memSock : Bool) (ls : SockId) :
    Counted (u.implTcpAccept mem memSock ls) := by
  unfold UringIo.implTcpAccept
  split
  case isFalse => exact counted
  dsimp only
  split
  · exact counted
  split
  · generalize isNext : ((u.on (·.taskNew { kind := .taskAccept })).on (·.sockNew none)).on
      (·.modTask u.ntask ({ · with newsock := some (u.on (·.taskNew { kind := .taskAccept })).nsock })) = p
    have before : Counted p := by rw [← isNext]; exact counted
    rcases sqeGet_cases p with got | got <;> rw [got]
    · exact sqeFlush (u := { p with tick := p.tick + 1 }) before u.ntask 0
    · exact before
  · exact counted

theorem implSockRead (counted : Counted u) (mem : Bool) (s : SockId) (len : Nat) :
    Counted (u.implSockRead mem s len) := by
  unfold UringIo.implSockRead
  split
  case isFalse => exact counted
  dsimp only
  split
  · exact counted
  · generalize isNext : u.on (·.taskNew { kind := .taskSockRead }) = p
    have before : Counted p := by rw [← isNext]; exact counted
    rcases sqeGet_cases p with got | got <;> rw [got]
    · exact sqeFlush (u := { p with tick := p.tick + 1 }) before u.ntask len
    · exact before

theorem implSockWrite (counted : Counted u) (mem : Bool) (s : SockId) (buf : List UInt8) :
    Counted (u.implSockWrite mem s buf) := by
  unfold UringIo.implSockWrite
  split
  case isFalse => exact counted
  dsimp only
  generalize isNext : (u.on (·.taskNew
    { kind := .taskSockWrite, sock := some s, buf, fd := (u.sock s).fd, on := some s })).on
    (·.modSock s fun k => { k with wq := (wqPush k.wq u.ntask).1 }) = p
  have before : Counted p := by rw [← isNext]; exact counted
  split
  · have arms := before.writeArm u.ntask
    rcases writeArm_cases p u.ntask with got | got <;> rw [got] at arms ⊢
    · exact arms
    · exact arms
  · exact before

theorem implSockClose (counted : Counted u) (mem : Bool) (s : SockId) : Counted (u.implSockClose mem s) := by
  unfold UringIo.implSockClose
  split
  case isFalse => exact counted
  have made : Counted ((u.on (·.taskNew { kind := .taskSockClose })).on (·.markShut s)) := counted
  have read : ∀ {u : UringIo}, Counted u → Counted (u.severRead s) := by
    intro u counted
    unfold UringIo.severRead
    split
    · exact counted.cancelSubmit
    · exact counted
  have accept : ∀ {u : UringIo}, Counted u → Counted (u.severAccept s) := by
    intro u counted
    unfold UringIo.severAccept
    split
    · exact counted.cancelSubmit
    · exact counted
  have writes : ∀ {u : UringIo}, Counted u → Counted (u.severWrites s) := by
    intro u counted
    unfold UringIo.severWrites
    split
    · exact counted
    · exact counted.cancelSubmit.on (dismantle_armed _ s)
  have severed := writes (accept (read made))
  dsimp only
  generalize ((((u.on (·.taskNew { kind := .taskSockClose })).on (·.markShut s)).severRead s).severAccept
    s).severWrites s = p at severed ⊢
  rcases sqeGet_cases p with got | got <;> rw [got]
  · exact sqeFlush (u := { p with tick := p.tick + 1 }) severed u.ntask 0
  · exact severed

theorem cancelReturn (counted : Counted u) (t : TaskId) (free : Bool) (rc : Int) :
    Counted (u.cancelReturn t free rc) := by
  unfold UringIo.cancelReturn
  split <;> exact counted

theorem implCancel (counted : Counted u) (t : TaskId) (free : Bool) : Counted (u.implCancel t free) := by
  have asked := counted.cancelSubmit
  unfold UringIo.implCancel
  split
  · exact counted.cancelReturn t free _
  split
  case h_9 =>
    dsimp only
    split
    · rename_i s _
      have left : Counted ((u.on (·.modSock s fun k => { k with wq := wqRemove k.wq t })).on
        (·.modTask t ({ · with sock := none }))) := counted
      exact (left.on (taskComplete_armed _ t _)).cancelReturn t free 0
    · rcases cancelSubmit_cases u with got | got <;> rw [got] at asked ⊢
      · exact asked
      · exact asked.cancelReturn t free _
  case h_10 => exact counted.cancelReturn t free _
  all_goals
    rcases cancelSubmit_cases u with got | got <;> rw [got] at asked ⊢
    · exact asked
    · exact asked.cancelReturn t free _

theorem cancelAll (l : List TaskId) : ∀ {u : UringIo}, Counted u → Counted (u.cancelAll l) := by
  induction l with
  | nil => exact fun counted => counted
  | cons t rest ih =>
    intro u counted
    unfold UringIo.cancelAll
    refine ih ?_
    split
    · exact counted
    · exact counted.cancelSubmit

theorem freeLoop (counted : Counted u) (t : TaskId) : Counted (u.freeLoop t) := by
  unfold UringIo.freeLoop
  split <;> exact counted

theorem implTaskDetach (counted : Counted u) (t : TaskId) : Counted (u.implTaskDetach t) := by
  unfold UringIo.implTaskDetach
  split
  · exact on (f := fun c => { c.taskReap t with held := update c.held t false }) counted (taskReap_armed _ t)
  · exact counted

/-- A vtable call. -/
theorem call {label : Label} (counted : Counted u) (taken : u.call label = some u') : Counted u' := by
  unfold UringIo.call at taken
  split at taken
  all_goals cases taken
  · exact counted.implOpen _ _
  · exact counted.plain _ _ _
  · exact counted.plain _ _ _
  · exact counted.plain _ _ _
  · exact counted.plain _ _ _
  · exact counted.implSpawn _ _
  · exact counted.implTcpConnect _ _
  · exact counted.implTcpListen _
  · exact counted.implTcpAccept _ _ _
  · exact counted.implSockRead _ _ _
  · exact counted.implSockWrite _ _ _
  · exact counted.implSockClose _ _
  · unfold UringIo.implStep; split <;> exact counted
  · exact counted.implCancel _ _
  · unfold UringIo.implTaskFree
    split
    · exact counted
    · exact counted.implCancel _ _
  · exact counted.implTaskDetach _
  · exact counted.on (readResult_armed _ _)
  · exact cancelAll _ (counted.on (dismantleAll_armed _))

end Counted

end UringIo

end Myio.Loop
