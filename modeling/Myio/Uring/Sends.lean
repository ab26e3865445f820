import Myio.Lib.Path
import Myio.Uring.Code

/-! What the io_uring backend asks the kernel to send, and how far each completion gets a write. -/

namespace Myio.Loop

open Function (update)
open Loop.Core

namespace UringIo

variable {c c' c'' : Core} {u u' u'' : UringIo} {t : TaskId} {s : SockId}

/-! ### Code that sends nothing -/

/-- Nothing is put on the ring or a FIFO, and no write gets any further. -/
structure Tame (c c' : Core) : Prop where
  ntask : c'.ntask = c.ntask
  wq : ∀ s, ∀ n ∈ (c'.sock s).wq, n ∈ (c.sock s).wq
  armed : ∀ t ∈ c'.armed, t ∈ c.armed
  kind : ∀ t, (c'.task t).kind = (c.task t).kind
  buf : ∀ t, (c'.task t).buf = (c.task t).buf
  open_ : ∀ t, (c'.task t).done = false → (c.task t).done = false
  off : ∀ t, (c'.task t).off = (c.task t).off

namespace Tame

theorem refl (c : Core) : Tame c c :=
  ⟨rfl, fun _ _ => id, fun _ => id, fun _ => rfl, fun _ => rfl, fun _ => id, fun _ => rfl⟩

theorem trans (first : Tame c c') (second : Tame c' c'') : Tame c c'' where
  ntask := second.ntask.trans first.ntask
  wq s n member := first.wq s n (second.wq s n member)
  armed t member := first.armed t (second.armed t member)
  kind t := (second.kind t).trans (first.kind t)
  buf t := (second.buf t).trans (first.buf t)
  open_ t isOpen := first.open_ t (second.open_ t isOpen)
  off t := (second.off t).trans (first.off t)

/-- A change of what is neither a task nor the ring. -/
theorem same (ntask : c'.ntask = c.ntask) (armed : c'.armed = c.armed) (task : c'.task = c.task)
    (wq : ∀ s, ∀ n ∈ (c'.sock s).wq, n ∈ (c.sock s).wq) : Tame c c' := by
  refine ⟨ntask, wq, ?_, ?_, ?_, ?_, ?_⟩ <;> simp [armed, task]

/-- A change of one task that leaves its arguments and its progress alone. -/
theorem modTask (t : TaskId) (f : Task → Task) (kind : (f (c.task t)).kind = (c.task t).kind)
    (buf : (f (c.task t)).buf = (c.task t).buf)
    (open_ : (f (c.task t)).done = false → (c.task t).done = false)
    (off : (f (c.task t)).off = (c.task t).off) : Tame c (c.modTask t f) := by
  have fields : ∀ v, (c.modTask t f).task v = if v = t then f (c.task t) else c.task v := by
    intro v; simp only [Core.modTask, Function.update_apply]
  refine ⟨rfl, fun _ _ => id, fun _ => id, fun v => ?_, fun v => ?_, fun v => ?_, fun v => ?_⟩
  all_goals rw [fields]; split
  all_goals simp_all

theorem modSock (s : SockId) (f : Sock → Sock)
    (fewer : ∀ n ∈ (f (c.sock s)).wq, n ∈ (c.sock s).wq) : Tame c (c.modSock s f) := by
  refine same rfl rfl rfl fun v n member => ?_
  simp only [Core.modSock, Function.update_apply] at member
  split at member
  · rename_i isS
    rw [isS]
    exact fewer n member
  · exact member

/-- The head of a FIFO is popped. -/
theorem pop (s : SockId) : Tame c (c.modSock s fun k => { k with wq := (wqPop k.wq).1 }) :=
  modSock s _ fun _ => List.mem_of_mem_tail

theorem sockRelease (s : SockId) : Tame c (c.sockRelease s) :=
  (modSock s (fun k => { k with frees := k.frees + 1 }) fun _ => id).trans
    (same rfl rfl rfl fun _ _ => id)

theorem sockNew (fd : Option Fd) : Tame c (c.sockNew fd) := by
  refine same rfl rfl rfl fun v n member => ?_
  simp only [Core.sockNew, Function.update_apply] at member
  split at member
  · cases member
  · exact member

theorem newDesc : Tame c c.newDesc := same rfl rfl rfl fun _ _ => id

theorem closeDesc (fd : Fd) : Tame c (c.closeDesc fd) := same rfl rfl rfl fun _ _ => id

theorem disarm (t : TaskId) : Tame c (c.disarm t) :=
  ⟨rfl, fun _ _ => id, fun _ member => List.mem_of_mem_erase member, fun _ => rfl, fun _ => rfl, fun _ => id,
    fun _ => rfl⟩

/-- A task lets go of its socket. -/
theorem sever (t : TaskId) : Tame c (c.modTask t ({ · with sock := none })) :=
  modTask t _ rfl rfl id rfl

theorem finish (t : TaskId) (res : Result) : Tame c (c.finish t res) :=
  modTask t _ rfl rfl (fun never => by cases never) rfl

theorem freeMem (t : TaskId) : Tame c (c.freeMem t) := modTask t _ rfl rfl id rfl

theorem taskReap (t : TaskId) : Tame c (c.taskReap t) := by
  unfold Core.taskReap
  split
  · exact (sockRelease _).trans (freeMem t)
  · exact freeMem t

theorem taskFinish (t : TaskId) (res : Result) : Tame c (taskFinish c t res) := by
  unfold UringIo.taskFinish reapIfDetached
  split
  · exact (finish t res).trans (taskReap t)
  · exact finish t res

theorem taskComplete (t : TaskId) (res : Int) : Tame c (taskComplete c t res) := taskFinish t _

theorem writeDrop (s : SockId) (n : TaskId) (res : Int) : Tame c (writeDrop c s n res) :=
  ((pop s).trans (sever n)).trans (taskComplete n res)

theorem clearAccept (t : TaskId) : Tame c (clearAccept c t) := by
  unfold UringIo.clearAccept
  split
  · split
    · exact modSock _ _ fun _ => id
    · exact refl c
  · exact refl c

theorem clearRead (t : TaskId) : Tame c (clearRead c t) := by
  unfold UringIo.clearRead
  split
  · split
    · exact modSock _ _ fun _ => id
    · exact refl c
  · exact refl c

theorem dispatchConnect (t : TaskId) (res : Int) : Tame c (dispatchConnect c t res) := by
  unfold UringIo.dispatchConnect
  dsimp only
  split
  · exact (sever t).trans (taskFinish t _)
  · split
    · exact ((sockRelease _).trans (sever t)).trans (taskComplete t res)
    · exact (sever t).trans (taskComplete t res)

/-- An accept lets go of the socket it was to win. -/
theorem unwrap (t : TaskId) : Tame c (c.modTask t ({ · with newsock := none })) :=
  modTask t _ rfl rfl id rfl

theorem dispatchAccept (t : TaskId) (res : Int) : Tame c (dispatchAccept c t res) := by
  unfold UringIo.dispatchAccept
  dsimp only
  split
  · have opened : Tame c (UringIo.clearAccept c t).newDesc :=
      (clearAccept t).trans newDesc
    split
    · exact ((opened.trans (modSock _ _ fun _ => id)).trans (unwrap t)).trans (taskFinish t _)
    · exact (opened.trans (unwrap t)).trans (taskFinish t _)
  · split
    · exact (((clearAccept t).trans (sockRelease _)).trans (unwrap t)).trans (taskComplete t res)
    · exact ((clearAccept t).trans (unwrap t)).trans (taskComplete t res)

theorem dispatchClose (t : TaskId) (res : Int) : Tame c (dispatchClose c t res) := by
  unfold UringIo.dispatchClose
  dsimp only
  split
  · exact ((sever t).trans (sockRelease _)).trans (taskComplete t res)
  · exact (sever t).trans (taskComplete t res)

theorem dropQueued (s : SockId) (l : List TaskId) : ∀ {c : Core}, Tame c (dropQueued c s l) := by
  induction l with
  | nil => intro c; exact refl c
  | cons q rest ih => intro c; exact (writeDrop s q _).trans ih

theorem dismantle (s : SockId) : Tame c (dismantle c s) := by
  unfold UringIo.dismantle
  split
  · exact refl c
  · exact ((sever _).trans (pop s)).trans (dropQueued s _)

theorem dismantleAll (l : List SockId) : ∀ {c : Core}, Tame c (dismantleAll c l) := by
  induction l with
  | nil => intro c; exact refl c
  | cons s rest ih => intro c; exact (dismantle s).trans ih

theorem freeAll (l : List TaskId) : ∀ {c : Core}, Tame c (freeAll c l) := by
  induction l with
  | nil => intro c; exact refl c
  | cons t rest ih => intro c; exact (freeMem t).trans ih

theorem sweep (l : List SockId) : ∀ {c : Core}, Tame c (sweep c l) := by
  induction l with
  | nil => intro c; exact refl c
  | cons s rest ih => intro c; exact (sockRelease s).trans ih

theorem readResult (t : TaskId) : Tame c (readResult c t) := by
  unfold UringIo.readResult
  split
  · exact same rfl rfl rfl fun _ _ => id
  · exact refl c

end Tame

/-! ### Entries on the ring -/

/-- A request for an entry is met or not. -/
theorem sqeGet_cases (u : UringIo) :
    u.sqeGet = ({ u with tick := u.tick + 1 }, true) ∨
      u.sqeGet = ({ u with tick := u.tick + 1 }, false) := by
  unfold sqeGet
  cases u.sqes u.tick
  · exact .inr rfl
  · exact .inl rfl

/-- A cancel request is flushed or finds no entry. -/
theorem cancelSubmit_cases (u : UringIo) :
    u.cancelSubmit = (cancelFlush { u with tick := u.tick + 1 }, true) ∨
      u.cancelSubmit = ({ u with tick := u.tick + 1 }, false) := by
  unfold cancelSubmit
  rcases sqeGet_cases u with got | got <;> rw [got]
  · exact .inl rfl
  · exact .inr rfl

/-- A send is flushed or finds no entry. -/
theorem writeArm_cases (u : UringIo) (t : TaskId) :
    u.writeArm t = (sqeFlush { u with tick := u.tick + 1 } t
        ((u.task t).buf.length - (u.task t).off), true) ∨
      u.writeArm t = ({ u with tick := u.tick + 1 }, false) := by
  unfold writeArm
  rcases sqeGet_cases u with got | got <;> rw [got]
  · exact .inl rfl
  · exact .inr rfl

/-- The entry of a write that is not done asks for what is left of it, as far as the field goes. -/
def Asks (u : UringIo) (t : TaskId) : Prop :=
  (u.task t).done = false → (u.task t).kind = .taskSockWrite →
    u.entry t = toU32 ((u.task t).buf.length - (u.task t).off)

/-- Code that puts no entry on the ring but such as ask for what is left. -/
structure Keeps (u u' : UringIo) : Prop where
  ntask : u'.ntask = u.ntask
  wq : ∀ s, ∀ n ∈ (u'.sock s).wq, n ∈ (u.sock s).wq
  served : u'.served = u.served
  kind : ∀ t, (u'.task t).kind = (u.task t).kind
  buf : ∀ t, (u'.task t).buf = (u.task t).buf
  open_ : ∀ t, (u'.task t).done = false → (u.task t).done = false
  off : ∀ t, (u'.task t).off = (u.task t).off
  armed : ∀ t ∈ u'.armed, (t ∈ u.armed ∧ u'.entry t = u.entry t) ∨ (t < u.ntask ∧ u'.Asks t)

namespace Keeps

theorem refl (u : UringIo) : Keeps u u :=
  ⟨rfl, fun _ _ => id, rfl, fun _ => rfl, fun _ => rfl, fun _ => id, fun _ => rfl, fun _ member => .inl ⟨member, rfl⟩⟩

theorem trans (first : Keeps u u') (second : Keeps u' u'') : Keeps u u'' where
  ntask := second.ntask.trans first.ntask
  wq s n member := first.wq s n (second.wq s n member)
  served := second.served.trans first.served
  kind t := (second.kind t).trans (first.kind t)
  buf t := (second.buf t).trans (first.buf t)
  open_ t isOpen := first.open_ t (second.open_ t isOpen)
  off t := (second.off t).trans (first.off t)
  armed t member := by
    rcases second.armed t member with ⟨before, entry⟩ | ⟨inside, asks⟩
    · rcases first.armed t before with ⟨earlier, entry'⟩ | ⟨inside, asks⟩
      · exact .inl ⟨earlier, entry.trans entry'⟩
      · refine .inr ⟨inside, fun isOpen write => ?_⟩
        rw [entry, second.buf t, second.off t]
        exact asks (second.open_ t isOpen) (by rw [← second.kind t]; exact write)
    · exact .inr ⟨by rw [← first.ntask]; exact inside, asks⟩

/-- Code of the shared part that sends nothing. -/
theorem on {f : Core → Core} (tame : Tame u.toCore (f u.toCore)) : Keeps u (u.on f) where
  ntask := tame.ntask
  wq := tame.wq
  served := rfl
  kind := tame.kind
  buf := tame.buf
  open_ := tame.open_
  off := tame.off
  armed t member := .inl ⟨tame.armed t member, rfl⟩

/-- A change of what neither the tasks nor the ring depend on. -/
theorem aside (core : u'.toCore = u.toCore) (entry : u'.entry = u.entry)
    (served : u'.served = u.served) : Keeps u u' := by
  refine ⟨by rw [core], fun s n member => by rwa [core] at member, served, fun t => by rw [core], fun t => by rw [core],
    fun t isOpen => by rwa [core] at isOpen, fun t => by rw [core], fun t member => ?_⟩
  rw [core] at member
  exact .inl ⟨member, by rw [entry]⟩

theorem give (ret : URet) : Keeps u (u.give ret) := aside rfl rfl rfl

/-- The count of requests for an entry goes up. -/
theorem tick : Keeps u { u with tick := u.tick + 1 } := aside rfl rfl rfl

/-- An entry is flushed; for a write it asks for what is left. -/
theorem sqeFlush (inside : t < u.ntask) {len : Nat}
    (rest : (u.task t).kind = .taskSockWrite → len = (u.task t).buf.length - (u.task t).off) :
    Keeps u (u.sqeFlush t len) := by
  refine ⟨rfl, fun _ _ => id, rfl, fun _ => rfl, fun _ => rfl, fun _ => id, fun _ => rfl,
    fun v member => ?_⟩
  by_cases same : v = t
  · subst same
    refine .inr ⟨inside, fun _ write => ?_⟩
    have field : (u.sqeFlush v len).entry v = toU32 len := by simp [UringIo.sqeFlush]
    rw [field, rest write]
    rfl
  · refine .inl ⟨?_, by simp [UringIo.sqeFlush, same]⟩
    have there : v ∈ t :: u.armed := member
    simpa [same] using there

theorem cancelSubmit : Keeps u u.cancelSubmit.1 := by
  rcases cancelSubmit_cases u with got | got <;> rw [got] <;> exact aside rfl rfl rfl

theorem writeArm (inside : t < u.ntask) : Keeps u (u.writeArm t).1 := by
  rcases writeArm_cases u t with got | got <;> rw [got]
  · exact tick.trans (sqeFlush (u := { u with tick := u.tick + 1 }) inside fun _ => rfl)
  · exact tick

end Keeps

/-! ### Closing a socket -/

theorem Keeps.severRead (s : SockId) : Keeps u (u.severRead s) := by
  unfold UringIo.severRead
  split
  · exact (Keeps.cancelSubmit.trans (.on (.sever _))).trans (.on (.modSock _ _ fun _ => id))
  · exact .refl u

theorem Keeps.severAccept (s : SockId) : Keeps u (u.severAccept s) := by
  unfold UringIo.severAccept
  split
  · exact (Keeps.cancelSubmit.trans (.on (.sever _))).trans (.on (.modSock _ _ fun _ => id))
  · exact .refl u

theorem Keeps.severWrites (s : SockId) : Keeps u (u.severWrites s) := by
  unfold UringIo.severWrites
  split
  · exact .refl u
  · exact Keeps.cancelSubmit.trans (.on (.dismantle s))

/-! ### The write FIFO -/

/-- Every member of every FIFO has been submitted. -/
def Known (c : Core) : Prop := ∀ s, ∀ n ∈ (c.sock s).wq, n < c.ntask

/-- The loop of `write_finish`. -/
theorem Keeps.promote (s : SockId) (l : List TaskId) : ∀ {u : UringIo}, (∀ n ∈ l, n < u.ntask) →
    Keeps u (u.promote s l) := by
  induction l with
  | nil => intro u _; exact .refl u
  | cons n rest ih =>
    intro u known
    have inside := known n (by simp)
    have arms := Keeps.writeArm inside
    unfold UringIo.promote
    rcases writeArm_cases u n with got | got <;> rw [got] at arms ⊢
    · exact arms
    · have dropped := arms.trans (.on (f := (writeDrop · s n (-EAGAIN))) (.writeDrop s n _))
      refine dropped.trans (ih fun m member => ?_)
      rw [dropped.ntask]
      exact known m (by simp [member])

/-- `write_finish`: the task is done afterwards, and no other write gets any further. -/
theorem Keeps.writeFinish (known : Known u.toCore) (t : TaskId) (res : Int) :
    Keeps u (u.writeFinish t res) := by
  unfold UringIo.writeFinish
  dsimp only
  have severed : Keeps u (u.on (·.modTask t ({ · with sock := none }))) := .on (.sever t)
  split
  · rename_i s points
    have popped := severed.trans (.on (f := (·.modSock s fun k => { k with wq := (wqPop k.wq).1 }))
      (.pop s))
    refine (popped.trans (.promote s _ fun n member => ?_)).trans (.on (.taskComplete t res))
    rw [popped.ntask]
    refine known s n ?_
    have behind : n ∈ (u.sock s).wq.tail := by simpa [UringIo.on, modTask, modSock, wqPop] using member
    exact List.mem_of_mem_tail behind
  · exact severed.trans (.on (.taskComplete t res))

/-- Completing a task marks it done with the result of its completion. -/
theorem taskComplete_task (c : Core) (t : TaskId) (res : Int) :
    ((taskComplete c t res).task t).done = true ∧
      ((taskComplete c t res).task t).res = cqeResult res := by
  have finished : ((c.finish t (cqeResult res)).task t).done = true ∧
      ((c.finish t (cqeResult res)).task t).res = cqeResult res := by simp [finish, modTask]
  unfold taskComplete taskFinish reapIfDetached
  split
  · unfold taskReap
    split <;> simpa [freeMem, modTask, sockRelease] using finished
  · exact finished

/-- A finished write is done, and its result says so. -/
theorem writeFinish_task (u : UringIo) (t : TaskId) (res : Int) :
    ((u.writeFinish t res).task t).done = true ∧
      ((u.writeFinish t res).task t).res = cqeResult res := by
  unfold writeFinish
  exact taskComplete_task _ t res

/-! ### The invariant -/

/-- Every entry asks for what is left of its write, and short writes get on with every completion. -/
structure Fitted (out : TaskId → Prop) (u : UringIo) : Prop where
  known : Known u.toCore
  bound : ∀ t ∈ u.armed, t < u.ntask
  asks : ∀ t ∈ u.armed, ¬ out t → u.Asks t
  fits : ∀ t, (u.task t).done = false → (u.task t).kind = .taskSockWrite →
    (u.task t).off ≤ (u.task t).buf.length
  paced : ∀ t, ¬ out t → (u.task t).done = false → (u.task t).kind = .taskSockWrite →
    (u.task t).buf.length < 2 ^ 32 → u.served t ≤ (u.task t).off
  fresh : ∀ t, u.ntask ≤ t → u.served t = 0

variable {out : TaskId → Prop}

theorem Fitted.new (sqes : Nat → Bool) : Fitted out (UringIo.new sqes) := by
  constructor <;> simp [UringIo.new, Core.new, Known]

/-- Code that puts no other entries on the ring keeps the invariant. -/
theorem Fitted.keeps (fitted : Fitted out u) (keeps : Keeps u u') : Fitted out u' where
  known s n member := by
    rw [keeps.ntask]
    exact fitted.known s n (keeps.wq s n member)
  bound t member := by
    rw [keeps.ntask]
    rcases keeps.armed t member with ⟨before, _⟩ | ⟨inside, _⟩
    · exact fitted.bound t before
    · exact inside
  asks t member inside := by
    rcases keeps.armed t member with ⟨before, entry⟩ | ⟨_, asks⟩
    · intro isOpen write
      rw [entry, keeps.buf t, keeps.off t]
      exact fitted.asks t before inside (keeps.open_ t isOpen) (by rw [← keeps.kind t]; exact write)
    · exact asks
  fits t isOpen write := by
    rw [keeps.buf t, keeps.off t]
    exact fitted.fits t (keeps.open_ t isOpen) (by rw [← keeps.kind t]; exact write)
  paced t inside isOpen write short := by
    rw [keeps.served, keeps.off t]
    rw [keeps.buf t] at short
    exact fitted.paced t inside (keeps.open_ t isOpen) (by rw [← keeps.kind t]; exact write) short
  fresh t outside := by
    rw [keeps.served]
    exact fitted.fresh t (by rw [← keeps.ntask]; exact outside)

/-- A new task has nothing on the ring. -/
theorem Fitted.make (fitted : Fitted out u) {k : Task} (unsent : k.off = 0) :
    Fitted out (u.on (·.taskNew k)) := by
  have fields : ∀ v, (u.taskNew k).task v = if v = u.ntask then k else u.task v := by
    intro v; simp only [taskNew, Function.update_apply]
  have old : ∀ v ∈ u.armed, v ≠ u.ntask := fun v member => Nat.ne_of_lt (fitted.bound v member)
  constructor
  case known => exact fun s n member => Nat.lt_succ_of_lt (fitted.known s n member)
  case bound => exact fun v member => Nat.lt_succ_of_lt (fitted.bound v member)
  case asks =>
    intro v member inside
    have same : (u.on (·.taskNew k)).task v = u.task v := by
      change (u.taskNew k).task v = _
      rw [fields, if_neg (old v member)]
    unfold Asks
    rw [same]
    exact fitted.asks v member inside
  case fits =>
    intro v
    change ((u.taskNew k).task v).done = false → ((u.taskNew k).task v).kind = _ →
      ((u.taskNew k).task v).off ≤ ((u.taskNew k).task v).buf.length
    rw [fields]
    split
    · intro _ _
      rw [unsent]
      exact Nat.zero_le _
    · exact fitted.fits v
  case paced =>
    intro v inside
    change ((u.taskNew k).task v).done = false → ((u.taskNew k).task v).kind = _ →
      ((u.taskNew k).task v).buf.length < 2 ^ 32 → u.served v ≤ ((u.taskNew k).task v).off
    rw [fields]
    split
    · rename_i isNew
      intro _ _ _
      rw [isNew, fitted.fresh u.ntask (Nat.le_refl _)]
      exact Nat.zero_le _
    · exact fitted.paced v inside
  case fresh => exact fun v outside => fitted.fresh v (Nat.le_of_succ_le outside)

/-- A submitted write goes on a FIFO. -/
theorem Fitted.push (fitted : Fitted out u) {n : TaskId} (inside : n < u.ntask) (s : SockId) :
    Fitted out (u.on (·.modSock s fun k => { k with wq := (wqPush k.wq n).1 })) := by
  refine { fitted with known := fun v m member => ?_ }
  simp only [on, modSock, Function.update_apply, wqPush] at member
  split at member
  · rename_i isS
    rcases List.mem_append.mp member with before | new
    · exact fitted.known s m before
    · rw [List.mem_singleton.mp new]
      exact inside
  · exact fitted.known v m member

/-- Once the task left out is done, nothing is. -/
theorem Fitted.whole (fitted : Fitted (· = t) u) (done : (u.task t).done = true) :
    Fitted (fun _ => False) u := by
  have other : ∀ v, (u.task v).done = false → v ≠ t := by
    rintro v isOpen rfl
    rw [done] at isOpen
    cases isOpen
  exact { fitted with
    asks := fun v member _ isOpen => fitted.asks v member (other v isOpen) isOpen
    paced := fun v _ isOpen => fitted.paced v (other v isOpen) isOpen }

/-! ### Completions -/

/-- A length field never asks for more than there is. -/
theorem toU32_le (n : Nat) : toU32 n ≤ n := Nat.mod_le _ _

/-- The state in which a completion is dispatched. -/
def taken (u : UringIo) (t : TaskId) : UringIo :=
  { u.on (·.disarm t) with
    inflight := u.inflight - 1, served := update u.served t (u.served t + 1) }

theorem drainOp_eq (u : UringIo) (t : TaskId) (res : Int) :
    u.drainOp t res = (u.taken t).dispatch t res := rfl

/-- A completion taken off the ring concerns its own task only. -/
theorem Fitted.taken (fitted : Fitted (fun _ => False) u) (armed : t ∈ u.armed) :
    Fitted (· = t) (u.taken t) where
  known := fitted.known
  bound v member := fitted.bound v (List.mem_of_mem_erase member)
  asks v member _ := fitted.asks v (List.mem_of_mem_erase member) id
  fits := fitted.fits
  paced v other isOpen write short := by
    have count : (u.taken t).served v = u.served v := by simp [UringIo.taken, other]
    rw [count]
    exact fitted.paced v id isOpen write short
  fresh v outside := by
    have other : v ≠ t := (Nat.ne_of_lt (Nat.lt_of_lt_of_le (fitted.bound t armed) outside)).symm
    have count : (u.taken t).served v = u.served v := by simp [UringIo.taken, other]
    rw [count]
    exact fitted.fresh v outside

/-- A task that is no write may be left out. -/
theorem Fitted.other (fitted : Fitted (· = t) u) (kind : (u.task t).kind ≠ .taskSockWrite) :
    Fitted (fun _ => False) u := by
  have other : ∀ v, (u.task v).kind = .taskSockWrite → v ≠ t := by
    rintro v write rfl
    exact kind write
  exact { fitted with
    asks := fun v member _ isOpen write => fitted.asks v member (other v write) isOpen write
    paced := fun v _ isOpen write => fitted.paced v (other v write) isOpen write }

/-- The record of a write that has sent `n` more bytes. -/
theorem sendBytes_task (c : Core) (t v : TaskId) (n : Nat) :
    (c.sendBytes t n).task v = if v = t then { c.task t with off := (c.task t).off + n }
      else c.task v := by
  simp only [sendBytes, Function.update_apply]

/-- Bytes accepted of one write leave the entries of the others alone. -/
theorem Fitted.send (fitted : Fitted (· = t) u) {n : Nat}
    (room : (u.task t).done = false → (u.task t).kind = .taskSockWrite →
      (u.task t).off + n ≤ (u.task t).buf.length) :
    Fitted (· = t) (u.on (·.sendBytes t n)) := by
  have there : ∀ v, v ≠ t → (u.on (·.sendBytes t n)).task v = u.task v := by
    intro v other
    change (u.sendBytes t n).task v = _
    rw [sendBytes_task, if_neg other]
  constructor
  case known => exact fitted.known
  case bound => exact fitted.bound
  case asks =>
    intro v member other
    unfold Asks
    rw [there v other]
    exact fitted.asks v member other
  case fits =>
    intro v
    change ((u.sendBytes t n).task v).done = false → ((u.sendBytes t n).task v).kind = _ →
      ((u.sendBytes t n).task v).off ≤ ((u.sendBytes t n).task v).buf.length
    rw [sendBytes_task]
    split
    · exact room
    · exact fitted.fits v
  case paced =>
    intro v other
    rw [there v other]
    exact fitted.paced v other
  case fresh => exact fitted.fresh

/-- The end of a write inside its own completion. -/
theorem Fitted.finish (fitted : Fitted (· = t) u) (res : Int) :
    Fitted (fun _ => False) (u.writeFinish t res) :=
  (fitted.keeps (.writeFinish fitted.known t res)).whole (writeFinish_task u t res).1

/-- What the kernel's answer says of a send. -/
theorem answers_write {res : Int} (answered : u.answers (.cqe t res) = true)
    (write : (u.task t).kind = .taskSockWrite) (sent : ¬ res < 0) :
    res.toNat ≤ u.entry t ∧ (u.entry t = 0 ∨ 0 < res) := by
  simp only [answers, write, sent, bne_self_eq_false, decide_false, Bool.false_or, Bool.or_false,
    Bool.and_eq_true, Bool.or_eq_true, decide_eq_true_eq, beq_iff_eq] at answered
  exact answered.2

/-- What a completion makes of a write that is not done. -/
def Advances (u u' : UringIo) (t : TaskId) (res : Int) : Prop :=
  ((u'.task t).done = true ∧
      ((u'.task t).res.status = .ok → (u'.task t).off = (u.task t).buf.length)) ∨
    ((u'.task t).done = false ∧ ¬ res < 0 ∧ (u'.task t).off = (u.task t).off + res.toNat ∧
      (u'.task t).off < (u.task t).buf.length)

/-- A write completed with anything but its length is not reported as sent. -/
theorem cqeResult_failed {res : Int} (failed : res < 0) : (cqeResult res).status ≠ .ok := by
  unfold cqeResult
  rw [if_neg (by omega)]
  split <;> simp

/-- The completion of a send. -/
theorem drainOp_write {res : Int} (fitted : Fitted (fun _ => False) u) (armed : t ∈ u.armed)
    (write : (u.task t).kind = .taskSockWrite) (answered : u.answers (.cqe t res) = true) :
    Fitted (fun _ => False) (u.drainOp t res) ∧
      ((u.task t).done = false → u.Advances (u.drainOp t res) t res) := by
  have taken := fitted.taken armed
  have kind : ((u.taken t).task t).kind = .taskSockWrite := write
  rw [drainOp_eq, dispatch, kind]
  dsimp only
  unfold dispatchWrite
  by_cases failed : res < 0
  · rw [if_pos failed]
    refine ⟨taken.finish res, fun _ => .inl ?_⟩
    obtain ⟨done, result⟩ := writeFinish_task (u.taken t) t res
    exact ⟨done, fun okay => absurd okay (by rw [result]; exact cqeResult_failed failed)⟩
  rw [if_neg failed]
  dsimp only
  obtain ⟨few, some⟩ := answers_write answered write failed
  -- The bytes fit, because the entry asked for no more than was left.
  have room : ((u.taken t).task t).done = false → ((u.taken t).task t).kind = .taskSockWrite →
      ((u.taken t).task t).off + res.toNat ≤ ((u.taken t).task t).buf.length := by
    intro isOpen _
    have asked := fitted.asks t armed id isOpen write
    have below := toU32_le ((u.task t).buf.length - (u.task t).off)
    have fits := fitted.fits t isOpen write
    change (u.task t).off + res.toNat ≤ (u.task t).buf.length
    omega
  have sent := taken.send room
  generalize isNext : (u.taken t).on (·.sendBytes t res.toNat) = v at sent ⊢
  have fields : v.task t = { u.task t with off := (u.task t).off + res.toNat } := by
    rw [← isNext]
    change ((u.taken t).sendBytes t res.toNat).task t = _
    rw [sendBytes_task, if_pos rfl]
    rfl
  have served : v.served t = u.served t + 1 := by rw [← isNext]; simp [on, UringIo.taken]
  have ended : ∀ (w : UringIo) (r : Int), Fitted (· = t) w → r < 0 →
      Fitted (fun _ => False) (w.writeFinish t r) ∧
        ((u.task t).done = false → u.Advances (w.writeFinish t r) t res) := by
    intro w r fitted negative
    obtain ⟨done, result⟩ := writeFinish_task w t r
    exact ⟨fitted.finish r, fun _ => .inl ⟨done, fun okay =>
      absurd okay (by rw [result]; exact cqeResult_failed negative)⟩⟩
  by_cases short : (v.task t).off < (v.task t).buf.length
  · rw [if_pos short]
    split
    · exact ended v (-ECANCELED) sent (by decide)
    · rcases writeArm_cases v t with got | got <;> rw [got]
      · -- The rest goes on the ring again, and the write is one completion and some bytes further.
        have inside : t < v.ntask := by rw [← isNext]; exact fitted.bound t armed
        have keeps : Keeps v (sqeFlush { v with tick := v.tick + 1 } t
            ((v.task t).buf.length - (v.task t).off)) :=
          Keeps.tick.trans (.sqeFlush (u := { v with tick := v.tick + 1 }) inside fun _ => rfl)
        have again := sent.keeps keeps
        refine ⟨{ again with asks := fun w member _ => ?_, paced := fun w _ => ?_ }, fun isOpen => ?_⟩
        · by_cases same : w = t
          · subst same
            intro _ _
            simp [sqeFlush]
            rfl
          · exact again.asks w member same
        · by_cases same : w = t
          · subst same
            change (v.task w).done = false → (v.task w).kind = _ → (v.task w).buf.length < 2 ^ 32 →
              v.served w ≤ (v.task w).off
            rw [fields, served]
            intro isOpen _ narrow
            rw [fields] at short
            dsimp only at short narrow ⊢
            have before := fitted.paced w id isOpen write narrow
            have asked := fitted.asks w armed id isOpen write
            have exact_ : toU32 ((u.task w).buf.length - (u.task w).off) =
                (u.task w).buf.length - (u.task w).off := Nat.mod_eq_of_lt (by omega)
            rw [exact_] at asked
            omega
          · exact again.paced w same
        · rw [fields] at short
          refine .inr ⟨?_, failed, ?_, ?_⟩
          · change (v.task t).done = false
            rw [fields]
            exact isOpen
          · change (v.task t).off = _
            rw [fields]
          · change (v.task t).off < _
            rw [fields]
            exact short
      · exact ended { v with tick := v.tick + 1 } (-EAGAIN) (sent.keeps .tick) (by decide)
  · rw [if_neg short]
    refine ⟨sent.finish _, fun isOpen => .inl ⟨(writeFinish_task v t _).1, fun _ => ?_⟩⟩
    have keeps := Keeps.writeFinish sent.known t (toInt64 (v.task t).buf.length)
    have fits := sent.fits t (by rw [fields]; exact isOpen) (by rw [fields]; exact write)
    rw [keeps.off]
    rw [fields] at fits short ⊢
    dsimp only at fits short ⊢
    omega

/-- Every completion keeps the invariant. -/
theorem Fitted.drainOp {res : Int} (fitted : Fitted (fun _ => False) u) (armed : t ∈ u.armed)
    (answered : u.answers (.cqe t res) = true) : Fitted (fun _ => False) (u.drainOp t res) := by
  by_cases write : (u.task t).kind = .taskSockWrite
  · exact (drainOp_write fitted armed write answered).1
  have taken := (fitted.taken armed).other write
  have tame : ∀ f : Core → Core, Tame (u.taken t).toCore (f (u.taken t).toCore) →
      Fitted (fun _ => False) ((u.taken t).on f) := fun f tame => taken.keeps (.on tame)
  rw [drainOp_eq, dispatch]
  split
  · exact tame _ (.taskComplete t _)
  · exact tame _ (.dispatchConnect t res)
  · exact tame _ (.dispatchAccept t res)
  · exact tame _ ((Tame.clearRead t).trans (.taskComplete t res))
  · rename_i isWrite
    exact absurd isWrite write
  · exact tame _ (.dispatchClose t res)
  · exact tame _ (.taskComplete t res)

/-! ### Calls -/

section Calls

variable (fitted : Fitted out u)
include fitted

theorem Fitted.give (ret : URet) : Fitted out (u.give ret) := fitted.keeps (.give ret)

theorem Fitted.user (user : UUser) : Fitted out { u with user } := fitted.keeps (.aside rfl rfl rfl)

/-- Code of the shared part that sends nothing. -/
theorem Fitted.on {f : Core → Core} (tame : Tame u.toCore (f u.toCore)) : Fitted out (u.on f) :=
  fitted.keeps (.on tame)

/-- A task that is no write goes on the ring. -/
theorem Fitted.sqeFlush (inside : t < u.ntask) (kind : (u.task t).kind ≠ .taskSockWrite)
    (len : Nat) : Fitted out (u.sqeFlush t len) :=
  fitted.keeps (.sqeFlush inside fun write => absurd write kind)

theorem Fitted.submitPlain {kind : TaskKind} (other : kind ≠ .taskSockWrite) (len : Nat) :
    Fitted out (u.submitPlain kind len) := by
  have made : Fitted out (u.on (·.taskNew { kind })) := fitted.make rfl
  have asked := made.keeps .tick
  unfold UringIo.submitPlain
  dsimp only
  rcases sqeGet_cases (u.on (·.taskNew { kind })) with got | got <;> rw [got]
  · refine (asked.sqeFlush (Nat.lt_succ_self _) ?_ len).give _
    simpa [UringIo.on, taskNew] using other
  · exact (asked.on (.finish _ _)).give _

theorem Fitted.implTcpConnect (mem : Bool) (ans : ConnectAns) :
    Fitted out (u.implTcpConnect mem ans) := by
  have made : Fitted out (u.on (·.taskNew { kind := .taskConnect })) := fitted.make rfl
  unfold UringIo.implTcpConnect
  split
  case isFalse => exact fitted.give _
  dsimp only
  cases ans with
  | unresolved rc errno => exact (made.on (.finish _ _)).give _
  | socket errno => exact (made.on (.finish _ _)).give _
  | opened memSock =>
    have opened := made.on (f := (·.newDesc)) .newDesc
    dsimp only
    split
    · have wrapped := (opened.on (f := (·.sockNew (some u.ndesc))) (.sockNew _)).on
        (f := (·.modTask u.ntask ({ · with sock := some u.nsock }))) (.modTask _ _ rfl rfl id rfl)
      have asked := wrapped.keeps .tick
      rcases sqeGet_cases (((u.on (·.taskNew { kind := .taskConnect })).on (·.newDesc)).on
        (·.sockNew (some u.ndesc)) |>.on (·.modTask u.ntask ({ · with sock := some u.nsock })))
        with got | got
      · refine Fitted.give ?_ _
        erw [got]
        exact asked.sqeFlush (Nat.lt_succ_self _) (by simp [UringIo.on, taskNew, newDesc, sockNew, modTask]) 0
      · refine Fitted.give ?_ _
        erw [got]
        exact ((asked.on (.sockRelease _)).on (.sever _)).on (.finish _ _)
    · exact ((opened.on (.closeDesc _)).on (.finish _ _)).give _

theorem Fitted.implTcpListen (ans : ListenAns) : Fitted out (u.implTcpListen ans) := by
  unfold UringIo.implTcpListen
  have opened := fitted.on (f := (·.newDesc)) .newDesc
  cases ans with
  | badHost => exact fitted.give _
  | socket errno => exact fitted.give _
  | bind errno => exact (opened.on (.closeDesc _)).give _
  | listening mem =>
    dsimp only
    split
    · exact ((opened.on (.sockNew _)).on (.same rfl rfl rfl fun _ _ => id)).give _
    · exact (opened.on (.closeDesc _)).give _

theorem Fitted.implTcpAccept (mem memSock : Bool) (ls : SockId) :
    Fitted out (u.implTcpAccept mem memSock ls) := by
  have made : Fitted out (u.on (·.taskNew { kind := .taskAccept })) := fitted.make rfl
  unfold UringIo.implTcpAccept
  split
  case isFalse => exact fitted.give _
  dsimp only
  refine Fitted.give ?_ _
  split
  · exact made.on (.finish _ _)
  split
  · have wrapped := (made.on (f := (·.sockNew none)) (.sockNew _)).on
      (f := (·.modTask u.ntask ({ · with newsock := some u.nsock }))) (.modTask _ _ rfl rfl id rfl)
    have asked := wrapped.keeps .tick
    rcases sqeGet_cases (((u.on (·.taskNew { kind := .taskAccept })).on (·.sockNew none)).on
      (·.modTask u.ntask ({ · with newsock := some u.nsock }))) with got | got <;> erw [got]
    · have flushed := asked.sqeFlush (t := u.ntask) (Nat.lt_succ_self _)
        (by simp [UringIo.on, taskNew, sockNew, modTask]) 0
      exact (flushed.on (.modTask _ _ rfl rfl id rfl)).on (.modSock _ _ fun _ => id)
    · exact ((asked.on (.sockRelease _)).on (.unwrap _)).on (.finish _ _)
  · exact made.on (.finish _ _)

theorem Fitted.implSockRead (mem : Bool) (s : SockId) (len : Nat) :
    Fitted out (u.implSockRead mem s len) := by
  have made : Fitted out (u.on (·.taskNew { kind := .taskSockRead })) := fitted.make rfl
  unfold UringIo.implSockRead
  split
  case isFalse => exact fitted.give _
  dsimp only
  refine Fitted.give ?_ _
  split
  · exact made.on (.finish _ _)
  have asked := made.keeps .tick
  rcases sqeGet_cases (u.on (·.taskNew { kind := .taskSockRead })) with got | got <;> rw [got]
  · have flushed := asked.sqeFlush (t := u.ntask) (Nat.lt_succ_self _)
      (by simp [UringIo.on, taskNew]) len
    exact (flushed.on (.modTask _ _ rfl rfl id rfl)).on (.modSock _ _ fun _ => id)
  · exact asked.on (.finish _ _)

theorem Fitted.implSockWrite (mem : Bool) (s : SockId) (buf : List UInt8) :
    Fitted out (u.implSockWrite mem s buf) := by
  unfold UringIo.implSockWrite
  split
  case isFalse => exact fitted.give _
  dsimp only
  refine Fitted.give ?_ _
  generalize isNew : u.on (·.taskNew
    { kind := .taskSockWrite, sock := some s, buf, fd := (u.sock s).fd, on := some s }) = v
  have made : Fitted out v := by rw [← isNew]; exact fitted.make rfl
  have inside : u.ntask < v.ntask := by rw [← isNew]; exact Nat.lt_succ_self _
  have pushed := made.push inside s
  generalize isPushed : v.on (·.modSock s fun k => { k with wq := (wqPush k.wq u.ntask).1 }) = w
    at pushed ⊢
  have insideW : u.ntask < w.ntask := by rw [← isPushed]; exact inside
  split
  · have arms := Keeps.writeArm insideW
    rcases writeArm_cases w u.ntask with got | got <;> rw [got] at arms ⊢
    · exact pushed.keeps arms
    · exact (((pushed.keeps arms).on (.pop s)).on (.sever _)).on (.finish _ _)
  · exact pushed

/-- A cancel request, and whatever is then done to the tasks it is about. -/
theorem Fitted.cancelSubmit : Fitted out u.cancelSubmit.1 := fitted.keeps .cancelSubmit

theorem Fitted.cancelReturn (t : TaskId) (free : Bool) (rc : Int) :
    Fitted out (u.cancelReturn t free rc) := by
  unfold UringIo.cancelReturn
  split
  · exact fitted.user _
  · exact fitted.give _

theorem Fitted.implCancel (t : TaskId) (free : Bool) : Fitted out (u.implCancel t free) := by
  have asked := fitted.cancelSubmit
  unfold UringIo.implCancel
  split
  · exact fitted.cancelReturn t free _
  split
  case h_9 =>
    dsimp only
    split
    · exact (((fitted.on (.modSock _ _ fun _ => List.mem_of_mem_erase)).on (.sever t)).on
        (.taskComplete t _)).cancelReturn t free 0
    · rcases cancelSubmit_cases u with got | got <;> rw [got] at asked ⊢
      · exact (asked.on (.modTask _ _ rfl rfl id rfl)).user _
      · exact asked.cancelReturn t free _
  case h_10 => exact fitted.cancelReturn t free _
  all_goals
    rcases cancelSubmit_cases u with got | got <;> rw [got] at asked ⊢
    · exact asked.user _
    · exact asked.cancelReturn t free _

theorem Fitted.freeTask (t : TaskId) : Fitted out (u.freeTask t) :=
  (fitted.on (f := fun c => { c.freeMem t with held := Function.update c.held t false })
    ((Tame.freeMem t).trans (.same rfl rfl rfl fun _ _ => id))).keeps (.aside rfl rfl rfl)

theorem Fitted.implTaskDetach (t : TaskId) : Fitted out (u.implTaskDetach t) := by
  unfold UringIo.implTaskDetach
  split
  · exact (fitted.on (f := fun c => { c.taskReap t with held := Function.update c.held t false })
      ((Tame.taskReap t).trans (.same rfl rfl rfl fun _ _ => id))).keeps (.aside rfl rfl rfl)
  · exact (fitted.on (f := fun c => { c.modTask t ({ · with detached := true }) with
        held := Function.update c.held t false })
      ((Tame.modTask t (fun k => { k with detached := true }) rfl rfl id rfl).trans
        (.same rfl rfl rfl fun _ _ => id))).keeps (.aside rfl rfl rfl)

end Calls

theorem Fitted.implSockClose (fitted : Fitted out u) (mem : Bool) (s : SockId) :
    Fitted out (u.implSockClose mem s) := by
  unfold UringIo.implSockClose
  split
  case isFalse => exact fitted.give _
  dsimp only
  refine Fitted.give ?_ _
  have made : Fitted out (u.on (·.taskNew { kind := .taskSockClose })) := fitted.make rfl
  have marked := made.on (f := (·.markShut s)) (.same rfl rfl rfl fun _ _ => id)
  generalize isMarked : (u.on (·.taskNew { kind := .taskSockClose })).on (·.markShut s) = v at marked ⊢
  have new : (v.task u.ntask).kind = .taskSockClose ∧ u.ntask < v.ntask := by
    rw [← isMarked]
    exact ⟨by simp [UringIo.on, taskNew, markShut], Nat.lt_succ_self _⟩
  have severed : Keeps v (((v.severRead s).severAccept s).severWrites s) :=
    ((Keeps.severRead s).trans (.severAccept s)).trans (.severWrites s)
  generalize ((v.severRead s).severAccept s).severWrites s = w at severed ⊢
  have asked := (marked.keeps severed).keeps .tick
  rcases sqeGet_cases w with got | got <;> rw [got]
  · refine Fitted.on (asked.sqeFlush (t := u.ntask) ?_ ?_ 0) (.modTask _ _ rfl rfl id rfl)
    · change u.ntask < w.ntask
      rw [severed.ntask]
      exact new.2
    · change (w.task u.ntask).kind ≠ _
      rw [severed.kind, new.1]
      decide
  · exact asked.on (.finish _ _)

/-- The cancel walk of `impl_destroy`. -/
theorem Fitted.cancelAll (l : List TaskId) : ∀ {u : UringIo}, Fitted out u →
    Fitted out (u.cancelAll l) := by
  induction l with
  | nil => intro u fitted; exact fitted
  | cons t rest ih =>
    intro u fitted
    unfold UringIo.cancelAll
    split
    · exact ih fitted
    · exact ih fitted.cancelSubmit

theorem Fitted.implDestroy (fitted : Fitted out u) : Fitted out u.implDestroy := by
  unfold UringIo.implDestroy
  exact (Fitted.cancelAll _ (fitted.on (.dismantleAll _))).user _

/-! ### Runs -/

theorem Fitted.call {label : Label} (fitted : Fitted out u) (taken : u.call label = some u') :
    Fitted out u' := by
  cases label <;> simp only [UringIo.call, Option.some.injEq, reduceCtorEq] at taken
  all_goals subst taken
  case «open» mem path =>
    unfold implOpen
    split
    · split
      · exact fitted.submitPlain (by decide) 0
      · exact ((fitted.make rfl).on (.finish _ _)).give _
    · exact fitted.give _
  case close mem =>
    unfold implClose
    split
    · exact fitted.submitPlain (by decide) 0
    · exact fitted.give _
  case read mem len =>
    unfold implRead
    split
    · exact fitted.submitPlain (by decide) len
    · exact fitted.give _
  case write mem len =>
    unfold implWrite
    split
    · exact fitted.submitPlain (by decide) len
    · exact fitted.give _
  case sleep mem =>
    unfold implSleep
    split
    · exact fitted.submitPlain (by decide) 0
    · exact fitted.give _
  case spawn mem ret =>
    unfold implSpawn
    split
    · exact ((fitted.make rfl).on (.finish _ _)).give _
    · exact fitted.give _
  case tcpConnect mem ans => exact fitted.implTcpConnect mem ans
  case tcpListen ans => exact fitted.implTcpListen ans
  case tcpAccept mem memSock ls => exact fitted.implTcpAccept mem memSock ls
  case sockRead mem s len => exact fitted.implSockRead mem s len
  case sockWrite mem s buf => exact fitted.implSockWrite mem s buf
  case sockClose mem s => exact fitted.implSockClose mem s
  case step =>
    unfold implStep
    split
    · exact fitted.give _
    · exact fitted.user _
  case cancel t => exact fitted.implCancel t false
  case free t =>
    unfold implTaskFree
    split
    · exact fitted.freeTask t
    · exact fitted.implCancel t true
  case detach t => exact fitted.implTaskDetach t
  case result t => exact fitted.on (.readResult t)
  case destroy => exact fitted.implDestroy

/-- The user thread goes on inside the loop it is in. -/
theorem Fitted.resume (fitted : Fitted out u) (taken : u.step .resume = some u') : Fitted out u' := by
  simp only [step] at taken
  split at taken
  · cases taken
    unfold cancelLoop
    split
    · exact fitted.cancelReturn _ _ _
    split
    · exact fitted.cancelReturn _ _ _
    · exact fitted.user _
  · cases taken
    unfold freeLoop
    split
    · exact fitted.freeTask _
    · exact fitted.user _
  · cases taken
    unfold destroyLoop
    split
    · exact ((fitted.on (.freeAll _)).on (.sweep _)).user _
    · exact fitted.user _
  · cases taken

/-- Every step keeps the invariant. -/
theorem Fitted.step {label : Label} (fitted : Fitted (fun _ => False) u)
    (answered : u.answers label = true) (taken : u.step label = some u') :
    Fitted (fun _ => False) u' := by
  by_cases other : label = .resume
  · subst other
    exact fitted.resume taken
  cases label with
  | cqe t res =>
    simp only [UringIo.step] at taken
    split at taken
    · split at taken
      · rename_i armed
        cases taken
        exact (fitted.drainOp armed answered).user _
      · cases taken
    · cases taken
  | cancelCqe =>
    simp only [UringIo.step] at taken
    split at taken
    · split at taken
      · cases taken
        exact fitted.keeps (.aside rfl rfl rfl)
      · cases taken
    · cases taken
  | drained =>
    simp only [UringIo.step] at taken
    split at taken
    · cases taken
      unfold UringIo.drained
      split
      · exact fitted.give _
      · exact fitted.user _
      · exact fitted.user _
      · exact fitted.user _
    · cases taken
  | resume => exact absurd rfl other
  | _ =>
    simp only [UringIo.step] at taken
    split at taken
    · exact fitted.call taken
    · cases taken

/-- The runs of an instance on a kernel that answers as documented. -/
def Served (u u' : UringIo) : Prop := Machine.Path step (fun u label => u.answers label = true) u u'

theorem Served.fitted {sqes : Nat → Bool} (run : Served (UringIo.new sqes) u) :
    Fitted (fun _ => False) u :=
  Machine.Path.invariant (Fitted fun _ => False)
    (fun _ _ _ fitted answered taken => fitted.step answered taken) run (.new sqes)

end UringIo

end Myio.Loop
