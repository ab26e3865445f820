import Myio.Uv.Calls
import Myio.Uv.Lengths

/-! Whole runs of the libuv backend, as sequences of moves. -/

namespace Myio.Uv.Io

open Function (update)

variable {p : Prop} {io io' : Io} {t u : TaskId} {s c : SockId} {k : Task} {label : Label}

/--
The calls that find no lookup to stop.

`uv_cancel` of a lookup still queued and the teardown of a connect in its lookup end the connect in
another way than a cancel should.
-/
def patient (io : Io) : Label → Prop
  | .user (.cancel t) | .user (.taskFree t) => (io.lookingUp t && (io.task t).req = .queued) = false
  | .user .destroy => ∀ t, io.lookingUp t = false
  | _ => True

/-! ### What callbacks and calls leave alone -/

theorem Within.dropSock (io : Io) (t : TaskId) : Within io (io.dropSock t) :=
  (Within.sockDestroy io _).trans (.modTask rfl)

theorem Within.taskFailGai (io : Io) (t : TaskId) (status : Int) : Within io (io.taskFailGai t status) :=
  (Within.modTask rfl).trans (.taskFinish _ t)

theorem Within.hand (io : Io) (s : SockId) (t : TaskId) (c : SockId) : Within io (io.hand s t c) :=
  (Within.modSock _).trans ((Within.modTask rfl).trans (.taskComplete _ t 0))

theorem Within.connectionCb (io : Io) (s : SockId) (status : Int) (taking : Taking) :
    Within io (io.connectionCb s status taking) := by
  unfold Io.connectionCb
  split
  · split
    · exact (Within.modSock _).trans (.taskComplete ..)
    · exact .refl io
  dsimp only
  cases taking with
  | noMem => exact .refl io
  | refused => exact (Within.sockNew io).trans (.sockDestroy _ _)
  | taken =>
    have arrived : Within io (io.sockNew.modSock s fun k => { k with arrived := k.arrived ++ [io.nsock] }) :=
      (Within.sockNew io).trans (.modSock _)
    dsimp only
    split
    · exact arrived.trans ((Within.modSock _).trans (.hand ..))
    · exact arrived.trans (.modSock _)

theorem Within.readCb (io : Io) (s : SockId) (nread : Int) : Within io (io.readCb s nread) := by
  unfold Io.readCb
  split
  · exact .refl io
  dsimp only
  split
  · exact .modSock _
  · exact (Within.modSock _).trans ((Within.modSock _).trans (.taskComplete ..))

theorem Within.sockCloseCb (io : Io) (s : SockId) : Within io (io.sockCloseCb s) := by
  have read : Within io (io.dropRead s) := by
    unfold dropRead
    split
    · exact (Within.cancelSlot ..).trans (.modSock _)
    · exact .refl io
  have close : ∀ io : Io, Within io (io.endClose s) := by
    intro io
    unfold endClose
    split
    · exact .taskComplete ..
    · exact .refl io
  have freed : ∀ io : Io, Within io (io.modSock s fun k => { k with frees := k.frees + 1 }) := fun _ => .modSock _
  exact read.trans ((Within.endAccept _ s).trans ((close _).trans (freed _)))

theorem Within.afterWorkCb (io : Io) (t : TaskId) (status fnRet : Int) :
    Within io (io.afterWorkCb t status fnRet) := by
  have begun : Within io (io.modTask t ({ · with req := .none })) := .modTask rfl
  have stored : Within io ((io.modTask t ({ · with req := .none })).modTask t ({ · with fnRet })) :=
    begun.trans (.modTask rfl)
  unfold Io.afterWorkCb
  dsimp only
  split
  · exact begun.trans (.taskComplete ..)
  split
  · exact stored.trans (.taskComplete ..)
  · exact stored.trans ((Within.modTask rfl).trans (.taskFinish ..))

theorem Within.gaiCb (io : Io) (t : TaskId) (status rc : Int) : Within io (io.gaiCb t status rc) := by
  have begun : Within io (io.modTask t ({ · with req := .none })) := .modTask rfl
  have shaking : Within io ((io.modTask t ({ · with req := .none })).modTask t ({ · with connecting := true })) :=
    begun.trans (.modTask rfl)
  unfold Io.gaiCb
  dsimp only
  split
  · exact begun.trans ((Within.dropSock ..).trans (.taskFailGai ..))
  split
  · exact shaking.trans ((Within.dropSock ..).trans (.taskComplete ..))
  · exact shaking.trans (.modTask rfl)

theorem Within.connectCb (io : Io) (t : TaskId) (status : Int) : Within io (io.connectCb t status) := by
  have begun : Within io (io.modTask t ({ · with req := .none })) := .modTask rfl
  unfold Io.connectCb
  dsimp only
  split
  · exact begun.trans ((Within.modTask rfl).trans (.taskComplete ..))
  · exact begun.trans ((Within.dropSock ..).trans (.taskComplete ..))

/-- No callback makes a task, or gives the caller anything. -/
theorem Within.callback (io : Io) (cb : Cb) : Within io (io.callback cb) := by
  cases cb with
  | fs t result => exact (Within.modTask rfl).trans (.taskComplete _ t _)
  | timer t =>
    have closed : Within io (io.timerClose t) := .modTask rfl
    exact closed.trans (.taskComplete _ t _)
  | timerClose t =>
    have closed : Within io (io.modTask t ({ · with timerClosed := true })) := .modTask rfl
    have freed : ∀ io : Io, Within io (io.taskFreeMem t) := fun _ => .modTask rfl
    simp only [Io.callback, timerCloseCb]
    split
    · exact closed.trans (freed _)
    · exact closed
  | afterWork t status fnRet => exact .afterWorkCb ..
  | gai t status rc => exact .gaiCb ..
  | connect t status => exact .connectCb ..
  | connection s status taking => exact .connectionCb ..
  | read s nread => exact .readCb ..
  | write t status =>
    have begun : Within io (io.modTask t ({ · with req := .none })) := .modTask rfl
    have stopped : ∀ io : Io, Within io (io.stop t) := fun _ => .modTask rfl
    simp only [Io.callback, writeCb]
    split
    · exact (begun.trans (stopped _)).trans (.taskComplete ..)
    · exact begun.trans (.taskComplete ..)
  | sockClose s => exact .sockCloseCb ..

/-- The calls that wait in the loop. -/
def waits : Call → Bool
  | .step | .taskFree _ | .destroy => true
  | _ => false

theorem fsSubmit_user (io : Io) (len : Nat) (rc : Int) : (io.fsSubmit len rc).user = io.user := by
  unfold fsSubmit
  dsimp only
  split
  · exact (Within.taskComplete ..).user
  · rfl

/-- The other calls return at once. -/
theorem call_user (io : Io) {c : Call} (returns : waits c = false) : (io.call c).user = io.user := by
  cases c with
  | «open» | close | read | write => exact fsSubmit_user ..
  | sleep rc =>
    simp only [call, implSleep]
    split
    · exact (Within.taskComplete ..).user
    · rfl
  | spawn rc =>
    simp only [call, implSpawn]
    split
    · exact (Within.taskComplete ..).user
    · rfl
  | tcpConnect rc =>
    simp only [call, implTcpConnect]
    split
    · exact ((Within.taskFailGai ..).trans (.dropSock ..)).user
    · rfl
  | tcpListen rc =>
    simp only [call, implTcpListen]
    split
    · exact (Within.sockDestroy ..).user
    · rfl
  | tcpAccept s =>
    simp only [call, implTcpAccept]
    split
    · rfl
    split
    · exact (Within.hand ..).user
    · rfl
  | sockRead s len rc =>
    simp only [call, implSockRead]
    split
    · rfl
    split
    · exact (Within.taskComplete ..).user
    · rfl
  | sockWrite s len rc =>
    simp only [call, implSockWrite]
    split
    · exact (Within.taskComplete ..).user
    · rfl
  | sockClose s =>
    have rest : ((((io.taskNew { kind := .sockClose }).closeRead s).endAccept s).closeRest s io.ntask).user =
        (((io.taskNew { kind := .sockClose }).closeRead s).endAccept s).user := by
      unfold closeRest
      rw [shut_eq]
      rfl
    simp only [call, implSockClose_eq, rest]
    exact ((Within.closeRead ..).trans (.endAccept ..)).user
  | cancel t => exact (Within.implCancel io t).user
  | taskResult t =>
    simp only [call, implTaskResult]
    split
    · rfl
    · rfl
  | taskDetach t =>
    simp only [call, implTaskDetach]
    split
    · split
      · exact (Within.taskReap ..).user
      · exact (Within.taskReap ..).user
    · rfl
  | step | taskFree | destroy => cases returns

/-! ### Steps -/

theorem call_moves (books : Books p io) {c : Call} (may : io.allowed (.user c) = true)
    (calm : p ∨ io.patient (.user c)) : Moves p io (io.call c) := by
  obtain ⟨uses, promised⟩ := Bool.and_eq_true_iff.mp may
  cases c with
  | «open» rc => exact fsSubmit_moves books (by simpa [libuv] using promised)
  | close rc => exact fsSubmit_moves books (by simpa [libuv] using promised)
  | read len rc => exact fsSubmit_moves books (by simpa [libuv] using promised)
  | write len rc => exact fsSubmit_moves books (by simpa [libuv] using promised)
  | sleep rc => exact implSleep_moves books (by simpa [libuv] using promised)
  | spawn rc => exact implSpawn_moves books (by simpa [libuv] using promised)
  | tcpConnect rc => exact implTcpConnect_moves books rc
  | tcpListen rc => exact implTcpListen_moves books rc
  | tcpAccept s => exact implTcpAccept_moves books (Bool.and_eq_true_iff.mp uses).1
  | sockRead s len rc =>
    have other : rc ≠ UV_ECANCELED := by
      simp only [libuv, Bool.and_eq_true, bne_iff_ne, decide_eq_true_eq] at promised
      exact promised.1
    exact implSockRead_moves books (Bool.and_eq_true_iff.mp uses).1 other
  | sockWrite s len rc =>
    have other : rc ≠ UV_ECANCELED := by
      simp only [libuv, Bool.and_eq_true, bne_iff_ne, decide_eq_true_eq] at promised
      exact promised.1
    exact implSockWrite_moves books (Bool.and_eq_true_iff.mp uses).1 other
  | sockClose s => exact implSockClose_moves books (Bool.and_eq_true_iff.mp uses).1
  | step => exact .single (.aside (.user _ _ _ _ (fun _ => id) fun _ => id))
  | cancel t =>
    exact (implCancel_moves books calm).tail (.aside (.user _ _ _ _ (fun _ => id) fun _ => id))
  | taskResult t => exact implTaskResult_moves io t
  | taskFree t => exact implTaskFree_moves books uses calm
  | taskDetach t => exact implTaskDetach_moves books uses
  | destroy => exact implDestroy_moves io calm

theorem callback_moves (books : Books p io) {cb : Cb} (may : io.libuv (.loop cb) = true) :
    Moves p io (io.callback cb) := by
  cases cb with
  | fs t result => exact fsCb_moves books may
  | timer t => exact timerCb_moves books may
  | timerClose t => exact timerCloseCb_moves books may
  | afterWork t status fnRet => exact afterWorkCb_moves books may
  | gai t status rc => exact gaiCb_moves books may
  | connect t status => exact connectCb_moves books may
  | connection s status taking => exact connectionCb_moves books may
  | read s nread => exact readCb_moves books may
  | write t status => exact writeCb_moves books may
  | sockClose s => exact sockCloseCb_moves books may

/-- What holds between two steps. -/
structure Sane (p : Prop) (io : Io) : Prop where
  books : Books p io
  /-- A task that is being freed has been made. -/
  freeing : ∀ t before, io.user = .turning (.free t) before → t < io.ntask

namespace Sane

theorem new : Sane p Io.new := ⟨.new, fun t before inLoop => by cases inLoop⟩

/-- One step is a sequence of moves. -/
theorem moves (sane : Sane p io) (may : io.allowed label = true) (calm : p ∨ io.patient label)
    (taken : io.step label = some io') : Moves p io io' := by
  cases label with
  | user c =>
    obtain rfl := step_call taken
    exact call_moves sane.books may calm
  | pool t =>
    simp only [step] at taken
    split at taken
    · rename_i queued
      cases taken
      exact .single (.start t queued)
    · cases taken
  | loop cb =>
    simp only [step] at taken
    split at taken
    · cases taken
      exact callback_moves sane.books (allowed_libuv may)
    · cases taken
  | turnEnd =>
    simp only [step] at taken
    split at taken
    · rename_i goal before inLoop
      cases taken
      exact turnEnd_moves fun t isFree => sane.freeing t before (isFree ▸ inLoop)
    · cases taken

/-- What a call makes the loop turn for. -/
theorem call_freeing {c : Call} (idle : io.user = .idle) {before : Nat}
    (inLoop : (io.call c).user = .turning (.free t) before) : c = .taskFree t := by
  cases returns : waits c with
  | false =>
    rw [call_user io returns, idle] at inLoop
    cases inLoop
  | true =>
    cases c with
    | step => cases inLoop
    | destroy => cases inLoop
    | taskFree u =>
      simp only [call, implTaskFree] at inLoop
      split at inLoop
      · rw [(Within.release _ u).user] at inLoop
        rw [show (io.dropHandle u).user = io.user from rfl, idle] at inLoop
        cases inLoop
      split at inLoop
      · rw [(Within.release _ u).user] at inLoop
        rw [show ((io.implCancel u).1.dropHandle u).user = (io.implCancel u).1.user from rfl,
          (Within.implCancel io u).user, idle] at inLoop
        cases inLoop
      · cases inLoop
        rfl
    | _ => cases returns

theorem step (sane : Sane p io) (may : io.allowed label = true) (calm : p ∨ io.patient label)
    (taken : io.step label = some io') : Sane p io' := by
  refine ⟨sane.books.moves (sane.moves may calm taken), fun t before inLoop => ?_⟩
  cases label with
  | user c =>
    obtain rfl := step_call taken
    have idle : io.user = .idle := by
      simp only [Io.step] at taken
      split at taken
      · assumption
      · cases taken
    obtain rfl := call_freeing idle inLoop
    have held : io.held t = true := (Bool.and_eq_true_iff.mp may).1
    have inside := sane.books.slots.held t held
    simp only [call, implTaskFree] at inLoop ⊢
    have still : t < (io.implCancel t).1.ntask := (Within.implCancel io t).ntask ▸ inside
    split
    · rw [(Within.release _ t).ntask]; exact inside
    split
    · rw [(Within.release _ t).ntask]; exact still
    · exact still
  | pool u =>
    simp only [Io.step] at taken
    split at taken
    · cases taken
      exact sane.freeing t before inLoop
    · cases taken
  | loop cb =>
    simp only [Io.step] at taken
    split at taken
    · cases taken
      have within := Within.callback io cb
      rw [within.user] at inLoop
      rw [within.ntask]
      exact sane.freeing t before inLoop
    · cases taken
  | turnEnd =>
    simp only [Io.step] at taken
    split at taken
    · rename_i goal earlier isTurning
      cases taken
      unfold turnEnd at inLoop ⊢
      split at inLoop
      · cases inLoop
      · rename_i u
        split at inLoop
        · rename_i goesOn
          rw [if_pos goesOn]
          cases inLoop
          exact sane.freeing _ _ isTurning
        · cases inLoop
      · cases inLoop
    · cases taken

end Sane

/-- Every state a run passes through is sane. -/
theorem Runs.sane (run : Runs Io.new io) : Sane True io :=
  Machine.Path.invariant (Sane True) (fun _ _ _ sane may taken => sane.step may (.inl trivial) taken) run .new

end Myio.Uv.Io
