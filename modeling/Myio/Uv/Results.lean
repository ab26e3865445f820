import Myio.Uv.Moves

/-! What holds of every result the libuv backend stores. -/

namespace Myio.Uv

/-- What is asked of a result; it may depend on the task's name, its kind and its length. -/
abbrev Law := TaskId → Kind → Nat → Result → Prop

/-- The law allows the result of a completion with this code. -/
def Law.Allows (P : Law) (t : TaskId) (kind : Kind) (len : Nat) (n : Int) : Prop :=
  ∀ r, P t kind len r → P t kind len (Io.uvResult r n)

/-- The law allows a task to fail with this error. -/
def Law.Fails (P : Law) (t : TaskId) (kind : Kind) (len : Nat) (error : Int) : Prop :=
  ∀ r, P t kind len r → P t kind len { r with status := .error, error }

/-- A law that allows the results the code makes whatever libuv answers, from the task `n` on. -/
structure Law.Lawful (P : Law) (n : TaskId) : Prop where
  fresh : ∀ t kind len, n ≤ t → P t kind len rPending
  busy : ∀ t kind, n ≤ t → kind = .accept ∨ kind = .sockRead → P t kind 0 (rErr EBUSY)
  canceled : ∀ t kind len, P.Allows t kind len UV_ECANCELED
  zero : ∀ t kind len, kind ≠ .fs → kind ≠ .spawn → kind ≠ .sockRead → kind ≠ .sockWrite →
    P.Allows t kind len 0
  ptr : ∀ t kind len r p, P t kind len r → P t kind len { r with ptr := p }

namespace Io

/-- The slots name tasks of their kind, and every result keeps to the law. -/
structure Good (P : Law) (n : TaskId) (io : Io) : Prop where
  late : n ≤ io.ntask
  reader : ∀ s t, (io.sock s).readTask = some t → t < io.ntask ∧ (io.task t).kind = .sockRead
  accepter : ∀ s t, (io.sock s).acceptTask = some t → t < io.ntask ∧ (io.task t).kind = .accept
  closer : ∀ s t, (io.sock s).closeTask = some t → t < io.ntask ∧ (io.task t).kind = .sockClose
  ticking : ∀ t, (io.task t).ticking = true → (io.task t).kind = .timer
  each : ∀ t, P t (io.task t).kind (io.task t).len (io.task t).res

variable {P : Law} {n : TaskId} {io io' : Io} {t : TaskId} {s : SockId}

/-- The end of a socket's accepter in `sock_close_cb`. -/
def endAccept (io : Io) (s : SockId) : Io :=
  match (io.sock s).acceptTask with
  | some t => (io.cancelSlot t).modSock s ({ · with acceptTask := none })
  | none => io

/-- The end of a socket's close in `sock_close_cb`. -/
def endClose (io : Io) (s : SockId) : Io :=
  match (io.sock s).closeTask with
  | some t => io.taskComplete t 0
  | none => io

/-- The law allows the result of a task's completion with this code. -/
def MayEnd (P : Law) (io : Io) (t : TaskId) (m : Int) : Prop :=
  P.Allows t (io.task t).kind (io.task t).len m

/-- The law allows a task to fail with this error. -/
def MayFail (P : Law) (io : Io) (t : TaskId) (error : Int) : Prop :=
  P.Fails t (io.task t).kind (io.task t).len error

namespace Good

theorem new (lawful : P.Lawful 0) : Good P 0 Io.new := by
  constructor <;> simp [Io.new, lawful.fresh]

/-- Another law holds if it does of the results there are. -/
theorem relaw {P' : Law} {m : TaskId} (good : Good P n io) (late : m ≤ io.ntask)
    (each : ∀ u, P' u (io.task u).kind (io.task u).len (io.task u).res) : Good P' m io :=
  { good with late, each }

/-- A change of other fields than the ones read here. -/
theorem same (good : Good P n io) (ntask : io'.ntask = io.ntask)
    (task : ∀ u, (io'.task u).kind = (io.task u).kind ∧ (io'.task u).len = (io.task u).len ∧
      (io'.task u).res = (io.task u).res ∧ ((io'.task u).ticking = true → (io.task u).ticking = true))
    (sock : ∀ c, (∀ u, (io'.sock c).readTask = some u → (io.sock c).readTask = some u) ∧
      (∀ u, (io'.sock c).acceptTask = some u → (io.sock c).acceptTask = some u) ∧
      ∀ u, (io'.sock c).closeTask = some u → (io.sock c).closeTask = some u) : Good P n io' where
  late := by rw [ntask]; exact good.late
  reader c u named := by
    rw [ntask, (task u).1]
    exact good.reader c u ((sock c).1 u named)
  accepter c u named := by
    rw [ntask, (task u).1]
    exact good.accepter c u ((sock c).2.1 u named)
  closer c u named := by
    rw [ntask, (task u).1]
    exact good.closer c u ((sock c).2.2 u named)
  ticking u active := by
    rw [(task u).1]
    exact good.ticking u ((task u).2.2.2 active)
  each u := by
    obtain ⟨kind, len, res, _⟩ := task u
    rw [kind, len, res]
    exact good.each u

/-- A change of fields of the instance itself. -/
theorem aside (good : Good P n io) (ntask : io'.ntask = io.ntask) (task : io'.task = io.task)
    (sock : io'.sock = io.sock) : Good P n io' := by
  refine good.same ntask (fun u => ?_) fun c => ?_
  · rw [task]; exact ⟨rfl, rfl, rfl, id⟩
  · rw [sock]; exact ⟨fun _ => id, fun _ => id, fun _ => id⟩

/-- A write through a task pointer. -/
theorem modTask (good : Good P n io) {f : Task → Task} (kind : (f (io.task t)).kind = (io.task t).kind)
    (len : (f (io.task t)).len = (io.task t).len)
    (ticking : (f (io.task t)).ticking = true → (io.task t).kind = .timer)
    (res : P t (io.task t).kind (io.task t).len (f (io.task t)).res) : Good P n (io.modTask t f) := by
  have kinds : ∀ u, ((io.modTask t f).task u).kind = (io.task u).kind := fun u => by
    rw [modTask_task]
    split
    · rename_i isT; rw [isT, kind]
    · rfl
  constructor
  case late => exact good.late
  case reader =>
    intro c u named
    rw [kinds]
    exact good.reader c u named
  case accepter =>
    intro c u named
    rw [kinds]
    exact good.accepter c u named
  case closer =>
    intro c u named
    rw [kinds]
    exact good.closer c u named
  case ticking =>
    intro u active
    rw [kinds]
    rw [modTask_task] at active
    split at active
    · rename_i isT; rw [isT]; exact ticking active
    · exact good.ticking u active
  case each =>
    intro u
    rw [modTask_task]
    split
    · rename_i isT
      rw [kind, len, isT]
      exact res
    · exact good.each u

/-- A write through a task pointer that leaves the result alone. -/
theorem note (good : Good P n io) {f : Task → Task} (kind : (f (io.task t)).kind = (io.task t).kind)
    (len : (f (io.task t)).len = (io.task t).len) (res : (f (io.task t)).res = (io.task t).res)
    (ticking : (f (io.task t)).ticking = true → (io.task t).ticking = true) :
    Good P n (io.modTask t f) :=
  good.modTask kind len (fun active => good.ticking t (ticking active)) (by rw [res]; exact good.each t)

/-- A write through a socket pointer. -/
theorem modSock (good : Good P n io) {f : Sock → Sock}
    (reader : ∀ u, (f (io.sock s)).readTask = some u → (io.sock s).readTask = some u ∨
      u < io.ntask ∧ (io.task u).kind = .sockRead)
    (accepter : ∀ u, (f (io.sock s)).acceptTask = some u → (io.sock s).acceptTask = some u ∨
      u < io.ntask ∧ (io.task u).kind = .accept)
    (closer : ∀ u, (f (io.sock s)).closeTask = some u → (io.sock s).closeTask = some u ∨
      u < io.ntask ∧ (io.task u).kind = .sockClose) : Good P n (io.modSock s f) := by
  refine { good with reader := fun c u named => ?_, accepter := fun c u named => ?_, closer := fun c u named => ?_ }
  all_goals rw [modSock_sock] at named; split at named
  · rcases reader u named with before | new
    · exact good.reader s u before
    · exact new
  · exact good.reader c u named
  · rcases accepter u named with before | new
    · exact good.accepter s u before
    · exact new
  · exact good.accepter c u named
  · rcases closer u named with before | new
    · exact good.closer s u before
    · exact new
  · exact good.closer c u named

/-- A write through a socket pointer that puts no task into a slot. -/
theorem modSockFree (good : Good P n io) {f : Sock → Sock}
    (reader : (f (io.sock s)).readTask = none ∨ (f (io.sock s)).readTask = (io.sock s).readTask)
    (accepter : (f (io.sock s)).acceptTask = none ∨ (f (io.sock s)).acceptTask = (io.sock s).acceptTask)
    (closer : (f (io.sock s)).closeTask = (io.sock s).closeTask) : Good P n (io.modSock s f) := by
  refine good.modSock (fun u named => .inl ?_) (fun u named => .inl ?_) fun u named => .inl ?_
  · rcases reader with none | same
    · rw [none] at named; cases named
    · rw [← same]; exact named
  · rcases accepter with none | same
    · rw [none] at named; cases named
    · rw [← same]; exact named
  · rw [← closer]; exact named

/-- A task is made. -/
theorem taskNew (good : Good P n io) {k : Task} (ticking : k.ticking = false)
    (res : P io.ntask k.kind k.len k.res) : Good P n (io.taskNew k) := by
  have old : ∀ u, u < io.ntask → (io.taskNew k).task u = io.task u := fun u inside => by
    rw [taskNew_task, if_neg (Nat.ne_of_lt inside)]
  constructor
  case late => exact Nat.le_succ_of_le good.late
  case reader =>
    intro c u named
    obtain ⟨inside, kind⟩ := good.reader c u named
    exact ⟨Nat.lt_succ_of_lt inside, by rw [old u inside]; exact kind⟩
  case accepter =>
    intro c u named
    obtain ⟨inside, kind⟩ := good.accepter c u named
    exact ⟨Nat.lt_succ_of_lt inside, by rw [old u inside]; exact kind⟩
  case closer =>
    intro c u named
    obtain ⟨inside, kind⟩ := good.closer c u named
    exact ⟨Nat.lt_succ_of_lt inside, by rw [old u inside]; exact kind⟩
  case ticking =>
    intro u active
    rw [taskNew_task] at active ⊢
    split at active
    · rw [ticking] at active; cases active
    · rename_i other
      rw [if_neg other]
      exact good.ticking u active
  case each =>
    intro u
    rw [taskNew_task]
    split
    · rename_i isNew; rw [isNew]; exact res
    · exact good.each u

/-- A socket is made. -/
theorem sockNew (good : Good P n io) : Good P n io.sockNew := by
  refine good.same rfl (fun u => ⟨rfl, rfl, rfl, id⟩) fun c => ?_
  rw [sockNew_sock]
  split
  · exact ⟨(by intros; contradiction), (by intros; contradiction), (by intros; contradiction)⟩
  · exact ⟨fun _ => id, fun _ => id, fun _ => id⟩

/-! ### Closing and completion -/

theorem sockDestroy (good : Good P n io) (s : SockId) : Good P n (io.sockDestroy s) := by
  unfold Io.sockDestroy
  split
  · exact good
  · refine good.same rfl (fun u => ?_) fun c => ?_
    · simp only [Io.uvClose]
      split <;> exact ⟨rfl, rfl, rfl, id⟩
    · simp only [Io.uvClose, modSock_sock]
      split
      · rename_i isS; rw [isS]; exact ⟨fun _ => id, fun _ => id, fun _ => id⟩
      · exact ⟨fun _ => id, fun _ => id, fun _ => id⟩

theorem timerClose (good : Good P n io) (t : TaskId) : Good P n (io.timerClose t) :=
  good.note rfl rfl rfl (fun never => by cases never)

theorem stop (good : Good P n io) (t : TaskId) : Good P n (io.stop t) := good.note rfl rfl rfl id

theorem free (good : Good P n io) (t : TaskId) : Good P n (io.taskFreeMem t) := good.note rfl rfl rfl id

theorem release (good : Good P n io) (t : TaskId) : Good P n (io.release t) := by
  unfold Io.release
  split
  · have marked : Good P n (io.modTask t ({ · with freeOnClose := true })) := good.note rfl rfl rfl id
    dsimp only
    split
    · exact marked
    · exact marked.timerClose t
  · exact good.free t

theorem taskReap (good : Good P n io) (t : TaskId) : Good P n (io.taskReap t) := by
  unfold Io.taskReap
  split
  · exact (good.sockDestroy _).release t
  · exact good.release t

theorem taskFinish (good : Good P n io) (t : TaskId) : Good P n (io.taskFinish t) := by
  have marked : Good P n { io.modTask t ({ · with done := true }) with
      ncompleted := (io.ncompleted + 1) % 2 ^ 32 } :=
    (good.note (f := ({ · with done := true })) rfl rfl rfl id).aside rfl rfl rfl
  unfold Io.taskFinish
  dsimp only
  split
  · exact marked.taskReap t
  · exact marked

/-- A task is completed with a result the law allows. -/
theorem taskComplete (good : Good P n io) {m : Int} (allowed : io.MayEnd P t m) :
    Good P n (io.taskComplete t m) :=
  (good.modTask (f := fun k => { k with res := uvResult k.res m }) rfl rfl (good.ticking t)
    (allowed _ (good.each t))).taskFinish t

/-- A task is stopped and completed so. -/
theorem cancelSlot (good : Good P n io) (lawful : P.Lawful n) (t : TaskId) : Good P n (io.cancelSlot t) :=
  (good.stop t).taskComplete (lawful.canceled t _ _)


/-! ### Callbacks -/

/-- What a callback does first: libuv has no further use for the request. -/
theorem taken (good : Good P n io) (t : TaskId) : Good P n (io.modTask t ({ · with req := .none })) :=
  good.note rfl rfl rfl id

/-- A task in a slot is canceled and leaves the slot. -/
theorem leave (good : Good P n io) (lawful : P.Lawful n) (t : TaskId) {f : Sock → Sock}
    (reader : ∀ q, (f q).readTask = none ∨ (f q).readTask = q.readTask)
    (accepter : ∀ q, (f q).acceptTask = none ∨ (f q).acceptTask = q.acceptTask)
    (closer : ∀ q, (f q).closeTask = q.closeTask) : Good P n ((io.cancelSlot t).modSock s f) :=
  (good.cancelSlot lawful t).modSockFree (reader _) (accepter _) (closer _)

/-- The accepter of a socket is canceled, if there is one. -/
theorem leaveAccept (good : Good P n io) (lawful : P.Lawful n) (s : SockId) :
    Good P n (io.endAccept s) := by
  unfold endAccept
  split
  · exact good.leave lawful _ (fun _ => .inr rfl) (fun _ => .inl rfl) fun _ => rfl
  · exact good

/-- The close of a socket is completed, if there is one. -/
theorem endClose (good : Good P n io) (lawful : P.Lawful n) (s : SockId) : Good P n (io.endClose s) := by
  unfold Io.endClose
  split
  · rename_i t named
    obtain ⟨_, kind⟩ := good.closer s t named
    exact good.taskComplete (lawful.zero t _ _ (by simp [kind]) (by simp [kind]) (by simp [kind])
      (by simp [kind]))
  · exact good

theorem sockCloseCb (good : Good P n io) (lawful : P.Lawful n) (s : SockId) : Good P n (io.sockCloseCb s) := by
  unfold Io.sockCloseCb
  dsimp only
  refine Good.modSockFree ?_ (.inr rfl) (.inr rfl) rfl
  cases reading : (io.sock s).readTask with
  | none => exact (good.leaveAccept lawful s).endClose lawful s
  | some t =>
    have left : Good P n ((io.cancelSlot t).modSock s ({ · with readTask := none })) :=
      good.leave lawful t (fun _ => .inl rfl) (fun _ => .inr rfl) fun _ => rfl
    exact (left.leaveAccept lawful s).endClose lawful s

theorem timerCloseCb (good : Good P n io) (t : TaskId) : Good P n (io.timerCloseCb t) := by
  have marked : Good P n (io.modTask t ({ · with timerClosed := true })) := good.note rfl rfl rfl id
  unfold Io.timerCloseCb
  dsimp only
  split
  · exact marked.free t
  · exact marked

theorem timerCb (good : Good P n io) (lawful : P.Lawful n) (active : (io.task t).ticking = true) :
    Good P n (io.timerCb t) := by
  have kind := good.ticking t active
  refine (good.timerClose t).taskComplete (lawful.zero t _ _ ?_ ?_ ?_ ?_) <;>
    simp [Io.timerClose, kind]

theorem fsCb (good : Good P n io) {m : Int} (allowed : io.MayEnd P t m) : Good P n (io.fsCb t m) := by
  refine (good.taken t).taskComplete ?_
  unfold MayEnd
  rw [modTask_task, if_pos rfl]
  exact allowed

/-- A function's own error code is stored without a look at libuv's. -/
theorem afterWorkCb (good : Good P n io) {status fnRet : Int}
    (canceled : status < 0 → io.MayEnd P t status)
    (returned : ¬ status < 0 → 0 ≤ fnRet → io.MayEnd P t fnRet)
    (failed : ¬ status < 0 → ¬ 0 ≤ fnRet → io.MayFail P t (toInt32 (-fnRet))) :
    Good P n (io.afterWorkCb t status fnRet) := by
  have taken := good.taken t
  unfold Io.afterWorkCb
  dsimp only
  split
  · rename_i negative
    exact good.fsCb (canceled negative)
  · rename_i ran
    have stored : Good P n ((io.modTask t ({ · with req := .none })).modTask t ({ · with fnRet })) :=
      taken.note rfl rfl rfl id
    split
    · rename_i okay
      refine stored.taskComplete ?_
      unfold MayEnd
      simp only [modTask_task, if_true]
      exact returned ran okay
    · rename_i negative
      refine (stored.modTask rfl rfl (stored.ticking t) ?_).taskFinish t
      simp only [modTask_task, if_true]
      exact failed ran negative _ (good.each t)

theorem dropSock (good : Good P n io) (t : TaskId) : Good P n (io.dropSock t) :=
  (good.sockDestroy _).note rfl rfl rfl id

/-- Letting go of a socket leaves the kinds alone. -/
theorem dropSock_args (io : Io) (t : TaskId) :
    ((io.dropSock t).task t).kind = (io.task t).kind ∧ ((io.dropSock t).task t).len = (io.task t).len := by
  have closed : ((io.sockDestroy (io.sockOf t)).task t).kind = (io.task t).kind ∧
      ((io.sockDestroy (io.sockOf t)).task t).len = (io.task t).len := by
    unfold Io.sockDestroy
    split
    · exact ⟨rfl, rfl⟩
    · simp only [uvClose]
      split <;> exact ⟨rfl, rfl⟩
  unfold Io.dropSock
  rw [modTask_task, if_pos rfl]
  exact closed

/-- A result gets its socket before the task is completed. -/
theorem win (good : Good P n io) (lawful : P.Lawful n) (t : TaskId) (p : Task → Option SockId) :
    Good P n (io.modTask t fun k => { k with res := { k.res with ptr := p k } }) :=
  good.modTask rfl rfl (good.ticking t) (lawful.ptr t _ _ _ _ (good.each t))

theorem connectCb (good : Good P n io) (lawful : P.Lawful n) {status : Int}
    (kind : (io.task t).kind = .connect) (failed : status ≠ 0 → io.MayEnd P t status) :
    Good P n (io.connectCb t status) := by
  have taken := good.taken t
  unfold Io.connectCb
  dsimp only
  split
  · refine (taken.win lawful t (·.sock)).taskComplete (lawful.zero t _ _ ?_ ?_ ?_ ?_) <;> simp [kind]
  · rename_i other
    refine (taken.dropSock t).taskComplete ?_
    obtain ⟨sameKind, sameLen⟩ := dropSock_args (io.modTask t ({ · with req := .none })) t
    unfold MayEnd
    rw [sameKind, sameLen, modTask_task, if_pos rfl]
    exact failed other

/-- A resolver's failure. -/
theorem taskFailGai (good : Good P n io) {status : Int}
    (failed : io.MayFail P t (uvEaiToSystem status)) : Good P n (io.taskFailGai t status) :=
  (good.modTask rfl rfl (good.ticking t) (failed _ (good.each t))).taskFinish t

theorem gaiCb (good : Good P n io) {status rc : Int}
    (unresolved : status < 0 → io.MayFail P t (uvEaiToSystem status))
    (refused : ¬ status < 0 → rc < 0 → io.MayEnd P t rc) : Good P n (io.gaiCb t status rc) := by
  have taken := good.taken t
  unfold Io.gaiCb
  dsimp only
  split
  · rename_i negative
    refine (taken.dropSock t).taskFailGai ?_
    obtain ⟨sameKind, sameLen⟩ := dropSock_args (io.modTask t ({ · with req := .none })) t
    unfold MayFail
    rw [sameKind, sameLen, modTask_task, if_pos rfl]
    exact unresolved negative
  · rename_i resolved
    have marked : Good P n ((io.modTask t ({ · with req := .none })).modTask t
        ({ · with connecting := true })) := taken.note rfl rfl rfl id
    split
    · rename_i negative
      refine (marked.dropSock t).taskComplete ?_
      obtain ⟨sameKind, sameLen⟩ := dropSock_args ((io.modTask t ({ · with req := .none })).modTask t
        ({ · with connecting := true })) t
      unfold MayEnd
      rw [sameKind, sameLen]
      simp only [modTask_task, if_true]
      exact refused resolved negative
    · exact marked.note rfl rfl rfl id

/-- An accept gets a connection. -/
theorem hand (good : Good P n io) (lawful : P.Lawful n) (ls c : SockId) (kind : (io.task t).kind = .accept) :
    Good P n (io.hand ls t c) := by
  have noted : Good P n (io.modSock ls fun k => { k with handed := k.handed ++ [(t, c)] }) :=
    good.modSockFree (.inr rfl) (.inr rfl) rfl
  refine (noted.win lawful t fun _ => some c).taskComplete (lawful.zero t _ _ ?_ ?_ ?_ ?_) <;>
    simp [kind]

theorem connectionCb (good : Good P n io) (lawful : P.Lawful n) {ls : SockId} {status : Int} (taking : Taking)
    (failed : status < 0 → ∀ t, (io.sock ls).acceptTask = some t → io.MayEnd P t status) :
    Good P n (io.connectionCb ls status taking) := by
  unfold Io.connectionCb
  split
  · rename_i negative
    split
    · rename_i t named
      exact Good.taskComplete (good.modSockFree (.inr rfl) (.inl rfl) rfl) (failed negative t named)
    · exact good
  · cases taking with
    | noMem => exact good
    | refused => exact good.sockNew.sockDestroy _
    | taken =>
      have arrived : Good P n (io.sockNew.modSock ls fun k => { k with arrived := k.arrived ++ [io.nsock] }) :=
        good.sockNew.modSockFree (.inr rfl) (.inr rfl) rfl
      dsimp only
      split
      · rename_i t named
        obtain ⟨_, kind⟩ := arrived.accepter ls t named
        exact Good.hand (arrived.modSockFree (.inr rfl) (.inl rfl) rfl) lawful ls _ kind
      · exact arrived.modSockFree (.inr rfl) (.inr rfl) rfl

theorem readCb (good : Good P n io) {nread : Int} (allowed : nread ≠ 0 → ∀ t,
    (io.sock s).readTask = some t → io.MayEnd P t (if nread = UV_EOF then 0 else nread)) :
    Good P n (io.readCb s nread) := by
  unfold Io.readCb
  split
  · exact good
  · rename_i some
    have stopped : Good P n (io.modSock s ({ · with reading := false })) :=
      good.modSockFree (.inr rfl) (.inr rfl) rfl
    dsimp only
    split
    · exact stopped
    · rename_i t named
      rw [modSock_sock, if_pos rfl] at named
      exact Good.taskComplete (stopped.modSockFree (.inl rfl) (.inr rfl) rfl) (allowed some t named)

theorem writeCb (good : Good P n io) (lawful : P.Lawful n) {status : Int}
    (failed : status < 0 → io.MayEnd P t status)
    (sent : ¬ status < 0 → io.MayEnd P t (io.task t).len) : Good P n (io.writeCb t status) := by
  have taken := good.taken t
  unfold Io.writeCb
  dsimp only
  split
  · rename_i isCanceled
    have negative : status < 0 := by rw [isCanceled]; decide
    rw [if_pos negative]
    refine (taken.stop t).taskComplete ?_
    rw [isCanceled]
    exact lawful.canceled t _ _
  · refine taken.taskComplete ?_
    unfold MayEnd
    simp only [modTask_task, if_true]
    split
    · rename_i negative; exact failed negative
    · rename_i okay; exact sent okay

/-! ### Calls -/

/-- A submission that fails at once, or goes to the thread pool. -/
theorem fsSubmit (good : Good P n io) (lawful : P.Lawful n) {len : Nat} {rc : Int}
    (allowed : rc < 0 → P.Allows io.ntask .fs (len % 2 ^ 32) rc) : Good P n (io.fsSubmit len rc) := by
  have made : Good P n (io.taskNew { kind := .fs, len := len % 2 ^ 32 }) :=
    good.taskNew rfl (lawful.fresh _ _ _ good.late)
  unfold Io.fsSubmit
  dsimp only
  split
  · rename_i negative
    refine made.taskComplete ?_
    unfold MayEnd
    rw [taskNew_task, if_pos rfl]
    exact allowed negative
  · exact made.note rfl rfl rfl id

theorem implSleep (good : Good P n io) (lawful : P.Lawful n) {rc : Int}
    (allowed : rc < 0 → P.Allows io.ntask .timer 0 rc) : Good P n (io.implSleep rc) := by
  have made : Good P n (io.taskNew { kind := .timer }) := good.taskNew rfl (lawful.fresh _ _ _ good.late)
  unfold Io.implSleep
  dsimp only
  split
  · rename_i negative
    refine (made.taskComplete ?_).timerClose _
    unfold MayEnd
    rw [taskNew_task, if_pos rfl]
    exact allowed negative
  · refine made.modTask rfl rfl (fun _ => ?_) (made.each _)
    rw [taskNew_task, if_pos rfl]

theorem implSpawn (good : Good P n io) (lawful : P.Lawful n) {rc : Int}
    (allowed : rc < 0 → P.Allows io.ntask .spawn 0 rc) : Good P n (io.implSpawn rc) := by
  have made : Good P n (io.taskNew { kind := .spawn }) := good.taskNew rfl (lawful.fresh _ _ _ good.late)
  unfold Io.implSpawn
  dsimp only
  split
  · rename_i negative
    refine made.taskComplete ?_
    unfold MayEnd
    rw [taskNew_task, if_pos rfl]
    exact allowed negative
  · exact made.note rfl rfl rfl id

theorem implTcpConnect (good : Good P n io) (lawful : P.Lawful n) {rc : Int}
    (unresolved : rc < 0 → P.Fails io.ntask .connect 0 (uvEaiToSystem rc)) :
    Good P n (io.implTcpConnect rc) := by
  have made : Good P n (io.taskNew { kind := .connect, sock := some io.nsock }).sockNew :=
    (good.taskNew rfl (lawful.fresh _ _ _ good.late)).sockNew
  unfold Io.implTcpConnect
  dsimp only
  split
  · rename_i negative
    refine (made.taskFailGai ?_).dropSock _
    unfold MayFail
    rw [sockNew_task, taskNew_task, if_pos rfl]
    exact unresolved negative
  · exact made.note rfl rfl rfl id

theorem implTcpListen (good : Good P n io) (rc : Int) : Good P n (io.implTcpListen rc) := by
  unfold Io.implTcpListen
  dsimp only
  split
  · exact good.sockNew.sockDestroy _
  · have listening : Good P n (io.sockNew.modSock io.nsock ({ · with listening := true })) :=
      good.sockNew.modSockFree (.inr rfl) (.inr rfl) rfl
    exact listening.aside rfl rfl rfl

theorem taskNewFailed (good : Good P n io) (lawful : P.Lawful n) {kind : Kind}
    (slotted : kind = .accept ∨ kind = .sockRead) : Good P n (io.taskNewFailed kind EBUSY) :=
  good.taskNew rfl (lawful.busy _ _ good.late slotted)

theorem implTcpAccept (good : Good P n io) (lawful : P.Lawful n) (ls : SockId) :
    Good P n (io.implTcpAccept ls) := by
  unfold Io.implTcpAccept
  split
  · exact good.taskNewFailed lawful (.inl rfl)
  · have made : Good P n (io.taskNew { kind := .accept, sock := some ls }) :=
      good.taskNew rfl (lawful.fresh _ _ _ good.late)
    have kind : ((io.taskNew { kind := .accept, sock := some ls }).task io.ntask).kind = .accept := by
      rw [taskNew_task, if_pos rfl]
    dsimp only
    split
    · refine Good.hand (made.modSockFree (.inr rfl) (.inr rfl) rfl) lawful ls _ ?_
      rw [modSock_task]
      exact kind
    · refine made.modSock (fun u named => .inl named) (fun u named => .inr ?_) fun u named => .inl named
      cases named
      exact ⟨Nat.lt_succ_self _, kind⟩

theorem implSockRead (good : Good P n io) (lawful : P.Lawful n) {len : Nat} {rc : Int}
    (allowed : rc < 0 → P.Allows io.ntask .sockRead (len % 2 ^ 32) rc) :
    Good P n (io.implSockRead s len rc) := by
  unfold Io.implSockRead
  split
  · exact good.taskNewFailed lawful (.inr rfl)
  · have made : Good P n (io.taskNew { kind := .sockRead, sock := some s, len := len % 2 ^ 32 }) :=
      good.taskNew rfl (lawful.fresh _ _ _ good.late)
    have kind : ((io.taskNew { kind := .sockRead, sock := some s, len := len % 2 ^ 32 }).task
        io.ntask).kind = .sockRead := by
      rw [taskNew_task, if_pos rfl]
    have seated := made.modSock (s := s) (f := ({ · with readTask := some io.ntask }))
      (fun u named => .inr (by cases named; exact ⟨Nat.lt_succ_self _, kind⟩))
      (fun u named => .inl named) fun u named => .inl named
    dsimp only
    split
    · rename_i negative
      refine Good.taskComplete (seated.modSockFree (.inl rfl) (.inr rfl) rfl) ?_
      unfold MayEnd
      rw [modSock_task, modSock_task, taskNew_task, if_pos rfl]
      exact allowed negative
    · exact seated.modSockFree (.inr rfl) (.inr rfl) rfl

theorem implSockWrite (good : Good P n io) (lawful : P.Lawful n) {len : Nat} {rc : Int}
    (allowed : rc < 0 → P.Allows io.ntask .sockWrite (len % 2 ^ 32) rc) :
    Good P n (io.implSockWrite s len rc) := by
  have made : Good P n (io.taskNew { kind := .sockWrite, sock := some s, len := len % 2 ^ 32 }) :=
    good.taskNew rfl (lawful.fresh _ _ _ good.late)
  unfold Io.implSockWrite
  dsimp only
  split
  · rename_i negative
    refine made.taskComplete ?_
    unfold MayEnd
    rw [taskNew_task, if_pos rfl]
    exact allowed negative
  · exact made.note rfl rfl rfl id

theorem dropPending (s : SockId) (l : List SockId) : ∀ {io : Io}, Good P n io →
    Good P n (io.dropPending s l) := by
  induction l with
  | nil => intro io good; exact good
  | cons c rest ih =>
    intro io good
    exact ih (Good.sockDestroy (good.modSockFree (.inr rfl) (.inr rfl) rfl) c)

end Good

/-! ### Closing a socket -/

/-- Code that makes no task and leaves the kinds alone. -/
def SameKinds (io io' : Io) : Prop := io'.ntask = io.ntask ∧ ∀ u, (io'.task u).kind = (io.task u).kind

namespace SameKinds

variable {io'' : Io}

theorem refl (io : Io) : SameKinds io io := ⟨rfl, fun _ => rfl⟩

theorem trans (first : SameKinds io io') (second : SameKinds io' io'') : SameKinds io io'' :=
  ⟨second.1.trans first.1, fun u => (second.2 u).trans (first.2 u)⟩

theorem modTask {f : Task → Task} (kind : (f (io.task t)).kind = (io.task t).kind) :
    SameKinds io (io.modTask t f) := by
  refine ⟨rfl, fun u => ?_⟩
  rw [modTask_task]
  split
  · rename_i isT; rw [isT, kind]
  · rfl

theorem modSock (s : SockId) (f : Sock → Sock) : SameKinds io (io.modSock s f) := ⟨rfl, fun _ => rfl⟩

theorem sockDestroy (s : SockId) : SameKinds io (io.sockDestroy s) := by
  unfold Io.sockDestroy
  split
  · exact refl io
  · refine ⟨rfl, fun u => ?_⟩
    simp only [uvClose]
    split <;> rfl

theorem release (t : TaskId) : SameKinds io (io.release t) := by
  unfold Io.release
  split
  · have marked : SameKinds io (io.modTask t ({ · with freeOnClose := true })) := modTask rfl
    dsimp only
    split
    · exact marked
    · exact marked.trans (modTask rfl)
  · exact modTask rfl

theorem taskReap (t : TaskId) : SameKinds io (io.taskReap t) := by
  unfold Io.taskReap
  split
  · exact (sockDestroy _).trans (release t)
  · exact release t

theorem taskFinish (t : TaskId) : SameKinds io (io.taskFinish t) := by
  have marked : SameKinds io { io.modTask t ({ · with done := true }) with
      ncompleted := (io.ncompleted + 1) % 2 ^ 32 } :=
    (modTask (f := ({ · with done := true })) (t := t) rfl).trans ⟨rfl, fun _ => rfl⟩
  unfold Io.taskFinish
  dsimp only
  split
  · exact marked.trans (taskReap t)
  · exact marked

theorem cancelSlot (t : TaskId) : SameKinds io (io.cancelSlot t) :=
  ((modTask rfl).trans (modTask rfl)).trans (taskFinish t)

theorem dropPending (s : SockId) (l : List SockId) : ∀ {io : Io}, SameKinds io (io.dropPending s l) := by
  induction l with
  | nil => intro io; exact refl io
  | cons c rest ih => intro io; exact ((modSock s _).trans (sockDestroy c)).trans ih

end SameKinds

/-- The end of a socket's reader in `impl_sock_close`. -/
def severReader (io : Io) (s : SockId) : Io :=
  match (io.sock s).readTask with
  | some u =>
    ((io.modSock s ({ · with reading := false })).cancelSlot u).modSock s ({ · with readTask := none })
  | none => io

namespace Good

theorem implSockClose (good : Good P n io) (lawful : P.Lawful n) (s : SockId) :
    Good P n (io.implSockClose s) := by
  have made : Good P n (io.taskNew { kind := .sockClose }) := good.taskNew rfl (lawful.fresh _ _ _ good.late)
  generalize isMade : io.taskNew { kind := .sockClose } = a at made
  have read : Good P n (a.severReader s) ∧ SameKinds a (a.severReader s) := by
    unfold severReader
    split
    · have stopped : Good P n (a.modSock s ({ · with reading := false })) :=
        made.modSockFree (.inr rfl) (.inr rfl) rfl
      exact ⟨stopped.leave lawful _ (fun _ => .inl rfl) (fun _ => .inr rfl) fun _ => rfl,
        ((SameKinds.modSock s _).trans (.cancelSlot _)).trans (.modSock s _)⟩
    · exact ⟨made, .refl a⟩
  generalize isRead : a.severReader s = b at read
  have accept : Good P n (b.endAccept s) ∧ SameKinds b (b.endAccept s) := by
    refine ⟨read.1.leaveAccept lawful s, ?_⟩
    unfold endAccept
    split
    · exact (SameKinds.cancelSlot _).trans (.modSock s _)
    · exact .refl b
  generalize isAccept : b.endAccept s = c at accept
  have dropped := accept.1.dropPending s (c.sock s).pending
  have kinds : SameKinds a (c.dropPending s (c.sock s).pending) :=
    (read.2.trans accept.2).trans (.dropPending s _)
  have whole : io.implSockClose s =
      ((c.dropPending s (c.sock s).pending).modSock s ({ · with closeTask := some io.ntask })).sockDestroy s := by
    rw [← isAccept, ← isRead, ← isMade]
    rfl
  rw [whole]
  refine Good.sockDestroy (dropped.modSock (fun u named => .inl named) (fun u named => .inl named)
    fun u named => .inr ?_) s
  cases named
  rw [kinds.1, kinds.2, ← isMade, taskNew_task, if_pos rfl]
  exact ⟨Nat.lt_succ_self _, rfl⟩

/-! ### Canceling, freeing and teardown -/

theorem implCancel (good : Good P n io) (lawful : P.Lawful n) (t : TaskId) : Good P n (io.implCancel t).1 := by
  have recalled : Good P n (io.uvCancel t).1 := by
    unfold uvCancel
    split
    · exact good.note (f := ({ · with req := .canceled, stopped := true })) rfl rfl rfl id
    · exact good
  unfold Io.implCancel
  split
  · exact good
  split
  · exact (good.timerClose t).cancelSlot lawful t
  · exact recalled
  · exact recalled
  · split
    · exact recalled
    · exact good.sockDestroy _
  · exact Good.cancelSlot (good.modSockFree (.inl rfl) (.inr rfl) rfl) lawful t
  · exact Good.cancelSlot (good.modSockFree (.inr rfl) (.inl rfl) rfl) lawful t
  · exact good
  · exact good

theorem dropHandle (good : Good P n io) (t : TaskId) : Good P n (io.dropHandle t) := good.aside rfl rfl rfl

theorem implTaskFree (good : Good P n io) (lawful : P.Lawful n) (t : TaskId) : Good P n (io.implTaskFree t) := by
  have tried : Good P n (if (io.task t).done then io else (io.implCancel t).1) := by
    split
    · exact good
    · exact good.implCancel lawful t
  unfold Io.implTaskFree
  dsimp only
  generalize (if (io.task t).done then io else (io.implCancel t).1) = v at tried
  split
  · exact (tried.dropHandle t).release t
  · exact tried.aside rfl rfl rfl

theorem implTaskDetach (good : Good P n io) (t : TaskId) : Good P n (io.implTaskDetach t) := by
  have dropped := good.dropHandle t
  unfold Io.implTaskDetach
  dsimp only
  split
  · split
    · rename_i s won
      have given : Good P n { io.dropHandle t with
          claimed := Function.update (io.dropHandle t).claimed s false } := dropped.aside rfl rfl rfl
      exact given.taskReap t
    · exact dropped.taskReap t
  · exact dropped.note rfl rfl rfl id

theorem walkTimers (l : List TaskId) : ∀ {io : Io}, Good P n io → Good P n (io.walkTimers l) := by
  induction l with
  | nil => intro io good; exact good
  | cons t rest ih =>
    intro io good
    unfold Io.walkTimers
    split
    · dsimp only
      split
      · exact ih (Good.timerClose (good.note rfl rfl rfl id) t)
      · exact ih (good.timerClose t)
    · exact ih good

theorem walkSocks (l : List SockId) : ∀ {io : Io}, Good P n io → Good P n (io.walkSocks l) := by
  induction l with
  | nil => intro io good; exact good
  | cons s rest ih => intro io good; exact ih (good.sockDestroy s)

theorem turnEnd (good : Good P n io) (goal : Goal) (before : Nat) : Good P n (io.turnEnd goal before) := by
  cases goal with
  | step => exact good.aside rfl rfl rfl
  | free t =>
    simp only [Io.turnEnd]
    split
    · exact good.aside rfl rfl rfl
    · exact ((good.dropHandle t).release t).aside rfl rfl rfl
  | destroy => exact good.aside rfl rfl rfl

end Good

/-- The results that libuv's answers lead to are allowed. -/
def Grants (P : Law) (io : Io) : Label → Prop
  | .user (.open rc) | .user (.close rc) => rc < 0 → P.Allows io.ntask .fs 0 rc
  | .user (.read len rc) | .user (.write len rc) => rc < 0 → P.Allows io.ntask .fs (len % 2 ^ 32) rc
  | .user (.sleep rc) => rc < 0 → P.Allows io.ntask .timer 0 rc
  | .user (.spawn rc) => rc < 0 → P.Allows io.ntask .spawn 0 rc
  | .user (.tcpConnect rc) => rc < 0 → P.Fails io.ntask .connect 0 (uvEaiToSystem rc)
  | .user (.sockRead _ len rc) => rc < 0 → P.Allows io.ntask .sockRead (len % 2 ^ 32) rc
  | .user (.sockWrite _ len rc) => rc < 0 → P.Allows io.ntask .sockWrite (len % 2 ^ 32) rc
  | .loop (.fs t result) => io.MayEnd P t result
  | .loop (.timer t) => (io.task t).ticking = true
  | .loop (.afterWork t status fnRet) =>
    (status < 0 → io.MayEnd P t status) ∧ (¬ status < 0 → 0 ≤ fnRet → io.MayEnd P t fnRet) ∧
      (¬ status < 0 → ¬ 0 ≤ fnRet → io.MayFail P t (toInt32 (-fnRet)))
  | .loop (.gai t status rc) =>
    (status < 0 → io.MayFail P t (uvEaiToSystem status)) ∧ (¬ status < 0 → rc < 0 → io.MayEnd P t rc)
  | .loop (.connect t status) => (io.task t).kind = .connect ∧ (status ≠ 0 → io.MayEnd P t status)
  | .loop (.connection ls status _) =>
    status < 0 → ∀ t, (io.sock ls).acceptTask = some t → io.MayEnd P t status
  | .loop (.read s nread) => nread ≠ 0 → ∀ t, (io.sock s).readTask = some t →
    io.MayEnd P t (if nread = UV_EOF then 0 else nread)
  | .loop (.write t status) =>
    (status < 0 → io.MayEnd P t status) ∧ (¬ status < 0 → io.MayEnd P t (io.task t).len)
  | _ => True

namespace Good

theorem call (good : Good P n io) (lawful : P.Lawful n) (c : Call)
    (grants : io.Grants P (.user c)) : Good P n (io.call c) := by
  cases c with
  | «open» rc => exact good.fsSubmit lawful grants
  | close rc => exact good.fsSubmit lawful grants
  | read len rc => exact good.fsSubmit lawful grants
  | write len rc => exact good.fsSubmit lawful grants
  | sleep rc => exact good.implSleep lawful grants
  | spawn rc => exact good.implSpawn lawful grants
  | tcpConnect rc => exact good.implTcpConnect lawful grants
  | tcpListen rc => exact good.implTcpListen rc
  | tcpAccept ls => exact good.implTcpAccept lawful ls
  | sockRead s len rc => exact good.implSockRead lawful grants
  | sockWrite s len rc => exact good.implSockWrite lawful grants
  | sockClose s => exact good.implSockClose lawful s
  | step => exact good.aside rfl rfl rfl
  | cancel t => exact (good.implCancel lawful t).aside rfl rfl rfl
  | taskResult t =>
    simp only [Io.call, implTaskResult]
    split
    · exact good.aside rfl rfl rfl
    · exact good
  | taskFree t => exact good.implTaskFree lawful t
  | taskDetach t => exact good.implTaskDetach t
  | destroy =>
    have walked := (good.walkTimers (List.range io.ntask))
    exact (Good.walkSocks (List.range (io.walkTimers (List.range io.ntask)).nsock) walked).aside rfl rfl rfl

theorem callback (good : Good P n io) (lawful : P.Lawful n) (cb : Cb) (grants : io.Grants P (.loop cb)) :
    Good P n (io.callback cb) := by
  cases cb with
  | fs t result => exact good.fsCb grants
  | timer t => exact good.timerCb lawful grants
  | timerClose t => exact good.timerCloseCb t
  | afterWork t status fnRet => exact good.afterWorkCb grants.1 grants.2.1 grants.2.2
  | gai t status rc => exact good.gaiCb grants.1 grants.2
  | connect t status => exact good.connectCb lawful grants.1 grants.2
  | connection ls status taking => exact good.connectionCb lawful taking grants
  | read s nread => exact good.readCb grants
  | write t status => exact good.writeCb lawful grants.1 grants.2
  | sockClose s => exact good.sockCloseCb lawful s

/-- Every step keeps the results to the law. -/
theorem step {label : Label} (good : Good P n io) (lawful : P.Lawful n)
    (grants : io.Grants P label) (taken : io.step label = some io') : Good P n io' := by
  cases label with
  | user c =>
    simp only [Io.step] at taken
    split at taken
    · cases taken; exact good.call lawful c grants
    · cases taken
  | pool t =>
    simp only [Io.step] at taken
    split at taken
    · cases taken; exact good.note rfl rfl rfl id
    · cases taken
  | loop cb =>
    simp only [Io.step] at taken
    split at taken
    · cases taken; exact good.callback lawful cb grants
    · cases taken
  | turnEnd =>
    simp only [Io.step] at taken
    split at taken
    · cases taken; exact good.turnEnd _ _
    · cases taken

end Good

end Io

end Myio.Uv
