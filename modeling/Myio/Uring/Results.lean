import Myio.Uring.Sends

/-! What holds of every result the io_uring backend stores. -/

namespace Myio.Loop

open Function (update)
open Loop.Core

namespace UringIo

/-- What is asked of a result; it may depend on the task's name and kind and its entry's length. -/
abbrev Law := TaskId → TaskKind → Nat → Result → Prop

/-- A law that allows the results the code makes whatever the kernel answers, from task `n` on. -/
structure Law.Lawful (P : Law) (n : TaskId) : Prop where
  fresh : ∀ t kind len, n ≤ t → P t kind len rPending
  refused : ∀ t kind len err, n ≤ t → err = EAGAIN ∨ err = ENOMEM ∨ err = EBUSY →
    P t kind len (rErr err)
  dropped : ∀ t len r res, res = -EAGAIN ∨ res = -ECANCELED → P t .taskSockWrite len r →
    P t .taskSockWrite len (cqeResult res)
  rearmed : ∀ t len len' r, P t .taskSockWrite len r → P t .taskSockWrite len' r

/-- The only results stored are such as these. -/
def Stores (Q : TaskId → Result → Prop) (c c' : Core) : Prop :=
  ∀ t, (c'.task t).res = (c.task t).res ∨ Q t (c'.task t).res

variable {P : Law} {n : TaskId} {Q : TaskId → Result → Prop} {c c' c'' : Core} {u u' : UringIo}
  {t : TaskId} {s : SockId}

namespace Stores

theorem refl (c : Core) : Stores Q c c := fun _ => .inl rfl

theorem trans (first : Stores Q c c') (second : Stores Q c' c'') : Stores Q c c'' := by
  intro t
  rcases second t with same | stored
  · rcases first t with before | earlier
    · exact .inl (same.trans before)
    · exact .inr (by rw [same]; exact earlier)
  · exact .inr stored

theorem same (task : c'.task = c.task) : Stores Q c c' := fun t => .inl (by rw [task])

theorem modSock (s : SockId) (f : Sock → Sock) : Stores Q c (c.modSock s f) := same rfl

theorem sockRelease (s : SockId) : Stores Q c (c.sockRelease s) := same rfl

/-- A write through a task pointer that leaves the result alone. -/
theorem note {f : Task → Task} (res : (f (c.task t)).res = (c.task t).res) :
    Stores Q c (c.modTask t f) := by
  intro v
  simp only [Core.modTask, Function.update_apply]
  split
  · rename_i isT
    rw [isT, res]
    exact .inl rfl
  · exact .inl rfl

theorem finish {res : Result} (fine : Q t res) : Stores Q c (c.finish t res) := by
  intro v
  simp only [Core.finish, Core.modTask, Function.update_apply]
  split
  · rename_i isT
    rw [isT]
    exact .inr fine
  · exact .inl rfl

theorem taskReap (t : TaskId) : Stores Q c (c.taskReap t) := by
  unfold Core.taskReap
  split
  · exact (sockRelease _).trans (note rfl)
  · exact note rfl

theorem taskFinish {res : Result} (fine : Q t res) : Stores Q c (taskFinish c t res) := by
  unfold UringIo.taskFinish reapIfDetached
  split
  · exact (finish fine).trans (taskReap t)
  · exact finish fine

theorem writeDrop {res : Int} (fine : Q t (cqeResult res)) : Stores Q c (writeDrop c s t res) :=
  ((modSock s _).trans (note rfl)).trans (taskFinish fine)

theorem clearAccept (t : TaskId) : Stores Q c (clearAccept c t) := by
  unfold UringIo.clearAccept
  split
  · split
    · exact same rfl
    · exact refl c
  · exact refl c

theorem clearRead (t : TaskId) : Stores Q c (clearRead c t) := by
  unfold UringIo.clearRead
  split
  · split
    · exact same rfl
    · exact refl c
  · exact refl c

theorem dispatchConnect {res : Int} (won : res = 0 → ∀ p, Q t (rOk 0 p))
    (failed : res ≠ 0 → Q t (cqeResult res)) : Stores Q c (dispatchConnect c t res) := by
  unfold UringIo.dispatchConnect
  dsimp only
  split
  · rename_i okay
    exact (note rfl).trans (taskFinish (won okay _))
  · rename_i other
    split
    · exact ((sockRelease _).trans (note rfl)).trans (taskFinish (failed other))
    · exact (note rfl).trans (taskFinish (failed other))

theorem dispatchAccept {res : Int} (won : 0 ≤ res → ∀ p, Q t (rOk 0 p))
    (failed : ¬ 0 ≤ res → Q t (cqeResult res)) : Stores Q c (dispatchAccept c t res) := by
  unfold UringIo.dispatchAccept
  dsimp only
  split
  · rename_i okay
    have opened : Stores Q c (UringIo.clearAccept c t).newDesc := (clearAccept t).trans (same rfl)
    split
    · exact ((opened.trans (modSock _ _)).trans (note rfl)).trans (taskFinish (won okay _))
    · exact (opened.trans (note rfl)).trans (taskFinish (won okay _))
  · rename_i negative
    split
    · exact (((clearAccept t).trans (sockRelease _)).trans (note rfl)).trans (taskFinish (failed negative))
    · exact ((clearAccept t).trans (note rfl)).trans (taskFinish (failed negative))

theorem dispatchClose {res : Int} (fine : Q t (cqeResult res)) : Stores Q c (dispatchClose c t res) := by
  unfold UringIo.dispatchClose
  dsimp only
  split
  · exact ((note rfl).trans (sockRelease _)).trans (taskFinish fine)
  · exact (note rfl).trans (taskFinish fine)

theorem dropQueued (s : SockId) (l : List TaskId) (fine : ∀ q ∈ l, Q q (cqeResult (-ECANCELED))) :
    ∀ {c : Core}, Stores Q c (dropQueued c s l) := by
  induction l with
  | nil => intro c; exact refl c
  | cons q rest ih =>
    intro c
    exact (writeDrop (fine q (by simp))).trans (ih fun m member => fine m (by simp [member]))

theorem dismantle (fine : ∀ q ∈ (c.sock s).wq, Q q (cqeResult (-ECANCELED))) :
    Stores Q c (dismantle c s) := by
  unfold UringIo.dismantle
  split
  · exact refl c
  · rename_i w rest queued
    refine ((note rfl).trans (modSock s _)).trans (dropQueued s rest fun q member => fine q ?_)
    rw [queued]
    exact List.mem_cons_of_mem _ member

theorem dismantleAll (l : List SockId) : ∀ {c : Core},
    (∀ s, ∀ q ∈ (c.sock s).wq, Q q (cqeResult (-ECANCELED))) → Stores Q c (dismantleAll c l) := by
  induction l with
  | nil => intro c _; exact refl c
  | cons s rest ih =>
    intro c fine
    refine (dismantle (fine s)).trans (ih fun v q member => fine v q ?_)
    exact (Tame.dismantle s).wq v q member

theorem freeAll (l : List TaskId) : ∀ {c : Core}, Stores Q c (freeAll c l) := by
  induction l with
  | nil => intro c; exact refl c
  | cons t rest ih => intro c; exact (note rfl).trans ih

theorem sweep (l : List SockId) : ∀ {c : Core}, Stores Q c (sweep c l) := by
  induction l with
  | nil => intro c; exact refl c
  | cons s rest ih => intro c; exact (sockRelease s).trans ih

end Stores

/-- A request for an entry changes only the count of them. -/
theorem sqeGet_fst {v : UringIo} {met : Bool} (got : u.sqeGet = (v, met)) :
    v = { u with tick := u.tick + 1 } := by
  unfold sqeGet at got
  cases got
  rfl

/-- The FIFOs hold writes, and every result keeps to the law. -/
structure Good (P : Law) (n : TaskId) (u : UringIo) : Prop where
  late : n ≤ u.ntask
  queued : ∀ s, ∀ q ∈ (u.sock s).wq, q < u.ntask ∧ (u.task q).kind = .taskSockWrite
  each : ∀ t, P t (u.task t).kind (u.entry t) (u.task t).res

/-- The law allows a task to end so. -/
def MayEnd (P : Law) (u : UringIo) (t : TaskId) (res : Result) : Prop :=
  P t (u.task t).kind (u.entry t) res

namespace Good

theorem new (lawful : P.Lawful 0) (sqes : Nat → Bool) : Good P 0 (UringIo.new sqes) := by
  constructor <;> simp [UringIo.new, Core.new, lawful.fresh]

/-- Another law holds if it does of the results there are. -/
theorem relaw {P' : Law} {m : TaskId} (good : Good P n u) (late : m ≤ u.ntask)
    (each : ∀ v, P' v (u.task v).kind (u.entry v) (u.task v).res) : Good P' m u :=
  { good with late, each }

/-- Code of the shared part that stores what the law allows. -/
theorem on {f : Core → Core} (good : Good P n u) (tame : Tame u.toCore (f u.toCore))
    (stores : Stores (u.MayEnd P) u.toCore (f u.toCore)) : Good P n (u.on f) where
  late := by
    change n ≤ (f u.toCore).ntask
    rw [tame.ntask]
    exact good.late
  queued s q member := by
    obtain ⟨inside, kind⟩ := good.queued s q (tame.wq s q member)
    change q < (f u.toCore).ntask ∧ ((f u.toCore).task q).kind = _
    rw [tame.ntask, tame.kind]
    exact ⟨inside, kind⟩
  each t := by
    change P t ((f u.toCore).task t).kind (u.entry t) ((f u.toCore).task t).res
    rw [tame.kind]
    rcases stores t with same | fine
    · rw [same]; exact good.each t
    · exact fine

/-- A change of other parts of the instance. -/
theorem aside (good : Good P n u) (core : u'.toCore = u.toCore) (entry : u'.entry = u.entry) :
    Good P n u' where
  late := by rw [core]; exact good.late
  queued := by rw [core]; exact good.queued
  each := by rw [core, entry]; exact good.each

theorem give (good : Good P n u) (ret : URet) : Good P n (u.give ret) := good.aside rfl rfl

theorem user (good : Good P n u) (user : UUser) : Good P n { u with user } := good.aside rfl rfl

theorem tick (good : Good P n u) : Good P n { u with tick := u.tick + 1 } := good.aside rfl rfl

/-- A task is made. -/
theorem make (good : Good P n u) (lawful : P.Lawful n) {k : Task} (res : k.res = rPending) :
    Good P n (u.on (·.taskNew k)) where
  late := Nat.le_succ_of_le good.late
  queued s q member := by
    obtain ⟨inside, kind⟩ := good.queued s q member
    refine ⟨Nat.lt_succ_of_lt inside, ?_⟩
    simpa [UringIo.on, taskNew, Function.update_of_ne (Nat.ne_of_lt inside)] using kind
  each v := by
    simp only [UringIo.on, taskNew, Function.update_apply]
    split
    · rename_i isNew
      rw [isNew, res]
      exact lawful.fresh _ _ _ good.late
    · exact good.each v

/-- An entry is flushed for a task that is new, or for a write. -/
theorem sqeFlush (good : Good P n u) (lawful : P.Lawful n) (len : Nat)
    (fine : n ≤ t ∧ (u.task t).res = rPending ∨ (u.task t).kind = .taskSockWrite) :
    Good P n (u.sqeFlush t len) where
  late := good.late
  queued := good.queued
  each v := by
    simp only [UringIo.sqeFlush, UringIo.on, arm, Function.update_apply]
    split
    · rename_i isT
      rw [isT]
      rcases fine with ⟨late, res⟩ | kind
      · rw [res]; exact lawful.fresh _ _ _ late
      · have each := good.each t
        rw [kind] at each ⊢
        exact lawful.rearmed _ _ _ _ each
    · exact good.each v

theorem cancelSubmit (good : Good P n u) : Good P n u.cancelSubmit.1 := by
  rcases cancelSubmit_cases u with got | got <;> rw [got] <;> exact good.aside rfl rfl

/-! ### The write FIFO -/

/-- What is done to a write that cannot be sent is allowed. -/
theorem dropped (good : Good P n u) (lawful : P.Lawful n) (kind : (u.task t).kind = .taskSockWrite)
    {res : Int} (which : res = -EAGAIN ∨ res = -ECANCELED) : u.MayEnd P t (cqeResult res) := by
  have each := good.each t
  unfold MayEnd
  rw [kind] at each ⊢
  exact lawful.dropped t _ _ res which each

theorem promote (lawful : P.Lawful n) (s : SockId) (l : List TaskId) : ∀ {u : UringIo}, Good P n u →
    (∀ q ∈ l, (u.task q).kind = .taskSockWrite) → Good P n (u.promote s l) := by
  induction l with
  | nil => intro u good _; exact good
  | cons q rest ih =>
    intro u good writes
    have write := writes q (by simp)
    unfold UringIo.promote
    rcases writeArm_cases u q with got | got <;> rw [got]
    · exact good.tick.sqeFlush lawful _ (.inr write)
    · have asked := good.tick
      have tame : Tame u.toCore (writeDrop u.toCore s q (-EAGAIN)) := .writeDrop s q _
      refine ih (asked.on tame (.writeDrop (asked.dropped lawful write (.inl rfl)))) fun m member => ?_
      change ((writeDrop u.toCore s q (-EAGAIN)).task m).kind = _
      rw [tame.kind]
      exact writes m (by simp [member])

theorem writeFinish (good : Good P n u) (lawful : P.Lawful n) {res : Int}
    (kind : (u.task t).kind = .taskSockWrite) (fine : u.MayEnd P t (cqeResult res)) :
    Good P n (u.writeFinish t res) := by
  have ends : ∀ {v : UringIo}, Good P n v → (v.task t).kind = (u.task t).kind →
      Good P n (v.on (taskComplete · t res)) := by
    intro v there same
    refine there.on (.taskComplete t res) (.taskFinish ?_)
    unfold MayEnd at fine ⊢
    rw [same]
    rw [kind] at fine ⊢
    exact lawful.rearmed _ _ _ _ fine
  have severed : Good P n (u.on (·.modTask t ({ · with sock := none }))) :=
    good.on (.sever t) (.note rfl)
  unfold UringIo.writeFinish
  dsimp only
  split
  · rename_i s points
    -- The successor may be armed, which changes no entry but those of writes.
    have popped := severed.on (f := (·.modSock s fun k => { k with wq := (wqPop k.wq).1 })) (.pop s)
      (.modSock s _)
    generalize isPopped : (u.on (·.modTask t ({ · with sock := none }))).on
      (·.modSock s fun k => { k with wq := (wqPop k.wq).1 }) = v at popped
    have promoted := Good.promote lawful s (v.sock s).wq popped fun q member =>
      (popped.queued s q member).2
    refine ends promoted ?_
    rw [(Keeps.promote s (v.sock s).wq fun q member => (popped.queued s q member).1).kind, ← isPopped]
    simp [UringIo.on, modTask, modSock]
  · exact ends severed (by simp [UringIo.on, modTask])

/-! ### Completions -/

/-- The results a completion may lead to. -/
def Possible (k : Task) (res : Int) (r : Result) : Prop :=
  match k.kind with
  | .taskSleep => r = cqeResult (if res = -ETIME then 0 else res)
  | .taskConnect => (res = 0 ∧ ∃ p, r = rOk 0 p) ∨ (res ≠ 0 ∧ r = cqeResult res)
  | .taskAccept => (0 ≤ res ∧ ∃ p, r = rOk 0 p) ∨ (¬ 0 ≤ res ∧ r = cqeResult res)
  | .taskSockWrite => (res < 0 ∧ r = cqeResult res) ∨
    (¬ res < 0 ∧ r = cqeResult (toInt64 k.buf.length)) ∨ r = cqeResult (-EAGAIN) ∨
    r = cqeResult (-ECANCELED)
  | _ => r = cqeResult res

theorem dispatchWrite (good : Good P n u) (lawful : P.Lawful n) {res : Int}
    (kind : (u.task t).kind = .taskSockWrite)
    (failed : res < 0 → u.MayEnd P t (cqeResult res))
    (sent : ¬ res < 0 → u.MayEnd P t (cqeResult (toInt64 (u.task t).buf.length))) :
    Good P n (u.dispatchWrite t res) := by
  unfold UringIo.dispatchWrite
  split
  · rename_i negative
    exact good.writeFinish lawful kind (failed negative)
  rename_i okay
  dsimp only
  generalize isNext : u.on (·.sendBytes t res.toNat) = v
  have fields : v.task t = { u.task t with off := (u.task t).off + res.toNat } := by
    rw [← isNext]
    change (u.sendBytes t res.toNat).task t = _
    rw [sendBytes_task, if_pos rfl]
  have next : Good P n v := by
    rw [← isNext]
    refine ⟨good.late, fun s q member => ?_, fun w => ?_⟩
    · obtain ⟨inside, write⟩ := good.queued s q member
      refine ⟨inside, ?_⟩
      change ((u.sendBytes t res.toNat).task q).kind = _
      rw [sendBytes_task]
      split
      · rename_i isT; rw [← isT]; exact write
      · exact write
    · change P w ((u.sendBytes t res.toNat).task w).kind (u.entry w) ((u.sendBytes t res.toNat).task w).res
      rw [sendBytes_task]
      split
      · rename_i isT; rw [isT]; exact good.each t
      · exact good.each w
  have write : (v.task t).kind = .taskSockWrite := by rw [fields]; exact kind
  split
  · split
    · exact next.writeFinish lawful write (next.dropped lawful write (.inr rfl))
    · rcases writeArm_cases v t with got | got <;> rw [got]
      · exact next.tick.sqeFlush lawful _ (.inr write)
      · exact next.tick.writeFinish lawful write (next.tick.dropped lawful write (.inl rfl))
  · refine next.writeFinish lawful write ?_
    have fine := sent okay
    unfold MayEnd at fine ⊢
    have entry : v.entry = u.entry := by rw [← isNext]; rfl
    rw [fields, entry]
    exact fine

/-- A completion whose results are all allowed. -/
theorem drainOp (good : Good P n u) (lawful : P.Lawful n) {res : Int}
    (fine : ∀ r, Possible (u.task t) res r → u.MayEnd P t r) : Good P n (u.drainOp t res) := by
  have taken : Good P n (u.taken t) :=
    Good.aside (u := u.on (·.disarm t)) (good.on (.disarm t) (.same rfl)) rfl rfl
  rw [drainOp_eq]
  unfold dispatch
  have possible : ∀ r, Possible (u.task t) res r → (u.taken t).MayEnd P t r := fine
  cases kind : ((u.taken t).task t).kind
  all_goals
    have isKind : (u.task t).kind = _ := kind
    simp only [Possible, isKind] at possible
    dsimp only
  case taskSleep => exact taken.on (.taskComplete t _) (.taskFinish (possible _ rfl))
  case taskConnect =>
    exact taken.on (.dispatchConnect t res) (.dispatchConnect
      (fun okay p => possible _ (.inl ⟨okay, p, rfl⟩)) fun other => possible _ (.inr ⟨other, rfl⟩))
  case taskAccept =>
    exact taken.on (.dispatchAccept t res) (.dispatchAccept
      (fun okay p => possible _ (.inl ⟨okay, p, rfl⟩)) fun other => possible _ (.inr ⟨other, rfl⟩))
  case taskSockRead =>
    exact taken.on ((Tame.clearRead t).trans (.taskComplete t res))
      ((Stores.clearRead t).trans (.taskFinish (possible _ rfl)))
  case taskSockWrite =>
    exact taken.dispatchWrite lawful kind (fun negative => possible _ (.inl ⟨negative, rfl⟩))
      fun okay => possible _ (.inr (.inl ⟨okay, rfl⟩))
  case taskSockClose => exact taken.on (.dispatchClose t res) (.dispatchClose (possible _ rfl))
  all_goals exact taken.on (.taskComplete t res) (.taskFinish (possible _ rfl))

/-! ### Calls -/

/-- A new task is failed at once. -/
theorem refuse (good : Good P n u) (lawful : P.Lawful n) (late : n ≤ t) {err : Int}
    (which : err = EAGAIN ∨ err = ENOMEM ∨ err = EBUSY) : Good P n (u.on (taskFail · t err)) :=
  good.on (.finish t _) (.finish (lawful.refused t _ _ err late which))

theorem submitPlain (good : Good P n u) (lawful : P.Lawful n) (kind : TaskKind) (len : Nat) :
    Good P n (u.submitPlain kind len) := by
  have asked : Good P n { u.on (·.taskNew { kind }) with tick := u.tick + 1 } :=
    (good.make lawful rfl).tick
  unfold UringIo.submitPlain
  dsimp only
  rcases sqeGet_cases (u.on (·.taskNew { kind })) with got | got <;> rw [got]
  · refine (asked.sqeFlush lawful len (.inl ⟨good.late, ?_⟩)).give _
    simp [UringIo.on, taskNew]
  · exact (asked.refuse lawful good.late (.inl rfl)).give _

theorem implOpen (good : Good P n u) (lawful : P.Lawful n) (mem path : Bool) :
    Good P n (u.implOpen mem path) := by
  unfold UringIo.implOpen
  split
  · split
    · exact good.submitPlain lawful _ 0
    · exact ((good.make lawful rfl).refuse lawful good.late (.inr (.inl rfl))).give _
  · exact good.give _

/-- A submission without arguments of its own. -/
theorem plain (good : Good P n u) (lawful : P.Lawful n) (mem : Bool) (kind : TaskKind) (len : Nat) :
    Good P n (if mem then u.submitPlain kind len else u.give (.submitted none)) := by
  split
  · exact good.submitPlain lawful kind len
  · exact good.give _

theorem implSpawn (good : Good P n u) (lawful : P.Lawful n) (mem : Bool) {ret : Int}
    (fine : ∀ len, P u.ntask .taskSpawn len (fnResult ret)) : Good P n (u.implSpawn mem ret) := by
  unfold UringIo.implSpawn
  split
  · refine Good.give ((good.make lawful rfl).on (.finish _ _) (.finish ?_)) _
    unfold MayEnd
    simpa [UringIo.on, taskNew] using fine _
  · exact good.give _

theorem implTcpConnect (good : Good P n u) (lawful : P.Lawful n) (mem : Bool) {ans : ConnectAns}
    (unresolved : ∀ rc errno, ans = .unresolved rc errno →
      ∀ len, P u.ntask .taskConnect len (rErr (gaiErrno rc errno)))
    (noSocket : ∀ errno, ans = .socket errno → ∀ len, P u.ntask .taskConnect len (rErr errno)) :
    Good P n (u.implTcpConnect mem ans) := by
  have made : Good P n (u.on (·.taskNew { kind := .taskConnect })) := good.make lawful rfl
  have ends : ∀ err, (∀ len, P u.ntask .taskConnect len (rErr err)) →
      Good P n ((u.on (·.taskNew { kind := .taskConnect })).on (taskFail · u.ntask err)) := by
    intro err fine
    refine made.on (.finish _ _) (.finish ?_)
    unfold MayEnd
    simpa [UringIo.on, taskNew] using fine _
  unfold UringIo.implTcpConnect
  split
  case isFalse => exact good.give _
  dsimp only
  refine Good.give ?_ _
  cases ans with
  | unresolved rc errno => exact ends _ (unresolved rc errno rfl)
  | socket errno => exact ends _ (noSocket errno rfl)
  | opened memSock =>
    have opened := made.on (f := (·.newDesc)) .newDesc (.same rfl)
    dsimp only
    split
    · have wrapped := (opened.on (f := (·.sockNew (some u.ndesc))) (.sockNew _) (.same rfl)).on
        (f := (·.modTask u.ntask ({ · with sock := some u.nsock }))) (.modTask _ _ rfl rfl id rfl)
        (.note rfl)
      split
      · rename_i v got
        cases sqeGet_fst got
        refine wrapped.tick.sqeFlush lawful 0 (.inl ⟨good.late, ?_⟩)
        simp [UringIo.on, taskNew, newDesc, sockNew, modTask]
      · rename_i v got
        cases sqeGet_fst got
        have released := (wrapped.tick.on (f := (·.sockRelease u.nsock)) (.sockRelease _)
          (.sockRelease _)).on (f := (·.modTask u.ntask ({ · with sock := none }))) (.sever _) (.note rfl)
        exact released.refuse lawful good.late (.inl rfl)
    · exact (opened.on (.closeDesc _) (.same rfl)).refuse lawful good.late (.inr (.inl rfl))

theorem implTcpListen (good : Good P n u) (ans : ListenAns) : Good P n (u.implTcpListen ans) := by
  unfold UringIo.implTcpListen
  have opened := good.on (f := (·.newDesc)) .newDesc (.same rfl)
  cases ans with
  | badHost => exact good.give _
  | socket errno => exact good.give _
  | bind errno => exact (opened.on (.closeDesc _) (.same rfl)).give _
  | listening mem =>
    dsimp only
    split
    · exact ((opened.on (.sockNew _) (.same rfl)).on (.same rfl rfl rfl fun _ _ => id) (.same rfl)).give _
    · exact (opened.on (.closeDesc _) (.same rfl)).give _

theorem implTcpAccept (good : Good P n u) (lawful : P.Lawful n) (mem memSock : Bool) (ls : SockId) :
    Good P n (u.implTcpAccept mem memSock ls) := by
  have made : Good P n (u.on (·.taskNew { kind := .taskAccept })) := good.make lawful rfl
  unfold UringIo.implTcpAccept
  split
  case isFalse => exact good.give _
  dsimp only
  refine Good.give ?_ _
  split
  · exact made.refuse lawful good.late (.inr (.inr rfl))
  split
  · have wrapped := (made.on (f := (·.sockNew none)) (.sockNew _) (.same rfl)).on
      (f := (·.modTask u.ntask ({ · with newsock := some u.nsock }))) (.modTask _ _ rfl rfl id rfl)
      (.note rfl)
    split
    · rename_i v got
      cases sqeGet_fst got
      have flushed := wrapped.tick.sqeFlush (t := u.ntask) lawful 0
        (.inl ⟨good.late, by simp [UringIo.on, taskNew, sockNew, modTask]⟩)
      exact (flushed.on (f := (·.modTask u.ntask ({ · with sock := some ls })))
        (.modTask _ _ rfl rfl id rfl) (.note rfl)).on (.modSock _ _ fun _ => id) (.modSock _ _)
    · rename_i v got
      cases sqeGet_fst got
      have released := (wrapped.tick.on (f := (·.sockRelease u.nsock)) (.sockRelease _)
        (.sockRelease _)).on (f := (·.modTask u.ntask ({ · with newsock := none }))) (.unwrap _) (.note rfl)
      exact released.refuse lawful good.late (.inl rfl)
  · exact made.refuse lawful good.late (.inr (.inl rfl))

theorem implSockRead (good : Good P n u) (lawful : P.Lawful n) (mem : Bool) (s : SockId) (len : Nat) :
    Good P n (u.implSockRead mem s len) := by
  have made : Good P n (u.on (·.taskNew { kind := .taskSockRead })) := good.make lawful rfl
  unfold UringIo.implSockRead
  split
  case isFalse => exact good.give _
  dsimp only
  refine Good.give ?_ _
  split
  · exact made.refuse lawful good.late (.inr (.inr rfl))
  split
  · rename_i v got
    cases sqeGet_fst got
    have flushed := made.tick.sqeFlush (t := u.ntask) lawful len
      (.inl ⟨good.late, by simp [UringIo.on, taskNew]⟩)
    exact (flushed.on (f := (·.modTask u.ntask ({ · with sock := some s })))
      (.modTask _ _ rfl rfl id rfl) (.note rfl)).on (.modSock _ _ fun _ => id) (.modSock _ _)
  · rename_i v got
    cases sqeGet_fst got
    exact made.tick.refuse lawful good.late (.inl rfl)

/-- A write joins its socket's FIFO. -/
theorem push (good : Good P n u) {q : TaskId} (inside : q < u.ntask)
    (kind : (u.task q).kind = .taskSockWrite) (s : SockId) :
    Good P n (u.on (·.modSock s fun k => { k with wq := (wqPush k.wq q).1 })) := by
  refine { good with queued := fun v m member => ?_ }
  simp only [UringIo.on, modSock, Function.update_apply, wqPush] at member
  split at member
  · rcases List.mem_append.mp member with before | new
    · exact good.queued s m before
    · rw [List.mem_singleton.mp new]; exact ⟨inside, kind⟩
  · exact good.queued v m member

theorem implSockWrite (good : Good P n u) (lawful : P.Lawful n) (mem : Bool) (s : SockId)
    (buf : List UInt8) : Good P n (u.implSockWrite mem s buf) := by
  unfold UringIo.implSockWrite
  split
  case isFalse => exact good.give _
  dsimp only
  refine Good.give ?_ _
  generalize isNew : u.on (·.taskNew
    { kind := .taskSockWrite, sock := some s, buf, fd := (u.sock s).fd, on := some s }) = v
  have made : Good P n v := by rw [← isNew]; exact good.make lawful rfl
  have kind : (v.task u.ntask).kind = .taskSockWrite := by rw [← isNew]; simp [UringIo.on, taskNew]
  have pushed := made.push (q := u.ntask) (by rw [← isNew]; exact Nat.lt_succ_self _) kind s
  generalize isPushed : v.on (·.modSock s fun k => { k with wq := (wqPush k.wq u.ntask).1 }) = w
    at pushed ⊢
  have kindW : (w.task u.ntask).kind = .taskSockWrite := by rw [← isPushed]; exact kind
  split
  · rcases writeArm_cases w u.ntask with got | got <;> rw [got]
    · exact pushed.tick.sqeFlush lawful _ (.inr kindW)
    · have popped := (pushed.tick.on (f := (·.modSock s fun k => { k with wq := (wqPop k.wq).1 }))
        (.pop s) (.modSock s _)).on (f := (·.modTask u.ntask ({ · with sock := none }))) (.sever _) (.note rfl)
      exact popped.refuse lawful good.late (.inl rfl)
  · exact pushed

theorem severRead (good : Good P n u) (s : SockId) : Good P n (u.severRead s) := by
  unfold UringIo.severRead
  split
  · exact (good.cancelSubmit.on (.sever _) (.note rfl)).on (.modSock _ _ fun _ => id) (.modSock _ _)
  · exact good

theorem severAccept (good : Good P n u) (s : SockId) : Good P n (u.severAccept s) := by
  unfold UringIo.severAccept
  split
  · exact (good.cancelSubmit.on (.sever _) (.note rfl)).on (.modSock _ _ fun _ => id) (.modSock _ _)
  · exact good

theorem severWrites (good : Good P n u) (lawful : P.Lawful n) (s : SockId) :
    Good P n (u.severWrites s) := by
  unfold UringIo.severWrites
  split
  · exact good
  · have asked := good.cancelSubmit
    exact asked.on (.dismantle s) (.dismantle fun q member =>
      asked.dropped lawful (asked.queued s q member).2 (.inr rfl))

end Good

/-! ### Closing a socket -/

theorem Stores.cancelSubmit : Stores Q u.toCore u.cancelSubmit.1.toCore := by
  rcases cancelSubmit_cases u with got | got <;> rw [got] <;> exact .same rfl

theorem Stores.severRead (s : SockId) : Stores Q u.toCore (u.severRead s).toCore := by
  unfold UringIo.severRead
  split
  · rename_i rt named
    exact (cancelSubmit.trans (.note (t := rt) (f := ({ · with sock := none })) rfl)).trans (.same rfl)
  · exact .refl _

theorem Stores.severAccept (s : SockId) : Stores Q u.toCore (u.severAccept s).toCore := by
  unfold UringIo.severAccept
  split
  · rename_i at_ named
    exact (cancelSubmit.trans (.note (t := at_) (f := ({ · with sock := none })) rfl)).trans (.same rfl)
  · exact .refl _

theorem Stores.severWrites (fine : ∀ q ∈ (u.sock s).wq, Q q (cqeResult (-ECANCELED))) :
    Stores Q u.toCore (u.severWrites s).toCore := by
  unfold UringIo.severWrites
  split
  · exact .refl _
  · refine cancelSubmit.trans (Stores.dismantle fun q member => fine q ?_)
    exact Keeps.cancelSubmit.wq s q member

/-- A closed socket gives up its tasks, and no other task hears of it. -/
theorem severs_res (queued : ∀ q ∈ (u.sock s).wq, q ≠ t) :
    ((((u.severRead s).severAccept s).severWrites s).task t).res = (u.task t).res := by
  have kept : Keeps u ((u.severRead s).severAccept s) := (Keeps.severRead s).trans (.severAccept s)
  have stores : Stores (fun q _ => q ≠ t) u.toCore (((u.severRead s).severAccept s).severWrites s).toCore :=
    ((Stores.severRead s).trans (.severAccept s)).trans
      (.severWrites fun q member => queued q (kept.wq s q member))
  rcases stores t with same | never
  · exact same
  · exact absurd rfl never

namespace Good

theorem implSockClose (good : Good P n u) (lawful : P.Lawful n) (mem : Bool) (s : SockId) :
    Good P n (u.implSockClose mem s) := by
  unfold UringIo.implSockClose
  split
  case isFalse => exact good.give _
  dsimp only
  refine Good.give ?_ _
  have made : Good P n (u.on (·.taskNew { kind := .taskSockClose })) := good.make lawful rfl
  have marked := made.on (f := (·.markShut s)) (.same rfl rfl rfl fun _ _ => id) (.same rfl)
  generalize isMarked : (u.on (·.taskNew { kind := .taskSockClose })).on (·.markShut s) = v at marked ⊢
  have severed := ((marked.severRead s).severAccept s).severWrites lawful s
  have res : ((((v.severRead s).severAccept s).severWrites s).task u.ntask).res = rPending := by
    rw [severs_res fun q member => ?_, ← isMarked]
    · simp [UringIo.on, taskNew, markShut]
    · rw [← isMarked] at member
      exact Nat.ne_of_lt (good.queued s q member).1
  generalize ((v.severRead s).severAccept s).severWrites s = w at severed res ⊢
  split
  · rename_i x got
    cases sqeGet_fst got
    exact (severed.tick.sqeFlush lawful 0 (.inl ⟨good.late, res⟩)).on (.modTask _ _ rfl rfl id rfl) (.note rfl)
  · rename_i x got
    cases sqeGet_fst got
    exact severed.tick.refuse lawful good.late (.inl rfl)

/-! ### Canceling, freeing and teardown -/

theorem cancelReturn (good : Good P n u) (t : TaskId) (free : Bool) (rc : Int) :
    Good P n (u.cancelReturn t free rc) := by
  unfold UringIo.cancelReturn
  split
  · exact good.user _
  · exact good.give _

theorem implCancel (good : Good P n u) (lawful : P.Lawful n) (t : TaskId) (free : Bool) :
    Good P n (u.implCancel t free) := by
  have asked := good.cancelSubmit
  unfold UringIo.implCancel
  split
  · exact good.cancelReturn t free _
  split
  case h_9 kind =>
    dsimp only
    split
    · rename_i s queued
      have left := (good.on (f := (·.modSock s fun k => { k with wq := wqRemove k.wq t }))
        (.modSock _ _ fun _ => List.mem_of_mem_erase) (.modSock _ _)).on
        (f := (·.modTask t ({ · with sock := none }))) (.sever t) (.note rfl)
      refine Good.cancelReturn (left.on (.taskComplete t _) (.taskFinish ?_)) t free 0
      refine left.dropped lawful ?_ (.inr rfl)
      simpa [UringIo.on, modTask, modSock] using kind
    · rcases cancelSubmit_cases u with got | got <;> rw [got] at asked ⊢
      · exact (asked.on (.modTask _ _ rfl rfl id rfl) (.note rfl)).user _
      · exact asked.cancelReturn t free _
  case h_10 => exact good.cancelReturn t free _
  all_goals
    rcases cancelSubmit_cases u with got | got <;> rw [got] at asked ⊢
    · exact asked.user _
    · exact asked.cancelReturn t free _

theorem freeTask (good : Good P n u) (t : TaskId) : Good P n (u.freeTask t) :=
  (good.on (f := fun c => { c.freeMem t with held := Function.update c.held t false })
    ((Tame.freeMem t).trans (.same rfl rfl rfl fun _ _ => id))
    ((Stores.note (t := t) (f := fun k => { k with frees := k.frees + 1 }) rfl).trans (.same rfl))).aside
    rfl rfl

theorem implTaskDetach (good : Good P n u) (t : TaskId) : Good P n (u.implTaskDetach t) := by
  unfold UringIo.implTaskDetach
  split
  · exact (good.on (f := fun c => { c.taskReap t with held := Function.update c.held t false })
      ((Tame.taskReap t).trans (.same rfl rfl rfl fun _ _ => id))
      ((Stores.taskReap t).trans (.same rfl))).aside rfl rfl
  · exact (good.on (f := fun c => { c.modTask t ({ · with detached := true }) with
        held := Function.update c.held t false })
      ((Tame.modTask t (fun k => { k with detached := true }) rfl rfl id rfl).trans
        (.same rfl rfl rfl fun _ _ => id))
      ((Stores.note (t := t) (f := ({ · with detached := true })) rfl).trans (.same rfl))).aside rfl rfl

theorem cancelAll (l : List TaskId) : ∀ {u : UringIo}, Good P n u → Good P n (u.cancelAll l) := by
  induction l with
  | nil => intro u good; exact good
  | cons t rest ih =>
    intro u good
    unfold UringIo.cancelAll
    split
    · exact ih good
    · exact ih good.cancelSubmit

theorem implDestroy (good : Good P n u) (lawful : P.Lawful n) : Good P n u.implDestroy := by
  unfold UringIo.implDestroy
  refine (Good.cancelAll _ (good.on (.dismantleAll _) (.dismantleAll _ fun s q member => ?_))).user _
  exact good.dropped lawful (good.queued s q member).2 (.inr rfl)

end Good

/-- The results that the environment's answers lead to are allowed. -/
def Grants (P : Law) (u : UringIo) : Label → Prop
  | .spawn _ ret => ∀ len, P u.ntask .taskSpawn len (fnResult ret)
  | .tcpConnect _ (.unresolved rc errno) => ∀ len, P u.ntask .taskConnect len (rErr (gaiErrno rc errno))
  | .tcpConnect _ (.socket errno) => ∀ len, P u.ntask .taskConnect len (rErr errno)
  | .cqe t res => ∀ r, Good.Possible (u.task t) res r → u.MayEnd P t r
  | _ => True

namespace Good

theorem call {label : Label} (good : Good P n u) (lawful : P.Lawful n) (grants : u.Grants P label)
    (taken : u.call label = some u') : Good P n u' := by
  cases label <;> simp only [UringIo.call, Option.some.injEq, reduceCtorEq] at taken
  all_goals subst taken
  case «open» mem path => exact good.implOpen lawful mem path
  case close mem => exact good.plain lawful mem _ 0
  case read mem len => exact good.plain lawful mem _ len
  case write mem len => exact good.plain lawful mem _ len
  case sleep mem => exact good.plain lawful mem _ 0
  case spawn mem ret => exact good.implSpawn lawful mem grants
  case tcpConnect mem ans =>
    refine good.implTcpConnect lawful mem (fun rc errno isAns => ?_) fun errno isAns => ?_
    · subst isAns; exact grants
    · subst isAns; exact grants
  case tcpListen ans => exact good.implTcpListen ans
  case tcpAccept mem memSock ls => exact good.implTcpAccept lawful mem memSock ls
  case sockRead mem s len => exact good.implSockRead lawful mem s len
  case sockWrite mem s buf => exact good.implSockWrite lawful mem s buf
  case sockClose mem s => exact good.implSockClose lawful mem s
  case step =>
    unfold implStep
    split
    · exact good.give _
    · exact good.user _
  case cancel t => exact good.implCancel lawful t false
  case free t =>
    unfold implTaskFree
    split
    · exact good.freeTask t
    · exact good.implCancel lawful t true
  case detach t => exact good.implTaskDetach t
  case result t =>
    refine good.on (.readResult t) (.same ?_)
    unfold readResult
    split <;> rfl
  case destroy => exact good.implDestroy lawful

/-- Every step keeps the results to the law. -/
theorem step {label : Label} (good : Good P n u) (lawful : P.Lawful n) (grants : u.Grants P label)
    (taken : u.step label = some u') : Good P n u' := by
  cases label with
  | cqe t res =>
    simp only [UringIo.step] at taken
    split at taken
    · split at taken
      · cases taken
        exact (good.drainOp lawful grants).user _
      · cases taken
    · cases taken
  | cancelCqe =>
    simp only [UringIo.step] at taken
    split at taken
    · split at taken
      · cases taken
        exact good.aside rfl rfl
      · cases taken
    · cases taken
  | drained =>
    simp only [UringIo.step] at taken
    split at taken
    · cases taken
      unfold UringIo.drained
      split
      · exact good.give _
      · exact good.user _
      · exact good.user _
      · exact good.user _
    · cases taken
  | resume =>
    simp only [UringIo.step] at taken
    split at taken
    · cases taken
      unfold cancelLoop
      split
      · exact good.cancelReturn _ _ _
      split
      · exact good.cancelReturn _ _ _
      · exact good.user _
    · cases taken
      unfold freeLoop
      split
      · exact good.freeTask _
      · exact good.user _
    · cases taken
      unfold destroyLoop
      split
      · exact ((good.on (.freeAll _) (.freeAll _)).on (.sweep _) (.sweep _)).user _
      · exact good.user _
    · cases taken
  | _ =>
    simp only [UringIo.step] at taken
    split at taken
    · exact good.call lawful grants taken
    · cases taken

end Good

end UringIo

end Myio.Loop
