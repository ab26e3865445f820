import Myio.Loop.Ends
import Myio.ZLoop.Code

/-! The code of the Zephyr event loop as moves. -/

namespace Myio.Loop

open Function (update)
open Loop.Core

namespace ZIo

/-- The pointers of a pending task: only an accept of io_uring has a socket prepared in advance. -/
def zShape : TaskKind → Option SockId → Option SockId → Option SockId → Prop
  | .taskConnect, sock, newsock, _ | .taskAccept, sock, newsock, _
  | .taskSockRead, sock, newsock, _ => sock ≠ none ∧ newsock = none
  | .taskSockWrite, sock, newsock, on => sock ≠ none ∧ newsock = none ∧ on = sock
  | .taskTimer, sock, newsock, _ | .taskSpawn, sock, newsock, _ => sock = none ∧ newsock = none
  | _, _, _, _ => False

/-- Code that completes neither a write nor a spawned task, and gives up no handle. -/
def calm : Rules := ⟨fun kind _ => kind ≠ .taskSpawn ∧ kind ≠ .taskSockWrite, zShape, (· ≠ .taskSpawn), False, False, False, True⟩

/-- Code that completes writes only, and cancels none. -/
def eager : Rules := ⟨fun kind res => kind = .taskSockWrite ∧ res.status ≠ .canceled, zShape, (· ≠ .taskSpawn), False, False, False, True⟩

/-- Code that completes no spawned task and cancels no write. -/
def steady : Rules :=
  ⟨fun kind res => kind ≠ .taskSpawn ∧ (kind = .taskSockWrite → res.status ≠ .canceled), zShape, (· ≠ .taskSpawn), False, False, False, True⟩

/-- Code that completes no spawned task. -/
def firm : Rules := ⟨fun kind _ => kind ≠ .taskSpawn, zShape, (· ≠ .taskSpawn), False, False, False, True⟩

/-- Code of the user thread that cancels no write, but may give up handles. -/
def rough : Rules :=
  ⟨fun kind res => kind = .taskSockWrite → res.status ≠ .canceled, zShape, fun _ => True, False, True, False, True⟩

/-- Code that completes nothing, but may give up handles. -/
def still : Rules := ⟨fun _ _ => False, zShape, fun _ => False, False, True, False, True⟩

/-- Code of the user thread, whatever it completes. -/
def mine : Rules := ⟨fun _ _ => True, zShape, fun _ => True, False, True, False, True⟩

/-- Code that completes nothing, and writes the fields without links. -/
def noting : Rules := ⟨fun _ _ => False, zShape, fun _ => False, False, False, True, True⟩

/-- Code that may do anything. -/
def loud : Rules := ⟨fun _ _ => True, zShape, fun _ => True, False, True, True, True⟩

theorem steady_of_calm {a b : Cut} (moves : Moves calm a b) : Moves steady a b :=
  moves.mono (fun _ _ allowed => ⟨allowed.1, fun isWrite => absurd isWrite allowed.2⟩) rfl (fun _ => id) id id id

theorem steady_of_eager {a b : Cut} (moves : Moves eager a b) : Moves steady a b := by
  refine moves.mono (fun kind _ allowed => ⟨?_, fun _ => allowed.2⟩) rfl (fun _ => id) id id id
  rw [allowed.1]
  decide

theorem firm_of_steady {a b : Cut} (moves : Moves steady a b) : Moves firm a b :=
  moves.mono (fun _ _ allowed => allowed.1) rfl (fun _ => id) id id id

theorem rough_of_steady {a b : Cut} (moves : Moves steady a b) : Moves rough a b :=
  moves.mono (fun _ _ allowed => allowed.2) rfl (fun _ _ => trivial) id
    (fun never => never.elim) id

theorem rough_of_still {a b : Cut} (moves : Moves still a b) : Moves rough a b :=
  moves.mono (fun _ _ never => never.elim) rfl (fun _ never => never.elim) id id id

theorem mine_of {r : Rules} {a b : Cut} (moves : Moves r a b) (frame : r.frame = (zShape, True))
    (early : ¬ r.early) (notes : ¬ r.notes) : Moves mine a b :=
  moves.mono (fun _ _ _ => trivial) frame.symm (fun _ _ => trivial) early (fun _ => trivial) notes

theorem loud_of {r : Rules} {a b : Cut} (moves : Moves r a b) (frame : r.frame = (zShape, True))
    (early : ¬ r.early) : Moves loud a b :=
  moves.mono (fun _ _ _ => trivial) frame.symm (fun _ _ => trivial) early (fun _ => trivial)
    fun _ => trivial

/-- All the rules have the same invariants. -/
theorem sound_after {r : Rules} {a b : Cut} (sound : Sound calm a) (frame : r.frame = (zShape, True))
    (moves : Moves r a b) : Sound calm b :=
  ((sound.rules frame).moves moves).rules frame.symm

variable {c : Core} {x : TaskId → Bool} {h : SockId → Bool} {t u : TaskId} {s : SockId}
  {e : Result}

/-- A task that enters and leaves the code's hands is in nobody's. -/
theorem out_back (t : TaskId) :
    update (update (fun _ => false) t true) t false = fun _ : TaskId => false := by
  funext u
  simp [Function.update_apply]

/-- A task made in this call cannot complete yet. -/
theorem absent_new (sound : Sound calm ⟨c, x, h⟩) : c.ntask ∉ c.armed := fun inside =>
  Nat.lt_irrefl _ ((sound.placed.armed _).mp inside).1.1

/-- A record as `task_new` leaves it, for the kinds that get their socket later or never. -/
theorem fresh_bare (kind : TaskKind) (other : kind ≠ .taskSockWrite) (deadline : Int) :
    c.Fresh { kind, deadline } := by
  constructor <;> simp [other]

/-- A record as `impl_tcp_accept` and `impl_sock_read` fill it. -/
theorem fresh_on (kind : TaskKind) (other : kind ≠ .taskSockWrite) (connect : kind ≠ .taskConnect)
    (live : s ∈ c.socks) (mine : c.claimed s = true) : c.Fresh { kind, sock := some s } := by
  constructor <;> simp [other, connect, live, mine]

/-- A record as `impl_sock_write` fills it. -/
theorem fresh_write (buf : List UInt8) (live : s ∈ c.socks) (mine : c.claimed s = true) :
    c.Fresh { kind := .taskSockWrite, sock := some s, buf, fd := (c.sock s).fd, on := some s } := by
  constructor <;> simp [live, mine]

/-- A task in hand that is not armed is completed. -/
theorem complete_out (submitted : t < c.ntask) (isOpen : (c.task t).done = false)
    (out : x t = true) (absent : t ∉ c.armed) (settles : c.Settles True x t e)
    (kind : (c.task t).kind ≠ .taskSpawn ∧ (c.task t).kind ≠ .taskSockWrite)
    (live : ∀ s, e.ptr = some s → s ∈ c.socks) :
    Moves calm ⟨c, x, h⟩ ⟨taskComplete c t e, update x t false, h⟩ := by
  unfold taskComplete
  rw [disarm_eq absent]
  exact settle_moves submitted isOpen out settles kind live

/-- A submission that is complete when it returns. -/
theorem inline_moves (sound : Sound calm c.rest) (status : e.status ≠ .pending)
    (ptr : e.ptr = none) :
    Moves calm c.rest (taskComplete (c.taskNew { kind := .taskInline }) c.ntask e).rest := by
  have made : Moves calm c.rest ⟨c.taskNew { kind := .taskInline }, update (fun _ => false) c.ntask true,
      fun _ => false⟩ := .one (.make (fresh_bare .taskInline (by decide) 0) (by simp [calm]))
  have new : (c.taskNew { kind := .taskInline }).task c.ntask = { kind := .taskInline } := by
    simp [taskNew]
  have ended := complete_out (c := c.taskNew { kind := .taskInline }) (t := c.ntask) (e := e)
    (x := update (fun _ => false) c.ntask true) (h := fun _ => false) (Nat.lt_succ_self _)
    (by rw [new]) (by simp) (absent_new sound)
    (Settles.plain status ptr (.inl (by rw [new]; decide))) (by rw [new]; decide)
    fun s points => by rw [ptr] at points; cases points
  rw [out_back] at ended
  exact made.trans ended

/-- A pending task with no socket, or about to be without one, is completed. -/
theorem complete_pending {r : Rules} (sound : Sound calm ⟨c, x, h⟩) (pending : c.Pending x t)
    (read : (c.task t).kind ≠ .taskSockRead) (accept : (c.task t).kind ≠ .taskAccept)
    (write : (c.task t).kind ≠ .taskSockWrite) (allowed : r.ends (c.task t).kind e)
    (status : e.status ≠ .pending) (ptr : e.ptr = none) :
    Moves r ⟨c, x, h⟩ ⟨taskComplete c t e, x, h⟩ := by
  have ended := complete_moves (r := r) (h := h) pending (.inl write) status ptr (.inl write) allowed
  rw [sound.placed.leave_other pending read accept write] at ended
  exact ended

/-- The one reader of a socket is completed. -/
theorem complete_read (sound : Sound calm ⟨c, x, h⟩) (pending : c.Pending x t)
    (kind : (c.task t).kind = .taskSockRead) (sock : (c.task t).sock = some s)
    (status : e.status ≠ .pending) (ptr : e.ptr = none) :
    Moves calm ⟨c, x, h⟩
      ⟨taskComplete (c.modSock s ({ · with readTask := none })) t e, x, h⟩ := by
  have ended := complete_moves (r := calm) (h := h) pending (.inl (by simp [kind])) status ptr
    (.inl (by simp [kind])) (by simp [calm, kind])
  rw [sound.placed.leave_read pending kind sock] at ended
  exact ended

/-- The one accepter of a socket is completed without a new socket. -/
theorem complete_accept (sound : Sound calm ⟨c, x, h⟩) (pending : c.Pending x t)
    (kind : (c.task t).kind = .taskAccept) (sock : (c.task t).sock = some s)
    (status : e.status ≠ .pending) (ptr : e.ptr = none) :
    Moves calm ⟨c, x, h⟩
      ⟨taskComplete (c.modSock s ({ · with acceptTask := none })) t e, x, h⟩ := by
  have ended := complete_moves (r := calm) (h := h) pending (.inl (by simp [kind])) status ptr
    (.inl (by simp [kind])) (by simp [calm, kind])
  rw [sound.placed.leave_accept pending kind sock] at ended
  exact ended

/-- A pending task whose kind acts on a socket has one. -/
theorem sock_of_kind (sound : Sound calm ⟨c, x, h⟩) (pending : c.Pending x t)
    (kind : (c.task t).kind = .taskConnect ∨ (c.task t).kind = .taskAccept ∨
      (c.task t).kind = .taskSockRead ∨ (c.task t).kind = .taskSockWrite) :
    ∃ s, (c.task t).sock = some s := by
  have fits := sound.shaped t pending
  unfold Rules.Fits calm zShape at fits
  cases sock : (c.task t).sock with
  | some s => exact ⟨s, rfl⟩
  | none => rcases kind with is | is | is | is <;> simp [is, sock] at fits

/-! ### Connecting -/

/-- What a pending connect keeps to itself. -/
theorem connect_sole (sound : Sound calm ⟨c, x, h⟩) (pending : c.Pending x t)
    (kind : (c.task t).kind = .taskConnect) (sock : (c.task t).sock = some s) :
    s ∈ c.socks ∧ s < c.nsock ∧ c.claimed s = false ∧
      (∀ u, u < c.ntask → (c.task u).res.ptr ≠ some s) ∧
      ∀ u, u < c.ntask → (c.task u).done = false → c.Refers u s → u = t := by
  obtain ⟨mine, noPtr, only⟩ := sound.built.sole t s pending.1 pending.2.1 (.inl ⟨kind, sock⟩)
  have live := sound.placed.live t s pending (.inl sock)
  exact ⟨live, sound.linked.bound s live, mine, noPtr, only⟩

/-- A pending connect lets go of its socket. -/
theorem connect_out (sound : Sound calm ⟨c, x, h⟩) (pending : c.Pending x t)
    (kind : (c.task t).kind = .taskConnect) :
    Moves calm ⟨c, x, h⟩
      ⟨(c.modTask t ({ · with sock := none })).disarm t, update x t true, h⟩ := by
  have left := exit_moves (r := calm) (h := h) pending (.inl (by simp [kind]))
  rw [sound.placed.leave_other pending (by simp [kind]) (by simp [kind]) (by simp [kind])] at left
  exact left.snoc (.drop (p := none) (q := (c.task t).newsock) (by simp) (.inl rfl) (.inr rfl))

/-- What has not been touched while a connect lets go of its socket. -/
theorem dropped_refers (other : u ≠ t) :
    ((c.modTask t ({ · with sock := none })).disarm t).Refers u s ↔ c.Refers u s := by
  simp [Refers, disarm, modTask, other]

/-- A connect that succeeds hands its socket over. -/
theorem connect_won (sound : Sound calm ⟨c, x, h⟩) (pending : c.Pending x t)
    (kind : (c.task t).kind = .taskConnect) (sock : (c.task t).sock = some s) :
    Moves calm ⟨c, x, h⟩
      ⟨taskComplete (c.modTask t ({ · with sock := none })) t (rOk 0 (some s)), x, h⟩ := by
  obtain ⟨live, made, mine, noPtr, only⟩ := connect_sole sound pending kind sock
  have fields : ((c.modTask t ({ · with sock := none })).disarm t).task t =
      { c.task t with sock := none } := by simp [disarm, modTask]
  have settles : ((c.modTask t ({ · with sock := none })).disarm t).Settles True (update x t true) t
      (rOk 0 (some s)) := by
    refine ⟨by simp, fun u points => ?_, fun _ isWrite => ?_⟩
    · obtain rfl : s = u := by simpa using points
      refine ⟨made, mine, fun v inside => ?_, fun v inside isOpen other refers => ?_⟩
      · have := noPtr v inside
        simp only [disarm, modTask, Function.update_apply]
        split
        · rename_i same; subst same; exact this
        · exact this
      · rw [dropped_refers other] at refers
        have isOpen' : (c.task v).done = false := by simpa [disarm, modTask, other] using isOpen
        exact other (only v inside isOpen' refers)
    · rw [fields] at isWrite; simp [kind] at isWrite
  have ended := settle_moves (r := calm) (c := (c.modTask t ({ · with sock := none })).disarm t)
    (x := update x t true) (h := h) (t := t) (e := rOk 0 (some s)) pending.1
    (by rw [fields]; exact pending.2.1) (by simp) settles (by rw [fields]; simp [calm, kind])
    (fun u points => by obtain rfl : s = u := by simpa using points
                        exact live)
  rw [pending.back] at ended
  exact (connect_out sound pending kind).trans ended

/-- A connect that is over without a socket gives up the one it was building. -/
theorem connect_lost (sound : Sound calm ⟨c, x, h⟩) (pending : c.Pending x t)
    (kind : (c.task t).kind = .taskConnect) (sock : (c.task t).sock = some s)
    (status : e.status ≠ .pending) (ptr : e.ptr = none) :
    Moves calm ⟨c, x, h⟩
      ⟨taskComplete ((c.modTask t ({ · with sock := none })).sockRelease s) t e, x, h⟩ := by
  obtain ⟨live, made, mine, noPtr, only⟩ := connect_sole sound pending kind sock
  have fields : ((c.modTask t ({ · with sock := none })).disarm t).task t =
      { c.task t with sock := none } := by simp [disarm, modTask]
  have unused : ((c.modTask t ({ · with sock := none })).disarm t).Unused (update x t true) s := by
    refine ⟨live, fun u there refers => ?_⟩
    have other : u ≠ t := by rintro rfl; simp [Pending] at there
    rw [dropped_refers other] at refers
    have isOpen : (c.task u).done = false := by simpa [disarm, modTask, other] using there.2.1
    exact other (only u there.1 isOpen refers)
  have released := (connect_out sound pending kind).snoc (.release unused)
  have ended := settle_moves (r := calm)
    (c := ((c.modTask t ({ · with sock := none })).disarm t).sockRelease s)
    (x := update x t true) (h := h) (t := t) (e := e) pending.1
    (by change (((c.modTask t ({ · with sock := none })).disarm t).task t).done = false
        rw [fields]; exact pending.2.1) (by simp)
    (Settles.plain status ptr (.inl (by
      change (((c.modTask t ({ · with sock := none })).disarm t).task t).kind ≠ _
      rw [fields]; simp [kind])))
    (by change calm.ends (((c.modTask t ({ · with sock := none })).disarm t).task t).kind _
        rw [fields]; simp [calm, kind])
    fun u points => by rw [ptr] at points; cases points
  rw [pending.back] at ended
  exact released.trans ended

/-- `connect_ready`. -/
theorem connectReady_moves (sound : Sound calm ⟨c, x, h⟩) (pending : c.Pending x t)
    (kind : (c.task t).kind = .taskConnect) (soerr : Int) :
    Moves calm ⟨c, x, h⟩ ⟨connectReady c t soerr, x, h⟩ := by
  obtain ⟨s, sock⟩ := sock_of_kind sound pending (.inl kind)
  have isSock : c.sockOf t = s := by simp [sockOf, sock]
  unfold connectReady
  simp only [isSock]
  split
  · exact connect_won sound pending kind sock
  · exact connect_lost sound pending kind sock (by simp) (by simp)

/-- A task that completes without a socket does not care when another socket is released. -/
theorem taskComplete_release (ptr : e.ptr = none) :
    (taskComplete c t e).sockRelease s = taskComplete (c.sockRelease s) t e := by
  unfold taskComplete
  rw [finish_reapIfDetached, finish_reapIfDetached, reaped_plain _ _ ptr, reaped_plain _ _ ptr]
  rfl

/-- A task need not be armed to be completed. -/
theorem taskComplete_arm (absent : t ∉ c.armed) :
    taskComplete (c.arm t) t e = taskComplete c t e := by
  unfold taskComplete
  rw [disarm_eq absent]
  have same : (c.arm t).disarm t = c := by simp [arm, disarm]
  rw [same]

/-- A pending connect is canceled. -/
theorem connect_canceled (sound : Sound calm ⟨c, x, h⟩) (pending : c.Pending x t)
    (kind : (c.task t).kind = .taskConnect) (sock : (c.task t).sock = some s) :
    Moves calm ⟨c, x, h⟩
      ⟨(taskCanceled (c.modTask t ({ · with sock := none })) t).sockRelease s, x, h⟩ := by
  unfold taskCanceled
  rw [taskComplete_release (by simp)]
  exact connect_lost sound pending kind sock (by simp) (by simp)

/-- A descriptor that does not become a socket. -/
theorem waste_moves (sound : Sound calm ⟨c, x, h⟩) :
    Moves calm ⟨c, x, h⟩ ⟨c.newDesc.closeDesc c.ndesc, x, h⟩ :=
  (Moves.one .newDesc).snoc (.closeDesc sound.linked.loose_new)

/-- A descriptor that becomes a socket nobody knows. -/
theorem wrap_moves (sound : Sound calm ⟨c, x, h⟩) :
    Moves calm ⟨c, x, h⟩ ⟨c.newDesc.sockNew (some c.ndesc), x, h⟩ ∧
      (c.newDesc.sockNew (some c.ndesc)).Sole c.nsock := by
  refine ⟨(Moves.one .newDesc).snoc (.sockNew (fun d isFd => ?_) fun none => by cases none), ?_⟩
  · obtain rfl : c.ndesc = d := by simpa using isFd
    exact sound.linked.loose_new
  · constructor
    case live => exact List.mem_cons_self
    case mine =>
      change c.claimed c.nsock = false
      cases given : c.claimed c.nsock with
      | false => rfl
      | true => exact absurd (sound.built.claimed _ given) (Nat.lt_irrefl _)
    case tasks =>
      intro u inside isOpen refers
      exact Nat.lt_irrefl _ (sound.built.bound u _ inside isOpen refers)
    case ptr => exact fun u inside points => Nat.lt_irrefl _ (sound.built.ptr u _ inside points)

/-- A new connect at the point where its socket is known, as if it were already armed. -/
theorem connecting_moves (sound : Sound calm c.rest) :
    let k := c.taskNew { kind := .taskConnect }
    Moves calm c.rest ((((k.newDesc.sockNew (some k.ndesc)).modTask c.ntask
      ({ · with sock := some k.nsock })).arm c.ntask).rest) := by
  intro k
  have made : Moves calm c.rest ⟨k, update (fun _ => false) c.ntask true, fun _ => false⟩ :=
    .one (.make (fresh_bare .taskConnect (by decide) 0) (by simp [calm]))
  obtain ⟨wrapped, sole⟩ := wrap_moves (sound.moves made)
  have new : (k.newDesc.sockNew (some k.ndesc)).task c.ntask = { kind := .taskConnect } := by
    simp [k, taskNew, newDesc, sockNew]
  have built := (made.trans wrapped).snoc (.build (t := c.ntask) (Nat.lt_succ_self _)
    (by rw [new]) (by simp) (by rw [new]) sole)
  generalize isNext : (k.newDesc.sockNew (some k.ndesc)).modTask c.ntask
    ({ · with sock := some k.nsock }) = d at built ⊢
  have isTask : d.task c.ntask = { kind := .taskConnect, sock := some k.nsock } := by
    rw [← isNext]; simp [modTask, new]
  have socks : d.socks = k.nsock :: k.socks := by rw [← isNext]; rfl
  have entered := built.snoc (.enter (t := c.ntask)
    (by rw [← isNext]; exact Nat.lt_succ_self _) (by rw [isTask]) (by simp)
    (by rw [isTask]; simp) (by rw [isTask]; simp [Rules.Fits, calm, zShape])
    (fun u refers => by
      unfold Refers at refers
      rw [isTask] at refers
      have isSock : k.nsock = u := by simpa using refers
      rw [socks, ← isSock]
      exact List.mem_cons_self)
    (by rw [isTask]; intro never; cases never) (by rw [isTask]; intro never; cases never))
  have slot : (d.arm c.ntask).setSlot c.ntask = d.arm c.ntask := by
    have same : (d.arm c.ntask).task c.ntask = _ := isTask
    unfold setSlot
    rw [same]
    exact modSock_self _ _ rfl
  rw [slot, out_back] at entered
  exact entered

/-- `impl_tcp_connect`. -/
theorem implTcpConnect_moves {z : ZIo} (sound : Sound calm z.rest) (mem : Bool) (ans : ConnectAns) :
    Moves calm z.rest (z.implTcpConnect mem ans).rest := by
  unfold implTcpConnect
  split
  case isFalse => exact .refl _
  dsimp only [on, give]
  generalize isNew : z.toCore.taskNew { kind := .taskConnect } = k
  have made : Moves calm z.rest ⟨k, update (fun _ => false) z.ntask true, fun _ => false⟩ := by
    rw [← isNew]; exact .one (.make (fresh_bare .taskConnect (by decide) 0) (by simp [calm]))
  have new : k.task z.ntask = { kind := .taskConnect } := by rw [← isNew]; simp [taskNew]
  have ntask : k.ntask = z.ntask + 1 := by rw [← isNew]; rfl
  have absent : z.ntask ∉ k.armed := by rw [← isNew]; exact absent_new sound
  -- A failure before there is a socket.
  have fails : ∀ (d : Core) err, d.task = k.task → d.ntask = k.ntask → d.armed = k.armed →
      Moves calm z.rest ⟨d, update (fun _ => false) z.ntask true, fun _ => false⟩ →
      Moves calm z.rest (taskErr d z.ntask err).rest := by
    intro d err task isNtask armed before
    have ended := complete_out (c := d) (t := z.ntask) (e := rErr err)
      (x := update (fun _ => false) z.ntask true) (h := fun _ => false)
      (by rw [isNtask, ntask]; exact Nat.lt_succ_self _) (by rw [task, new]) (by simp)
      (by rw [armed]; exact absent) (Settles.plain (by simp) (by simp) (.inr (by simp)))
      (by rw [task, new]; simp) (by simp)
    rw [out_back] at ended
    exact before.trans ended
  have wasted : Moves calm z.rest
      ⟨k.newDesc.closeDesc k.ndesc, update (fun _ => false) z.ntask true, fun _ => false⟩ :=
    made.trans (waste_moves (sound.moves made))
  cases ans with
  | unresolved rc errno => exact fails k _ rfl rfl rfl made
  | socket errno => exact fails k _ rfl rfl rfl made
  | blocking errno => exact fails _ _ rfl rfl rfl wasted
  | connect memSock rc =>
    dsimp only
    split
    case isFalse => exact fails _ _ rfl rfl rfl wasted
    -- From here on the task is as good as armed.
    have connecting : Moves calm z.rest (((k.newDesc.sockNew (some k.ndesc)).modTask z.ntask
        ({ · with sock := some k.nsock })).arm z.ntask).rest := by
      rw [← isNew]; exact connecting_moves sound
    rw [show k.newDesc.nsock = k.nsock from rfl]
    generalize isNext : (k.newDesc.sockNew (some k.ndesc)).modTask z.ntask
      ({ · with sock := some k.nsock }) = d at connecting ⊢
    have isTask : d.task z.ntask = { kind := .taskConnect, sock := some k.nsock } := by
      rw [← isNext]; simp [modTask, newDesc, sockNew, new]
    have pending : (d.arm z.ntask).Pending (fun _ => false) z.ntask := by
      refine ⟨?_, ?_, rfl⟩
      · rw [← isNext]; change z.ntask < k.ntask; rw [ntask]; exact Nat.lt_succ_self _
      · change (d.task z.ntask).done = false; rw [isTask]
    have kind : ((d.arm z.ntask).task z.ntask).kind = .taskConnect := by
      change (d.task z.ntask).kind = _; rw [isTask]
    have sock : ((d.arm z.ntask).task z.ntask).sock = some k.nsock := by
      change (d.task z.ntask).sock = _; rw [isTask]
    have still : Sound calm (d.arm z.ntask).rest := sound.moves connecting
    have absentD : z.ntask ∉ d.armed := by rw [← isNext]; exact absent
    cases rc with
    | connected =>
      have ended := connecting.trans (connect_won still pending kind sock)
      change Moves calm _ ⟨taskComplete ((d.modTask z.ntask ({ · with sock := none })).arm z.ntask) _ _,
        _, _⟩ at ended
      rw [taskComplete_arm (by exact absentD)] at ended
      exact ended
    | inProgress => exact connecting
    | failed errno after =>
      have ended := connecting.trans (connect_lost still pending kind sock
        (e := rErr after) (by simp) (by simp))
      change Moves calm _ ⟨taskComplete (((d.modTask z.ntask ({ · with sock := none })).sockRelease
        k.nsock).arm z.ntask) _ _, _, _⟩ at ended
      rw [taskComplete_arm (by exact absentD)] at ended
      exact ended

/-- `impl_tcp_listen`. -/
theorem implTcpListen_moves {z : ZIo} (sound : Sound calm z.rest) (ans : ListenAns) :
    Moves calm z.rest (z.implTcpListen ans).rest := by
  unfold implTcpListen
  cases ans with
  | badHost => exact .refl _
  | socket errno => exact .refl _
  | bind errno => exact waste_moves sound
  | listening mem =>
    dsimp only [on, give]
    split
    case isFalse => exact waste_moves sound
    obtain ⟨wrapped, sole⟩ := wrap_moves sound
    exact wrapped.snoc (.claim (Nat.lt_succ_self _) fun t inside isOpen builds =>
      sole.tasks t inside isOpen builds.refers)

/-! ### Accepting and reading -/

/-- An accept that wins a connection hands the new socket over. -/
theorem accept_won (sound : Sound calm ⟨c, x, h⟩) (pending : c.Pending x t)
    (kind : (c.task t).kind = .taskAccept) (sock : (c.task t).sock = some s) :
    let d := c.modSock s ({ · with acceptTask := none })
    Moves calm ⟨c, x, h⟩ ⟨taskComplete (d.newDesc.sockNew (some d.ndesc)) t
      (rOk 0 (some d.nsock)), x, h⟩ := by
  intro d
  have left := exit_moves (r := calm) (h := h) pending (.inl (by simp [kind]))
  rw [sound.placed.leave_accept pending kind sock] at left
  have out : Sound calm ⟨d.disarm t, update x t true, h⟩ := sound.moves left
  obtain ⟨wrapped, sole⟩ := wrap_moves out
  have settles : ((d.disarm t).newDesc.sockNew (some d.ndesc)).Settles True (update x t true) t
      (rOk 0 (some d.nsock)) := by
    refine ⟨by simp, fun u points => ?_, fun _ isWrite => ?_⟩
    · obtain rfl : d.nsock = u := by simpa using points
      exact ⟨Nat.lt_succ_self _, sole.mine, sole.ptr, fun v inside isOpen _ =>
        sole.tasks v inside isOpen⟩
    · change (c.task t).kind = _ at isWrite; simp [kind] at isWrite
  have ended := settle_moves (r := calm) (h := h) (t := t) (x := update x t true)
    (c := (d.disarm t).newDesc.sockNew (some d.ndesc)) (e := rOk 0 (some d.nsock)) pending.1
    pending.2.1 (by simp) settles (by change calm.ends (c.task t).kind _; simp [calm, kind])
    (fun u points => by obtain rfl : d.nsock = u := by simpa using points
                        exact List.mem_cons_self)
  rw [pending.back] at ended
  exact (left.trans wrapped).trans ended

/-- An accept ends without a socket, after a descriptor was won and closed again. -/
theorem accept_wasted (sound : Sound calm ⟨c, x, h⟩) (pending : c.Pending x t)
    (kind : (c.task t).kind = .taskAccept) (sock : (c.task t).sock = some s) (err : Int) :
    let d := c.modSock s ({ · with acceptTask := none })
    Moves calm ⟨c, x, h⟩ ⟨taskErr (d.newDesc.closeDesc d.ndesc) t err, x, h⟩ := by
  intro d
  have wasted := waste_moves sound
  have still := sound.moves wasted
  exact wasted.trans (complete_accept (c := c.newDesc.closeDesc c.ndesc) still pending kind sock
    (e := rErr err) (by simp) (by simp))

/-- `accept_try`, for a task that is armed or as good as armed. -/
theorem acceptTry_moves {z : ZIo} (sound : Sound calm z.rest)
    (pending : z.Pending (fun _ => false) t) (kind : (z.task t).kind = .taskAccept)
    (ans : AcceptAns) : Moves calm z.rest (z.acceptTry t ans).1.rest := by
  obtain ⟨s, sock⟩ := sock_of_kind sound pending (.inr (.inl kind))
  have isSock : z.sockOf t = s := by simp [sockOf, sock]
  unfold acceptTry
  dsimp only [on]
  rw [isSock]
  cases ans with
  | again => exact .refl _
  | err errno => exact complete_accept sound pending kind sock (by simp) (by simp)
  | blocking errno => exact accept_wasted sound pending kind sock errno
  | conn mem =>
    dsimp only
    split
    · exact accept_won sound pending kind sock
    · exact accept_wasted sound pending kind sock ENOMEM

/-- `read_try`, for a task that is armed or as good as armed. -/
theorem readTry_moves (sound : Sound calm c.rest) (pending : c.Pending (fun _ => false) t)
    (kind : (c.task t).kind = .taskSockRead) (ans : RecvAns) :
    Moves calm c.rest (readTry c t ans).1.rest := by
  obtain ⟨s, sock⟩ := sock_of_kind sound pending (.inr (.inr (.inl kind)))
  have isSock : c.sockOf t = s := by simp [sockOf, sock]
  unfold readTry
  dsimp only
  rw [isSock]
  cases ans with
  | again => exact .refl _
  | err errno => exact complete_read sound pending kind sock (by simp) (by simp)
  | got n => exact complete_read sound pending kind sock (by simp) (by simp)

/-- A read that is over need not have been armed. -/
theorem readTry_arm (absent : t ∉ c.armed) {ans : RecvAns} (past : ans ≠ .again) :
    (readTry (c.arm t) t ans).1 = (readTry c t ans).1 := by
  cases ans with
  | again => exact absurd rfl past
  | err errno =>
    exact taskComplete_arm (c := c.modSock (c.sockOf t) ({ · with readTask := none })) absent
  | got n =>
    exact taskComplete_arm (c := c.modSock (c.sockOf t) ({ · with readTask := none })) absent

/-- An accept that is over need not have been armed. -/
theorem acceptTry_arm {z : ZIo} (absent : t ∉ z.armed) {ans : AcceptAns} (past : ans ≠ .again) :
    ((z.on (·.arm t)).acceptTry t ans).1.toCore = (z.acceptTry t ans).1.toCore := by
  let d := z.toCore.modSock (z.sockOf t) ({ · with acceptTask := none })
  cases ans with
  | again => exact absurd rfl past
  | err errno => exact taskComplete_arm (c := d) absent
  | blocking errno => exact taskComplete_arm (c := d.newDesc.closeDesc z.ndesc) absent
  | conn mem =>
    unfold acceptTry
    dsimp only
    by_cases has : ((z.on (·.modSock (z.sockOf t) ({ · with acceptTask := none }))).on
        (·.newDesc)).hasSock mem = true
    · rw [if_pos has]
      rw [if_pos (by exact has)]
      exact taskComplete_arm (c := d.newDesc.sockNew (some z.ndesc)) absent
    · rw [if_neg has]
      rw [if_neg (by exact has)]
      exact taskComplete_arm (c := d.newDesc.closeDesc z.ndesc) absent

/-- A new read or accept takes its socket's slot and is armed. -/
theorem slot_moves (live : s ∈ c.socks) (mine : c.claimed s = true)
    {kind : TaskKind}
    (free : (kind = .taskSockRead ∧ (c.sock s).readTask = none) ∨
      (kind = .taskAccept ∧ (c.sock s).acceptTask = none)) :
    Moves calm c.rest
      (((c.taskNew { kind, sock := some s }).arm c.ntask).setSlot c.ntask).rest := by
  have write : kind ≠ .taskSockWrite := by rcases free with ⟨rfl, _⟩ | ⟨rfl, _⟩ <;> decide
  have spawn : kind ≠ .taskSpawn := by rcases free with ⟨rfl, _⟩ | ⟨rfl, _⟩ <;> decide
  have connect : kind ≠ .taskConnect := by rcases free with ⟨rfl, _⟩ | ⟨rfl, _⟩ <;> decide
  have made : Moves calm c.rest ⟨c.taskNew { kind, sock := some s },
      update (fun _ => false) c.ntask true, fun _ => false⟩ :=
    .one (.make (fresh_on kind write connect live mine) spawn)
  have new : (c.taskNew { kind, sock := some s }).task c.ntask = { kind, sock := some s } := by
    simp [taskNew]
  have entered := made.snoc (.enter (t := c.ntask) (Nat.lt_succ_self _) (by rw [new]) (by simp)
    (by rw [new]; exact write)
    (by rw [new]; rcases free with ⟨rfl, _⟩ | ⟨rfl, _⟩ <;> simp [Rules.Fits, calm, zShape])
    (fun u refers => by
      unfold Refers at refers
      rw [new] at refers
      obtain rfl : s = u := by simpa using refers
      exact live)
    (fun isRead => by
      rw [new] at isRead ⊢
      rcases free with ⟨_, none⟩ | ⟨isAccept, _⟩
      · exact ⟨s, rfl, none⟩
      · rw [isAccept] at isRead; cases isRead)
    (fun isAccept => by
      rw [new] at isAccept ⊢
      rcases free with ⟨isRead, _⟩ | ⟨_, none⟩
      · rw [isRead] at isAccept; cases isAccept
      · exact ⟨s, rfl, none⟩))
  rw [out_back] at entered
  exact entered

/-- `impl_sock_read`. -/
theorem implSockRead_moves {z : ZIo} (sound : Sound calm z.rest) (mem : Bool) (ans : RecvAns)
    (live : s ∈ z.socks) (mine : z.claimed s = true) :
    Moves calm z.rest (z.implSockRead mem s ans).rest := by
  unfold implSockRead taskNewFailed inlineTask
  split
  · split
    · exact inline_moves sound (by simp) (by simp)
    · exact .refl _
  rename_i notBusy
  split
  case isFalse => exact .refl _
  have free : (z.sock s).readTask = none := by simpa using notBusy
  have entered := slot_moves live mine (.inl ⟨rfl, free⟩)
  dsimp only [on, give]
  generalize isNext : (z.toCore.taskNew { kind := .taskSockRead, sock := some s }).modSock s
    ({ · with readTask := some z.ntask }) = d
  have slot : ((z.toCore.taskNew { kind := .taskSockRead, sock := some s }).arm z.ntask).setSlot
      z.ntask = d.arm z.ntask := by
    rw [← isNext]
    unfold setSlot
    simp [arm, taskNew, modSock]
  have new : (d.task z.ntask) = { kind := .taskSockRead, sock := some s } := by
    rw [← isNext]; simp [taskNew, modSock]
  have absent : z.ntask ∉ d.armed := by rw [← isNext]; exact absent_new sound
  have inside : z.ntask < d.ntask := by rw [← isNext]; exact Nat.lt_succ_self _
  rw [slot] at entered
  have pending : (d.arm z.ntask).Pending (fun _ => false) z.ntask :=
    ⟨inside, by change (d.task z.ntask).done = false; rw [new], rfl⟩
  have tried := entered.trans (readTry_moves (sound.moves entered) pending
    (by change (d.task z.ntask).kind = _; rw [new]) ans)
  by_cases past : ans = .again
  · subst past; exact tried
  · rw [readTry_arm absent past] at tried
    cases ans with
    | again => exact absurd rfl past
    | err errno => exact tried
    | got n => exact tried

/-- `impl_tcp_accept`. -/
theorem implTcpAccept_moves {z : ZIo} (sound : Sound calm z.rest) (mem : Bool) (ans : AcceptAns)
    (live : s ∈ z.socks) (mine : z.claimed s = true) :
    Moves calm z.rest (z.implTcpAccept mem s ans).rest := by
  unfold implTcpAccept taskNewFailed inlineTask
  split
  · split
    · exact inline_moves sound (by simp) (by simp)
    · exact .refl _
  rename_i notBusy
  split
  case isFalse => exact .refl _
  have free : (z.sock s).acceptTask = none := by simpa using notBusy
  have entered := slot_moves live mine (.inr ⟨rfl, free⟩)
  dsimp only [on, give]
  generalize isNext : (z.toCore.taskNew { kind := .taskAccept, sock := some s }).modSock s
    ({ · with acceptTask := some z.ntask }) = d
  have slot : ((z.toCore.taskNew { kind := .taskAccept, sock := some s }).arm z.ntask).setSlot
      z.ntask = d.arm z.ntask := by
    rw [← isNext]
    unfold setSlot
    simp [arm, taskNew, modSock]
  have new : (d.task z.ntask) = { kind := .taskAccept, sock := some s } := by
    rw [← isNext]; simp [taskNew, modSock]
  have absent : z.ntask ∉ d.armed := by rw [← isNext]; exact absent_new sound
  have inside : z.ntask < d.ntask := by rw [← isNext]; exact Nat.lt_succ_self _
  rw [slot] at entered
  have pending : (d.arm z.ntask).Pending (fun _ => false) z.ntask :=
    ⟨inside, by change (d.task z.ntask).done = false; rw [new], rfl⟩
  have tried := entered.trans (acceptTry_moves (z := { z with toCore := d.arm z.ntask })
    (sound.moves entered) pending (by change (d.task z.ntask).kind = _; rw [new]) ans)
  by_cases past : ans = .again
  · subst past; exact tried
  · have same := acceptTry_arm (z := { z with toCore := d }) (t := z.ntask) absent past
    have ended : (acceptTry { z with toCore := d } z.ntask ans).2 = true := by
      cases ans with
      | again => exact absurd rfl past
      | err errno => rfl
      | blocking errno => rfl
      | conn memSock => unfold acceptTry; dsimp only; split <;> rfl
    generalize acceptTry { z with toCore := d } z.ntask ans = q at same ended ⊢
    obtain ⟨q, past⟩ := q
    subst ended
    change Moves calm z.rest q.rest
    unfold Core.rest
    rw [← same]
    exact tried

end ZIo

end Myio.Loop
