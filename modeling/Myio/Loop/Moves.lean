import Myio.Loop.Core

/-!
The moves the calls of an event loop are made of.

Between two calls every task that is not done can complete, or waits behind the head of a FIFO.
A cut is a moment inside a call: it names the tasks that only the running code knows about, and
the FIFOs whose head has not been armed.
-/

namespace Myio.Loop

open Function (update)

/-- A moment inside a call; between calls nothing is `out` or `bare`. -/
structure Cut where
  core : Core
  out : TaskId → Bool
  bare : SockId → Bool

namespace Core

/-- A submitted task that is neither done nor in the running code's hands. -/
def Pending (c : Core) (x : TaskId → Bool) (t : TaskId) : Prop :=
  t < c.ntask ∧ (c.task t).done = false ∧ x t = false

instance (c : Core) (x : TaskId → Bool) : DecidablePred (c.Pending x) :=
  fun _ => inferInstanceAs (Decidable (_ ∧ _ ∧ _))

/-- A write submitted on a socket. -/
def WriteOn (c : Core) (s : SockId) (t : TaskId) : Prop :=
  (c.task t).kind = .taskSockWrite ∧ (c.task t).on = some s

instance (c : Core) (s : SockId) : DecidablePred (c.WriteOn s) :=
  fun _ => inferInstanceAs (Decidable (_ ∧ _))

/-- A task points at a socket. -/
def Refers (c : Core) (t : TaskId) (s : SockId) : Prop :=
  (c.task t).sock = some s ∨ (c.task t).newsock = some s

/-- A task points at a socket that it has yet to win. -/
def Builds (c : Core) (t : TaskId) (s : SockId) : Prop :=
  ((c.task t).kind = .taskConnect ∧ (c.task t).sock = some s) ∨ (c.task t).newsock = some s

theorem Builds.refers {c : Core} {t : TaskId} {s : SockId} (builds : c.Builds t s) :
    c.Refers t s := by
  rcases builds with ⟨_, points⟩ | points
  · exact .inl points
  · exact .inr points

/-- A task record as `task_new` and the submit functions leave it. -/
structure Fresh (c : Core) (k : Task) : Prop where
  done : k.done = false
  detached : k.detached = false
  res : k.res = rPending
  off : k.off = 0
  dones : k.dones = 0
  frees : k.frees = 0
  newsock : k.newsock = none
  connect : k.kind = .taskConnect → k.sock = none
  sock : ∀ s, k.sock = some s → s ∈ c.socks ∧ c.claimed s = true
  write : k.kind = .taskSockWrite → ∃ s, k.sock = some s ∧ k.on = some s ∧ k.fd = (c.sock s).fd
  others : k.kind ≠ .taskSockWrite → k.on = none

/-- A descriptor that no socket has. -/
structure Loose (c : Core) (fd : Fd) : Prop where
  bound : fd < c.ndesc
  sock : ∀ s, s < c.nsock → (c.sock s).fd ≠ some fd
  fresh : c.desc fd = {}

/-- A socket that no task and no caller knows about. -/
structure Sole (c : Core) (s : SockId) : Prop where
  live : s ∈ c.socks
  mine : c.claimed s = false
  tasks : ∀ t, t < c.ntask → (c.task t).done = false → ¬ c.Refers t s
  ptr : ∀ t, t < c.ntask → (c.task t).res.ptr ≠ some s

/-- A socket on the list that no pending task points at. -/
structure Unused (c : Core) (x : TaskId → Bool) (s : SockId) : Prop where
  live : s ∈ c.socks
  tasks : ∀ t, c.Pending x t → ¬ c.Refers t s

/-- When a result may be stored: a socket it carries is new, and a write that succeeds is whole. -/
structure Settles (c : Core) (bounded : Prop) (x : TaskId → Bool) (t : TaskId) (res : Result) : Prop where
  status : res.status ≠ .pending
  ptr : ∀ s, res.ptr = some s → s < c.nsock ∧ c.claimed s = false ∧
    (∀ u, u < c.ntask → (c.task u).res.ptr ≠ some s) ∧
    ∀ u, u < c.ntask → (c.task u).done = false → u ≠ t → ¬ c.Refers u s
  write : bounded → (c.task t).kind = .taskSockWrite → res.status = .ok →
    (c.task t).off = (c.task t).buf.length ∧ res.value = (c.task t).buf.length ∧
    ∀ s u, c.WriteOn s t → c.WriteOn s u → u < t → ¬ c.Pending x u

/-- A read or an accept takes its socket's one slot. -/
def setSlot (c : Core) (t : TaskId) : Core :=
  match (c.task t).sock with
  | some s => c.modSock s fun k => { k with
      readTask := if (c.task t).kind = .taskSockRead then some t else k.readTask
      acceptTask := if (c.task t).kind = .taskAccept then some t else k.acceptTask }
  | none => c

/-- A task leaves its socket's slot or FIFO. -/
def leaveSock (c : Core) (t : TaskId) : Core :=
  match (c.task t).sock with
  | some s => c.modSock s fun k => { k with
      readTask := if k.readTask = some t then none else k.readTask
      acceptTask := if k.acceptTask = some t then none else k.acceptTask
      wq := k.wq.erase t }
  | none => c

/-- The FIFO a leaving task exposes: that of the socket whose head write it is. -/
def exposes (c : Core) (t : TaskId) (s : SockId) : Bool :=
  (c.task t).kind = .taskSockWrite && (c.task t).sock = some s && (c.sock s).wq.head? = some t

/-- A task with its result stored, and released if it is detached. -/
def settled (res : Result) (k : Task) : Task :=
  { k with res, done := true, dones := k.dones + 1
           frees := if k.detached then k.frees + 1 else k.frees }

/-- The end of a task. -/
def settle (c : Core) (t : TaskId) (res : Result) : Core := c.modTask t (settled res)

/-! ### What the composite writes change -/

/-- A descriptor after one may have been closed. -/
theorem closeFd_apply (desc : Fd → Desc) (fd : Option Fd) (d : Fd) :
    closeFd desc fd d =
      if fd = some d then { desc d with closes := (desc d).closes + 1 } else desc d := by
  cases fd with
  | none => rfl
  | some d' => simp only [closeFd, Function.update_apply]; grind

/-- A descriptor after bytes may have been accepted on one. -/
theorem wireAppend_apply (desc : Fd → Desc) (bytes : List UInt8) (fd : Option Fd) (d : Fd) :
    wireAppend desc bytes fd d =
      if fd = some d then { desc d with wire := (desc d).wire ++ bytes } else desc d := by
  cases fd with
  | none => rfl
  | some d' => simp only [wireAppend, Function.update_apply]; grind

/-- Entering a slot touches only that socket. -/
theorem setSlot_rest (c : Core) (t : TaskId) :
    c.setSlot t = { c with sock := (c.setSlot t).sock } := by
  unfold setSlot modSock
  split <;> rfl

/-- A socket's reader after a task has taken its slot. -/
theorem setSlot_readTask (c : Core) (t : TaskId) (s : SockId) :
    ((c.setSlot t).sock s).readTask =
      if (c.task t).sock = some s ∧ (c.task t).kind = .taskSockRead then some t
      else (c.sock s).readTask := by
  unfold setSlot
  cases points : (c.task t).sock <;> simp only [modSock, Function.update_apply] <;> grind

/-- A socket's accepter after a task has taken its slot. -/
theorem setSlot_acceptTask (c : Core) (t : TaskId) (s : SockId) :
    ((c.setSlot t).sock s).acceptTask =
      if (c.task t).sock = some s ∧ (c.task t).kind = .taskAccept then some t
      else (c.sock s).acceptTask := by
  unfold setSlot
  cases points : (c.task t).sock <;> simp only [modSock, Function.update_apply] <;> grind

/-- Taking a slot leaves the rest of the socket alone. -/
theorem setSlot_other (c : Core) (t : TaskId) (s : SockId) :
    ((c.setSlot t).sock s).wq = (c.sock s).wq ∧ ((c.setSlot t).sock s).fd = (c.sock s).fd ∧
      ((c.setSlot t).sock s).frees = (c.sock s).frees := by
  unfold setSlot
  cases points : (c.task t).sock <;> simp only [modSock, Function.update_apply] <;> grind

/-- Leaving a socket touches only that socket. -/
theorem leaveSock_rest (c : Core) (t : TaskId) :
    c.leaveSock t = { c with sock := (c.leaveSock t).sock } := by
  unfold leaveSock modSock
  split <;> rfl

/-- A socket's reader after a task has left. -/
theorem leaveSock_readTask (c : Core) (t : TaskId) (s : SockId) :
    ((c.leaveSock t).sock s).readTask =
      if (c.task t).sock = some s ∧ (c.sock s).readTask = some t then none
      else (c.sock s).readTask := by
  unfold leaveSock
  cases points : (c.task t).sock <;> simp only [modSock, Function.update_apply] <;> grind

/-- A socket's accepter after a task has left. -/
theorem leaveSock_acceptTask (c : Core) (t : TaskId) (s : SockId) :
    ((c.leaveSock t).sock s).acceptTask =
      if (c.task t).sock = some s ∧ (c.sock s).acceptTask = some t then none
      else (c.sock s).acceptTask := by
  unfold leaveSock
  cases points : (c.task t).sock <;> simp only [modSock, Function.update_apply] <;> grind

/-- A FIFO after a task has left. -/
theorem leaveSock_wq (c : Core) (t : TaskId) (s : SockId) :
    ((c.leaveSock t).sock s).wq =
      if (c.task t).sock = some s then (c.sock s).wq.erase t else (c.sock s).wq := by
  unfold leaveSock
  cases points : (c.task t).sock <;> simp only [modSock, Function.update_apply] <;> grind

/-- Leaving a socket leaves its descriptor and its memory alone. -/
theorem leaveSock_other (c : Core) (t : TaskId) (s : SockId) :
    ((c.leaveSock t).sock s).fd = (c.sock s).fd ∧
      ((c.leaveSock t).sock s).frees = (c.sock s).frees := by
  unfold leaveSock
  cases points : (c.task t).sock <;> simp only [modSock, Function.update_apply] <;> grind

end Core

open Loop.Core

/-- What one backend keeps to, and another need not. -/
structure Rules where
  /-- The results with which a task may end. -/
  ends : TaskKind → Result → Prop
  /-- The pointers a pending task may have: its socket, the one to win, and the one written on. -/
  shape : TaskKind → Option SockId → Option SockId → Option SockId → Prop
  /-- The kinds of task that may be made. -/
  makes : TaskKind → Prop
  /-- Whether a socket may be made before it has a descriptor. -/
  early : Prop
  /-- Whether handles are given up. -/
  gives : Prop
  /-- Whether the fields without links are written. -/
  notes : Prop
  /-- Whether the kernel takes no more of a write than it was offered. -/
  bounded : Prop

/-- What the invariants depend on. -/
def Rules.frame (r : Rules) :
    (TaskKind → Option SockId → Option SockId → Option SockId → Prop) × Prop := (r.shape, r.bounded)

/-- A task's pointers are as the backend keeps them. -/
def Rules.Fits (r : Rules) (k : Task) : Prop := r.shape k.kind k.sock k.newsock k.on

/-- The moves of a backend that keeps to its rules. -/
inductive Move (r : Rules) : Cut → Cut → Prop
  /-- A task is made. -/
  | make {c x h k} (fresh : c.Fresh k) (allowed : r.makes k.kind) :
      Move r ⟨c, x, h⟩ ⟨c.taskNew k, update x c.ntask true, h⟩
  /-- A new task is pointed at a socket of the caller's. -/
  | aim {c x h t s} (submitted : t < c.ntask) (isOpen : (c.task t).done = false)
      (out : x t = true) (kind : (c.task t).kind ≠ .taskConnect) (live : s ∈ c.socks)
      (mine : c.claimed s = true) :
      Move r ⟨c, x, h⟩ ⟨c.modTask t ({ · with sock := some s }), x, h⟩
  /-- A new connect is given the socket it is to win. -/
  | build {c x h t s} (submitted : t < c.ntask) (isOpen : (c.task t).done = false)
      (out : x t = true) (kind : (c.task t).kind = .taskConnect) (sole : c.Sole s) :
      Move r ⟨c, x, h⟩ ⟨c.modTask t ({ · with sock := some s }), x, h⟩
  /-- A new accept is given the socket it is to win. -/
  | buildNew {c x h t s} (submitted : t < c.ntask) (isOpen : (c.task t).done = false)
      (out : x t = true) (sole : c.Sole s) (without : (c.sock s).fd = none) :
      Move r ⟨c, x, h⟩ ⟨c.modTask t ({ · with newsock := some s }), x, h⟩
  /-- A task lets go of a socket. -/
  | drop {c x h t p q} (out : x t = true) (sock : p = none ∨ p = (c.task t).sock)
      (newsock : q = none ∨ q = (c.task t).newsock) :
      Move r ⟨c, x, h⟩ ⟨c.modTask t ({ · with sock := p, newsock := q }), x, h⟩
  /-- A new task is put where it can complete. -/
  | enter {c x h t} (submitted : t < c.ntask) (isOpen : (c.task t).done = false)
      (out : x t = true) (kind : (c.task t).kind ≠ .taskSockWrite) (fits : r.Fits (c.task t))
      (live : ∀ s, c.Refers t s → s ∈ c.socks)
      (read : (c.task t).kind = .taskSockRead →
        ∃ s, (c.task t).sock = some s ∧ (c.sock s).readTask = none)
      (accept : (c.task t).kind = .taskAccept →
        ∃ s, (c.task t).sock = some s ∧ (c.sock s).acceptTask = none) :
      Move r ⟨c, x, h⟩ ⟨(c.arm t).setSlot t, update x t false, h⟩
  /-- A new write goes on its socket's FIFO. -/
  | park {c x h t s} (submitted : t + 1 = c.ntask) (isOpen : (c.task t).done = false)
      (out : x t = true) (kind : (c.task t).kind = .taskSockWrite)
      (sock : (c.task t).sock = some s) (newsock : (c.task t).newsock = none)
      (fits : r.Fits (c.task t)) (live : s ∈ c.socks) :
      Move r ⟨c, x, h⟩
        ⟨c.modSock s fun k => { k with wq := k.wq ++ [t] }, update x t false,
          fun u => h u || (u = s && (c.sock s).wq.isEmpty)⟩
  /-- The head of a FIFO is put where it can complete. -/
  | arm {c x h s n} (live : s ∈ c.socks) (bare : h s = true)
      (head : (c.sock s).wq.head? = some n) : Move r ⟨c, x, h⟩ ⟨c.arm n, x, update h s false⟩
  /-- The head of a FIFO is taken from where it could complete. -/
  | disarm {c x h t s} (armed : t ∈ c.armed) (kind : (c.task t).kind = .taskSockWrite)
      (sock : (c.task t).sock = some s) :
      Move r ⟨c, x, h⟩ ⟨c.disarm t, x, update h s true⟩
  /-- A FIFO that is empty, or whose socket is gone, has no head to arm. -/
  | headed {c x h g} (empty : ∀ s, s ∈ c.socks → g s ≠ h s → (c.sock s).wq = []) :
      Move r ⟨c, x, h⟩ ⟨c, x, g⟩
  /-- A pending task is lifted out of everything that holds it. -/
  | exit {c x h t} (pending : c.Pending x t) :
      Move r ⟨c, x, h⟩
        ⟨(c.disarm t).leaveSock t, update x t true, fun s => h s || c.exposes t s⟩
  /-- A task that can complete forgets its socket. -/
  | sever {c x h t} (armed : t ∈ c.armed) (kind : (c.task t).kind ≠ .taskConnect)
      (fits : r.Fits { c.task t with sock := none }) :
      Move r ⟨c, x, h⟩
        ⟨(c.leaveSock t).modTask t ({ · with sock := none }), x, fun s => h s || c.exposes t s⟩
  /-- A task in hand is marked done. -/
  | settle {c x h t res} (submitted : t < c.ntask) (isOpen : (c.task t).done = false)
      (out : x t = true) (settles : c.Settles r.bounded x t res) (allowed : r.ends (c.task t).kind res) :
      Move r ⟨c, x, h⟩ ⟨c.settle t res, update x t false, h⟩
  /-- The kernel accepts some bytes of the first write of a socket that is not done. -/
  | send {c x h t s n} (pending : c.Pending x t) (on : c.WriteOn s t)
      (fits : r.bounded → (c.task t).off + n ≤ (c.task t).buf.length)
      (first : ∀ u, u < t → c.WriteOn s u → ¬ c.Pending x u) :
      Move r ⟨c, x, h⟩ ⟨c.sendBytes t n, x, h⟩
  /-- The kernel hands out a descriptor. -/
  | newDesc {c x h} : Move r ⟨c, x, h⟩ ⟨c.newDesc, x, h⟩
  /-- A descriptor that was not made a socket is closed. -/
  | closeDesc {c x h fd} (loose : c.Loose fd) : Move r ⟨c, x, h⟩ ⟨c.closeDesc fd, x, h⟩
  /-- A socket is made. -/
  | sockNew {c x h fd} (loose : ∀ d, fd = some d → c.Loose d) (early : fd = none → r.early) :
      Move r ⟨c, x, h⟩ ⟨c.sockNew fd, x, h⟩
  /-- A socket made in advance gets its descriptor. -/
  | setFd {c x h s fd} (live : s ∈ c.socks) (mine : c.claimed s = false)
      (without : (c.sock s).fd = none) (loose : c.Loose fd)
      (won : ∀ t, t < c.ntask → (c.task t).done = false → (c.task t).newsock ≠ some s) :
      Move r ⟨c, x, h⟩ ⟨c.modSock s ({ · with fd := some fd }), x, h⟩
  /-- A socket is closed, unlinked and freed. -/
  | release {c x h s} (unused : c.Unused x s) : Move r ⟨c, x, h⟩ ⟨c.sockRelease s, x, h⟩
  /-- The caller gives up the handle of a task that is not done. -/
  | detach {c x h t} (isOpen : (c.task t).done = false) (held : c.held t = true)
      (gives : r.gives) :
      Move r ⟨c, x, h⟩
        ⟨{ c.modTask t ({ · with detached := true }) with held := update c.held t false }, x, h⟩
  /-- The caller gives up the handle of a task that is done. -/
  | free {c x h t} (done : (c.task t).done = true) (held : c.held t = true) (gives : r.gives) :
      Move r ⟨c, x, h⟩ ⟨{ c.freeMem t with held := update c.held t false }, x, h⟩
  /-- The caller is given a socket. -/
  | claim {c x h s} (made : s < c.nsock)
      (won : ∀ t, t < c.ntask → (c.task t).done = false → ¬ c.Builds t s) :
      Move r ⟨c, x, h⟩ ⟨{ c with claimed := update c.claimed s true }, x, h⟩
  /-- The caller closes a socket. -/
  | shut {c x h s} : Move r ⟨c, x, h⟩ ⟨c.markShut s, x, h⟩
  /-- A field of a task that holds no link is written. -/
  | note {c x h t f} (notes : r.notes) (same : f (c.task t) = { c.task t with
      wcanceled := (f (c.task t)).wcanceled, deadline := (f (c.task t)).deadline
      fnRet := (f (c.task t)).fnRet, pushed := (f (c.task t)).pushed
      runs := (f (c.task t)).runs }) :
      Move r ⟨c, x, h⟩ ⟨c.modTask t f, x, h⟩

/-- A backend that allows more makes all the moves of one that allows less. -/
theorem Move.mono {r r' : Rules} {a b : Cut} (move : Move r a b)
    (ends : ∀ kind res, r.ends kind res → r'.ends kind res) (frame : r'.frame = r.frame)
    (makes : ∀ kind, r.makes kind → r'.makes kind) (early : r.early → r'.early)
    (gives : r.gives → r'.gives) (notes : r.notes → r'.notes) : Move r' a b := by
  have shape : r'.shape = r.shape := congrArg Prod.fst frame
  have bounds : r'.bounded = r.bounded := congrArg Prod.snd frame
  have fits : ∀ k, r.Fits k → r'.Fits k := by
    intro k there; unfold Rules.Fits at there ⊢; rw [shape]; exact there
  cases move with
  | make fresh allowed => exact .make fresh (makes _ allowed)
  | aim submitted isOpen out kind live mine => exact .aim submitted isOpen out kind live mine
  | build submitted isOpen out kind sole => exact .build submitted isOpen out kind sole
  | buildNew submitted isOpen out sole without => exact .buildNew submitted isOpen out sole without
  | drop out sock newsock => exact .drop out sock newsock
  | enter submitted isOpen out kind allowed live read accept =>
    exact .enter submitted isOpen out kind (fits _ allowed) live read accept
  | park submitted isOpen out kind sock newsock allowed live =>
    exact .park submitted isOpen out kind sock newsock (fits _ allowed) live
  | arm live bare head => exact .arm live bare head
  | disarm armed kind sock => exact .disarm armed kind sock
  | headed empty => exact .headed empty
  | exit pending => exact .exit pending
  | sever armed kind allowed => exact .sever armed kind (fits _ allowed)
  | settle submitted isOpen out settles allowed =>
    exact .settle submitted isOpen out (bounds ▸ settles) (ends _ _ allowed)
  | send pending on fits first => exact .send pending on (bounds ▸ fits) first
  | newDesc => exact .newDesc
  | closeDesc loose => exact .closeDesc loose
  | sockNew loose allowed => exact .sockNew loose fun none => early (allowed none)
  | setFd live mine without loose won => exact .setFd live mine without loose won
  | release unused => exact .release unused
  | detach isOpen held allowed => exact .detach isOpen held (gives allowed)
  | free done held allowed => exact .free done held (gives allowed)
  | claim made won => exact .claim made won
  | shut => exact .shut
  | note allowed same => exact .note (notes allowed) same

/-- A run of moves. -/
inductive Moves (r : Rules) : Cut → Cut → Prop
  | refl (a : Cut) : Moves r a a
  | snoc {a b d : Cut} (before : Moves r a b) (last : Move r b d) : Moves r a d

namespace Moves

variable {r : Rules} {a b d : Cut}

theorem one (move : Move r a b) : Moves r a b := .snoc (.refl a) move

theorem trans (first : Moves r a b) (second : Moves r b d) : Moves r a d := by
  induction second with
  | refl => exact first
  | snoc before last ih => exact .snoc ih last

theorem mono {r' : Rules} (moves : Moves r a b)
    (ends : ∀ kind res, r.ends kind res → r'.ends kind res) (frame : r'.frame = r.frame)
    (makes : ∀ kind, r.makes kind → r'.makes kind) (early : r.early → r'.early)
    (gives : r.gives → r'.gives) (notes : r.notes → r'.notes) : Moves r' a b := by
  induction moves with
  | refl => exact .refl _
  | snoc before last ih => exact .snoc ih (last.mono ends frame makes early gives notes)

/-- What every move preserves holds after any run of them. -/
theorem preserves {Holds : Cut → Prop} (moves : Moves r a b)
    (preserved : ∀ a b, Move r a b → Holds a → Holds b) (initially : Holds a) : Holds b := by
  induction moves with
  | refl => exact initially
  | snoc before last ih => exact preserved _ _ last ih

end Moves

end Myio.Loop
