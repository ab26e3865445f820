import Myio.Lib.OpenFile
import Myio.Sync.Code

/-! What a submission on the synchronous backend has done when there is no memory for its handle. -/

namespace Myio

open Function (update)

/-- What the system answers to a submission; `left` is where a read or a write leaves the file. -/
structure SyncAns extends Outcome where
  left : Int := 0

/-- The process around the synchronous backend. -/
structure SyncWorld extends SyncIo where
  /-- The open files, by descriptor. -/
  file : Int → Option Machine.OpenFile
  /-- The bytes taken from each socket's descriptor. -/
  received : Fd → Nat
  /-- How many spawned functions have run. -/
  ran : Nat

/-- A submission; an offset of `none` is `MYIO_NO_OFFSET`. -/
inductive SyncCall
  | open
  | close (fd : Int)
  | read (fd : Int) (offset : Option Int)
  | write (fd : Int) (offset : Option Int)
  | sleep
  | spawn
  | tcpConnect
  | tcpListen
  | tcpAccept
  | sockRead (s : SockId)
  | sockWrite (s : SockId) (buf : List UInt8)
  | sockClose (s : SockId)
  deriving DecidableEq, Repr

/-- The answers to `send` up to the first error bring no byte. -/
def refused : List SendOs → Bool
  | .err _ :: _ => true
  | .intr :: rest => refused rest
  | .sent n :: rest => n = 0 && refused rest
  | [] => false

namespace SyncWorld

variable {w w' : SyncWorld} {o : SyncAns} {call : SyncCall} {handle : Option Nat}

/-! ### The system calls -/

/-- `open(2)`. -/
def sysOpen (w : SyncWorld) (rc : Int) : SyncWorld :=
  if 0 ≤ rc then { w with file := update w.file rc (some {}) } else w

/-- `close(2)`, which gives an open descriptor back even when it fails. -/
def sysClose (w : SyncWorld) (fd : Int) : SyncWorld := { w with file := update w.file fd none }

/-- `read(2)` and its like; those that take an offset leave the position alone. -/
def sysMove (w : SyncWorld) (fd : Int) (offset : Option Int) (n left : Int) : SyncWorld :=
  { w with file := update w.file fd ((w.file fd).map fun f =>
      match offset with
      | none => f.transfer none n left
      | some offset => ((f.seek offset).transfer (some offset) n left).seek f.pos) }

/-- `recv(2)`. -/
def sysRecv (w : SyncWorld) (fd : Fd) (n : Int) : SyncWorld :=
  { w with received := update w.received fd (w.received fd + n.toNat) }

/-- The backend has run, and returned a handle or null. -/
def back (w : SyncWorld) (called : SyncIo × Option Nat) : SyncWorld × Option Nat :=
  ({ w with toSyncIo := called.1 }, called.2)

/-- The socket of a `tcp_listen`, or null. -/
def listened (called : SyncIo × Except Int SockId) : SyncIo × Option Nat :=
  (called.1, called.2.toOption)

/-- A submission; there is none while a `send` blocks. The file calls take the descriptor as an `int`. -/
def submit (w : SyncWorld) (o : SyncAns) : SyncCall → Option (SyncWorld × Option Nat)
  | .open => some ((w.sysOpen o.rc).back (w.implOpen o.toOutcome))
  | .close fd => some ((w.sysClose (toInt32 fd)).back (w.implClose o.toOutcome))
  | .read fd offset => some ((w.sysMove (toInt32 fd) offset o.rc o.left).back (w.implRead o.toOutcome))
  | .write fd offset => some ((w.sysMove (toInt32 fd) offset o.rc o.left).back (w.implWrite o.toOutcome))
  | .sleep => some (w.back (w.implSleep o.toOutcome))
  | .spawn => some ({ w with ran := w.ran + 1 }.back (w.implSpawn o.toOutcome))
  | .tcpConnect => some (w.back (w.implTcpConnect o.toOutcome))
  | .tcpListen => some (w.back (listened (w.implTcpListen o.toOutcome)))
  | .tcpAccept => some (w.back (w.implTcpAccept o.toOutcome))
  | .sockRead s => some ((w.sysRecv (w.sock s) o.rc).back (w.implSockRead o.toOutcome))
  | .sockWrite s buf => (w.implSockWrite o.toOutcome s buf).map w.back
  | .sockClose s => some (w.back (w.implSockClose o.toOutcome s))

/-! ### What a null handle should mean -/

/-- A socket's descriptor is open. -/
def IsOpen (io : SyncIo) (fd : Fd) : Prop := fd < io.ndesc ∧ (io.desc fd).closes = 0

/-- The transfers on an open file that carried bytes. -/
def carried (f : Machine.OpenFile) : List Machine.Transfer := f.moved.filter (0 < ·.n)

/-- Nothing has happened between two states that a caller could tell. -/
structure Untouched (w w' : SyncWorld) : Prop where
  /-- No file was opened or closed, and none stands elsewhere. -/
  pos : ∀ fd, (w'.file fd).map (·.pos) = (w.file fd).map (·.pos)
  carried : ∀ fd, (w'.file fd).map carried = (w.file fd).map carried
  ran : w'.ran = w.ran
  /-- No socket was closed, or left open. -/
  sockets : ∀ fd, IsOpen w'.toSyncIo fd ↔ IsOpen w.toSyncIo fd
  sent : ∀ fd, fd < w.ndesc → (w'.desc fd).wire = (w.desc fd).wire
  received : w'.received = w.received

/-- The submissions after which there is nothing to lose, as the system answers them. -/
def idle (w : SyncWorld) (o : SyncAns) : SyncCall → Prop
  | .open => o.rc < 0
  | .close fd => w.file (toInt32 fd) = none
  | .read fd offset | .write fd offset =>
    ∀ f, w.file (toInt32 fd) = some f → o.rc ≤ 0 ∧ (offset = none → o.left = f.pos)
  | .tcpConnect => (posixConnect o.connect).1 = false ∨ o.memSock = false
  | .tcpAccept => o.rc < 0 ∨ o.memSock = false
  | .sockRead _ => o.rc ≤ 0
  | .sockWrite _ buf => buf = [] ∨ refused o.sends = true
  | .sleep | .tcpListen => True
  | .spawn | .sockClose _ => False

theorem Untouched.refl (w : SyncWorld) : Untouched w w :=
  ⟨fun _ => rfl, fun _ => rfl, rfl, fun _ => Iff.rfl, fun _ _ => rfl, rfl⟩

/-! ### Operations on files -/

end SyncWorld

end Myio
