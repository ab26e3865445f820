import Myio.Sync.Joined

/-! What a joined operation comes to on each of the two backends, by the system's answers alone. -/

namespace Myio

open SyncIo

/-- How the send loop ends, from `off` bytes on; there is no end while it blocks. -/
def sendEnd (len : Nat) : Nat → List SendOs → Option Result
  | off, [] => if off < len then none else some (rOk len none)
  | off, ans :: rest =>
    if off < len then
      match ans with
      | .sent n => sendEnd len (off + n) rest
      | .intr => sendEnd len off rest
      | .err errno => some (rErr errno)
    else some (rOk len none)

section

variable {len off n : Nat} {rest : List SendOs} {errno : Int}

theorem sendEnd_sent (room : off < len) :
    sendEnd len off (.sent n :: rest) = sendEnd len (off + n) rest := by
  conv => lhs; unfold sendEnd
  rw [if_pos room]

theorem sendEnd_intr (room : off < len) :
    sendEnd len off (.intr :: rest) = sendEnd len off rest := by
  conv => lhs; unfold sendEnd
  rw [if_pos room]

theorem sendEnd_err (rest : List SendOs) (errno : Int) (room : off < len) :
    sendEnd len off (.err errno :: rest) = some (rErr errno) := by
  unfold sendEnd
  rw [if_pos room]

theorem sendEnd_full (rest : List SendOs) (full : ¬ off < len) : sendEnd len off rest = some (rOk len none) := by
  cases rest <;> (unfold sendEnd; rw [if_neg full])

end

/-- A connect or accept that has won a descriptor. -/
def Outcome.won (o : Outcome) : Seen :=
  if o.memSock then .joined .ok 0 0 true else (rErr ENOMEM).seen

/-- What `tcp_listen` comes to. -/
def Outcome.listens (o : Outcome) : Seen :=
  match posixListen o.listen with
  | some err => .listened (some err)
  | none => if o.memSock then .listened none else .listened (some ENOMEM)

/-- What a task of the pool comes to. -/
def Outcome.ends (o : Outcome) : OpKind → List UInt8 → Option Seen
  | .opSleep, _ => some (rOk 0 none).seen
  | .opSpawn, _ => some (Pool.callResult .opSpawn o.rc o.errno).seen
  | .opConnect, _ =>
    if (posixConnect o.connect).1 then some o.won else some (rErr (posixConnect o.connect).2).seen
  | .opAccept, _ => if 0 ≤ o.rc then some o.won else some (rErr o.errno).seen
  | .opSockWrite, buf => (sendEnd buf.length 0 o.sends).map Result.seen
  | .opSockClose, _ => some (rOk 0 none).seen
  | _, _ => some (rFrom o.rc o.errno).seen

/-- `enum op_kind` of an operation. -/
def Op.kind : Op → OpKind
  | .open => .opOpen
  | .close => .opClose
  | .read => .opRead
  | .write => .opWrite
  | .sleep => .opSleep
  | .spawn => .opSpawn
  | .tcpConnect => .opConnect
  | .tcpListen => .opNone
  | .tcpAccept _ => .opAccept
  | .sockRead _ => .opSockRead
  | .sockWrite _ _ => .opSockWrite
  | .sockClose _ => .opSockClose

/-- The bytes an operation sends. -/
def Op.buf : Op → List UInt8
  | .sockWrite _ buf => buf
  | _ => []

/-- What a program on the pool sees of an operation. -/
def Outcome.onPool (o : Outcome) (op : Op) : Option Seen :=
  if op = .tcpListen then some o.listens
  else if o.mem then o.ends op.kind op.buf else some (rErr ENOMEM).seen

variable {o : Outcome} {op : Op} {x : Seen}

end Myio
