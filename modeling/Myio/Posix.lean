import Myio.Vtable

/-! The connect and listen walks of `myio_common.h`, which the sync backend and the thread pool share. -/

namespace Myio

/-- The resolver's code that defers to errno. -/
def EAI_SYSTEM : Int := -11

def ECONNREFUSED : Int := 111

/-- `gai_errno`. -/
def gaiErrno (rc errno : Int) : Int := if rc = EAI_SYSTEM then errno else rc

/-- What becomes of one resolved address; both failures leave `errno`. -/
inductive AddrAns
  | socket (errno : Int)
  | connect (errno : Int)
  | connected
  deriving DecidableEq, Repr

/-- What the calls of `myio_posix_connect` answer: `getaddrinfo`, then address by address. -/
structure ConnectOs where
  rc : Int := 0
  errno : Int := 0
  addrs : List AddrAns := []
  deriving DecidableEq, Repr

/-- The walk over the addresses; the answer is whether one accepts, and what `*err` is then. -/
def tryAddrs (err : Int) : List AddrAns → Bool × Int
  | [] => (false, err)
  | .socket errno :: rest => tryAddrs errno rest
  | .connect errno :: rest => tryAddrs errno rest
  | .connected :: _ => (true, err)

/-- `myio_posix_connect`: whether it returns a descriptor, and what `*err` is then. -/
def posixConnect (os : ConnectOs) : Bool × Int :=
  if os.rc ≠ 0 then (false, gaiErrno os.rc os.errno) else tryAddrs ECONNREFUSED os.addrs

/-- What the calls of `myio_posix_listen` answer; a call that fails leaves its `errno`. -/
structure ListenOs where
  rc : Int := 0
  errno : Int := 0
  socket : Option Int := none
  bind : Option Int := none
  listen : Option Int := none
  deriving DecidableEq, Repr

/-- `myio_posix_listen`: what it stores in `*err`, or none when it returns a descriptor. -/
def posixListen (os : ListenOs) : Option Int :=
  if os.rc ≠ 0 then some (gaiErrno os.rc os.errno)
  else os.socket.or (os.bind.or os.listen)

end Myio
