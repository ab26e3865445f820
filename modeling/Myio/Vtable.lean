import Mathlib.Algebra.Group.Nat.Defs

/-! The public header's result type, with the constructors the C backends share. -/

namespace Myio

/-- A socket handle, numbered in the order the backend allocates them. -/
abbrev SockId := Nat

/-- A task handle, numbered in submission order and never reused. -/
abbrev TaskId := Nat

/-- A kernel descriptor; a number the kernel hands out again is a new one here. -/
abbrev Fd := Nat

/-- The kernel's side of a descriptor: how often it was closed, and the bytes `send` accepted. -/
structure Desc where
  closes : Nat := 0
  wire : List UInt8 := []
  deriving DecidableEq, Repr

/-- `myio_status`. -/
inductive Status
  | pending
  | ok
  | error
  | canceled
  deriving DecidableEq, Repr

/-- `myio_result`: `ptr` is the socket a connect or an accept delivers. -/
structure Result where
  status : Status
  value : Int := 0
  error : Int := 0
  ptr : Option SockId := none
  deriving DecidableEq, Repr

/-- The result a fresh task carries, with only its status set. -/
def rPending : Result := { status := .pending }

/-- `r_ok`. -/
def rOk (value : Int) (ptr : Option SockId) : Result := { status := .ok, value, ptr }

/-- `r_err`. -/
def rErr (err : Int) : Result := { status := .error, error := err }

/-- `r_canceled`. -/
def rCanceled : Result := { status := .canceled }

/-- `r_from`: a negative return means failure, and `errno` carries the code. -/
def rFrom (n errno : Int) : Result := if 0 ≤ n then rOk n none else rErr errno

/-- The conversion of a 64-bit value to `int`, which keeps the low 32 bits. -/
def toInt32 (n : Int) : Int := Int.bmod n (2 ^ 32)

/-- The errno values the modelled code names itself. -/
def ENOMEM : Int := 12
def EAGAIN : Int := 11
def EBUSY : Int := 16
def EBADF : Int := 9
def EINVAL : Int := 22
def EMFILE : Int := 24
def ENAMETOOLONG : Int := 36
def EDEADLK : Int := 35

@[simp] theorem rOk_status (value : Int) (ptr : Option SockId) : (rOk value ptr).status = .ok := rfl
@[simp] theorem rOk_ptr (value : Int) (ptr : Option SockId) : (rOk value ptr).ptr = ptr := rfl
@[simp] theorem rOk_value (value : Int) (ptr : Option SockId) : (rOk value ptr).value = value := rfl
@[simp] theorem rErr_status (err : Int) : (rErr err).status = .error := rfl
@[simp] theorem rErr_ptr (err : Int) : (rErr err).ptr = none := rfl
@[simp] theorem rCanceled_status : rCanceled.status = .canceled := rfl
@[simp] theorem rCanceled_ptr : rCanceled.ptr = none := rfl
@[simp] theorem rPending_status : rPending.status = .pending := rfl
@[simp] theorem rPending_ptr : rPending.ptr = none := rfl

/-- A system call's result is never pending. -/
@[simp] theorem rFrom_status_ne_pending (n errno : Int) : (rFrom n errno).status ≠ .pending := by
  unfold rFrom; split <;> simp

/-- A system call's result never carries a socket. -/
@[simp] theorem rFrom_ptr (n errno : Int) : (rFrom n errno).ptr = none := by
  unfold rFrom; split <;> rfl

end Myio
