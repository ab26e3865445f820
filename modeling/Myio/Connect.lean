import Myio.Posix
import Myio.ZLoop.Code

/-! The connect walks with the sockets they open and the address list they own. -/

namespace Myio.Connect

open Function (update)

/-- One socket: the address it was opened for, by its place in the list, and what became of it. -/
structure Opened where
  addr : Nat := 0
  connected : Bool := false
  closes : Nat := 0
  deriving DecidableEq, Repr

/-- The system's side of a walk; the last two fields are history. -/
structure Kernel where
  nfd : Nat
  sock : Fd → Opened
  /-- The addresses a socket was asked for, in order. -/
  tried : List Nat
  /-- How often `freeaddrinfo` was called. -/
  frees : Nat

/-- What a walk returns, and what it stores in `*err`. -/
structure Walk where
  kernel : Kernel
  fd : Int
  err : Int

namespace Kernel

variable (k : Kernel)

/-- `socket`, when it succeeds; the descriptor's name is the old `nfd`. -/
def socket (addr : Nat) : Kernel :=
  { k with nfd := k.nfd + 1, sock := update k.sock k.nfd { addr } }

/-- `connect`, when it succeeds. -/
def connect (fd : Fd) : Kernel :=
  { k with sock := update k.sock fd { k.sock fd with connected := true } }

/-- `close`. -/
def close (fd : Fd) : Kernel :=
  { k with sock := update k.sock fd { k.sock fd with closes := (k.sock fd).closes + 1 } }

/-- `freeaddrinfo`. -/
def freeaddrinfo : Kernel := { k with frees := k.frees + 1 }

end Kernel

/-- The loop over the addresses, from the one in place `i` on, with `fd` and `*err` as they stand. -/
def connectLoop (k : Kernel) (fd err : Int) (i : Nat) : List AddrAns → Walk
  | [] => ⟨k, fd, err⟩
  | ans :: rest =>
    let k := { k with tried := k.tried ++ [i] }
    match ans with
    | .socket errno => connectLoop k (-1) errno (i + 1) rest
    | .connect errno => connectLoop ((k.socket i).close k.nfd) (-1) errno (i + 1) rest
    | .connected => ⟨(k.socket i).connect k.nfd, k.nfd, err⟩

/-- The connect walk, with the error a failed resolution is reported with. -/
def connectWalk (gai : Int → Int → Int) (k : Kernel) (os : ConnectOs) : Walk :=
  if os.rc ≠ 0 then ⟨k, -1, gai os.rc os.errno⟩
  else
    let w := connectLoop k (-1) ECONNREFUSED 0 os.addrs
    { w with kernel := w.kernel.freeaddrinfo }

/-- `myio_posix_connect`. -/
def myioPosixConnect : Kernel → ConnectOs → Walk := connectWalk gaiErrno

/-- `do_connect` of the Zephyr pool. -/
def doConnect : Kernel → ConnectOs → Walk := connectWalk Loop.ZIo.gaiError

/-- What a failing call leaves in `errno`. -/
def errnoOf : AddrAns → Option Int
  | .socket errno => some errno
  | .connect errno => some errno
  | .connected => none

/-- The error of the last failing call in list order. -/
def lastError (addrs : List AddrAns) : Int := (addrs.filterMap errnoOf).getLast?.getD ECONNREFUSED

/-- The walks of `Posix`, which leave the descriptors out, are these. -/
theorem connectLoop_eq_tryAddrs (addrs : List AddrAns) : ∀ (k : Kernel) (fd err : Int) (i : Nat),
    fd < 0 → (decide (0 ≤ (connectLoop k fd err i addrs).fd), (connectLoop k fd err i addrs).err) =
      tryAddrs err addrs := by
  induction addrs with
  | nil =>
    intro k fd err i negative
    simp [connectLoop, tryAddrs, Int.not_le.mpr negative]
  | cons ans rest ih =>
    intro k fd err i _
    cases ans with
    | socket errno => exact ih _ _ _ _ (by decide)
    | connect errno => exact ih _ _ _ _ (by decide)
    | connected => simp [connectLoop, tryAddrs]

theorem myioPosixConnect_eq (k : Kernel) (os : ConnectOs) :
    (decide (0 ≤ (myioPosixConnect k os).fd), (myioPosixConnect k os).err) = posixConnect os := by
  unfold myioPosixConnect connectWalk posixConnect
  split
  · rfl
  · exact connectLoop_eq_tryAddrs os.addrs k (-1) ECONNREFUSED 0 (by decide)

/-- How a walk over a list of resolved addresses ends. -/
structure Walked (k : Kernel) (addrs : List AddrAns) (w : Walk) : Prop where
  /-- The first address that accepts gives the descriptor, and no later one is tried. -/
  accepted : ∀ pre post, addrs = pre ++ .connected :: post → .connected ∉ pre →
    ∃ d : Fd, w.fd = d ∧ k.nfd ≤ d ∧ d < w.kernel.nfd ∧
      w.kernel.sock d = { addr := pre.length, connected := true, closes := 0 } ∧
      w.kernel.tried = k.tried ++ List.range (pre.length + 1)
  /-- Without such an address all are tried, and the last error is reported. -/
  refused : .connected ∉ addrs → w.fd = -1 ∧ w.err = lastError addrs ∧
    w.kernel.tried = k.tried ++ List.range addrs.length
  /-- Every other socket the walk has opened is closed exactly once. -/
  closed : ∀ d : Fd, k.nfd ≤ d → d < w.kernel.nfd → w.fd ≠ d → (w.kernel.sock d).closes = 1
  /-- The sockets that were there before are left alone. -/
  others : ∀ d < k.nfd, w.kernel.sock d = k.sock d
  freed : w.kernel.frees = k.frees + 1

section Loop

variable {k : Kernel} {fd err : Int} {i : Nat}

/-- The loop hands out new descriptors only, and does not free the list. -/
theorem connectLoop_frame (addrs : List AddrAns) : ∀ {k : Kernel} {fd err : Int} {i : Nat},
    k.nfd ≤ (connectLoop k fd err i addrs).kernel.nfd ∧
      (connectLoop k fd err i addrs).kernel.frees = k.frees ∧
      ∀ d < k.nfd, (connectLoop k fd err i addrs).kernel.sock d = k.sock d := by
  induction addrs with
  | nil =>
    intro k fd err i
    exact ⟨Nat.le_refl _, rfl, fun _ _ => rfl⟩
  | cons ans rest ih =>
    intro k fd err i
    cases ans with
    | socket errno =>
      obtain ⟨more, frees, same⟩ := @ih { k with tried := k.tried ++ [i] } (-1) errno (i + 1)
      exact ⟨more, frees, same⟩
    | connect errno =>
      obtain ⟨more, frees, same⟩ := @ih ((Kernel.socket { k with tried := k.tried ++ [i] } i).close k.nfd)
        (-1) errno (i + 1)
      refine ⟨Nat.le_of_succ_le more, frees, fun d old => ?_⟩
      refine (same d (Nat.lt_succ_of_lt old)).trans ?_
      simp [Kernel.close, Kernel.socket, Nat.ne_of_lt old]
    | connected =>
      refine ⟨Nat.le_succ _, rfl, fun d old => ?_⟩
      simp [connectLoop, Kernel.connect, Kernel.socket, Nat.ne_of_lt old]

/-- A socket that did not connect is closed before the next address is tried. -/
theorem connectLoop_closed (addrs : List AddrAns) : ∀ {k : Kernel} {fd err : Int} {i : Nat} (d : Fd),
    k.nfd ≤ d → d < (connectLoop k fd err i addrs).kernel.nfd →
      (connectLoop k fd err i addrs).fd ≠ d →
        ((connectLoop k fd err i addrs).kernel.sock d).closes = 1 := by
  induction addrs with
  | nil =>
    intro k fd err i d new old
    exact absurd new (Nat.not_le.mpr old)
  | cons ans rest ih =>
    intro k fd err i d new old other
    cases ans with
    | socket errno => exact ih d new old other
    | connect errno =>
      rcases Nat.eq_or_lt_of_le new with rfl | later
      · -- The socket of this very address: nothing later touches it.
        have same := (@connectLoop_frame rest
          ((Kernel.socket { k with tried := k.tried ++ [i] } i).close k.nfd) (-1) errno (i + 1)).2.2
          k.nfd (Nat.lt_succ_self _)
        show ((connectLoop _ _ _ _ rest).kernel.sock k.nfd).closes = 1
        rw [same]
        simp [Kernel.close, Kernel.socket]
      · exact ih d later old other
    | connected =>
      have own : d = k.nfd := Nat.le_antisymm (Nat.lt_succ_iff.mp old) new
      exact absurd (by rw [own]; rfl) other

/-- The loop stops at the first address that accepts. -/
theorem connectLoop_accepted {post : List AddrAns} (pre : List AddrAns) :
    ∀ {k : Kernel} {fd err : Int} {i : Nat}, .connected ∉ pre →
      ∃ d : Fd, (connectLoop k fd err i (pre ++ .connected :: post)).fd = d ∧ k.nfd ≤ d ∧
        d < (connectLoop k fd err i (pre ++ .connected :: post)).kernel.nfd ∧
        (connectLoop k fd err i (pre ++ .connected :: post)).kernel.sock d =
          { addr := i + pre.length, connected := true, closes := 0 } ∧
        (connectLoop k fd err i (pre ++ .connected :: post)).kernel.tried =
          k.tried ++ List.range' i (pre.length + 1) := by
  induction pre with
  | nil =>
    intro k fd err i _
    exact ⟨k.nfd, rfl, Nat.le_refl _, Nat.lt_succ_self _, by
      simp [connectLoop, Kernel.connect, Kernel.socket], rfl⟩
  | cons ans pre ih =>
    intro k fd err i refused
    obtain ⟨other, below⟩ := List.ne_and_not_mem_of_not_mem_cons refused
    -- One address further, the places count from the next one on.
    have place : i + 1 + pre.length = i + (pre.length + 1) := by omega
    have range : ∀ l : List Nat, (l ++ [i]) ++ List.range' (i + 1) (pre.length + 1) =
        l ++ List.range' i (pre.length + 1 + 1) := by
      intro l
      rw [List.append_assoc, List.range'_succ (n := pre.length + 1)]
      rfl
    cases ans with
    | socket errno =>
      obtain ⟨d, isFd, new, old, sock, tried⟩ :=
        @ih { k with tried := k.tried ++ [i] } (-1) errno (i + 1) below
      exact ⟨d, isFd, new, old, by rw [place] at sock; exact sock, tried.trans (range k.tried)⟩
    | connect errno =>
      obtain ⟨d, isFd, new, old, sock, tried⟩ :=
        @ih ((Kernel.socket { k with tried := k.tried ++ [i] } i).close k.nfd) (-1) errno (i + 1) below
      exact ⟨d, isFd, Nat.le_of_succ_le new, old, by rw [place] at sock; exact sock,
        tried.trans (range k.tried)⟩
    | connected => exact absurd rfl other

/-- A loop in which no address accepts tries them all and keeps the last error. -/
theorem connectLoop_refused (addrs : List AddrAns) : ∀ {k : Kernel} {err : Int} {i : Nat},
    .connected ∉ addrs →
      (connectLoop k (-1) err i addrs).fd = -1 ∧
      (connectLoop k (-1) err i addrs).err = (addrs.filterMap errnoOf).getLast?.getD err ∧
      (connectLoop k (-1) err i addrs).kernel.tried = k.tried ++ List.range' i addrs.length := by
  induction addrs with
  | nil =>
    intro k err i _
    exact ⟨rfl, rfl, by simp [connectLoop]⟩
  | cons ans rest ih =>
    intro k err i refused
    obtain ⟨other, below⟩ := List.ne_and_not_mem_of_not_mem_cons refused
    have range : (k.tried ++ [i]) ++ List.range' (i + 1) rest.length =
        k.tried ++ List.range' i (rest.length + 1) := by
      rw [List.append_assoc, List.range'_succ]
      rfl
    cases ans with
    | socket errno =>
      obtain ⟨isFd, isErr, tried⟩ := @ih { k with tried := k.tried ++ [i] } errno (i + 1) below
      exact ⟨isFd, isErr.trans (by simp [errnoOf, List.getLast?_cons]), tried.trans range⟩
    | connect errno =>
      obtain ⟨isFd, isErr, tried⟩ :=
        @ih ((Kernel.socket { k with tried := k.tried ++ [i] } i).close k.nfd) errno (i + 1) below
      exact ⟨isFd, isErr.trans (by simp [errnoOf, List.getLast?_cons]), tried.trans range⟩
    | connected => exact absurd rfl other

end Loop

theorem connectWalk_walked (gai : Int → Int → Int) (k : Kernel) (errno : Int) (addrs : List AddrAns) :
    Walked k addrs (connectWalk gai k { rc := 0, errno, addrs }) := by
  have frame := @connectLoop_frame addrs k (-1) ECONNREFUSED 0
  constructor
  case accepted =>
    intro pre post list refused
    subst list
    obtain ⟨d, isFd, new, old, sock, tried⟩ :=
      @connectLoop_accepted post pre k (-1) ECONNREFUSED 0 refused
    rw [Nat.zero_add] at sock
    exact ⟨d, isFd, new, old, sock, by rw [List.range_eq_range']; exact tried⟩
  case refused =>
    intro refused
    obtain ⟨isFd, isErr, tried⟩ := @connectLoop_refused addrs k ECONNREFUSED 0 refused
    exact ⟨isFd, isErr, by rw [List.range_eq_range']; exact tried⟩
  case closed => exact fun d => connectLoop_closed addrs d
  case others => exact frame.2.2
  case freed => exact congrArg (· + 1) frame.2.1

/--
Both connect walks, over every list of resolved addresses and every pattern of outcomes.

The descriptor returned is the connected socket of the first address that accepts, and no later one
is tried; without one the answer is -1 with the error of the last failing call, or `ECONNREFUSED`
for an empty list. Every other socket the walk opened has been closed once, those of others are left
alone, and the list has been freed once.
-/
theorem connect_walks (k : Kernel) (errno : Int) (addrs : List AddrAns) :
    Walked k addrs (myioPosixConnect k { rc := 0, errno, addrs }) ∧
      Walked k addrs (doConnect k { rc := 0, errno, addrs }) ∧ lastError [] = ECONNREFUSED :=
  ⟨connectWalk_walked gaiErrno k errno addrs, connectWalk_walked Loop.ZIo.gaiError k errno addrs, rfl⟩

/-- A failing `socket` after a failed `connect`, and an address that is never reached. -/
example : (connectLoop ⟨3, fun _ => {}, [], 0⟩ (-1) ECONNREFUSED 0
    [.connect 111, .socket 24, .connected, .connected]).fd = 4 := by decide

end Myio.Connect
