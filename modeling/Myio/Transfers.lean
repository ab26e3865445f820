import Myio.Uring.Results
import Myio.Uv.Lengths

/-! The lengths of transfers, which libuv and io_uring hold in 32 bits. -/

namespace Myio

open Loop (UringIo toU32)

/-! ### Reads of a file through io_uring -/

namespace Loop.UringIo

variable {u u' : UringIo} {t : TaskId} {n : Nat} {End : Prop}

/-- What the kernel promises of a read: one that asks for some bytes gets none only at the end. -/
def AtEnd (End : Prop) (t : TaskId) (u : UringIo) : Label → Prop
  | .cqe v res => v = t → 0 < u.entry t → res = 0 → End
  | _ => True

/-- Runs in which one task's reads come back empty only at the end of the file. -/
def ServedToEnd (End : Prop) (t : TaskId) (u u' : UringIo) : Prop :=
  Machine.Path step (fun u label => u.answers label = true ∧ AtEnd End t u label) u u'

/-- One file read keeps its entry, and without a byte it is at the end. -/
def ownRead (t : TaskId) (n : Nat) (End : Prop) : Law :=
  fun v kind len r => v = t → kind = .taskRead ∧ len = n ∧ (r.status = .ok → r.value = 0 → End)

theorem ownRead_lawful : (ownRead t n End).Lawful (t + 1) where
  fresh v _ _ late same := absurd late (by rw [same]; exact Nat.not_succ_le_self _)
  refused v _ _ _ late _ same := absurd late (by rw [same]; exact Nat.not_succ_le_self _)
  dropped v _ _ _ _ own same := absurd (own same).1 (by decide)
  rearmed v _ _ _ own same := absurd (own same).1 (by decide)

theorem ownRead_grants {label : Label} (good : Good (ownRead t n End) (t + 1) u) (some : 0 < n)
    (atEnd : AtEnd End t u label) : u.Grants (ownRead t n End) label := by
  have other : u.ntask ≠ t := Nat.ne_of_gt good.late
  cases label with
  | spawn mem ret => exact fun _ same => absurd same other
  | tcpConnect mem ans =>
    cases ans with
    | unresolved rc errno => exact fun _ same => absurd same other
    | socket errno => exact fun _ same => absurd same other
    | opened memSock => trivial
  | cqe v res =>
    rintro r possible rfl
    obtain ⟨kind, entry, _⟩ := good.each v rfl
    refine ⟨kind, entry, fun okay none => ?_⟩
    have isRead : r = cqeResult res := by simpa [Good.Possible, kind] using possible
    rw [isRead] at okay none
    have zero : res = 0 := by
      by_cases negative : 0 ≤ res
      · simpa [cqeResult, negative] using none
      · exact absurd okay (cqeResult_failed (by omega))
    exact atEnd rfl (by rw [entry]; exact some) zero
  | _ => trivial

/-- From its submission on, a read that asks for some bytes reports none only at the end. -/
theorem ServedToEnd.read (run : ServedToEnd End t u u') (some : 0 < n)
    (good : Good (ownRead t n End) (t + 1) u) : Good (ownRead t n End) (t + 1) u' :=
  Machine.Path.invariant (Good (ownRead t n End) (t + 1))
    (fun _ _ _ good may taken => good.step ownRead_lawful (ownRead_grants good some may.2) taken) run good

/-- The law that allows everything. -/
def anything : Law := fun _ _ _ _ => True

theorem anything_lawful : anything.Lawful 0 := by
  constructor <;> intros <;> trivial

theorem Served.good {sqes : Nat → Bool} (run : Served (UringIo.new sqes) u) : Good anything 0 u := by
  refine Machine.Path.invariant (Good anything 0) (fun u label u' good _ taken => ?_) run
    (.new anything_lawful sqes)
  refine good.step anything_lawful ?_ taken
  cases label with
  | tcpConnect mem ans => cases ans <;> first | exact fun _ => trivial | trivial
  | spawn mem ret => exact fun _ => trivial
  | cqe v res => exact fun _ _ => trivial
  | _ => trivial

/-- A read is a call of the idle user thread. -/
theorem step_call {mem : Bool} {len : Nat} (taken : u.step (.read mem len) = some u') :
    u' = u.implRead mem len := by
  simp only [step] at taken
  split at taken
  · cases taken; rfl
  · cases taken

/-- What `impl_read` leaves of a task it makes. -/
theorem implRead_task (u : UringIo) (len : Nat) :
    let v := u.implRead true len
    (v.task u.ntask).kind = .taskRead ∧ (v.task u.ntask).res.status ≠ .ok ∧ v.ntask = u.ntask + 1 ∧
      (u.sqes u.tick = true → v.entry u.ntask = toU32 len ∧ u.ntask ∈ v.armed) := by
  intro v
  have isV : v = u.submitPlain .taskRead len := rfl
  unfold submitPlain at isV
  dsimp only at isV
  have sqes : (u.on (·.taskNew { kind := .taskRead })).sqes
      (u.on (·.taskNew { kind := .taskRead })).tick = u.sqes u.tick := rfl
  unfold sqeGet at isV
  rw [sqes] at isV
  cases met : u.sqes u.tick with
  | true =>
    rw [met] at isV
    rw [isV]
    refine ⟨?_, ?_, rfl, fun _ => ⟨?_, List.mem_cons_self⟩⟩ <;>
      simp [give, sqeFlush, on, Core.arm, Core.taskNew]
  | false =>
    rw [met] at isV
    rw [isV]
    refine ⟨?_, ?_, rfl, (by intros; contradiction)⟩ <;> simp [give, on, taskFail, Core.finish, Core.modTask, Core.taskNew]

end Loop.UringIo

/-! ### The transfers of both backends -/

/--
What a transfer of this length is owed.

A write on a libuv socket that succeeds was handed over whole and reports its length. A file read,
or a read on a libuv socket, asks for some bytes, so that it reports none only at the end.
-/
structure Carries (len : Nat) : Prop where
  uvWrite : ∀ io s rc v w, Uv.Io.Runs Uv.Io.new io → io.allowed (.user (.sockWrite s len rc)) = true →
    io.step (.user (.sockWrite s len rc)) = some v → Uv.Io.Runs v w →
    (w.task io.ntask).res.status = .ok →
    (w.task io.ntask).len = len ∧ (w.task io.ntask).res.value = len
  uvRead : 0 < len → ∀ (End : Prop) io rc v w, Uv.Io.Runs Uv.Io.new io →
    io.allowed (.user (.read len rc)) = true → io.step (.user (.read len rc)) = some v →
    Uv.Io.RunsToEnd End io.ntask v w → 0 < (w.task io.ntask).len ∧
      ((w.task io.ntask).res.status = .ok → (w.task io.ntask).res.value = 0 → End)
  uvSockRead : 0 < len → ∀ (End : Prop) io s rc v w, Uv.Io.Runs Uv.Io.new io →
    io.allowed (.user (.sockRead s len rc)) = true → io.step (.user (.sockRead s len rc)) = some v →
    Uv.Io.RunsToEnd End io.ntask v w → ((io.sock s).readTask = none → 0 < (w.task io.ntask).len) ∧
      ((w.task io.ntask).res.status = .ok → (w.task io.ntask).res.value = 0 → End)
  uringRead : 0 < len → ∀ (End : Prop) sqes (u v w : UringIo), UringIo.Served (UringIo.new sqes) u →
    u.sqes u.tick = true → u.step (.read true len) = some v → UringIo.ServedToEnd End u.ntask v w →
    0 < w.entry u.ntask ∧
      ((w.task u.ntask).res.status = .ok → (w.task u.ntask).res.value = 0 → End)

/-- A length that fits the buffers is carried. -/
theorem carries_of_short {len : Nat} (short : len < 2 ^ 32) : Carries len where
  uvWrite io s rc v w reached may taken run okay := by
    have exact_ : len % 2 ^ 32 = len := Nat.mod_eq_of_lt short
    have good := reached.good.step Uv.Io.anything_lawful
      (Uv.Io.anything_grants (Uv.Io.allowed_libuv may)) taken
    have isV : v = io.implSockWrite s len rc := Uv.Io.step_call taken
    obtain ⟨kind, length, unfinished, made⟩ := Uv.Io.implSockWrite_task io s len rc
    rw [← isV, exact_] at length
    rw [← isV] at kind unfinished made
    have start := good.own_new (R := Uv.Io.worth len) made kind length fun okay => absurd okay unfinished
    obtain ⟨_, handed, value⟩ := (run.write start).each io.ntask rfl
    exact ⟨handed, value okay⟩
  uvRead some End io rc v w reached may taken run := by
    have exact_ : len % 2 ^ 32 = len := Nat.mod_eq_of_lt short
    have good := reached.good.step Uv.Io.anything_lawful
      (Uv.Io.anything_grants (Uv.Io.allowed_libuv may)) taken
    have isV : v = io.fsSubmit len rc := Uv.Io.step_call taken
    obtain ⟨kind, length, unfinished, made⟩ := Uv.Io.fsSubmit_task io len rc
    rw [← isV, exact_] at length
    rw [← isV] at kind unfinished made
    have start := good.own_new (R := Uv.Io.zeroAtEnd End) made kind length
      fun okay => absurd okay unfinished
    obtain ⟨_, asked, ends⟩ := (run.read (.inl rfl) (fun _ => some) start).each io.ntask rfl
    exact ⟨by rw [asked]; exact some, ends⟩
  uvSockRead some End io s rc v w reached may taken run := by
    have exact_ : len % 2 ^ 32 = len := Nat.mod_eq_of_lt short
    have good := reached.good.step Uv.Io.anything_lawful
      (Uv.Io.anything_grants (Uv.Io.allowed_libuv may)) taken
    have isV : v = io.implSockRead s len rc := Uv.Io.step_call taken
    obtain ⟨kind, length, unfinished, made⟩ := Uv.Io.implSockRead_task io s len rc
    rw [← isV, exact_] at length
    rw [← isV] at kind unfinished made
    have start := good.own_new (R := Uv.Io.zeroAtEnd End) made kind rfl fun okay => absurd okay unfinished
    obtain ⟨_, asked, ends⟩ := (run.read (.inr rfl) (by intros; contradiction) start).each io.ntask rfl
    exact ⟨fun free => by rw [asked, length free]; exact some, ends⟩
  uringRead some End sqes u v w reached met taken run := by
    have exact_ : toU32 len = len := Nat.mod_eq_of_lt short
    have granted : u.Grants UringIo.anything (.read true len) := trivial
    have good := reached.good.step UringIo.anything_lawful granted taken
    have isV : v = u.implRead true len := UringIo.step_call taken
    obtain ⟨kind, unfinished, made, entry⟩ := UringIo.implRead_task u len
    rw [← isV] at kind unfinished made entry
    have asked := (entry met).1
    rw [exact_] at asked
    have start : UringIo.Good (UringIo.ownRead u.ntask len End) (u.ntask + 1) v :=
      good.relaw (Nat.le_of_eq made.symm) fun x same => by
        rw [same]
        exact ⟨kind, asked, fun okay => absurd okay unfinished⟩
    obtain ⟨_, entry', ends⟩ := (run.read some start).each u.ntask rfl
    exact ⟨by rw [entry']; exact some, ends⟩

/-- A connection made with libuv, and its socket read by the caller. -/
def Uv.Io.connected : List Uv.Io.Label :=
  [.user (.tcpConnect 0), .pool 0, .user .step, .loop (.gai 0 0 0), .loop (.connect 0 0), .turnEnd,
    .user (.taskResult 0)]

/-- An instance of the libuv backend with one connected socket. -/
def Uv.Io.oneSocket : Uv.Io := Machine.drive Uv.Io.step Uv.Io.new Uv.Io.connected

theorem Uv.Io.oneSocket_runs : Uv.Io.Runs Uv.Io.new Uv.Io.oneSocket :=
  .of_legal Uv.Io.allowed (fun _ _ => id) Uv.Io.connected (.refl _) (by decide +kernel)

/-- A write that does not fit libuv's buffer is cut to its low 32 bits and reported as such. -/
theorem not_carries_of_long {len : Nat} (long : 2 ^ 32 ≤ len) : ¬ Carries len := by
  intro carries
  -- The write is submitted on the connected socket, and the caller waits.
  let t := Uv.Io.oneSocket.ntask
  let k : Uv.Task := { kind := .sockWrite, sock := some 0, len := len % 2 ^ 32, req := .onHandle }
  have idle : Uv.Io.oneSocket.user = .idle := by decide +kernel
  have claimed : Uv.Io.oneSocket.claimed 0 = true := by decide +kernel
  have whole : (Uv.Io.oneSocket.sock 0).frees = 0 ∧ (Uv.Io.oneSocket.sock 0).closing = false := by
    decide +kernel
  generalize isWritten : Uv.Io.oneSocket.implSockWrite 0 len 0 = v
  have task : v.task t = k := by
    rw [← isWritten]
    simp [Uv.Io.implSockWrite, t, k]
  have may : Uv.Io.oneSocket.allowed (.user (.sockWrite 0 len 0)) = true := by
    simp [Uv.Io.allowed, Uv.Io.obeys, Uv.Io.libuv, claimed, whole, Uv.UV_ECANCELED]
  have written : Uv.Io.oneSocket.step (.user (.sockWrite 0 len 0)) = some v := by
    rw [← isWritten]
    simp [Uv.Io.step, idle, Uv.Io.call]
  have still : v.user = .idle := by
    rw [← isWritten, ← idle]
    rfl
  generalize isWaiting : ({ v with user := .turning .step v.ncompleted } : Uv.Io) = w
  have waits : v.step (.user .step) = some w := by
    rw [← isWaiting]
    simp [Uv.Io.step, still, Uv.Io.call]
  have taskW : w.task t = k := by rw [← isWaiting]; exact task
  -- libuv reports that it has sent all it was handed.
  have ended : w.step (.loop (.write t 0)) = some (w.writeCb t 0) := by
    rw [← isWaiting]
    rfl
  have sent : w.allowed (.loop (.write t 0)) = true := by
    simp [Uv.Io.allowed, Uv.Io.obeys, Uv.Io.libuv, taskW, k, Uv.UV_ECANCELED]
  have result : ((w.writeCb t 0).task t).res = { status := .ok, value := (len % 2 ^ 32 : Nat) } := by
    have open_ : (w.modTask t ({ · with req := .none })).task t = { k with req := .none } := by
      rw [Uv.Io.modTask_task, if_pos rfl, taskW]
    have ends := (Uv.Io.taskComplete_held (w.modTask t ({ · with req := .none })) t
      (len % 2 ^ 32 : Nat) (by rw [open_])).1
    have same : w.writeCb t 0 = (w.modTask t ({ · with req := .none })).taskComplete t (len % 2 ^ 32 : Nat) := by
      have notCanceled : ¬ (0 : Int) = Uv.UV_ECANCELED := by decide
      unfold Uv.Io.writeCb
      dsimp only
      rw [if_neg notCanceled, if_neg (by decide), open_]
    rw [same, ends, open_, Uv.Io.uvResult_okay (by omega)]
    rfl
  have run : Uv.Io.Runs v (w.writeCb t 0) := .snoc (.snoc (.refl v) (by rfl) waits) sent ended
  have carried := carries.uvWrite _ 0 0 v _ Uv.Io.oneSocket_runs may written run (by rw [result])
  have value := carried.2
  rw [result] at value
  have cut := Nat.mod_lt len (show 0 < 2 ^ 32 by decide)
  have cast : (len % 2 ^ 32 : Nat) = len := Int.ofNat.inj value
  omega

/-- A transfer is carried out exactly when its length fits the 32 bits of libuv and io_uring. -/
theorem carries_iff (len : Nat) : Carries len ↔ len < 2 ^ 32 :=
  ⟨fun carries => by
    by_contra long
    exact not_carries_of_long (Nat.le_of_not_lt long) carries, carries_of_short⟩

/-- A write of 4 GiB hands over nothing and is reported as a success without a byte. -/
theorem not_carries_four_gib : ¬ Carries (2 ^ 32) := not_carries_of_long (Nat.le_refl _)

end Myio
