import Myio.Lib.Path
import Myio.Uv.Results

/-! Lengths of 64 bits in the 32-bit buffers of libuv. -/

namespace Myio.Uv

namespace Io

variable {io io' : Io} {t : TaskId} {s : SockId} {K : Kind} {len : Nat} {R : Result → Prop}

/-- A label that the caller and libuv may choose. -/
def allowed (io : Io) (label : Label) : Bool := io.obeys label && io.libuv label

/-- The runs of an instance with a caller and a libuv that do as documented. -/
def Runs (io io' : Io) : Prop := Machine.Path step (fun io label => io.allowed label = true) io io'

/-! ### The life of one task -/

/-- One task keeps its kind and its length, and its result is as described. -/
def own (t : TaskId) (K : Kind) (len : Nat) (R : Result → Prop) : Law :=
  fun u kind l r => u = t → kind = K ∧ l = len ∧ R r

/-- The results that are no successes, and the cancels among them, are as described. -/
structure Lenient (R : Result → Prop) : Prop where
  failed : ∀ r : Result, r.status ≠ .ok → R r
  ptr : ∀ (r : Result) p, R r → R { r with ptr := p }

/-- A completion with a negative code is no success. -/
theorem uvResult_failed {m : Int} (negative : m < 0) (r : Result) : (uvResult r m).status ≠ .ok := by
  unfold uvResult
  rw [if_neg (by omega)]
  split <;> simp

/-- A completion with a code that is not negative is a success with that value. -/
theorem uvResult_okay {m : Int} (okay : 0 ≤ m) (r : Result) :
    uvResult r m = { r with status := .ok, value := m } := by
  unfold uvResult
  rw [if_pos okay]

/-- A transfer: the kinds of task that a length matters to. -/
def Transfer (K : Kind) : Prop := K = .fs ∨ K = .sockRead ∨ K = .sockWrite

theorem own_lawful (transfer : Transfer K) (lenient : Lenient R) :
    (own t K len R).Lawful (t + 1) where
  fresh u _ _ late same := absurd late (by rw [same]; exact Nat.not_succ_le_self _)
  busy u _ late _ same := absurd late (by rw [same]; exact Nat.not_succ_le_self _)
  canceled u kind l r own same :=
    ⟨(own same).1, (own same).2.1, lenient.failed _ (uvResult_failed (by decide) r)⟩
  zero u kind l fs spawn read write r own same := by
    obtain ⟨isKind, _, _⟩ := own same
    rcases transfer with isK | isK | isK
    · exact absurd (isKind.trans isK) fs
    · exact absurd (isKind.trans isK) read
    · exact absurd (isKind.trans isK) write
  ptr u kind l r p own same :=
    ⟨(own same).1, (own same).2.1, lenient.ptr r p (own same).2.2⟩

/-- What libuv answers to the task's own request leads to a result as described. -/
def Answers (R : Result → Prop) (t : TaskId) (io : Io) : Label → Prop
  | .loop (.fs u result) => u = t → 0 ≤ result → ∀ r, R (uvResult r result)
  | .loop (.read s nread) => nread ≠ 0 → (io.sock s).readTask = some t →
    ∀ r, R (uvResult r (if nread = UV_EOF then 0 else nread))
  | .loop (.write u status) => u = t → ¬ status < 0 → ∀ r, R (uvResult r (io.task t).len)
  | _ => True

/-- Nobody else completes the task. -/
theorem own_grants {label : Label} (transfer : Transfer K) (lenient : Lenient R)
    (good : Good (own t K len R) (t + 1) io) (promised : io.libuv label = true)
    (answers : Answers R t io label) : io.Grants (own t K len R) label := by
  -- A task submitted now is another one.
  have other : ∀ {kind l m}, (own t K len R).Allows io.ntask kind l m := by
    intro kind l m r _ same
    exact absurd good.late (by rw [same]; exact Nat.not_succ_le_self _)
  -- A task of another kind is another one.
  have apart : ∀ {u kind}, (io.task u).kind = kind → kind ≠ K → u ≠ t := by
    rintro u kind isKind differs rfl
    exact differs (isKind.symm.trans (good.each u rfl).1)
  have ends : ∀ {u m}, (u = t → ∀ r, R (uvResult r m)) → io.MayEnd (own t K len R) u m :=
    fun fine r own same => ⟨(own same).1, (own same).2.1, fine same r⟩
  have fails : ∀ {u m}, m < 0 → io.MayEnd (own t K len R) u m := fun negative =>
    ends fun _ r => lenient.failed _ (uvResult_failed negative r)
  have unlike : ∀ {kind : Kind}, kind ≠ .fs → kind ≠ .sockRead → kind ≠ .sockWrite → kind ≠ K := by
    rintro kind fs read write rfl
    rcases transfer with isK | isK | isK
    · exact fs isK
    · exact read isK
    · exact write isK
  cases label with
  | user c =>
    cases c with
    | tcpConnect rc =>
      intro _ r _ same
      exact absurd good.late (by rw [same]; exact Nat.not_succ_le_self _)
    | _ => first | exact fun _ => other | trivial
  | pool u => trivial
  | turnEnd => trivial
  | loop cb =>
    cases cb with
    | fs u result =>
      refine ends fun same r => ?_
      by_cases okay : 0 ≤ result
      · exact answers same okay r
      · exact lenient.failed _ (uvResult_failed (by omega) r)
    | timer u => exact promised
    | timerClose u => trivial
    | afterWork u status fnRet =>
      have kind : (io.task u).kind = .spawn := by simp [libuv] at promised; exact promised.1
      have others := apart kind (unlike (by decide) (by decide) (by decide))
      exact ⟨fun _ => ends fun same => absurd same others, fun _ _ => ends fun same => absurd same others,
        fun _ _ r _ same => absurd same others⟩
    | gai u status rc =>
      have kind : (io.task u).kind = .connect := by simp [libuv] at promised; exact promised.1.1.1
      have others := apart kind (unlike (by decide) (by decide) (by decide))
      exact ⟨fun _ r _ same => absurd same others, fun _ _ => ends fun same => absurd same others⟩
    | connect u status =>
      have kind : (io.task u).kind = .connect := by simp [libuv] at promised; exact promised.1.1.1
      have others := apart kind (unlike (by decide) (by decide) (by decide))
      exact ⟨kind, fun _ => ends fun same => absurd same others⟩
    | connection ls status taking =>
      intro negative u named
      exact fails negative
    | read c nread =>
      intro some u named
      exact ends fun same => answers some (by rw [← same]; exact named)
    | write u status =>
      exact ⟨fails, fun okay => ends fun same r => by rw [same]; exact answers same okay r⟩
    | sockClose c => trivial

/-- The law that allows everything. -/
def anything : Law := fun _ _ _ _ => True

theorem anything_lawful : anything.Lawful 0 := by
  constructor <;> intros <;> first | trivial | exact fun _ _ => trivial

theorem anything_grants {label : Label} (promised : io.libuv label = true) : io.Grants anything label := by
  cases label with
  | user c => cases c <;> first | exact fun _ _ _ => trivial | trivial
  | pool u => trivial
  | turnEnd => trivial
  | loop cb =>
    cases cb with
    | timer u => exact promised
    | afterWork u status fnRet => exact ⟨fun _ _ _ => trivial, fun _ _ _ _ => trivial, fun _ _ _ _ => trivial⟩
    | gai u status rc => exact ⟨fun _ _ _ => trivial, fun _ _ _ _ => trivial⟩
    | connect u status =>
      simp only [libuv, Bool.and_eq_true, decide_eq_true_eq] at promised
      exact ⟨promised.1.1.1, fun _ _ _ => trivial⟩
    | connection ls status taking => exact fun _ _ _ _ _ => trivial
    | read c nread => exact fun _ _ _ _ _ => trivial
    | write u status => exact ⟨fun _ _ _ => trivial, fun _ _ _ => trivial⟩
    | fs u result => exact fun _ _ => trivial
    | timerClose u => trivial
    | sockClose c => trivial

theorem allowed_libuv {label : Label} (may : io.allowed label = true) : io.libuv label = true :=
  (Bool.and_eq_true_iff.mp may).2

/-- In every reachable state the slots name tasks of their kind. -/
theorem Runs.good (run : Runs Io.new io) : Good anything 0 io :=
  Machine.Path.invariant (Good anything 0)
    (fun _ _ _ good may taken => good.step anything_lawful (anything_grants (allowed_libuv may)) taken)
    run (.new anything_lawful)

/-- From the submission on, a transfer keeps its kind and its length, and ends as described. -/
theorem own_run {allow : Io → Label → Prop} (transfer : Transfer K) (lenient : Lenient R)
    (path : Machine.Path step allow io io') (good : Good (own t K len R) (t + 1) io)
    (answers : ∀ io label, Good (own t K len R) (t + 1) io → allow io label →
      io.libuv label = true ∧ Answers R t io label) : Good (own t K len R) (t + 1) io' :=
  Machine.Path.invariant (Good (own t K len R) (t + 1))
    (fun _ _ _ good may taken => by
      obtain ⟨promised, answered⟩ := answers _ _ good may
      exact good.step (own_lawful transfer lenient) (own_grants transfer lenient good promised answered)
        taken) path good

/-- A task that was just submitted. -/
theorem Good.own_new (good : Good anything 0 io) (made : io.ntask = t + 1) (kind : (io.task t).kind = K)
    (length : (io.task t).len = len) (fine : R (io.task t).res) : Good (own t K len R) (t + 1) io := by
  refine good.relaw (Nat.le_of_eq made.symm) fun u same => ?_
  rw [same]
  exact ⟨kind, length, fine⟩

/-! ### What the submissions leave -/

/-- A call is made by the idle user thread. -/
theorem step_call {c : Call} (taken : io.step (.user c) = some io') : io' = io.call c := by
  simp only [step] at taken
  split at taken
  · cases taken; rfl
  · cases taken

/-- The end of a task that is not detached. -/
theorem taskComplete_held (io : Io) (t : TaskId) (m : Int) (held : (io.task t).detached = false) :
    (io.taskComplete t m).task t = { io.task t with res := uvResult (io.task t).res m, done := true } ∧
      (io.taskComplete t m).ntask = io.ntask := by
  simp [taskComplete, taskFinish, held]

theorem fsSubmit_task (io : Io) (len : Nat) (rc : Int) :
    ((io.fsSubmit len rc).task io.ntask).kind = .fs ∧ ((io.fsSubmit len rc).task io.ntask).len = len % 2 ^ 32 ∧
      ((io.fsSubmit len rc).task io.ntask).res.status ≠ .ok ∧ (io.fsSubmit len rc).ntask = io.ntask + 1 := by
  have new : (io.taskNew { kind := .fs, len := len % 2 ^ 32 }).task io.ntask =
      { kind := .fs, len := len % 2 ^ 32 } := by rw [taskNew_task, if_pos rfl]
  unfold fsSubmit
  dsimp only
  split
  · rename_i negative
    obtain ⟨task, ntask⟩ := taskComplete_held (io.taskNew { kind := .fs, len := len % 2 ^ 32 })
      io.ntask rc (by rw [new])
    rw [task, ntask, new]
    exact ⟨rfl, rfl, uvResult_failed negative _, rfl⟩
  · rw [modTask_task, if_pos rfl, new]
    exact ⟨rfl, rfl, by simp, rfl⟩

theorem implSockWrite_task (io : Io) (s : SockId) (len : Nat) (rc : Int) :
    let v := io.implSockWrite s len rc
    (v.task io.ntask).kind = .sockWrite ∧ (v.task io.ntask).len = len % 2 ^ 32 ∧
      (v.task io.ntask).res.status ≠ .ok ∧ v.ntask = io.ntask + 1 := by
  have new : (io.taskNew { kind := .sockWrite, sock := some s, len := len % 2 ^ 32 }).task io.ntask =
      { kind := .sockWrite, sock := some s, len := len % 2 ^ 32 } := by rw [taskNew_task, if_pos rfl]
  unfold implSockWrite
  dsimp only
  split
  · rename_i negative
    obtain ⟨task, ntask⟩ := taskComplete_held
      (io.taskNew { kind := .sockWrite, sock := some s, len := len % 2 ^ 32 }) io.ntask rc (by rw [new])
    rw [task, ntask, new]
    exact ⟨rfl, rfl, uvResult_failed negative _, rfl⟩
  · rw [modTask_task, if_pos rfl, new]
    exact ⟨rfl, rfl, by simp, rfl⟩

theorem implSockRead_task (io : Io) (s : SockId) (len : Nat) (rc : Int) :
    let v := io.implSockRead s len rc
    (v.task io.ntask).kind = .sockRead ∧
      ((io.sock s).readTask = none → (v.task io.ntask).len = len % 2 ^ 32) ∧
      (v.task io.ntask).res.status ≠ .ok ∧ v.ntask = io.ntask + 1 := by
  unfold implSockRead
  split
  · rename_i busy
    dsimp only
    rw [taskNewFailed, taskNew_task, if_pos rfl]
    refine ⟨rfl, fun free => ?_, by simp, rfl⟩
    rw [free] at busy
    cases busy
  have new : (io.taskNew { kind := .sockRead, sock := some s, len := len % 2 ^ 32 }).task io.ntask =
      { kind := .sockRead, sock := some s, len := len % 2 ^ 32 } := by rw [taskNew_task, if_pos rfl]
  dsimp only
  split
  · rename_i negative
    obtain ⟨task, ntask⟩ := taskComplete_held (((io.taskNew
      { kind := .sockRead, sock := some s, len := len % 2 ^ 32 }).modSock s
      ({ · with readTask := some io.ntask })).modSock s ({ · with readTask := none })) io.ntask rc
      (by rw [modSock_task, modSock_task, new])
    rw [task, ntask, modSock_task, modSock_task, new]
    exact ⟨rfl, fun _ => rfl, uvResult_failed negative _, rfl⟩
  · rw [modSock_task, modSock_task, new]
    exact ⟨rfl, fun _ => rfl, by simp, rfl⟩

/-! ### Lengths that fit -/

/-- A success has this value. -/
def worth (len : Nat) (r : Result) : Prop := r.status = .ok → r.value = len

/-- A success without a byte is the end of the input. -/
def zeroAtEnd (End : Prop) (r : Result) : Prop := r.status = .ok → r.value = 0 → End

theorem worth_lenient : Lenient (worth len) where
  failed _ failed okay := absurd okay failed
  ptr _ _ before := before

theorem zeroAtEnd_lenient {End : Prop} : Lenient (zeroAtEnd End) where
  failed _ failed okay := absurd okay failed
  ptr _ _ before := before

/--
What libuv promises of a task's reads: one that asks for some bytes comes back without any only at
the end of the file, and the end of a stream is reported as such.
-/
def AtEnd (End : Prop) (t : TaskId) (io : Io) : Label → Prop
  | .loop (.fs u result) => u = t → 0 < (io.task t).len → result = 0 → End
  | .loop (.read s nread) => (io.sock s).readTask = some t → nread = UV_EOF → End
  | _ => True

/-- Runs in which one task's reads come back empty only at the end of the input. -/
def RunsToEnd (End : Prop) (t : TaskId) (io io' : Io) : Prop :=
  Machine.Path step (fun io label => io.allowed label = true ∧ AtEnd End t io label) io io'

/-- A write that was handed over with its whole length reports that length. -/
theorem Runs.write (run : Runs io io') (good : Good (own t .sockWrite len (worth len)) (t + 1) io) :
    Good (own t .sockWrite len (worth len)) (t + 1) io' := by
  refine own_run (.inr (.inr rfl)) worth_lenient run good fun io label good may => ?_
  have promised := allowed_libuv may
  refine ⟨promised, ?_⟩
  obtain ⟨kind, length, _⟩ := good.each t rfl
  cases label with
  | loop cb =>
    cases cb with
    | fs u result =>
      rintro rfl
      simp [libuv, kind] at promised
    | read s nread =>
      intro _ named
      exact absurd (kind.symm.trans (good.reader s t named).2) (by decide)
    | write u status =>
      intro _ _ r _
      rw [uvResult_okay (by omega), length]
    | _ => trivial
  | _ => trivial

/-- A read that asks for some bytes reports none only at the end of the input. -/
theorem RunsToEnd.read {End : Prop} (kinds : K = .fs ∨ K = .sockRead) (some : K = .fs → 0 < len)
    (run : RunsToEnd End t io io') (good : Good (own t K len (zeroAtEnd End)) (t + 1) io) :
    Good (own t K len (zeroAtEnd End)) (t + 1) io' := by
  have transfer : Transfer K := by
    rcases kinds with isK | isK
    · exact .inl isK
    · exact .inr (.inl isK)
  refine own_run transfer zeroAtEnd_lenient run good ?_
  rintro io label good ⟨may, atEnd⟩
  have promised := allowed_libuv may
  refine ⟨promised, ?_⟩
  obtain ⟨kind, length, _⟩ := good.each t rfl
  cases label with
  | loop cb =>
    cases cb with
    | fs u result =>
      rintro rfl okay r _ none
      rw [uvResult_okay okay] at none
      have isFs : (io.task u).kind = .fs := by
        simp only [libuv, Bool.and_eq_true, decide_eq_true_eq] at promised
        exact promised.1
      exact atEnd rfl (by rw [length]; exact some (kind.symm.trans isFs)) none
    | read s nread =>
      intro nonzero named r okay none
      by_cases atEof : nread = UV_EOF
      · exact atEnd named atEof
      · rw [if_neg atEof] at okay none
        by_cases positive : 0 ≤ nread
        · rw [uvResult_okay positive] at none
          exact absurd none nonzero
        · exact absurd okay (uvResult_failed (by omega) r)
    | write u status =>
      rintro rfl
      have isWrite : (io.task u).kind = .sockWrite := by
        simp only [libuv, Bool.and_eq_true, decide_eq_true_eq] at promised
        exact promised.1.1
      have isK := kind.symm.trans isWrite
      rcases kinds with isFs | isRead
      · exact absurd (isFs.symm.trans isK) (by decide)
      · exact absurd (isRead.symm.trans isK) (by decide)
    | _ => trivial
  | _ => trivial

end Io

end Myio.Uv
