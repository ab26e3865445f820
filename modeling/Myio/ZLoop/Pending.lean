import Myio.Lib.Count
import Myio.ZLoop.Runs

/-! The lists of the Zephyr event loop: what is on them in every reachable state, and how long. -/

namespace Myio.Loop

open Function (update)
open Loop.Core Machine

namespace ZIo

variable {c : Core} {z z' : ZIo} {t u : TaskId} {s : SockId} {e : Result}

/-! ### How many tasks there are -/

@[simp] theorem taskComplete_ntask : (taskComplete c t e).ntask = c.ntask := by
  unfold taskComplete
  rw [finish_reapIfDetached]
  unfold reaped
  split <;> rfl

@[simp] theorem connectReady_ntask {soerr : Int} : (connectReady c t soerr).ntask = c.ntask := by
  unfold connectReady taskOk taskErr
  dsimp only
  split <;> rw [taskComplete_ntask] <;> rfl

@[simp] theorem readTry_ntask {ans : RecvAns} : (readTry c t ans).1.ntask = c.ntask := by
  unfold readTry taskOk taskErr
  cases ans with
  | again => rfl
  | _ => exact taskComplete_ntask

@[simp] theorem fireTimers_ntask {now : Int} (l : List TaskId) :
    ∀ {c : Core}, (fireTimers c now l).ntask = c.ntask := by
  induction l with
  | nil => intro c; rfl
  | cons t rest ih =>
    intro c
    unfold fireTimers
    rw [ih]
    split
    · exact taskComplete_ntask
    · rfl

@[simp] theorem sweep_ntask (l : List SockId) : ∀ {c : Core}, (sweep c l).ntask = c.ntask := by
  induction l with
  | nil => intro c; rfl
  | cons s rest ih => intro c; unfold sweep; rw [ih]; rfl

@[simp] theorem cancelWrites_ntask (l : List TaskId) :
    ∀ {c : Core}, (cancelWrites c s l).ntask = c.ntask := by
  induction l with
  | nil => intro c; rfl
  | cons w rest ih =>
    intro c
    unfold cancelWrites writePop
    rw [ih, taskComplete_ntask]
    rfl

@[simp] theorem cancelAll_ntask : (cancelAll c s).ntask = c.ntask := by
  unfold cancelAll
  dsimp only
  rw [cancelWrites_ntask]
  have read : (cancelRead c s).ntask = c.ntask := by
    unfold cancelRead taskCanceled; split <;> [exact taskComplete_ntask; rfl]
  have accept : (cancelAccept (cancelRead c s) s).ntask = (cancelRead c s).ntask := by
    unfold cancelAccept taskCanceled; split <;> [exact taskComplete_ntask; rfl]
  exact accept.trans read

/-- The file in a slot of the table. -/
def openFile (z : ZIo) (slot : Nat) : OpenFile := (z.file slot).toOpenFile

/-- No task has been made, the build is the same, and no file has been touched. -/
def Keeps (z z' : ZIo) : Prop :=
  z'.ntask = z.ntask ∧ z'.cfg = z.cfg ∧ z'.openFile = z.openFile

theorem Keeps.trans {z'' : ZIo} (first : Keeps z z') (second : Keeps z' z'') : Keeps z z'' :=
  ⟨second.1.trans first.1, second.2.1.trans first.2.1, second.2.2.trans first.2.2⟩

theorem acceptTry_keeps {ans : AcceptAns} : Keeps z (z.acceptTry t ans).1 := by
  unfold acceptTry taskOk taskErr
  cases ans with
  | again => exact ⟨rfl, rfl, rfl⟩
  | conn mem =>
    dsimp only [ZIo.on]
    split
    · exact ⟨taskComplete_ntask, rfl, rfl⟩
    · exact ⟨taskComplete_ntask, rfl, rfl⟩
  | _ => exact ⟨taskComplete_ntask, rfl, rfl⟩

theorem writeTry_keeps (fuel : Nat) : ∀ {z : ZIo}, Keeps z (z.writeTry t fuel).1 := by
  induction fuel with
  | zero => exact fun {z} => ⟨rfl, rfl, rfl⟩
  | succ fuel ih =>
    intro z
    unfold writeTry
    split
    · split
      · exact ⟨rfl, rfl, rfl⟩
      · exact ⟨rfl, rfl, rfl⟩
      · exact Keeps.trans ⟨rfl, rfl, rfl⟩ ih
    · exact ⟨rfl, rfl, rfl⟩

theorem writePop_keeps : Keeps z (z.on (writePop · s t e)) := ⟨taskComplete_ntask, rfl, rfl⟩

theorem writeArm_keeps (l : List TaskId) : ∀ {z : ZIo}, Keeps z (z.writeArm s l) := by
  induction l with
  | nil => exact fun {z} => ⟨rfl, rfl, rfl⟩
  | cons t rest ih =>
    intro z
    have tried : Keeps z (z.writeTryAll t).1 := writeTry_keeps _
    unfold writeArm
    split
    · rename_i isEnd; rw [isEnd] at tried; exact tried
    · rename_i isEnd
      rw [isEnd] at tried
      exact (tried.trans writePop_keeps).trans ih
    · rename_i isEnd
      rw [isEnd] at tried
      exact (tried.trans writePop_keeps).trans ih

theorem writeReady_keeps : Keeps z (z.writeReady t) := by
  have tried : Keeps z (z.writeTryAll t).1 := writeTry_keeps _
  unfold writeReady
  dsimp only
  split
  · rename_i isEnd; rw [isEnd] at tried; exact tried
  · rename_i isEnd
    rw [isEnd] at tried
    exact (tried.trans writePop_keeps).trans (writeArm_keeps _)
  · rename_i isEnd
    rw [isEnd] at tried
    exact (tried.trans writePop_keeps).trans (writeArm_keeps _)

theorem readyAll_keeps {p : Poll} (l : List TaskId) : ∀ {z : ZIo}, Keeps z (z.readyAll p l) := by
  induction l with
  | nil => exact fun {z} => ⟨rfl, rfl, rfl⟩
  | cons t rest ih =>
    intro z
    unfold readyAll
    refine Keeps.trans ?_ ih
    unfold readyOne
    split
    · split
      · exact ⟨connectReady_ntask, rfl, rfl⟩
      · exact acceptTry_keeps
      · exact ⟨readTry_ntask, rfl, rfl⟩
      · exact writeReady_keeps
      · exact ⟨rfl, rfl, rfl⟩
    · exact ⟨rfl, rfl, rfl⟩

theorem implCancel_keeps : Keeps z (z.implCancel t).1 := by
  unfold implCancel taskCanceled kWorkCancel
  split
  · exact ⟨rfl, rfl, rfl⟩
  split
  · exact ⟨taskComplete_ntask, rfl, rfl⟩
  · exact ⟨taskComplete_ntask, rfl, rfl⟩
  · exact ⟨taskComplete_ntask, rfl, rfl⟩
  · exact ⟨taskComplete_ntask, rfl, rfl⟩
  · dsimp only
    split
    · exact ⟨rfl, rfl, rfl⟩
    · dsimp only
      split
      · refine Keeps.trans ?_ (writeArm_keeps _)
        exact ⟨taskComplete_ntask, rfl, rfl⟩
      · exact ⟨taskComplete_ntask, rfl, rfl⟩
  · split
    · exact ⟨rfl, rfl, rfl⟩
    · dsimp only
      split
      · rename_i isEnd
        obtain ⟨rfl, _⟩ := Prod.mk.inj isEnd
        exact ⟨taskComplete_ntask, rfl, rfl⟩
      · rename_i isEnd
        obtain ⟨rfl, _⟩ := Prod.mk.inj isEnd
        exact ⟨rfl, rfl, rfl⟩
  · exact ⟨rfl, rfl, rfl⟩

theorem taskFree_keeps : Keeps z (z.taskFree t) := by unfold taskFree; split <;> exact ⟨rfl, rfl, rfl⟩

theorem freeLoop_keeps : Keeps z (z.freeLoop t) := by
  unfold freeLoop
  split
  · exact taskFree_keeps
  split
  · exact taskFree_keeps
  · exact ⟨rfl, rfl, rfl⟩

theorem turned_keeps {why : Why} : Keeps z (z.turned why) := by
  cases why with
  | freeing t => exact freeLoop_keeps
  | _ => exact ⟨rfl, rfl, rfl⟩

theorem runLoopOnce_keeps {p : Poll} {why : Why} : Keeps z (z.runLoopOnce p why) := by
  have fired : Keeps z (z.on fun c => fireTimers c p.now c.armed) := ⟨fireTimers_ntask _, rfl, rfl⟩
  unfold runLoopOnce
  dsimp only
  split
  · exact fired.trans turned_keeps
  · split
    · exact fired.trans (readyAll_keeps _)
    · exact (fired.trans (readyAll_keeps _)).trans turned_keeps

theorem implTaskFree_keeps : Keeps z (z.implTaskFree t) := by
  have canceled : Keeps z (z.implCancel t).1 := implCancel_keeps
  unfold implTaskFree
  split
  · exact taskFree_keeps
  · split
    · rename_i isEnd; rw [isEnd] at canceled; exact canceled.trans taskFree_keeps
    · rename_i isEnd; rw [isEnd] at canceled; exact canceled.trans freeLoop_keeps

theorem implTaskDetach_keeps : Keeps z (z.implTaskDetach t) := by
  unfold implTaskDetach
  split
  · split
    · exact (show Keeps z (z.on _) from ⟨rfl, rfl, rfl⟩).trans taskFree_keeps
    · exact taskFree_keeps
  · exact ⟨rfl, rfl, rfl⟩

theorem destroyRound_keeps : Keeps z z.destroyRound := by
  unfold destroyRound
  split
  · rename_i t _ _
    have canceled : Keeps z (z.implCancel t).1 := implCancel_keeps
    split
    · rename_i isEnd; rw [isEnd] at canceled; exact canceled
    · rename_i isEnd; rw [isEnd] at canceled; exact canceled
  · exact ⟨sweep_ntask _, rfl, rfl⟩

theorem resume_keeps (step : z.resume = some z') : Keeps z z' := by
  unfold resume at step
  split at step
  · split at step
    · obtain rfl := Option.some.inj step; exact ⟨rfl, rfl, rfl⟩
    · cases step
  · split at step
    · obtain rfl := Option.some.inj step; exact ⟨rfl, rfl, rfl⟩
    · obtain rfl := Option.some.inj step; exact turned_keeps
  · split at step
    · cases step
    · obtain rfl := Option.some.inj step; exact ⟨taskComplete_ntask, rfl, rfl⟩
  · split at step
    · cases step
    · obtain rfl := Option.some.inj step; exact taskFree_keeps
  · obtain rfl := Option.some.inj step; exact destroyRound_keeps
  · cases step

theorem work_keeps {label : Label} (step : z.work label = some z') : Keeps z z' := by
  unfold work at step
  split at step
  all_goals try split at step
  all_goals first
    | (cases step; exact ⟨rfl, rfl, rfl⟩)
    | cases step

/-! ### The slab is never overdrawn -/

/-- At most one task has been made, and only if the slab had a block. -/
def Grows (z z' : ZIo) : Prop :=
  z'.cfg = z.cfg ∧ (z'.ntask = z.ntask ∨ z'.ntask = z.ntask + 1 ∧ z.tasksUsed < z.cfg.maxTasks)

theorem Keeps.grows (keeps : Keeps z z') : Grows z z' := ⟨keeps.2.1, .inl keeps.1⟩

theorem hasTask_grows {mem : Bool} (has : z.hasTask mem = true) (ntask : z'.ntask = z.ntask + 1)
    (cfg : z'.cfg = z.cfg) : Grows z z' := by
  unfold hasTask at has
  simp only [Bool.and_eq_true, decide_eq_true_eq] at has
  exact ⟨cfg, .inr ⟨ntask, has.2⟩⟩

theorem inlineTask_grows (mem : Bool) : Grows z (z.inlineTask mem e) := by
  unfold inlineTask
  split
  · rename_i has; exact hasTask_grows has taskComplete_ntask rfl
  · exact ⟨rfl, .inl rfl⟩

theorem implOpen_grows (mem : Bool) (rc : Int) : Grows z (z.implOpen mem rc) := by
  unfold implOpen taskNewFailed fsResult
  split
  · exact inlineTask_grows mem
  · dsimp only
    split
    · exact inlineTask_grows (z := z.modFile _ _) mem
    · exact inlineTask_grows mem

theorem implClose_grows (mem : Bool) (fd rc : Int) : Grows z (z.implClose mem fd rc) := by
  unfold implClose taskNewFailed fsResult
  split
  · exact inlineTask_grows mem
  · dsimp only
    split
    · exact inlineTask_grows (z := z.modFile _ _) mem
    · exact inlineTask_grows mem

theorem fileRw_grows (mem : Bool) (fd : Int) (offset : Option Int) (ans : FileAns) :
    Grows z (z.fileRw mem fd offset ans) := by
  unfold fileRw taskNewFailed fsResult
  split
  · exact inlineTask_grows mem
  · split
    · exact inlineTask_grows (z := z.modFile _ _) mem
    · dsimp only
      split
      · exact inlineTask_grows mem
      · exact inlineTask_grows mem
      · split
        · exact inlineTask_grows (z := (z.modFile _ _).modFile _ _) mem
        · exact inlineTask_grows (z := z.modFile _ _) mem

theorem implSpawn_grows (mem : Bool) (ret : Int) : Grows z (z.implSpawn mem ret) := by
  unfold implSpawn
  split
  · exact inlineTask_grows mem
  split
  · rename_i has; exact hasTask_grows has rfl rfl
  · exact ⟨rfl, .inl rfl⟩

theorem implTcpConnect_grows (mem : Bool) (ans : ConnectAns) : Grows z (z.implTcpConnect mem ans) := by
  unfold implTcpConnect taskOk taskErr
  split
  · rename_i has
    refine hasTask_grows has ?_ ?_
    all_goals cases ans with
      | connect memSock rc =>
        dsimp only
        split
        · cases rc <;> first | rfl | exact taskComplete_ntask
        · first | rfl | exact taskComplete_ntask
      | _ => first | rfl | exact taskComplete_ntask
  · exact ⟨rfl, .inl rfl⟩

theorem implTcpListen_grows (ans : ListenAns) : Grows z (z.implTcpListen ans) := by
  unfold implTcpListen
  cases ans with
  | listening mem => dsimp only; split <;> exact ⟨rfl, .inl rfl⟩
  | _ => exact ⟨rfl, .inl rfl⟩

theorem implTcpAccept_grows (mem : Bool) (ans : AcceptAns) : Grows z (z.implTcpAccept mem s ans) := by
  unfold implTcpAccept taskNewFailed
  split
  · exact inlineTask_grows mem
  split
  · rename_i has
    dsimp only
    generalize isNext : (z.on (·.taskNew { kind := .taskAccept, sock := some s })).on
      (·.modSock s ({ · with acceptTask := some z.ntask })) = z₁
    have tried : Keeps z₁ (z₁.acceptTry z.ntask ans).1 := acceptTry_keeps
    have ntask : z₁.ntask = z.ntask + 1 := by rw [← isNext]; rfl
    have cfg : z₁.cfg = z.cfg := by rw [← isNext]; rfl
    split
    · rename_i isEnd
      rw [isEnd] at tried
      exact hasTask_grows has (tried.1.trans ntask) (tried.2.1.trans cfg)
    · rename_i isEnd
      rw [isEnd] at tried
      exact hasTask_grows has (tried.1.trans ntask) (tried.2.1.trans cfg)
  · exact ⟨rfl, .inl rfl⟩

theorem implSockRead_grows (mem : Bool) (ans : RecvAns) : Grows z (z.implSockRead mem s ans) := by
  unfold implSockRead taskNewFailed
  split
  · exact inlineTask_grows mem
  split
  · rename_i has
    dsimp only
    split
    · rename_i d isEnd
      refine hasTask_grows has ?_ rfl
      let c := ((z.on (·.taskNew { kind := .taskSockRead, sock := some s })).on
        (·.modSock s ({ · with readTask := some z.ntask }))).toCore
      have ntask : (readTry c z.ntask ans).1.ntask = c.ntask := readTry_ntask
      rw [isEnd] at ntask
      exact ntask
    · exact hasTask_grows has rfl rfl
  · exact ⟨rfl, .inl rfl⟩

theorem implSockWrite_grows (mem : Bool) (buf : List UInt8) : Grows z (z.implSockWrite mem s buf) := by
  unfold implSockWrite
  split
  · rename_i has
    dsimp only
    split
    · exact hasTask_grows has (writeArm_keeps _).1 (writeArm_keeps _).2.1
    · exact hasTask_grows has rfl rfl
  · exact ⟨rfl, .inl rfl⟩

theorem implSockClose_grows (mem : Bool) : Grows z (z.implSockClose mem s) := by
  unfold implSockClose
  split
  · rename_i has
    exact hasTask_grows has (taskComplete_ntask.trans cancelAll_ntask) rfl
  · exact ⟨rfl, .inl rfl⟩

/-- No step makes more than one task, and none makes one that the slab has no block for. -/
theorem step_grows {label : Label} (step : z.step label = some z') : Grows z z' := by
  unfold ZIo.step at step
  split at step
  · split at step
    · obtain rfl := Option.some.inj step; exact runLoopOnce_keeps.grows
    · cases step
  · exact (resume_keeps step).grows
  · exact (work_keeps step).grows
  · exact (work_keeps step).grows
  · exact (work_keeps step).grows
  · exact (work_keeps step).grows
  · exact (work_keeps step).grows
  · split at step
    · unfold call at step
      split at step
      all_goals cases step
      · exact implOpen_grows _ _
      · exact implClose_grows _ _ _
      · exact fileRw_grows _ _ _ _
      · unfold implSleep
        split
        · rename_i has; exact hasTask_grows has rfl rfl
        · exact ⟨rfl, .inl rfl⟩
      · exact implSpawn_grows _ _
      · exact implTcpConnect_grows _ _
      · exact implTcpListen_grows _
      · exact implTcpAccept_grows _ _
      · exact implSockRead_grows _ _
      · exact implSockWrite_grows _ _
      · exact implSockClose_grows _
      · unfold implStep; split <;> exact ⟨rfl, .inl rfl⟩
      · exact implCancel_keeps.grows
      · exact implTaskFree_keeps.grows
      · exact implTaskDetach_keeps.grows
      · refine ⟨rfl, .inl ?_⟩
        unfold readResult
        dsimp only [ZIo.on]
        split <;> rfl
      · exact ⟨rfl, .inl rfl⟩
    · cases step

/-- A task whose memory has gone back once stays so. -/
theorem tasksUsed_le (grows : Grows z z') (frees : ∀ t, t < z.ntask → (z.task t).frees ≤ (z'.task t).frees)
    (bounded : z.tasksUsed ≤ z.cfg.maxTasks) : z'.tasksUsed ≤ z'.cfg.maxTasks := by
  obtain ⟨cfg, grown⟩ := grows
  rw [cfg]
  have old : Nat.count (fun t => (z'.task t).frees = 0) z.ntask ≤ z.tasksUsed :=
    count_le fun t less none => Nat.le_zero.mp (none ▸ frees t less)
  unfold tasksUsed at *
  rcases grown with same | ⟨more, room⟩
  · rw [same]; omega
  · rw [more, Nat.count_succ]
    split <;> omega

/-- The slab is never overdrawn, and the build does not change. -/
theorem bounded_of_run {cfg : Config} {send : Nat → SendAns} (run : Run (ZIo.new cfg send) z) :
    z.tasksUsed ≤ z.cfg.maxTasks ∧ z.cfg = cfg := by
  have together : Good z ∧ z.tasksUsed ≤ z.cfg.maxTasks ∧ z.cfg = cfg := by
    refine run.invariant (fun z => Good z ∧ z.tasksUsed ≤ z.cfg.maxTasks ∧ z.cfg = cfg)
      (fun z label z' before allowed step => ?_) ⟨Good.new cfg send, by simp [ZIo.new, Core.new,
        tasksUsed], rfl⟩
    obtain ⟨good, bounded, same⟩ := before
    have grows := step_grows step
    exact ⟨(step_good good allowed step).1,
      tasksUsed_le grows (step_moves good allowed step).later.frees bounded, grows.1.trans same⟩
  exact together.2

/-! ### The lists -/

/-- A pending task that is not armed waits behind the head of a FIFO. -/
theorem inTurn_iff (sound : Sound calm c.rest) (pending : c.Pending (fun _ => false) t) :
    c.InTurn (fun _ => false) t ↔ ∀ s ∈ c.socks, t ∉ (c.sock s).wq.tail := by
  constructor
  · intro inTurn s live behind
    have inside := List.mem_of_mem_tail behind
    obtain ⟨_, kind, sock⟩ := (sound.placed.fifo s t live).mp inside
    obtain ⟨rest, wq⟩ := List.head?_eq_some_iff.mp (inTurn s kind sock).2
    have sorted : (c.sock s).wq.Pairwise (· < ·) := sound.placed.sorted s live
    rw [wq] at behind sorted
    exact Nat.lt_irrefl t ((List.pairwise_cons.mp sorted).1 t behind)
  · intro apart s kind sock
    have live : s ∈ c.socks := sound.placed.live t s pending (.inl sock)
    have inside : t ∈ (c.sock s).wq := (sound.placed.fifo s t live).mpr ⟨pending, kind, sock⟩
    obtain ⟨head, rest, wq⟩ := List.exists_cons_of_ne_nil (List.ne_nil_of_mem inside)
    have behind := apart s live
    rw [wq] at inside behind ⊢
    rcases List.mem_cons.mp inside with rfl | later
    · exact ⟨rfl, rfl⟩
    · exact absurd later behind

/-- The head of a FIFO can complete. -/
theorem head_armed (sound : Sound calm c.rest) (live : s ∈ c.socks)
    (head : (c.sock s).wq.head? = some t) : t ∈ c.armed := by
  obtain ⟨rest, wq⟩ := List.head?_eq_some_iff.mp head
  have inside : t ∈ (c.sock s).wq := by simp [wq]
  obtain ⟨pending, _, sock⟩ := (sound.placed.fifo s t live).mp inside
  refine (sound.placed.armed t).mpr ⟨pending, fun s' _ sock' => ?_⟩
  obtain rfl : s = s' := Option.some.inj (sock.symm.trans sock')
  exact ⟨rfl, head⟩

/-- Every entry of the poll set belongs to a task whose memory has not gone back. -/
theorem owners_le (sound : Sound calm z.rest) : (owners z.toCore).length ≤ z.tasksUsed := by
  refine length_le_count (sound.placed.nodup.filter _) fun t inside => ?_
  have pending := ((sound.placed.armed t).mp (List.mem_of_mem_filter inside)).1
  have isOpen : (z.task t).done = false := pending.2.1
  have frees := (sound.lives.each t pending.1).frees
  refine ⟨pending.1, frees.trans ?_⟩
  rw [show (z.rest.core.task t).done = false from isOpen]
  rfl

/--
The lists of the event loop in every reachable state.

The pending list has exactly the tasks that are not done, less those behind the head of a FIFO. A
FIFO has the socket's writes that are not done, in submission order, and its head is pending. The
slots name the one reader and the one accepter. A step that returns at once returns 0, and then
nothing is pending. The poll set has room for every entry.
-/
theorem lists_exact {cfg : Config} {send : Nat → SendAns} (run : Run (ZIo.new cfg send) z) :
    z.armed.Nodup ∧
    (∀ t, t ∈ z.armed ↔ (t < z.ntask ∧ (z.task t).done = false) ∧
      ∀ s ∈ z.socks, t ∉ (z.sock s).wq.tail) ∧
    (∀ s ∈ z.socks, (z.sock s).wq.Pairwise (· < ·) ∧
      (∀ t, t ∈ (z.sock s).wq ↔ (t < z.ntask ∧ (z.task t).done = false) ∧
        (z.task t).kind = .taskSockWrite ∧ (z.task t).sock = some s) ∧
      (∀ t, (z.sock s).wq.head? = some t → t ∈ z.armed) ∧
      (∀ t, (z.sock s).readTask = some t ↔ (t < z.ntask ∧ (z.task t).done = false) ∧
        (z.task t).kind = .taskSockRead ∧ (z.task t).sock = some s) ∧
      ∀ t, (z.sock s).acceptTask = some t ↔ (t < z.ntask ∧ (z.task t).done = false) ∧
        (z.task t).kind = .taskAccept ∧ (z.task t).sock = some s) ∧
    (∀ t, t < z.ntask → (z.task t).done = false → pollable (z.task t).kind = true →
      ∃ s ∈ z.socks, (z.task t).sock = some s) ∧
    (∀ z', z.step .step = some z' → z'.user = .idle →
      z'.ret = some (.stepped 0) ∧ ∀ t, t < z.ntask → (z.task t).done = true) ∧
    (owners z.toCore).length + 1 ≤ cfg.maxTasks + 1 := by
  have good := good_of_run run
  obtain ⟨sound, _⟩ := good
  obtain ⟨bounded, isCfg⟩ := bounded_of_run run
  have pending : ∀ t, z.Pending (fun _ => false) t ↔ t < z.ntask ∧ (z.task t).done = false := by
    intro t; simp [Pending]
  refine ⟨sound.placed.nodup, fun t => ?_, fun s live => ⟨sound.placed.sorted s live, fun t => ?_,
    fun t head => ?_, fun t => ?_, fun t => ?_⟩, fun t less isOpen polls => ?_, fun z' step back => ?_, ?_⟩
  · rw [← pending]
    exact (sound.placed.armed t).trans (and_congr_right fun there => inTurn_iff sound there)
  · rw [← pending]; exact sound.placed.fifo s t live
  · exact head_armed sound live head
  · rw [← pending]; exact sound.placed.read s t live
  · rw [← pending]; exact sound.placed.accept s t live
  · have isPending : z.Pending (fun _ => false) t := ⟨less, isOpen, rfl⟩
    obtain ⟨s, sock⟩ := sock_of_kind sound isPending (by
      cases kind : (z.task t).kind <;> simp [kind, pollable] at polls ⊢)
    exact ⟨s, sound.placed.live t s isPending (.inl sock), sock⟩
  · -- A call that polls does not return at once.
    change (if z.user = .idle then some z.implStep else none) = some z' at step
    split at step
    · obtain rfl := Option.some.inj step
      unfold implStep at back ⊢
      split
      · rename_i empty
        exact ⟨rfl, fun t => done_of_empty sound (by simpa using empty)⟩
      · rename_i some_
        rw [if_neg some_] at back
        cases back
    · cases step
  · have := owners_le sound
    rw [isCfg] at bounded
    omega

/-- A listener with two writes and an accept, and a sleep. -/
def twoParked : List Label :=
  [.tcpListen (.listening true), .sockWrite true 0 [1, 2], .sockWrite true 0 [3],
    .tcpAccept true 0 .again, .sleep true 5 0]

theorem lists_exact_twoParked :
    (after [] twoParked).ntask = 4 ∧ (after [] twoParked).armed = [3, 2, 0] ∧
    ((after [] twoParked).sock 0).wq = [0, 1] ∧ 1 ∉ (after [] twoParked).armed ∧
    0 ∈ (after [] twoParked).armed ∧ (owners (after [] twoParked).toCore).length + 1 ≤ 9 := by
  obtain ⟨_, bounds, fifos, _, _, room⟩ := lists_exact (run_after [] twoParked (by decide +kernel))
  have live : 0 ∈ (after [] twoParked).socks := by decide +kernel
  refine ⟨by decide +kernel, by decide +kernel, by decide +kernel, fun there => ?_,
    (fifos 0 live).2.2.1 0 (by decide +kernel), room⟩
  exact ((bounds 1).mp there).2 0 live (by decide +kernel)

end ZIo

end Myio.Loop
