import Myio.Lib.Path
import Myio.ZLoop.Spawn

/-! The runs of the Zephyr event loop, and what holds in every state they reach. -/

namespace Myio.Loop

open Function (update)
open Loop.Core

namespace ZIo

variable {z z' : ZIo} {t u : TaskId} {s : SockId}

/-! ### The calls that complete at once or are armed -/

/-- What a call does that deals with no spawned task. -/
def Steps (r : Rules) (z z' : ZIo) : Prop := Moves r z.rest z'.rest ∧ Quiet z z'

/-- A task that is complete when its submission returns. -/
theorem inlineTask_steps (sound : Sound calm z.rest) (idle : z.user = .idle) (mem : Bool)
    {e : Result} (status : e.status ≠ .pending) (ptr : e.ptr = none) :
    Steps calm z (z.inlineTask mem e) := by
  unfold inlineTask
  split
  · exact ⟨inline_moves sound status ptr, ⟨rfl, rfl, rfl, rfl, rfl, idle.symm⟩⟩
  · exact ⟨.refl _, (Quiet.refl z).give idle _⟩

/-- `fs_result`, after a change of the file table. -/
theorem fsResult_steps (sound : Sound calm z.rest) (idle : z.user = .idle) (mem : Bool)
    (rc value : Int) : Steps calm z (z.fsResult mem rc value) := by
  unfold fsResult
  refine inlineTask_steps sound idle mem ?_ ?_
  · split <;> simp
  · split <;> simp

/-- The file table is not part of what the other calls depend on. -/
theorem Steps.file {r : Rules} {file : Nat → File} (steps : Steps r { z with file } z') :
    Steps r z z' := ⟨steps.1, ⟨steps.2.1, steps.2.2, steps.2.3, steps.2.4, steps.2.5, steps.2.6⟩⟩

theorem implOpen_steps (sound : Sound calm z.rest) (idle : z.user = .idle) (mem : Bool) (rc : Int) :
    Steps calm z (z.implOpen mem rc) := by
  unfold implOpen taskNewFailed
  split
  · exact inlineTask_steps sound idle mem (by simp) (by simp)
  · dsimp only
    split
    · exact (fsResult_steps (z := z.modFile _ _) sound idle mem _ _).file
    · exact fsResult_steps sound idle mem _ _

theorem implClose_steps (sound : Sound calm z.rest) (idle : z.user = .idle) (mem : Bool)
    (fd rc : Int) : Steps calm z (z.implClose mem fd rc) := by
  unfold implClose taskNewFailed
  split
  · exact inlineTask_steps sound idle mem (by simp) (by simp)
  · dsimp only
    split
    · exact (fsResult_steps (z := z.modFile _ _) sound idle mem _ _).file
    · exact fsResult_steps sound idle mem _ _

theorem fileRw_steps (sound : Sound calm z.rest) (idle : z.user = .idle) (mem : Bool) (fd : Int)
    (offset : Option Int) (ans : FileAns) : Steps calm z (z.fileRw mem fd offset ans) := by
  unfold fileRw taskNewFailed
  split
  · exact inlineTask_steps sound idle mem (by simp) (by simp)
  · split
    · exact (fsResult_steps (z := z.modFile _ _) sound idle mem _ _).file
    · dsimp only
      split
      · exact fsResult_steps sound idle mem _ _
      · exact fsResult_steps sound idle mem _ _
      · split
        · exact (fsResult_steps (z := (z.modFile _ _).modFile _ _) sound idle mem _ _).file.file
        · exact (fsResult_steps (z := z.modFile _ _) sound idle mem _ _).file

/-- A new task without a socket is armed. -/
theorem armNew_moves {r : Rules} {c : Core} {kind : TaskKind} {deadline : Int}
    (timer : kind = .taskTimer ∨ kind = .taskSpawn) (shape : r.shape = zShape) (makes : r.makes kind) :
    Moves r c.rest ((c.taskNew { kind, deadline }).arm c.ntask).rest := by
  have write : kind ≠ .taskSockWrite := by rcases timer with rfl | rfl <;> decide
  have read : kind ≠ .taskSockRead := by rcases timer with rfl | rfl <;> decide
  have accept : kind ≠ .taskAccept := by rcases timer with rfl | rfl <;> decide
  have made : Moves r c.rest ⟨c.taskNew { kind, deadline }, update (fun _ => false) c.ntask true,
      fun _ => false⟩ := .one (.make (fresh_bare kind write deadline) makes)
  have new : (c.taskNew { kind, deadline }).task c.ntask = { kind, deadline } := by simp [taskNew]
  have entered := made.snoc (.enter (t := c.ntask) (Nat.lt_succ_self _) (by rw [new]) (by simp)
    (by rw [new]; exact write)
    (by rw [new]; unfold Rules.Fits; rw [shape]; rcases timer with rfl | rfl <;> simp [zShape])
    (fun s points => by unfold Refers at points; rw [new] at points; simp at points)
    (fun isRead => absurd (by rw [new] at isRead; exact isRead) read)
    fun isAccept => absurd (by rw [new] at isAccept; exact isAccept) accept)
  rw [out_back] at entered
  -- A task without a socket takes no slot.
  have slot : ((c.taskNew { kind, deadline }).arm c.ntask).setSlot c.ntask =
      (c.taskNew { kind, deadline }).arm c.ntask := by
    unfold setSlot
    rw [show ((c.taskNew { kind, deadline }).arm c.ntask).task c.ntask = { kind, deadline } from new]
  rw [slot] at entered
  exact entered

theorem implSleep_steps (idle : z.user = .idle) (mem : Bool) (ms : Nat) (uptime : Int) :
    Steps calm z (z.implSleep mem ms uptime) := by
  unfold implSleep
  split
  · exact ⟨armNew_moves (.inl rfl) rfl (by simp [calm]), ⟨rfl, rfl, rfl, rfl, rfl, idle.symm⟩⟩
  · exact ⟨.refl _, (Quiet.refl z).give idle _⟩

theorem implTcpConnect_quiet (idle : z.user = .idle) (mem : Bool) (ans : ConnectAns) :
    Quiet z (z.implTcpConnect mem ans) := by
  unfold implTcpConnect
  split
  · refine Quiet.give ?_ idle _
    cases ans with
    | connect memSock rc =>
      dsimp only
      split
      · cases rc <;> exact ⟨rfl, rfl, rfl, rfl, rfl, rfl⟩
      · exact ⟨rfl, rfl, rfl, rfl, rfl, rfl⟩
    | _ => exact ⟨rfl, rfl, rfl, rfl, rfl, rfl⟩
  · exact (Quiet.refl z).give idle _

theorem implTcpListen_quiet (idle : z.user = .idle) (ans : ListenAns) :
    Quiet z (z.implTcpListen ans) := by
  unfold implTcpListen
  cases ans with
  | listening mem =>
    dsimp only
    split
    · exact ⟨rfl, rfl, rfl, rfl, rfl, idle.symm⟩
    · exact ⟨rfl, rfl, rfl, rfl, rfl, idle.symm⟩
  | _ => exact ⟨rfl, rfl, rfl, rfl, rfl, idle.symm⟩

theorem implTcpAccept_quiet (sound : Sound calm z.rest) (idle : z.user = .idle) (mem : Bool)
    (ans : AcceptAns) : Quiet z (z.implTcpAccept mem s ans) := by
  unfold implTcpAccept taskNewFailed
  split
  · exact (inlineTask_steps sound idle mem (by simp) (by simp)).2
  split
  · dsimp only
    refine Quiet.give ?_ idle _
    generalize isNext : (z.on (·.taskNew { kind := .taskAccept, sock := some s })).on
      (·.modSock s ({ · with acceptTask := some z.ntask })) = z₁
    have first : Quiet z z₁ := by rw [← isNext]; exact ⟨rfl, rfl, rfl, rfl, rfl, rfl⟩
    have tried := (acceptTry_aside (z := z₁) (t := z.ntask) ans).quiet
    split
    · rename_i z₂ isEnd
      rw [isEnd] at tried
      exact first.trans tried
    · rename_i z₂ isEnd
      rw [isEnd] at tried
      exact (first.trans tried).trans ⟨rfl, rfl, rfl, rfl, rfl, rfl⟩
  · exact (Quiet.refl z).give idle _

theorem implSockRead_quiet (sound : Sound calm z.rest) (idle : z.user = .idle) (mem : Bool)
    (ans : RecvAns) : Quiet z (z.implSockRead mem s ans) := by
  unfold implSockRead taskNewFailed
  split
  · exact (inlineTask_steps sound idle mem (by simp) (by simp)).2
  split
  · dsimp only
    refine Quiet.give ?_ idle _
    split <;> exact ⟨rfl, rfl, rfl, rfl, rfl, rfl⟩
  · exact (Quiet.refl z).give idle _

theorem implSockWrite_quiet (sound : Sound calm z.rest) (idle : z.user = .idle) (mem : Bool)
    (buf : List UInt8) (live : s ∈ z.socks) (mine : z.claimed s = true) :
    Quiet z (z.implSockWrite mem s buf) := by
  have aside := (implSockWrite_spec sound mem buf live mine).2.quiet
  have user : (z.implSockWrite mem s buf).user = .idle := by unfold implSockWrite; split <;> rfl
  exact ⟨aside.cfg, aside.workq, aside.handler, aside.spawnDone, aside.evfd, user.trans idle.symm⟩

theorem implSockClose_quiet (idle : z.user = .idle) (mem : Bool) :
    Quiet z (z.implSockClose mem s) := by
  unfold implSockClose
  split
  · exact ⟨rfl, rfl, rfl, rfl, rfl, idle.symm⟩
  · exact (Quiet.refl z).give idle _

/-! ### Reachable states -/

/-- The calls a caller may make: on handles it has, and on sockets it was given and has not closed.
A connect or accept that is done is detached only while its socket is open and not in use. -/
def Allowed (z : ZIo) : Label → Prop
  | .tcpAccept _ s _ | .sockRead _ s _ | .sockWrite _ s _ | .sockClose _ s =>
    s ∈ z.socks ∧ z.claimed s = true
  | .cancel t | .free t | .result t => z.held t = true
  | .detach t => z.held t = true ∧ ∀ s, (z.task t).res.ptr = some s →
    s ∈ z.socks ∧ ∀ u, u < z.ntask → (z.task u).done = false → ¬ z.Refers u s
  | _ => True

/-- Whether a call may be made, as a check. -/
def obeys (z : ZIo) : Label → Bool
  | .tcpAccept _ s _ | .sockRead _ s _ | .sockWrite _ s _ | .sockClose _ s =>
    s ∈ z.socks && z.claimed s
  | .cancel t | .free t | .result t => z.held t
  | .detach t => z.held t && (z.task t).res.ptr.all fun s =>
    decide (s ∈ z.socks) && !(List.range z.ntask).any fun u =>
      !(z.task u).done && ((z.task u).sock = some s || (z.task u).newsock = some s)
  | _ => true

theorem Allowed.of_obeys {label : Label} (obeyed : z.obeys label = true) : z.Allowed label := by
  cases label with
  | tcpAccept mem s ans => simpa [obeys, Allowed] using obeyed
  | sockRead mem s ans => simpa [obeys, Allowed] using obeyed
  | sockWrite mem s buf => simpa [obeys, Allowed] using obeyed
  | sockClose mem s => simpa [obeys, Allowed] using obeyed
  | cancel t => exact obeyed
  | free t => exact obeyed
  | result t => exact obeyed
  | detach t =>
    simp only [obeys, Bool.and_eq_true] at obeyed
    refine ⟨obeyed.1, fun s ptr => ?_⟩
    have unused := obeyed.2
    rw [ptr] at unused
    simp only [Option.all_some, Bool.and_eq_true, decide_eq_true_eq, Bool.not_eq_true',
      List.any_eq_false, List.mem_range] at unused
    refine ⟨unused.1, fun u less isOpen refers => unused.2 u less ?_⟩
    rcases refers with sock | newsock
    · simp [isOpen, sock]
    · simp [isOpen, newsock]
  | _ => trivial

/-- The runs of allowed steps. -/
abbrev Run : ZIo → ZIo → Prop := Machine.Path step Allowed

/-- Everything that holds in every state. -/
structure Good (z : ZIo) : Prop where
  sound : Sound calm z.rest
  spawning : Spawning z

theorem Good.new (cfg : Config) (send : Nat → SendAns) : Good (ZIo.new cfg send) := by
  refine ⟨Sound.new, fun t => ?_, List.nodup_nil, List.nodup_nil, ?_, ?_, ?_⟩
  · constructor <;> simp [ZIo.new, Core.new, phaseOf, ZUser.harvests]
  · simp [ZIo.new]
  · simp [ZIo.new, ZUser.target]
  · simp [ZIo.new]

/-- A call that deals with no spawned task. -/
theorem Good.steps (good : Good z) (steps : Steps firm z z') : Good z' :=
  ⟨sound_after good.sound rfl steps.1,
    good.spawning.frame good.sound.lives steps.1.later steps.2⟩

theorem Steps.of_calm (steps : Steps calm z z') : Steps steady z z' :=
  ⟨steady_of_calm steps.1, steps.2⟩

theorem Steps.of_steady (steps : Steps steady z z') : Steps firm z z' :=
  ⟨firm_of_steady steps.1, steps.2⟩

/-- The user thread is not inside the drain, or the drain is over. -/
def Drained (z : ZIo) : Prop :=
  (∀ u, z.user.harvests u = false) ∧ (z.user.drains = true → z.spawnDone = [])

/-- The user thread goes on to a place at which it frees at most the task it was freeing. -/
theorem Good.become (good : Good z) (drained : z.Drained) {u : ZUser} {q : Option ZRet}
    (after : ∀ t, u.harvests t = false) (target : ∀ t, u.target = some t → z.held t = true)
    (releasing : ∀ t, u = .releasing t → (z.task t).done = true) :
    Good { z with user := u, ret := q } :=
  ⟨good.sound, good.spawning.become drained.1 after (fun drains => .inr (drained.2 drains)) target
    releasing⟩

/-- A call returns. -/
theorem Good.idle (good : Good z) (drained : z.Drained) (ret : Option ZRet) :
    Good { z with user := .idle, ret } :=
  good.become drained (fun _ => rfl) (fun _ points => by simp [ZUser.target] at points)
    fun _ there => by simp at there

/-! ### The end of a handle -/

/-- `task_free_mem` of a task that is done. -/
theorem taskFree_good (good : Good z) (drained : z.Drained) (held : z.held t = true)
    (done : (z.task t).done = true) :
    Good (z.taskFree t) ∧ Moves still z.rest (z.taskFree t).rest := by
  unfold taskFree
  split
  · -- The work item is busy: the thread waits.
    refine ⟨good.become drained (fun _ => rfl) (fun u points => ?_)
      fun u there => ?_, .refl _⟩
    · obtain rfl : t = u := by simpa [ZUser.target] using points
      exact held
    · obtain rfl : t = u := by simpa using there
      exact done
  · rename_i free
    have moves : Moves still z.rest
        ({ z.toCore.freeMem t with held := update z.held t false } : Core).rest :=
      .one (.free done held trivial)
    refine ⟨⟨sound_after good.sound rfl moves, ?_⟩, moves⟩
    refine (good.idle drained none).spawning.handle
      (c := { z.toCore.freeMem t with held := update z.held t false }) rfl (fun u => ?_) t
      (fun u other => by simp [other]) (fun busy => absurd busy free)
      fun u points => by simp [ZUser.target] at points
    simp only [freeMem, modTask, Function.update_apply]
    split
    · rename_i same; subst same; exact ⟨rfl, rfl, rfl, rfl, rfl, rfl⟩
    · exact ⟨rfl, rfl, rfl, rfl, rfl, rfl⟩

/-- The loop in `impl_task_free`, at its condition: a task that is not done keeps the loop going. -/
theorem freeLoop_good (good : Good z) (drained : z.Drained) (held : z.held t = true) :
    Good (z.freeLoop t) ∧ Moves still z.rest (z.freeLoop t).rest := by
  unfold freeLoop
  split
  · rename_i done; exact taskFree_good good drained held done
  split
  · rename_i empty
    have none_ : z.armed = [] := by simpa using empty
    exact taskFree_good good drained held
      (done_of_empty good.sound none_ (good.sound.lives.bound t held))
  · refine ⟨good.become drained (fun _ => rfl) (fun u points => ?_)
      fun u there => by simp at there, .refl _⟩
    obtain rfl : t = u := by simpa [ZUser.target, Why.target] using points
    exact held

/-- A turn of the loop is over. -/
theorem turned_good (good : Good z) (drained : z.Drained) {why : Why}
    (target : ∀ u, why.target = some u → z.held u = true) :
    Good (z.turned why) ∧ Moves still z.rest (z.turned why).rest := by
  cases why with
  | step => exact ⟨good.idle drained _, .refl _⟩
  | freeing t => exact freeLoop_good good drained (target t rfl)
  | destroy =>
    exact ⟨good.become drained (fun _ => rfl) (fun _ points => by
      simp [ZUser.target] at points) fun _ there => by simp at there, .refl _⟩

/-! ### Cancellation -/

/-- `impl_cancel` of a spawned task succeeds while the task is on the work queue, and only then. -/
theorem cancelSpawn_spec (spawning : Spawning z) (submitted : t < z.ntask)
    (kind : (z.task t).kind = .taskSpawn) (isOpen : (z.task t).done = false)
    (free : z.user.harvests t = false) :
    (t ∈ z.workq ∧
      z.implCancel t = ({ z with workq := z.workq.erase t }.on (taskCanceled · t), 0)) ∨
      (t ∉ z.workq ∧ z.implCancel t = (z, -1)) := by
  have life := spawning.each t
  unfold SpawnAt at life
  unfold implCancel kWorkCancel
  rw [if_neg (by simp [isOpen]), kind]
  dsimp only
  by_cases queued : t ∈ z.workq
  · -- The item is idle once it is off the queue.
    obtain ⟨_, _, pushed, phase⟩ := life.queue (by simp [queued])
    have absent : t ∉ z.workq.erase t := fun inside =>
      (spawning.queue.mem_erase_iff.mp inside).1 rfl
    have idle : ({ z with workq := z.workq.erase t } : ZIo).busy t = false := by
      by_contra busy
      rcases busy_iff.mp (by simpa using busy) with inside | running
      · exact absent inside
      · change (z.phaseOf t).isSome = true at running
        simp [phase] at running
    rw [if_neg (by simp [pushed]), idle]
    exact .inl ⟨queued, rfl⟩
  · refine .inr ⟨queued, ?_⟩
    split
    · rfl
    · rename_i unpushed
      -- Neither queued nor pushed, so the function is running.
      have busy : z.busy t = true := by
        rw [busy_iff]
        rcases life.placed (by simpa using submitted) kind isOpen with there | there | there | there | there
        · exact .inl (by simpa using there)
        · exact .inr (by simp [there])
        · exact .inr (by simp [there])
        · exact absurd (life.past (by simp [there])).2.2 unpushed
        · rw [free] at there; cases there
      rw [List.erase_of_not_mem queued]
      simp [busy]

/-- `impl_cancel`: the task is completed, or nothing happens. -/
theorem implCancel_good (good : Good z) (submitted : t < z.ntask)
    (free : ∀ u, z.user.harvests u = false) :
    Good (z.implCancel t).1 ∧ (z.implCancel t).1.user = z.user ∧
      (∀ u, u < z.ntask → (z.implCancel t).1.held u = z.held u) ∧
      ((z.implCancel t).2 = 0 → (z.task t).done = false ∧ ((z.implCancel t).1.task t).done = true) ∧
      ((z.implCancel t).2 ≠ 0 → (z.implCancel t).1 = z) := by
  by_cases kind : (z.task t).kind = .taskSpawn
  · cases done : (z.task t).done with
    | true =>
      have refused : z.implCancel t = (z, -1) := by unfold implCancel; rw [if_pos done]
      rw [refused]
      exact ⟨good, rfl, fun _ _ => rfl, fun zero => by simp at zero, fun _ => rfl⟩
    | false =>
      rcases cancelSpawn_spec good.spawning submitted kind done (free t) with
        ⟨queued, isEnd⟩ | ⟨_, refused⟩
      · rw [isEnd]
        have moves : Moves rough z.rest (taskCanceled z.toCore t).rest :=
          complete_pending good.sound ⟨submitted, done, rfl⟩ (by simp [kind]) (by simp [kind])
            (by simp [kind]) (by simp [rough, kind]) (by simp) (by simp)
        have held : (taskCanceled z.toCore t).held = z.held := by
          unfold taskCanceled
          rw [taskComplete_plain (by simp)]
          rfl
        refine ⟨⟨sound_after good.sound rfl moves, good.spawning.cancel queued (free t)⟩, rfl,
          fun u _ => congrFun held u,
          fun _ => ⟨rfl, congrArg Task.done (taskComplete_task (by simp))⟩, fun other => ?_⟩
        exact absurd rfl other
      · rw [refused]
        exact ⟨good, rfl, fun _ _ => rfl, fun zero => by simp at zero, fun _ => rfl⟩
  · obtain ⟨moves, aside, ended, refused⟩ := implCancel_spec good.sound submitted kind
    exact ⟨good.steps ⟨moves, aside.quiet⟩, aside.quiet.user, moves.later.keeps id, ended, refused⟩

/-! ### Freeing and detaching -/

/-- `impl_task_free`. -/
theorem implTaskFree_good (good : Good z) (idle : z.user = .idle) (held : z.held t = true) :
    Good (z.implTaskFree t) ∧ (Moves still z.rest (z.implTaskFree t).rest ∨
      Moves still (z.implCancel t).1.rest (z.implTaskFree t).rest) := by
  have submitted := good.sound.lives.bound t held
  have drained : z.Drained := ⟨fun u => by rw [idle]; rfl, fun drains => by
    rw [idle] at drains; cases drains⟩
  unfold implTaskFree
  split
  · rename_i done
    obtain ⟨after, moves⟩ := taskFree_good good drained held done
    exact ⟨after, .inl moves⟩
  · obtain ⟨after, user, keeps, ended, refused⟩ := implCancel_good good submitted drained.1
    have drained' : (z.implCancel t).1.Drained := ⟨fun u => by rw [user, idle]; rfl, fun drains => by
      rw [user, idle] at drains; cases drains⟩
    have held' : (z.implCancel t).1.held t = true := (keeps t submitted).trans held
    generalize z.implCancel t = q at *
    obtain ⟨z₁, code⟩ := q
    dsimp only at *
    split
    · rename_i z₂ isEnd
      obtain ⟨rfl, rfl⟩ : z₁ = z₂ ∧ code = 0 := by simpa using isEnd
      obtain ⟨last, moves⟩ := taskFree_good after drained' held' (ended rfl).2
      exact ⟨last, .inr moves⟩
    · rename_i z₂ code' other isEnd
      obtain ⟨rfl, rfl⟩ : z₁ = z₂ ∧ code = code' := by simpa using isEnd
      obtain ⟨last, moves⟩ := freeLoop_good after drained' held'
      exact ⟨last, .inr moves⟩

/-- `impl_task_detach`. -/
theorem implTaskDetach_good (good : Good z) (idle : z.user = .idle)
    (allowed : z.Allowed (.detach t)) :
    Good (z.implTaskDetach t) ∧ Moves still z.rest (z.implTaskDetach t).rest := by
  obtain ⟨held, unused⟩ := allowed
  have drained : z.Drained := ⟨fun u => by rw [idle]; rfl, fun drains => by
    rw [idle] at drains; cases drains⟩
  unfold implTaskDetach
  split
  · rename_i done
    split
    · -- The socket the task won goes with it.
      rename_i s ptr
      obtain ⟨live, tasks⟩ := unused s ptr
      have released : Moves still z.rest (z.on (·.sockRelease s)).rest :=
        .one (.release ⟨live, fun u pending => tasks u pending.1 pending.2.1⟩)
      have calmly : Steps firm z (z.on (·.sockRelease s)) :=
        ⟨.one (.release ⟨live, fun u pending => tasks u pending.1 pending.2.1⟩),
          ⟨rfl, rfl, rfl, rfl, rfl, rfl⟩⟩
      obtain ⟨after, moves⟩ := taskFree_good (good.steps calmly) drained (t := t) held done
      exact ⟨after, released.trans moves⟩
    · exact taskFree_good good drained held done
  · rename_i isOpen
    have isOpen : (z.task t).done = false := by simpa using isOpen
    have moves : Moves still z.rest ({ z.toCore.modTask t ({ · with detached := true }) with
        held := update z.held t false } : Core).rest := .one (.detach isOpen held trivial)
    refine ⟨⟨sound_after good.sound rfl moves, ?_⟩, moves⟩
    have before : Spawning { z with user := .idle, ret := none } := (good.idle drained none).spawning
    rw [show ({ z.on fun c => { c.modTask t ({ · with detached := true }) with
        held := update c.held t false } with ret := none } : ZIo) =
      { ({ z with user := .idle, ret := none } : ZIo) with
        toCore := { z.toCore.modTask t ({ · with detached := true }) with
          held := update z.held t false } } by unfold ZIo.on; rw [← idle]]
    refine before.handle rfl (fun u => ?_) t (fun u other => by simp [other]) (fun _ => isOpen)
      fun u points => by simp [ZUser.target] at points
    simp only [modTask, Function.update_apply]
    split
    · rename_i same; subst same; exact ⟨rfl, rfl, rfl, rfl, rfl, rfl⟩
    · exact ⟨rfl, rfl, rfl, rfl, rfl, rfl⟩

/-! ### A turn of the loop -/

/-- `run_loop_once`, from the return of `zsock_poll` to the eventfd's entry. -/
theorem runLoopOnce_good (good : Good z) {why : Why} (polling : z.user = .polling why) (p : Poll) :
    Good (z.runLoopOnce p why) ∧ Moves rough z.rest (z.runLoopOnce p why).rest := by
  have fired := fireTimers_moves p.now z.armed good.sound good.sound.placed.nodup fun _ => id
  have first : Steps steady z (z.on fun c => fireTimers c p.now c.armed) :=
    ⟨steady_of_calm fired, ⟨rfl, rfl, rfl, rfl, rfl, rfl⟩⟩
  have good₁ := good.steps first.of_steady
  -- Whatever the turn did, the user thread has nothing in hand.
  have past : ∀ {z'}, Good z' → Quiet z z' → z'.Drained ∧ ∀ u, why.target = some u → z'.held u = true := by
    intro z' good' quiet
    refine ⟨⟨fun u => by rw [quiet.user, polling]; rfl, fun drains => ?_⟩, fun u points => ?_⟩
    · rw [quiet.user, polling] at drains; cases drains
    · exact good'.spawning.target u (by rw [quiet.user, polling]; exact points)
  unfold runLoopOnce
  dsimp only
  split
  · obtain ⟨drained, target⟩ := past good₁ first.2
    obtain ⟨after, moves⟩ := turned_good good₁ drained target
    exact ⟨after, (rough_of_steady first.1).trans (rough_of_still moves)⟩
  · obtain ⟨ready, aside⟩ := readyAll_spec p (owners z.toCore) good₁.sound
    have both : Steps steady z ((z.on fun c => fireTimers c p.now c.armed).readyAll p (owners z.toCore)) :=
      ⟨first.1.trans ready, first.2.trans aside.quiet⟩
    have good₂ := good.steps both.of_steady
    obtain ⟨drained, target⟩ := past good₂ both.2
    split
    · exact ⟨good₂.become drained (u := .reading why) (fun _ => rfl) target
        fun _ there => by simp at there, rough_of_steady both.1⟩
    · obtain ⟨after, moves⟩ := turned_good good₂ drained target
      exact ⟨after, (rough_of_steady both.1).trans (rough_of_still moves)⟩

/-! ### Destroy -/

/-- The sweep over the sockets, once every task is done. -/
theorem sweep_moves {r : Rules} (l : List SockId) : ∀ {c : Core},
    (∀ t, t < c.ntask → (c.task t).done = true) → l.Nodup → (∀ s ∈ l, s ∈ c.socks) →
    Moves r c.rest (sweep c l).rest := by
  induction l with
  | nil => exact fun _ _ _ => .refl _
  | cons s rest ih =>
    intro c done nodup inside
    obtain ⟨apart, nodup⟩ := List.nodup_cons.mp nodup
    have released : Moves r c.rest (c.sockRelease s).rest :=
      .one (.release ⟨inside s List.mem_cons_self, fun u pending => by
        have isDone := done u pending.1
        have isOpen : (c.task u).done = false := pending.2.1
        rw [isOpen] at isDone
        cases isDone⟩)
    refine released.trans (ih (c := c.sockRelease s) done nodup fun u there => ?_)
    have other : u ≠ s := fun same => apart (same ▸ there)
    exact (List.mem_erase_of_ne other).mpr (inside u (List.mem_cons_of_mem s there))

/-- One round of the loop in `impl_destroy`, or what follows the loop. -/
theorem destroyRound_good (good : Good z) (destroying : z.user = .destroying) :
    Good z.destroyRound ∧ (Moves still z.rest z.destroyRound.rest ∨ ∃ t, t < z.ntask ∧
      (∀ u, z.user.harvests u = false) ∧ Moves still (z.implCancel t).1.rest z.destroyRound.rest) := by
  have drained : z.Drained := ⟨fun u => by rw [destroying]; rfl, fun drains => by
    rw [destroying] at drains; cases drains⟩
  unfold destroyRound
  split
  · rename_i t rest isArmed
    have submitted : t < z.ntask := ((good.sound.placed.armed t).mp (by
      change t ∈ z.armed; rw [isArmed]; exact List.mem_cons_self)).1.1
    obtain ⟨after, user, keeps, ended, refused⟩ := implCancel_good good submitted drained.1
    have drained' : (z.implCancel t).1.Drained := ⟨fun u => by rw [user, destroying]; rfl,
      fun drains => by rw [user, destroying] at drains; cases drains⟩
    have moves : Moves still (z.implCancel t).1.rest (z.implCancel t).1.rest := .refl _
    split
    · rename_i z₂ isEnd
      have same : (z.implCancel t).1 = z₂ := by rw [isEnd]
      rw [same] at after moves
      exact ⟨after, .inr ⟨t, submitted, drained.1, by rw [same]; exact moves⟩⟩
    · rename_i z₂ code' other isEnd
      have same : (z.implCancel t).1 = z₂ := by rw [isEnd]
      rw [same] at after moves drained'
      exact ⟨after.become drained' (fun _ => rfl) (fun _ points => by
        simp [ZUser.target, Why.target] at points) fun _ there => by simp at there,
        .inr ⟨t, submitted, drained.1, by rw [same]; exact moves⟩⟩
  · rename_i empty
    have swept : ∀ {r : Rules}, Moves r z.rest (sweep z.toCore z.socks).rest := sweep_moves z.socks
      (fun t => done_of_empty good.sound empty) good.sound.linked.nodup fun _ => id
    have steps : Steps firm z (z.on fun c => sweep c c.socks) := ⟨swept, ⟨rfl, rfl, rfl, rfl, rfl, rfl⟩⟩
    have last := (good.steps steps).become (u := .destroyed) (q := z.ret) drained (fun _ => rfl)
      (fun _ points => by simp [ZUser.target] at points) fun _ there => by simp at there
    refine ⟨⟨last.sound, ?_⟩, .inl swept⟩
    exact ⟨last.spawning.each, last.spawning.queue, last.spawning.list, last.spawning.woken,
      last.spawning.target, last.spawning.releasing⟩

/-! ### Every step -/

/-- The user thread goes on inside a call. -/
theorem resume_good (good : Good z) (step : z.resume = some z') :
    Good z' ∧ (Moves rough z.rest z'.rest ∨ ∃ t, t < z.ntask ∧
      (∀ u, z.user.harvests u = false) ∧ Moves still (z.implCancel t).1.rest z'.rest) := by
  unfold resume at step
  split at step
  · rename_i why reading
    split at step
    · obtain rfl := Option.some.inj step
      exact ⟨⟨good.sound, good.spawning.read reading⟩, .inl (.refl _)⟩
    · cases step
  · rename_i why draining
    split at step
    · rename_i t rest spawnDone
      obtain rfl := Option.some.inj step
      exact ⟨⟨good.sound, good.spawning.pick draining spawnDone⟩, .inl (.refl _)⟩
    · rename_i empty
      obtain rfl := Option.some.inj step
      obtain ⟨after, moves⟩ := turned_good good
        ⟨fun u => by rw [draining]; rfl, fun _ => empty⟩
        fun u (points : why.target = some u) =>
          good.spawning.target u (by rw [draining]; exact points)
      exact ⟨after, .inl (rough_of_still moves)⟩
  · rename_i t why harvesting
    split at step
    · cases step
    · rename_i free
      obtain rfl := Option.some.inj step
      have life := good.spawning.each t
      unfold SpawnAt at life
      simp only [harvesting, ZUser.harvests, decide_true] at life
      obtain ⟨submitted, kind⟩ := life.spawned (by simp)
      have plain : (fnResult (z.task t).fnRet).ptr = none := by unfold fnResult; split <;> rfl
      have status : (fnResult (z.task t).fnRet).status ≠ .pending := by
        unfold fnResult; split <;> simp
      have moves : Moves rough z.rest (taskComplete z.toCore t (fnResult (z.task t).fnRet)).rest :=
        complete_pending good.sound ⟨by simpa using submitted, (life.past (by simp)).1, rfl⟩
          (by simp [kind]) (by simp [kind]) (by simp [kind]) (by simp [rough, kind]) status plain
      exact ⟨⟨sound_after good.sound rfl moves, good.spawning.harvest good.sound.lives harvesting
        (by simpa using free)⟩, .inl moves⟩
  · rename_i t releasing
    split at step
    · cases step
    · obtain rfl := Option.some.inj step
      obtain ⟨after, moves⟩ := taskFree_good good (t := t)
        ⟨fun u => by rw [releasing]; rfl, fun drains => by rw [releasing] at drains; cases drains⟩
        (good.spawning.target t (by rw [releasing]; rfl)) (good.spawning.releasing t releasing)
      exact ⟨after, .inl (rough_of_still moves)⟩
  · rename_i destroying
    obtain rfl := Option.some.inj step
    obtain ⟨after, moves⟩ := destroyRound_good good destroying
    exact ⟨after, moves.imp_left rough_of_still⟩
  · cases step

/-- A step of the work-queue thread. -/
theorem work_good {label : Label} (good : Good z) (step : z.work label = some z') :
    Good z' ∧ Moves noting z.rest z'.rest := by
  have noted : ∀ (t : TaskId) (f : Task → Task), f (z.task t) = { z.task t with
      wcanceled := (f (z.task t)).wcanceled, deadline := (f (z.task t)).deadline
      fnRet := (f (z.task t)).fnRet, pushed := (f (z.task t)).pushed
      runs := (f (z.task t)).runs } → Moves noting z.rest (z.toCore.modTask t f).rest :=
    fun t f same => .one (.note trivial same)
  unfold work at step
  split at step
  · split at step
    · rename_i t rest isNone isQueue
      obtain rfl := Option.some.inj step
      have moves := noted t (fun k => { k with runs := k.runs + 1 }) rfl
      exact ⟨⟨sound_after good.sound rfl moves, good.spawning.take isNone isQueue⟩, moves⟩
    · cases step
  · split at step
    · rename_i ret _ t isAt
      obtain rfl := Option.some.inj step
      have moves := noted t ({ · with fnRet := ret }) rfl
      exact ⟨⟨sound_after good.sound rfl moves, good.spawning.ran isAt ret⟩, moves⟩
    · cases step
  · split at step
    · rename_i t isAt
      obtain rfl := Option.some.inj step
      have moves := noted t ({ · with pushed := true }) rfl
      exact ⟨⟨sound_after good.sound rfl moves, good.spawning.push isAt⟩, moves⟩
    · cases step
  · split at step
    · rename_i t isAt
      obtain rfl := Option.some.inj step
      exact ⟨⟨good.sound, good.spawning.wake isAt⟩, .refl _⟩
    · cases step
  · split at step
    · rename_i t isAt
      obtain rfl := Option.some.inj step
      exact ⟨⟨good.sound, good.spawning.rested isAt⟩, .refl _⟩
    · cases step
  · cases step

/-- A result that names a socket names one that is won. -/
theorem readResult_moves {r : Rules} {c : Core} (built : c.Built) (submitted : t < c.ntask) :
    Moves r c.rest (readResult c t).rest := by
  unfold readResult
  split
  · rename_i s ptr
    refine .one (.claim (built.ptr t s submitted ptr) fun u less isOpen builds => ?_)
    exact (built.sole u s less isOpen builds).2.1 t submitted ptr
  · exact .refl _

/-- `impl_spawn`. -/
theorem implSpawn_good (good : Good z) (idle : z.user = .idle) (mem : Bool) (ret : Int) :
    Good (z.implSpawn mem ret) ∧ Moves rough z.rest (z.implSpawn mem ret).rest := by
  unfold implSpawn
  split
  · have steps := inlineTask_steps good.sound idle mem (e := fnResult ret)
      (by unfold fnResult; split <;> simp) (by unfold fnResult; split <;> rfl)
    exact ⟨good.steps steps.of_calm.of_steady, rough_of_steady steps.of_calm.1⟩
  split
  · dsimp only
    have moves : Moves rough z.rest ((z.toCore.taskNew { kind := .taskSpawn }).arm z.ntask).rest :=
      armNew_moves (.inr rfl) rfl trivial
    refine ⟨⟨sound_after good.sound rfl moves, ?_⟩, moves⟩
    have after := good.spawning.submit idle (q := some (.submitted (some z.ntask)))
    unfold give
    rw [← idle]
    exact after
  · exact ⟨good.idle ⟨fun u => by rw [idle]; rfl, fun drains => by
      rw [idle] at drains; cases drains⟩ _, .refl _⟩

/-- What a call of the user thread does to the writes: it cancels none, or one, or those of a socket. -/
def Writes (z z' : ZIo) (label : Label) : Prop :=
  Moves rough z.rest z'.rest ∨
    (∃ t, t < z.ntask ∧ (∀ u, z.user.harvests u = false) ∧
      Moves still (z.implCancel t).1.rest z'.rest) ∨
    ∃ mem s, label = .sockClose mem s ∧ z' = z.implSockClose mem s

/-- A vtable call. -/
theorem call_good {label : Label} (good : Good z) (idle : z.user = .idle) (allowed : z.Allowed label)
    (step : z.call label = some z') : Good z' ∧ Writes z z' label := by
  have drained : z.Drained := ⟨fun u => by rw [idle]; rfl, fun drains => by
    rw [idle] at drains; cases drains⟩
  have calmly : ∀ {z₁}, Steps calm z z₁ → Good z₁ ∧ Writes z z₁ label := fun steps =>
    ⟨good.steps steps.of_calm.of_steady, .inl (rough_of_steady steps.of_calm.1)⟩
  cases label with
  | «open» mem rc =>
    obtain rfl := Option.some.inj step
    exact calmly (implOpen_steps good.sound idle mem rc)
  | close mem fd rc =>
    obtain rfl := Option.some.inj step
    exact calmly (implClose_steps good.sound idle mem fd rc)
  | fileRw mem fd offset ans =>
    obtain rfl := Option.some.inj step
    exact calmly (fileRw_steps good.sound idle mem fd offset ans)
  | sleep mem ms uptime =>
    obtain rfl := Option.some.inj step
    exact calmly (implSleep_steps idle mem ms uptime)
  | spawn mem ret =>
    obtain rfl := Option.some.inj step
    obtain ⟨after, moves⟩ := implSpawn_good good idle mem ret
    exact ⟨after, .inl moves⟩
  | tcpConnect mem ans =>
    obtain rfl := Option.some.inj step
    exact calmly ⟨implTcpConnect_moves good.sound mem ans, implTcpConnect_quiet idle mem ans⟩
  | tcpListen ans =>
    obtain rfl := Option.some.inj step
    exact calmly ⟨implTcpListen_moves good.sound ans, implTcpListen_quiet idle ans⟩
  | tcpAccept mem ls ans =>
    obtain rfl := Option.some.inj step
    exact calmly ⟨implTcpAccept_moves good.sound mem ans allowed.1 allowed.2,
      implTcpAccept_quiet good.sound idle mem ans⟩
  | sockRead mem s ans =>
    obtain rfl := Option.some.inj step
    exact calmly ⟨implSockRead_moves good.sound mem ans allowed.1 allowed.2,
      implSockRead_quiet good.sound idle mem ans⟩
  | sockWrite mem s buf =>
    obtain rfl := Option.some.inj step
    have moves := steady_of_eager (implSockWrite_spec good.sound mem buf allowed.1 allowed.2).1
    exact ⟨good.steps ⟨firm_of_steady moves,
      implSockWrite_quiet good.sound idle mem buf allowed.1 allowed.2⟩, .inl (rough_of_steady moves)⟩
  | sockClose mem s =>
    obtain rfl := Option.some.inj step
    exact ⟨good.steps ⟨(implSockClose_spec good.sound mem allowed.1 allowed.2).1,
      implSockClose_quiet idle mem⟩, .inr (.inr ⟨mem, s, rfl, rfl⟩)⟩
  | step =>
    obtain rfl := Option.some.inj step
    unfold implStep
    split
    · exact ⟨good.idle drained _, .inl (.refl _)⟩
    · exact ⟨good.become drained (fun _ => rfl) (fun _ points => by
        simp [ZUser.target, Why.target] at points) fun _ there => by simp at there, .inl (.refl _)⟩
  | cancel t =>
    obtain rfl := Option.some.inj step
    have submitted := good.sound.lives.bound t allowed
    obtain ⟨after, user, _⟩ := implCancel_good good submitted drained.1
    exact ⟨after.idle ⟨fun u => by rw [user, idle]; rfl, fun drains => by
      rw [user, idle] at drains; cases drains⟩ _, .inr (.inl ⟨t, submitted, drained.1, .refl _⟩)⟩
  | free t =>
    obtain rfl := Option.some.inj step
    obtain ⟨after, moves | moves⟩ := implTaskFree_good good idle allowed
    · exact ⟨after, .inl (rough_of_still moves)⟩
    · exact ⟨after, .inr (.inl ⟨t, good.sound.lives.bound t allowed, drained.1, moves⟩)⟩
  | detach t =>
    obtain rfl := Option.some.inj step
    obtain ⟨after, moves⟩ := implTaskDetach_good good idle allowed
    exact ⟨after, .inl (rough_of_still moves)⟩
  | result t =>
    obtain rfl := Option.some.inj step
    exact calmly ⟨readResult_moves good.sound.built (good.sound.lives.bound t allowed),
      ⟨rfl, rfl, rfl, rfl, rfl, rfl⟩⟩
  | destroy =>
    obtain rfl := Option.some.inj step
    exact ⟨good.become drained (fun _ => rfl) (fun _ points => by simp [ZUser.target] at points)
      fun _ there => by simp at there, .inl (.refl _)⟩
  | _ => cases step

/-- Every step keeps the invariants. -/
theorem step_good {label : Label} (good : Good z) (allowed : z.Allowed label)
    (step : z.step label = some z') :
    Good z' ∧ (Writes z z' label ∨ z.work label = some z') := by
  have worked : ∀ {l : Label}, z.work l = some z' →
      Good z' ∧ (Writes z z' l ∨ z.work l = some z') := fun there =>
    ⟨(work_good good there).1, .inr there⟩
  unfold ZIo.step at step
  split at step
  · split at step
    · rename_i p _ why polling
      obtain rfl := Option.some.inj step
      obtain ⟨after, moves⟩ := runLoopOnce_good good polling p
      exact ⟨after, .inl (.inl moves)⟩
    · cases step
  · obtain ⟨after, moves | moves⟩ := resume_good good step
    · exact ⟨after, .inl (.inl moves)⟩
    · exact ⟨after, .inl (.inr (.inl moves))⟩
  · exact worked step
  · exact worked step
  · exact worked step
  · exact worked step
  · exact worked step
  · split at step
    · rename_i idle
      obtain ⟨after, writes⟩ := call_good good idle allowed step
      exact ⟨after, .inl writes⟩
    · cases step

/-- `impl_cancel`, of any task. -/
theorem implCancel_moves (good : Good z) (submitted : t < z.ntask)
    (free : ∀ u, z.user.harvests u = false) : Moves mine z.rest (z.implCancel t).1.rest := by
  by_cases kind : (z.task t).kind = .taskSpawn
  · cases done : (z.task t).done with
    | true =>
      have refused : z.implCancel t = (z, -1) := by unfold implCancel; rw [if_pos done]
      rw [refused]
      exact .refl _
    | false =>
      rcases cancelSpawn_spec good.spawning submitted kind done (free t) with
        ⟨_, isEnd⟩ | ⟨_, refused⟩
      · rw [isEnd]
        exact complete_pending good.sound ⟨submitted, done, rfl⟩ (by simp [kind]) (by simp [kind])
          (by simp [kind]) trivial (by simp) (by simp)
      · rw [refused]
        exact .refl _
  · exact mine_of (implCancel_spec good.sound submitted kind).1 rfl id id

/-- Every step is made of moves of the user thread, or is one of the work-queue thread. -/
theorem step_mine {label : Label} (good : Good z) (allowed : z.Allowed label)
    (step : z.step label = some z') : Moves mine z.rest z'.rest ∨ z.work label = some z' := by
  rcases (step_good good allowed step).2 with (moves | ⟨t, submitted, free, moves⟩ |
    ⟨mem, s, rfl, rfl⟩) | worked
  · exact .inl (mine_of moves rfl id id)
  · exact .inl ((implCancel_moves good submitted free).trans (mine_of moves rfl id id))
  · exact .inl (mine_of (implSockClose_spec good.sound mem allowed.1 allowed.2).1 rfl id id)
  · exact .inr worked

/-- Every step is made of moves. -/
theorem step_moves {label : Label} (good : Good z) (allowed : z.Allowed label)
    (step : z.step label = some z') : Moves loud z.rest z'.rest := by
  rcases step_mine good allowed step with moves | worked
  · exact loud_of moves rfl id
  · exact loud_of (work_good good worked).2 rfl id

/-- Every reachable state is good. -/
theorem good_of_run {cfg : Config} {send : Nat → SendAns} (run : Run (ZIo.new cfg send) z) : Good z :=
  run.invariant Good (fun _ _ _ good allowed step => (step_good good allowed step).1)
    (Good.new cfg send)

/-- A build with room for eight tasks, four sockets and two files. -/
def small : Config := { maxTasks := 8, maxSockets := 4, maxFiles := 2 }

/-- The state a list of steps leads to, when the sends are answered in order and then with `EAGAIN`. -/
def after (sends : List SendAns) (labels : List Label) : ZIo :=
  Machine.drive step (ZIo.new small fun n => (sends[n]?).getD .again) labels

/-- Steps that check out make a run. -/
theorem run_after (sends : List SendAns) (labels : List Label)
    (checked : Machine.legal step obeys (ZIo.new small fun n => (sends[n]?).getD .again) labels = true) :
    Run (ZIo.new small fun n => (sends[n]?).getD .again) (after sends labels) :=
  .of_legal obeys (fun _ _ => Allowed.of_obeys) labels (.refl _) checked

end ZIo

end Myio.Loop
