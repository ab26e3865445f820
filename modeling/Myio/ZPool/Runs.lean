import Myio.ZPool.Calls

/-! The runs of the Zephyr pool: every step is made of moves, so every invariant holds along them. -/

namespace Myio

open Function (update)
open Core

/-- What the user thread relies on is in the shared part and its own place. -/
theorem Pool.Tidy.congr {p q : Pool} (tidy : p.Tidy) (core : q.toCore = p.toCore)
    (user : q.user = p.user) : q.Tidy := by
  refine ⟨?_, ?_, ?_, ?_, ?_⟩ <;> (try rw [core]) <;> (try rw [user])
  · exact tidy.wrapping
  · exact tidy.shutdown
  · exact tidy.gone
  · exact tidy.named
  · exact tidy.down

namespace ZPool

variable {o : OpKind → Result → Prop} {z z' y : ZPool} {t : TaskId} {s : SockId} {w : WorkerId}

/-- The user thread is where its call has brought it. -/
def Tidy (z : ZPool) : Prop := (z.desktop none).Tidy

theorem Tidy.leaves (tidy : z.Tidy) : z.shutdown = z.user.leaves := Pool.Tidy.shutdown tidy

theorem Tidy.wraps (tidy : z.Tidy) : z.wrapping = z.user.wraps := Pool.Tidy.wrapping tidy

/-- Nothing changed that the user thread relies on inside a call. -/
def Stays (z z' : ZPool) : Prop := Pool.Stays (z.desktop none) (z'.desktop none)

theorem Stays.refl (z : ZPool) : Stays z z := Pool.Stays.refl _

/-- A change that the desktop pool makes too. -/
theorem Stays.mirror {p : Pool} {choice : Option WorkerId} (stays : Stays z y)
    (change : Pool.Stays (y.desktop choice) p) (core : z'.toCore = p.toCore)
    (user : z'.user = y.user) : Stays z z' := by
  refine ⟨user.trans stays.user, ?_, ?_, ?_, ?_, fun t before => ?_⟩
  · exact (congrArg Core.shutdown core).trans (change.shutdown.trans stays.shutdown)
  · exact (congrArg Core.wrapping core).trans (change.wrapping.trans stays.wrapping)
  · exact (congrArg Core.gone core).trans (change.gone.trans stays.gone)
  · exact (congrArg Core.claimed core).trans (change.claimed.trans stays.claimed)
  · exact (congrFun (congrArg Core.held core) t).trans (change.held t (stays.held t before))

/-- A change of the workers, the counters, the queue, the tasks and the sockets. -/
theorem Stays.aside (stays : Stays z y) (user : z'.user = y.user)
    (core : z'.toCore = { y.toCore with worker := z'.worker, nworker := z'.nworker, queue := z'.queue
                                        nqueued := z'.nqueued, nrunning := z'.nrunning, task := z'.task
                                        desc := z'.desc, ndesc := z'.ndesc, sock := z'.sock
                                        socks := z'.socks }) : Stays z z' :=
  Pool.Stays.aside stays user core

theorem Stays.completeUnrun (stays : Stays z y) (t : TaskId) :
    Stays z (y.completeUnrun t rCanceled) :=
  stays.mirror ((Pool.Stays.stable _).completeUnrun (.refl (y.desktop y.signalled)) t)
    ((shadow_desktop y).completeUnrun t).symm (completeUnrun_user y t rCanceled)

theorem Stays.kick (stays : Stays z y) (t : TaskId) : Stays z (y.on (kick · t)) := by
  refine stays.aside rfl ?_
  rw [on_toCore, kick_rest]
  rfl

theorem Stays.stopSlot (stays : Stays z y) (named : Option TaskId) : Stays z (y.stopSlot named) := by
  unfold ZPool.stopSlot
  split
  · exact stays
  · split
    · exact stays.completeUnrun _
    · exact stays.kick _

theorem Stays.cancelParked (s : SockId) (n : Nat) : ∀ {y : ZPool}, Stays z y →
    Stays z (cancelParked n y s) := by
  induction n with
  | zero => exact id
  | succ n ih =>
    intro y stays
    unfold ZPool.cancelParked
    split
    · exact ih (stays.completeUnrun _)
    · exact stays

theorem Stays.implSockClose (z : ZPool) (s : SockId) : Stays z (z.implSockClose s) := by
  have made : Stays z (z.closeMade s) := by
    refine ⟨rfl, rfl, rfl, rfl, rfl, fun t before => ?_⟩
    change update z.held z.ntask true t = true
    rw [Function.update_apply]
    split
    · rfl
    · exact before
  have stripped : Stays z (z.closeStripped s) :=
    Stays.cancelParked s _ ((made.stopSlot _).stopSlot _)
  rw [implSockClose_eq]
  generalize z.closeStripped s = y at stripped ⊢
  split
  · exact stripped.aside rfl rfl
  · unfold enqueue
    refine stripped.aside ?_ ?_ <;> rw [condSignal_rest] <;> rfl

/-! ### Calls -/

/-- A vtable call is made of moves. -/
theorem call_moves {c : Call} (sound : Sound z.rest) (tidy : z.Tidy) (slotted : z.Slotted)
    (idle : z.user = .idle) (obeyed : z.obeys (.user c) = true)
    (allowed : ∀ k res, k ≠ .opSockClose → o k res) (closed : o .opSockClose (rOk 0 none))
    (spoilt : z.clean (.user c) = true ∨ ∀ res, o .opSockClose res)
    (taken : z.call c = some z') : Moves o z.rest z'.rest := by
  cases called taken with
  | mirrored c' mirrors =>
    obtain ⟨p, code, core, _⟩ := mirrors.code
    have moves := Pool.call_moves (o := o) (p := z.desktop z.signalled) sound (tidy.congr rfl rfl)
      idle (mirrors.obeys obeyed) allowed closed (spoilt.imp_left mirrors.clean) code
    unfold Core.rest at moves ⊢
    rw [core] at moves
    exact moves
  | kicked t user _ => exact kick_moves z.toCore t _ _
  | failed k err apart notClose => exact taskNewFailed_spec apart notClose err (allowed _ _ notClose)
  | close s =>
    have here : z.gone = false := Pool.Tidy.here tidy (by simp [desktop, idle])
    simp only [obeys, Bool.and_eq_true, Bool.not_eq_true'] at obeyed
    have live : s ∈ z.socks := sound.claims.claimed_live s obeyed.1 obeyed.2 here
    exact implSockClose_spec sound live obeyed.2 obeyed.1
      (fun t there => slotted .opSockRead s t there) (fun t there => slotted .opAccept s t there)
      allowed closed
  | destroy =>
    have canceled : ∀ t, t ∈ z.queue → o (z.task t).kind rCanceled := by
      intro t queued
      by_cases isClose : (z.task t).kind = .opSockClose
      · rw [isClose]
        rcases spoilt with spared | any
        · have := List.all_eq_true.mp spared t queued
          simp [isClose] at this
        · exact any _
      · exact allowed _ _ isClose
    obtain ⟨moves, moves', _⟩ := implDestroy_spec sound slotted canceled fun res => allowed _ res (by simp)
    exact moves.trans moves'

/-- A vtable call leaves everything tidy. -/
theorem Tidy.call {c : Call} (tidy : z.Tidy) (sound : Sound z.rest) (slotted : z.Slotted)
    (idle : z.user = .idle) (obeyed : z.obeys (.user c) = true) (taken : z.call c = some z') :
    z'.Tidy := by
  have up : z.shutdown = false := by rw [tidy.leaves, idle]; rfl
  have free : z.wrapping = none := by rw [tidy.wraps, idle]; rfl
  have here : z.gone = false := Pool.Tidy.here tidy (by simp [desktop, idle])
  cases called taken with
  | mirrored c' mirrors =>
    obtain ⟨p, code, core, user⟩ := mirrors.code
    have next := Pool.Tidy.call (p := z.desktop z.signalled) (tidy.congr rfl rfl) sound idle
      (mirrors.obeys obeyed) code
    exact next.congr core.symm user.symm
  | kicked t user at_ =>
    have kicked := (Stays.refl z).kick t
    rcases at_ with rfl | ⟨rfl, rfl⟩
    · exact Pool.Tidy.stays tidy idle kicked
    · refine ⟨kicked.wrapping.trans free, kicked.shutdown.trans up, fun gone => ?_,
        fun u named => ?_, fun down => ?_⟩
      · exact Bool.noConfusion ((kicked.gone.trans here).symm.trans gone)
      · obtain rfl : u = t := by simpa [desktop, User.names] using named
        exact kicked.held u obeyed
      · exact Bool.noConfusion ((kicked.shutdown.trans up).symm.trans down)
  | failed k err _ _ =>
    refine Pool.Tidy.stays tidy idle ⟨rfl, rfl, rfl, rfl, rfl, fun t before => ?_⟩
    change update z.held z.ntask true t = true
    rw [Function.update_apply]
    split
    · rfl
    · exact before
  | close s => exact Pool.Tidy.stays tidy idle (Stays.implSockClose z s)
  | destroy =>
    obtain ⟨_, _, prodded, down, _⟩ := implDestroy_spec (o := fun _ _ => True) sound slotted
      (fun _ _ => trivial) fun _ => trivial
    obtain ⟨_, swept, _⟩ := tearDown_spec (o := fun _ _ => True) sound (fun _ _ => trivial)
      fun _ => trivial
    refine ⟨?_, ?_, fun gone => ?_, by simp [desktop, implDestroy, User.names], down⟩
    · change z.implDestroy.wrapping = none
      rw [prodded.rest, swept.rest]; exact free
    · change z.implDestroy.shutdown = true
      rw [prodded.rest, swept.rest]
    · have still : z.implDestroy.gone = z.gone := by rw [prodded.rest, swept.rest]
      exact Bool.noConfusion ((still.trans here).symm.trans gone)

theorem Slotted.implSockClose (slotted : z.Slotted) (sound : Sound z.rest) (live : s ∈ z.socks)
    (usable : (z.sock s).closing = false) (mine : z.claimed s = true) :
    (z.implSockClose s).Slotted := by
  obtain ⟨spares, _, _⟩ := closeStripped_spec (o := fun _ _ => True) sound live usable mine
    (fun t there => slotted .opSockRead s t there) (fun t there => slotted .opAccept s t there)
    (fun _ _ _ => trivial)
  have made : (z.closeMade s).Slotted := by
    refine slotted.fewer (Nat.le_succ _) (fun _ _ _ => id) fun k s u there inside => ?_
    simp [closeMade, taskNew, modSock, Function.update_of_ne (Nat.ne_of_lt inside)]
  have stripped : (z.closeStripped s).Slotted :=
    Slotted.cancelParked s _ ((made.stopSlot _).stopSlot _)
  have task : (z.closeStripped s).task z.ntask = { kind := .opSockClose, sock := some s } := by
    rw [spares.task z.ntask (by simp)]; simp [closeMade, taskNew, modSock]
  rw [implSockClose_eq]
  generalize z.closeStripped s = y at stripped task ⊢
  split
  · exact (stripped.on (·.sockDiscard s) rfl rfl).finish (by
      change opOnSock (y.task z.ntask).kind = false
      rw [task]; rfl) _
  · unfold enqueue
    refine (stripped.on (·.queuePush z.ntask) rfl rfl).fewer ?_ (fun k s u there => ?_)
      fun k s u _ _ => ?_
    · rw [condSignal_rest]
    · rw [condSignal_rest] at there; exact there
    · rw [condSignal_rest]; exact ⟨rfl, rfl, rfl⟩

/-- A vtable call keeps the slots in order. -/
theorem Slotted.call {c : Call} (slotted : z.Slotted) (sound : Sound z.rest) (tidy : z.Tidy)
    (idle : z.user = .idle) (obeyed : z.obeys (.user c) = true) (taken : z.call c = some z') :
    z'.Slotted := by
  have submitted : ∀ k : Task, (z.submit k).Slotted := fun k =>
    slotted.submit rfl fun _ _ _ there => .inl there
  have failed : ∀ k err, opOnSock k = false → (z.taskNewFailed k err).Slotted := by
    intro k err apart
    have made : (z.on (·.taskNew { kind := k })).Slotted := by
      refine slotted.fewer (Nat.le_succ _) (fun _ _ _ => id) fun k s u there inside => ?_
      simp [taskNew, Function.update_of_ne (Nat.ne_of_lt inside)]
    exact made.finish (by simp [taskNew, apart]) _
  have same : ∀ {y : ZPool}, y.task = z.task → y.ntask = z.ntask → (∀ k s, y.slot k s = z.slot k s) →
      y.Slotted := fun task ntask slots =>
    slotted.fewer (Nat.le_of_eq ntask.symm) (fun k s u there => (slots k s).symm.trans there)
      fun _ _ _ _ _ => by rw [task]; exact ⟨rfl, rfl, rfl⟩
  cases c with
  | «open» fits =>
    cases taken; unfold implOpen; split
    · exact submitted _
    · exact failed _ _ rfl
  | close known =>
    cases taken; unfold implClose; split
    · exact submitted _
    · exact failed _ _ rfl
  | read known =>
    cases taken; unfold implRead implFileRw; split
    · exact submitted _
    · exact failed _ _ rfl
  | write known =>
    cases taken; unfold implWrite implFileRw; split
    · exact submitted _
    · exact failed _ _ rfl
  | sleep => cases taken; exact submitted _
  | spawn => cases taken; exact submitted _
  | tcpConnect fits =>
    cases taken; unfold implTcpConnect; split
    · exact submitted _
    · exact failed _ _ rfl
  | tcpListen => cases taken; exact same rfl rfl fun _ _ => rfl
  | tcpAccept ls =>
    cases taken; unfold implTcpAccept; split
    · exact failed _ _ rfl
    · refine slotted.submit rfl fun k s u there => ?_
      unfold slot at there ⊢
      simp only [Function.update_apply] at there
      grind
  | sockRead s =>
    cases taken; unfold implSockRead; split
    · exact failed _ _ rfl
    · refine slotted.submit rfl fun k s u there => ?_
      unfold slot at there ⊢
      simp only [Function.update_apply] at there
      grind
  | sockWrite s buf => cases taken; exact submitted _
  | sockClose s =>
    cases taken
    have here : z.gone = false := Pool.Tidy.here tidy (by simp [desktop, idle])
    simp only [obeys, Bool.and_eq_true, Bool.not_eq_true'] at obeyed
    exact slotted.implSockClose sound (sound.claims.claimed_live s obeyed.1 obeyed.2 here) obeyed.2
      obeyed.1
  | wait goal => cases goal <;> cases taken <;> exact same rfl rfl fun _ _ => rfl
  | cancel t =>
    cases taken; unfold implCancel
    split
    · exact slotted
    · split
      · exact slotted.completeUnrun t
      · split
        · exact slotted.kick t
        · exact slotted
  | taskResult t =>
    cases taken; unfold implTaskResult
    split
    · exact same rfl rfl fun _ _ => rfl
    · exact slotted
  | taskFree t =>
    have freed : ∀ {y : ZPool}, y.Slotted → ((y.dropHandle t).on (·.taskFreeMem t)).Slotted := by
      intro y slotted
      refine slotted.fewer (Nat.le_refl _) (fun _ _ _ => id) fun k s u _ _ => ?_
      simp only [on_toCore, taskFreeMem, modTask, dropHandle, Function.update_apply]
      grind
    cases taken; unfold implTaskFree
    split
    · exact freed slotted
    · split
      · exact freed (slotted.completeUnrun t)
      · dsimp only
        split
        · exact (slotted.kick t).fewer (Nat.le_refl _) (fun _ _ _ => id) fun _ _ _ _ _ => ⟨rfl, rfl, rfl⟩
        · exact same rfl rfl fun _ _ => rfl
  | taskDetach t =>
    cases taken
    have given : ∀ v, (((z.dropHandle t).dropSock v).task = z.task) ∧
        ((z.dropHandle t).dropSock v).ntask = z.ntask ∧
        ∀ k s, ((z.dropHandle t).dropSock v).slot k s = z.slot k s := by
      intro v
      cases v <;> exact ⟨rfl, rfl, fun _ _ => rfl⟩
    unfold implTaskDetach
    dsimp only
    split
    · obtain ⟨task, ntask, slots⟩ := given ((z.dropHandle t).task t).res.ptr
      have given := same task ntask slots
      generalize (z.dropHandle t).dropSock ((z.dropHandle t).task t).res.ptr = y at given
      refine given.fewer ?_ (fun _ _ _ => id) fun k s u _ _ => ?_
      · rw [on_toCore]
        unfold Core.reap
        split <;> exact Nat.le_refl _
      · rw [on_toCore]
        unfold Core.reap
        split
        all_goals
          simp only [taskFreeMem, modTask, sockDiscard, sockFree, modSock, closeDesc, modDesc,
            sockUnlink, Function.update_apply]
          grind
    · refine slotted.fewer (Nat.le_refl _) (fun _ _ _ => id) fun k s u _ _ => ?_
      simp only [on_toCore, modTask, dropHandle, Function.update_apply]
      grind
  | destroy =>
    cases taken
    exact (implDestroy_spec (o := fun _ _ => True) sound slotted (fun _ _ => trivial)
      fun _ => trivial).2.2.2.2
  | resume => cases taken

/-! ### Workers -/

/-- What a move of a worker is: one of a desktop worker, or one of the places where the code differs. -/
inductive Worked (z : ZPool) (w : WorkerId) (z' : ZPool) : Prop
  | mirrored (choice : Option WorkerId) (act : Pool.Act) (p : Pool)
      (taken : (z.desktop choice).workerStep w act = some p) (core : z'.toCore = p.toCore)
  | main (inside : w < z.nworker) (free : (z.worker w).pc.task? = none)
      (core : z'.toCore = ((z.desktop none).workerMain w false).toCore)
  /-- A task whose socket is closing does not block at all. -/
  | refused (t : TaskId) (at_ : z.At w t .entry) (blocks : opOnSock (z.task t).kind = true)
      (closing : (z.sock (z.sockOf t)).closing = true)
      (core : z'.toCore = z.setPc w (.running t (.commit rCanceled none)))
  /-- A poll that a kick ends drains every kick there is. -/
  | drained (t : TaskId) (at_ : z.At w t .polling)
      (core : z'.toCore = (z.modWorker w ({ · with kicks := 0 })).setPc w (.running t .check))
  /-- `worker_close` frees the socket before it closes the descriptor. -/
  | unlinked (t : TaskId) (at_ : z.At w t .drain) (calm : (z.sock (z.sockOf t)).inflight = 0)
      (core : z'.toCore = ((z.sockUnlink (z.sockOf t)).sockFree (z.sockOf t)).setPc w
        (.running t (.closeFd (z.sock (z.sockOf t)).fd)))
  | closed (t : TaskId) (fd : Fd) (at_ : z.At w t (.closeFd fd))
      (core : z'.toCore = (z.closeDesc fd).setPc w (.running t .commitClose))

theorem workerMain_core (core : y.toCore = z.toCore) (w : WorkerId) :
    (y.workerMain w).toCore = ((z.desktop none).workerMain w false).toCore := by
  unfold workerMain Pool.workerMain
  rw [core, desktop_toCore]
  cases z.queue with
  | cons t rest =>
    change Core.setPc (Core.modTask { y.toCore with
      queue := y.queue.tail, nqueued := y.nqueued - 1, nrunning := y.nrunning + 1 } t _) w _ = _
    rw [core]
    rfl
  | nil =>
    cases z.shutdown with
    | true => change y.setPc w .retired = _; rw [core]; rfl
    | false => change y.setPc w .asleep = _; rw [core]; rfl

theorem runStep_worked {phase : Phase} {act : Pool.Act} (inside : w < z.nworker)
    (pc : (z.worker w).pc = .running t phase) (taken : z.runStep w t phase act = some z') :
    Worked z w z' := by
  -- Most phases are those of the desktop pool, to the letter.
  have mirror : ∀ choice act' p, (z.desktop choice).runStep w t phase act' = some p →
      z'.toCore = p.toCore → Worked z w z' := by
    intro choice act' p taken core
    refine .mirrored choice act' p ?_ core
    unfold Pool.workerStep
    rw [desktop_toCore, if_neg (Nat.not_le.mpr inside), pc]
    exact taken
  let q := z.desktop none
  unfold runStep at taken
  split at taken
  · cases taken
    by_cases refuses : (opOnSock (z.task t).kind && (z.sock (z.sockOf t)).closing) = true
    · have both := Bool.and_eq_true_iff.mp refuses
      refine .refused t ⟨inside, pc⟩ both.1 both.2 ?_
      unfold workerEnter
      rw [if_pos refuses]
      rfl
    · refine mirror none .enter _ rfl ?_
      unfold workerEnter Pool.workerEnter
      rw [if_neg refuses, desktop_toCore]
      cases kind : (z.task t).kind with
      | opSockWrite =>
        have usable : (z.sock (z.sockOf t)).closing = false := by
          simpa [kind, opOnSock] using refuses
        simp only [usable, Bool.false_or]
        split <;> rfl
      | _ => rfl
  · split at taken
    · rename_i canceled
      cases taken
      refine mirror none (.check false) (q.on (·.setPc w (.running t (.commit rCanceled none)))) ?_ rfl
      exact if_pos canceled
    · rename_i expired uncanceled
      split at taken <;> cases taken
      · rename_i slept
        refine mirror none (.check expired) (q.on (·.setPc w (.running t .call))) ?_ rfl
        exact (if_neg uncanceled).trans (if_pos slept)
      · rename_i awake
        refine mirror none (.check expired) (q.on (·.setPc w (.running t .polling))) ?_ rfl
        exact (if_neg uncanceled).trans (if_neg awake)
  · split at taken
    · split at taken
      · cases taken; exact .drained t ⟨inside, pc⟩ rfl
      · cases taken
    · cases taken; exact mirror none (.poll false) _ rfl rfl
  · rename_i n errno; cases taken; exact mirror none (.ret n errno) _ rfl rfl
  · rename_i errno
    split at taken <;> cases taken <;> rename_i kind
    · refine mirror none (.retFd errno) ((q.on (·.newDesc)).on
        (·.setPc w (.running t (.commit (rErr errno) (some z.ndesc))))) ?_ rfl
      unfold Pool.runStep
      simp only [desktop_toCore, kind]
      rfl
    · refine mirror none (.retFd errno) ((q.on (·.newDesc)).on
        (·.setPc w (.running t (.commit (rOk 0 none) (some z.ndesc))))) ?_ rfl
      unfold Pool.runStep
      simp only [desktop_toCore, kind]
      rfl
  · rename_i off n
    split at taken <;> cases taken
    rename_i fits
    refine mirror none (.send n) (q.on (Pool.sendBytes · w t off n)) ?_ rfl
    exact if_pos fits
  · rename_i off errno
    split at taken <;> cases taken
    rename_i more
    refine mirror none (.sendErr errno)
      (q.on (·.setPc w (.running t (.commit (rErr errno) none)))) ?_ rfl
    exact if_pos more
  · rename_i off
    split at taken <;> cases taken
    rename_i sent
    refine mirror none .sendEnd
      (q.on (·.setPc w (.running t (.commit (rOk (z.task t).buf.length none) none)))) ?_ rfl
    exact if_neg sent
  · rename_i res newfd linked
    cases taken
    obtain ⟨choice, core⟩ := workerCommit_core z w t res newfd linked
    exact mirror choice (.commit linked) _ rfl core.symm
  · dsimp only at taken
    split at taken <;> cases taken
    rename_i calm
    exact .unlinked t ⟨inside, pc⟩ calm rfl
  · rename_i fd; cases taken; exact .closed t fd ⟨inside, pc⟩ rfl
  · cases taken
    exact mirror none .commitClose _ rfl (complete_core
      (p := (z.desktop none).on (·.setPc w .ready)) (z := z.on (·.setPc w .ready)) rfl t _).symm
  · cases taken

theorem worked {act : Pool.Act} (taken : z.workerStep w act = some z') : Worked z w z' := by
  unfold workerStep at taken
  split at taken
  · cases taken
  · rename_i outside
    have inside : w < z.nworker := Nat.lt_of_not_le outside
    split at taken
    · rename_i pc
      cases taken
      refine .mirrored none (.wake false) ((z.desktop none).on (·.setPc w (.woken false))) ?_ rfl
      unfold Pool.workerStep
      rw [desktop_toCore, if_neg outside, pc]
    · rename_i pc
      cases taken
      exact .main inside (by rw [pc]; rfl) (workerMain_core rfl w)
    · rename_i pc
      cases taken
      exact .main inside (by rw [pc]; rfl) (workerMain_core rfl w)
    · rename_i pc; exact runStep_worked inside pc taken
    · cases taken

/-- A worker leaves the user thread where it is. -/
theorem workerStep_user {act : Pool.Act} (taken : z.workerStep w act = some z') :
    z'.user = z.user := by
  have main : ∀ y : ZPool, (y.workerMain w).user = y.user := fun y => by
    unfold workerMain; split
    · rfl
    · split <;> rfl
  have commit : ∀ t res newfd linked, (z.workerCommit w t res newfd linked).user = z.user := by
    intro t res newfd linked
    have wrapped : ((z.on (·.setPc w .ready)).wrapWon res newfd linked).1.user = z.user := by
      unfold wrapWon
      split
      · rfl
      · split <;> rfl
    unfold workerCommit
    dsimp only
    generalize (z.on (·.setPc w .ready)).wrapWon res newfd linked = won at wrapped ⊢
    change (won.1.settleSock t won.2).1.user = z.user
    rw [settleSock_eq]
    split
    · split
      · unfold dropWon
        split <;> (dsimp only [ZPool.on]; rw [leave_rest]; exact wrapped)
      · dsimp only; rw [leave_rest]; exact wrapped
    · exact wrapped
  unfold workerStep at taken
  split at taken
  · cases taken
  · split at taken
    · cases taken; rfl
    · cases taken; exact main _
    · cases taken; exact main _
    · unfold runStep at taken
      split at taken
      · cases taken; unfold workerEnter; split
        · rfl
        · split
          case h_2 => split <;> rfl
          all_goals rfl
      · split at taken
        · cases taken; rfl
        · split at taken <;> cases taken <;> rfl
      · split at taken
        · split at taken <;> cases taken; rfl
        · cases taken; rfl
      · cases taken; rfl
      · split at taken <;> cases taken <;> rfl
      · split at taken <;> cases taken; rfl
      · split at taken <;> cases taken; rfl
      · split at taken <;> cases taken; rfl
      · cases taken; exact commit _ _ _ _
      · dsimp only at taken; split at taken <;> cases taken; rfl
      · cases taken; rfl
      · cases taken; rfl
      · cases taken
    · cases taken

/-- A move of one worker is made of moves. -/
theorem workerStep_spec {act : Pool.Act} (sound : Sound z.rest) (down : z.WoundDown)
    (allowed : ∀ k res, k ≠ .opSockClose → o k res) (closed : o .opSockClose (rOk 0 none))
    (taken : z.workerStep w act = some z') : Moves o z.rest z'.rest := by
  unfold Core.rest
  cases worked taken with
  | mirrored choice act p mirror core =>
    rw [core]
    exact Pool.workerStep_spec (p := z.desktop choice) sound down allowed closed mirror
  | main inside free core =>
    rw [core]
    exact Pool.workerMain_spec (p := z.desktop none) false inside free
  | refused t at_ blocks _ core =>
    rw [core]
    have notClose : (z.task t).kind ≠ .opSockClose := by
      intro isClose
      rw [isClose] at blocks
      cases blocks
    exact .one (.phase at_ rfl rfl ⟨notClose, by simp, rfl, by simp, by simp⟩)
  | drained t at_ core =>
    rw [core]
    have interruptible : opInterruptible (z.task t).kind := sound.phased w t _ at_
    have at_' : (z.modWorker w ({ · with kicks := 0 })).At w t .polling :=
      ⟨at_.1, by simpa [modWorker] using at_.2⟩
    exact .snoc (.one (.kicks (n := 0))) (.phase at_' rfl rfl interruptible)
  | unlinked t at_ calm core =>
    obtain ⟨s, sock, live⟩ := Pool.Sound.live_of_drain (p := z.desktop none) sound at_
    have sockOf : z.sockOf t = s := by
      unfold Core.sockOf; rw [show (z.task t).sock = some s from sock]; rfl
    rw [sockOf] at calm core
    -- Unlinking and freeing are two moves, with the worker between them.
    let fd := (z.sock s).fd
    have at_' : ((z.sockUnlink s).setPc w (.running t (.release fd))).At w t (.release fd) := by
      rw [setPc_at, if_pos rfl]; exact ⟨at_.1, rfl⟩
    have same : ((((z.sockUnlink s).setPc w (.running t (.release fd))).sockFree s).setPc w
        (.running t (.closeFd fd))) = z'.toCore := by
      rw [core]
      exact Pool.setPc_setPc ((z.sockUnlink s).sockFree s) w (.running t (.release fd)) _
    rw [← same]
    exact .snoc (.one (.unlink at_ sock (unblocked sound live calm))) (.freeSock at_' sock)
  | closed t fd at_ core =>
    rw [core]
    exact .one (.closeFd at_)

theorem Stays.workerStep {act : Pool.Act} (taken : z.workerStep w act = some z') : Stays z z' := by
  have user := workerStep_user taken
  cases worked taken with
  | mirrored choice act p mirror core =>
    exact (Stays.refl z).mirror (Pool.Stays.workerStep mirror) core user
  | main inside free core =>
    refine (Stays.refl z).aside user ?_
    rw [core]
    unfold Pool.workerMain
    split
    · rfl
    · split <;> rfl
  | refused t at_ blocks _ core => exact (Stays.refl z).aside user (by rw [core]; rfl)
  | drained t at_ core => exact (Stays.refl z).aside user (by rw [core]; rfl)
  | unlinked t at_ calm core => exact (Stays.refl z).aside user (by rw [core]; rfl)
  | closed t fd at_ core => exact (Stays.refl z).aside user (by rw [core]; rfl)

/-- Once `shutdown` is set and the queue is empty, no worker takes or makes a task. -/
theorem workerStep_down {act : Pool.Act} (down : z.shutdown = true) (empty : z.queue = [])
    (taken : z.workerStep w act = some z') : Pool.Idle z.toCore z'.toCore := by
  unfold Pool.Idle
  cases worked taken with
  | mirrored choice act p mirror core =>
    rw [core]
    exact Pool.workerStep_down (p := z.desktop choice) down empty mirror
  | main inside free core =>
    rw [core]
    unfold Pool.workerMain
    rw [desktop_toCore, empty, down]
    exact ⟨empty, rfl⟩
  | refused t at_ blocks _ core => rw [core]; exact ⟨rfl, rfl⟩
  | drained t at_ core => rw [core]; exact ⟨rfl, rfl⟩
  | unlinked t at_ calm core => rw [core]; exact ⟨rfl, rfl⟩
  | closed t fd at_ core => rw [core]; exact ⟨rfl, rfl⟩

/-! ### Going on inside a call -/

theorem destroyOn_spec (sound : Sound z.rest) (tidy : z.Tidy) (down : z.shutdown = true) :
    Moves o z.rest z.destroyOn.rest := by
  unfold destroyOn
  split
  · rename_i retired
    refine .one (.sweep fun t pending => ?_)
    -- Whatever is pending is running, but no worker is left to run it.
    obtain ⟨w, inside, runs⟩ := sound.placed.started_run t pending
      ((Pool.Tidy.down tidy down).2 t pending)
    have gone := List.all_eq_true.mp retired w (List.mem_range.mpr inside)
    have runs : (z.worker w).pc.task? = some t := runs
    rw [of_decide_eq_true gone] at runs
    cases runs
  · exact .refl _

/-- Going on inside a call is made of moves. -/
theorem resume_moves {linked : Bool} (sound : Sound z.rest) (tidy : z.Tidy)
    (taken : z.resume linked = some z') : Moves o z.rest z'.rest := by
  unfold resume at taken
  split at taken
  · rename_i fd user
    cases taken
    have wraps : z.wrapping = some fd := by rw [tidy.wraps, user]; rfl
    have core : (z.wrapListener fd linked).toCore =
        ((z.desktop none).wrapListener fd linked).toCore := by
      cases linked <;> rfl
    have moves := Pool.wrapListener_spec (o := o) (p := z.desktop none) sound wraps linked
    unfold Core.rest at moves ⊢
    rw [core]
    exact moves
  · rename_i t user
    cases taken
    have held : z.held t = true := Pool.Tidy.named tidy t (by simp [desktop, user, User.names])
    unfold freeOn
    split
    · rename_i done; exact .one (.free done held)
    · exact .refl _
  · cases taken
    unfold pollOn
    split
    · split
      · split <;> exact .refl _
      · exact .refl _
    · exact .refl _
    · split
      · split <;> exact .refl _
      · exact .refl _
  · cases taken
    unfold stepOn
    split <;> exact .refl _
  · rename_i user
    cases taken
    exact destroyOn_spec sound tidy (by rw [tidy.leaves, user]; rfl)
  · cases taken

/-- Inside a call the two pools go on alike, until the very end. -/
theorem resume_mirror {linked : Bool} (before : z.user ≠ .destroying)
    (taken : z.resume linked = some z') :
    ∃ p, (z.desktop none).resume linked = some p ∧ z'.toCore = p.toCore ∧ z'.user = p.user := by
  have same : (z.desktop none).user = z.user := rfl
  unfold ZPool.resume at taken
  unfold Pool.resume
  rw [same]
  generalize z.user = user at before taken
  cases user with
  | listening fd =>
    cases taken
    refine ⟨_, rfl, ?_⟩
    cases linked <;> exact ⟨rfl, rfl⟩
  | freeing t =>
    cases taken
    refine ⟨_, rfl, ?_⟩
    unfold freeOn Pool.freeOn
    rw [desktop_toCore]
    by_cases done : (z.task t).done = true
    · rw [if_pos done, if_pos done]; exact ⟨rfl, rfl⟩
    · rw [if_neg done, if_neg done]; exact ⟨rfl, rfl⟩
  | polling goal rest =>
    cases taken
    refine ⟨_, rfl, ?_⟩
    cases rest with
    | nil =>
      cases goal with
      | select ts =>
        unfold pollOn Pool.pollOn
        dsimp only
        by_cases empty : ts.all Option.isNone = true
        · rw [if_pos empty, if_pos empty]; exact ⟨rfl, rfl⟩
        · rw [if_neg empty, if_neg empty]; exact ⟨rfl, rfl⟩
      | step => exact ⟨rfl, rfl⟩
      | await t => exact ⟨rfl, rfl⟩
    | cons entry rest =>
      cases entry with
      | none => exact ⟨rfl, rfl⟩
      | some t =>
        unfold pollOn Pool.pollOn
        dsimp only
        rw [desktop_toCore]
        by_cases done : (z.task t).done = true
        · rw [if_pos done, if_pos done]
          cases goal <;> exact ⟨rfl, rfl⟩
        · rw [if_neg done, if_neg done]; exact ⟨rfl, rfl⟩
  | stepping goal =>
    cases taken
    refine ⟨_, rfl, ?_⟩
    have answer : (z.desktop none).implStep = z.implStep := rfl
    unfold stepOn Pool.stepOn
    rw [answer]
    cases z.implStep <;> cases goal <;> exact ⟨rfl, rfl⟩
  | destroying => exact absurd rfl before
  | idle => cases taken
  | destroyed => cases taken

/-- Going on inside a call leaves everything tidy. -/
theorem Tidy.resume {linked : Bool} (tidy : z.Tidy) (taken : z.resume linked = some z') :
    z'.Tidy := by
  by_cases ends : z.user = .destroying
  · unfold ZPool.resume at taken
    rw [ends] at taken
    cases taken
    have free : z.wrapping = none := by rw [tidy.wraps, ends]; rfl
    have isDown : z.shutdown = true := by rw [tidy.leaves, ends]; rfl
    unfold destroyOn
    split
    · have rest := closeSocks_rest z.toCore z.socks
      refine ⟨?_, ?_, fun _ => rfl, by simp [desktop, User.names], fun _ => ?_⟩
      · change (Pool.closeSocks z.toCore z.socks).wrapping = none
        rw [rest]; exact free
      · change (Pool.closeSocks z.toCore z.socks).shutdown = true
        rw [rest]; exact isDown
      · obtain ⟨empty, started⟩ := Pool.Tidy.down tidy isDown
        change (Pool.closeSocks z.toCore z.socks).queue = [] ∧ ∀ t,
          (Pool.closeSocks z.toCore z.socks).Pending (fun _ => false) t →
            ((Pool.closeSocks z.toCore z.socks).task t).started = true
        rw [rest]
        exact ⟨empty, started⟩
    · exact tidy
  · obtain ⟨p, mirror, core, user⟩ := resume_mirror ends taken
    exact (Pool.Tidy.resume tidy mirror).congr core user

/-! ### Runs -/

theorem userStep_cases {c : Call} (taken : z.userStep c = some z') :
    (z.user = .idle ∧ z.call c = some z') ∨ ∃ linked, c = .resume linked ∧ z.resume linked = some z' := by
  unfold userStep at taken
  split at taken
  · exact .inr ⟨_, rfl, taken⟩
  · split at taken
    · exact .inl ⟨‹_›, taken⟩
    · cases taken

/-- Every step of a caller that obeys is made of moves. -/
theorem step_moves {label : Label} (sound : Sound z.rest) (tidy : z.Tidy) (slotted : z.Slotted)
    (obeyed : z.obeys label = true) (allowed : ∀ k res, k ≠ .opSockClose → o k res)
    (closed : o .opSockClose (rOk 0 none))
    (spoilt : z.clean label = true ∨ ∀ res, o .opSockClose res)
    (taken : z.step label = some z') : Moves o z.rest z'.rest := by
  cases label with
  | worker w act => exact workerStep_spec sound (Pool.Tidy.down tidy) allowed closed taken
  | user call =>
    rcases userStep_cases taken with ⟨idle, taken⟩ | ⟨linked, rfl, taken⟩
    · exact call_moves sound tidy slotted idle obeyed allowed closed spoilt taken
    · exact resume_moves sound tidy taken

/-- Everything that holds between two critical sections. -/
structure Good (z : ZPool) : Prop where
  sound : Sound z.rest
  tidy : z.Tidy
  slotted : z.Slotted

theorem Good.new (n : Nat) (pick : Nat → WorkerId → Bool) : (ZPool.new n pick).Good := by
  have noRuns : ∀ w t, ¬ (ZPool.new n pick).Runs w t := fun w t runs => by cases runs.2
  have noAt : ∀ w t phase, ¬ (ZPool.new n pick).At w t phase := fun w t _ at_ => noRuns w t at_.runs
  refine ⟨⟨?_, ?_, ?_, ?_, ?_, ?_, ?_, ?_, ?_, ?_⟩, ?_, ?_⟩
  · constructor <;> simp_all [ZPool.new, Core.rest, Core.Pending]
  · exact ⟨rfl, rfl, by simp [ZPool.new, Core.rest]⟩
  · exact ⟨by simp [ZPool.new, Core.rest], by simp [ZPool.new, Core.rest]⟩
  · exact ⟨by simp [ZPool.new, Core.rest], by simp [ZPool.new, Core.rest], by simp [ZPool.new, Core.rest]⟩
  · constructor <;> simp [ZPool.new, Core.rest]
  · constructor <;> simp_all [ZPool.new, Core.rest]
  · constructor <;> simp [ZPool.new, Core.rest, Core.Pending]
  · exact fun w t phase at_ => absurd at_ (noAt w t phase)
  · constructor <;> simp [ZPool.new, Core.rest]
  · constructor <;> simp [ZPool.new, Core.rest]
  · exact Pool.Tidy.back rfl rfl rfl rfl
  · intro k s t there
    unfold slot at there
    simp [ZPool.new] at there

/-- Every step keeps every invariant. -/
theorem Good.step {label : Label} (good : z.Good) (obeyed : z.obeys label = true)
    (taken : z.step label = some z') : z'.Good := by
  have moves : Moves (fun _ _ => True) z.rest z'.rest :=
    step_moves good.sound good.tidy good.slotted obeyed (fun _ _ _ => trivial) trivial
      (.inr fun _ => trivial) taken
  have sound := good.sound.moves moves
  cases label with
  | worker w act =>
    exact ⟨sound, good.tidy.undisturbed (Stays.workerStep taken) (Later.moves moves good.sound)
      (fun down empty => workerStep_down down empty taken), good.slotted.workerStep good.sound taken⟩
  | user call =>
    rcases userStep_cases taken with ⟨idle, taken⟩ | ⟨_, rfl, taken⟩
    · exact ⟨sound, good.tidy.call good.sound good.slotted idle obeyed taken,
        good.slotted.call good.sound good.tidy idle obeyed taken⟩
    · exact ⟨sound, good.tidy.resume taken, good.slotted.resume taken⟩

/-- Once the Zephyr pool is on its way out, no task is made. -/
theorem leaving_step {label : Label} (good : z.Good) (leaves : z.user.leaves = true)
    (taken : z.step label = some z') : z'.user.leaves = true ∧ z'.ntask = z.ntask := by
  have isDown : z.shutdown = true := good.tidy.leaves.trans leaves
  cases label with
  | worker w act =>
    exact ⟨by rw [workerStep_user taken]; exact leaves,
      (workerStep_down isDown (Pool.Tidy.down good.tidy isDown).1 taken).2⟩
  | user call =>
    rcases userStep_cases taken with ⟨idle, _⟩ | ⟨_, _, taken⟩
    · rw [idle] at leaves; cases leaves
    · unfold ZPool.resume at taken
      split at taken
      · rename_i user; rw [user] at leaves; cases leaves
      · rename_i user; rw [user] at leaves; cases leaves
      · rename_i user; rw [user] at leaves; cases leaves
      · rename_i user; rw [user] at leaves; cases leaves
      · cases taken
        unfold destroyOn
        split
        · refine ⟨rfl, ?_⟩
          change (Pool.closeSocks z.toCore z.socks).ntask = z.ntask
          rw [closeSocks_rest]
        · exact ⟨leaves, rfl⟩
      · cases taken

/-- The runs of an instance whose caller obeys. -/
def Run (z z' : ZPool) : Prop := Machine.Path step (fun z l => z.obeys l = true) z z'

/-- What holds between two critical sections holds after any more of them. -/
theorem Run.good_of (run : Run z z') (good : z.Good) : z'.Good :=
  Machine.Path.invariant Good (fun _ _ _ good obeyed taken => good.step obeyed taken) run good

/-- What holds in every state a run reaches. -/
theorem Run.good {n : Nat} {pick : Nat → WorkerId → Bool} (run : Run (ZPool.new n pick) z) :
    z.Good := run.good_of (.new n pick)

/-- A whole run is made of moves. -/
theorem Run.moves (run : Run z z') (good : z.Good) : Moves (fun _ _ => True) z.rest z'.rest := by
  induction run with
  | refl => exact .refl _
  | snoc before obeyed taken ih =>
    have here := Run.good_of before good
    exact ih.trans (step_moves here.sound here.tidy here.slotted obeyed (fun _ _ _ => trivial) trivial
      (.inr fun _ => trivial) taken)

/-- No run takes anything back. -/
theorem Run.later (run : Run z z') (good : z.Good) : Later z.toCore z'.toCore :=
  Later.moves (run.moves good) good.sound

/-- The state a list of steps leads to with one worker, woken whenever it sleeps. -/
def after (labels : List Label) : ZPool := Machine.drive step (ZPool.new 1 fun _ _ => true) labels

/-- Steps that check out make a run. -/
theorem run_after (labels : List Label)
    (checked : Machine.legal step obeys (ZPool.new 1 fun _ _ => true) labels = true) :
    Run (ZPool.new 1 fun _ _ => true) (after labels) :=
  .of_legal obeys (fun _ _ => id) labels (.refl _) checked

end ZPool

end Myio
