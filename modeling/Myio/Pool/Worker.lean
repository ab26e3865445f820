import Myio.Pool.Sections

/-! The moves of a desktop pool's worker. -/

namespace Myio

open Function (update)
open Core

namespace Pool

variable {o : OpKind → Result → Prop} {p p' : Pool} {w : WorkerId} {t : TaskId}

/-! ### Commit -/

theorem complete_toCore (p : Pool) (t : TaskId) (res : Result) :
    (p.complete t res).toCore = p.toCore.conclude t res := rfl

theorem dropWon_toCore (p : Pool) (res : Result) :
    (p.dropWon res).toCore = p.toCore.dropWon res := by
  unfold dropWon Core.dropWon
  cases res.ptr <;> rfl

/-- Settling with the socket and completing is leaving the socket and committing. -/
theorem settleSock_complete {res : Result} (task : (p.leave t).task t = p.task t) :
    ((p.settleSock t res).1.complete t (p.settleSock t res).2).toCore =
      (p.leave t).toCore.commit t res := by
  have sockOf : (p.leave t).sockOf t = p.sockOf t := by unfold Core.sockOf; rw [task]
  rw [settleSock_eq]
  unfold Core.commit
  rw [task, sockOf]
  by_cases blocks : opOnSock (p.task t).kind = true
  · by_cases busy : ((p.leave t).sock (p.sockOf t)).closing = true
    · simp only [blocks, busy, Bool.and_self, if_true]
      rw [complete_toCore, dropWon_toCore]
    · simp only [blocks, busy, Bool.true_and, Bool.false_eq_true, if_true, if_false]
      rw [complete_toCore]
  · have apart : opOnSock (p.task t).kind = false := by simpa using blocks
    simp only [apart, Bool.false_eq_true, if_false, Bool.false_and, leave_of_apart apart]
    rw [complete_toCore]

/-- While the instance is being destroyed nothing is handed on. -/
theorem leave_of_down (down : p.shutdown = true) : p.leave t = p.on (·.leaveSock t) := by
  have down' : (p.on (·.leaveSock t)).shutdown = true := by
    rw [on_toCore, leaveSock_rest]; exact down
  rw [leave_eq]
  unfold handOn
  rw [if_pos down']
  split <;> rfl

/-- A task that is not a write hands nothing on. -/
theorem leave_of_unwritten (unwritten : (p.task t).kind ≠ .opSockWrite) :
    p.leave t = p.on (·.leaveSock t) := by
  have notHead : heads p.toCore t = false := by simp [heads, unwritten]
  rw [leave_eq, notHead]
  rfl

/-- A task that has left its socket is committed. -/
theorem commitLeft_spec {c : Core} {res : Result} (sound : Sound p.rest)
    (moves : Moves o p.rest ⟨c, update (fun _ => false) t true, fun _ => false⟩)
    (runs : p.Runs w t) (task : c.task t = p.task t) (ntask : c.ntask = p.ntask)
    (ends : c.Ends t res) (notClose : (p.task t).kind ≠ .opSockClose)
    (allowed : ∀ k res, k ≠ .opSockClose → o k res) : Moves o p.rest (c.commit t res).rest := by
  obtain ⟨pending, started⟩ := sound.placed.run_pending w t runs
  have done := commit_spec (o := o) (sound.moves moves) (ntask ▸ pending.1)
    (by rw [task]; exact pending.2.1) (by rw [task]; exact started) (by simp) ends
    (by rw [task]; exact notClose) (fun res => allowed _ res (by rw [task]; exact notClose))
  rw [update_out rfl] at done
  exact moves.trans done

/-- The commit of an operation that won no descriptor. -/
theorem commitBare_spec {res : Result} (sound : Sound p.rest) (at_ : p.At w t (.commit res none))
    (down : p.WoundDown) (allowed : ∀ k res, k ≠ .opSockClose → o k res) :
    ((p.on (·.setPc w .ready)).leave t).task t = p.task t ∧
      Moves o p.rest (((p.on (·.setPc w .ready)).leave t).toCore.commit t res).rest := by
  obtain ⟨pending, started⟩ : p.Pending (fun _ => false) t ∧ (p.task t).started = true :=
    sound.placed.run_pending w t at_.runs
  obtain ⟨notClose, status, bare, _, write⟩ : p.PhaseOk t (.commit res none) :=
    sound.phased w t _ at_
  let q := p.on (·.setPc w .ready)
  have exit : Move o p.rest ⟨(q.on (·.leaveSock t)).toCore, update (fun _ => false) t true,
      fun s => false || p.exposes t s⟩ := .exitRun at_ pending
  have left := sound.move exit
  have noLoose : (p.task t).kind = .opSockWrite → ∀ s, (p.task t).sock = some s →
      (p.sock s).wq.head? = some t →
      ¬ (q.on (·.leaveSock t)).CloseLoose (update (fun _ => false) t true) s := by
    rintro isWrite s _ _ ⟨u, _, isClose, _, out, _⟩
    have isT : u = t := by
      by_contra other
      simp [other] at out
    rw [on_toCore, leaveSock_rest, isT] at isClose
    exact OpKind.noConfusion (isWrite.symm.trans isClose)
  obtain ⟨_, advanced, task, moves⟩ := leave_spec (o := o) (p := q) (c := p.toCore) left (by simp)
    rfl rfl rfl (sound.placed.sock_live t pending) (fun _ _ => rfl) noLoose
  have moves := (Moves.one exit).trans moves
  have sound' := sound.moves moves
  have cleared : Moves o p.rest
      ⟨(q.leave t).toCore, update (fun _ => false) t true, fun _ => false⟩ := by
    refine moves.snoc (.headed fun s live exposed => ?_)
    -- A FIFO is left without a head only in teardown, when no write waits in it.
    have isBare : (false || (q.shutdown && p.exposes t s)) = true := by simpa using exposed.symm
    have isDown : p.shutdown = true := by
      have : q.shutdown = true := by simp only [Bool.false_or, Bool.and_eq_true] at isBare; exact isBare.1
      exact this
    refine List.eq_nil_iff_forall_not_mem.mpr fun u there => ?_
    have unstarted := (sound'.placed.wq_rest s u live there (.inl isBare)).2
    have waits := ((sound'.placed.wq_mem s u live).mp there).1
    have same : (q.leave t).toCore = q.leaveSock t := by rw [leave_of_down (p := q) isDown]; rfl
    dsimp only at unstarted waits
    rw [same, leaveSock_rest] at unstarted waits
    have isOpen : p.Pending (fun _ => false) u := ⟨waits.1, waits.2.1, rfl⟩
    exact Bool.noConfusion (unstarted.symm.trans ((down isDown).2 u isOpen))
  have task' : (q.leave t).task t = p.task t := task
  have ends : (q.leave t).Ends t res := by
    refine ⟨⟨status, by simp [bare]⟩, by simp [bare], fun isClose => ?_, ?_⟩
    · rw [task'] at isClose; exact absurd isClose notClose
    · rw [task']; exact write
  refine ⟨task', commitLeft_spec sound cleared at_.runs task' ?_ ends notClose allowed⟩
  rw [advanced.rest, on_toCore, leaveSock_rest]
  rfl

/-- The commit of a connect or an accept that won a descriptor. -/
theorem commitWon_spec {res : Result} {fd : Fd} (linked : Bool) (sound : Sound p.rest)
    (at_ : p.At w t (.commit res (some fd))) (allowed : ∀ k res, k ≠ .opSockClose → o k res) :
    Moves o p.rest (((if linked then (p.on (·.setPc w .ready)).on (·.sockLink fd)
      else (p.on (·.setPc w .ready)).on (·.closeDesc fd)).leave t).toCore.commit t
        (if linked then rOk 0 (some p.nsock) else rErr ENOMEM)).rest := by
  obtain ⟨pending, started⟩ : p.Pending (fun _ => false) t ∧ (p.task t).started = true :=
    sound.placed.run_pending w t at_.runs
  obtain ⟨notClose, _, _, winner, _⟩ : p.PhaseOk t (.commit res (some fd)) :=
    sound.phased w t _ at_
  have unwritten : (p.task t).kind ≠ .opSockWrite := by
    rcases winner (by simp) with kind | kind <;> simp [kind]
  have exit : Move o p.rest ⟨(p.setPc w .ready).leaveSock t, update (fun _ => false) t true,
      fun s => false || p.exposes t s⟩ := .exitRun at_ pending
  have hidden : (fun s => false || p.exposes t s) = fun _ => false := by
    funext s; simp [exposes, unwritten]
  rw [hidden] at exit
  have left := sound.move exit
  have loose : ((p.setPc w .ready).leaveSock t).Loose fd :=
    (sound.owned.loose_won at_ (by simp)).leaveSock t
  have other : opOnSock ((p.setPc w .ready).task t).kind →
      (p.setPc w .ready).sockOf t ≠ (p.setPc w .ready).nsock := by
    intro blocks
    obtain ⟨s, sock, live⟩ := sound.placed.sock_live t pending blocks
    have sockOf : (p.setPc w .ready).sockOf t = s := by
      change (p.task t).sock.getD 0 = s
      rw [show (p.task t).sock = some s from sock]; rfl
    rw [sockOf]
    exact Nat.ne_of_lt (sound.linked.bound s live)
  have task : ((p.setPc w .ready).leaveSock t).task = p.task := by rw [leaveSock_rest]; rfl
  have ntask : ((p.setPc w .ready).leaveSock t).ntask = p.ntask := by rw [leaveSock_rest]; rfl
  have nsock : ((p.setPc w .ready).leaveSock t).nsock = p.nsock := by rw [leaveSock_rest]; rfl
  cases linked with
  | true =>
    have core : (((p.on (·.setPc w .ready)).on (·.sockLink fd)).leave t).toCore =
        ((p.setPc w .ready).leaveSock t).sockLink fd := by
      rw [leave_of_unwritten (p := (p.on (·.setPc w .ready)).on (·.sockLink fd)) unwritten]
      exact leaveSock_sockLink other
    have won := won_of_link left fd
    rw [nsock] at won
    rw [if_pos rfl, if_pos rfl, core]
    refine commitLeft_spec sound ((Moves.one exit).snoc (.link loose)) at_.runs (congrFun task t)
      ntask ⟨by simp, fun s ptr => ?_, fun isClose => ?_, fun isWrite => ?_⟩ notClose allowed
    · obtain rfl : p.nsock = s := Option.some.inj ptr
      exact won
    · exact absurd ((congrArg Task.kind (congrFun task t)).symm.trans isClose) notClose
    · exact absurd ((congrArg Task.kind (congrFun task t)).symm.trans isWrite) unwritten
  | false =>
    have core : (((p.on (·.setPc w .ready)).on (·.closeDesc fd)).leave t).toCore =
        ((p.setPc w .ready).leaveSock t).closeDesc fd := by
      rw [leave_of_unwritten (p := (p.on (·.setPc w .ready)).on (·.closeDesc fd)) unwritten]
      exact leaveSock_closeDesc _ t fd
    rw [if_neg (by simp), if_neg (by simp), core]
    refine commitLeft_spec sound ((Moves.one exit).snoc (.close loose)) at_.runs (congrFun task t)
      ntask ⟨by simp, by simp, fun isClose => ?_, by simp⟩ notClose allowed
    exact absurd ((congrArg Task.kind (congrFun task t)).symm.trans isClose) notClose

/-- The commit of `worker_run`. -/
theorem workerCommit_spec {res : Result} {newfd : Option Fd} (linked : Bool) (sound : Sound p.rest)
    (at_ : p.At w t (.commit res newfd)) (down : p.WoundDown)
    (allowed : ∀ k res, k ≠ .opSockClose → o k res) :
    Moves o p.rest (p.workerCommit w t res newfd linked).rest := by
  have code : ∀ q res', (p.on (·.setPc w .ready)).wrapWon res newfd linked = (q, res') →
      (q.leave t).task t = q.task t →
      (p.workerCommit w t res newfd linked).toCore = (q.leave t).toCore.commit t res' := by
    intro q res' wrapped task
    rw [← settleSock_complete task]
    unfold workerCommit
    simp only [wrapped]
  unfold Core.rest
  cases newfd with
  | none =>
    obtain ⟨task, moves⟩ := commitBare_spec sound at_ down allowed
    rw [code _ res rfl task]
    exact moves
  | some fd =>
    obtain ⟨_, _, _, winner, _⟩ : p.PhaseOk t (.commit res (some fd)) := sound.phased w t _ at_
    have unwritten : (p.task t).kind ≠ .opSockWrite := by
      rcases winner (by simp) with kind | kind <;> simp [kind]
    have moves := commitWon_spec linked sound at_ allowed
    have task : ∀ q : Pool, q.task = p.task → (q.leave t).task t = q.task t := by
      intro q same
      rw [leave_of_unwritten (by rw [same]; exact unwritten), on_toCore, leaveSock_rest]
    cases linked with
    | true => rw [code _ (rOk 0 (some p.nsock)) rfl (task _ rfl)]; exact moves
    | false => rw [code _ (rErr ENOMEM) rfl (task _ rfl)]; exact moves

/-! ### The blocking part -/

/-- A blocking call's result is never pending. -/
theorem callResult_status (k : OpKind) (n errno : Int) : (callResult k n errno).status ≠ .pending := by
  cases k <;> simp only [callResult] <;> try split
  all_goals simp

/-- A blocking call's result never carries a socket. -/
theorem callResult_ptr (k : OpKind) (n errno : Int) : (callResult k n errno).ptr = none := by
  cases k <;> simp only [callResult] <;> try split
  all_goals simp

/-- An operation that waits where a cancel can reach it is no write and no close. -/
theorem apart_of_interruptible {k : OpKind} (interruptible : opInterruptible k = true) :
    k ≠ .opSockWrite ∧ k ≠ .opSockClose := by
  cases k <;> simp_all [opInterruptible]

theorem setPc_setPc (c : Core) (w : WorkerId) (pc pc' : Pc) :
    (c.setPc w pc).setPc w pc' = c.setPc w pc' := by
  simp [setPc, modWorker]

/-- A worker starts on its task. -/
theorem workerEnter_spec (sound : Sound p.rest) (at_ : p.At w t .entry) :
    Moves o p.rest (p.workerEnter w t).rest := by
  have unsent : (p.task t).sent = 0 := sound.phased w t _ at_
  have enter : ∀ target, Phase.plain target → p.PhaseOk t target →
      Moves o p.rest (p.on (·.setPc w (.running t target))).rest := fun target plain kept =>
    .one (.phase at_ rfl plain kept)
  unfold workerEnter
  split
  · rename_i kind
    exact enter _ rfl kind
  · rename_i kind
    split
    · exact enter _ rfl ⟨by simp [kind], by simp, rfl, by simp, by simp⟩
    · exact enter _ rfl ⟨kind, unsent.symm, Nat.zero_le _⟩
  · rename_i kind
    exact enter _ rfl (by simp [PhaseOk, kind, opInterruptible])
  · rename_i kind
    exact enter _ rfl (by simp [PhaseOk, kind, opInterruptible])
  · rename_i kind
    exact enter _ rfl (by simp [PhaseOk, kind, opInterruptible])
  · rename_i notClose notWrite _ _ _
    exact enter _ rfl ⟨notWrite, notClose⟩

/-- The socket of a close task whose worker still waits is on the list. -/
theorem Sound.live_of_drain (sound : Sound p.rest) (at_ : p.At w t .drain) :
    ∃ s, (p.task t).sock = some s ∧ s ∈ p.socks := by
  obtain ⟨pending, _⟩ : p.Pending (fun _ => false) t ∧ _ := sound.placed.run_pending w t at_.runs
  have isClose : (p.task t).kind = .opSockClose := sound.phased w t _ at_
  obtain ⟨s, sock⟩ := sound.closes.close_sock t pending.1 isClose
  refine ⟨s, sock, ?_⟩
  rcases sound.closes.close_live t s pending isClose sock with live | ⟨v, phase, at_', unlinked⟩
  · exact live
  · obtain rfl := sound.placed.run_inj w v t at_.runs at_'.runs
    have same := at_.2.symm.trans at_'.2
    cases same
    cases unlinked

/-- `worker_close` commits. -/
theorem commitClose_spec (sound : Sound p.rest) (at_ : p.At w t .commitClose)
    (closed : o .opSockClose (rOk 0 none)) :
    Moves o p.rest ((p.on (·.setPc w .ready)).complete t (rOk 0 none)).rest := by
  obtain ⟨pending, started⟩ : p.Pending (fun _ => false) t ∧ (p.task t).started = true :=
    sound.placed.run_pending w t at_.runs
  obtain ⟨isClose, gone⟩ : p.PhaseOk t .commitClose := sound.phased w t _ at_
  have exit : Move o p.rest ⟨(p.setPc w .ready).leaveSock t, update (fun _ => false) t true,
      fun s => false || p.exposes t s⟩ := .exitRun at_ pending
  have hidden : (fun s => false || p.exposes t s) = fun _ => false := by
    funext s; simp [exposes, isClose]
  have apart : (p.setPc w .ready).leaveSock t = p.setPc w .ready := by
    unfold leaveSock
    refine if_neg ?_
    change ¬ opOnSock (p.task t).kind = true
    rw [isClose]
    decide
  rw [hidden, apart] at exit
  have task : (p.setPc w .ready).task = p.task := rfl
  have done : Moves o _ ⟨(p.setPc w .ready).conclude t (rOk 0 none), _, _⟩ := conclude_spec
    (sound.move exit) pending.1
    pending.2.1 started (by simp) ⟨by simp, by simp, fun _ => gone, by simp [task, isClose]⟩
    (by simp [task, isClose, opOnSock]) (by rw [task, isClose]; exact closed)
  rw [update_out rfl] at done
  exact (Moves.one exit).trans done

/-- One move of a worker that is running a task. -/
theorem runStep_spec {phase : Phase} {act : Act} (sound : Sound p.rest) (at_ : p.At w t phase)
    (down : p.WoundDown) (allowed : ∀ k res, k ≠ .opSockClose → o k res)
    (closed : o .opSockClose (rOk 0 none)) (taken : p.runStep w t phase act = some p') :
    Moves o p.rest p'.rest := by
  have kept := sound.phased w t phase at_
  unfold runStep at taken
  split at taken
  · cases taken; exact workerEnter_spec sound at_
  · have interruptible : opInterruptible (p.task t).kind := kept
    obtain ⟨notWrite, notClose⟩ := apart_of_interruptible interruptible
    split at taken
    · cases taken
      exact .one (.phase at_ rfl rfl ⟨notClose, by simp, rfl, by simp, by simp⟩)
    · split at taken <;> cases taken
      · exact .one (.phase at_ rfl rfl ⟨notWrite, notClose⟩)
      · exact .one (.phase at_ rfl rfl interruptible)
  · have interruptible : opInterruptible (p.task t).kind := kept
    obtain ⟨notWrite, notClose⟩ := apart_of_interruptible interruptible
    split at taken <;> cases taken
    · have at_' : (p.modWorker w fun k => { k with kicks := k.kicks - 1 }).At w t .polling :=
        ⟨at_.1, by simpa [modWorker] using at_.2⟩
      exact .snoc (.one (.kicks (n := (p.worker w).kicks - 1))) (.phase at_' rfl rfl interruptible)
    · exact .one (.phase at_ rfl rfl ⟨notWrite, notClose⟩)
  · obtain ⟨notWrite, notClose⟩ : p.PhaseOk t .call := kept
    cases taken
    exact .one (.phase at_ rfl rfl ⟨notClose, callResult_status _ _ _, callResult_ptr _ _ _, by simp,
      fun isWrite => absurd isWrite notWrite⟩)
  · split at taken <;> cases taken <;> rename_i kind
    · exact .one (.win at_ rfl ⟨by simp [kind], by simp, rfl, fun _ => .inl kind, by simp⟩)
    · exact .one (.win at_ rfl ⟨by simp [kind], by simp, rfl, fun _ => .inr kind, by simp [kind]⟩)
  · split at taken <;> cases taken
    rename_i fits
    exact .one (.send at_ fits.2)
  · split at taken <;> cases taken
    exact .refl _
  · obtain ⟨isWrite, _⟩ : p.PhaseOk t (.sending _) := kept
    split at taken <;> cases taken
    exact .one (.phase at_ rfl rfl ⟨by simp [isWrite], by simp, rfl, by simp, by simp⟩)
  · obtain ⟨isWrite, sent, fits⟩ : p.PhaseOk t (.sending _) := kept
    split at taken <;> cases taken
    rename_i full
    refine .one (.phase at_ rfl rfl ⟨by simp [isWrite], by simp, rfl, by simp, fun _ _ => ?_⟩)
    exact ⟨sent ▸ Nat.le_antisymm fits (Nat.le_of_not_lt full), rfl⟩
  · cases taken; exact workerCommit_spec _ sound at_ down allowed
  · obtain ⟨s, sock, live⟩ := Sound.live_of_drain sound at_
    have sockOf : p.sockOf t = s := by simp [Core.sockOf, sock]
    dsimp only at taken
    rw [sockOf] at taken
    split at taken <;> cases taken
    rename_i calm
    exact .one (.unlink at_ sock (unblocked sound live calm))
  · rename_i fd
    obtain ⟨isClose, _⟩ : p.PhaseOk t (.release fd) := kept
    obtain ⟨pending, _⟩ : p.Pending (fun _ => false) t ∧ _ := sound.placed.run_pending w t at_.runs
    obtain ⟨s, sock⟩ := sound.closes.close_sock t pending.1 isClose
    have sockOf : p.sockOf t = s := by
      unfold Core.sockOf; rw [show (p.task t).sock = some s from sock]; rfl
    cases taken
    have freed : ((p.sockFree s).setPc w (.running t (.closeFd fd))).At w t (.closeFd fd) := by
      rw [setPc_at, if_pos rfl]; exact ⟨at_.1, rfl⟩
    have core : (((p.sockFree s).setPc w (.running t (.closeFd fd))).closeDesc fd).setPc w
        (.running t .commitClose) =
          (((p.on (·.closeDesc fd)).on (·.sockFree (p.sockOf t))).on
            (·.setPc w (.running t .commitClose))).toCore := by
      rw [sockOf]
      exact setPc_setPc ((p.sockFree s).closeDesc fd) w (.running t (.closeFd fd)) _
    unfold Core.rest
    rw [← core]
    exact .snoc (.one (.freeSock at_ sock)) (.closeFd freed)
  · cases taken; exact commitClose_spec sound at_ closed
  · cases taken

/-! ### The loop -/

/-- A worker with no task goes from one place to another. -/
theorem setPc_stirred {c : Core} {pc : Pc} (free : (c.worker w).pc.task? = none)
    (free' : pc.task? = none) : Stirred c (c.setPc w pc) := by
  constructor
  case rest => rfl
  case grown => exact Nat.le_refl _
  case runs =>
    intro v u
    rw [setPc_runs]
    split
    · rename_i same; subst same; simp [Runs, free, free']
    · rfl
  case pcs =>
    intro v u phase
    rw [setPc_at]
    split
    · rename_i same
      subst same
      constructor
      · rintro ⟨_, rfl⟩; cases free'
      · rintro ⟨_, here⟩; rw [here] at free; cases free
    · rfl

/-- `worker_main` with the lock held. -/
theorem workerMain_spec (timedout : Bool) (inside : w < p.nworker)
    (free : (p.worker w).pc.task? = none) : Moves o p.rest (p.workerMain w timedout).rest := by
  unfold workerMain
  split
  · rename_i t rest queue
    have take : Move o p.rest ⟨_, _, _⟩ := .take queue inside free
    unfold Pool.take
    rw [queue]
    exact .one take
  · split
    · exact .one (.stir (setPc_stirred free rfl))
    · exact .one (.stir (setPc_stirred free rfl))

/-- A move of one worker. -/
theorem workerStep_spec {act : Act} (sound : Sound p.rest) (down : p.WoundDown)
    (allowed : ∀ k res, k ≠ .opSockClose → o k res) (closed : o .opSockClose (rOk 0 none))
    (taken : p.workerStep w act = some p') : Moves o p.rest p'.rest := by
  unfold workerStep at taken
  split at taken
  · cases taken
  · rename_i outside
    have inside : w < p.nworker := Nat.lt_of_not_le outside
    split at taken
    · rename_i pc
      cases taken
      exact .one (.stir (setPc_stirred (by rw [pc]; rfl) rfl))
    · rename_i pc
      cases taken
      exact workerMain_spec _ inside (by rw [pc]; rfl)
    · rename_i pc
      cases taken
      exact workerMain_spec (p := { p with idle := p.idle - 1 }) _ inside (by
        change (p.worker w).pc.task? = none
        rw [pc]; rfl)
    · rename_i pc
      exact runStep_spec sound ⟨inside, pc⟩ down allowed closed taken
    · cases taken

end Pool

end Myio
