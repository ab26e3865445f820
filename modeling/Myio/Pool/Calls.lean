import Myio.Pool.Crew
import Myio.Pool.Drop
import Myio.Pool.Worker

/-! The calls of the desktop pool's user thread, from one critical section's end to the next. -/

namespace Myio

open Function (update)
open Core

namespace Pool

variable {o : OpKind → Result → Prop} {p p' : Pool} {t : TaskId} {s : SockId}

/-- `complete_unrun` between two critical sections. -/
theorem completeUnrun_rest (sound : Sound p.rest) (up : p.shutdown = false) (submitted : t < p.ntask)
    (isOpen : (p.task t).done = false) (unstarted : (p.task t).started = false)
    (allowed : o (p.task t).kind rCanceled) :
    Quiet p (p.completeUnrun t) ∧ Advanced p.toCore (p.completeUnrun t).toCore ∧
      (p.completeUnrun t).task t = settled rCanceled (p.task t) ∧
      Moves o p.rest (p.completeUnrun t).rest := by
  obtain ⟨quiet, advanced, task, moves⟩ := completeUnrun_spec (o := o) sound
    ⟨submitted, isOpen, rfl⟩ unstarted (fun _ _ => rfl) (fun _ s _ _ => by
      rintro ⟨u, _, _, _, out, _⟩; cases out) allowed
  simp only [up, Bool.false_and, Bool.or_false] at moves
  exact ⟨quiet, advanced, task, moves⟩

/-- A task that blocks on no socket, as its submit function makes it. -/
theorem fresh_apart (c : Core) {k : OpKind} (apart : opOnSock k = false) (notClose : k ≠ .opSockClose) :
    c.Fresh { kind := k } := by
  constructor
  case sock => intro blocks; exact Bool.noConfusion (apart.symm.trans blocks)
  case kind => exact notClose
  all_goals intros; rfl

/-- An operation on a socket the caller may use, as its submit function makes it. -/
theorem fresh_onSock {c : Core} {k : OpKind} {buf : List UInt8} (blocks : opOnSock k = true)
    (live : s ∈ c.socks) (usable : (c.sock s).closing = false) :
    c.Fresh { kind := k, sock := some s, fd := some (c.sock s).fd, buf } := by
  constructor
  case sock => exact fun _ => ⟨s, live, rfl, usable, rfl⟩
  case bare => intro apart; exact Bool.noConfusion (apart.symm.trans blocks)
  case kind => intro isClose; dsimp only at isClose; rw [isClose] at blocks; cases blocks
  all_goals rfl

theorem kick_moves (c : Core) (t : TaskId) : Moves o c.rest (kick c t).rest :=
  .snoc (.one .flag) (.kicks (n := (c.worker ((c.task t).worker.getD 0)).kicks + 1))

/-- `impl_cancel`. -/
theorem implCancel_spec (sound : Sound p.rest) (up : p.shutdown = false) (held : p.held t = true)
    (allowed : (p.task t).done = false → (p.task t).started = false → o (p.task t).kind rCanceled) :
    Moves o p.rest (p.implCancel t).rest := by
  have submitted : t < p.ntask := sound.lives.bound t held
  unfold implCancel
  split
  · exact .refl _
  · rename_i isOpen
    have isOpen : (p.task t).done = false := by simpa using isOpen
    split
    · rename_i unstarted
      exact (completeUnrun_rest sound up submitted isOpen unstarted (allowed isOpen unstarted)).2.2.2
    · split
      · exact kick_moves p.toCore t
      · exact .refl _

/-- A finished task is freed by its owner. -/
theorem dropHandle_spec (done : (p.task t).done = true) (held : p.held t = true) :
    Moves o p.rest ((p.dropHandle t).on (·.taskFreeMem t)).rest :=
  .one (.free done held)

/-- `impl_task_free`, up to its return or its first wait. -/
theorem implTaskFree_spec (sound : Sound p.rest) (up : p.shutdown = false) (held : p.held t = true)
    (allowed : (p.task t).done = false → (p.task t).started = false → o (p.task t).kind rCanceled) :
    Moves o p.rest (p.implTaskFree t).rest := by
  have submitted : t < p.ntask := sound.lives.bound t held
  unfold implTaskFree
  split
  · rename_i done; exact dropHandle_spec done held
  · rename_i isOpen
    have isOpen : (p.task t).done = false := by simpa using isOpen
    split
    · rename_i unstarted
      obtain ⟨_, advanced, task, moves⟩ := completeUnrun_rest (o := o) sound up submitted isOpen
        unstarted (allowed isOpen unstarted)
      refine moves.trans (dropHandle_spec (by rw [task]; rfl) ?_)
      rw [advanced.rest]
      exact held
    · dsimp only
      split
      · exact kick_moves p.toCore t
      · exact .refl _

/-- `impl_task_free`, woken on `done_cv`. -/
theorem freeOn_spec (held : p.held t = true) : Moves o p.rest (p.freeOn t).rest := by
  unfold freeOn
  split
  · rename_i done; exact dropHandle_spec done held
  · exact .refl _

/-- A socket that nothing pending acts on. -/
theorem unused_of_inUse {c : Core} (free : inUse c s = false) (u : TaskId)
    (pending : c.Pending (fun _ => false) u) : (c.task u).sock ≠ some s := by
  intro sock
  have used : inUse c s = true :=
    List.any_eq_true.mpr ⟨u, List.mem_range.mpr pending.1, by simp [pending.2.1, sock]⟩
  exact Bool.noConfusion (free.symm.trans used)

/-- `impl_task_detach`. -/
theorem implTaskDetach_spec (sound : Sound p.rest) (here : p.gone = false)
    (may : mayDetach p.toCore t = true) : Moves o p.rest (p.implTaskDetach t).rest := by
  simp only [mayDetach, Bool.and_eq_true] at may
  obtain ⟨held, free⟩ := may
  unfold implTaskDetach
  dsimp only
  split
  · rename_i done
    have done : (p.task t).done = true := done
    simp only [done, Bool.not_true, Bool.false_or] at free
    cases ptr : (p.task t).res.ptr with
    | none =>
      have code : ((p.dropHandle t).dropSock ((p.dropHandle t).task t).res.ptr).on (·.reap t) =
          (p.dropHandle t).on (·.taskFreeMem t) := by
        have ptr' : ((p.dropHandle t).task t).res.ptr = none := ptr
        rw [ptr']
        unfold dropSock on
        simp only [reap_of_bare ptr']
      rw [code]
      exact dropHandle_spec done held
    | some s =>
      simp only [ptr, Option.all_some, Bool.and_eq_true, Bool.not_eq_true'] at free
      -- The caller gives the socket up, then the task, and then the socket is closed.
      have unclaim : Move o p.rest ⟨{ p.toCore with claimed := update p.claimed s false }, _, _⟩ :=
        .unclaim free.1
      have freed : Move o ⟨{ p.toCore with claimed := update p.claimed s false }, fun _ => false,
          fun _ => false⟩ ⟨_, _, _⟩ := .free (t := t) done held
      have discard : Move o ⟨_, fun _ => false, fun _ => false⟩ ⟨_, _, _⟩ := .discard (s := s)
        (c := { ({ p.toCore with claimed := update p.claimed s false }).taskFreeMem t with
          held := update p.held t false }) ⟨?_, ?_, ?_⟩
      · have code : ((p.dropHandle t).dropSock ((p.dropHandle t).task t).res.ptr).on (·.reap t) =
            { p with toCore := ({ ({ p.toCore with claimed := update p.claimed s false }).taskFreeMem t
              with held := update p.held t false }).sockDiscard s } := by
          have ptr' : ((p.dropHandle t).task t).res.ptr = some s := ptr
          rw [ptr']
          unfold dropSock on reap
          simp only [ptr']
          rfl
        rw [code]
        exact ((Moves.one unclaim).snoc freed).snoc discard
      · exact sound.claims.ptr_live t s held ptr free.1 here
      · intro u pending
        have task : ∀ v, (({ p.toCore with claimed := update p.claimed s false }.taskFreeMem t).task
            v).sock = (p.task v).sock ∧ (({ p.toCore with
              claimed := update p.claimed s false }.taskFreeMem t).task v).done = (p.task v).done := by
          intro v; simp only [taskFreeMem, modTask, Function.update_apply]; grind
        change (({ p.toCore with claimed := update p.claimed s false }.taskFreeMem t).task u).sock ≠ _
        rw [(task u).1]
        exact unused_of_inUse free.2 u ⟨pending.1, (task u).2 ▸ pending.2.1, rfl⟩
      · refine .inr ⟨by simp [taskFreeMem, modTask], fun u stillHeld delivers => ?_⟩
        have other : u ≠ t := by rintro rfl; simp at stillHeld
        have stillHeld : p.held u = true := by simpa [other] using stillHeld
        have delivers : (p.task u).res.ptr = some s := by
          simpa [taskFreeMem, modTask, other] using delivers
        exact other (sound.claims.ptr_inj u t s (sound.lives.bound u stillHeld)
          (sound.lives.bound t held) delivers ptr)
  · rename_i isOpen
    exact .one (.detach ((Bool.not_eq_true _).mp isOpen) held)

/-- `impl_task_result`. -/
theorem implTaskResult_spec (sound : Sound p.rest) (held : p.held t = true) :
    Moves o p.rest (p.implTaskResult t).rest := by
  unfold implTaskResult
  split
  · rename_i s ptr
    exact .one (.claim (sound.claims.ptr_bound t s (sound.lives.bound t held) ptr)
      (sound.claims.ptr_live t s held ptr))
  · exact .refl _

/-- `impl_tcp_listen`, second half. -/
theorem wrapListener_spec {fd : Fd} (sound : Sound p.rest) (wraps : p.wrapping = some fd)
    (linked : Bool) : Moves o p.rest (p.wrapListener fd linked).rest := by
  have unwrap : Move o p.rest ⟨{ p.toCore with wrapping := none }, _, _⟩ := .unwrap
  have loose := sound.owned.loose_wrapped wraps
  unfold wrapListener
  split
  · have claim : Move o ⟨({ p.toCore with wrapping := none }).sockLink fd, fun _ => false,
        fun _ => false⟩ ⟨_, _, _⟩ :=
      .claim (s := p.nsock) (Nat.lt_succ_self _) fun _ _ => by simp [sockLink]
    exact ((Moves.one unwrap).snoc (.link loose)).snoc claim
  · exact (Moves.one unwrap).snoc (.close loose)

/-! ### Teardown -/

/-- Nobody holds the handle of a detached task. -/
def Orphaned (c : Core) : Prop := ∀ t, (c.task t).detached = true → c.held t = false

theorem orphaned (sound : Sound p.rest) : Orphaned p.toCore := by
  intro t detached
  cases held : p.held t with
  | false => rfl
  | true =>
    have free := (sound.lives.each t (sound.lives.bound t held)).detached detached
    exact held.symm.trans free

theorem Orphaned.drop {c : Core} (orphans : Orphaned c) (t : TaskId) : Orphaned (c.drop t) := by
  intro u detached
  have held : (c.drop t).held = update c.held t false := rfl
  rw [drop_task] at detached
  rw [held]
  by_cases same : u = t
  · subst same; simp
  · simp only [Function.update_of_ne same] at detached ⊢
    exact orphans u detached

theorem drop_shutdown (c : Core) (t : TaskId) : (c.drop t).shutdown = c.shutdown := by
  change ((c.queueRemove t).leaveSock t).shutdown = _
  rw [leaveSock_rest, queueRemove_rest]

/-- Once `shutdown` is set, `complete_unrun` and `reap` drop a task. -/
theorem dropUnrun_down (down : p.shutdown = true) (orphans : Orphaned p.toCore) (t : TaskId) :
    p.dropUnrun t = p.on (·.drop t) := by
  have shared : (p.queueRemove t).leaveSock t = { p.toCore with
      queue := (p.queueRemove t).queue, nqueued := (p.queueRemove t).nqueued
      sock := ((p.queueRemove t).leaveSock t).sock } := by rw [leaveSock_rest, queueRemove_rest]
  have lifted : p.completeUnrun t =
      p.on (fun c => ((c.queueRemove t).leaveSock t).modTask t (settled rCanceled)) := by
    rw [completeUnrun_eq, leave_of_down (by rw [on_toCore, queueRemove_rest]; exact down)]
    rfl
  have task : ((p.queueRemove t).leaveSock t).task t = p.task t := by rw [shared]
  have held : ((p.queueRemove t).leaveSock t).held = p.held := by rw [shared]
  unfold dropUnrun
  cases detached : (p.task t).detached with
  | true =>
    have unheld : update p.held t false = p.held := by
      rw [← orphans t detached, Function.update_eq_self]
    rw [lifted]
    unfold on drop modTask
    simp only [Bool.not_true, Bool.false_eq_true, if_false, unheld, task, held]
    simp only [settled, dropped, detached, if_true]
  | false =>
    have bare : (((p.completeUnrun t).dropHandle t).task t).res.ptr = none := by
      rw [lifted]; simp [dropHandle, modTask, settled]
    rw [Bool.not_false, if_pos rfl]
    have freed : ((p.completeUnrun t).dropHandle t).on (·.reap t) =
        ((p.completeUnrun t).dropHandle t).on (·.taskFreeMem t) := by
      unfold on
      simp only [reap_of_bare bare]
    rw [freed, lifted]
    unfold on dropHandle drop taskFreeMem modTask
    simp [task, held, settled, dropped, detached]

theorem destroyQueue_down (n : Nat) : ∀ {p : Pool}, p.shutdown = true → Orphaned p.toCore →
    destroyQueue n p = p.on (dropQueue n) := by
  induction n with
  | zero => intro p _ _; rfl
  | succ n ih =>
    intro p down orphans
    unfold destroyQueue
    split
    · rename_i empty
      unfold on dropQueue
      rw [empty]
    · rename_i t rest queue
      rw [dropUnrun_down down orphans, ih ((drop_shutdown _ _).trans down) (orphans.drop t)]
      unfold on
      simp only [dropQueue, queue]

theorem destroyFifo_down (l : List TaskId) : ∀ {p : Pool}, p.shutdown = true → Orphaned p.toCore →
    p.destroyFifo l = p.on (·.dropAll l) ∧ (p.dropAll l).shutdown = true ∧ Orphaned (p.dropAll l) := by
  induction l with
  | nil => intro p down orphans; exact ⟨rfl, down, orphans⟩
  | cons t rest ih =>
    intro p down orphans
    have next := @ih (p.on (·.drop t)) ((drop_shutdown _ _).trans down) (orphans.drop t)
    unfold destroyFifo
    rw [dropUnrun_down down orphans]
    exact next

theorem destroyFifos_down (l : List SockId) : ∀ {p : Pool}, p.shutdown = true → Orphaned p.toCore →
    p.destroyFifos l = p.on (·.dropFifos l) := by
  induction l with
  | nil => intro p _ _; rfl
  | cons s rest ih =>
    intro p down orphans
    obtain ⟨same, down', orphans'⟩ := destroyFifo_down (p.unsent s) down orphans
    unfold destroyFifos
    rw [same, ih down' orphans']
    rfl

end Pool

end Myio
