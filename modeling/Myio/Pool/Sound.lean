import Myio.Pool.Marks
import Myio.Pool.Wired

/-! The invariants together, and what no move ever takes back. -/

namespace Myio

open Function (update)
open Core

/-- Everything that holds at every cut. -/
structure Sound (a : Cut) : Prop where
  placed : a.core.Placed a.out a.bare
  counted : a.core.Counted a.out
  lives : a.core.Lives
  linked : a.core.Linked
  claims : a.core.Claims
  owned : a.core.Owned
  closes : a.core.Closes a.out
  phased : a.core.Phased
  wired : a.core.Wired a.out
  marks : a.core.Marks

variable {o : OpKind → Result → Prop}

/-- Every move keeps every invariant. -/
theorem Sound.move {a b : Cut} (sound : Sound a) (move : Move o a b) : Sound b := by
  obtain ⟨c, x, h⟩ := a
  obtain ⟨c', x', h'⟩ := b
  obtain ⟨placed, counted, lives, linked, claims, owned, closes, phased, wired, marks⟩ := sound
  have pending : ∀ w t phase, c.At w t phase → c.Pending x t := fun w t phase at_ =>
    (placed.run_pending w t at_.runs).1
  constructor
  case placed => exact placed.move move linked.bound
  case counted => exact counted.move move placed linked.bound
  case lives =>
    exact lives.move move fun s t live there => ((placed.wq_mem s t live).mp there).1.2.1
  case linked =>
    refine linked.move move fun w t s fd at_ sock => ?_
    obtain ⟨_, there⟩ : c.PhaseOk t (.release fd) := phased w t _ at_
    exact (there s sock).1
  case claims =>
    refine claims.move move lives linked fun w t s at_ sock => ?_
    exact closes.closing t s (pending w t _ at_).1 (phased w t _ at_) sock
  case owned =>
    refine owned.move move (fun w t off at_ => ?_) linked.bound fun w t fd at_ => ?_
    · obtain ⟨isWrite, _⟩ : c.PhaseOk t (.sending off) := phased w t _ at_
      have blocks : opOnSock (c.task t).kind = true := by rw [isWrite]; rfl
      obtain ⟨s, sock, live⟩ := placed.sock_live t (pending w t _ at_) blocks
      exact ⟨s, linked.bound s live, wired.fd t s (pending w t _ at_).1 blocks sock⟩
    · obtain ⟨isClose, there⟩ : c.PhaseOk t (.closeFd fd) := phased w t _ at_
      obtain ⟨s, sock⟩ := closes.close_sock t (pending w t _ at_).1 isClose
      exact ⟨s, closes.sock_bound t s (pending w t _ at_).1 sock, (there s sock).2.2.symm⟩
  case closes => exact closes.move move placed linked owned phased
  case phased => exact phased.move move placed linked owned closes wired.unsent
  case wired => exact wired.move move placed owned closes phased
  case marks => exact marks.move move placed linked

/-- Every critical section keeps every invariant. -/
theorem Sound.moves {a b : Cut} (sound : Sound a) (moves : Moves o a b) : Sound b :=
  moves.preserves (fun _ _ move before => before.move move) sound

namespace Core

/-- What no move takes back: arguments, results, and that a socket is closing. -/
structure Later (c c' : Core) : Prop where
  ntask : c.ntask ≤ c'.ntask
  nsock : c.nsock ≤ c'.nsock
  args : ∀ t, t < c.ntask → (c'.task t).kind = (c.task t).kind ∧
    (c'.task t).sock = (c.task t).sock ∧ (c'.task t).buf = (c.task t).buf
  started : ∀ t, t < c.ntask → (c.task t).started = true → (c'.task t).started = true
  done : ∀ t, t < c.ntask → (c.task t).done = true →
    (c'.task t).done = true ∧ (c'.task t).res = (c.task t).res
  closing : ∀ s, s < c.nsock → (c.sock s).closing = true → (c'.sock s).closing = true
  canceled : ∀ t s, t < c.ntask → s < c.nsock → (c.task t).done = false →
    opOnSock (c.task t).kind → (c.task t).sock = some s → (c.sock s).closing = true →
    (c'.task t).done = true → (c'.task t).res.status = .canceled

namespace Later

variable {c c' c'' : Core}

theorem refl (c : Core) : Later c c where
  ntask := Nat.le_refl _
  nsock := Nat.le_refl _
  args _ _ := ⟨rfl, rfl, rfl⟩
  started _ _ := id
  done _ _ ended := ⟨ended, rfl⟩
  closing _ _ := id
  canceled t s _ _ isOpen _ _ _ ended := by rw [isOpen] at ended; cases ended

theorem trans (first : Later c c') (second : Later c' c'') : Later c c'' := by
  have insideT : ∀ t, t < c.ntask → t < c'.ntask := fun _ less => Nat.lt_of_lt_of_le less first.ntask
  have insideS : ∀ s, s < c.nsock → s < c'.nsock := fun _ less => Nat.lt_of_lt_of_le less first.nsock
  constructor
  case ntask => exact Nat.le_trans first.ntask second.ntask
  case nsock => exact Nat.le_trans first.nsock second.nsock
  case args =>
    intro t inside
    obtain ⟨kind, sock, buf⟩ := first.args t inside
    obtain ⟨kind', sock', buf'⟩ := second.args t (insideT t inside)
    exact ⟨kind'.trans kind, sock'.trans sock, buf'.trans buf⟩
  case started =>
    exact fun t inside before => second.started t (insideT t inside) (first.started t inside before)
  case done =>
    intro t inside before
    obtain ⟨ended, res⟩ := first.done t inside before
    obtain ⟨ended', res'⟩ := second.done t (insideT t inside) ended
    exact ⟨ended', res'.trans res⟩
  case closing =>
    exact fun s made before => second.closing s (insideS s made) (first.closing s made before)
  case canceled =>
    -- The task ends in the first part or in the second, and its result then stays.
    intro t s inside made isOpen blocks sock before ended
    obtain ⟨kind, sock', _⟩ := first.args t inside
    cases middle : (c'.task t).done with
    | true =>
      have := first.canceled t s inside made isOpen blocks sock before middle
      rw [(second.done t (insideT t inside) middle).2]
      exact this
    | false =>
      exact second.canceled t s (insideT t inside) (insideS s made) middle (kind ▸ blocks)
        (sock'.trans sock) (first.closing s made before) ended

/-- A change of one task's record that starts it, or none of what is kept. -/
theorem modTask (t : TaskId) (f : Task → Task) (kind : (f (c.task t)).kind = (c.task t).kind)
    (sock : (f (c.task t)).sock = (c.task t).sock) (buf : (f (c.task t)).buf = (c.task t).buf)
    (started : (c.task t).started = true → (f (c.task t)).started = true)
    (done : (f (c.task t)).done = (c.task t).done) (res : (f (c.task t)).res = (c.task t).res) :
    Later c (c.modTask t f) := by
  have fields : ∀ u, ((c.modTask t f).task u).kind = (c.task u).kind ∧
      ((c.modTask t f).task u).sock = (c.task u).sock ∧
      ((c.modTask t f).task u).buf = (c.task u).buf ∧
      ((c.task u).started = true → ((c.modTask t f).task u).started = true) ∧
      ((c.modTask t f).task u).done = (c.task u).done ∧
      ((c.modTask t f).task u).res = (c.task u).res := by
    intro u; simp only [Core.modTask, Function.update_apply]; grind
  constructor
  case ntask => exact Nat.le_refl _
  case nsock => exact Nat.le_refl _
  case args => exact fun u _ => ⟨(fields u).1, (fields u).2.1, (fields u).2.2.1⟩
  case started => exact fun u _ => (fields u).2.2.2.1
  case done => intro u _ ended; rw [(fields u).2.2.2.2.1]; exact ⟨ended, (fields u).2.2.2.2.2⟩
  case closing => exact fun _ _ => id
  case canceled =>
    intro u _ _ _ isOpen _ _ _ ended
    rw [(fields u).2.2.2.2.1, isOpen] at ended
    cases ended

/-- A change that leaves the tasks alone. -/
theorem same (ntask : c.ntask ≤ c'.ntask) (task : ∀ t, t < c.ntask → c'.task t = c.task t)
    (nsock : c.nsock ≤ c'.nsock)
    (closing : ∀ s, s < c.nsock → (c.sock s).closing = true → (c'.sock s).closing = true) :
    Later c c' := by
  constructor
  case ntask => exact ntask
  case nsock => exact nsock
  case args => intro t inside; rw [task t inside]; exact ⟨rfl, rfl, rfl⟩
  case started => intro t inside; rw [task t inside]; exact id
  case done => intro t inside ended; rw [task t inside]; exact ⟨ended, rfl⟩
  case closing => exact closing
  case canceled =>
    intro t _ inside _ isOpen _ _ _ ended
    rw [task t inside, isOpen] at ended
    cases ended

/-- A task ends, canceled if its socket is closing. -/
theorem settle {t : TaskId} {res : Result} (f : Sock → Sock) (s : SockId)
    (closing : (f (c.sock s)).closing = (c.sock s).closing) (isOpen : (c.task t).done = false)
    (result : opOnSock (c.task t).kind → ∀ s, (c.task t).sock = some s →
      (c.sock s).closing = true → res.status = .canceled) :
    Later c ((c.modSock s f).modTask t (settled res)) := by
  have fields : ∀ u, u ≠ t → ((c.modSock s f).modTask t (settled res)).task u = c.task u := by
    intro u other; simp [Core.modTask, modSock, other]
  have self : ((c.modSock s f).modTask t (settled res)).task t = settled res (c.task t) := by
    simp [Core.modTask, modSock]
  constructor
  case ntask => exact Nat.le_refl _
  case nsock => exact Nat.le_refl _
  case args =>
    intro u _
    by_cases isT : u = t
    · subst isT; rw [self]; exact ⟨rfl, rfl, rfl⟩
    · rw [fields u isT]; exact ⟨rfl, rfl, rfl⟩
  case started =>
    intro u _
    by_cases isT : u = t
    · subst isT; rw [self]; exact id
    · rw [fields u isT]; exact id
  case done =>
    intro u _ ended
    have isT : u ≠ t := by rintro rfl; simp [isOpen] at ended
    rw [fields u isT]; exact ⟨ended, rfl⟩
  case closing =>
    intro u _
    simp only [Core.modTask, modSock, Function.update_apply]
    grind
  case canceled =>
    intro u v _ _ isOpen' blocks sock isClosing ended
    by_cases isT : u = t
    · subst isT; rw [self]; exact result blocks v sock isClosing
    · rw [fields u isT, isOpen'] at ended; cases ended

end Later

/-- No move takes anything back. -/
theorem Later.move {c c' : Core} {x x' : TaskId → Bool} {h h' : SockId → Bool}
    (move : Move o ⟨c, x, h⟩ ⟨c', x', h'⟩) (sound : Sound ⟨c, x, h⟩) : Later c c' := by
  have refl : ∀ t, t < c.ntask → c.task t = c.task t := fun _ _ => rfl
  cases move with
  | stir stirred => rw [stirred.rest]; exact .same (Nat.le_refl _) refl (Nat.le_refl _) fun _ _ => id
  | exit pending unstarted =>
    rw [leaveSock_rest, queueRemove_rest]
    exact .same (Nat.le_refl _) refl (Nat.le_refl _) fun s _ => by rw [leaveSock_sock]; exact id
  | exitRun at_ pending =>
    rw [leaveSock_rest]
    exact .same (Nat.le_refl _) refl (Nat.le_refl _) fun s _ => by rw [leaveSock_sock]; exact id
  | settle submitted open_ out settles allowed =>
    rename_i t res
    have ended : Later c ((c.modSock 0 id).modTask t (settled res)) :=
      .settle id 0 rfl open_ settles.closing
    refine ended.trans (.same (Nat.le_refl _) (fun _ _ => ?_) (Nat.le_refl _) fun _ _ => ?_)
    · rfl
    · simp [modSock, Core.modTask, Core.settle]
  | fail live bare usable wq =>
    rename_i s n rest
    obtain ⟨pending, kind, sock⟩ := (sound.placed.wq_mem s n live).mp (by simp [wq])
    rw [failHead_eq]
    refine .settle _ s rfl pending.2.1 fun _ u there isClosing => ?_
    obtain rfl : s = u := Option.some.inj (sock.symm.trans there)
    rw [usable] at isClosing
    cases isClosing
  | create fresh =>
    refine .same (Nat.le_succ _) (fun t inside => ?_) (Nat.le_refl _) fun _ _ => id
    simp [taskNew, Function.update_of_ne (Nat.ne_of_lt inside)]
  | createClose live open_ mine =>
    refine .same (Nat.le_succ _) (fun t inside => ?_) (Nat.le_refl _) fun s _ => ?_
    · simp [taskNew, modSock, Function.update_of_ne (Nat.ne_of_lt inside)]
    · simp only [taskNew, modSock, Function.update_apply]; grind
  | enqueue submitted open_ unstarted out kind live onSock =>
    split
    · refine .same (Nat.le_refl _) refl (Nat.le_refl _) fun s _ => ?_
      simp only [queuePush, inflightInc, modSock, Function.update_apply]; grind
    · exact .same (Nat.le_refl _) refl (Nat.le_refl _) fun _ _ => id
  | park submitted open_ unstarted out kind sock live usable =>
    refine .same (Nat.le_refl _) refl (Nat.le_refl _) fun s _ => ?_
    simp only [inflightInc, modSock, Function.update_apply]; grind
  | take queue inside free =>
    rename_i w t rest
    exact (Later.modTask t (fun k => { k with started := true, worker := some w }) rfl rfl rfl
      (fun _ => rfl) rfl rfl).trans (.same (Nat.le_refl _) (fun _ _ => rfl) (Nat.le_refl _) fun _ _ => id)
  | flag => exact .modTask _ _ rfl rfl rfl id rfl rfl
  | send at_ fits =>
    rename_i w t off n
    exact (Later.modTask t (fun k => { k with sent := off + n }) rfl rfl rfl id rfl rfl).trans
      (.same (Nat.le_refl _) (fun _ _ => rfl) (Nat.le_refl _) fun _ _ => id)
  | link loose =>
    refine .same (Nat.le_refl _) refl (Nat.le_succ _) fun s made => ?_
    simp only [sockLink, Function.update_of_ne (Nat.ne_of_lt made)]
    exact id
  | discard unused =>
    refine .same (Nat.le_refl _) refl (Nat.le_refl _) fun s _ => ?_
    simp only [sockDiscard, sockFree, modSock, closeDesc, modDesc, sockUnlink,
      Function.update_apply]
    grind
  | freeSock at_ sock =>
    refine .same (Nat.le_refl _) refl (Nat.le_refl _) fun s _ => ?_
    simp only [setPc, modWorker, sockFree, modSock, Function.update_apply]; grind
  | detach open_ held =>
    rename_i t
    exact (Later.modTask t ({ · with detached := true }) rfl rfl rfl id rfl rfl).trans
      (.same (Nat.le_refl _) (fun _ _ => rfl) (Nat.le_refl _) fun _ _ => id)
  | free done held =>
    rename_i t
    exact (Later.modTask t (fun k => { k with frees := k.frees + 1 }) rfl rfl rfl id rfl rfl).trans
      (.same (Nat.le_refl _) (fun _ _ => rfl) (Nat.le_refl _) fun _ _ => id)
  | sweep idle =>
    rw [closeSocks_rest]
    exact .same (Nat.le_refl _) refl (Nat.le_refl _) fun s _ before =>
      (closeSocks_closing c c.socks s).trans before
  | _ => exact .same (Nat.le_refl _) refl (Nat.le_refl _) fun _ _ => id

/-- No critical section takes anything back. -/
theorem Later.moves {a b : Cut} (moves : Moves o a b) (sound : Sound a) : Later a.core b.core := by
  induction moves with
  | refl => exact .refl _
  | snoc before move ih => exact ih.trans (Later.move move (sound.moves before))

/-- No handle comes back to the caller. -/
theorem unheld_move {c c' : Core} {x x' : TaskId → Bool} {h h' : SockId → Bool} {t : TaskId}
    (move : Move o ⟨c, x, h⟩ ⟨c', x', h'⟩) (inside : t < c.ntask) (unheld : c.held t = false) :
    c'.held t = false := by
  cases move with
  | stir stirred => rw [stirred.rest]; exact unheld
  | exit pending unstarted => rw [leaveSock_rest, queueRemove_rest]; exact unheld
  | exitRun at_ pending => rw [leaveSock_rest]; exact unheld
  | fail live bare usable wq => rw [failHead_eq]; exact unheld
  | create fresh => simp [taskNew, Function.update_of_ne (Nat.ne_of_lt inside), unheld]
  | createClose live open_ mine =>
    simp [taskNew, modSock, Function.update_of_ne (Nat.ne_of_lt inside), unheld]
  | enqueue submitted open_ unstarted out kind live onSock => split <;> exact unheld
  | detach open_ held => simp [Function.update_apply, unheld]
  | free done held => simp [Function.update_apply, unheld]
  | sweep idle => rw [closeSocks_rest]; exact unheld
  | _ => exact unheld

theorem unheld_moves {a b : Cut} {t : TaskId} (moves : Moves o a b) (sound : Sound a)
    (inside : t < a.core.ntask) (unheld : a.core.held t = false) : b.core.held t = false := by
  induction moves with
  | refl => exact unheld
  | snoc before move ih =>
    exact unheld_move move (Nat.lt_of_lt_of_le inside (Later.moves before sound).ntask) ih

end Core

end Myio
