import Myio.Pool.Closes

/-! What a worker can rely on in each phase of the task it runs. -/

namespace Myio.Core

open Function (update)

variable {o : OpKind → Result → Prop} {c c' : Core} {x x' : TaskId → Bool}
  {h h' : SockId → Bool}

/-- Sockets that are off the list stay as they are, but for the number of their closes. -/
def Settled (c c' : Core) (s : SockId) : Prop :=
  s ∉ c.socks → s ∉ c'.socks ∧ (c'.sock s).frees = (c.sock s).frees ∧
    (c'.sock s).fd = (c.sock s).fd ∧ (c.desc (c.sock s).fd).closes ≤ (c'.desc (c.sock s).fd).closes

/-- A phase is kept when the task's arguments are, and its socket if it is off the list. -/
theorem PhaseOk.congr {t : TaskId} {phase : Phase} (kept : c.PhaseOk t phase)
    (kind : (c'.task t).kind = (c.task t).kind) (buf : (c'.task t).buf = (c.task t).buf)
    (sent : (c'.task t).sent = (c.task t).sent) (sock : (c'.task t).sock = (c.task t).sock)
    (settled : ∀ s, (c.task t).kind = .opSockClose → (c.task t).sock = some s → c.Settled c' s) :
    c'.PhaseOk t phase := by
  cases phase
  case release fd =>
    obtain ⟨isClose, there⟩ := kept
    refine ⟨kind.trans isClose, fun s isSock => ?_⟩
    rw [sock] at isSock
    obtain ⟨outside, unfreed, isFd⟩ := there s isSock
    obtain ⟨outside', frees, fd', _⟩ := settled s isClose isSock outside
    exact ⟨outside', frees.trans unfreed, isFd.trans fd'.symm⟩
  case closeFd fd =>
    obtain ⟨isClose, there⟩ := kept
    refine ⟨kind.trans isClose, fun s isSock => ?_⟩
    rw [sock] at isSock
    obtain ⟨outside, freed, isFd⟩ := there s isSock
    obtain ⟨outside', frees, fd', _⟩ := settled s isClose isSock outside
    exact ⟨outside', frees.trans freed, isFd.trans fd'.symm⟩
  case commitClose =>
    obtain ⟨isClose, there⟩ := kept
    refine ⟨kind.trans isClose, fun s isSock => ?_⟩
    rw [sock] at isSock
    obtain ⟨outside, freed, shut⟩ := there s isSock
    obtain ⟨outside', frees, fd', more⟩ := settled s isClose isSock outside
    exact ⟨outside', frees.trans freed, by rw [fd']; exact Nat.lt_of_lt_of_le shut more⟩
  all_goals (simp only [PhaseOk, kind, buf, sent] at kept ⊢; exact kept)

/-- What the tasks the workers run may not lose. -/
structure Kept (c c' : Core) (t : TaskId) : Prop where
  kind : (c'.task t).kind = (c.task t).kind
  buf : (c'.task t).buf = (c.task t).buf
  sent : (c'.task t).sent = (c.task t).sent
  sock : (c'.task t).sock = (c.task t).sock
  settled : ∀ s, (c.task t).kind = .opSockClose → (c.task t).sock = some s → c.Settled c' s

/-- A step that moves no worker into a task keeps every phase. -/
theorem Phased.congr (phased : c.Phased) (at_ : ∀ w t phase, c'.At w t phase → c.At w t phase)
    (kept : ∀ w t phase, c.At w t phase → c.Kept c' t) : c'.Phased := by
  intro w t phase there
  have before := at_ w t phase there
  obtain ⟨kind, buf, sent, sock, settled⟩ := kept w t phase before
  exact (phased w t phase before).congr kind buf sent sock settled

/-- A worker's own move: its new phase is checked, the others keep theirs. -/
theorem Phased.setPc (phased : c.Phased) {w : WorkerId} {t : TaskId} {target : Phase}
    (new : c.PhaseOk t target) : (c.setPc w (.running t target)).Phased := by
  intro v u phase there
  have before : c.PhaseOk u phase := by
    rw [setPc_at] at there
    split at there
    · have := there.2
      simp only [Pc.running.injEq] at this
      obtain ⟨rfl, rfl⟩ := this
      exact new
    · exact phased v u phase there
  exact before.congr rfl rfl rfl rfl fun _ _ _ outside => ⟨outside, rfl, rfl, Nat.le_refl _⟩

/-- A change of the queue, the caller or the counters keeps every phase. -/
theorem Phased.same (phased : c.Phased) (nworker : c'.nworker = c.nworker)
    (worker : ∀ w, (c'.worker w).pc = (c.worker w).pc) (task : c'.task = c.task)
    (socks : c'.socks = c.socks)
    (sock : ∀ s, (c'.sock s).frees = (c.sock s).frees ∧ (c'.sock s).fd = (c.sock s).fd)
    (bound : ∀ w t s phase, c.At w t phase → (c.task t).sock = some s → (c.sock s).fd < c.ndesc)
    (desc : ∀ fd, fd < c.ndesc → (c.desc fd).closes ≤ (c'.desc fd).closes) : c'.Phased := by
  refine phased.congr (fun w t phase => by simp [At, nworker, worker]) fun w t phase there => ?_
  refine ⟨by rw [task], by rw [task], by rw [task], by rw [task], fun s _ isSock outside => ?_⟩
  exact ⟨by rw [socks]; exact outside, (sock s).1, (sock s).2, desc _ (bound w t s phase there isSock)⟩

/-- A change inside one task's record that leaves its arguments alone. -/
theorem Phased.modTask (phased : c.Phased) (t : TaskId) (f : Task → Task)
    (kind : (f (c.task t)).kind = (c.task t).kind) (buf : (f (c.task t)).buf = (c.task t).buf)
    (sent : (f (c.task t)).sent = (c.task t).sent) (sock : (f (c.task t)).sock = (c.task t).sock) :
    (c.modTask t f).Phased := by
  refine phased.congr (fun _ _ _ => id) fun w u phase there => ?_
  constructor
  case settled => exact fun _ _ _ outside => ⟨outside, rfl, rfl, Nat.le_refl _⟩
  all_goals simp only [Core.modTask, Function.update_apply]; grind

/-- A socket that is off the list is settled by any change of the others. -/
theorem Settled.of_others {s u : SockId} (live : s ∈ c.socks)
    (socks : ∀ v, v ∈ c'.socks → v ∈ c.socks) (sock : ∀ v, v ≠ s → c'.sock v = c.sock v)
    (desc : ∀ fd, (c.desc fd).closes ≤ (c'.desc fd).closes) : c.Settled c' u := by
  intro outside
  have other : u ≠ s := fun same => outside (same ▸ live)
  rw [sock u other]
  exact ⟨fun there => outside (socks u there), rfl, rfl, desc _⟩

/-- Every move keeps the workers' phases in order. -/
theorem Phased.move (move : Move o ⟨c, x, h⟩ ⟨c', x', h'⟩) (phased : c.Phased)
    (placed : c.Placed x h) (linked : c.Linked) (owned : c.Owned) (closes : c.Closes x)
    (unsent : ∀ t, t < c.ntask → (c.task t).started = false → (c.task t).sent = 0) :
    c'.Phased := by
  have pending : ∀ w t phase, c.At w t phase → c.Pending x t := fun w t phase at_ =>
    (placed.run_pending w t at_.runs).1
  have made : ∀ w t s phase, c.At w t phase → (c.task t).sock = some s → s < c.nsock :=
    fun w t s phase at_ sock => closes.sock_bound t s (pending w t phase at_).1 sock
  have bound : ∀ w t s phase, c.At w t phase → (c.task t).sock = some s →
    (c.sock s).fd < c.ndesc := fun w t s phase at_ sock =>
      owned.sock_bound s (made w t s phase at_ sock)
  have still : ∀ fd, fd < c.ndesc → (c.desc fd).closes ≤ (c.desc fd).closes :=
    fun _ _ => Nat.le_refl _
  cases move with
  | stir stirred =>
    have pcs := stirred.pcs
    rw [stirred.rest] at pcs ⊢
    refine phased.congr (fun w t phase => (pcs w t phase).mp) fun w t phase there => ?_
    exact ⟨rfl, rfl, rfl, rfl, fun _ _ _ outside => ⟨outside, rfl, rfl, Nat.le_refl _⟩⟩
  | exit pending unstarted =>
    rw [leaveSock_rest, queueRemove_rest]
    exact phased.same rfl (fun _ => rfl) rfl rfl (fun s => by rw [leaveSock_sock]; exact ⟨rfl, rfl⟩)
      bound still
  | exitRun at_ pending =>
    rename_i w t phase
    rw [leaveSock_rest]
    refine phased.congr (fun v u phase there => ?_) fun v u phase there => ?_
    · have there := (setPc_at c w v .ready u phase).mp there
      split at there
      · cases there.2
      · exact there
    · refine ⟨rfl, rfl, rfl, rfl, fun s _ _ outside => ⟨outside, ?_, ?_, Nat.le_refl _⟩⟩ <;>
        rw [leaveSock_sock] <;> rfl
  | settle submitted open_ out settles allowed =>
    rename_i t res
    have counted : Phased { c with nrunning := if (c.task t).started then c.nrunning - 1
      else c.nrunning } :=
      phased.same rfl (fun _ => rfl) rfl rfl (fun _ => ⟨rfl, rfl⟩) bound still
    exact counted.modTask t _ rfl rfl rfl rfl
  | fail live bare usable wq =>
    rename_i s n rest
    rw [failHead_eq]
    have popped : (c.modSock s fun k =>
        { k with wq := k.wq.tail, inflight := k.inflight - 1 }).Phased := by
      refine phased.same rfl (fun _ => rfl) rfl rfl (fun u => ?_) bound still
      simp only [modSock, Function.update_apply]; grind
    exact popped.modTask n _ rfl rfl rfl rfl
  | create fresh =>
    refine phased.congr (fun _ _ _ => id) fun w t phase there => ?_
    have old : t ≠ c.ntask := Nat.ne_of_lt (pending w t phase there).1
    constructor
    case settled => exact fun _ _ _ outside => ⟨outside, rfl, rfl, Nat.le_refl _⟩
    all_goals simp [taskNew, old]
  | createClose live open_ mine =>
    rename_i s
    refine phased.congr (fun _ _ _ => id) fun w t phase there => ?_
    have old : t ≠ c.ntask := Nat.ne_of_lt (pending w t phase there).1
    constructor
    case settled =>
      refine fun u _ _ outside => ⟨outside, ?_, ?_, ?_⟩ <;>
        simp only [taskNew, modSock, Function.update_apply] <;> grind
    all_goals simp [taskNew, modSock, old]
  | enqueue submitted open_ unstarted out kind live onSock =>
    split
    · refine phased.same rfl (fun _ => rfl) rfl rfl (fun s => ?_) bound still
      simp only [queuePush, inflightInc, modSock, Function.update_apply]; grind
    · exact phased.same rfl (fun _ => rfl) rfl rfl (fun _ => ⟨rfl, rfl⟩) bound still
  | park submitted open_ unstarted out kind sock live usable =>
    refine phased.same rfl (fun _ => rfl) rfl rfl (fun s => ?_) bound still
    simp only [inflightInc, modSock, Function.update_apply]; grind
  | take queue inside free =>
    rename_i w t rest
    have taken : Phased { c with queue := rest, nqueued := c.nqueued - 1
                                 nrunning := c.nrunning + 1 } :=
      phased.same rfl (fun _ => rfl) rfl rfl (fun _ => ⟨rfl, rfl⟩) bound still
    refine (taken.modTask t (fun k => { k with started := true, worker := some w }) rfl rfl rfl
      rfl).setPc ?_
    obtain ⟨waiting, unstarted⟩ := placed.queue_pending t (by simp [queue])
    simpa [PhaseOk, Core.modTask] using unsent t waiting.1 unstarted
  | phase at_ plain plain' kept => exact phased.setPc kept
  | flag => exact phased.modTask _ _ rfl rfl rfl rfl
  | kicks =>
    refine phased.same rfl (fun v => ?_) rfl rfl (fun _ => ⟨rfl, rfl⟩) bound still
    simp only [modWorker, Function.update_apply]; grind
  | win at_ plain kept =>
    have given : c.newDesc.Phased := by
      refine phased.same rfl (fun _ => rfl) rfl rfl (fun _ => ⟨rfl, rfl⟩) bound fun fd less => ?_
      simp [newDesc, Function.update_of_ne (Nat.ne_of_lt less)]
    exact given.setPc kept
  | send at_ fits =>
    rename_i w t off n
    have sent : c.PhaseOk t (.sending off) := phased w t _ at_
    obtain ⟨kind, isOff, inside⟩ := sent
    intro v u phase there
    have there := (setPc_at _ w v _ u phase).mp there
    split at there
    · -- The sender itself: it has come as far as the task says.
      have := there.2
      simp only [Pc.running.injEq] at this
      obtain ⟨rfl, rfl⟩ := this
      simp only [PhaseOk, Pool.sendBytes, Core.setPc, modWorker, Core.modTask, modDesc,
        Function.update_self]
      exact ⟨kind, trivial, by omega⟩
    · -- Another worker runs another task.
      rename_i differs
      have before : c.At v u phase := there
      have other : u ≠ t := by
        rintro rfl
        exact differs (placed.run_inj v w u before.runs at_.runs)
      refine (phased v u phase before).congr ?_ ?_ ?_ ?_ fun s _ _ outside => ⟨outside, rfl, rfl, ?_⟩
      all_goals simp only [Pool.sendBytes, Core.setPc, modWorker, Core.modTask, modDesc,
        Function.update_of_ne other]
      simp only [Function.update_apply]
      grind
  | link loose =>
    refine phased.congr (fun _ _ _ => id) fun w t phase there => ?_
    refine ⟨rfl, rfl, rfl, rfl, fun s _ sock outside => ?_⟩
    have old : s ≠ c.nsock := Nat.ne_of_lt (made w t s phase there sock)
    refine ⟨?_, ?_, ?_, Nat.le_refl _⟩
    · intro live
      rcases List.mem_cons.mp live with same | live
      · exact old same
      · exact outside live
    all_goals simp [sockLink, old]
  | close loose =>
    refine phased.same rfl (fun _ => rfl) rfl rfl (fun _ => ⟨rfl, rfl⟩) bound fun fd _ => ?_
    simp only [closeDesc, modDesc, Function.update_apply]; grind
  | discard unused =>
    rename_i s
    refine phased.congr (fun _ _ _ => id) fun w t phase there => ?_
    refine ⟨rfl, rfl, rfl, rfl, fun u _ _ => Settled.of_others unused.live ?_ ?_ ?_⟩
    · exact fun v live => List.mem_of_mem_erase live
    · intro v other
      simp [sockDiscard, sockFree, modSock, closeDesc, modDesc, sockUnlink, other]
    · intro fd
      simp only [sockDiscard, sockFree, modSock, closeDesc, modDesc, sockUnlink,
        Function.update_apply]
      grind
  | unlink at_ sock unused =>
    rename_i w t s
    have isClose : (c.task t).kind = .opSockClose := phased w t _ at_
    have unlinked : (c.sockUnlink s).Phased := by
      refine phased.congr (fun _ _ _ => id) fun v u phase there => ?_
      exact ⟨rfl, rfl, rfl, rfl, fun v _ _ outside =>
        ⟨fun live => outside (List.mem_of_mem_erase live), rfl, rfl, Nat.le_refl _⟩⟩
    refine unlinked.setPc ⟨isClose, fun u isSock => ?_⟩
    obtain rfl : s = u := Option.some.inj (sock.symm.trans isSock)
    refine ⟨fun live => ((linked.mem_unlink s s).mp live).1 rfl, ?_, rfl⟩
    -- The task is still at work on the socket, so nobody else can have unlinked it.
    rcases closes.close_live t s (pending w t _ at_) isClose sock with live | ⟨v, there⟩
    · exact linked.unfreed s live
    · obtain ⟨phase, there, unlinked⟩ := there
      obtain rfl := placed.run_inj v w t there.runs at_.runs
      have := there.2.symm.trans at_.2
      simp only [Pc.running.injEq] at this
      simp [this.2, Phase.unlinked] at unlinked
  | freeSock at_ sock =>
    rename_i w t s fd
    obtain ⟨isClose, there⟩ : c.PhaseOk t (.release fd) := phased w t _ at_
    obtain ⟨outside, unfreed, isFd⟩ := there s sock
    intro v u phase there
    have there := (setPc_at _ w v _ u phase).mp there
    split at there
    · have := there.2
      simp only [Pc.running.injEq] at this
      obtain ⟨rfl, rfl⟩ := this
      refine ⟨isClose, fun u isSock => ?_⟩
      obtain rfl : s = u := Option.some.inj (sock.symm.trans isSock)
      refine ⟨outside, ?_, ?_⟩ <;> simp [Core.setPc, modWorker, sockFree, modSock, unfreed, isFd]
    · rename_i differs
      have before : c.At v u phase := there
      have other : u ≠ t := by
        rintro rfl
        exact differs (placed.run_inj v w u before.runs at_.runs)
      refine (phased v u phase before).congr rfl rfl rfl rfl fun s' isClose' sock' outside' => ?_
      have elsewhere : s' ≠ s := by
        rintro rfl
        exact other (closes.close_inj u t s' (pending v u phase before).1 (pending w t _ at_).1
          isClose' isClose sock' sock)
      refine ⟨outside', ?_, ?_, Nat.le_refl _⟩ <;>
        simp [Core.setPc, modWorker, sockFree, modSock, elsewhere]
  | closeFd at_ =>
    rename_i w t fd
    obtain ⟨isClose, there⟩ : c.PhaseOk t (.closeFd fd) := phased w t _ at_
    have closed : (c.closeDesc fd).Phased := by
      refine phased.same rfl (fun _ => rfl) rfl rfl (fun _ => ⟨rfl, rfl⟩) bound fun fd _ => ?_
      simp only [closeDesc, modDesc, Function.update_apply]; grind
    refine closed.setPc ⟨isClose, fun s sock => ?_⟩
    obtain ⟨outside, freed, isFd⟩ := there s sock
    exact ⟨outside, freed, by simp [closeDesc, modDesc, isFd]⟩
  | detach open_ held =>
    rename_i t
    have dropped : Phased { c with held := update c.held t false } :=
      phased.same rfl (fun _ => rfl) rfl rfl (fun _ => ⟨rfl, rfl⟩) bound still
    exact dropped.modTask t ({ · with detached := true }) rfl rfl rfl rfl
  | free done held =>
    rename_i t
    have dropped : Phased { c with held := update c.held t false } :=
      phased.same rfl (fun _ => rfl) rfl rfl (fun _ => ⟨rfl, rfl⟩) bound still
    exact dropped.modTask t (fun k => { k with frees := k.frees + 1 }) rfl rfl rfl rfl
  | wrap free =>
    refine phased.same rfl (fun _ => rfl) rfl rfl (fun _ => ⟨rfl, rfl⟩) bound fun fd less => ?_
    simp [newDesc, Function.update_of_ne (Nat.ne_of_lt less)]
  | sweep idle =>
    intro w t phase there
    rw [closeSocks_rest] at there
    exact absurd (pending w t phase there) (idle t)
  | _ => exact phased.same rfl (fun _ => rfl) rfl rfl (fun _ => ⟨rfl, rfl⟩) bound still

end Myio.Core
