import Myio.ZLoop.Writes

/-! The remaining calls of the Zephyr event loop, and the turns of the loop, as moves. -/

namespace Myio.Loop

open Function (update)
open Loop.Core

namespace ZIo

variable {c : Core} {x : TaskId → Bool} {h : SockId → Bool} {t u : TaskId} {s : SockId}
  {e : Result}

/-- A task that won no socket is completed by one write. -/
theorem taskComplete_plain (ptr : e.ptr = none) :
    taskComplete c t e = (c.disarm t).settle t e := by
  unfold taskComplete
  rw [finish_reapIfDetached, reaped_plain _ _ ptr]

/-! ### Closing a socket -/

/-- What closing a socket leaves alone while it completes what is outstanding. -/
structure Leaves (c d : Core) (x : TaskId → Bool) (s : SockId) : Prop where
  socks : d.socks = c.socks
  claimed : d.claimed = c.claimed
  shut : d.shut = c.shut
  task : ∀ u, x u = true ∨ (c.task u).sock ≠ some s → d.task u = c.task u

theorem Leaves.refl (c : Core) : Leaves c c x s := ⟨rfl, rfl, rfl, fun _ _ => rfl⟩

theorem Leaves.trans {c d e : Core} (first : Leaves c d x s) (second : Leaves d e x s) :
    Leaves c e x s := by
  refine ⟨second.socks.trans first.socks, second.claimed.trans first.claimed,
    second.shut.trans first.shut, fun u out => ?_⟩
  have same := first.task u out
  exact (second.task u (by rw [same]; exact out)).trans same

/-- Completing a pending task leaves those in hand alone. -/
theorem Leaves.complete {f : Sock → Sock} (pending : c.Pending x t)
    (sock : (c.task t).sock = some s) (ptr : e.ptr = none) :
    Leaves c (taskComplete (c.modSock s f) t e) x s := by
  rw [taskComplete_plain ptr]
  refine ⟨rfl, rfl, rfl, fun u out => ?_⟩
  have other : u ≠ t := by rintro rfl; simp [pending.2.2, sock] at out
  simp [settle, modTask, disarm, modSock, other]

/-- A socket after a task has been completed that did not win one. -/
theorem taskComplete_sock {f : Sock → Sock} (ptr : e.ptr = none) :
    (taskComplete (c.modSock s f) t e).sock s = f (c.sock s) := by
  rw [taskComplete_plain ptr]
  simp [settle, modTask, disarm, modSock]

/-- The loop of `impl_sock_close` over the FIFO. -/
theorem cancelWrites_spec (l : List TaskId) : ∀ {c : Core} {h : SockId → Bool},
    Sound calm ⟨c, x, h⟩ → s ∈ c.socks → (c.sock s).wq = l →
    Moves firm ⟨c, x, h⟩ ⟨cancelWrites c s l, x, h⟩ ∧ Leaves c (cancelWrites c s l) x s ∧
      (cancelWrites c s l).sock s = { c.sock s with wq := [] } := by
  induction l with
  | nil =>
    intro c h sound live wq
    refine ⟨.refl _, .refl c, ?_⟩
    change c.sock s = _
    cases isSock : c.sock s
    simp_all
  | cons w rest ih =>
    intro c h sound live wq
    have popped := writePop_moves (r := firm) sound live wq (e := rCanceled) (by simp) (by simp)
      (by simp) (by simp [firm])
    have pending := (head_first sound live wq).1
    have sockW := ((sound.placed.fifo s w live).mp (by simp [wq])).2.2
    have leaves : Leaves c (writePop c s w rCanceled) x s := Leaves.complete pending sockW (by simp)
    have sock : (writePop c s w rCanceled).sock s = { c.sock s with wq := rest } := by
      refine (taskComplete_sock (by simp)).trans ?_
      simp [wqPop, wq]
    obtain ⟨moves, later, empty⟩ := ih (sound_after sound rfl popped) (by rw [leaves.socks]; exact live)
      (by rw [sock])
    unfold cancelWrites
    refine ⟨(popped.trans moves).snoc (.headed fun u inside differs => ?_), leaves.trans later,
      empty.trans (by rw [sock])⟩
    -- Only this socket's FIFO was bare in between, and it is empty now.
    have isS : u = s := by by_contra other; simp [other] at differs
    rw [isS]
    change ((cancelWrites _ s rest).sock s).wq = []
    rw [empty]

/-- `impl_sock_close`, as far as the outstanding read. -/
theorem cancelRead_spec (sound : Sound calm ⟨c, x, h⟩) (live : s ∈ c.socks) :
    Moves firm ⟨c, x, h⟩ ⟨cancelRead c s, x, h⟩ ∧ Leaves c (cancelRead c s) x s ∧
      (cancelRead c s).sock s = { c.sock s with readTask := none } := by
  unfold cancelRead
  cases reader : (c.sock s).readTask with
  | none =>
    refine ⟨.refl _, .refl c, ?_⟩
    cases isSock : c.sock s
    simp_all
  | some rt =>
    obtain ⟨pending, kind, sock⟩ := (sound.placed.read s rt live).mp reader
    exact ⟨firm_of_steady (steady_of_calm (complete_read sound pending kind sock (by simp) (by simp))),
      Leaves.complete pending sock (by simp), taskComplete_sock (by simp)⟩

/-- `impl_sock_close`, as far as the outstanding accept. -/
theorem cancelAccept_spec (sound : Sound calm ⟨c, x, h⟩) (live : s ∈ c.socks) :
    Moves firm ⟨c, x, h⟩ ⟨cancelAccept c s, x, h⟩ ∧ Leaves c (cancelAccept c s) x s ∧
      (cancelAccept c s).sock s = { c.sock s with acceptTask := none } := by
  unfold cancelAccept
  cases accepter : (c.sock s).acceptTask with
  | none =>
    refine ⟨.refl _, .refl c, ?_⟩
    cases isSock : c.sock s
    simp_all
  | some at_ =>
    obtain ⟨pending, kind, sock⟩ := (sound.placed.accept s at_ live).mp accepter
    exact ⟨firm_of_steady (steady_of_calm (complete_accept sound pending kind sock (by simp) (by simp))),
      Leaves.complete pending sock (by simp), taskComplete_sock (by simp)⟩

/-- What is outstanding on a socket is completed, and nothing is left in its slots and its FIFO. -/
theorem cancelAll_spec (sound : Sound calm ⟨c, x, h⟩) (live : s ∈ c.socks) :
    Moves firm ⟨c, x, h⟩ ⟨cancelAll c s, x, h⟩ ∧ Leaves c (cancelAll c s) x s ∧
      (cancelAll c s).sock s = { c.sock s with readTask := none, acceptTask := none, wq := [] } := by
  obtain ⟨readMoves, readLeaves, readSock⟩ := cancelRead_spec sound live
  have soundD := sound_after sound rfl readMoves
  have liveD : s ∈ (cancelRead c s).socks := by rw [readLeaves.socks]; exact live
  obtain ⟨acceptMoves, acceptLeaves, acceptSock⟩ := cancelAccept_spec soundD liveD
  have soundE := sound_after soundD rfl acceptMoves
  obtain ⟨moves, leaves, sock⟩ := cancelWrites_spec _ soundE
    (by rw [acceptLeaves.socks]; exact liveD) rfl
  refine ⟨(readMoves.trans acceptMoves).trans moves, (readLeaves.trans acceptLeaves).trans leaves, ?_⟩
  refine sock.trans ?_
  rw [acceptSock, readSock]

/-- A socket of the caller's with nothing in its slots and its FIFO is not used. -/
theorem unused_of_empty (sound : Sound calm ⟨c, x, h⟩) (live : s ∈ c.socks)
    (mine : c.claimed s = true) (reader : (c.sock s).readTask = none)
    (accepter : (c.sock s).acceptTask = none) (wq : (c.sock s).wq = []) : c.Unused x s := by
  refine ⟨live, fun u pending refers => ?_⟩
  have fits := sound.shaped u pending
  have newsock : (c.task u).newsock = none := by
    unfold Rules.Fits calm zShape at fits
    cases kind : (c.task u).kind <;> simp [kind] at fits <;> grind
  have sock : (c.task u).sock = some s := by
    unfold Refers at refers
    rw [newsock] at refers
    simpa using refers
  cases kind : (c.task u).kind with
  | taskConnect =>
    have := (sound.built.sole u s pending.1 pending.2.1 (.inl ⟨kind, sock⟩)).1
    simp [mine] at this
  | taskAccept =>
    have := (sound.placed.accept s u live).mpr ⟨pending, kind, sock⟩
    simp [accepter] at this
  | taskSockRead =>
    have := (sound.placed.read s u live).mpr ⟨pending, kind, sock⟩
    simp [reader] at this
  | taskSockWrite =>
    have := (sound.placed.fifo s u live).mpr ⟨pending, kind, sock⟩
    simp [wq] at this
  | _ => unfold Rules.Fits calm zShape at fits; simp [kind, sock] at fits

/-- `impl_sock_close`. -/
theorem implSockClose_spec {z : ZIo} (sound : Sound calm z.rest) (mem : Bool)
    (live : s ∈ z.socks) (mine : z.claimed s = true) :
    Moves firm z.rest (z.implSockClose mem s).rest ∧
      (∀ u, u < z.ntask → (z.task u).sock ≠ some s →
        (z.implSockClose mem s).task u = z.task u) ∧
      ((z.implSockClose mem s).toCore = z.toCore ∨
        (z.implSockClose mem s).shut s = true ∧ s ∉ (z.implSockClose mem s).socks ∧
        ((z.implSockClose mem s).task z.ntask).kind = .taskInline) := by
  unfold implSockClose
  split
  case isFalse => exact ⟨.refl _, fun _ _ _ => rfl, .inl rfl⟩
  dsimp only [on, give]
  generalize isNew : (z.toCore.taskNew { kind := .taskInline }).markShut s = k
  have made : Moves firm z.rest ⟨k, update (fun _ => false) z.ntask true, fun _ => false⟩ := by
    rw [← isNew]
    exact (Moves.one (.make (fresh_bare .taskInline (by decide) 0) (by simp [firm]))).snoc .shut
  have new : k.task z.ntask = { kind := .taskInline } := by
    rw [← isNew]; simp [taskNew, markShut]
  have liveK : s ∈ k.socks := by rw [← isNew]; exact live
  have mineK : k.claimed s = true := by rw [← isNew]; exact mine
  obtain ⟨canceled, leaves, sock⟩ := cancelAll_spec (sound_after sound rfl made) liveK
  have soundD := sound_after sound rfl (made.trans canceled)
  have inside : z.ntask < k.ntask := by rw [← isNew]; exact Nat.lt_succ_self _
  have unused := unused_of_empty soundD (by rw [leaves.socks]; exact liveK)
    (by rw [leaves.claimed]; exact mineK) (by rw [sock]) (by rw [sock]) (by rw [sock])
  have released := (made.trans canceled).snoc (.release unused)
  change Moves firm z.rest (taskOk ((cancelAll k s).sockRelease s) z.ntask 0 none).rest ∧
    (∀ u, u < z.ntask → (z.task u).sock ≠ some s →
      (taskOk ((cancelAll k s).sockRelease s) z.ntask 0 none).task u = z.task u) ∧
    (taskOk ((cancelAll k s).sockRelease s) z.ntask 0 none = z.toCore ∨
      (taskOk ((cancelAll k s).sockRelease s) z.ntask 0 none).shut s = true ∧
      s ∉ (taskOk ((cancelAll k s).sockRelease s) z.ntask 0 none).socks ∧
      ((taskOk ((cancelAll k s).sockRelease s) z.ntask 0 none).task z.ntask).kind = .taskInline)
  have shut : ((cancelAll k s).sockRelease s).shut s = true := by
    change (cancelAll k s).shut s = true
    rw [leaves.shut, ← isNew]
    simp [markShut]
  have gone : s ∉ ((cancelAll k s).sockRelease s).socks := fun there =>
    (soundD.linked.nodup.mem_erase_iff.mp there).1 rfl
  have apart : ∀ u, u < z.ntask → (z.task u).sock ≠ some s →
      ((cancelAll k s).sockRelease s).task u = z.task u := by
    intro u less other
    have old : k.task u = z.task u := by
      rw [← isNew]; simp [taskNew, markShut, Function.update_of_ne (Nat.ne_of_lt less)]
    exact (leaves.task u (.inr (by rw [old]; exact other))).trans old
  generalize isLast : (cancelAll k s).sockRelease s = d at released apart shut gone
  -- The closing task itself is not among those completed.
  have isTask : d.task z.ntask = { kind := .taskInline } := by
    rw [← isLast, ← new]
    exact leaves.task z.ntask (.inl (by simp))
  have soundLast := sound_after sound rfl released
  have absent : z.ntask ∉ d.armed := fun there => by
    have := ((soundLast.placed.armed _).mp there).1.2.2
    simp at this
  have ended := complete_out (c := d) (t := z.ntask) (e := rOk 0 none)
    (x := update (fun _ => false) z.ntask true) (h := fun _ => false)
    (by rw [← isLast]; exact Nat.lt_of_lt_of_le inside canceled.later.ntask)
    (by rw [isTask]) (by simp) absent
    (Settles.plain (by simp) (by simp) (.inl (by rw [isTask]; decide)))
    (by rw [isTask]; decide) (by simp)
  rw [out_back] at ended
  refine ⟨released.trans (firm_of_steady (steady_of_calm ended)), fun u less other => ?_, .inr ?_⟩
  all_goals
    unfold taskOk
    rw [taskComplete_plain (by simp)]
  · rw [← apart u less other]
    simp [settle, modTask, disarm, Function.update_of_ne (Nat.ne_of_lt less)]
  · refine ⟨shut, gone, ?_⟩
    simp [settle, modTask, disarm, settled, isTask]

end ZIo

end Myio.Loop
