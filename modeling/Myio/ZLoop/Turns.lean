import Myio.ZLoop.Calls

/-! A turn of the Zephyr event loop, cancellation and the end of a handle, as moves. -/

namespace Myio.Loop

open Function (update)
open Loop.Core

namespace ZIo

variable {c : Core} {t u : TaskId} {s : SockId} {z : ZIo}

/-! ### Nothing left to wait for -/

/-- A task that is not done can complete, or the head of its FIFO can. -/
theorem armed_of_pending (sound : Sound calm c.rest) (pending : c.Pending (fun _ => false) t) :
    c.armed ≠ [] := by
  intro empty
  by_cases inTurn : c.InTurn (fun _ => false) t
  · have := (sound.placed.armed t).mpr ⟨pending, inTurn⟩
    simp [Core.rest, empty] at this
  · -- The task is a write that waits, so its FIFO has a head.
    unfold InTurn at inTurn
    push Not at inTurn
    obtain ⟨s, kind, sock, behind⟩ := inTurn
    have live : s ∈ c.socks := sound.placed.live t s pending (.inl sock)
    have queued : t ∈ (c.sock s).wq := (sound.placed.fifo s t live).mpr ⟨pending, kind, sock⟩
    obtain ⟨head, rest, wq⟩ := List.exists_cons_of_ne_nil (List.ne_nil_of_mem queued)
    have inside : head ∈ (c.sock s).wq := by simp [wq]
    obtain ⟨isPending, isWrite, isSock⟩ := (sound.placed.fifo s head live).mp inside
    have inTurn : c.InTurn (fun _ => false) head := by
      intro s' _ sock'
      obtain rfl : s = s' := Option.some.inj (isSock.symm.trans sock')
      exact ⟨rfl, by rw [wq]; rfl⟩
    have there := (sound.placed.armed head).mpr ⟨isPending, inTurn⟩
    simp [Core.rest, empty] at there

/-- With nothing that can complete, every task is done. -/
theorem done_of_empty (sound : Sound calm c.rest) (empty : c.armed = []) (submitted : t < c.ntask) :
    (c.task t).done = true := by
  by_contra isOpen
  exact armed_of_pending sound ⟨submitted, by simpa using isOpen, rfl⟩ empty

/-! ### The parts of a turn -/

/-- Completing a task takes it off the list. -/
theorem taskComplete_armed {e : Result} (ptr : e.ptr = none) :
    (taskComplete c t e).armed = c.armed.erase t := by
  rw [taskComplete_plain ptr]
  rfl

/-- The walk that completes the expired timers. -/
theorem fireTimers_moves (now : Int) (l : List TaskId) : ∀ {c : Core}, Sound calm c.rest →
    l.Nodup → (∀ t ∈ l, t ∈ c.armed) → Moves calm c.rest (fireTimers c now l).rest := by
  induction l with
  | nil => exact fun _ _ _ => .refl _
  | cons t rest ih =>
    intro c sound nodup there
    obtain ⟨apart, nodup⟩ := List.nodup_cons.mp nodup
    unfold fireTimers
    dsimp only
    split
    · rename_i expired
      have pending := ((sound.placed.armed t).mp (there t List.mem_cons_self)).1
      have kind : (c.task t).kind = .taskTimer := expired.1
      have fired : Moves calm c.rest (taskOk c t 0 none).rest :=
        complete_pending sound pending (by simp [kind]) (by simp [kind]) (by simp [kind])
          ⟨by simp [kind], by simp [kind]⟩ (by simp) (by simp)
      refine fired.trans (ih (sound.moves fired) nodup fun u inside => ?_)
      unfold taskOk
      rw [taskComplete_armed (by simp)]
      have other : u ≠ t := fun same => apart (same ▸ inside)
      exact (List.mem_erase_of_ne other).mpr (there u (List.mem_cons_of_mem t inside))
    · exact ih sound nodup fun u inside => there u (List.mem_cons_of_mem t inside)

theorem acceptTry_aside (ans : AcceptAns) : Aside z (z.acceptTry t ans).1 := by
  unfold acceptTry Aside
  cases ans with
  | conn mem => dsimp only; split <;> rfl
  | _ => rfl

/-- What is done for one entry of the poll set. -/
theorem readyOne_spec (sound : Sound calm z.rest) (p : Poll) (t : TaskId) :
    Moves steady z.rest (z.readyOne p t).rest ∧ Aside z (z.readyOne p t) := by
  unfold readyOne
  split
  case isFalse => exact ⟨.refl _, Aside.refl z⟩
  rename_i ready
  have armed : t ∈ z.armed := by simp only [Bool.and_eq_true, decide_eq_true_eq] at ready; exact ready.2
  have pending := ((sound.placed.armed t).mp armed).1
  split
  · rename_i kind
    exact ⟨steady_of_calm (connectReady_moves sound pending kind _), (Aside.refl z).on _⟩
  · rename_i kind
    exact ⟨steady_of_calm (acceptTry_moves sound pending kind _), acceptTry_aside _⟩
  · rename_i kind
    exact ⟨steady_of_calm (readTry_moves sound pending kind _), (Aside.refl z).on _⟩
  · rename_i kind
    obtain ⟨moves, aside⟩ := writeReady_spec sound armed kind
    exact ⟨steady_of_eager moves, aside⟩
  · exact ⟨.refl _, Aside.refl z⟩

/-- The walk over the poll set. -/
theorem readyAll_spec (p : Poll) (l : List TaskId) : ∀ {z : ZIo}, Sound calm z.rest →
    Moves steady z.rest (z.readyAll p l).rest ∧ Aside z (z.readyAll p l) := by
  induction l with
  | nil => exact fun {z} _ => ⟨.refl _, Aside.refl z⟩
  | cons t rest ih =>
    intro z sound
    obtain ⟨first, aside⟩ := readyOne_spec sound p t
    obtain ⟨moves, later⟩ := ih (sound_after sound rfl first)
    exact ⟨first.trans moves, aside.trans later⟩

/-! ### Cancellation -/

/-- A task that has been completed without a socket is done and has the result. -/
theorem taskComplete_task {e : Result} (ptr : e.ptr = none) :
    (taskComplete c t e).task t = settled e (c.task t) := by
  rw [taskComplete_plain ptr]
  simp [settle, modTask, disarm]

/-- A write that has sent nothing leaves its FIFO and is canceled; the next one is not armed yet. -/
theorem unqueue_moves (sound : Sound calm c.rest) (pending : c.Pending (fun _ => false) t)
    (kind : (c.task t).kind = .taskSockWrite) (sock : (c.task t).sock = some s) :
    Moves firm c.rest ⟨taskCanceled (c.modSock s fun k => { k with wq := wqRemove k.wq t }) t,
      fun _ => false, c.exposes t⟩ := by
  have left : Moves firm c.rest ⟨(c.disarm t).leaveSock t, update (fun _ => false) t true,
      fun u => false || c.exposes t u⟩ := .one (.exit pending)
  simp only [Bool.false_or] at left
  rw [disarm_leaveSock] at left
  have task : ((c.leaveSock t).disarm t).task = c.task := by rw [leaveSock_rest]; rfl
  have ntask : ((c.leaveSock t).disarm t).ntask = c.ntask := by rw [leaveSock_rest]; rfl
  have ended := settle_moves (r := firm) (c := (c.leaveSock t).disarm t)
    (x := update (fun _ => false) t true) (h := c.exposes t) (t := t) (e := rCanceled)
    (by rw [ntask]; exact pending.1) (by rw [task]; exact pending.2.1) (by simp)
    (Settles.plain (by simp) (by simp) (.inr (by simp))) (by rw [task]; simp [firm, kind])
    (fun u points => by simp at points)
  have leaves : c.leaveSock t = c.modSock s fun k => { k with wq := wqRemove k.wq t } :=
    sound.placed.leave_write pending kind sock
  rw [out_back, leaves] at ended
  rw [leaves] at left
  exact left.trans ended

/-- `impl_cancel` of a write that has sent nothing. -/
theorem cancelWrite_spec (sound : Sound calm z.rest) (pending : z.Pending (fun _ => false) t)
    (kind : (z.task t).kind = .taskSockWrite) (unsent : (z.task t).off = 0) :
    (z.implCancel t).2 = 0 ∧ Aside z (z.implCancel t).1 ∧ ∃ a : Cut,
      Moves firm z.rest a ∧ Moves eager a (z.implCancel t).1.rest ∧
      a.core.task = update z.task t (settled rCanceled (z.task t)) ∧ a.core.ntask = z.ntask ∧
      ∀ s, (z.task t).sock = some s → (z.sock s).wq.head? ≠ some t →
        (z.implCancel t).1.toCore = a.core := by
  obtain ⟨s, sock⟩ := sock_of_kind sound pending (.inr (.inr (.inr kind)))
  have live : s ∈ z.socks := sound.placed.live t s pending (.inl sock)
  have isSock : z.sockOf t = s := by simp [sockOf, sock]
  have moves := unqueue_moves sound pending kind sock
  generalize isNext : taskCanceled (z.toCore.modSock s fun k => { k with wq := wqRemove k.wq t }) t = d
    at moves
  have task : d.task = update z.task t (settled rCanceled (z.task t)) := by
    rw [← isNext]
    unfold taskCanceled
    rw [taskComplete_plain (by simp)]
    rfl
  have ntask : d.ntask = z.ntask := by
    rw [← isNext]
    unfold taskCanceled
    rw [taskComplete_plain (by simp)]
    rfl
  have socks : d.socks = z.socks := by
    rw [← isNext]
    unfold taskCanceled
    rw [taskComplete_plain (by simp)]
    rfl
  have isOpen : (z.task t).done = false := pending.2.1
  unfold implCancel
  rw [if_neg (by simp [isOpen]), kind]
  dsimp only [ZIo.on]
  rw [if_neg (by omega), isSock, isNext]
  by_cases head : (z.sock s).wq.head? = some t
  · -- The head is gone, so the next one is attempted.
    rw [if_pos head]
    have exposed : z.exposes t = fun u => decide (u = s) := by
      funext u
      by_cases same : u = s
      · subst same; simp [exposes, kind, sock, head]
      · have differs : ¬ s = u := fun eq => same eq.symm
        simp [exposes, sock, same, differs]
    rw [exposed] at moves
    obtain ⟨armed, aside⟩ := writeArm_spec (s := s) (d.sock s).wq (z := { z with toCore := d })
      (sound_after sound rfl moves) (by rw [socks]; exact live) rfl
    refine ⟨rfl, ((Aside.refl z).on fun _ => d).trans aside, d.bareAt s, moves, armed, task, ntask,
      fun s' sock' other => ?_⟩
    obtain rfl : s = s' := Option.some.inj (sock.symm.trans sock')
    exact absurd head other
  · rw [if_neg head]
    have exposed : z.exposes t = fun _ => false := by
      funext u
      by_cases same : (z.task t).sock = some u
      · obtain rfl : s = u := Option.some.inj (sock.symm.trans same)
        simp [exposes, head]
      · simp [exposes, same]
    rw [exposed] at moves
    exact ⟨rfl, (Aside.refl z).on fun _ => d, d.rest, moves, .refl _, task, ntask, fun _ _ _ => rfl⟩

/-- `impl_cancel` of a task that is neither a write nor spawned. -/
theorem cancelOther_spec (sound : Sound calm z.rest) (pending : z.Pending (fun _ => false) t)
    (spawn : (z.task t).kind ≠ .taskSpawn) (write : (z.task t).kind ≠ .taskSockWrite) :
    Moves calm z.rest (z.implCancel t).1.rest ∧ Aside z (z.implCancel t).1 ∧
      ((z.implCancel t).2 = 0 → ((z.implCancel t).1.task t).done = true) ∧
      ((z.implCancel t).2 ≠ 0 → (z.implCancel t).1 = z) := by
  have isOpen : (z.task t).done = false := pending.2.1
  unfold implCancel
  rw [if_neg (by simp [isOpen])]
  split
  · rename_i isTimer
    refine ⟨complete_pending sound pending (by simp [isTimer]) (by simp [isTimer]) write
      ⟨spawn, write⟩ (by simp) (by simp), rfl, fun _ => ?_, by simp⟩
    exact congrArg Task.done (taskComplete_task (by simp))
  · rename_i isConnect
    obtain ⟨s, sock⟩ := sock_of_kind sound pending (.inl isConnect)
    have isSock : z.sockOf t = s := by simp [sockOf, sock]
    rw [isSock]
    refine ⟨connect_canceled sound pending isConnect sock, rfl, fun _ => ?_, by simp⟩
    exact congrArg Task.done (taskComplete_task (by simp))
  · rename_i isAccept
    obtain ⟨s, sock⟩ := sock_of_kind sound pending (.inr (.inl isAccept))
    have isSock : z.sockOf t = s := by simp [sockOf, sock]
    dsimp only [ZIo.on]
    rw [isSock]
    refine ⟨complete_accept sound pending isAccept sock (by simp) (by simp), rfl, fun _ => ?_, by simp⟩
    exact congrArg Task.done (taskComplete_task (by simp))
  · rename_i isRead
    obtain ⟨s, sock⟩ := sock_of_kind sound pending (.inr (.inr (.inl isRead)))
    have isSock : z.sockOf t = s := by simp [sockOf, sock]
    dsimp only [ZIo.on]
    rw [isSock]
    refine ⟨complete_read sound pending isRead sock (by simp) (by simp), rfl, fun _ => ?_, by simp⟩
    exact congrArg Task.done (taskComplete_task (by simp))
  · rename_i there; exact absurd there write
  · rename_i there; exact absurd there spawn
  · exact ⟨.refl _, Aside.refl z, fun zero => by simp at zero, fun _ => rfl⟩

/-- `impl_cancel` refuses a task that is done. -/
theorem implCancel_done (done : (z.task t).done = true) : z.implCancel t = (z, -1) := by
  unfold implCancel
  rw [if_pos done]

/-- `impl_cancel` refuses a write that has part of its buffer on the wire. -/
theorem implCancel_sent (kind : (z.task t).kind = .taskSockWrite) (sent : 0 < (z.task t).off) :
    z.implCancel t = (z, -1) := by
  cases done : (z.task t).done with
  | true => exact implCancel_done done
  | false =>
    unfold implCancel
    rw [if_neg (by simp [done]), kind]
    exact if_pos sent

/-- `impl_cancel` of a task that was not spawned: it completes the task or changes nothing. -/
theorem implCancel_spec (sound : Sound calm z.rest) (submitted : t < z.ntask)
    (kind : (z.task t).kind ≠ .taskSpawn) :
    Moves firm z.rest (z.implCancel t).1.rest ∧ Aside z (z.implCancel t).1 ∧
      ((z.implCancel t).2 = 0 → (z.task t).done = false ∧ ((z.implCancel t).1.task t).done = true) ∧
      ((z.implCancel t).2 ≠ 0 → (z.implCancel t).1 = z) := by
  cases done : (z.task t).done with
  | true =>
    rw [implCancel_done done]
    exact ⟨.refl _, Aside.refl z, fun zero => by simp at zero, fun _ => rfl⟩
  | false =>
    have pending : z.Pending (fun _ => false) t := ⟨submitted, done, rfl⟩
    by_cases isWrite : (z.task t).kind = .taskSockWrite
    · rcases Nat.eq_zero_or_pos (z.task t).off with unsent | sent
      · obtain ⟨okay, aside, a, first, second, task, ntask, _⟩ :=
          cancelWrite_spec sound pending isWrite unsent
        refine ⟨first.trans (firm_of_steady (steady_of_eager second)), aside, fun _ => ⟨rfl, ?_⟩,
          fun refused => absurd okay refused⟩
        refine (second.later.done t (by rw [ntask]; exact submitted) ?_).1
        rw [task]
        simp [settled]
      · rw [implCancel_sent isWrite sent]
        exact ⟨.refl _, Aside.refl z, fun zero => by simp at zero, fun _ => rfl⟩
    · obtain ⟨moves, aside, ended, refused⟩ := cancelOther_spec sound pending kind isWrite
      exact ⟨firm_of_steady (steady_of_calm moves), aside, fun zero => ⟨rfl, ended zero⟩, refused⟩

end ZIo

end Myio.Loop
