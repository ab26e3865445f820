import Myio.ZLoop.Sections

/-! The per-socket write FIFO of the Zephyr event loop. -/

namespace Myio.Loop

open Function (update)
open Loop.Core

namespace ZIo

variable {c : Core} {x : TaskId → Bool} {h : SockId → Bool} {t u : TaskId} {s : SockId}
  {e : Result}

/-- Only one write's progress, the wires and the count of sends have changed. -/
def Sent (z z' : ZIo) (t : TaskId) : Prop :=
  z' = { z with
    tick := z'.tick, desc := z'.desc
    task := update z.task t { z.task t with off := (z'.task t).off } }

/-- Only the shared part and the count of sends have changed. -/
def Aside (z z' : ZIo) : Prop := z' = { z with toCore := z'.toCore, tick := z'.tick }

theorem Aside.refl (z : ZIo) : Aside z z := rfl

theorem Aside.trans {z z' z'' : ZIo} (first : Aside z z') (second : Aside z' z'') : Aside z z'' := by
  unfold Aside at *
  rw [second, first]

theorem Aside.on {z z' : ZIo} (aside : Aside z z') (f : Core → Core) : Aside z (z'.on f) := by
  unfold Aside at *
  rw [aside]
  rfl

theorem Sent.aside {z z' : ZIo} (sent : Sent z z' t) : Aside z z' := by
  unfold Sent at sent
  unfold Aside
  rw [sent]

/-- `write_try`: the first write of a socket sends as much as the kernel takes. -/
theorem writeTry_spec (fuel : Nat) : ∀ {z : ZIo}, z.Pending x t → z.WriteOn s t →
    (∀ u, u < t → z.WriteOn s u → ¬ z.Pending x u) →
    Moves eager ⟨z.toCore, x, h⟩ ⟨(z.writeTry t fuel).1.toCore, x, h⟩ ∧
      Sent z (z.writeTry t fuel).1 t ∧
      ((z.writeTry t fuel).2 = .drained → (z.task t).off ≤ (z.task t).buf.length →
        (z.task t).buf.length - (z.task t).off ≤ fuel →
        ((z.writeTry t fuel).1.task t).off = (z.task t).buf.length) := by
  have same : ∀ z : ZIo, Sent z z t := fun z => by
    unfold Sent; rw [show { z.task t with off := (z.task t).off } = z.task t from rfl,
      Function.update_eq_self]
  induction fuel with
  | zero =>
    intro z _ _ _
    exact ⟨.refl _, same z, fun _ _ short => by change (z.task t).off = _; omega⟩
  | succ fuel ih =>
    intro z pending on first
    unfold writeTry
    split
    case isFalse full =>
      exact ⟨.refl _, same z, fun _ _ _ => by change (z.task t).off = _; omega⟩
    rename_i left
    split
    · exact ⟨.refl _, by unfold Sent; rw [show { z.task t with off := (z.task t).off } =
        z.task t from rfl]; simp, by simp⟩
    · exact ⟨.refl _, by unfold Sent; rw [show { z.task t with off := (z.task t).off } =
        z.task t from rfl]; simp, by simp⟩
    · -- Some bytes were accepted: at least one, and no more than there are left.
      rename_i n _
      dsimp only
      generalize isCount : max 1 (min n ((z.task t).buf.length - (z.task t).off)) = m
      have positive : 0 < m := by omega
      have fits : (z.task t).off + m ≤ (z.task t).buf.length := by omega
      generalize isNext : ({ z with tick := z.tick + 1 } : ZIo).on (·.sendBytes t m) = z₁
      have core : z₁.toCore = z.toCore.sendBytes t m := by rw [← isNext]; rfl
      have task : ∀ u, z₁.task u =
          if u = t then { z.task t with off := (z.task t).off + m } else z.task u := by
        intro u
        rw [core]
        simp only [sendBytes, Function.update_apply]
      have written : ∀ u, z₁.WriteOn s u ↔ z.WriteOn s u := by
        intro u; simp only [WriteOn, task]; grind
      have ntask : z₁.ntask = z.ntask := by rw [core]; rfl
      have pends : ∀ u, z₁.Pending x u ↔ z.Pending x u := by
        intro u; simp only [Pending, task, ntask]; grind
      obtain ⟨moves, sent, full⟩ := ih ((pends t).mpr pending) ((written t).mpr on)
        fun u less isWrite there => first u less ((written u).mp isWrite) ((pends u).mp there)
      refine ⟨?_, ?_, fun drained bounded enough => ?_⟩
      · refine Moves.trans (.one ?_) moves
        rw [core]
        exact .send pending on (fun _ => fits) first
      · unfold Sent at sent ⊢
        generalize writeTry z₁ t fuel = q at sent ⊢
        rw [sent, ← isNext]
        simp [ZIo.on, sendBytes]
      · have now := task t
        rw [if_pos rfl] at now
        have := full drained (by rw [now]; exact fits) (by rw [now]; simp only; omega)
        rw [this, now]

/-- The head of a FIFO is the first write of its socket that is not done. -/
theorem head_first (sound : Sound calm ⟨c, x, h⟩) (live : s ∈ c.socks)
    {rest : List TaskId} (wq : (c.sock s).wq = t :: rest) :
    c.Pending x t ∧ c.WriteOn s t ∧ ∀ u, u < t → c.WriteOn s u → ¬ c.Pending x u := by
  have shaped : ∀ u, c.Pending x u → (c.task u).kind = .taskSockWrite →
      (c.task u).on = (c.task u).sock := by
    intro u there kind
    have fits := sound.shaped u there
    unfold Rules.Fits calm zShape at fits
    rw [kind] at fits
    exact fits.2.2
  obtain ⟨pending, kind, sock⟩ := (sound.placed.fifo s t live).mp (by simp [wq])
  refine ⟨pending, ⟨kind, (shaped t pending kind).trans sock⟩, fun u less isWrite there => ?_⟩
  -- An earlier one would be in the FIFO, and the FIFO is sorted.
  have sockU : (c.task u).sock = some s := (shaped u there isWrite.1).symm.trans isWrite.2
  have inside := sound.placed.queued there isWrite.1 sockU
  have sorted := sound.placed.sorted s live
  rw [wq] at inside sorted
  rcases List.mem_cons.mp inside with same | behind
  · exact Nat.ne_of_lt less same
  · exact Nat.lt_asymm less ((List.pairwise_cons.mp sorted).1 u behind)

/-- The head of a FIFO is popped and completed, and the next one is not armed yet. -/
theorem writePop_moves {r : Rules} (sound : Sound calm ⟨c, x, h⟩) (live : s ∈ c.socks)
    {rest : List TaskId} (wq : (c.sock s).wq = t :: rest) (status : e.status ≠ .pending)
    (ptr : e.ptr = none) (whole : e.status = .ok → (c.task t).off = (c.task t).buf.length ∧
      e.value = (c.task t).buf.length) (allowed : r.ends .taskSockWrite e) :
    Moves r ⟨c, x, h⟩ ⟨writePop c s t e, x, fun u => h u || u = s⟩ := by
  obtain ⟨pending, on, first⟩ := head_first sound live wq
  have member := (sound.placed.fifo s t live).mp (by simp [wq])
  have kind : (c.task t).kind = .taskSockWrite := member.2.1
  have sock : (c.task t).sock = some s := member.2.2
  have exposed : ∀ u, c.exposes t u = decide (u = s) := by
    intro u
    by_cases same : u = s
    · subst same; simp [exposes, kind, sock, wq]
    · have differs : ¬ s = u := fun eq => same eq.symm
      simp [exposes, sock, same, differs]
  have left : Moves r ⟨c, x, h⟩
      ⟨(c.disarm t).leaveSock t, update x t true, fun u => h u || c.exposes t u⟩ :=
    .one (.exit pending)
  simp only [exposed] at left
  rw [disarm_leaveSock] at left
  have task : ((c.leaveSock t).disarm t).task = c.task := by rw [leaveSock_rest]; rfl
  have ntask : ((c.leaveSock t).disarm t).ntask = c.ntask := by rw [leaveSock_rest]; rfl
  have settles : ((c.leaveSock t).disarm t).Settles r.bounded (update x t true) t e := by
    refine ⟨status, fun u points => ?_, fun _ _ okay => ?_⟩
    · rw [ptr] at points; cases points
    · rw [task]
      obtain ⟨sent, value⟩ := whole okay
      refine ⟨sent, value, fun s' u onT onU less there => ?_⟩
      unfold WriteOn at onT onU
      rw [task] at onT onU
      obtain rfl : s = s' := Option.some.inj (on.2.symm.trans onT.2)
      have other : u ≠ t := Nat.ne_of_lt less
      refine first u less onU ⟨ntask ▸ there.1, ?_, by simpa [other] using there.2.2⟩
      have := there.2.1
      rwa [task] at this
  have ended := settle_moves (r := r) (c := (c.leaveSock t).disarm t)
    (x := update x t true) (h := fun u => h u || decide (u = s)) (t := t) (e := e)
    (by rw [ntask]; exact pending.1) (by rw [task]; exact pending.2.1) (by simp) settles
    (by rw [task, kind]; exact allowed) (fun u points => by rw [ptr] at points; cases points)
  rw [pending.back, sound.placed.leave_head live wq] at ended
  rw [sound.placed.leave_head live wq] at left
  exact left.trans ended

/-- What popping and completing the head of a FIFO leaves. -/
theorem writePop_sock (ptr : e.ptr = none) (u : SockId) :
    ((writePop c s t e).sock u).wq = (if u = s then (c.sock s).wq.tail else (c.sock u).wq) ∧
      (writePop c s t e).socks = c.socks := by
  unfold writePop taskComplete
  rw [finish_reapIfDetached, reaped_plain _ _ ptr]
  refine ⟨?_, rfl⟩
  simp only [settle, modTask, disarm, modSock, wqPop, Function.update_apply]
  split <;> rfl

/-- `write_arm`: the head of a FIFO is attempted, and each that is through hands on to the next. -/
theorem writeArm_spec (l : List TaskId) : ∀ {z : ZIo}, Sound calm (z.bareAt s) → s ∈ z.socks →
    (z.sock s).wq = l →
    Moves eager (z.bareAt s) (z.writeArm s l).rest ∧ Aside z (z.writeArm s l) := by
  induction l with
  | nil =>
    intro z sound live wq
    refine ⟨.one (.headed fun u _ differs => ?_), Aside.refl z⟩
    have isS : u = s := by by_contra other; simp [other] at differs
    rw [isS]; exact wq
  | cons t rest ih =>
    intro z sound live wq
    obtain ⟨pending, on, first⟩ := head_first sound live wq
    obtain ⟨tried, sent, full⟩ := writeTry_spec (h := fun u => decide (u = s))
      ((z.task t).buf.length - (z.task t).off) pending on first
    have fits := (sound.wired trivial).fits t pending.1
    unfold writeArm writeTryAll
    generalize z.writeTry t ((z.task t).buf.length - (z.task t).off) = q at tried sent full
    obtain ⟨z₁, past⟩ := q
    dsimp only at tried sent full ⊢
    have aside := sent.aside
    have still : Sound calm (z₁.bareAt s) := sound_after sound rfl tried
    have sock : z₁.sock = z.sock ∧ z₁.socks = z.socks := by rw [sent]; exact ⟨rfl, rfl⟩
    have live₁ : s ∈ z₁.socks := by rw [sock.2]; exact live
    have wq₁ : (z₁.sock s).wq = t :: rest := by rw [sock.1]; exact wq
    have isTask : z₁.task t = { z.task t with off := (z₁.task t).off } := by
      have := congrArg (fun z : ZIo => z.task t) sent
      simpa using this
    -- The head is popped, and the loop goes on with what is left.
    have goesOn : ∀ e : Result, e.status ≠ .pending → e.ptr = none →
        e.status ≠ .canceled → (e.status = .ok → (z₁.task t).off = (z₁.task t).buf.length ∧
          e.value = (z₁.task t).buf.length) →
        Moves eager (z.bareAt s) ((z₁.on (writePop · s t e)).writeArm s rest).rest ∧
          Aside z ((z₁.on (writePop · s t e)).writeArm s rest) := by
      intro e status ptr kept whole
      have popped : Moves eager (z₁.bareAt s) ((z₁.on (writePop · s t e)).bareAt s) := by
        have := writePop_moves (r := eager) still live₁ wq₁ status ptr whole ⟨rfl, kept⟩
        simpa [bareAt, ZIo.on] using this
      obtain ⟨wq₂, socks₂⟩ := writePop_sock (c := z₁.toCore) (s := s) (t := t) ptr s
      obtain ⟨moves, later⟩ := ih (z := z₁.on (writePop · s t e))
        (sound_after still rfl popped)
        (by change s ∈ (writePop _ s t e).socks
            rw [socks₂]; exact live₁)
        (by change ((writePop _ s t e).sock s).wq = rest
            rw [wq₂, if_pos rfl, wq₁]; rfl)
      exact ⟨(Moves.trans tried popped).trans moves, (aside.on _).trans later⟩
    cases past with
    | again =>
      refine ⟨Moves.trans tried (.one ?_), aside.on _⟩
      have armed : Move eager (z₁.bareAt s) ⟨z₁.toCore.arm t, fun _ => false,
          update (fun u => decide (u = s)) s false⟩ :=
        .arm live₁ (by simp) (by rw [wq₁]; rfl)
      have none : update (fun u => decide (u = s)) s false = fun _ : SockId => false := by
        funext u; by_cases same : u = s <;> simp [same]
      rw [none] at armed
      exact armed
    | drained =>
      refine goesOn _ (by simp) (by simp) (by simp) fun _ => ⟨?_, rfl⟩
      rw [isTask]
      exact full rfl fits (Nat.le_refl _)
    | err errno => exact goesOn _ (by simp) (by simp) (by simp) (by simp)

/-- What is done with the head of a FIFO when it is through, from a state in which it was armed. -/
theorem writeNext_spec {z : ZIo} (sound : Sound calm z.rest) (live : s ∈ z.socks)
    {rest : List TaskId} (wq : (z.sock s).wq = t :: rest) (status : e.status ≠ .pending)
    (ptr : e.ptr = none) (kept : e.status ≠ .canceled)
    (whole : e.status = .ok → (z.task t).off = (z.task t).buf.length ∧
      e.value = (z.task t).buf.length) :
    let z' := z.on (writePop · s t e)
    Moves eager z.rest (z'.writeArm s (z'.sock s).wq).rest ∧ Aside z (z'.writeArm s (z'.sock s).wq) := by
  intro z'
  have popped : Moves eager z.rest (z'.bareAt s) := by
    have := writePop_moves (r := eager) sound live wq status ptr whole ⟨rfl, kept⟩
    simpa [bareAt, Core.rest, ZIo.on, z'] using this
  have live' : s ∈ z'.socks := by
    change s ∈ (writePop _ s t e).socks
    rw [(writePop_sock (c := z.toCore) (s := s) (t := t) ptr s).2]
    exact live
  obtain ⟨moves, aside⟩ := writeArm_spec (s := s) (z'.sock s).wq
    (sound_after sound rfl popped) live' rfl
  exact ⟨popped.trans moves, (Aside.refl z).on _ |>.trans aside⟩

/-- `write_ready`. -/
theorem writeReady_spec {z : ZIo} (sound : Sound calm z.rest) (armed : t ∈ z.armed)
    (kind : (z.task t).kind = .taskSockWrite) :
    Moves eager z.rest (z.writeReady t).rest ∧ Aside z (z.writeReady t) := by
  have there := (sound.placed.armed t).mp armed
  have isPending : z.Pending (fun _ => false) t := there.1
  obtain ⟨s, sock⟩ := sock_of_kind sound isPending (.inr (.inr (.inr kind)))
  have live : s ∈ z.socks := sound.placed.live t s there.1 (.inl sock)
  obtain ⟨rest, wq⟩ := List.head?_eq_some_iff.mp (there.2 s kind sock).2
  have isSock : z.sockOf t = s := by simp [sockOf, sock]
  obtain ⟨pending, on, first⟩ := head_first sound live wq
  obtain ⟨tried, sent, full⟩ := writeTry_spec (h := fun _ => false)
    ((z.task t).buf.length - (z.task t).off) pending on first
  have fits := (sound.wired trivial).fits t pending.1
  unfold writeReady writeTryAll
  rw [isSock]
  generalize z.writeTry t ((z.task t).buf.length - (z.task t).off) = q at tried sent full
  obtain ⟨z₁, past⟩ := q
  dsimp only at tried sent full ⊢
  have still : Sound calm z₁.rest := sound_after sound rfl tried
  have same : z₁.sock = z.sock ∧ z₁.socks = z.socks := by rw [sent]; exact ⟨rfl, rfl⟩
  have live₁ : s ∈ z₁.socks := by rw [same.2]; exact live
  have wq₁ : (z₁.sock s).wq = t :: rest := by rw [same.1]; exact wq
  have isTask : z₁.task t = { z.task t with off := (z₁.task t).off } := by
    have := congrArg (fun z : ZIo => z.task t) sent
    simpa using this
  cases past with
  | again => exact ⟨tried, sent.aside⟩
  | drained =>
    obtain ⟨moves, aside⟩ := writeNext_spec still live₁ wq₁ (e := rOk (z₁.task t).buf.length none)
      (by simp) (by simp) (by simp) fun _ => ⟨by rw [isTask]; exact full rfl fits (Nat.le_refl _), rfl⟩
    exact ⟨Moves.trans tried moves, sent.aside.trans aside⟩
  | err errno =>
    obtain ⟨moves, aside⟩ := writeNext_spec still live₁ wq₁ (e := rErr errno)
      (by simp) (by simp) (by simp) (by simp)
    exact ⟨Moves.trans tried moves, sent.aside.trans aside⟩

/-- `impl_sock_write`: the call makes the task, and attempts it if it heads the FIFO. -/
theorem implSockWrite_spec {z : ZIo} (sound : Sound calm z.rest) (mem : Bool) (buf : List UInt8)
    (live : s ∈ z.socks) (mine : z.claimed s = true) :
    Moves eager z.rest (z.implSockWrite mem s buf).rest ∧
      Aside z { z.implSockWrite mem s buf with user := z.user, ret := z.ret } := by
  unfold implSockWrite
  split
  case isFalse => exact ⟨.refl _, rfl⟩
  dsimp only
  generalize isNew : z.on (·.taskNew
    { kind := .taskSockWrite, sock := some s, buf, fd := (z.sock s).fd, on := some s }) = z₁
  have core : z₁.toCore = z.toCore.taskNew
    { kind := .taskSockWrite, sock := some s, buf, fd := (z.sock s).fd, on := some s } := by
    rw [← isNew]; rfl
  have made : Moves eager z.rest ⟨z₁.toCore, update (fun _ => false) z.ntask true, fun _ => false⟩ := by
    rw [core]; exact .one (.make (fresh_write buf live mine) (by simp [eager]))
  have new : z₁.task z.ntask =
      { kind := .taskSockWrite, sock := some s, buf, fd := (z.sock s).fd, on := some s } := by
    rw [core]; simp [taskNew]
  have live₁ : s ∈ z₁.socks := by rw [core]; exact live
  have parked := made.snoc (.park (t := z.ntask) (s := s) (by rw [core]; rfl) (by rw [new])
    (by simp) (by rw [new]) (by rw [new]) (by rw [new])
    (by rw [new]; simp [Rules.Fits, eager, zShape]) live₁)
  rw [out_back] at parked
  by_cases head : (z₁.sock s).wq = []
  · -- The FIFO was empty: the write is attempted at once.
    have isHead : (wqPush (z₁.sock s).wq z.ntask).2 = true := by simp [wqPush, head]
    rw [isHead]
    simp only [if_true]
    have bare : (fun u => (fun _ => false) u || decide (u = s) && (z₁.sock s).wq.isEmpty) =
        fun u : SockId => decide (u = s) := by funext u; simp [head]
    rw [bare] at parked
    have wq : (((z₁.on (·.modSock s fun k => { k with wq := (wqPush k.wq z.ntask).1 })).sock s).wq) =
        [z.ntask] := by simp [ZIo.on, modSock, wqPush, head]
    obtain ⟨moves, aside⟩ := writeArm_spec (s := s) [z.ntask]
      (z := z₁.on (·.modSock s fun k => { k with wq := (wqPush k.wq z.ntask).1 }))
      (sound_after sound rfl parked) live₁ wq
    refine ⟨parked.trans moves, ?_⟩
    have before : Aside z (z₁.on (·.modSock s fun k => { k with wq := (wqPush k.wq z.ntask).1 })) := by
      rw [← isNew]; rfl
    have := before.trans aside
    unfold Aside at this ⊢
    rw [this]
    rfl
  · have notHead : (wqPush (z₁.sock s).wq z.ntask).2 = false := by simp [wqPush, head]
    rw [notHead]
    simp only [Bool.false_eq_true, if_false]
    have bare : (fun u => (fun _ => false) u || decide (u = s) && (z₁.sock s).wq.isEmpty) =
        fun _ : SockId => false := by funext u; simp [head]
    rw [bare] at parked
    exact ⟨parked, by rw [← isNew]; rfl⟩

end ZIo

end Myio.Loop
