import Myio.Uring.Sections

/-! The writes of a socket: who comes first, what a send's completion does, and who is sent next. -/

namespace Myio.Loop

open Function (update)
open Loop.Core

namespace UringIo

variable {B : Prop} {c c' : Core} {x x' : TaskId → Bool} {h : SockId → Bool} {t v n : TaskId}
  {s : SockId} {e : Result} {u : UringIo}

/-! ### Which write is first -/

/-- A write that has lost its socket is the last one on it, and none will follow. -/
def Severed (torn : Prop) (c : Core) (x : TaskId → Bool) : Prop :=
  ∀ t, c.Pending x t → (c.task t).kind = .taskSockWrite → (c.task t).sock = none →
    ∀ s, (c.task t).on = some s →
      (torn ∨ c.shut s = true) ∧ ∀ v, c.Pending x v → c.WriteOn s v → v = t

/-- No write submitted before this one is pending on its socket. -/
def Front (c : Core) (x : TaskId → Bool) (t : TaskId) : Prop :=
  ∀ s v, c.WriteOn s t → c.WriteOn s v → v < t → ¬ c.Pending x v

/-- A write that can complete is the first of its socket. -/
theorem front_of_armed {torn : Prop} (firm : Firm B c.rest) (severed : Severed torn c fun _ => false)
    (armed : t ∈ c.armed) : Front c (fun _ => false) t := by
  -- A write has lost its socket and is alone, or it heads the FIFO.
  obtain ⟨pending, inTurn⟩ := (firm.sound.placed.armed t).mp armed
  rintro s v onT onV less there
  cases sock : (c.task t).sock with
  | none =>
    exact Nat.ne_of_lt less ((severed t pending onT.1 sock s onT.2).2 v there onV)
  | some s' =>
    have fits : ∀ w, c.Pending (fun _ => false) w → c.WriteOn s w →
        (c.task w).sock = none ∨ (c.task w).sock = some s := by
      intro w pendingW onW
      have fits := firm.sound.shaped w pendingW
      unfold Rules.Fits ring uShape at fits
      rw [show (c.rest.core.task w).kind = .taskSockWrite from onW.1] at fits
      rcases fits.2.2 with none | same
      · exact .inl none
      · exact .inr (same.trans onW.2)
    have isSock : s' = s := by
      rcases fits t pending onT with none | same
      · rw [sock] at none; cases none
      · exact Option.some.inj (sock.symm.trans same)
    subst isSock
    have live : s' ∈ c.socks := firm.sound.placed.live t s' pending (.inl sock)
    obtain ⟨rest, wq⟩ := List.head?_eq_some_iff.mp (inTurn s' onT.1 sock).2
    rcases fits v there onV with none | sockV
    · exact Nat.ne_of_gt less ((severed v there onV.1 none s' onV.2).2 t pending onT)
    · have inside := (firm.sound.placed.fifo s' v live).mpr ⟨there, onV.1, sockV⟩
      have sorted : (c.sock s').wq.Pairwise (· < ·) := firm.sound.placed.sorted s' live
      change v ∈ (c.sock s').wq at inside
      rw [show (c.sock s').wq = t :: rest from wq] at inside sorted
      rcases List.mem_cons.mp inside with same | behind
      · exact Nat.ne_of_lt less same
      · exact Nat.lt_asymm less ((List.pairwise_cons.mp sorted).1 v behind)

/-- The first write stays first while no task enters. -/
theorem Front.fewer {r : Rules} (front : Front c x t) (fewer : Fewer c c' x x')
    (later : Later r c c') (submitted : t < c.ntask) : Front c' x' t := by
  intro s v onT onV less there
  obtain ⟨before, kind, _, _, on⟩ := fewer v there
  obtain ⟨kindT, onT', _⟩ := later.args t submitted
  refine front s v ⟨kindT.symm.trans onT.1, onT'.symm.trans onT.2⟩
    ⟨kind.symm.trans onV.1, on.symm.trans onV.2⟩ less before

/-- Between two calls no FIFO is without its head. -/
theorem rest_bare (c : Core) (s : SockId) : c.rest.bare s = false := rfl

/-! ### The end of a task that is in hand -/

/-- A task without a socket to deliver is completed without further ado. -/
theorem taskFinish_plain (ptr : e.ptr = none) : taskFinish c t e = c.settle t e := by
  unfold taskFinish
  rw [finish_reapIfDetached, reaped_plain c t ptr]

/-- A write in hand is completed. -/
theorem ends_moves (submitted : t < c.ntask) (isOpen : (c.task t).done = false) (out : x t = true)
    (status : e.status ≠ .pending) (ptr : e.ptr = none)
    (whole : B → e.status = .ok → (c.task t).off = (c.task t).buf.length ∧
      e.value = (c.task t).buf.length ∧ Front c x t) :
    Moves (still B) ⟨c, x, h⟩ ⟨taskFinish c t e, update x t false, h⟩ := by
  refine settle_moves submitted isOpen out ⟨status, fun s points => ?_, fun bounds _ okay => ?_⟩
    trivial fun s points => ?_
  · rw [ptr] at points; cases points
  · obtain ⟨sent, value, front⟩ := whole bounds okay
    exact ⟨sent, value, front⟩
  · rw [ptr] at points; cases points

/-! ### Who is sent next -/

/-- Popping the head of a FIFO whose head is not on the ring. -/
theorem writeDrop_moves {rest : List TaskId} (firm : Firm B ⟨c, x, h⟩) (live : s ∈ c.socks)
    (bare : h s = true) (wq : (c.sock s).wq = n :: rest) {res : Int} (failed : res < 0) :
    Moves (still B) ⟨c, x, h⟩ ⟨writeDrop c s n res, x, h⟩ := by
  obtain ⟨pending, kind, sock⟩ := (firm.sound.placed.fifo s n live).mp (by
    change n ∈ (c.sock s).wq; rw [wq]; exact List.mem_cons_self)
  -- The head is not on the ring, so there is nothing to take off it.
  have absent : n ∉ c.armed := fun there => by
    have := (((firm.sound.placed.armed n).mp there).2 s kind sock).1
    rw [show h s = false from this] at bare
    cases bare
  have exposes : (fun v => h v || c.exposes n v) = h := by
    funext v
    by_cases same : v = s
    · subst same; simp [bare]
    · have other : (c.task n).sock ≠ some v := by
        rw [show (c.task n).sock = some s from sock]; simpa using Ne.symm same
      simp [Core.exposes, other]
  have left : Moves (still B) ⟨c, x, h⟩
      ⟨c.modSock s fun k => { k with wq := (wqPop k.wq).1 }, update x n true, h⟩ := by
    have exits : Moves (still B) ⟨c, x, h⟩ ⟨(c.disarm n).leaveSock n, update x n true,
        fun v => h v || c.exposes n v⟩ := .one (.exit pending)
    rw [exposes, disarm_eq absent, firm.sound.placed.leave_head live wq] at exits
    exact exits
  have drops : Moves (still B) ⟨c, x, h⟩
      ⟨(c.modSock s fun k => { k with wq := (wqPop k.wq).1 }).modTask n ({ · with sock := none }),
        update x n true, h⟩ := by
    refine left.snoc ?_
    have letsGo := Move.drop (r := still B) (h := h) (p := none) (q := (c.task n).newsock)
      (c := c.modSock s fun k => { k with wq := (wqPop k.wq).1 }) (x := update x n true) (t := n)
      (by simp) (.inl rfl) (.inr rfl)
    rw [modTask_congr (g := ({ · with sock := none })) rfl] at letsGo
    exact letsGo
  have ends := ends_moves (B := B) (h := h) (x := update x n true) (t := n)
    (c := (c.modSock s fun k => { k with wq := (wqPop k.wq).1 }).modTask n ({ · with sock := none }))
    (e := cqeResult res) pending.1 (by simp [Core.modTask]; exact pending.2.1) (by simp)
    (cqeResult_status res) (cqeResult_ptr res) fun _ okay => absurd okay (cqeResult_failed failed)
  rw [pending.back] at ends
  exact drops.trans ends

/-- What is left when a queued write has been dropped. -/
theorem writeDrop_rest (c : Core) (s : SockId) (n : TaskId) (res : Int) :
    (writeDrop c s n res).socks = c.socks ∧
    (writeDrop c s n res).sock = update c.sock s { c.sock s with wq := (wqPop (c.sock s).wq).1 } ∧
    (writeDrop c s n res).armed = c.armed ∧
    ∀ v, v ≠ n → (writeDrop c s n res).task v = c.task v := by
  unfold writeDrop taskComplete
  dsimp only
  rw [taskFinish_plain (cqeResult_ptr res)]
  refine ⟨rfl, rfl, rfl, fun v other => ?_⟩
  simp [Core.settle, Core.modTask, Core.modSock, other]

/-- The loop of `write_finish`: the first of the waiting writes that gets an entry is sent. -/
theorem promote_moves (l : List TaskId) : ∀ {u : UringIo}, Firm B ⟨u.toCore, x, h⟩ → s ∈ u.socks →
    h s = true → (u.sock s).wq = l →
    Moves (still B) ⟨u.toCore, x, h⟩ ⟨(u.promote s l).toCore, x, update h s false⟩ := by
  induction l with
  | nil =>
    intro u firm live bare wq
    refine .one (.headed fun v _ differs => ?_)
    by_cases same : v = s
    · rw [same]; exact wq
    · simp [same] at differs
  | cons n rest ih =>
    intro u firm live bare wq
    unfold promote
    rcases writeArm_cases u n with got | got <;> rw [got]
    · exact .one (.arm live bare (by rw [wq]; rfl))
    · have dropped := writeDrop_moves firm live bare wq (show -EAGAIN < 0 by decide)
      obtain ⟨socks, sock, _⟩ := writeDrop_rest u.toCore s n (-EAGAIN)
      refine dropped.trans (ih (u := { u with tick := u.tick + 1 }.on (writeDrop · s n (-EAGAIN)))
        (firm.moves (ring_of_still dropped)) ?_ bare ?_)
      · change s ∈ (writeDrop u.toCore s n (-EAGAIN)).socks
        rw [socks]
        exact live
      · change ((writeDrop u.toCore s n (-EAGAIN)).sock s).wq = rest
        rw [sock]
        simp [wqPop, wq]

/-- The loop touches no write but those it goes over. -/
theorem promote_other (l : List TaskId) : ∀ {u : UringIo}, v ∉ l →
    (u.promote s l).task v = u.task v := by
  induction l with
  | nil => intro u _; rfl
  | cons n rest ih =>
    intro u absent
    have other : v ≠ n := fun same => absent (same ▸ List.mem_cons_self)
    have behind : v ∉ rest := fun there => absent (List.mem_cons_of_mem n there)
    unfold promote
    rcases writeArm_cases u n with got | got <;> rw [got]
    · rfl
    · exact (ih behind).trans ((writeDrop_rest u.toCore s n (-EAGAIN)).2.2.2 v other)

/-! ### The completion of a send -/

/-- `write_finish`: a write leaves the FIFO, the next one is sent, and the write is completed. -/
theorem writeFinish_moves (firm : Firm B c.rest) (armed : t ∈ c.armed)
    (kind : (c.task t).kind = .taskSockWrite) {d : UringIo} (core : d.toCore = c.disarm t) {res : Int}
    (whole : B → (cqeResult res).status = .ok → (c.task t).off = (c.task t).buf.length ∧
      (cqeResult res).value = (c.task t).buf.length ∧ Front c (fun _ => false) t) :
    Moves (still B) c.rest (d.writeFinish t res).toCore.rest := by
  obtain ⟨pending, inTurn⟩ := (firm.sound.placed.armed t).mp armed
  have task : d.task = c.task := by rw [core]; rfl
  -- Whatever is done before the task ends, it ends as it was, and as the first of its socket.
  have ends : ∀ m : Core, Moves (still B) c.rest ⟨m, update (fun _ => false) t true, fun _ => false⟩ →
      (m.task t).done = false → (m.task t).off = (c.task t).off → (m.task t).buf = (c.task t).buf →
      Moves (still B) c.rest (taskComplete m t res).rest := by
    intro m moves isOpen off buf
    have inside : t < m.ntask := Nat.lt_of_lt_of_le pending.1 moves.later.ntask
    have ended := ends_moves (B := B) (h := fun _ => false) (x := update (fun _ => false) t true)
      (c := m) inside isOpen (by simp) (cqeResult_status res) (cqeResult_ptr res) fun bounds okay => by
        obtain ⟨sent, value, front⟩ := whole bounds okay
        exact ⟨by rw [off, buf]; exact sent, by rw [buf]; exact value,
          front.fewer (fewer_of_still moves) moves.later pending.1⟩
    rw [out_back] at ended
    exact moves.trans ended
  unfold writeFinish
  rw [task]
  cases sock : (c.task t).sock with
  | none =>
    have exits := exit_moves (r := still B) (h := fun _ => false) pending (.inr sock)
    have stays : c.leaveSock t = c := by unfold leaveSock; rw [sock]
    rw [show c.rest.core.leaveSock t = c from stays] at exits
    have letsGo := Move.drop (r := still B) (h := fun _ => false) (p := none)
      (q := (c.task t).newsock) (c := c.disarm t) (x := update (fun _ => false) t true) (t := t)
      (by simp) (.inl rfl) (.inr rfl)
    rw [modTask_congr (g := ({ · with sock := none })) rfl] at letsGo
    change Moves (still B) c.rest (taskComplete (d.toCore.modTask t ({ · with sock := none })) t res).rest
    rw [core]
    refine ends _ (exits.snoc letsGo) ?_ ?_ ?_
    · simp [Core.modTask, Core.disarm]; exact pending.2.1
    · simp [Core.modTask, Core.disarm]
    · simp [Core.modTask, Core.disarm]
  | some s =>
    have live : s ∈ c.socks := firm.sound.placed.live t s pending (.inl sock)
    obtain ⟨rest, wq⟩ := List.head?_eq_some_iff.mp (inTurn s kind sock).2
    have wq : (c.sock s).wq = t :: rest := wq
    have exposes : (fun v => c.rest.bare v || c.exposes t v) = fun v => decide (v = s) := by
      funext v
      by_cases same : v = s
      · subst same; simp [Core.exposes, kind, sock, wq, rest_bare]
      · simp [Core.exposes, sock, rest_bare, same, Ne.symm same]
    have exits : Moves (still B) c.rest ⟨(c.disarm t).leaveSock t, update (fun _ => false) t true,
        fun v => c.rest.bare v || c.exposes t v⟩ := .one (.exit pending)
    have left : c.leaveSock t = c.modSock s fun k => { k with wq := (wqPop k.wq).1 } :=
      firm.sound.placed.leave_head live wq
    rw [exposes, disarm_leaveSock, left] at exits
    have letsGo := Move.drop (r := still B) (h := fun v => decide (v = s)) (p := none)
      (q := (c.task t).newsock) (c := (c.modSock s fun k => { k with wq := (wqPop k.wq).1 }).disarm t)
      (x := update (fun _ => false) t true) (t := t) (by simp) (.inl rfl) (.inr rfl)
    rw [modTask_congr (g := ({ · with sock := none })) rfl] at letsGo
    have out := exits.snoc letsGo
    dsimp only
    generalize isPopped : (d.on (·.modTask t ({ · with sock := none }))).on
      (·.modSock s fun k => { k with wq := (wqPop k.wq).1 }) = p
    have popped : p.toCore = ((c.modSock s fun k => { k with wq := (wqPop k.wq).1 }).disarm t).modTask t
        ({ · with sock := none }) := by
      rw [← isPopped]
      change (d.toCore.modTask t ({ · with sock := none })).modSock s
        (fun k => { k with wq := (wqPop k.wq).1 }) = _
      rw [core]
      rfl
    rw [← popped] at out
    have behind : (p.sock s).wq = rest := by rw [popped]; simp [Core.modTask, Core.disarm, Core.modSock, wqPop, wq]
    have apart : t ∉ rest := by
      have sorted : (c.sock s).wq.Pairwise (· < ·) := firm.sound.placed.sorted s live
      rw [wq] at sorted
      exact fun there => Nat.lt_irrefl t ((List.pairwise_cons.mp sorted).1 t there)
    have promoted := promote_moves rest (firm.moves (ring_of_still out))
      (by rw [popped]; exact live) (by simp) behind
    rw [behind]
    have quiet : update (fun v => decide (v = s)) s false = fun _ => false := by
      funext v; by_cases same : v = s <;> simp [same]
    rw [quiet] at promoted
    have own : (p.promote s rest).task t = p.task t := promote_other rest apart
    refine ends _ (out.trans promoted) ?_ ?_ ?_
    · rw [own, popped]; simp [Core.modTask, Core.disarm, Core.modSock]; exact pending.2.1
    · rw [own, popped]; simp [Core.modTask, Core.disarm, Core.modSock]
    · rw [own, popped]; simp [Core.modTask, Core.disarm, Core.modSock]

/-- A length that fits is reported as it is. -/
theorem toInt64_eq {n : Nat} (short : n < 2 ^ 63) : toInt64 n = n := by
  unfold toInt64
  rw [Int.bmod_eq_of_le] <;> omega

/-- The completion of a send. -/
theorem dispatchWrite_moves {torn : Prop} (firm : Firm B c.rest)
    (severed : Severed torn c fun _ => false) (armed : t ∈ c.armed)
    (kind : (c.task t).kind = .taskSockWrite) {d : UringIo} (core : d.toCore = c.disarm t) {res : Int}
    (fits : B → ¬ res < 0 → (c.task t).off + res.toNat ≤ (c.task t).buf.length ∧
      (c.task t).buf.length < 2 ^ 63) :
    Moves (still B) c.rest (d.dispatchWrite t res).toCore.rest := by
  obtain ⟨pending, inTurn⟩ := (firm.sound.placed.armed t).mp armed
  have front := front_of_armed firm severed armed
  -- A send that failed, or that is not gone on with, is reported as a failure.
  have fails : ∀ (m : Core) (d : UringIo), Firm B m.rest → t ∈ m.armed →
      (m.task t).kind = .taskSockWrite → d.toCore = m.disarm t → ∀ res < 0,
      Moves (still B) m.rest (d.writeFinish t res).toCore.rest :=
    fun m d firm armed kind core res failed => writeFinish_moves firm armed kind core fun _ okay =>
      absurd okay (cqeResult_failed failed)
  unfold dispatchWrite
  split
  · rename_i failed
    exact fails c d firm armed kind core res failed
  rename_i taken
  have shape := firm.sound.shaped t pending
  unfold Rules.Fits ring uShape at shape
  rw [show (c.rest.core.task t).kind = .taskSockWrite from kind] at shape
  obtain ⟨s, on⟩ := Option.ne_none_iff_exists'.mp shape.2.1
  have sends : Moves (still B) c.rest (c.sendBytes t res.toNat).rest :=
    .one (.send (s := s) pending ⟨kind, on⟩ (fun bounds => (fits bounds taken).1) fun v less onV =>
      front s v ⟨kind, on⟩ onV less)
  have firm' := firm.moves (ring_of_still sends)
  have own : (c.sendBytes t res.toNat).task t = { c.task t with off := (c.task t).off + res.toNat } := by
    rw [sendBytes_task, if_pos rfl]
  have core' : (d.on (·.sendBytes t res.toNat)).toCore = (c.sendBytes t res.toNat).disarm t := by
    change d.toCore.sendBytes t res.toNat = _
    rw [core]
    rfl
  have kind' : ((c.sendBytes t res.toNat).task t).kind = .taskSockWrite := by rw [own]; exact kind
  generalize isNext : d.on (·.sendBytes t res.toNat) = p at core'
  have task : p.task t = { c.task t with off := (c.task t).off + res.toNat } := by
    rw [core']
    exact own
  generalize isSent : c.sendBytes t res.toNat = m at sends firm' own core' kind'
  have armed' : t ∈ m.armed := by rw [← isSent]; exact armed
  refine sends.trans ?_
  dsimp only
  split
  · split
    · exact fails m p firm' armed' kind' core' (-ECANCELED) (by decide)
    · rename_i goes
      obtain ⟨some_, _⟩ := not_or.mp goes
      obtain ⟨s', sock⟩ := Option.ne_none_iff_exists'.mp some_
      rcases writeArm_cases p t with got | got <;> rw [got]
      · -- The rest goes on the ring again, and the write heads its FIFO as before.
        have sock' : (m.task t).sock = some s' := by rw [own]; rw [task] at sock; exact sock
        obtain ⟨pending', inTurn'⟩ := (firm'.sound.placed.armed t).mp armed'
        have live : s' ∈ m.socks := firm'.sound.placed.live t s' pending' (.inl sock')
        have off : Moves (still B) m.rest ⟨m.disarm t, fun _ => false, update (fun _ => false) s' true⟩ :=
          .one (.disarm armed' kind' sock')
        have again := off.snoc (.arm (s := s') (n := t) live (by simp) (inTurn' s' kind' sock').2)
        rw [Function.update_idem, Function.update_eq_self_iff.mpr rfl] at again
        change Moves (still B) m.rest (p.toCore.arm t).rest
        rw [core']
        exact again
      · exact fails m { p with tick := p.tick + 1 } firm' armed' kind' core' (-EAGAIN) (by decide)
  · rename_i full
    refine writeFinish_moves firm' armed' kind' core' fun bounds _ => ?_
    obtain ⟨room, short⟩ := fits bounds taken
    rw [task] at full
    dsimp only at full
    have whole : (c.task t).off + res.toNat = (c.task t).buf.length :=
      Nat.le_antisymm room (Nat.le_of_not_lt full)
    rw [own, task]
    refine ⟨whole, ?_, front.fewer (fewer_of_still sends) sends.later pending.1⟩
    dsimp only
    rw [toInt64_eq short, cqeResult, if_pos (Int.natCast_nonneg _)]
    rfl

end UringIo

end Myio.Loop
