import Myio.Loop.Moves

/-!
Where a task that is not done can be.

At a cut inside a call the tasks in the code's hands are excepted, and so are the FIFOs whose head
has not been armed.
-/

namespace Myio.Loop.Core

open Function (update)

/-- Nothing is in a task's way; for a write this means that it heads its FIFO. -/
def InTurn (c : Core) (h : SockId → Bool) (t : TaskId) : Prop :=
  ∀ s, (c.task t).kind = .taskSockWrite → (c.task t).sock = some s →
    h s = false ∧ (c.sock s).wq.head? = some t

/-- Every pending task can complete or waits behind the head of its FIFO, and its socket knows it. -/
structure Placed (c : Core) (x : TaskId → Bool) (h : SockId → Bool) : Prop where
  nodup : c.armed.Nodup
  armed : ∀ t, t ∈ c.armed ↔ c.Pending x t ∧ c.InTurn h t
  live : ∀ t s, c.Pending x t → c.Refers t s → s ∈ c.socks
  fifo : ∀ s t, s ∈ c.socks → (t ∈ (c.sock s).wq ↔
    c.Pending x t ∧ (c.task t).kind = .taskSockWrite ∧ (c.task t).sock = some s)
  sorted : ∀ s, s ∈ c.socks → (c.sock s).wq.Pairwise (· < ·)
  read : ∀ s t, s ∈ c.socks → ((c.sock s).readTask = some t ↔
    c.Pending x t ∧ (c.task t).kind = .taskSockRead ∧ (c.task t).sock = some s)
  accept : ∀ s t, s ∈ c.socks → ((c.sock s).acceptTask = some t ↔
    c.Pending x t ∧ (c.task t).kind = .taskAccept ∧ (c.task t).sock = some s)

variable {r : Rules} {c c' : Core} {x x' : TaskId → Bool}
  {h h' : SockId → Bool}

/-- The links of a socket are as they were. -/
def SameLinks (k k' : Sock) : Prop :=
  k'.wq = k.wq ∧ k'.readTask = k.readTask ∧ k'.acceptTask = k.acceptTask

/-- The invariant reads only the lists, the slots, and three fields of the pending tasks. -/
theorem Placed.congr (placed : c.Placed x h) (pending : ∀ t, c'.Pending x' t ↔ c.Pending x t)
    (same : ∀ t, c.Pending x t → (c'.task t).kind = (c.task t).kind ∧
      (c'.task t).sock = (c.task t).sock ∧ (c'.task t).newsock = (c.task t).newsock)
    (armed : c'.armed = c.armed)
    (socks : ∀ s, s ∈ c'.socks → s ∈ c.socks ∧ SameLinks (c.sock s) (c'.sock s))
    (live : ∀ t s, c.Pending x t → c.Refers t s → s ∈ c.socks → s ∈ c'.socks) :
    c'.Placed x' h := by
  obtain ⟨nodup, isArmed, isLive, fifo, sorted, read, accept⟩ := placed
  have refers : ∀ t s, c.Pending x t → (c'.Refers t s ↔ c.Refers t s) := by
    intro t s there
    obtain ⟨_, sock, newsock⟩ := same t there
    simp only [Refers, sock, newsock]
  have inTurn : ∀ t, c.Pending x t → (c'.InTurn h t ↔ c.InTurn h t) := by
    -- The socket of a pending write is on both lists, with the same FIFO.
    intro t there
    obtain ⟨kind, sock, _⟩ := same t there
    unfold InTurn
    rw [kind, sock]
    refine forall_congr' fun s => forall_congr' fun _ => forall_congr' fun isSock => ?_
    have there' := live t s there (.inl isSock) (isLive t s there (.inl isSock))
    rw [(socks s there').2.1]
  constructor
  case nodup => rw [armed]; exact nodup
  case armed =>
    intro t
    rw [armed, isArmed, pending]
    exact and_congr_right fun there => (inTurn t there).symm
  case live =>
    intro t s there points
    rw [pending] at there
    rw [refers t s there] at points
    exact live t s there points (isLive t s there points)
  all_goals intro s
  case sorted => intro inside; rw [(socks s inside).2.1]; exact sorted s (socks s inside).1
  all_goals intro t inside
  case fifo =>
    rw [(socks s inside).2.1, fifo s t (socks s inside).1, pending]
    exact and_congr_right fun there => by rw [(same t there).1, (same t there).2.1]
  case read =>
    rw [(socks s inside).2.2.1, read s t (socks s inside).1, pending]
    exact and_congr_right fun there => by rw [(same t there).1, (same t there).2.1]
  case accept =>
    rw [(socks s inside).2.2.2, accept s t (socks s inside).1, pending]
    exact and_congr_right fun there => by rw [(same t there).1, (same t there).2.1]

/-- A change of what the invariant does not read. -/
theorem Placed.same (placed : c.Placed x h) (ntask : c'.ntask = c.ntask) (task : c'.task = c.task)
    (armed : c'.armed = c.armed) (socks : c'.socks = c.socks)
    (sock : ∀ s, s ∈ c.socks → SameLinks (c.sock s) (c'.sock s)) : c'.Placed x h := by
  refine placed.congr ?_ ?_ armed ?_ ?_
  · intro t; simp only [Pending, ntask, task]
  · intro t _; simp only [task, and_self]
  · intro s inside; rw [socks] at inside; exact ⟨inside, sock s inside⟩
  · intro t s _ _ inside; rw [socks]; exact inside

/-- A change inside one task's record that leaves its links alone, or any if it is in hand. -/
theorem Placed.modTask (placed : c.Placed x h) (t : TaskId) (f : Task → Task)
    (done : (f (c.task t)).done = (c.task t).done)
    (links : x t = false → (f (c.task t)).kind = (c.task t).kind ∧
      (f (c.task t)).sock = (c.task t).sock ∧ (f (c.task t)).newsock = (c.task t).newsock) :
    (c.modTask t f).Placed x h := by
  refine placed.congr ?_ ?_ rfl (fun _ inside => ⟨inside, rfl, rfl, rfl⟩)
    (fun _ _ _ _ inside => inside)
  · intro u; simp only [Pending, Core.modTask, Function.update_apply]; grind
  · intro u there
    simp only [Core.modTask, Function.update_apply]
    split
    · rename_i same; subst same; exact links there.2.2
    · exact ⟨rfl, rfl, rfl⟩

/-- A task in hand is marked done. -/
theorem Placed.settle (placed : c.Placed x h) {t : TaskId} (out : x t = true) (res : Result) :
    (c.settle t res).Placed (update x t false) h := by
  refine placed.congr ?_ ?_ rfl (fun _ inside => ⟨inside, rfl, rfl, rfl⟩)
    (fun _ _ _ _ inside => inside)
  · intro u
    simp only [Pending, Core.settle, Core.modTask, Function.update_apply, settled]
    grind
  · intro u there
    have other : u ≠ t := fun same => by simp [Pending, same, out] at there
    simp [Core.settle, Core.modTask, other]

/-- A new task is in hand, and moves no other. -/
theorem Placed.taskNew (placed : c.Placed x h) (k : Task) :
    (c.taskNew k).Placed (update x c.ntask true) h := by
  refine placed.congr ?_ ?_ rfl (fun _ inside => ⟨inside, rfl, rfl, rfl⟩)
    (fun _ _ _ _ inside => inside)
  · intro u; simp only [Pending, Core.taskNew, Function.update_apply]; grind
  · intro u there
    have other : u ≠ c.ntask := Nat.ne_of_lt there.1
    simp [Core.taskNew, other]

/-- A new socket has no links, and nothing points at it. -/
theorem Placed.sockNew (placed : c.Placed x h) (fd : Option Fd)
    (bound : ∀ s, s ∈ c.socks → s < c.nsock) : (c.sockNew fd).Placed x h := by
  obtain ⟨nodup, armed, live, fifo, sorted, read, accept⟩ := placed
  have old : ∀ s, s ∈ c.socks → (c.sockNew fd).sock s = c.sock s := by
    intro s inside
    simp [Core.sockNew, Function.update_of_ne (Nat.ne_of_lt (bound s inside))]
  have new : (c.sockNew fd).sock c.nsock = { fd } := by simp [Core.sockNew]
  -- A pending task's socket is on the old list, so it is not the new one.
  have points : ∀ t s, c.Pending x t → (c.task t).sock = some s → s ≠ c.nsock :=
    fun t s there sock => Nat.ne_of_lt (bound s (live t s there (.inl sock)))
  have split : ∀ s, s ∈ (c.sockNew fd).socks → s = c.nsock ∨ s ∈ c.socks := fun s inside =>
    List.mem_cons.mp inside
  constructor
  case nodup => exact nodup
  case armed =>
    intro t
    rw [show t ∈ (c.sockNew fd).armed ↔ t ∈ c.armed from Iff.rfl, armed]
    refine and_congr_right fun there => forall_congr' fun s => forall_congr' fun _ =>
      forall_congr' fun sock => ?_
    rw [old s (live t s there (.inl sock))]
  case live => exact fun t s there refers => List.mem_cons_of_mem _ (live t s there refers)
  case sorted =>
    intro s inside
    rcases split s inside with rfl | before
    · simp [new]
    · rw [old s before]; exact sorted s before
  all_goals intro s t inside
  all_goals rcases split s inside with rfl | before
  -- Nothing is linked to the new socket.
  case fifo.inl =>
    rw [new]
    exact ⟨fun inside => by simp at inside, fun has => absurd rfl (points t _ has.1 has.2.2)⟩
  case read.inl =>
    rw [new]
    exact ⟨fun inside => by simp at inside, fun has => absurd rfl (points t _ has.1 has.2.2)⟩
  case accept.inl =>
    rw [new]
    exact ⟨fun inside => by simp at inside, fun has => absurd rfl (points t _ has.1 has.2.2)⟩
  case fifo.inr => rw [old s before]; exact fifo s t before
  case read.inr => rw [old s before]; exact read s t before
  case accept.inr => rw [old s before]; exact accept s t before

/-- A socket that no pending task points at may go. -/
theorem Placed.sockRelease (placed : c.Placed x h) {s : SockId} (unused : c.Unused x s) :
    (c.sockRelease s).Placed x h := by
  unfold Core.sockRelease
  refine placed.congr (fun _ => Iff.rfl) (fun _ _ => ⟨rfl, rfl, rfl⟩) rfl ?_ ?_
  · intro u inside
    refine ⟨List.mem_of_mem_erase inside, ?_⟩
    simp only [SameLinks, Function.update_apply]
    grind
  · intro t u there refers inside
    have other : u ≠ s := fun same => unused.tasks t there (same ▸ refers)
    exact (List.mem_erase_of_ne other).mpr inside

/-- A new task that is no write becomes able to complete, and takes its socket's slot. -/
theorem Placed.enter (placed : c.Placed x h) {t : TaskId} (submitted : t < c.ntask)
    (isOpen : (c.task t).done = false) (out : x t = true)
    (kind : (c.task t).kind ≠ .taskSockWrite) (live : ∀ s, c.Refers t s → s ∈ c.socks)
    (read : (c.task t).kind = .taskSockRead →
      ∃ s, (c.task t).sock = some s ∧ (c.sock s).readTask = none)
    (accept : (c.task t).kind = .taskAccept →
      ∃ s, (c.task t).sock = some s ∧ (c.sock s).acceptTask = none) :
    ((c.arm t).setSlot t).Placed (update x t false) h := by
  have wq : ∀ s, (((c.arm t).setSlot t).sock s).wq = (c.sock s).wq := fun s =>
    (setSlot_other (c.arm t) t s).1
  have reader : ∀ s, (((c.arm t).setSlot t).sock s).readTask =
      if (c.task t).sock = some s ∧ (c.task t).kind = .taskSockRead then some t
      else (c.sock s).readTask := setSlot_readTask (c.arm t) t
  have accepter : ∀ s, (((c.arm t).setSlot t).sock s).acceptTask =
      if (c.task t).sock = some s ∧ (c.task t).kind = .taskAccept then some t
      else (c.sock s).acceptTask := setSlot_acceptTask (c.arm t) t
  rw [setSlot_rest]
  have pending : ∀ u, c.Pending (update x t false) u ↔ c.Pending x u ∨ u = t := by
    intro u; simp only [Pending, Function.update_apply]; grind
  have notPending : ¬ c.Pending x t := fun there => by simp [Pending, out] at there
  constructor
  case nodup =>
    exact List.nodup_cons.mpr ⟨fun inside => notPending ((placed.armed t).mp inside).1,
      placed.nodup⟩
  case armed =>
    intro u
    have turn : InTurn { c.arm t with sock := ((c.arm t).setSlot t).sock } h u ↔ c.InTurn h u :=
      forall_congr' fun s => forall_congr' fun _ => forall_congr' fun _ => by rw [wq]
    rw [turn]
    change u ∈ t :: c.armed ↔ c.Pending (update x t false) u ∧ _
    rw [List.mem_cons, pending, placed.armed]
    constructor
    · rintro (rfl | ⟨there, inTurn⟩)
      · exact ⟨.inr rfl, fun s isWrite => absurd isWrite kind⟩
      · exact ⟨.inl there, inTurn⟩
    · rintro ⟨there | rfl, inTurn⟩
      · exact .inr ⟨there, inTurn⟩
      · exact .inl rfl
  case live =>
    intro u s there refers
    rcases (pending u).mp there with before | rfl
    · exact placed.live u s before refers
    · exact live s refers
  case sorted => intro s inside; rw [wq]; exact placed.sorted s inside
  all_goals intro s u inside
  case fifo =>
    change _ ↔ c.Pending (update x t false) u ∧ _
    rw [pending, wq, placed.fifo s u inside]
    constructor
    · exact fun has => ⟨.inl has.1, has.2⟩
    · rintro ⟨there | rfl, isWrite, rest⟩
      · exact ⟨there, isWrite, rest⟩
      · exact absurd isWrite kind
  case read =>
    have before := placed.read s u inside
    change _ ↔ c.Pending (update x t false) u ∧ (c.task u).kind = _ ∧ (c.task u).sock = _
    rw [pending, reader]
    grind
  case accept =>
    have before := placed.accept s u inside
    change _ ↔ c.Pending (update x t false) u ∧ (c.task u).kind = _ ∧ (c.task u).sock = _
    rw [pending, accepter]
    grind

/-- A pending write is on the FIFO of its socket. -/
theorem Placed.queued (placed : c.Placed x h) {t : TaskId} {s : SockId} (pending : c.Pending x t)
    (kind : (c.task t).kind = .taskSockWrite) (sock : (c.task t).sock = some s) :
    t ∈ (c.sock s).wq :=
  (placed.fifo s t (placed.live t s pending (.inl sock))).mpr ⟨pending, kind, sock⟩

/-- A new write goes to the end of its socket's FIFO. -/
theorem Placed.park (placed : c.Placed x h) {t : TaskId} {s : SockId}
    (submitted : t + 1 = c.ntask) (isOpen : (c.task t).done = false) (out : x t = true)
    (kind : (c.task t).kind = .taskSockWrite) (sock : (c.task t).sock = some s)
    (newsock : (c.task t).newsock = none) (live : s ∈ c.socks) :
    (c.modSock s fun k => { k with wq := k.wq ++ [t] }).Placed (update x t false)
      (fun u => h u || (u = s && (c.sock s).wq.isEmpty)) := by
  have pending : ∀ u, c.Pending (update x t false) u ↔ c.Pending x u ∨ u = t := by
    intro u; simp only [Pending, Function.update_apply]; grind
  have notPending : ¬ c.Pending x t := fun there => by simp [Pending, out] at there
  have wq : ∀ u, ((c.modSock s fun k => { k with wq := k.wq ++ [t] }).sock u).wq =
      if u = s then (c.sock s).wq ++ [t] else (c.sock u).wq := by
    intro u; simp only [modSock, Function.update_apply]; split <;> rfl
  have slots : ∀ u, ((c.modSock s fun k => { k with wq := k.wq ++ [t] }).sock u).readTask =
      (c.sock u).readTask ∧ ((c.modSock s fun k => { k with wq := k.wq ++ [t] }).sock u).acceptTask =
      (c.sock u).acceptTask := by
    intro u; simp only [modSock, Function.update_apply]; grind
  have member : ∀ u, u ∈ (c.sock s).wq → c.Pending x u := fun u inside =>
    ((placed.fifo s u live).mp inside).1
  constructor
  case nodup => exact placed.nodup
  case armed =>
    intro u
    change u ∈ c.armed ↔ c.Pending (update x t false) u ∧ _
    rw [placed.armed, pending]
    constructor
    · -- A FIFO that has a head keeps it, so what was in turn still is.
      rintro ⟨there, inTurn⟩
      refine ⟨.inl there, fun v isWrite isSock => ?_⟩
      have before := inTurn v isWrite isSock
      have inside := placed.queued there isWrite isSock
      rw [wq]
      by_cases same : v = s
      · subst same; cases whole : (c.sock v).wq <;> simp_all
      · simpa [same] using before
    · rintro ⟨there | rfl, inTurn⟩
      · refine ⟨there, fun v isWrite isSock => ?_⟩
        have after := inTurn v isWrite isSock
        have inside := placed.queued there isWrite isSock
        rw [wq] at after
        by_cases same : v = s
        · subst same; cases whole : (c.sock v).wq <;> simp_all
        · simpa [same] using after
      · -- The new write is behind another one, or its head is not armed yet.
        have after := inTurn s kind sock
        rw [wq, if_pos rfl] at after
        cases whole : (c.sock s).wq with
        | nil => simp [whole] at after
        | cons first rest =>
          have isFirst : first = u := by simpa [whole] using after.2
          exact absurd (member u (by simp [whole, isFirst])) notPending
  case live =>
    intro u v there refers
    rcases (pending u).mp there with before | rfl
    · exact placed.live u v before refers
    · rcases refers with points | points
      · obtain rfl : s = v := Option.some.inj (sock.symm.trans points)
        exact live
      · exact absurd (newsock.symm.trans points) (by simp)
  case sorted =>
    intro u inside
    rw [wq]
    split
    · -- Every write already queued was submitted before this one.
      refine List.pairwise_append.mpr ⟨placed.sorted s live, List.pairwise_singleton _ _, ?_⟩
      intro a insideA b insideB
      obtain rfl : b = t := by simpa using insideB
      have there := member a insideA
      have other : a ≠ b := fun same => notPending (same ▸ there)
      have below : a < b + 1 := submitted.symm ▸ there.1
      exact Nat.lt_of_le_of_ne (Nat.le_of_lt_succ below) other
    · exact placed.sorted u inside
  all_goals intro v u inside
  all_goals change _ ↔ c.Pending (update x t false) u ∧ (c.task u).kind = _ ∧ (c.task u).sock = _
  case fifo =>
    have before := placed.fifo v u inside
    rw [pending, wq]
    grind
  case read =>
    rw [pending, (slots v).1, placed.read v u inside]
    grind
  case accept =>
    rw [pending, (slots v).2, placed.accept v u inside]
    grind

/-- The head of a FIFO becomes able to complete. -/
theorem Placed.arm (placed : c.Placed x h) {s : SockId} {n : TaskId} (live : s ∈ c.socks)
    (bare : h s = true) (head : (c.sock s).wq.head? = some n) :
    (c.arm n).Placed x (update h s false) := by
  obtain ⟨pending, kind, sock⟩ := (placed.fifo s n live).mp (List.mem_of_mem_head? head)
  have turn : ∀ u, c.InTurn (update h s false) u ↔ c.InTurn h u ∨
      ((c.task u).kind = .taskSockWrite ∧ (c.task u).sock = some s ∧ u = n) := by
    intro u
    simp only [InTurn, Function.update_apply]
    grind
  obtain ⟨nodup, armed, isLive, fifo, sorted, read, accept⟩ := placed
  constructor
  case nodup =>
    refine List.nodup_cons.mpr ⟨fun inside => ?_, nodup⟩
    have := (((armed n).mp inside).2 s kind sock).1
    simp [bare] at this
  case armed =>
    intro u
    change u ∈ n :: c.armed ↔ c.Pending x u ∧ c.InTurn _ u
    rw [List.mem_cons, armed, turn]
    grind
  case live => exact isLive
  case fifo => exact fifo
  case sorted => exact sorted
  case read => exact read
  case accept => exact accept

/-- The head of a FIFO is no longer able to complete. -/
theorem Placed.disarm (placed : c.Placed x h) {t : TaskId} {s : SockId} (inside : t ∈ c.armed)
    (kind : (c.task t).kind = .taskSockWrite) (sock : (c.task t).sock = some s) :
    (c.disarm t).Placed x (update h s true) := by
  obtain ⟨pending, inTurn⟩ := (placed.armed t).mp inside
  have head := (inTurn s kind sock).2
  have turn : ∀ u, c.Pending x u → (c.InTurn (update h s true) u ↔ c.InTurn h u ∧ u ≠ t) := by
    intro u there
    simp only [InTurn, Function.update_apply]
    grind
  obtain ⟨nodup, armed, isLive, fifo, sorted, read, accept⟩ := placed
  constructor
  case nodup => exact nodup.erase t
  case armed =>
    intro u
    change u ∈ c.armed.erase t ↔ c.Pending x u ∧ c.InTurn _ u
    rw [nodup.mem_erase_iff, armed]
    have := turn u
    grind
  case live => exact isLive
  case fifo => exact fifo
  case sorted => exact sorted
  case read => exact read
  case accept => exact accept

/-- A FIFO with nothing in it has no head to wait for. -/
theorem Placed.headed (placed : c.Placed x h) {g : SockId → Bool}
    (empty : ∀ s, s ∈ c.socks → g s ≠ h s → (c.sock s).wq = []) : c.Placed x g := by
  have turn : ∀ u, c.Pending x u → (c.InTurn g u ↔ c.InTurn h u) := by
    intro u there
    refine forall_congr' fun s => forall_congr' fun kind => forall_congr' fun sock => ?_
    have inside := placed.queued there kind sock
    have same : g s = h s := by
      by_contra differs
      rw [empty s (placed.live u s there (.inl sock)) differs] at inside
      simp at inside
    rw [same]
  obtain ⟨nodup, armed, isLive, fifo, sorted, read, accept⟩ := placed
  refine ⟨nodup, fun u => ?_, isLive, fifo, sorted, read, accept⟩
  rw [armed]
  exact and_congr_right fun there => (turn u there).symm

/-- Taking a member that is not the first leaves the first. -/
theorem head?_erase {l : List TaskId} {t : TaskId} (other : l.head? ≠ some t) :
    (l.erase t).head? = l.head? := by
  cases l with
  | nil => rfl
  | cons a rest =>
    have differs : a ≠ t := by simpa using other
    simp [differs]

/-- A task leaves its socket, and either is in hand from then on or points at no socket. -/
theorem Placed.leave (placed : c.Placed x h) {t : TaskId} (pending : c.Pending x t)
    (sock : c'.sock = (c.leaveSock t).sock) (socks : c'.socks = c.socks)
    (others : ∀ u, u ≠ t → (c'.Pending x' u ↔ c.Pending x u) ∧ c'.task u = c.task u)
    (left : c'.Pending x' t → (c'.task t).sock = none ∧
      (c'.task t).newsock = (c.task t).newsock) (nodup : c'.armed.Nodup)
    (armed : ∀ u, u ∈ c'.armed ↔ if u = t then c'.Pending x' t else u ∈ c.armed) :
    c'.Placed x' (fun s => h s || c.exposes t s) := by
  have wq : ∀ s, (c'.sock s).wq =
      if (c.task t).sock = some s then (c.sock s).wq.erase t else (c.sock s).wq := by
    intro s; rw [sock]; exact leaveSock_wq c t s
  have turn : ∀ u, u ≠ t → c.Pending x u →
      (c'.InTurn (fun s => h s || c.exposes t s) u ↔ c.InTurn h u) := by
    intro u other there
    unfold InTurn
    rw [(others u other).2]
    refine forall_congr' fun s => forall_congr' fun kind => forall_congr' fun isSock => ?_
    rw [wq]
    have live := placed.live u s there (.inl isSock)
    have memberT := placed.fifo s t live
    by_cases exposed : c.exposes t s = true
    · -- The leaving task is the head, so neither before nor after is this one in turn.
      have isHead : (c.sock s).wq.head? = some t := by simp [exposes] at exposed; exact exposed.2
      simp only [exposed, isHead]
      grind
    · have notHead : (c.task t).sock = some s → (c.sock s).wq.head? ≠ some t := by
        intro isSockT isHead
        have inside := List.mem_of_mem_head? isHead
        have := (memberT.mp inside).2.1
        simp [exposes, this, isSockT, isHead] at exposed
      have same : (if (c.task t).sock = some s then (c.sock s).wq.erase t
          else (c.sock s).wq).head? = (c.sock s).wq.head? := by
        split
        · rename_i isSockT; exact head?_erase (notHead isSockT)
        · rfl
      rw [same]
      simp [exposed]
  have distinct : ∀ s, s ∈ c.socks → (c.sock s).wq.Nodup := fun s inside =>
    (placed.sorted s inside).imp Nat.ne_of_lt
  constructor
  case nodup => exact nodup
  case armed =>
    intro u
    rw [armed]
    by_cases same : u = t
    · subst same
      simp only [if_true]
      constructor
      · intro there
        exact ⟨there, fun s _ isSock => by simp [(left there).1] at isSock⟩
      · exact And.left
    · rw [if_neg same, placed.armed, (others u same).1]
      exact and_congr_right fun there => (turn u same there).symm
  case live =>
    intro u s there refers
    rw [socks]
    by_cases same : u = t
    · subst same
      obtain ⟨noSock, newsock⟩ := left there
      unfold Refers at refers
      rw [noSock, newsock] at refers
      exact placed.live u s pending (.inr (by simpa using refers))
    · unfold Refers at refers
      rw [(others u same).2] at refers
      exact placed.live u s ((others u same).1.mp there) refers
  case sorted =>
    intro s inside
    rw [socks] at inside
    rw [wq]
    split
    · exact (placed.sorted s inside).sublist List.erase_sublist
    · exact placed.sorted s inside
  all_goals intro s u inside
  all_goals rw [socks] at inside
  case fifo =>
    have before := placed.fifo s u inside
    rw [wq]
    by_cases same : u = t
    · subst same
      have := (distinct s inside).mem_erase_iff (a := u) (b := u)
      grind
    · have := (distinct s inside).mem_erase_iff (a := u) (b := t)
      have := others u same
      grind
  case read =>
    have before := placed.read s u inside
    rw [sock, leaveSock_readTask]
    by_cases same : u = t
    · subst same; grind
    · have := others u same
      have := placed.read s t inside
      grind
  case accept =>
    have before := placed.accept s u inside
    rw [sock, leaveSock_acceptTask]
    by_cases same : u = t
    · subst same; grind
    · have := others u same
      have := placed.accept s t inside
      grind

/-- Every move keeps every pending task in its place. -/
theorem Placed.move (move : Move r ⟨c, x, h⟩ ⟨c', x', h'⟩) (placed : c.Placed x h)
    (bound : ∀ s, s ∈ c.socks → s < c.nsock) : c'.Placed x' h' := by
  cases move with
  | make fresh allowed => exact placed.taskNew _
  | aim submitted isOpen out kind live mine =>
    exact placed.modTask _ _ rfl fun inside => by simp [out] at inside
  | build submitted isOpen out kind sole =>
    exact placed.modTask _ _ rfl fun inside => by simp [out] at inside
  | buildNew submitted isOpen out sole =>
    exact placed.modTask _ _ rfl fun inside => by simp [out] at inside
  | drop out sock newsock => exact placed.modTask _ _ rfl fun inside => by simp [out] at inside
  | enter submitted isOpen out kind fits live read accept =>
    exact placed.enter submitted isOpen out kind live read accept
  | park submitted isOpen out kind sock newsock fits live =>
    exact placed.park submitted isOpen out kind sock newsock live
  | arm live bare head => exact placed.arm live bare head
  | disarm armed kind sock => exact placed.disarm armed kind sock
  | headed empty => exact placed.headed empty
  | exit pending =>
    rename_i t
    have sock : ((c.disarm t).leaveSock t).sock = (c.leaveSock t).sock := by
      have same : (c.disarm t).task t = c.task t := rfl
      unfold leaveSock
      rw [same]
      cases (c.task t).sock <;> rfl
    rw [leaveSock_rest]
    refine placed.leave pending sock rfl ?_ ?_ (placed.nodup.erase t) ?_
    · intro u other; simp [Pending, Core.disarm, other]
    · intro there; simp [Pending] at there
    · intro u
      change u ∈ c.armed.erase t ↔ _
      rw [placed.nodup.mem_erase_iff]
      simp only [Pending, Function.update_apply]
      grind
  | sever armed kind fits =>
    rename_i t
    obtain ⟨pending, _⟩ := (placed.armed t).mp armed
    rw [leaveSock_rest]
    refine placed.leave pending rfl rfl ?_ ?_ placed.nodup ?_
    · intro u other
      simp [Pending, Core.modTask, other]
    · intro there; simp [Core.modTask]
    · intro u
      change u ∈ c.armed ↔ _
      have still : Pending (Core.modTask { c with sock := (c.leaveSock t).sock } t
          ({ · with sock := none })) x t := by
        simpa [Pending, Core.modTask] using pending
      split
      · rename_i same; subst same; exact ⟨fun _ => still, fun _ => armed⟩
      · exact Iff.rfl
  | settle submitted isOpen out settles allowed => exact placed.settle out _
  | send pending on fits first =>
    rename_i t s n
    exact (placed.modTask t (fun k => { k with off := k.off + n }) rfl
      fun _ => ⟨rfl, rfl, rfl⟩).same rfl rfl rfl rfl fun _ _ => ⟨rfl, rfl, rfl⟩
  | sockNew loose early => exact placed.sockNew _ bound
  | setFd live mine without loose =>
    refine placed.same rfl rfl rfl rfl fun u _ => ?_
    simp only [SameLinks, modSock, Function.update_apply]
    grind
  | release unused => exact placed.sockRelease unused
  | detach isOpen held gives =>
    rename_i t
    exact (placed.modTask t ({ · with detached := true }) rfl fun _ => ⟨rfl, rfl, rfl⟩).same
      rfl rfl rfl rfl fun _ _ => ⟨rfl, rfl, rfl⟩
  | free done held gives =>
    rename_i t
    exact (placed.modTask t (fun k => { k with frees := k.frees + 1 }) rfl
      fun _ => ⟨rfl, rfl, rfl⟩).same rfl rfl rfl rfl fun _ _ => ⟨rfl, rfl, rfl⟩
  | note notes same => exact placed.modTask _ _ (by rw [same]) fun _ => by rw [same]; simp
  | _ => exact placed.same rfl rfl rfl rfl fun _ _ => ⟨rfl, rfl, rfl⟩

end Myio.Loop.Core
