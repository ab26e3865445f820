import Myio.Pool.Places

/-! Every descriptor is closed once, and until then somebody has it. -/

namespace Myio

open Function (update)

namespace Core

/-- A worker is closing a descriptor whose socket it has unlinked. -/
def Leaving (c : Core) (fd : Fd) : Prop :=
  ∃ w t, c.At w t (.release fd) ∨ c.At w t (.closeFd fd)

/-- No descriptor is closed twice, and none before its time. -/
structure Once (c : Core) : Prop where
  live : ∀ s, s ∈ c.socks → (c.desc (c.sock s).fd).closes = 0
  leaving : ∀ fd, c.Leaving fd → (c.desc fd).closes = 0
  once : ∀ fd, (c.desc fd).closes ≤ 1

variable {o : OpKind → Result → Prop} {c c' : Core} {x x' : TaskId → Bool}
  {h h' : SockId → Bool} {fd : Fd}

/-- Nothing is closed, and no socket comes or goes. -/
theorem Once.congr (once : c.Once) (socks : c'.socks = c.socks)
    (sock : ∀ s, (c'.sock s).fd = (c.sock s).fd)
    (desc : ∀ fd, (c'.desc fd).closes = (c.desc fd).closes)
    (leaving : ∀ fd, c'.Leaving fd → c.Leaving fd) : c'.Once := by
  constructor
  case live => intro s live; rw [desc, sock]; exact once.live s (socks ▸ live)
  case leaving => intro fd there; rw [desc]; exact once.leaving fd (leaving fd there)
  case once => intro fd; rw [desc]; exact once.once fd

/-- A worker moves on and is not closing a descriptor then. -/
theorem Leaving.of_setPc {w : WorkerId} {p : Pc} (there : (c.setPc w p).Leaving fd)
    (bare : ∀ t, p ≠ .running t (.release fd) ∧ p ≠ .running t (.closeFd fd)) : c.Leaving fd := by
  obtain ⟨v, t, at_ | at_⟩ := there <;> rw [setPc_at] at at_ <;> split at at_
  · exact absurd at_.2 (bare t).1
  · exact ⟨v, t, .inl at_⟩
  · exact absurd at_.2 (bare t).2
  · exact ⟨v, t, .inr at_⟩

/-- Where no worker has moved, nobody has begun to close a descriptor. -/
theorem Leaving.of_same (there : c'.Leaving fd) (nworker : c'.nworker = c.nworker)
    (worker : ∀ w, (c'.worker w).pc = (c.worker w).pc) : c.Leaving fd := by
  obtain ⟨w, t, at_⟩ := there
  refine ⟨w, t, ?_⟩
  simpa only [At, nworker, worker] using at_

/-- What a worker is closing is the descriptor of a socket that is off the list. -/
theorem Leaving.sock (there : c.Leaving fd) (placed : c.Placed x h) (closes : c.Closes x)
    (phased : c.Phased) : ∃ s, s < c.nsock ∧ s ∉ c.socks ∧ (c.sock s).fd = fd := by
  obtain ⟨w, t, at_ | at_⟩ := there
  · have inside := (placed.run_pending w t at_.runs).1.1
    obtain ⟨isClose, off⟩ : c.PhaseOk t (.release fd) := phased w t _ at_
    obtain ⟨s, sock⟩ := closes.close_sock t inside isClose
    obtain ⟨unlinked, _, isFd⟩ := off s sock
    exact ⟨s, closes.sock_bound t s inside sock, unlinked, isFd.symm⟩
  · have inside := (placed.run_pending w t at_.runs).1.1
    obtain ⟨isClose, off⟩ : c.PhaseOk t (.closeFd fd) := phased w t _ at_
    obtain ⟨s, sock⟩ := closes.close_sock t inside isClose
    obtain ⟨unlinked, _, isFd⟩ := off s sock
    exact ⟨s, closes.sock_bound t s inside sock, unlinked, isFd.symm⟩

/-- Only one worker closes a descriptor. -/
theorem Leaving.unique {w v : WorkerId} {t u : TaskId} (placed : c.Placed x h)
    (owned : c.Owned) (closes : c.Closes x) (phased : c.Phased)
    (at_ : c.At w t (.release fd) ∨ c.At w t (.closeFd fd))
    (at_' : c.At v u (.release fd) ∨ c.At v u (.closeFd fd)) : w = v := by
  -- Both workers run the close task of the one socket that has the descriptor.
  have task : ∀ {w t}, c.At w t (.release fd) ∨ c.At w t (.closeFd fd) → c.Runs w t ∧ t < c.ntask ∧
      (c.task t).kind = .opSockClose ∧ ∃ s, (c.task t).sock = some s ∧ s < c.nsock ∧
        (c.sock s).fd = fd := by
    intro w t there
    have runs : c.Runs w t := by rcases there with there | there <;> exact there.runs
    have inside := (placed.run_pending w t runs).1.1
    have off : (c.task t).kind = .opSockClose ∧
        ∀ s, (c.task t).sock = some s → fd = (c.sock s).fd := by
      rcases there with there | there
      · obtain ⟨isClose, off⟩ : c.PhaseOk t (.release fd) := phased w t _ there
        exact ⟨isClose, fun s sock => (off s sock).2.2⟩
      · obtain ⟨isClose, off⟩ : c.PhaseOk t (.closeFd fd) := phased w t _ there
        exact ⟨isClose, fun s sock => (off s sock).2.2⟩
    obtain ⟨s, sock⟩ := closes.close_sock t inside off.1
    exact ⟨runs, inside, off.1, s, sock, closes.sock_bound t s inside sock, (off.2 s sock).symm⟩
  obtain ⟨runs, inside, isClose, s, sock, made, isFd⟩ := task at_
  obtain ⟨runs', inside', isClose', s', sock', made', isFd'⟩ := task at_'
  obtain rfl := owned.sock_inj s s' made made' (isFd.trans isFd'.symm)
  obtain rfl := closes.close_inj t u s inside inside' isClose isClose' sock sock'
  exact placed.run_inj w v t runs runs'

/-- A descriptor that nobody else has is closed. -/
theorem Once.closeDesc (once : c.Once) (zero : (c.desc fd).closes = 0)
    (socks : ∀ s, s ∈ c'.socks → s ∈ c.socks ∧ (c.sock s).fd ≠ fd)
    (sock : ∀ s, (c'.sock s).fd = (c.sock s).fd)
    (leaving : ∀ u, c'.Leaving u → c.Leaving u ∧ u ≠ fd)
    (desc : c'.desc = (c.closeDesc fd).desc) : c'.Once := by
  have closes : ∀ u, (c'.desc u).closes = if u = fd then 1 else (c.desc u).closes := by
    intro u
    rw [desc]
    simp only [Core.closeDesc, modDesc, Function.update_apply]
    split
    · rename_i same; subst same; simp [zero]
    · rfl
  constructor
  case live =>
    intro s live
    obtain ⟨before, other⟩ := socks s live
    rw [closes, sock, if_neg other]
    exact once.live s before
  case leaving =>
    intro u there
    obtain ⟨before, other⟩ := leaving u there
    rw [closes, if_neg other]
    exact once.leaving u before
  case once =>
    intro u
    rw [closes]
    split
    · exact Nat.le_refl 1
    · exact once.once u

/-- The kernel hands out a descriptor. -/
theorem Once.newDesc (once : c.Once) (bound : ∀ s, s ∈ c.socks → (c.sock s).fd < c.ndesc)
    (leaving : ∀ fd, c.Leaving fd → fd < c.ndesc) : c.newDesc.Once := by
  have old : ∀ fd, fd < c.ndesc → c.newDesc.desc fd = c.desc fd := fun fd less => by
    simp [Core.newDesc, Function.update_of_ne (Nat.ne_of_lt less)]
  constructor
  case live =>
    intro s live
    change (c.newDesc.desc (c.sock s).fd).closes = 0
    rw [old _ (bound s live)]
    exact once.live s live
  case leaving => intro fd there; rw [old _ (leaving fd there)]; exact once.leaving fd there
  case once =>
    intro fd
    simp only [Core.newDesc, Function.update_apply]
    split
    · exact Nat.zero_le 1
    · exact once.once fd

/-- Closing the sockets of a list closes their descriptors once each. -/
theorem closeSocks_once (l : List SockId) : ∀ {c : Core}, l.Nodup →
    (∀ s u, s ∈ l → u ∈ l → (c.sock s).fd = (c.sock u).fd → s = u) → ∀ {s}, s ∈ l →
      ((Pool.closeSocks c l).desc (c.sock s).fd).closes = (c.desc (c.sock s).fd).closes + 1 := by
  induction l with
  | nil => intro c _ _ s there; cases there
  | cons u rest ih =>
    intro c nodup inj s there
    obtain ⟨absent, nodup⟩ := List.nodup_cons.mp nodup
    have same : ∀ v, (((c.closeDesc (c.sock u).fd).sockFree u).sock v).fd = (c.sock v).fd := by
      intro v
      simp only [sockFree, modSock, Core.closeDesc, modDesc, Function.update_apply]
      grind
    rw [Pool.closeSocks]
    rcases List.mem_cons.mp there with rfl | below
    · -- The head is closed first, and none of the others has its descriptor.
      rw [closeSocks_desc rest fun v below => ?_]
      · simp [sockFree, modSock, Core.closeDesc, modDesc]
      · rw [same]
        intro equal
        exact absent (inj v s (List.mem_cons_of_mem s below) (by simp) equal ▸ below)
    · have other : (c.sock s).fd ≠ (c.sock u).fd := fun equal =>
        absent (inj s u there (by simp) equal ▸ below)
      have later := ih (c := (c.closeDesc (c.sock u).fd).sockFree u) nodup (fun v v' belowV belowV' => by
        rw [same, same]
        exact inj v v' (List.mem_cons_of_mem u belowV) (List.mem_cons_of_mem u belowV')) below
      rw [same] at later
      rw [later]
      simp [sockFree, modSock, Core.closeDesc, modDesc, other]

/-- Every move closes only what was open, and closes it once. -/
theorem Once.move (move : Move o ⟨c, x, h⟩ ⟨c', x', h'⟩) (once : c.Once)
    (sound : Sound ⟨c, x, h⟩) : c'.Once := by
  obtain ⟨placed, _, _, linked, _, owned, closes, phased, _, _⟩ := sound
  have away : ∀ {fd}, c.Leaving fd → ∃ s, s < c.nsock ∧ s ∉ c.socks ∧ (c.sock s).fd = fd :=
    fun there => there.sock placed closes phased
  have bound : ∀ {fd}, c.Leaving fd → fd < c.ndesc := fun there => by
    obtain ⟨s, made, _, rfl⟩ := away there
    exact owned.sock_bound s made
  have same : ∀ fd, c.Leaving fd → c.Leaving fd := fun _ => id
  cases move with
  | stir stirred =>
    have pcs := stirred.pcs
    rw [stirred.rest] at pcs ⊢
    refine once.congr rfl (fun _ => rfl) (fun _ => rfl) fun fd there => ?_
    obtain ⟨w, t, at_⟩ := there
    exact ⟨w, t, at_.imp (pcs w t _).mp (pcs w t _).mp⟩
  | exit pending unstarted =>
    rw [leaveSock_rest, queueRemove_rest]
    exact once.congr rfl (fun s => by rw [leaveSock_sock]) (fun _ => rfl) same
  | exitRun at_ pending =>
    rw [leaveSock_rest]
    exact once.congr rfl (fun s => by rw [leaveSock_sock]; rfl) (fun _ => rfl)
      fun fd there => Leaving.of_setPc (p := .ready) there (by simp)
  | fail live bare usable wq =>
    rw [failHead_eq]
    refine once.congr rfl (fun s => ?_) (fun _ => rfl) same
    simp only [modTask, modSock, Function.update_apply]; grind
  | createClose live open_ mine =>
    refine once.congr rfl (fun s => ?_) (fun _ => rfl) same
    simp only [taskNew, modSock, Function.update_apply]; grind
  | enqueue submitted open_ unstarted out kind live onSock =>
    split
    · refine once.congr rfl (fun s => ?_) (fun _ => rfl) same
      simp only [queuePush, inflightInc, modSock, Function.update_apply]; grind
    · exact once.congr rfl (fun _ => rfl) (fun _ => rfl) same
  | park submitted open_ unstarted out kind sock live usable =>
    refine once.congr rfl (fun s => ?_) (fun _ => rfl) same
    simp only [inflightInc, modSock, Function.update_apply]; grind
  | take queue inside free =>
    rename_i w t rest
    exact once.congr rfl (fun _ => rfl) (fun _ => rfl)
      fun fd there => Leaving.of_setPc (p := .running t .entry) there (by simp)
  | phase at_ plain plain' kept =>
    rename_i w t from_ next
    refine once.congr rfl (fun _ => rfl) (fun _ => rfl)
      fun fd there => Leaving.of_setPc there fun u => ⟨fun is => ?_, fun is => ?_⟩
    -- The phases a worker may just move on through are not those in which it closes.
    all_goals
      simp only [Pc.running.injEq] at is
      simp [is.2, Phase.plain] at plain'
  | kicks =>
    refine once.congr rfl (fun _ => rfl) (fun _ => rfl) fun fd there => there.of_same rfl fun v => ?_
    simp only [modWorker, Function.update_apply]; grind
  | win at_ plain kept =>
    rename_i w t from_ res
    refine (once.newDesc (fun s live => owned.sock_bound s (linked.bound s live)) fun fd there =>
      bound there).congr rfl (fun _ => rfl) (fun _ => rfl) fun fd there => ?_
    exact Leaving.of_setPc (c := c.newDesc) there (by simp)
  | send at_ fits =>
    rename_i w t off n
    refine once.congr rfl (fun _ => rfl) (fun u => ?_)
      fun fd there => Leaving.of_setPc (p := .running t (.sending (off + n))) there (by simp)
    simp only [Pool.sendBytes, Core.setPc, modWorker, modTask, modDesc, Function.update_apply]
    grind
  | link loose =>
    rename_i fd
    refine ⟨fun s live => ?_, once.leaving, once.once⟩
    rcases List.mem_cons.mp live with rfl | before
    · simp [Core.sockLink, loose.fresh]
    · have old : s ≠ c.nsock := Nat.ne_of_lt (linked.bound s before)
      simp only [Core.sockLink, Function.update_of_ne old]
      exact once.live s before
  | close loose =>
    rename_i fd
    refine once.closeDesc (by rw [loose.fresh]) (fun s live => ⟨live, ?_⟩) (fun _ => rfl)
      (fun u there => ⟨there, ?_⟩) rfl
    · exact loose.sock s (linked.bound s live)
    · rintro rfl
      obtain ⟨s, made, _, isFd⟩ := away there
      exact loose.sock s made isFd
  | discard unused =>
    rename_i s
    refine once.closeDesc (once.live s unused.live) (fun u live => ?_)
      (fun u => ?_) (fun fd there => ?_) rfl
    · obtain ⟨other, before⟩ := (linked.mem_unlink s u).mp live
      refine ⟨before, fun equal => other ?_⟩
      exact owned.sock_inj u s (linked.bound u before) (linked.bound s unused.live) equal
    · simp only [sockDiscard, sockFree, modSock, Core.closeDesc, modDesc, sockUnlink,
        Function.update_apply]
      grind
    · refine ⟨there, ?_⟩
      rintro rfl
      obtain ⟨u, made, off, isFd⟩ := away there
      exact off (owned.sock_inj u s made (linked.bound s unused.live) isFd ▸ unused.live)
  | unlink at_ sock unused =>
    rename_i w t s
    -- The socket of a close task whose worker still waits is on the list.
    have pending := (placed.run_pending w t at_.runs).1
    have live : s ∈ c.socks := by
      rcases closes.close_live t s pending (phased w t _ at_) sock with live | ⟨v, phase, at_', off⟩
      · exact live
      · obtain rfl := placed.run_inj w v t at_.runs at_'.runs
        have equal := at_.2.symm.trans at_'.2
        cases equal
        cases off
    refine ⟨fun u there => ?_, fun fd there => ?_, once.once⟩
    · exact once.live u ((linked.mem_unlink s u).mp there).2
    · by_cases isFd : fd = (c.sock s).fd
      · subst isFd; exact once.live s live
      · refine once.leaving fd (Leaving.of_setPc (c := c.sockUnlink s) there fun u => ?_)
        exact ⟨fun is => isFd (by simp only [Pc.running.injEq, Phase.release.injEq] at is; exact is.2.symm),
          by simp⟩
  | freeSock at_ sock =>
    rename_i w t s fd
    refine once.congr rfl (fun u => ?_) (fun _ => rfl) fun v there => ?_
    · simp only [Core.setPc, modWorker, sockFree, modSock, Function.update_apply]; grind
    · by_cases isFd : v = fd
      · subst isFd; exact ⟨w, t, .inl at_⟩
      · refine Leaving.of_setPc (c := c.sockFree s) there fun u => ⟨by simp, fun is => isFd ?_⟩
        simp only [Pc.running.injEq, Phase.closeFd.injEq] at is
        exact is.2.symm
  | closeFd at_ =>
    rename_i w t fd
    obtain ⟨s, made, off, isFd⟩ := away ⟨w, t, .inr at_⟩
    refine once.closeDesc (once.leaving fd ⟨w, t, .inr at_⟩) (fun u live => ⟨live, fun equal => ?_⟩)
      (fun _ => rfl) (fun v there => ?_) rfl
    · exact off (owned.sock_inj u s (linked.bound u live) made (equal.trans isFd.symm) ▸ live)
    · have before : c.Leaving v := Leaving.of_setPc (c := c.closeDesc fd) there (by simp)
      refine ⟨before, ?_⟩
      rintro rfl
      -- The one worker that was closing it has just done so.
      obtain ⟨w', t', at_'⟩ := there
      have still : w' ≠ w := by
        rintro rfl
        rcases at_' with at_' | at_' <;> rw [setPc_at, if_pos rfl] at at_' <;> cases at_'.2
      refine still (Leaving.unique (t := t') placed owned closes phased ?_ (.inr at_))
      rcases at_' with at_' | at_' <;> rw [setPc_at, if_neg still] at at_'
      · exact .inl at_'
      · exact .inr at_'
  | wrap free =>
    exact (once.newDesc (fun s live => owned.sock_bound s (linked.bound s live)) fun fd there =>
      bound there).congr rfl (fun _ => rfl) (fun _ => rfl) fun _ => id
  | sweep idle =>
    -- No task is left, so no worker is closing anything.
    have none : ∀ fd, ¬ c.Leaving fd := by
      rintro fd ⟨w, t, at_ | at_⟩
      all_goals exact idle t (placed.run_pending w t at_.runs).1
    rw [closeSocks_rest]
    refine ⟨by simp, fun fd there => absurd there (none fd), fun fd => ?_⟩
    by_cases listed : ∃ s, s ∈ c.socks ∧ (c.sock s).fd = fd
    · obtain ⟨s, live, rfl⟩ := listed
      refine Nat.le_of_eq ((closeSocks_once c.socks linked.nodup (fun u v liveU liveV => ?_) live).trans ?_)
      · exact owned.sock_inj u v (linked.bound u liveU) (linked.bound v liveV)
      · rw [once.live s live]
    · have other : ∀ s, s ∈ c.socks → (c.sock s).fd ≠ fd := fun s live isFd => listed ⟨s, live, isFd⟩
      change ((Pool.closeSocks c c.socks).desc fd).closes ≤ 1
      rw [closeSocks_desc c.socks other]
      exact once.once fd
  | _ => exact once.congr rfl (fun _ => rfl) (fun _ => rfl) same

theorem Once.moves {a b : Cut} (moves : Moves o a b) (sound : Sound a) (once : a.core.Once) :
    b.core.Once := by
  induction moves with
  | refl => exact once
  | snoc before move ih => exact ih.move move (sound.moves before)

/-! ### Nothing leaks -/

end Core

/-- The descriptor a worker has in hand: it is about to wrap it, or to close it. -/
def Pc.hand? : Pc → Option Fd
  | .running _ (.commit _ newfd) => newfd
  | .running _ (.release fd) | .running _ (.closeFd fd) => some fd
  | _ => none

/-- A worker with a descriptor in hand has won it, or is closing it. -/
theorem Pc.hand_cases {pc : Pc} {fd : Fd} (hand : pc.hand? = some fd) :
    (∃ t res, pc = .running t (.commit res (some fd))) ∨
      ∃ t, pc = .running t (.release fd) ∨ pc = .running t (.closeFd fd) := by
  cases pc with
  | running t phase =>
    cases phase with
    | commit res newfd => exact .inl ⟨t, res, by rw [show newfd = some fd from hand]⟩
    | release fd' => exact .inr ⟨t, .inl (by rw [Option.some.inj (show some fd' = some fd from hand)])⟩
    | closeFd fd' => exact .inr ⟨t, .inr (by rw [Option.some.inj (show some fd' = some fd from hand)])⟩
    | _ => cases hand
  | _ => cases hand

/-- Only a worker that runs a task has anything in hand. -/
theorem Pc.task_of_hand {pc : Pc} {fd : Fd} (hand : pc.hand? = some fd) :
    ∃ t phase, pc = .running t phase := by
  cases pc with
  | running t phase => exact ⟨t, phase, rfl⟩
  | _ => cases hand

namespace Core

variable {c c' : Core} {fd : Fd}

/-- Somebody has a descriptor: a linked socket, or a thread that is to wrap or to close it. -/
def Has (c : Core) (fd : Fd) : Prop :=
  (∃ s, s ∈ c.socks ∧ (c.sock s).fd = fd) ∨
    (∃ w, w < c.nworker ∧ (c.worker w).pc.hand? = some fd) ∨ c.wrapping = some fd

/-- Somebody has every descriptor that is not closed. -/
structure Guarded (c : Core) : Prop where
  bound : ∀ s, s ∈ c.socks → s < c.nsock
  has : ∀ fd, fd < c.ndesc → (c.desc fd).closes = 0 → c.Has fd

/-- Whoever had a descriptor has it still, unless it was closed. -/
theorem Guarded.congr (guarded : c.Guarded) (bound : ∀ s, s ∈ c'.socks → s < c'.nsock)
    (ndesc : c'.ndesc = c.ndesc)
    (desc : ∀ fd, (c'.desc fd).closes = 0 → (c.desc fd).closes = 0)
    (has : ∀ fd, (c'.desc fd).closes = 0 → c.Has fd → c'.Has fd) : c'.Guarded := by
  refine ⟨bound, fun fd made isOpen => has fd isOpen ?_⟩
  exact guarded.has fd (ndesc ▸ made) (desc fd isOpen)

/-- A change of what has nothing to do with descriptors. -/
theorem Guarded.of_rest (guarded : c.Guarded)
    (rest : c' = { c with task := c'.task, ntask := c'.ntask, queue := c'.queue
                          nqueued := c'.nqueued, nrunning := c'.nrunning, shutdown := c'.shutdown
                          gone := c'.gone, held := c'.held, claimed := c'.claimed }) :
    c'.Guarded := by
  rw [rest]
  exact ⟨guarded.bound, guarded.has⟩

/-- Whoever had a descriptor in hand has it still. -/
theorem Has.of_hands (had : c.Has fd)
    (socks : ∀ s, s ∈ c.socks → (c.sock s).fd = fd → ∃ u, u ∈ c'.socks ∧ (c'.sock u).fd = fd)
    (wrapping : c.wrapping = some fd → c'.Has fd)
    (hands : ∀ w, w < c.nworker → (c.worker w).pc.hand? = some fd → c'.Has fd) : c'.Has fd := by
  rcases had with ⟨s, live, isFd⟩ | ⟨w, inside, hand⟩ | wraps
  · exact .inl (socks s live isFd)
  · exact hands w inside hand
  · exact wrapping wraps

/-- The sockets change, and no thread lets go of anything. -/
theorem Has.of_socks (had : c.Has fd) (nworker : c'.nworker = c.nworker)
    (worker : ∀ w, (c'.worker w).pc = (c.worker w).pc) (wrapping : c'.wrapping = c.wrapping)
    (socks : ∀ s, s ∈ c.socks → (c.sock s).fd = fd → ∃ u, u ∈ c'.socks ∧ (c'.sock u).fd = fd) :
    c'.Has fd :=
  had.of_hands socks (fun wraps => .inr (.inr (wrapping.trans wraps))) fun w inside hand =>
    .inr (.inl ⟨w, nworker ▸ inside, by rw [worker]; exact hand⟩)

/-- A change of one socket's record that leaves it its descriptor. -/
theorem Guarded.modSock (guarded : c.Guarded) (s : SockId) (f : Sock → Sock)
    (same : ∀ k, (f k).fd = k.fd) : (c.modSock s f).Guarded := by
  have fd : ∀ u, ((c.modSock s f).sock u).fd = (c.sock u).fd := by
    intro u
    simp only [Core.modSock, Function.update_apply]
    split
    · rename_i isS; subst isS; exact same _
    · rfl
  refine guarded.congr guarded.bound rfl (fun _ => id) fun v _ had =>
    had.of_socks rfl (fun _ => rfl) rfl fun u live isFd => ?_
  exact ⟨u, live, (fd u).trans isFd⟩

/-- What is open after a descriptor is closed. -/
theorem closeDesc_open {fd u : Fd} (isOpen : ((c.closeDesc fd).desc u).closes = 0) :
    u ≠ fd ∧ (c.desc u).closes = 0 := by
  simp only [Core.closeDesc, modDesc, Function.update_apply] at isOpen
  split at isOpen
  · cases isOpen
  · rename_i other; exact ⟨other, isOpen⟩

theorem Guarded.closeDesc (guarded : c.Guarded) (fd : Fd) : (c.closeDesc fd).Guarded :=
  guarded.congr guarded.bound rfl (fun _ isOpen => (closeDesc_open isOpen).2) fun _ _ had =>
    had.of_socks rfl (fun _ => rfl) rfl fun s live isFd => ⟨s, live, isFd⟩

/-- A socket is closed and freed. -/
theorem Guarded.sockDiscard (guarded : c.Guarded) (s : SockId) : (c.sockDiscard s).Guarded := by
  have fd : ∀ u, ((c.sockDiscard s).sock u).fd = (c.sock u).fd := by
    intro u
    simp only [Core.sockDiscard, sockFree, Core.modSock, Core.closeDesc, modDesc, sockUnlink,
      Function.update_apply]
    grind
  refine guarded.congr (fun u live => guarded.bound u (List.mem_of_mem_erase live)) rfl
    (fun _ isOpen => (closeDesc_open isOpen).2) fun v isOpen had => ?_
  -- Any other socket stays on the list, and the descriptor of this one is closed.
  refine had.of_socks rfl (fun _ => rfl) rfl fun u live isFd => ⟨u, ?_, (fd u).trans isFd⟩
  refine (List.mem_erase_of_ne ?_).mpr live
  rintro rfl
  exact (closeDesc_open isOpen).1 isFd.symm

/-- A descriptor becomes a socket. -/
theorem Guarded.sockLink (guarded : c.Guarded) (fd : Fd) : (c.sockLink fd).Guarded := by
  refine guarded.congr (fun u live => ?_) rfl (fun _ => id) fun v _ had =>
    had.of_socks rfl (fun _ => rfl) rfl fun u live isFd => ⟨u, List.mem_cons_of_mem _ live, ?_⟩
  · rcases List.mem_cons.mp live with rfl | before
    · exact Nat.lt_succ_self _
    · exact Nat.lt_succ_of_lt (guarded.bound u before)
  · have old : u ≠ c.nsock := Nat.ne_of_lt (guarded.bound u live)
    simpa only [Core.sockLink, Function.update_of_ne old] using isFd

/-- Workers with no task come, go, sleep or wake up. -/
theorem Guarded.stirred (guarded : c.Guarded) (stirred : Stirred c c') : c'.Guarded := by
  have pcs := stirred.pcs
  have grown := stirred.grown
  rw [stirred.rest] at pcs grown ⊢
  refine guarded.congr guarded.bound rfl (fun _ => id) fun fd _ had =>
    had.of_hands (fun s live isFd => ⟨s, live, isFd⟩) (fun wraps => .inr (.inr wraps))
      fun w inside hand => .inr (.inl ⟨w, Nat.lt_of_lt_of_le inside grown, ?_⟩)
  obtain ⟨t, phase, pc⟩ := Pc.task_of_hand hand
  rw [((pcs w t phase).mpr ⟨inside, pc⟩).2, ← pc]
  exact hand

/-- A worker moves on; what it had in hand is on a socket now, or closed. -/
theorem Guarded.setPc (guarded : c.Guarded) {w : WorkerId} (pc : Pc)
    (placed : ∀ fd, (c.worker w).pc.hand? = some fd → (c.desc fd).closes = 0 →
      pc.hand? = some fd ∨ ∃ s, s ∈ c.socks ∧ (c.sock s).fd = fd) : (c.setPc w pc).Guarded := by
  refine guarded.congr guarded.bound rfl (fun _ => id) fun fd isOpen had =>
    had.of_hands (fun s live isFd => ⟨s, live, isFd⟩) (fun wraps => .inr (.inr wraps))
      fun v inside hand => ?_
  by_cases isW : v = w
  · subst isW
    rcases placed fd hand isOpen with still | linked
    · exact .inr (.inl ⟨v, inside, by simpa [Core.setPc, modWorker] using still⟩)
    · exact .inl linked
  · exact .inr (.inl ⟨v, inside, by simpa [Core.setPc, modWorker, isW] using hand⟩)

/-- The kernel hands out a descriptor, which somebody takes in the same breath. -/
theorem Guarded.newDesc (guarded : c.Guarded) (bound : ∀ s, s ∈ c'.socks → s < c'.nsock)
    (ndesc : c'.ndesc = c.ndesc + 1) (desc : c'.desc = c.newDesc.desc)
    (new : c'.Has c.ndesc) (old : ∀ fd, c.Has fd → c'.Has fd) : c'.Guarded := by
  refine ⟨bound, fun fd made isOpen => ?_⟩
  by_cases isNew : fd = c.ndesc
  · subst isNew; exact new
  · rw [ndesc] at made
    have before : fd < c.ndesc := Nat.lt_of_le_of_ne (Nat.le_of_lt_succ made) isNew
    have same : c.newDesc.desc fd = c.desc fd := by simp [Core.newDesc, isNew]
    rw [desc, same] at isOpen
    exact old fd (guarded.has fd before isOpen)

end Core

namespace Pool

open Core

variable {p p' : Pool} {w : WorkerId} {t : TaskId} {s : SockId}

theorem guarded_stable : Stable fun p => p.Guarded where
  piece guarded piece := by
    cases piece with
    | modSock s f same => exact guarded.modSock s f same
    | sockDiscard s => exact guarded.sockDiscard s
    | sockLink fd => exact guarded.sockLink fd
    | closeDesc fd => exact guarded.closeDesc fd
    | queueRemove t => exact guarded.of_rest (by rw [on_toCore, queueRemove_rest])
    | failHead s n =>
      rw [on_toCore, failHead_eq]
      exact (guarded.modSock s (fun k => { k with inflight := k.inflight - 1, wq := k.wq.tail })
        fun _ => rfl).of_rest rfl
    | _ => exact guarded.of_rest rfl
  dispatch {p} guarded t := by
    have pushed : (p.queuePush t).Guarded := guarded.of_rest rfl
    unfold dispatchLocked
    dsimp only
    split
    · exact pushed.stirred (wakeAll_stirred (p.on (·.queuePush t)) fun w => asleep_of_signalled)
    · by_cases created : (p.on (·.queuePush t)).os.create (p.on (·.queuePush t)).tick = true
      · simp only [spawnThread, created, if_true]
        exact pushed.stirred (spawned_stirred (p.on (·.queuePush t)))
      · simp only [spawnThread, created]
        have back : ((p.queuePush t).queueRemove t).Guarded := by
          rw [queueRemove_rest]
          exact pushed.of_rest rfl
        exact back

/-- A kick moves no worker. -/
theorem guarded_kick {c : Core} (guarded : c.Guarded) (t : TaskId) : (kick c t).Guarded :=
  guarded.congr guarded.bound rfl (fun _ => id) fun _ _ had =>
    had.of_socks (apart_kick c t).nworker (apart_kick c t).worker rfl fun s live isFd =>
      ⟨s, live, isFd⟩

/-- What a task has won and nobody will claim is closed. -/
theorem guarded_reap {c : Core} (guarded : c.Guarded) (t : TaskId) : (c.reap t).Guarded := by
  unfold Core.reap
  split
  · exact (guarded.sockDiscard _).of_rest rfl
  · exact guarded.of_rest rfl

theorem guarded_complete (guarded : p.Guarded) (t : TaskId) (res : Result) :
    (p.complete t res).Guarded := by
  have ended : ({ p.finish t res with nrunning := p.nrunning - 1 } : Core).Guarded :=
    guarded.of_rest rfl
  change (Core.reapIfDetached _ t).Guarded
  unfold Core.reapIfDetached
  split
  · exact guarded_reap ended t
  · exact ended

/-- The commit of `worker_run`: what the worker had in hand is a socket afterwards, or closed. -/
theorem guarded_workerCommit {res : Result} {newfd : Option Fd} (guarded : p.Guarded)
    (pc : (p.worker w).pc = .running t (.commit res newfd)) (linked : Bool) :
    (p.workerCommit w t res newfd linked).Guarded := by
  have hand : (p.worker w).pc.hand? = newfd := by rw [pc]; rfl
  have wrapped : ((p.on (·.setPc w .ready)).wrapWon res newfd linked).1.Guarded := by
    unfold wrapWon
    cases newfd with
    | none => exact guarded.setPc .ready fun fd held => by rw [hand] at held; cases held
    | some fd =>
      dsimp only
      split
      · refine (guarded.sockLink fd).setPc .ready fun fd' held _ => .inr ?_
        obtain rfl : fd = fd' := Option.some.inj (hand.symm.trans held)
        exact ⟨p.nsock, by simp [Core.sockLink], by simp [Core.sockLink]⟩
      · refine (guarded.closeDesc fd).setPc .ready fun fd' held isOpen => ?_
        obtain rfl : fd = fd' := Option.some.inj (hand.symm.trans held)
        exact absurd rfl (closeDesc_open isOpen).1
  exact guarded_complete (guarded_stable.settleSock wrapped t _) t _

/-- One move of a worker that is running a task. -/
theorem guarded_runStep {phase : Phase} {act : Act} (guarded : p.Guarded)
    (at_ : p.At w t phase) (taken : p.runStep w t phase act = some p') : p'.Guarded := by
  have pc : (p.worker w).pc = .running t phase := at_.2
  have moved : ∀ next, (Pc.running t phase).hand? = none → (p.setPc w (.running t next)).Guarded :=
    fun next bare => guarded.setPc _ fun fd held => by rw [pc, bare] at held; cases held
  have won : ∀ res, (Pc.running t phase).hand? = none →
      (p.newDesc.setPc w (.running t (.commit res (some p.ndesc)))).Guarded := by
    intro res bare
    refine guarded.newDesc guarded.bound rfl rfl (.inr (.inl ⟨w, at_.1, ?_⟩)) fun fd had =>
      had.of_hands (fun s live isFd => ⟨s, live, isFd⟩) (fun wraps => .inr (.inr wraps))
        fun v inside hand => .inr (.inl ⟨v, inside, ?_⟩)
    · simp [Core.setPc, modWorker, Pc.hand?]
    · have isV : v ≠ w := by
        rintro rfl
        rw [pc, bare] at hand; cases hand
      simpa [Core.setPc, modWorker, Core.newDesc, isV] using hand
  unfold runStep at taken
  split at taken
  · cases taken
    unfold workerEnter
    split
    case h_2 => split <;> exact moved _ rfl
    all_goals exact moved _ rfl
  · split at taken
    · cases taken; exact moved _ rfl
    · split at taken <;> cases taken <;> exact moved _ rfl
  · split at taken <;> cases taken
    · -- The wakeup is used up, and the worker is back at the top of the loop.
      have same : ((p.modWorker w fun k => { k with kicks := k.kicks - 1 }).setPc w
          (.running t .check)).Guarded := by
        refine (moved .check rfl).congr guarded.bound rfl (fun _ => id) fun fd _ had =>
          had.of_socks rfl (fun v => ?_) rfl fun s live isFd => ⟨s, live, isFd⟩
        simp only [Core.setPc, modWorker, Function.update_apply]
        grind
      exact same
    · exact moved _ rfl
  · cases taken; exact moved _ rfl
  · split at taken <;> cases taken
    · exact won _ rfl
    · exact won _ rfl
  · split at taken <;> cases taken
    refine (moved (.sending _) rfl).congr guarded.bound rfl (fun fd isOpen => ?_) fun fd _ had =>
      had.of_socks rfl (fun _ => rfl) rfl fun s live isFd => ⟨s, live, isFd⟩
    revert isOpen
    simp only [on_toCore, sendBytes, Core.setPc, modWorker, modTask, modDesc, Function.update_apply]
    grind
  · split at taken <;> cases taken
    exact guarded
  · split at taken <;> cases taken
    exact moved _ rfl
  · split at taken <;> cases taken
    exact moved _ rfl
  · cases taken; exact guarded_workerCommit guarded pc _
  · dsimp only at taken
    split at taken <;> cases taken
    -- The descriptor goes from the socket to the worker that unlinks it.
    refine guarded.congr (fun u live => guarded.bound u (List.mem_of_mem_erase live)) rfl
      (fun _ => id) fun fd _ had => ?_
    by_cases isFd : fd = (p.sock (p.sockOf t)).fd
    · subst isFd
      exact .inr (.inl ⟨w, at_.1, by simp [on_toCore, Core.setPc, modWorker, Pc.hand?]⟩)
    · refine had.of_hands (fun u live isU => ⟨u, ?_, isU⟩) (fun wraps => .inr (.inr wraps))
        fun v inside hand => .inr (.inl ⟨v, inside, ?_⟩)
      · refine (List.mem_erase_of_ne ?_).mpr live
        rintro rfl
        exact isFd isU.symm
      · have isV : v ≠ w := by rintro rfl; rw [pc] at hand; cases hand
        simpa [on_toCore, Core.setPc, modWorker, sockUnlink, isV] using hand
  · rename_i fd
    cases taken
    refine ((guarded.closeDesc fd).modSock (p.sockOf t) (fun k => { k with frees := k.frees + 1 })
      fun _ => rfl).setPc _ fun fd' held isOpen => ?_
    have held : (p.worker w).pc.hand? = some fd' := held
    rw [pc] at held
    obtain rfl : fd = fd' := Option.some.inj held
    exact absurd rfl (closeDesc_open isOpen).1
  · cases taken
    refine guarded_complete (p := p.on (·.setPc w .ready)) (guarded.setPc .ready ?_) t _
    intro fd held
    rw [pc] at held
    cases held
  · cases taken

/-- `worker_main` with the lock held, by a worker with nothing in hand. -/
theorem guarded_workerMain (guarded : p.Guarded) (bare : (p.worker w).pc.hand? = none)
    (timedout : Bool) : (p.workerMain w timedout).Guarded := by
  have moved : ∀ pc, (p.setPc w pc).Guarded := fun pc =>
    guarded.setPc pc fun fd held => by rw [bare] at held; cases held
  unfold workerMain
  split
  · rename_i t rest _
    exact (moved (.running t .entry)).of_rest rfl
  · split
    · exact moved .retired
    · exact moved .asleep

theorem guarded_workerStep {act : Act} (guarded : p.Guarded)
    (taken : p.workerStep w act = some p') : p'.Guarded := by
  unfold workerStep at taken
  split at taken
  · cases taken
  · rename_i outside
    have inside : w < p.nworker := Nat.lt_of_not_le outside
    split at taken
    · rename_i pc
      cases taken
      exact guarded.setPc _ fun fd held => by rw [pc] at held; cases held
    · rename_i pc
      cases taken
      exact guarded_workerMain guarded (by rw [pc]; rfl) _
    · rename_i pc
      cases taken
      exact guarded_workerMain (p := { p with idle := p.idle - 1 }) guarded
        (by change (p.worker w).pc.hand? = none; rw [pc]; rfl) _
    · rename_i pc
      exact guarded_runStep guarded ⟨inside, pc⟩ taken
    · cases taken

/-! ### The calls -/

theorem guarded_dropUnrun (guarded : p.Guarded) (t : TaskId) : (p.dropUnrun t).Guarded := by
  have ended := guarded_stable.completeUnrun guarded t
  unfold dropUnrun
  dsimp only
  split
  · exact guarded_reap (c := ((p.completeUnrun t).dropHandle t).toCore) (ended.of_rest rfl) t
  · exact ended

theorem guarded_destroyQueue (n : Nat) : ∀ {p : Pool}, p.Guarded →
    (destroyQueue n p).Guarded := by
  induction n with
  | zero => exact id
  | succ n ih =>
    intro p guarded
    unfold destroyQueue
    split
    · exact guarded
    · exact ih (guarded_dropUnrun guarded _)

theorem guarded_destroyFifos (l : List SockId) : ∀ {p : Pool}, p.Guarded →
    (p.destroyFifos l).Guarded := by
  have fifo : ∀ (l : List TaskId) {p : Pool}, p.Guarded → (p.destroyFifo l).Guarded := by
    intro l
    induction l with
    | nil => exact id
    | cons t rest ih => exact fun guarded => ih (guarded_dropUnrun guarded t)
  induction l with
  | nil => exact id
  | cons s rest ih => exact fun guarded => ih (fifo _ guarded)

theorem guarded_call {c : Call} (guarded : p.Guarded) (free : p.wrapping = none)
    (taken : p.call c = some p') : p'.Guarded := by
  unfold call at taken
  split at taken <;> cases taken
  case h_8 =>
    -- The new descriptor is in the hands of the user thread.
    refine guarded.newDesc guarded.bound rfl rfl (.inr (.inr rfl)) fun fd had =>
      had.of_hands (fun s live isFd => ⟨s, live, isFd⟩) (fun wraps => ?_)
        fun w inside hand => .inr (.inl ⟨w, inside, hand⟩)
    rw [free] at wraps
    cases wraps
  case h_12 s => exact guarded_stable.implSockClose guarded s
  case h_13 => exact guarded
  case h_14 => exact guarded
  case h_15 t => exact guarded_stable.implCancel guarded t (guarded_kick guarded t)
  case h_16 t =>
    unfold implTaskResult
    split
    · exact guarded.of_rest rfl
    · exact guarded
  case h_17 t =>
    unfold implTaskFree
    split
    · exact guarded.of_rest rfl
    · split
      · exact (guarded_stable.completeUnrun guarded t).of_rest rfl
      · dsimp only
        split
        · exact guarded_kick guarded t
        · exact guarded
  case h_18 t =>
    unfold implTaskDetach
    dsimp only
    split
    · refine guarded_reap ?_ t
      unfold dropSock
      split <;> exact guarded.of_rest rfl
    · exact guarded.of_rest rfl
  case h_19 =>
    have down : ({ p with shutdown := true } : Pool).Guarded := guarded.of_rest rfl
    have swept := guarded_destroyFifos (destroyQueue p.queue.length { p with shutdown := true }).socks
      (guarded_destroyQueue p.queue.length down)
    refine swept.stirred (wakeAll_stirred _ fun w asleep => ?_)
    simp only [isAsleep, Bool.and_eq_true, decide_eq_true_eq] at asleep
    exact asleep.2
  all_goals exact guarded_stable.submit guarded _ ⟨rfl, rfl, rfl⟩

/-- The listener being made is a socket afterwards, or closed. -/
theorem guarded_wrapListener {fd : Fd} (guarded : p.Guarded) (wraps : p.wrapping = some fd)
    (linked : Bool) : (p.wrapListener fd linked).Guarded := by
  have only : ∀ {c : Core} {fd'}, c.wrapping = some fd → c.wrapping = some fd' → fd' = fd :=
    fun isFd isFd' => Option.some.inj (isFd'.symm.trans isFd)
  unfold wrapListener
  split
  · refine (guarded.sockLink fd).congr (guarded.sockLink fd).bound rfl (fun _ => id) fun fd' _ had =>
      had.of_hands (fun s live isFd => ⟨s, live, isFd⟩) (fun wraps' => .inl ?_)
        fun w inside hand => .inr (.inl ⟨w, inside, hand⟩)
    obtain rfl := only (c := p.toCore) wraps wraps'
    exact ⟨p.nsock, by simp [Pool.on, Core.sockLink], by simp [Pool.on, Core.sockLink]⟩
  · refine (guarded.closeDesc fd).congr guarded.bound rfl (fun _ => id) fun fd' isOpen had =>
      had.of_hands (fun s live isFd => ⟨s, live, isFd⟩) (fun wraps' => ?_)
        fun w inside hand => .inr (.inl ⟨w, inside, hand⟩)
    obtain rfl := only (c := p.toCore) wraps wraps'
    exact absurd rfl (closeDesc_open isOpen).1

/-- Every socket left over is closed at the very end. -/
theorem guarded_destroyOn (guarded : p.Guarded) (once : p.Once) (linked : p.Linked)
    (owned : p.Owned) : p.destroyOn.Guarded := by
  unfold destroyOn
  split
  · have inj : ∀ s u, s ∈ p.socks → u ∈ p.socks → (p.sock s).fd = (p.sock u).fd → s = u :=
      fun s u liveS liveU => owned.sock_inj s u (linked.bound s liveS) (linked.bound u liveU)
    have closed : ∀ s, s ∈ p.socks →
        ((closeSocks p.toCore p.socks).desc (p.sock s).fd).closes = 1 := fun s live =>
      (closeSocks_once p.socks linked.nodup inj live).trans (by rw [once.live s live])
    have same : ∀ fd, ((closeSocks p.toCore p.socks).desc fd).closes = 0 →
        (p.desc fd).closes = 0 ∧ ∀ s, s ∈ p.socks → (p.sock s).fd ≠ fd := by
      intro fd isOpen
      have other : ∀ s, s ∈ p.socks → (p.sock s).fd ≠ fd := by
        rintro s live rfl
        rw [closed s live] at isOpen
        cases isOpen
      rw [closeSocks_desc p.socks other] at isOpen
      exact ⟨isOpen, other⟩
    have rest := closeSocks_rest p.toCore p.socks
    refine guarded.congr (by simp) (by rw [on_toCore, rest]) (fun fd isOpen => (same fd isOpen).1)
      fun fd isOpen had => ?_
    rcases had with ⟨s, live, isFd⟩ | ⟨w, inside, hand⟩ | wraps
    · exact absurd isFd ((same fd isOpen).2 s live)
    · refine .inr (.inl ⟨w, ?_, ?_⟩) <;> rw [on_toCore, rest]
      · exact inside
      · exact hand
    · refine .inr (.inr ?_)
      rw [on_toCore, rest]
      exact wraps
  · exact guarded

theorem guarded_resume {granted : Bool} (guarded : p.Guarded) (good : p.Good) (once : p.Once)
    (taken : p.resume granted = some p') : p'.Guarded := by
  unfold resume at taken
  split at taken <;> cases taken
  · rename_i fd user
    exact guarded_wrapListener guarded (by rw [good.tidy.wrapping, user]; rfl) granted
  · unfold freeOn
    split
    · exact guarded.of_rest rfl
    · exact guarded
  · unfold pollOn
    split
    · split
      · split <;> exact guarded
      · exact guarded
    · exact guarded
    · split
      · split <;> exact guarded
      · exact guarded
  · unfold stepOn
    split <;> exact guarded
  · exact guarded_destroyOn guarded once good.sound.linked good.sound.owned

/-- Every step leaves every descriptor that is not closed in somebody's hands. -/
theorem guarded_step {label : Label} (guarded : p.Guarded) (good : p.Good) (once : p.Once)
    (taken : p.step label = some p') : p'.Guarded := by
  cases label with
  | worker w act => exact guarded_workerStep guarded taken
  | user call =>
    rcases userStep_cases taken with ⟨idle, taken⟩ | ⟨granted, rfl, taken⟩
    · exact guarded_call guarded (by rw [good.tidy.wrapping, idle]; rfl) taken
    · exact guarded_resume guarded good once taken

/-! ### The books balance -/

theorem once_new (os : Os) : (Pool.new os).Once :=
  ⟨fun s live => absurd live List.not_mem_nil, fun _ ⟨_, _, at_⟩ => by
    rcases at_ with at_ | at_ <;> exact absurd at_.1 (Nat.not_lt_zero _), fun _ => Nat.zero_le _⟩

theorem Run.once {os : Os} (run : Run (Pool.new os) p) : p.Once :=
  Once.moves (run.moves (.new os)) (Good.new os).sound (once_new os)

theorem Run.guarded {os : Os} (run : Run (Pool.new os) p) : p.Guarded := by
  induction run with
  | refl => exact ⟨fun s live => absurd live List.not_mem_nil, fun fd made => absurd made (Nat.not_lt_zero _)⟩
  | snoc before obeyed taken ih =>
    exact guarded_step ih (Run.good before) (Run.once before) taken

/-- Who answers for a descriptor the kernel has handed out. -/
inductive Keeper
  /-- A socket on `p->socks`. -/
  | sock (s : SockId)
  /-- A worker that is wrapping it or closing it. -/
  | worker (w : WorkerId)
  /-- The user thread, in `impl_tcp_listen`. -/
  | user
  /-- Nobody any more: it is closed. -/
  | closed
  deriving DecidableEq, Repr

/-- A descriptor is with one of them. -/
def Keeps (p : Pool) (fd : Fd) : Keeper → Prop
  | .sock s => s ∈ p.socks ∧ (p.sock s).fd = fd
  | .worker w => w < p.nworker ∧ (p.worker w).pc.hand? = some fd
  | .user => p.user = .listening fd
  | .closed => 0 < (p.desc fd).closes

/-- What a worker has in hand is nobody else's. -/
theorem keeps_of_hand {fd : Fd} (good : p.Good) (once : p.Once) (inside : w < p.nworker)
    (hand : (p.worker w).pc.hand? = some fd) {k : Keeper} (keeps : p.Keeps fd k) :
    k = .worker w := by
  have placed : p.Placed (fun _ => false) fun _ => false := good.sound.placed
  have closes : p.Closes fun _ => false := good.sound.closes
  have owned : p.Owned := good.sound.owned
  have phased : p.Phased := good.sound.phased
  rcases Pc.hand_cases hand with ⟨t, res, pc⟩ | ⟨t, pc⟩
  · -- It has just been won, so no socket has it and it is as the kernel gave it out.
    obtain ⟨_, fresh, notWrapping, other⟩ := owned.won w t res fd ⟨inside, pc⟩
    cases k with
    | sock s => exact absurd keeps.2 (other s (good.sound.linked.bound s keeps.1))
    | user => exact absurd (by rw [good.tidy.wrapping, show p.user = _ from keeps]; rfl) notWrapping
    | closed =>
      have closed : 0 < (p.desc fd).closes := keeps
      rw [fresh] at closed
      cases closed
    | worker v =>
      rcases Pc.hand_cases keeps.2 with ⟨u, res', pc'⟩ | ⟨u, pc'⟩
      · rw [owned.won_inj v w u t res' res fd ⟨keeps.1, pc'⟩ ⟨inside, pc⟩]
      · have leaving : p.Leaving fd := ⟨v, u, pc'.imp (⟨keeps.1, ·⟩) (⟨keeps.1, ·⟩)⟩
        obtain ⟨s, made, _, isFd⟩ := leaving.sock placed closes phased
        exact absurd isFd (other s made)
  · -- Its socket is off the list, and its close task is the only one.
    have at_ : p.At w t (.release fd) ∨ p.At w t (.closeFd fd) := pc.imp (⟨inside, ·⟩) (⟨inside, ·⟩)
    obtain ⟨s, made, off, isFd⟩ := Leaving.sock ⟨w, t, at_⟩ placed closes phased
    cases k with
    | sock u =>
      have same := owned.sock_inj u s (good.sound.linked.bound u keeps.1) made
        (keeps.2.trans isFd.symm)
      exact absurd (same ▸ keeps.1) off
    | user =>
      have wraps : p.wrapping = some fd := by
        rw [good.tidy.wrapping, show p.user = _ from keeps]; rfl
      exact absurd isFd ((owned.wrapped fd wraps).2.2 s made)
    | closed => exact absurd (once.leaving fd ⟨w, t, at_⟩) (Nat.ne_of_gt keeps)
    | worker v =>
      rcases Pc.hand_cases keeps.2 with ⟨u, res', pc'⟩ | ⟨u, pc'⟩
      · obtain ⟨_, _, _, other⟩ := owned.won v u res' fd ⟨keeps.1, pc'⟩
        exact absurd isFd (other s made)
      · rw [Leaving.unique placed owned closes phased (pc'.imp (⟨keeps.1, ·⟩) (⟨keeps.1, ·⟩)) at_]

/-- What the user thread is wrapping is on no socket, and open. -/
theorem keeps_of_user {fd : Fd} (good : p.Good) (user : p.user = .listening fd) :
    (∀ s, s < p.nsock → (p.sock s).fd ≠ fd) ∧ (p.desc fd).closes = 0 := by
  have wraps : p.wrapping = some fd := by rw [good.tidy.wrapping, user]; rfl
  obtain ⟨_, fresh, other⟩ := good.sound.owned.wrapped fd wraps
  have fresh : p.desc fd = {} := fresh
  exact ⟨other, by rw [fresh]⟩

/-- No two answer for the same descriptor. -/
theorem keeps_unique {fd : Fd} (good : p.Good) (once : p.Once) {k k' : Keeper}
    (keeps : p.Keeps fd k) (keeps' : p.Keeps fd k') : k = k' := by
  have bound := good.sound.linked.bound
  cases k with
  | worker w => exact (keeps_of_hand good once keeps.1 keeps.2 keeps').symm
  | sock s =>
    cases k' with
    | worker w => exact keeps_of_hand good once keeps'.1 keeps'.2 keeps
    | sock u =>
      rw [good.sound.owned.sock_inj s u (bound s keeps.1) (bound u keeps'.1)
        (keeps.2.trans keeps'.2.symm)]
    | user => exact absurd keeps.2 ((keeps_of_user good keeps').1 s (bound s keeps.1))
    | closed =>
      have isOpen := once.live s keeps.1
      rw [keeps.2] at isOpen
      exact absurd isOpen (Nat.ne_of_gt keeps')
  | user =>
    cases k' with
    | worker w => exact keeps_of_hand good once keeps'.1 keeps'.2 keeps
    | sock u => exact absurd keeps'.2 ((keeps_of_user good keeps).1 u (bound u keeps'.1))
    | user => rfl
    | closed => exact absurd (keeps_of_user good keeps).2 (Nat.ne_of_gt keeps')
  | closed =>
    cases k' with
    | worker w => exact keeps_of_hand good once keeps'.1 keeps'.2 keeps
    | sock u =>
      have isOpen := once.live u keeps'.1
      rw [keeps'.2] at isOpen
      exact absurd isOpen (Nat.ne_of_gt keeps)
    | user => exact absurd (keeps_of_user good keeps').2 (Nat.ne_of_gt keeps)
    | closed => rfl

/-! ### After `impl_destroy` -/

/-- No vtable call returns from `impl_destroy` at once. -/
theorem call_user {c : Call} (sound : Sound p.rest) (idle : p.user = .idle)
    (taken : p.call c = some p') : p'.user ≠ .destroyed := by
  have stable := Stays.stable p
  have back : p'.user = p.user → p'.user ≠ .destroyed := fun same => by rw [same, idle]; simp
  cases c with
  | wait goal => cases goal <;> cases taken <;> simp
  | tcpListen => cases taken; simp [implTcpListen]
  | sockClose s => cases taken; exact back (stable.implSockClose (.refl p) s).user
  | cancel t => cases taken; exact back (stable.implCancel (.refl p) t ((Stays.refl p).apart (kick · t) (apart_kick _ t))).user
  | taskResult t => cases taken; refine back ?_; unfold implTaskResult; split <;> rfl
  | taskFree t =>
    cases taken
    unfold implTaskFree
    split
    · change p.user ≠ _; rw [idle]; simp
    · split
      · change (p.completeUnrun t).user ≠ _
        rw [(stable.completeUnrun (.refl p) t).user, idle]; simp
      · simp
  | taskDetach t =>
    cases taken
    refine back ?_
    unfold implTaskDetach dropSock
    dsimp only
    split
    · split <;> rfl
    · rfl
  | destroy => cases taken; rw [implDestroy_eq sound]; simp
  | resume => cases taken
  | _ => cases taken; exact back (stable.submit (.refl p) _ ⟨rfl, rfl, rfl⟩).user

/-- `impl_destroy` returns from its wait for the last worker, and from nowhere else. -/
theorem destroyed_step {label : Label} (good : p.Good) (taken : p.step label = some p')
    (left : p'.user = .destroyed) :
    p.user = .destroyed ∨ (p.nlive = 0 ∧ p' = p.destroyOn) := by
  cases label with
  | worker w act => exact .inl ((Stays.workerStep taken).user.symm.trans left)
  | user call =>
    rcases userStep_cases taken with ⟨idle, called⟩ | ⟨_, rfl, resumed⟩
    · exact absurd left (call_user good.sound idle called)
    · unfold resume at resumed
      split at resumed <;> cases resumed
      · unfold wrapListener at left; split at left <;> cases left
      · unfold freeOn at left
        split at left
        · cases left
        · exact .inl left
      · rename_i goal rest _
        unfold pollOn at left
        split at left
        · split at left
          · split at left <;> cases left
          · cases left
        · cases left
        · split at left
          · split at left <;> cases left
          · cases left
      · unfold stepOn at left
        split at left
        · exact .inl left
        all_goals cases left
      · rename_i user
        refine .inr ⟨?_, rfl⟩
        unfold destroyOn at left
        split at left
        · assumption
        · rw [user] at left; cases left

/-- Only a worker that has not retired takes a step. -/
theorem workerStep_lives {act : Act} (taken : p.workerStep w act = some p') :
    w < p.nworker ∧ (p.worker w).pc.lives = true := by
  unfold workerStep at taken
  split at taken
  · cases taken
  · rename_i outside
    refine ⟨Nat.lt_of_not_le outside, ?_⟩
    cases pc : (p.worker w).pc with
    | retired => rw [pc] at taken; cases taken
    | _ => rfl

/-- Once `impl_destroy` has returned, no worker and no socket is left. -/
theorem Run.emptied {os : Os} (run : Run (Pool.new os) p) (left : p.user = .destroyed) :
    p.nlive = 0 ∧ p.socks = [] := by
  induction run with
  | refl => cases left
  | snoc before obeyed taken ih =>
    rename_i q q' label
    have good := Run.good before
    rcases destroyed_step good taken left with already | ⟨none, rfl⟩
    · -- Nobody is left to take the step.
      obtain ⟨none, empty⟩ := ih already
      cases label with
      | user call =>
        rcases userStep_cases taken with ⟨idle, _⟩ | ⟨_, rfl, resumed⟩
        · rw [already] at idle; cases idle
        · simp [resume, already] at resumed
      | worker w act =>
        obtain ⟨inside, lives⟩ := workerStep_lives taken
        have positive : 0 < q.tally Pc.lives := Machine.count_pos inside lives
        rw [← good.crew.nlive, none] at positive
        exact absurd positive (Nat.lt_irrefl 0)
    · unfold destroyOn
      rw [if_pos none]
      exact ⟨none, rfl⟩

/--
Every descriptor a connect, an accept or a listen obtained is, between any two steps, with exactly
one keeper; it is closed at most once, and once `impl_destroy` has returned it is closed.
-/
theorem descriptors_conserved {os : Os} (run : Run (Pool.new os) p) :
    ∀ fd, fd < p.ndesc → (∃! k, p.Keeps fd k) ∧ (p.desc fd).closes ≤ 1 ∧
      (p.user = .destroyed → (p.desc fd).closes = 1) := by
  have good := Run.good run
  have once := Run.once run
  have guarded := Run.guarded run
  intro fd made
  have kept : ∃ k, p.Keeps fd k := by
    cases closes : (p.desc fd).closes with
    | succ n => exact ⟨.closed, show 0 < _ by rw [closes]; exact Nat.succ_pos n⟩
    | zero =>
      rcases guarded.has fd made closes with ⟨s, live, isFd⟩ | ⟨w, inside, hand⟩ | wraps
      · exact ⟨.sock s, live, isFd⟩
      · exact ⟨.worker w, inside, hand⟩
      · refine ⟨.user, ?_⟩
        rw [good.tidy.wrapping] at wraps
        unfold User.wraps at wraps
        split at wraps
        · rename_i user; exact user.trans (by rw [Option.some.inj wraps])
        · cases wraps
  obtain ⟨k, keeps⟩ := kept
  refine ⟨⟨k, keeps, fun _ other => keeps_unique good once other keeps⟩, once.once fd, fun left => ?_⟩
  -- With no socket and no worker left, and the user thread out of its call, it can only be closed.
  obtain ⟨none, empty⟩ := run.emptied left
  cases k with
  | sock s => exact absurd (empty ▸ keeps.1) List.not_mem_nil
  | worker w =>
    have lives : (p.worker w).pc.lives = true := by
      obtain ⟨t, phase, pc⟩ := Pc.task_of_hand keeps.2
      rw [pc]; rfl
    have positive : 0 < p.tally Pc.lives := Machine.count_pos keeps.1 lives
    rw [← good.crew.nlive, none] at positive
    exact absurd positive (Nat.lt_irrefl 0)
  | user => exact absurd (left.symm.trans keeps) (by simp)
  | closed => exact Nat.le_antisymm (once.once fd) keeps

/-- A listener is made, a second one fails for want of memory, and a connect has just won. -/
def threeKeepers : List Label :=
  [.user .tcpListen, .user (.resume true), .user .tcpListen, .user (.resume false),
    .user .tcpConnect, .worker 0 .main, .worker 0 .enter, .worker 0 (.retFd 0)]

/-- The first descriptor is on a socket, the second is closed, a worker has the third in hand. -/
theorem descriptors_conserved_threeKeepers :
    ((after threeKeepers).Keeps 0 (.sock 0) ∧ ∃! k, (after threeKeepers).Keeps 0 k) ∧
      ((after threeKeepers).Keeps 1 .closed ∧ ∃! k, (after threeKeepers).Keeps 1 k) ∧
      (after threeKeepers).Keeps 2 (.worker 0) ∧ ∃! k, (after threeKeepers).Keeps 2 k := by
  have run := run_after threeKeepers (by decide +kernel)
  have conserved := descriptors_conserved run
  refine ⟨⟨⟨?_, ?_⟩, (conserved 0 (by decide +kernel)).1⟩, ⟨?_, (conserved 1 (by decide +kernel)).1⟩,
    ⟨?_, ?_⟩, (conserved 2 (by decide +kernel)).1⟩
  · exact List.contains_iff_mem.mp (by decide +kernel)
  · decide +kernel
  · exact show 0 < _ by decide +kernel
  · decide +kernel
  · decide +kernel

end Pool

end Myio
