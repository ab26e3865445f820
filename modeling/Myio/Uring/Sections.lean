import Myio.Loop.Ends
import Myio.Uring.Sends

/-! The code of the io_uring backend as moves. -/

namespace Myio.Loop

open Function (update)
open Loop.Core

namespace UringIo

/-- The pointers of a pending task; a read, an accept or a write that was severed has lost its socket. -/
def uShape : TaskKind → Option SockId → Option SockId → Option SockId → Prop
  | .taskConnect, sock, newsock, _ | .taskSockClose, sock, newsock, _ => sock ≠ none ∧ newsock = none
  | .taskAccept, _, newsock, _ => newsock ≠ none
  | .taskSockRead, _, newsock, _ => newsock = none
  | .taskSockWrite, sock, newsock, on => newsock = none ∧ on ≠ none ∧ (sock = none ∨ sock = on)
  | .taskOpen, sock, newsock, _ | .taskClose, sock, newsock, _ | .taskRead, sock, newsock, _
  | .taskWrite, sock, newsock, _ | .taskSleep, sock, newsock, _ => sock = none ∧ newsock = none
  | _, _, _, _ => False

/-- The rules of the backend, with a kernel that keeps to the lengths it is given or not. -/
def ring (bounded : Prop) : Rules := ⟨fun _ _ => True, uShape, fun _ => True, True, True, False, bounded⟩

/-- The same rules for code that puts no task where it can complete and takes no handle. -/
def still (bounded : Prop) : Rules :=
  { ring bounded with shape := fun _ _ _ _ => False, gives := False }

variable {B : Prop} {c : Core} {x : TaskId → Bool} {h : SockId → Bool} {t v : TaskId} {s : SockId}
  {e : Result} {u : UringIo}

/-- What `still` allows, `ring` allows. -/
theorem ring_of_still {a b : Cut} (moves : Moves (still B) a b) : Moves (ring B) a b := by
  induction moves with
  | refl => exact .refl _
  | snoc before last ih =>
    refine ih.snoc ?_
    cases last with
    | make fresh allowed => exact .make fresh allowed
    | aim submitted isOpen out kind live mine => exact .aim submitted isOpen out kind live mine
    | build submitted isOpen out kind sole => exact .build submitted isOpen out kind sole
    | buildNew submitted isOpen out sole without => exact .buildNew submitted isOpen out sole without
    | drop out sock newsock => exact .drop out sock newsock
    | enter _ _ _ _ fits => exact fits.elim
    | park _ _ _ _ _ _ fits => exact fits.elim
    | arm live bare head => exact .arm live bare head
    | disarm armed kind sock => exact .disarm armed kind sock
    | headed empty => exact .headed empty
    | exit pending => exact .exit pending
    | sever _ _ fits => exact fits.elim
    | settle submitted isOpen out settles allowed =>
      exact .settle submitted isOpen out settles allowed
    | send pending on fits first => exact .send pending on fits first
    | newDesc => exact .newDesc
    | closeDesc loose => exact .closeDesc loose
    | sockNew loose allowed => exact .sockNew loose allowed
    | setFd live mine without loose won => exact .setFd live mine without loose won
    | release unused => exact .release unused
    | detach _ _ gives => exact gives.elim
    | free _ _ gives => exact gives.elim
    | claim made won => exact .claim made won
    | shut => exact .shut
    | note allowed same => exact .note allowed same

/-! ### Who is pending -/

/-- A task points where it did. -/
def SameEnds (k k' : Task) : Prop :=
  k'.kind = k.kind ∧ k'.sock = k.sock ∧ k'.newsock = k.newsock ∧ k'.on = k.on

/-- Every pending task was pending before, and points where it did. -/
def Fewer (c c' : Core) (x x' : TaskId → Bool) : Prop :=
  ∀ t, c'.Pending x' t → c.Pending x t ∧ SameEnds (c.task t) (c'.task t)

theorem Fewer.refl (c : Core) (x : TaskId → Bool) : Fewer c c x x :=
  fun _ pending => ⟨pending, rfl, rfl, rfl, rfl⟩

theorem Fewer.trans {c' c'' : Core} {x' x'' : TaskId → Bool} (first : Fewer c c' x x')
    (second : Fewer c' c'' x' x'') : Fewer c c'' x x'' := by
  intro t pending
  obtain ⟨middle, kind, sock, newsock, on⟩ := second t pending
  obtain ⟨before, kind', sock', newsock', on'⟩ := first t middle
  exact ⟨before, kind.trans kind', sock.trans sock', newsock.trans newsock', on.trans on'⟩

/-- A task of which one field is written was as pending before. -/
theorem Fewer.modTask {f : Task → Task} (out : x t = true ∨ SameEnds (c.task t) (f (c.task t)))
    (done : (f (c.task t)).done = (c.task t).done) : Fewer c (c.modTask t f) x x := by
  intro v pending
  simp only [Core.Pending, Core.modTask, Function.update_apply] at pending ⊢
  by_cases same : v = t
  · subst same
    rw [if_pos rfl] at pending ⊢
    rw [done] at pending
    rcases out with inHand | same
    · rw [inHand] at pending
      exact absurd pending.2.2 (by simp)
    · exact ⟨pending, same⟩
  · rw [if_neg same] at pending ⊢
    exact ⟨pending, rfl, rfl, rfl, rfl⟩

/-- No move puts a task where it can complete. -/
theorem fewer_of_still {a b : Cut} (moves : Moves (still B) a b) :
    Fewer a.core b.core a.out b.out := by
  induction moves with
  | refl => exact .refl _ _
  | snoc before last ih =>
    refine ih.trans ?_
    cases last with
    | make fresh allowed =>
      rename_i c x h k
      intro v pending
      have other : v ≠ c.ntask := by
        rintro rfl
        have := pending.2.2
        simp at this
      have inside : v < c.ntask := Nat.lt_of_le_of_ne (Nat.le_of_lt_succ pending.1) other
      have same : (c.taskNew k).task v = c.task v := by simp [Core.taskNew, other]
      refine ⟨⟨inside, by rw [← same]; exact pending.2.1, by simpa [other] using pending.2.2⟩, ?_⟩
      rw [same]
      exact ⟨rfl, rfl, rfl, rfl⟩
    | aim _ _ out => exact .modTask (.inl out) rfl
    | build _ _ out => exact .modTask (.inl out) rfl
    | buildNew _ _ out => exact .modTask (.inl out) rfl
    | drop out => exact .modTask (.inl out) rfl
    | enter _ _ _ _ fits => exact fits.elim
    | park _ _ _ _ _ _ fits => exact fits.elim
    | sever _ _ fits => exact fits.elim
    | exit pending =>
      rename_i c x h t
      rw [leaveSock_rest]
      intro v there
      have other : v ≠ t := by
        rintro rfl
        have := there.2.2
        simp at this
      exact ⟨⟨there.1, there.2.1, by simpa [other] using there.2.2⟩, rfl, rfl, rfl, rfl⟩
    | settle submitted isOpen out settles allowed =>
      rename_i c x h t res
      intro v there
      have other : v ≠ t := by
        rintro rfl
        have := there.2.1
        simp [Core.settle, Core.modTask, settled] at this
      have same : (c.settle t res).task v = c.task v := by simp [Core.settle, Core.modTask, other]
      refine ⟨⟨there.1, by rw [← same]; exact there.2.1, by simpa [other] using there.2.2⟩, ?_⟩
      rw [same]
      exact ⟨rfl, rfl, rfl, rfl⟩
    | send pending on fits first =>
      rename_i c x h t s n
      exact .modTask (c := c) (t := t) (f := fun k => { k with off := k.off + n })
        (.inr ⟨rfl, rfl, rfl, rfl⟩) rfl
    | detach _ _ gives => exact gives.elim
    | free _ _ gives => exact gives.elim
    | note notes same =>
      refine .modTask (.inr ?_) (by rw [same])
      rw [same]
      exact ⟨rfl, rfl, rfl, rfl⟩
    | _ => exact .refl _ _

/-! ### The socket an accept is to win -/

/-- A socket made for an accept has no descriptor before the accept has won one. -/
def Early (c : Core) : Prop :=
  ∀ t s, t < c.ntask → (c.task t).done = false → (c.task t).newsock = some s → (c.sock s).fd = none

/-- A change of the tasks that gives none a socket to win. -/
theorem Early.congr {c' : Core} (early : Early c) (ntask : c'.ntask = c.ntask)
    (task : ∀ t s, t < c.ntask → (c'.task t).done = false → (c'.task t).newsock = some s →
      (c.task t).done = false ∧ (c.task t).newsock = some s)
    (fd : ∀ s, (c'.sock s).fd = (c.sock s).fd) : Early c' := by
  intro t s inside isOpen points
  rw [ntask] at inside
  obtain ⟨isOpen', points'⟩ := task t s inside isOpen points
  rw [fd]
  exact early t s inside isOpen' points'

theorem Early.modTask (early : Early c) (t : TaskId) (f : Task → Task)
    (keeps : ∀ s, (f (c.task t)).done = false → (f (c.task t)).newsock = some s →
      (c.task t).done = false ∧ (c.task t).newsock = some s) : Early (c.modTask t f) := by
  refine early.congr rfl (fun v s _ isOpen points => ?_) fun _ => rfl
  simp only [Core.modTask, Function.update_apply] at isOpen points
  split at isOpen
  · rename_i same
    subst same
    rw [if_pos rfl] at points
    exact keeps s isOpen points
  · rename_i other
    rw [if_neg other] at points
    exact ⟨isOpen, points⟩

theorem Early.modSock (early : Early c) (s : SockId) (f : Sock → Sock)
    (fd : (f (c.sock s)).fd = (c.sock s).fd) : Early (c.modSock s f) := by
  refine early.congr rfl (fun _ _ _ isOpen points => ⟨isOpen, points⟩) fun v => ?_
  simp only [Core.modSock, Function.update_apply]
  split
  · rename_i same; rw [same]; exact fd
  · rfl

/-- Every move keeps the sockets to be won without a descriptor. -/
theorem Early.move {r : Rules} {a b : Cut} (early : Early a.core) (move : Move r a b)
    (built : a.core.Built) : Early b.core := by
  cases move with
  | make fresh allowed =>
    rename_i c x h k
    intro v s inside isOpen points
    simp only [Core.taskNew, Function.update_apply] at inside isOpen points
    split at points
    · rw [fresh.newsock] at points
      cases points
    · rename_i other
      rw [if_neg other] at isOpen
      exact early v s (Nat.lt_of_le_of_ne (Nat.le_of_lt_succ inside) other) isOpen points
  | aim => exact early.modTask _ _ fun _ isOpen points => ⟨isOpen, points⟩
  | build => exact early.modTask _ _ fun _ isOpen points => ⟨isOpen, points⟩
  | buildNew submitted isOpen out sole without =>
    rename_i c x h t s
    intro v s' inside isOpen' points
    change (c.sock s').fd = none
    simp only [Core.modTask, Function.update_apply] at isOpen' points
    split at points
    · obtain rfl := Option.some.inj points
      exact without
    · rename_i other
      rw [if_neg other] at isOpen'
      exact early v s' inside isOpen' points
  | drop out sock newsock =>
    refine early.modTask _ _ fun s isOpen points => ⟨isOpen, ?_⟩
    rcases newsock with none | same
    · rw [none] at points; cases points
    · rw [same] at points; exact points
  | enter =>
    rename_i c x h t _ _ _ _ _ _ _ _
    rw [setSlot_rest]
    exact early.congr rfl (fun _ _ _ isOpen points => ⟨isOpen, points⟩)
      fun v => (setSlot_other (c.arm t) t v).2.1
  | park => exact early.modSock _ _ rfl
  | exit =>
    rename_i c x h t _
    rw [leaveSock_rest]
    exact early.congr rfl (fun _ _ _ isOpen points => ⟨isOpen, points⟩)
      fun v => (leaveSock_other (c.disarm t) t v).1
  | sever =>
    rename_i c x h t _ _ _
    rw [leaveSock_rest]
    have kept : Early { c with sock := (c.leaveSock t).sock } :=
      early.congr rfl (fun _ _ _ isOpen points => ⟨isOpen, points⟩) fun v => (leaveSock_other c t v).1
    exact kept.modTask t ({ · with sock := none }) fun _ isOpen points => ⟨isOpen, points⟩
  | settle => exact early.modTask _ _ fun _ isOpen => by cases isOpen
  | send =>
    rename_i c x h t s n _ _ _ _
    exact early.modTask t (fun k => { k with off := k.off + n }) fun _ isOpen points => ⟨isOpen, points⟩
  | sockNew loose allowed =>
    rename_i c x h fd
    intro v s inside isOpen points
    have other : s ≠ c.nsock := Nat.ne_of_lt (built.bound v s inside isOpen (.inr points))
    simp only [Core.sockNew, Function.update_of_ne other]
    exact early v s inside isOpen points
  | setFd live mine without loose won =>
    rename_i c x h s fd
    intro v s' inside isOpen points
    have other : s' ≠ s := by
      rintro rfl
      exact won v inside isOpen points
    simp only [Core.modSock, Function.update_of_ne other]
    exact early v s' inside isOpen points
  | release =>
    rename_i c x h s _
    refine early.congr rfl (fun _ _ _ isOpen points => ⟨isOpen, points⟩) fun v => ?_
    simp only [Core.sockRelease, Function.update_apply]
    split
    · rename_i same; rw [same]
    · rfl
  | detach =>
    rename_i c x h t _ _ _
    exact early.modTask t ({ · with detached := true }) fun _ isOpen points => ⟨isOpen, points⟩
  | free =>
    rename_i c x h t _ _ _
    exact early.modTask t (fun k => { k with frees := k.frees + 1 }) fun _ isOpen points => ⟨isOpen, points⟩
  | note notes same =>
    refine early.modTask _ _ fun _ isOpen points => ?_
    rw [same] at isOpen points
    exact ⟨isOpen, points⟩
  | _ => exact early

/-- Everything the moves keep. -/
structure Firm (B : Prop) (a : Cut) : Prop where
  sound : Sound (ring B) a
  early : Early a.core

theorem Firm.moves {a b : Cut} (firm : Firm B a) (moves : Moves (ring B) a b) : Firm B b :=
  moves.preserves (fun _ _ move before => ⟨before.sound.move move, before.early.move move before.sound.built⟩)
    firm

/-! ### Completion -/

theorem cqeResult_status (res : Int) : (cqeResult res).status ≠ .pending := by
  unfold cqeResult
  split
  · simp
  · split
    · simp
    · simp

theorem cqeResult_ptr (res : Int) : (cqeResult res).ptr = none := by
  unfold cqeResult
  split
  · rfl
  · split
    · rfl
    · rfl

/-- A task that enters and leaves the code's hands is in nobody's. -/
theorem out_back (t : TaskId) :
    update (update (fun _ => false) t true) t false = fun _ : TaskId => false := by
  funext v
  simp [Function.update_apply]

/-- A pending task that is in no slot and no FIFO is completed. -/
theorem plain_moves (firm : Firm B ⟨c, x, h⟩) (pending : c.Pending x t)
    (read : (c.task t).kind ≠ .taskSockRead) (accept : (c.task t).kind ≠ .taskAccept)
    (write : (c.task t).kind ≠ .taskSockWrite) (status : e.status ≠ .pending) (ptr : e.ptr = none) :
    Moves (still B) ⟨c, x, h⟩ ⟨taskFinish (c.disarm t) t e, x, h⟩ := by
  have ended := complete_moves (r := still B) (h := h) pending (.inl write) status ptr (.inl write) trivial
  rw [firm.sound.placed.leave_other pending read accept write] at ended
  exact ended

/-- A reader leaves its slot, if it was not severed. -/
theorem clearRead_eq (firm : Firm B ⟨c, x, h⟩) (pending : c.Pending x t)
    (kind : (c.task t).kind = .taskSockRead) : clearRead (c.disarm t) t = (c.leaveSock t).disarm t := by
  cases sock : (c.task t).sock with
  | none =>
    unfold clearRead leaveSock
    rw [show (c.disarm t).task t = c.task t from rfl, sock]
  | some s =>
    have live := firm.sound.placed.live t s pending (.inl sock)
    have reader : (c.sock s).readTask = some t :=
      (firm.sound.placed.read s t live).mpr ⟨pending, kind, sock⟩
    rw [firm.sound.placed.leave_read pending kind sock]
    unfold clearRead
    rw [show (c.disarm t).task t = c.task t from rfl, sock]
    exact if_pos reader

/-- An accepter leaves its slot, if it was not severed. -/
theorem clearAccept_eq (firm : Firm B ⟨c, x, h⟩) (pending : c.Pending x t)
    (kind : (c.task t).kind = .taskAccept) :
    clearAccept (c.disarm t) t = (c.leaveSock t).disarm t := by
  cases sock : (c.task t).sock with
  | none =>
    unfold clearAccept leaveSock
    rw [show (c.disarm t).task t = c.task t from rfl, sock]
  | some s =>
    have live := firm.sound.placed.live t s pending (.inl sock)
    have accepter : (c.sock s).acceptTask = some t :=
      (firm.sound.placed.accept s t live).mpr ⟨pending, kind, sock⟩
    rw [firm.sound.placed.leave_accept pending kind sock]
    unfold clearAccept
    rw [show (c.disarm t).task t = c.task t from rfl, sock]
    exact if_pos accepter

/-- The completion of a read. -/
theorem read_moves (firm : Firm B ⟨c, x, h⟩) (pending : c.Pending x t)
    (kind : (c.task t).kind = .taskSockRead) (res : Int) :
    Moves (still B) ⟨c, x, h⟩ ⟨taskComplete (clearRead (c.disarm t) t) t res, x, h⟩ := by
  rw [clearRead_eq firm pending kind]
  exact complete_moves pending (.inl (by simp [kind])) (cqeResult_status res) (cqeResult_ptr res)
    (.inl (by simp [kind])) trivial

/-! ### Sockets to be won -/

/-- What a pending task keeps to itself of a socket it has yet to win. -/
theorem builds_sole (firm : Firm B ⟨c, x, h⟩) (pending : c.Pending x t) (builds : c.Builds t s) :
    s ∈ c.socks ∧ s < c.nsock ∧ c.claimed s = false ∧
      (∀ v, v < c.ntask → (c.task v).res.ptr ≠ some s) ∧
      ∀ v, v < c.ntask → (c.task v).done = false → c.Refers v s → v = t := by
  obtain ⟨mine, noPtr, only⟩ := firm.sound.built.sole t s pending.1 pending.2.1 builds
  have live := firm.sound.placed.live t s pending builds.refers
  exact ⟨live, firm.sound.linked.bound s live, mine, noPtr, only⟩

/-- A pending connect has a socket. -/
theorem connect_sock (firm : Firm B ⟨c, x, h⟩) (pending : c.Pending x t)
    (kind : (c.task t).kind = .taskConnect) : ∃ s, (c.task t).sock = some s := by
  have fits := firm.sound.shaped t pending
  unfold Rules.Fits ring uShape at fits
  rw [kind] at fits
  exact Option.ne_none_iff_exists'.mp fits.1

/-- A pending accept has a socket to win. -/
theorem accept_newsock (firm : Firm B ⟨c, x, h⟩) (pending : c.Pending x t)
    (kind : (c.task t).kind = .taskAccept) : ∃ s, (c.task t).newsock = some s := by
  have fits := firm.sound.shaped t pending
  unfold Rules.Fits ring uShape at fits
  rw [kind] at fits
  exact Option.ne_none_iff_exists'.mp fits

/-- A task in hand that has let go of the socket it was building delivers it. -/
theorem won_moves {d : Core} {y : TaskId → Bool} (firm : Firm B ⟨c, x, h⟩) (pending : c.Pending x t)
    (kind : (c.task t).kind ≠ .taskSockWrite) (builds : c.Builds t s)
    (ntask : d.ntask = c.ntask) (nsock : d.nsock = c.nsock) (claimed : d.claimed = c.claimed)
    (socks : d.socks = c.socks) (mine : (d.task t).done = false ∧ (d.task t).kind = (c.task t).kind ∧
      (d.task t).res.ptr = (c.task t).res.ptr) (others : ∀ v, v ≠ t → d.task v = c.task v)
    (out : y t = true) :
    Moves (still B) ⟨d, y, h⟩ ⟨taskFinish d t (rOk 0 (some s)), update y t false, h⟩ := by
  obtain ⟨live, made, free, noPtr, only⟩ := builds_sole firm pending builds
  refine settle_moves (by rw [ntask]; exact pending.1) mine.1 out ⟨by simp, fun v points => ?_, ?_⟩ trivial
    fun v points => ?_
  · obtain rfl : s = v := by simpa using points
    refine ⟨by rw [nsock]; exact made, by rw [claimed]; exact free, fun w inside => ?_,
      fun w inside isOpen other refers => ?_⟩
    · rw [ntask] at inside
      by_cases same : w = t
      · rw [same, mine.2.2]; exact noPtr t pending.1
      · rw [others w same]; exact noPtr w inside
    · rw [ntask] at inside
      unfold Refers at refers
      rw [others w other] at isOpen refers
      exact other (only w inside isOpen refers)
  · intro _ isWrite
    rw [mine.2.1] at isWrite
    exact absurd isWrite kind
  · obtain rfl : s = v := by simpa using points
    rw [socks]
    exact live

/-- A pending task that is no write leaves, and lets go of the sockets it points at. -/
theorem leaves_moves (pending : c.Pending x t) (kind : (c.task t).kind ≠ .taskSockWrite)
    (p q : Option SockId) (sock : p = none ∨ p = (c.task t).sock)
    (newsock : q = none ∨ q = (c.task t).newsock) :
    Moves (still B) ⟨c, x, h⟩
      ⟨((c.leaveSock t).disarm t).modTask t ({ · with sock := p, newsock := q }), update x t true, h⟩ := by
  have task : ((c.leaveSock t).disarm t).task = c.task := by rw [leaveSock_rest]; rfl
  refine (exit_moves pending (.inl kind)).snoc (.drop (by simp) ?_ ?_)
  · rw [task]; exact sock
  · rw [task]; exact newsock

/-! ### The completions that win a socket, or give one back -/

/-- Two changes of a record that come to the same. -/
theorem modTask_congr {f g : Task → Task} (same : f (c.task t) = g (c.task t)) :
    c.modTask t f = c.modTask t g := by
  unfold Core.modTask
  rw [same]

/-- A pending task releases a socket that only it points at, and ends without one. -/
theorem lost_moves (pending : c.Pending x t) (kind : (c.task t).kind ≠ .taskSockWrite)
    (live : s ∈ c.socks) (only : ∀ v, c.Pending x v → c.Refers v s → v = t) (p q : Option SockId)
    (sock : p = none ∨ p = (c.task t).sock) (newsock : q = none ∨ q = (c.task t).newsock)
    (status : e.status ≠ .pending) (ptr : e.ptr = none) :
    Moves (still B) ⟨c, x, h⟩
      ⟨taskFinish ((((c.leaveSock t).disarm t).sockRelease s).modTask t ({ · with sock := p, newsock := q })) t e,
        x, h⟩ := by
  have leaves := leaves_moves (B := B) (h := h) pending kind p q sock newsock
  have task : ((c.leaveSock t).disarm t).task = c.task := by rw [leaveSock_rest]; rfl
  have ntask : ((c.leaveSock t).disarm t).ntask = c.ntask := by rw [leaveSock_rest]; rfl
  have socks : ((c.leaveSock t).disarm t).socks = c.socks := by rw [leaveSock_rest]; rfl
  generalize (c.leaveSock t).disarm t = d at leaves task ntask socks ⊢
  have others : ∀ v, v ≠ t → (d.modTask t ({ · with sock := p, newsock := q })).task v = c.task v := by
    intro v other
    rw [← task]
    simp [Core.modTask, other]
  have own : (d.modTask t ({ · with sock := p, newsock := q })).task t =
      { c.task t with sock := p, newsock := q } := by
    rw [← task]
    simp [Core.modTask]
  have released : Move (still B) ⟨d.modTask t ({ · with sock := p, newsock := q }), update x t true, h⟩
      ⟨(d.sockRelease s).modTask t ({ · with sock := p, newsock := q }), update x t true, h⟩ := by
    refine .release ⟨by simp only [Core.modTask]; rw [socks]; exact live, fun v there refers => ?_⟩
    have other : v ≠ t := by
      rintro rfl
      have isOut := there.2.2
      simp at isOut
    have inside : v < c.ntask := ntask ▸ there.1
    have isOpen := there.2.1
    have isIn : x v = false := by simpa [other] using there.2.2
    unfold Refers at refers
    rw [others v other] at refers isOpen
    exact other (only v ⟨inside, isOpen, isIn⟩ refers)
  have ended := settle_moves (r := still B) (e := e) (h := h) (x := update x t true) (t := t)
    (c := (d.sockRelease s).modTask t ({ · with sock := p, newsock := q }))
    (show t < d.ntask by rw [ntask]; exact pending.1)
    (by rw [show ((d.sockRelease s).modTask t ({ · with sock := p, newsock := q })).task t = _ from own]; exact pending.2.1)
    (by simp)
    (Settles.plain status ptr (.inl (by
      rw [show ((d.sockRelease s).modTask t ({ · with sock := p, newsock := q })).task t = _ from own]; exact kind)))
    trivial (fun s points => by rw [ptr] at points; cases points)
  rw [pending.back] at ended
  exact (leaves.snoc released).trans ended

/-- The completion of a connect. -/
theorem connect_moves (firm : Firm B ⟨c, x, h⟩) (pending : c.Pending x t)
    (kind : (c.task t).kind = .taskConnect) (res : Int) :
    Moves (still B) ⟨c, x, h⟩ ⟨dispatchConnect (c.disarm t) t res, x, h⟩ := by
  have write : (c.task t).kind ≠ .taskSockWrite := by simp [kind]
  obtain ⟨s, sock⟩ := connect_sock firm pending kind
  have builds : c.Builds t s := .inl ⟨kind, sock⟩
  have same : c.leaveSock t = c := firm.sound.placed.leave_other pending (by simp [kind]) (by simp [kind]) write
  have task : (c.disarm t).task = c.task := rfl
  have drops : (c.disarm t).modTask t ({ · with sock := none }) =
      (c.disarm t).modTask t ({ · with sock := none, newsock := (c.task t).newsock }) := modTask_congr rfl
  unfold dispatchConnect
  rw [task, sock]
  dsimp only
  split
  · have leaves := leaves_moves (B := B) (h := h) pending write none (c.task t).newsock (.inl rfl) (.inr rfl)
    rw [same, ← drops] at leaves
    have won := won_moves (d := (c.disarm t).modTask t ({ · with sock := none })) (y := update x t true) firm
      pending write builds rfl rfl rfl rfl ⟨by simp [Core.modTask, task, pending.2.1], by simp [Core.modTask, task],
        by simp [Core.modTask, task]⟩ (fun v other => by simp [Core.modTask, task, other]) (by simp)
    rw [pending.back] at won
    exact leaves.trans won
  · obtain ⟨live, _, _, _, only⟩ := builds_sole firm pending builds
    have lost := lost_moves (B := B) (h := h) pending write live (fun v there => only v there.1 there.2.1) none
      (c.task t).newsock (.inl rfl) (.inr rfl) (cqeResult_status res) (cqeResult_ptr res)
    rw [same] at lost
    have again : ((c.disarm t).sockRelease s).modTask t ({ · with sock := none }) =
        ((c.disarm t).sockRelease s).modTask t ({ · with sock := none, newsock := (c.task t).newsock }) :=
      modTask_congr rfl
    rw [again]
    exact lost

/-- The completion of an accept. -/
theorem accept_moves (firm : Firm B ⟨c, x, h⟩) (pending : c.Pending x t)
    (kind : (c.task t).kind = .taskAccept) (res : Int) :
    Moves (still B) ⟨c, x, h⟩ ⟨dispatchAccept (c.disarm t) t res, x, h⟩ := by
  have write : (c.task t).kind ≠ .taskSockWrite := by simp [kind]
  obtain ⟨s, newsock⟩ := accept_newsock firm pending kind
  have builds : c.Builds t s := .inr newsock
  obtain ⟨live, _, mine, noPtr, only⟩ := builds_sole firm pending builds
  have leaves := leaves_moves (B := B) (h := h) pending write (c.task t).sock none (.inr rfl) (.inl rfl)
  have early := firm.early t s pending.1 pending.2.1 newsock
  have lost := lost_moves (B := B) (h := h) pending write live (fun v there => only v there.1 there.2.1)
    (c.task t).sock none (.inr rfl) (.inl rfl) (cqeResult_status res) (cqeResult_ptr res)
  have left : ((c.leaveSock t).disarm t) = { c.disarm t with sock := (c.leaveSock t).sock } := by
    rw [leaveSock_rest]; rfl
  have fd : ((c.leaveSock t).sock s).fd = none := (leaveSock_other c t s).1.trans early
  unfold dispatchAccept
  rw [clearAccept_eq firm pending kind, left]
  rw [left] at leaves lost
  generalize (c.leaveSock t).sock = socks at leaves lost fd ⊢
  generalize isD : ({ c.disarm t with sock := socks } : Core) = d at leaves lost ⊢
  have task : d.task = c.task := by rw [← isD]; rfl
  have ntask : d.ntask = c.ntask := by rw [← isD]; rfl
  have dsocks : d.socks = c.socks := by rw [← isD]; rfl
  have claimed : d.claimed = c.claimed := by rw [← isD]; rfl
  have nsock : d.nsock = c.nsock := by rw [← isD]; rfl
  have dfd : (d.sock s).fd = none := by rw [← isD]; exact fd
  have drops : ∀ e : Core, e.task = d.task → e.modTask t ({ · with newsock := none }) =
      e.modTask t ({ · with sock := (c.task t).sock, newsock := none }) := by
    intro e same
    refine modTask_congr ?_
    rw [same, task]
  dsimp only
  rw [show (d.task t).newsock = some s by rw [task]; exact newsock]
  dsimp only
  split
  · rw [drops (d.newDesc.modSock s ({ · with fd := some d.ndesc })) rfl]
    have others : ∀ v, v ≠ t →
        (d.modTask t ({ · with sock := (c.task t).sock, newsock := none })).task v = c.task v := by
      intro v other
      rw [← task]
      simp [Core.modTask, other]
    -- The descriptor is new, and the socket made for it has had none.
    have descriptor : Move (still B) ⟨d.modTask t ({ · with sock := (c.task t).sock, newsock := none }), update x t true, h⟩
        ⟨d.newDesc.modTask t ({ · with sock := (c.task t).sock, newsock := none }), update x t true, h⟩ := .newDesc
    have linked := (firm.moves (ring_of_still leaves)).sound.linked
    have gets : Move (still B) ⟨d.newDesc.modTask t ({ · with sock := (c.task t).sock, newsock := none }), update x t true, h⟩
        ⟨(d.newDesc.modSock s ({ · with fd := some d.ndesc })).modTask t
          ({ · with sock := (c.task t).sock, newsock := none }), update x t true, h⟩ := by
      refine .setFd (show s ∈ d.socks by rw [dsocks]; exact live) (show d.claimed s = false by rw [claimed]; exact mine)
        dfd linked.loose_new fun v inside isOpen points => ?_
      have insideC : v < c.ntask := ntask ▸ inside
      by_cases same : v = t
      · subst same
        simp [Core.modTask] at points
      · have sameTask : ((d.newDesc.modTask t ({ · with sock := (c.task t).sock, newsock := none })).task v) = c.task v :=
          others v same
        rw [sameTask] at isOpen points
        exact same (only v insideC isOpen (.inr points))
    have won := won_moves (B := B) (h := h) (y := update x t true)
      (d := (d.newDesc.modSock s ({ · with fd := some d.ndesc })).modTask t
          ({ · with sock := (c.task t).sock, newsock := none })) firm pending write builds ntask nsock claimed dsocks
      ⟨by simp [Core.modTask, Core.modSock, Core.newDesc, task, pending.2.1],
        by simp [Core.modTask, Core.modSock, Core.newDesc, task],
        by simp [Core.modTask, Core.modSock, Core.newDesc, task]⟩ others (by simp)
    rw [pending.back] at won
    exact ((leaves.snoc descriptor).snoc gets).trans won
  · rw [drops (d.sockRelease s) rfl]
    exact lost

/-- The completion of a close. -/
theorem close_moves (firm : Firm B ⟨c, x, h⟩) (pending : c.Pending x t)
    (kind : (c.task t).kind = .taskSockClose)
    (only : ∀ v s, (c.task t).sock = some s → c.Pending x v → c.Refers v s → v = t) (res : Int) :
    Moves (still B) ⟨c, x, h⟩ ⟨dispatchClose (c.disarm t) t res, x, h⟩ := by
  have write : (c.task t).kind ≠ .taskSockWrite := by simp [kind]
  have fits := firm.sound.shaped t pending
  unfold Rules.Fits ring uShape at fits
  rw [kind] at fits
  obtain ⟨s, sock⟩ := Option.ne_none_iff_exists'.mp fits.1
  have live := firm.sound.placed.live t s pending (.inl sock)
  have same : c.leaveSock t = c := firm.sound.placed.leave_other pending (by simp [kind]) (by simp [kind]) write
  have lost := lost_moves (B := B) (h := h) pending write live (fun v => only v s sock) none (c.task t).newsock
    (.inl rfl) (.inr rfl) (cqeResult_status res) (cqeResult_ptr res)
  rw [same] at lost
  have again : ((c.disarm t).modTask t ({ · with sock := none })).sockRelease s =
      ((c.disarm t).sockRelease s).modTask t ({ · with sock := none, newsock := (c.task t).newsock }) :=
    congrArg (Core.sockRelease · s) (modTask_congr rfl)
  unfold dispatchClose
  rw [show ((c.disarm t).task t).sock = some s from sock]
  dsimp only
  rw [again]
  exact lost

end UringIo

end Myio.Loop
