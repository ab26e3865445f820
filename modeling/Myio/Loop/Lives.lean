import Myio.Loop.Moves

/-! How often a task or a socket is released, and who may still name it. -/

namespace Myio.Loop

open Function (update)

/-- The history of one task, given whether the caller still holds its handle. -/
structure Life (k : Task) (held : Bool) : Prop where
  status : k.done = true ↔ k.res.status ≠ .pending
  dones : k.dones = if k.done then 1 else 0
  frees : k.frees = if k.done && !held then 1 else 0
  owned : k.done = false → held = !k.detached
  detached : k.detached = true → held = false

namespace Life

variable {k : Task} {held : Bool}

/-- A change of the other fields does not touch a task's history. -/
theorem congr (life : Life k held) {k' : Task} (done : k'.done = k.done) (res : k'.res = k.res)
    (dones : k'.dones = k.dones) (frees : k'.frees = k.frees) (detached : k'.detached = k.detached) :
    Life k' held := by
  obtain ⟨status, once, freed, owned, apart⟩ := life
  constructor <;> simp_all

/-- A task is completed once, and released on the spot if the caller has detached it. -/
theorem settled (life : Life k held) {res : Result} (isOpen : k.done = false)
    (status : res.status ≠ .pending) : Life (Core.settled res k) held := by
  obtain ⟨_, once, freed, owned, apart⟩ := life
  have isHeld := owned isOpen
  constructor <;> simp_all [Core.settled]

/-- The caller gives up the handle of a task still at work. -/
theorem detach (life : Life k held) (isOpen : k.done = false) :
    Life { k with detached := true } false := by
  obtain ⟨status, once, freed, owned, apart⟩ := life
  constructor <;> simp_all

/-- The caller frees a completed task. -/
theorem free (life : Life k true) (done : k.done = true) :
    Life { k with frees := k.frees + 1 } false := by
  obtain ⟨status, once, freed, owned, apart⟩ := life
  constructor <;> simp_all

end Life

namespace Core

variable {r : Rules} {c c' : Core} {x x' : TaskId → Bool}
  {h h' : SockId → Bool}

/-! ### Tasks -/

/-- Every submitted task has a sound history, and only submitted tasks are held. -/
structure Lives (c : Core) : Prop where
  each : ∀ t, t < c.ntask → Life (c.task t) (c.held t)
  bound : ∀ t, c.held t = true → t < c.ntask

/-- A change of what the invariant does not read. -/
theorem Lives.same (lives : c.Lives) (ntask : c'.ntask = c.ntask) (task : c'.task = c.task)
    (held : c'.held = c.held) : c'.Lives := by
  constructor
  · rw [ntask, task, held]; exact lives.each
  · rw [ntask, held]; exact lives.bound

/-- A change of one task's record that its history allows. -/
theorem Lives.modTask (lives : c.Lives) (t : TaskId) (f : Task → Task)
    (sound : t < c.ntask → Life (f (c.task t)) (c.held t)) : (c.modTask t f).Lives := by
  refine ⟨fun u inside => ?_, lives.bound⟩
  simp only [Core.modTask, Function.update_apply]
  split
  · rename_i same; subst same; exact sound inside
  · exact lives.each u inside

/-- A new task's history is empty, and the caller holds it. -/
theorem Lives.taskNew (lives : c.Lives) {k : Task} (fresh : c.Fresh k) : (c.taskNew k).Lives := by
  obtain ⟨done, detached, res, _, dones, frees, _⟩ := fresh
  constructor
  · intro u inside
    simp only [Core.taskNew, Function.update_apply] at inside ⊢
    split
    · constructor <;> simp [done, res, dones, frees, detached]
    · rename_i other
      exact lives.each u (Nat.lt_of_le_of_ne (Nat.le_of_lt_succ inside) other)
  · intro u held
    simp only [Core.taskNew, Function.update_apply] at held ⊢
    split at held
    · rename_i same; subst same; exact Nat.lt_succ_self _
    · exact Nat.lt_succ_of_lt (lives.bound u held)

/-- The caller gives a handle up, and the task's record changes with it. -/
theorem Lives.drop (lives : c.Lives) (t : TaskId) (f : Task → Task)
    (sound : t < c.ntask → Life (f (c.task t)) false) :
    Lives { c.modTask t f with held := update c.held t false } := by
  constructor
  · intro u inside
    simp only [Core.modTask, Function.update_apply]
    split
    · rename_i same; subst same; exact sound inside
    · exact lives.each u inside
  · intro u held
    simp only [Function.update_apply] at held
    split at held
    · cases held
    · exact lives.bound u held

/-- Every move keeps the tasks' histories sound. -/
theorem Lives.move (move : Move r ⟨c, x, h⟩ ⟨c', x', h'⟩) (lives : c.Lives) : c'.Lives := by
  -- A write of fields that are no part of a task's history.
  have links : ∀ (t : TaskId) (f : Task → Task), (f (c.task t)).done = (c.task t).done →
      (f (c.task t)).res = (c.task t).res → (f (c.task t)).dones = (c.task t).dones →
      (f (c.task t)).frees = (c.task t).frees →
      (f (c.task t)).detached = (c.task t).detached → (c.modTask t f).Lives :=
    fun t f done res dones frees detached => lives.modTask t f fun inside =>
      (lives.each t inside).congr done res dones frees detached
  cases move with
  | make fresh allowed => exact lives.taskNew fresh
  | aim => exact links _ _ rfl rfl rfl rfl rfl
  | build => exact links _ _ rfl rfl rfl rfl rfl
  | buildNew => exact links _ _ rfl rfl rfl rfl rfl
  | drop => exact links _ _ rfl rfl rfl rfl rfl
  | note notes same => refine links _ _ ?_ ?_ ?_ ?_ ?_ <;> rw [same]
  | settle submitted isOpen out settles allowed =>
    exact lives.modTask _ _ fun inside => (lives.each _ inside).settled isOpen settles.status
  | detach isOpen held gives =>
    exact lives.drop _ _ fun inside => (lives.each _ inside).detach isOpen
  | free done held gives =>
    exact lives.drop _ _ fun inside => (held ▸ lives.each _ inside).free done
  | send pending on fits first =>
    rename_i t s n
    exact (links t (fun k => { k with off := k.off + n }) rfl rfl rfl rfl rfl).same rfl rfl rfl
  | enter => rw [setSlot_rest]; exact lives.same rfl rfl rfl
  | exit => rw [leaveSock_rest]; exact lives.same rfl rfl rfl
  | sever armed kind fits =>
    rename_i t
    rw [leaveSock_rest]
    exact (links t ({ · with sock := none }) rfl rfl rfl rfl rfl).same rfl rfl rfl
  | release => exact lives.same rfl rfl rfl
  | _ => exact lives.same rfl rfl rfl

/-! ### Sockets -/

/-- A socket is on the list until it is freed, once, and its descriptor is closed with it. -/
structure Linked (c : Core) : Prop where
  nodup : c.socks.Nodup
  bound : ∀ s, s ∈ c.socks → s < c.nsock
  frees : ∀ s, s < c.nsock → (c.sock s).frees = if s ∈ c.socks then 0 else 1
  fd_bound : ∀ s fd, s < c.nsock → (c.sock s).fd = some fd → fd < c.ndesc
  fd_inj : ∀ s u fd, s < c.nsock → u < c.nsock → (c.sock s).fd = some fd →
    (c.sock u).fd = some fd → s = u
  closes : ∀ s fd, s < c.nsock → (c.sock s).fd = some fd →
    (c.desc fd).closes = (c.sock s).frees

/-- The invariant reads only the list, the descriptors and what was freed. -/
theorem Linked.congr (linked : c.Linked) (nsock : c'.nsock = c.nsock) (socks : c'.socks = c.socks)
    (ndesc : c'.ndesc = c.ndesc)
    (sock : ∀ s, s < c.nsock → (c'.sock s).fd = (c.sock s).fd ∧
      (c'.sock s).frees = (c.sock s).frees)
    (desc : ∀ s fd, s < c.nsock → (c.sock s).fd = some fd →
      (c'.desc fd).closes = (c.desc fd).closes) : c'.Linked := by
  obtain ⟨nodup, bound, frees, fdBound, fdInj, closes⟩ := linked
  constructor
  case nodup => rw [socks]; exact nodup
  case bound => rw [socks, nsock]; exact bound
  all_goals rw [nsock]
  case frees => intro s made; rw [(sock s made).2, socks]; exact frees s made
  case fd_bound =>
    intro s fd made isFd
    rw [ndesc]
    rw [(sock s made).1] at isFd
    exact fdBound s fd made isFd
  case fd_inj =>
    intro s u fd madeS madeU isFd isFd'
    rw [(sock s madeS).1] at isFd
    rw [(sock u madeU).1] at isFd'
    exact fdInj s u fd madeS madeU isFd isFd'
  case closes =>
    intro s fd made isFd
    rw [(sock s made).1] at isFd
    rw [desc s fd made isFd, (sock s made).2]
    exact closes s fd made isFd

/-- A descriptor that no socket has, and the kernel's next one, may go to a socket. -/
theorem Linked.newDesc (linked : c.Linked) : c.newDesc.Linked := by
  obtain ⟨nodup, bound, frees, fdBound, fdInj, closes⟩ := linked
  refine ⟨nodup, bound, frees, fun s fd made isFd => ?_, fdInj, fun s fd made isFd => ?_⟩
  · exact Nat.lt_succ_of_lt (fdBound s fd made isFd)
  · have other := Nat.ne_of_lt (fdBound s fd made isFd)
    simpa [Core.newDesc, other] using closes s fd made isFd

/-- The kernel's next descriptor is nobody's. -/
theorem Linked.loose_new (linked : c.Linked) : c.newDesc.Loose c.ndesc where
  bound := Nat.lt_succ_self _
  sock s made isFd := absurd (linked.fd_bound s _ made isFd) (Nat.lt_irrefl _)
  fresh := by simp [Core.newDesc]

/-- A new socket with a descriptor of its own. -/
theorem Linked.sockNew (linked : c.Linked) {fd : Option Fd}
    (loose : ∀ d, fd = some d → c.Loose d) : (c.sockNew fd).Linked := by
  obtain ⟨nodup, bound, frees, fdBound, fdInj, closes⟩ := linked
  have old : ∀ s, s < c.nsock → (c.sockNew fd).sock s = c.sock s := by
    intro s made; simp [Core.sockNew, Function.update_of_ne (Nat.ne_of_lt made)]
  have new : (c.sockNew fd).sock c.nsock = { fd } := by simp [Core.sockNew]
  have split : ∀ s, s < c.nsock + 1 → s = c.nsock ∨ s < c.nsock := fun s made => by omega
  have fresh : c.nsock ∉ c.socks := fun inside => Nat.lt_irrefl _ (bound _ inside)
  constructor
  case nodup => exact List.nodup_cons.mpr ⟨fresh, nodup⟩
  case bound =>
    intro s inside
    rcases List.mem_cons.mp inside with rfl | before
    · exact Nat.lt_succ_self _
    · exact Nat.lt_succ_of_lt (bound s before)
  case frees =>
    intro s made
    change _ = if s ∈ c.nsock :: c.socks then 0 else 1
    rcases split s made with rfl | before
    · rw [new]; simp
    · rw [old s before, frees s before]
      simp [Nat.ne_of_lt before]
  case fd_bound =>
    intro s d made isFd
    rcases split s made with rfl | before
    · rw [new] at isFd; exact (loose d isFd).bound
    · rw [old s before] at isFd; exact fdBound s d before isFd
  case fd_inj =>
    intro s u d madeS madeU isFd isFd'
    rcases split s madeS with rfl | beforeS <;> rcases split u madeU with rfl | beforeU
    · rfl
    · rw [new] at isFd; rw [old u beforeU] at isFd'
      exact absurd isFd' ((loose d isFd).sock u beforeU)
    · rw [new] at isFd'; rw [old s beforeS] at isFd
      exact absurd isFd ((loose d isFd').sock s beforeS)
    · rw [old s beforeS] at isFd; rw [old u beforeU] at isFd'
      exact fdInj s u d beforeS beforeU isFd isFd'
  case closes =>
    intro s d made isFd
    rcases split s made with rfl | before
    · rw [new] at isFd ⊢
      change (c.desc d).closes = 0
      rw [(loose d isFd).fresh]
    · rw [old s before] at isFd ⊢; exact closes s d before isFd

/-- A socket made in advance gets a descriptor of its own. -/
theorem Linked.setFd (linked : c.Linked) {s : SockId} {fd : Fd} (live : s ∈ c.socks)
    (loose : c.Loose fd) : (c.modSock s ({ · with fd := some fd })).Linked := by
  have fields : ∀ u, (c.modSock s ({ · with fd := some fd })).sock u =
      if u = s then { c.sock s with fd := some fd } else c.sock u := by
    intro u; simp only [Core.modSock, Function.update_apply]
  have made := linked.bound s live
  have unfreed : (c.sock s).frees = 0 := by simpa [live] using linked.frees s made
  obtain ⟨nodup, bound, frees, fdBound, fdInj, closes⟩ := linked
  refine ⟨nodup, bound, ?_, ?_, ?_, ?_⟩
  all_goals intro u
  · intro madeU
    rw [fields]
    change _ = if u ∈ c.socks then 0 else 1
    have := frees u madeU
    grind
  · intro d madeU isFd
    rw [fields] at isFd
    change d < c.ndesc
    have := fdBound u d madeU
    have := loose.bound
    grind
  · intro v d madeU madeV isFd isFd'
    rw [fields] at isFd isFd'
    have := fdInj u v d madeU madeV
    have := loose.sock u madeU
    have := loose.sock v madeV
    grind
  · intro d madeU isFd
    rw [fields] at isFd ⊢
    have := closes u d madeU
    have := loose.fresh
    change (c.desc d).closes = _
    grind

/-- A socket on the list is released. -/
theorem Linked.sockRelease (linked : c.Linked) {s : SockId} (live : s ∈ c.socks) :
    (c.sockRelease s).Linked := by
  unfold Core.sockRelease
  have made := linked.bound s live
  obtain ⟨nodup, bound, frees, fdBound, fdInj, closes⟩ := linked
  constructor
  case nodup => exact nodup.erase s
  case bound => exact fun u inside => bound u (List.mem_of_mem_erase inside)
  all_goals intro u
  all_goals simp only [Function.update_apply]
  case frees =>
    intro madeU
    have := frees u madeU
    simp only [nodup.mem_erase_iff]
    by_cases same : u = s
    · subst same; simpa [live] using this
    · simpa [same] using this
  case fd_bound =>
    intro fd madeU isFd
    have := fdBound u fd madeU
    grind
  case fd_inj =>
    intro v fd madeU madeV isFd isFd'
    have := fdInj u v fd madeU madeV
    grind
  case closes =>
    -- Only this socket has this descriptor, so the others' are closed as often as before.
    intro fd madeU isFd
    have before := closes u fd madeU
    have mine := fdInj u s fd madeU made
    rw [closeFd_apply]
    by_cases same : u = s
    · subst same; grind
    · have isFd' : (c.sock u).fd = some fd := by simpa [same] using isFd
      have differs : (c.sock s).fd ≠ some fd := fun points => same (mine isFd' points)
      simpa [same, differs] using before isFd'

/-- Every move keeps the sockets' histories sound. -/
theorem Linked.move (move : Move r ⟨c, x, h⟩ ⟨c', x', h'⟩) (linked : c.Linked) : c'.Linked := by
  have same : ∀ s, s < c.nsock → (c.sock s).fd = (c.sock s).fd ∧
      (c.sock s).frees = (c.sock s).frees := fun _ _ => ⟨rfl, rfl⟩
  cases move with
  | enter =>
    rw [setSlot_rest]
    exact linked.congr rfl rfl rfl (fun s _ => (setSlot_other _ _ s).2) fun _ _ _ _ => rfl
  | exit =>
    rw [leaveSock_rest]
    exact linked.congr rfl rfl rfl (fun s _ => leaveSock_other _ _ s) fun _ _ _ _ => rfl
  | sever =>
    rw [leaveSock_rest]
    exact linked.congr rfl rfl rfl (fun s _ => leaveSock_other _ _ s) fun _ _ _ _ => rfl
  | park =>
    refine linked.congr rfl rfl rfl (fun u _ => ?_) fun _ _ _ _ => rfl
    simp only [modSock, Function.update_apply]
    grind
  | send =>
    refine linked.congr rfl rfl rfl same fun s fd _ _ => ?_
    change (wireAppend _ _ _ fd).closes = _
    rw [wireAppend_apply]
    split <;> rfl
  | newDesc => exact linked.newDesc
  | closeDesc loose =>
    refine linked.congr rfl rfl rfl same fun s fd made isFd => ?_
    have other := loose.sock s made
    simp only [Core.closeDesc, modDesc, Function.update_apply]
    grind
  | sockNew loose early => exact linked.sockNew loose
  | setFd live mine without loose => exact linked.setFd live loose
  | release unused => exact linked.sockRelease unused.live
  | _ => exact linked.congr rfl rfl rfl same fun _ _ _ _ => rfl

/-- Every socket has a descriptor. -/
def Opened (c : Core) : Prop := ∀ s, s < c.nsock → (c.sock s).fd ≠ none

/-- A backend that makes no socket in advance has a descriptor for every socket. -/
theorem Opened.move (move : Move r ⟨c, x, h⟩ ⟨c', x', h'⟩) (late : ¬ r.early) (opened : c.Opened) :
    c'.Opened := by
  cases move with
  | enter =>
    rw [setSlot_rest]
    intro s made
    exact (setSlot_other _ _ s).2.1.trans_ne (opened s made)
  | exit =>
    rw [leaveSock_rest]
    intro s made
    exact (leaveSock_other _ _ s).1.trans_ne (opened s made)
  | sever =>
    rw [leaveSock_rest]
    intro s made
    exact (leaveSock_other _ _ s).1.trans_ne (opened s made)
  | park =>
    intro u made
    have := opened u made
    simp only [modSock, Function.update_apply]
    grind
  | sockNew loose early =>
    intro u made
    simp only [Core.sockNew, Function.update_apply]
    split
    · exact fun none => late (early none)
    · rename_i other
      exact opened u (Nat.lt_of_le_of_ne (Nat.le_of_lt_succ made) other)
  | setFd live mine without loose =>
    intro u made
    have := opened u made
    simp only [modSock, Function.update_apply]
    split <;> simp_all
  | release unused =>
    intro u made
    have := opened u made
    simp only [Core.sockRelease, Function.update_apply]
    grind
  | _ => exact opened

end Core

end Myio.Loop
