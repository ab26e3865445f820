import Myio.Xev.Slots

/-! Every callback of the libxev backend keeps the pointers in order. -/

namespace Myio.Xev.Io

open Function (update)

variable {io io' : Io} {skip : Option SockId} {t u : TaskId} {s : SockId} {k : Task}
  {r : Result → Result}

/-! ### Parts of a step -/

/-- What the parts of a step leave alone: they make no task, and put no strange name anywhere. -/
structure Frame (io io' : Io) : Prop where
  held : io'.held = io.held
  claimed : io'.claimed = io.claimed
  user : io'.user = io.user
  reap : ∀ t ∈ io'.reap, t ∈ io.reap ∨ t < io.ntask
  ntask : io'.ntask = io.ntask
  nsock : io.nsock ≤ io'.nsock

namespace Frame

theorem trans {v : Io} (first : Frame io v) (second : Frame v io') : Frame io io' where
  held := second.held.trans first.held
  claimed := second.claimed.trans first.claimed
  user := second.user.trans first.user
  reap t there := by
    rcases second.reap t there with before | inside
    · exact first.reap t before
    · exact .inr (first.ntask ▸ inside)
  ntask := second.ntask.trans first.ntask
  nsock := Nat.le_trans first.nsock second.nsock

/-- Only tasks, sockets and counts are written. -/
theorem tables (held : io'.held = io.held) (claimed : io'.claimed = io.claimed)
    (user : io'.user = io.user) (reap : io'.reap = io.reap) (ntask : io'.ntask = io.ntask)
    (nsock : io'.nsock = io.nsock) : Frame io io' :=
  ⟨held, claimed, user, fun t there => .inl (reap ▸ there), ntask, Nat.le_of_eq nsock.symm⟩

theorem refl (io : Io) : Frame io io := tables rfl rfl rfl rfl rfl rfl

theorem modTask (io : Io) (t : TaskId) (f : Task → Task) : Frame io (io.modTask t f) :=
  tables rfl rfl rfl rfl rfl rfl

theorem modSock (io : Io) (s : SockId) (f : Sock → Sock) : Frame io (io.modSock s f) :=
  tables rfl rfl rfl rfl rfl rfl

theorem sockNew (io : Io) : Frame io io.sockNew :=
  ⟨rfl, rfl, rfl, fun _ => .inl, rfl, Nat.le_succ _⟩

theorem settle (inside : t < io.ntask) (keeps : Result.Keeps r) : Frame io (io.settle t r) := by
  -- Only the task itself can be new on the reap list.
  rw [settle_eq keeps]
  refine ⟨rfl, rfl, rfl, fun u there => ?_, rfl, Nat.le_refl _⟩
  dsimp only at there
  split at there
  · rcases List.mem_cons.mp there with rfl | there
    · exact .inr inside
    · exact .inl there
  · exact .inl there

theorem submitCancel (io : Io) (t : TaskId) : Frame io (io.submitCancel t) := by
  unfold Io.submitCancel
  split
  · exact .refl io
  · split
    · exact .modTask _ _ _
    · exact .refl io

end Frame

/-- Where a part of a step leads: the pointers are in order, and the rest is as it was. -/
structure Goes (io io' : Io) : Prop where
  wired : Wired none io'
  frame : Frame io io'

theorem Goes.trans {v : Io} (first : Goes io v) (second : Goes v io') : Goes io io' :=
  ⟨second.wired, first.frame.trans second.frame⟩

namespace Wired

theorem stays (wired : Wired none io) : Goes io io := ⟨wired, .refl io⟩

/-- A task that is ready ends. -/
theorem ends (wired : Wired none io) (ready : Ready io t) (keeps : Result.Keeps r) :
    Goes io (io.settle t r) :=
  ⟨wired.settle keeps ready.inside ready.other ready.out ready.idle, .settle ready.inside keeps⟩

/-- The three ways to end a task. -/
theorem succeeds (wired : Wired none io) (ready : Ready io t) (value : Int) :
    Goes io (io.completeOk t value) := wired.ends ready (asOk_keeps value)

theorem errs (wired : Wired none io) (ready : Ready io t) (errno : Int) :
    Goes io (io.completeErr t errno) := wired.ends ready (asErr_keeps errno)

theorem isCanceled (wired : Wired none io) (ready : Ready io t) : Goes io (io.completeCanceled t) :=
  wired.ends ready asCanceled_keeps

/-- A cancel and any other error. -/
theorem fails (wired : Wired none io) (ready : Ready io t) (err : XevError) :
    Goes io (io.completeFailed t err) := by
  obtain ⟨r, keeps, _, same⟩ := completeFailed_eq io t err
  rw [same]
  exact wired.ends ready keeps

/-- The loop lets go of a task that is no write. -/
theorem lets (wired : Wired none io) (inside : t < io.ntask) (other : (io.task t).kind ≠ .sockWrite) :
    Goes io (io.disarm t) := ⟨wired.disarm inside fun isWrite => absurd isWrite other, .modTask _ _ _⟩

/-- The socket an operation has won is made. -/
theorem sockNew (wired : Wired none io) : Goes io io.sockNew := by
  -- A name that was never given out has an empty record already.
  refine ⟨wired.resock rfl rfl (Nat.le_succ _) (fun s => ?_) (fun s u mine => ?_)
    (fun s outside => ?_), .sockNew io⟩
  · have fresh := wired.freshSock io.nsock (Nat.le_refl _)
    by_cases isNew : s = io.nsock
    · subst isNew; simp [Io.sockNew, fresh]
    · simp [Io.sockNew, isNew]
  · have fresh := wired.freshSock io.nsock (Nat.le_refl _)
    have apart : s ≠ io.nsock := by rintro rfl; rw [fresh] at mine; cases mine
    simpa [Io.sockNew, apart] using mine
  · have beyond : io.nsock < s := outside
    simpa [Io.sockNew, Nat.ne_of_gt beyond] using wired.freshSock s (Nat.le_of_lt beyond)

/-- The list of sockets and the history of one are written. -/
theorem sockFree (wired : Wired none io) (inside : s < io.nsock) : Goes io (io.sockFree s) :=
  ⟨(wired.modSock (f := fun k => { k with frees := k.frees + 1 }) inside rfl).aside rfl rfl rfl rfl,
    .tables rfl rfl rfl rfl rfl rfl⟩

theorem sockDiscard (wired : Wired none io) (inside : s < io.nsock) : Goes io (io.sockDiscard s) :=
  .trans
    ⟨wired.modSock (f := fun k => { k with fdCloses := k.fdCloses + 1 }) inside rfl, .modSock _ _ _⟩
    (sockFree (wired.modSock inside rfl) inside)

theorem sockDiscardAsync (wired : Wired none io) (inside : s < io.nsock) :
    Goes io (io.sockDiscardAsync s) := ⟨wired.modSock inside rfl, .modSock _ _ _⟩

theorem sockReapCb (wired : Wired none io) (active : (io.sock s).cClose = true) :
    Goes io (io.sockReapCb s) :=
  have inside := wired.inside_of_cClose active
  .trans ⟨wired.modSock (f := fun k => { k with cClose := false }) inside rfl, .modSock _ _ _⟩
    (sockFree (wired.modSock inside rfl) inside)

/-! ### Files and timers -/

/-- A task of a kind without a socket is ready once the loop lets go of it. -/
theorem ready_of_unsocketed (wired : Wired none io) (inside : t < io.ntask)
    (kind : socketed (io.task t).kind = false) : Ready (io.disarm t) t where
  inside := inside
  other := by
    simp only [Io.disarm, modTask_task, Function.update_self]
    intro isWrite; rw [isWrite] at kind; cases kind
  out := by simpa [Io.disarm] using wired.unsocketed kind
  idle := by simp [Io.disarm]

theorem lets_unsocketed (wired : Wired none io) (inside : t < io.ntask)
    (kind : socketed (io.task t).kind = false) : Goes io (io.disarm t) :=
  wired.lets inside fun isWrite => by rw [isWrite] at kind; cases kind

/-- The close of a file is done. -/
theorem fileCloseCb (wired : Wired none io) (active : (io.task t).c = true)
    (kind : (io.task t).kind = .fileClose) (res : Except XevError Unit) :
    Goes io (io.fileCloseCb t res) := by
  have inside := wired.inside_of_c active
  have off := wired.lets_unsocketed inside (by rw [kind]; rfl)
  have ready := wired.ready_of_unsocketed inside (by rw [kind]; rfl)
  refine off.trans ?_
  cases res with
  | ok _ => exact off.wired.succeeds ready 0
  | error err => exact off.wired.errs ready _

theorem fileReadCb (wired : Wired none io) (active : (io.task t).c = true)
    (kind : (io.task t).kind = .fileRw) (res : Except XevError Nat) :
    Goes io (io.fileReadCb t res) := by
  have inside := wired.inside_of_c active
  have off := wired.lets_unsocketed inside (by rw [kind]; rfl)
  have ready := wired.ready_of_unsocketed inside (by rw [kind]; rfl)
  unfold Io.fileReadCb
  dsimp only
  -- A task that a cancel has ended only leaves the loop.
  split
  · exact off
  refine off.trans ?_
  cases res with
  | ok n => exact off.wired.succeeds ready n
  | error err =>
    dsimp only
    split
    · exact off.wired.succeeds ready 0
    · exact off.wired.fails ready err

theorem fileWriteCb (wired : Wired none io) (active : (io.task t).c = true)
    (kind : (io.task t).kind = .fileRw) (res : Except XevError Nat) :
    Goes io (io.fileWriteCb t res) := by
  have inside := wired.inside_of_c active
  have off := wired.lets_unsocketed inside (by rw [kind]; rfl)
  have ready := wired.ready_of_unsocketed inside (by rw [kind]; rfl)
  unfold Io.fileWriteCb
  dsimp only
  -- As for a read, but the end of the file is an error here.
  split
  · exact off
  refine off.trans ?_
  cases res with
  | ok n => exact off.wired.succeeds ready n
  | error err => exact off.wired.fails ready err

/-- A timer has run out, or was canceled. -/
theorem timerCb (wired : Wired none io) (active : (io.task t).c = true)
    (kind : (io.task t).kind = .timer) (res : Except XevError Unit) :
    Goes io (io.timerCb t res) := by
  have inside := wired.inside_of_c active
  have off := wired.lets_unsocketed inside (by rw [kind]; rfl)
  have ready := wired.ready_of_unsocketed inside (by rw [kind]; rfl)
  unfold Io.timerCb
  dsimp only
  -- A canceled timer comes back through the same callback.
  split
  · exact off
  refine off.trans ?_
  cases res with
  | ok _ => exact off.wired.succeeds ready 0
  | error err => exact off.wired.fails ready err

/-! ### Sockets -/

/-- The socket of a connect goes to its result, or to a close on the loop. -/
theorem connectCb (wired : Wired none io) (active : (io.task t).c = true)
    (kind : (io.task t).kind = .connect) (res : Except XevError Unit) :
    Goes io (io.connectCb t res) := by
  have inside := wired.inside_of_c active
  have fine := wired.tasks t
  -- A connect on the loop still points at its socket, and so is not done.
  obtain ⟨s, points⟩ := Option.ne_none_iff_exists'.mp (fine.connecting kind active)
  have insideSock := (fine.points s points).1
  have isOpen := fine.undone (by rw [points]; simp)
  have off := wired.lets inside (by rw [kind]; decide)
  have fineOff := off.wired.tasks t
  generalize isOff : io.disarm t = v at off fineOff
  have taskV : v.task t = { io.task t with c := false } := by rw [← isOff]; simp [Io.disarm]
  have kindV : (v.task t).kind = .connect := by rw [taskV]; exact kind
  have insideV : t < v.ntask := by rw [← isOff]; exact inside
  have sockV : s < v.nsock := by rw [← isOff]; exact insideSock
  have idleV : (v.task t).c = false := by rw [taskV]
  unfold Io.connectCb
  rw [isOff]
  dsimp only
  rw [if_neg (by rw [taskV]; simp [isOpen])]
  refine off.trans ?_
  cases res with
  | ok _ =>
    dsimp only
    -- The socket moves from the task into its result.
    have won := off.wired.loose (f := fun k => { k with
      res := { k.res with ptr := k.sock }, sock := none, won := k.sock }) insideV rfl
      (by rw [kindV]; rfl) (by
        have bare := fineOff.unaim (by rw [kindV]; decide) fun _ => idleV
        exact { bare with won := fun x there => ⟨(fineOff.points x there).1, .inl kindV⟩ })
    refine .trans ⟨won, .modTask _ _ _⟩ (won.succeeds ⟨insideV, ?_, ?_, ?_⟩ 0)
    · simp [kindV]
    · simp
    · simp [kindV]
  | error err =>
    dsimp only
    -- The socket was never the caller's: the loop closes it.
    have aim : v.sockOf t = s := by simp [Io.sockOf, taskV, points]
    have bare := off.wired.loose (f := ({ · with sock := none })) insideV rfl (by rw [kindV]; rfl)
      (fineOff.unaim (by rw [kindV]; decide) fun _ => idleV)
    rw [aim]
    have gone := bare.sockDiscardAsync (s := s) sockV
    refine .trans ⟨bare, .modTask _ _ _⟩ (gone.trans (gone.wired.fails ⟨insideV, ?_, ?_, ?_⟩ err))
    · simp [Io.sockDiscardAsync, kindV]
    · simp [Io.sockDiscardAsync]
    · simp [Io.sockDiscardAsync, kindV]

/-- The callback of a read or an accept that is not done empties the slot first. -/
theorem vacates (wired : Wired none io) {kind : Kind} (isSlot : kind = .sockRead ∨ kind = .accept)
    (isKind : (io.task t).kind = kind) (isOpen : (io.task t).done = false)
    (points : (io.task t).sock = some s) :
    Goes io ((io.modSock s (setSlot kind none)).modTask t ({ · with sock := none })) ∧
      Ready ((io.modSock s (setSlot kind none)).modTask t ({ · with sock := none })) t := by
  have notOpen : kind ≠ .open := by rintro rfl; rcases isSlot with h | h <;> cases h
  -- A read or an accept that is not done sits in the slot of the socket it points at.
  have there := (wired.slot_iff isSlot).mpr ⟨isKind, isOpen, points⟩
  refine ⟨⟨wired.leave isSlot there, .tables rfl rfl rfl rfl rfl rfl⟩,
    wired.inside (.inl (isKind ▸ notOpen)), ?_, ?_, ?_⟩
  · simp only [modTask_task, Function.update_self, modSock_task, isKind]
    rintro rfl; rcases isSlot with h | h <;> cases h
  · simp
  · simp only [modTask_task, Function.update_self, modSock_task, isKind]
    rintro (h | h) <;> rcases isSlot with g | g <;> rw [g] at h <;> cases h

end Wired

/-- How `sockReadCb` ends a read. -/
def readEnd (io : Io) (t : TaskId) : Except XevError Nat → Io
  | .ok n => io.completeOk t n
  | .error err => if err = .eof then io.completeOk t 0 else io.completeFailed t err

theorem Goes.readEnd {v : Io} (goes : Goes io v) (ready : Ready v t) (res : Except XevError Nat) :
    Goes io (v.readEnd t res) := by
  refine goes.trans ?_
  cases res with
  | ok n => exact goes.wired.succeeds ready n
  | error err =>
    simp only [Io.readEnd]
    split
    · exact goes.wired.succeeds ready 0
    · exact goes.wired.fails ready err

/-- How `acceptCb` ends an accept. -/
def acceptEnd (io : Io) (t : TaskId) : Except XevError Bool → Io
  | .ok true =>
    (io.sockNew.modTask t fun k =>
      { k with res := { k.res with ptr := some io.nsock }, won := some io.nsock }).completeOk t 0
  | .ok false => io.completeErr t ENOMEM
  | .error err => io.completeFailed t err

theorem Goes.acceptEnd {v : Io} (goes : Goes io v) (ready : Ready v t)
    (kind : (v.task t).kind = .accept) (res : Except XevError Bool) :
    Goes io (v.acceptEnd t res) := by
  refine goes.trans ?_
  cases res with
  | error err => exact goes.wired.fails ready err
  | ok room =>
    cases room with
    | false => exact goes.wired.errs ready ENOMEM
    | true =>
      have made := goes.wired.sockNew
      have fine := made.wired.tasks t
      have won := made.wired.rework (t := t) (f := fun k => { k with
          res := { k.res with ptr := some v.nsock }, won := some v.nsock }) ready.inside
        (fun s => by simp [pends, Io.sockNew, kind]) rfl
        { fine with won := fun x there => ⟨Option.some.inj there ▸ Nat.lt_succ_self _, .inr kind⟩ }
      refine made.trans (.trans ⟨won, .modTask _ _ _⟩ (won.succeeds ⟨ready.inside, ?_, ?_, ?_⟩ 0))
      · simpa [Io.sockNew] using ready.other
      · simpa [Io.sockNew] using ready.out
      · simpa [Io.sockNew] using ready.idle

namespace Wired

/-- A read leaves its slot and ends. -/
theorem sockReadCb (wired : Wired none io) (active : (io.task t).c = true)
    (kind : (io.task t).kind = .sockRead) (res : Except XevError Nat) :
    Goes io (io.sockReadCb t res) := by
  have inside := wired.inside_of_c active
  have off := wired.lets inside (by rw [kind]; decide)
  generalize isOff : io.disarm t = v at off
  have taskV : v.task t = { io.task t with c := false } := by rw [← isOff]; simp [Io.disarm]
  have kindV : (v.task t).kind = .sockRead := by rw [taskV]; exact kind
  unfold Io.sockReadCb
  rw [isOff]
  dsimp only
  split
  · exact off
  rename_i notDone
  have isOpen : (v.task t).done = false := by simpa using notDone
  refine off.trans ?_
  cases points : (v.task t).sock with
  | none =>
    refine off.wired.stays.readEnd ⟨by rw [← isOff]; exact inside, ?_, points, ?_⟩ res
    · rw [kindV]; decide
    · rw [kindV]; rintro (h | h) <;> cases h
  | some s =>
    obtain ⟨goes, ready⟩ := off.wired.vacates (.inl rfl) kindV isOpen points
    exact goes.readEnd ready res

/-- An accept leaves its slot and ends, with a socket of its own if it has won one. -/
theorem acceptCb (wired : Wired none io) (active : (io.task t).c = true)
    (kind : (io.task t).kind = .accept) (res : Except XevError Bool) :
    Goes io (io.acceptCb t res) := by
  have inside := wired.inside_of_c active
  have off := wired.lets inside (by rw [kind]; decide)
  generalize isOff : io.disarm t = v at off
  have taskV : v.task t = { io.task t with c := false } := by rw [← isOff]; simp [Io.disarm]
  have kindV : (v.task t).kind = .accept := by rw [taskV]; exact kind
  unfold Io.acceptCb
  rw [isOff]
  dsimp only
  split
  · exact off
  rename_i notDone
  have isOpen : (v.task t).done = false := by simpa using notDone
  refine off.trans ?_
  cases points : (v.task t).sock with
  | none =>
    refine off.wired.stays.acceptEnd ⟨by rw [← isOff]; exact inside, ?_, points, ?_⟩ kindV res
    · rw [kindV]; decide
    · rw [kindV]; rintro (h | h) <;> cases h
  | some s =>
    obtain ⟨goes, ready⟩ := off.wired.vacates (.inr rfl) kindV isOpen points
    exact goes.acceptEnd ready (by simp [kindV]) res

/-- The close of a socket is done. -/
theorem sockCloseCb (wired : Wired none io) (active : (io.task t).c = true)
    (kind : (io.task t).kind = .sockClose) (res : Except XevError Unit) :
    Goes io (io.sockCloseCb t res) := by
  have inside := wired.inside_of_c active
  have fine := wired.tasks t
  -- The close on the loop still points at the socket it is about to free.
  obtain ⟨_, s, points, _⟩ := fine.closing kind active
  have insideSock := (fine.points s points).1
  have off := wired.lets inside (by rw [kind]; decide)
  have fineOff := off.wired.tasks t
  generalize isOff : io.disarm t = v at off fineOff
  have taskV : v.task t = { io.task t with c := false } := by rw [← isOff]; simp [Io.disarm]
  have kindV : (v.task t).kind = .sockClose := by rw [taskV]; exact kind
  have insideV : t < v.ntask := by rw [← isOff]; exact inside
  have sockV : s < v.nsock := by rw [← isOff]; exact insideSock
  have idleV : (v.task t).c = false := by rw [taskV]
  have aim : v.sockOf t = s := by simp [Io.sockOf, taskV, points]
  have bare := off.wired.loose (f := ({ · with sock := none })) insideV rfl (by rw [kindV]; rfl)
    (fineOff.unaim (by rw [kindV]; decide) fun _ => idleV)
  have freed := bare.sockFree (s := s) sockV
  have marked := freed.wired.modSock (s := s) (f := ({ · with closed := true })) sockV rfl
  have ready : Ready (((v.modTask t ({ · with sock := none })).sockFree s).modSock s
      ({ · with closed := true })) t :=
    ⟨insideV, by simp [Io.sockFree, kindV], by simp [Io.sockFree], by simp [Io.sockFree, idleV]⟩
  unfold Io.sockCloseCb
  rw [isOff]
  dsimp only
  rw [aim]
  refine off.trans (.trans ⟨bare, .modTask _ _ _⟩ (freed.trans (.trans ⟨marked, .modSock _ _ _⟩ ?_)))
  cases res with
  | ok _ => exact marked.succeeds ready 0
  | error err => exact marked.errs ready _

/-! ### Writes -/

/-- The kernel has accepted some bytes of a send. -/
theorem sendBytes (wired : Wired none io) (inside : t < io.ntask) (on : (io.task t).on = some s)
    (insideSock : s < io.nsock) (n : Nat) : Goes io (io.sendBytes t n) := by
  -- Neither the wire nor the count is a link.
  have wire := wired.modSock (s := s)
    (f := fun k => { k with wire := k.wire ++ (io.task t).slice.take n }) insideSock rfl
  have sent := wire.note (t := t) (f := fun k => { k with sent := k.sent + n }) inside rfl
  unfold Io.sendBytes
  rw [on]
  exact .trans ⟨wire, .modSock _ _ _⟩ ⟨sent, .modTask _ _ _⟩

/-- The head of a FIFO ends. -/
theorem headEnds (wired : Wired none io) (active : (io.task t).c = true) (pends : io.pends s t = true)
    (keeps : Result.Keeps r) : Goes io (((io.disarm t).writePopHead t).settle t r) := by
  have head := (wired.armed s t pends (by simp)).mp active
  have points := wired.points_of_pends pends
  have inside := wired.inside_of_pends pends
  -- The FIFO names each write once, so the head is not its own successor.
  have apart : (io.task t).wnext ≠ some t := by
    have holds := wired.fifo s (by simp)
    have links := holds.links
    have nodup := holds.nodup
    cases members : io.pend s with
    | nil => have member := wired.member pends; rw [members] at member; cases member
    | cons h rest =>
      rw [members] at links nodup
      obtain ⟨first, links⟩ := links
      obtain rfl : t = h := Option.some.inj (head.symm.trans first)
      intro loops
      cases rest with
      | nil => exact Option.some_ne_none _ (loops.symm.trans links)
      | cons h' rest =>
        obtain rfl : t = h' := Option.some.inj (loops.symm.trans links.1)
        simp at nodup
  rw [popHead_settle keeps points head apart ((wired.tasks t).noPtr (pends_iff.mp pends).1)]
  refine ⟨wired.headEnded keeps pends head, rfl, rfl, rfl, fun u there => ?_, rfl, Nat.le_refl _⟩
  simp only [Io.headEnded] at there
  split at there
  · rcases List.mem_cons.mp there with rfl | there
    · exact .inr inside
    · exact .inl there
  · exact .inl there

/-- A send goes on, or its write ends and the next one takes the loop. -/
theorem sockWriteCb (wired : Wired none io) (active : (io.task t).c = true)
    (kind : (io.task t).kind = .sockWrite) (res : Except XevError Nat) :
    Goes io (io.sockWriteCb t res) := by
  have inside := wired.inside_of_c active
  -- The bytes go on the socket the write was submitted on, even when it is done.
  obtain ⟨s, on, insideSock⟩ := (wired.tasks t).sends active kind
  cases res with
  | error err =>
    unfold Io.sockWriteCb
    dsimp only
    split
    · rename_i done
      have ended : (io.task t).done = true := by simpa [Io.disarm] using done
      exact ⟨wired.disarm inside fun _ => ended, .modTask _ _ _⟩
    · rename_i notDone
      have isOpen : (io.task t).done = false := by simpa [Io.disarm] using notDone
      obtain ⟨r, keeps, _, same⟩ := completeFailed_eq ((io.disarm t).writePopHead t) t err
      rw [same]
      exact wired.headEnds active (pends_iff.mpr ⟨kind, isOpen, on⟩) keeps
  | ok n =>
    have sent := wired.sendBytes inside on insideSock n
    have taskS : (io.sendBytes t n).task t = { io.task t with sent := (io.task t).sent + n } := by
      simp [Io.sendBytes]
    unfold Io.sockWriteCb
    dsimp only
    generalize io.sendBytes t n = v at sent taskS
    have insideV : t < v.ntask := by rw [sent.frame.ntask]; exact inside
    have kindV : (v.task t).kind = .sockWrite := by rw [taskS]; exact kind
    have activeV : (v.task t).c = true := by rw [taskS]; exact active
    have onV : (v.task t).on = some s := by rw [taskS]; exact on
    refine sent.trans ?_
    split
    · rename_i done
      have ended : (v.task t).done = true := by simpa [Io.disarm] using done
      exact ⟨sent.wired.disarm insideV fun _ => ended, .modTask _ _ _⟩
    rename_i notDone
    have isOpen : (v.task t).done = false := by simpa [Io.disarm] using notDone
    split
    · -- The rest of the buffer is sent; the send never leaves the loop.
      have again := sent.wired.note (t := t)
        (f := fun k => { k with slice := k.slice.drop n, c := true }) insideV (by simp [activeV])
      have same : (v.disarm t).modTask t (fun k => { k with slice := k.slice.drop n, c := true }) =
          v.modTask t (fun k => { k with slice := k.slice.drop n, c := true }) := by
        simp [Io.disarm, Io.modTask]
      rw [same]
      exact ⟨again, .modTask _ _ _⟩
    · exact sent.wired.headEnds activeV (pends_iff.mpr ⟨kindV, isOpen, onV⟩) (asOk_keeps _)

/-! ### The thread-pool stage -/

/-- A task with a thread-pool stage that has not begun it, or is through with it. -/
structure Unstarted (io : Io) (t : TaskId) : Prop where
  inside : t < io.ntask
  pooled : pooled (io.task t).kind = true
  out : (io.task t).sock = none
  idle : (io.task t).c = false

theorem Unstarted.ready (unstarted : Unstarted io t) : Ready io t where
  inside := unstarted.inside
  other isWrite := by
    have pooled := unstarted.pooled
    rw [isWrite] at pooled; cases pooled
  out := unstarted.out
  idle _ := unstarted.idle

theorem Unstarted.apart (unstarted : Unstarted io t) : seated (io.task t).kind = false := by
  have pooled := unstarted.pooled
  cases kind : (io.task t).kind <;> rw [kind] at pooled <;> first | rfl | cases pooled

/-- The thread-pool stage of a task begins. -/
theorem poolSubmit (wired : Wired none io) (unstarted : Unstarted io t) (init : Option XevError) :
    Goes io (io.poolSubmit t init) := by
  cases init with
  | some err => exact wired.errs unstarted.ready _
  | none =>
    have fine := wired.tasks t
    exact ⟨wired.loose
      (f := ({ · with hasNotifier := true, poolPending := true, cAsync := true }))
      unstarted.inside rfl unstarted.apart
      { fine with pooled := fun _ => ⟨unstarted.pooled, unstarted.idle, unstarted.out⟩ },
      .tables rfl rfl rfl rfl rfl rfl⟩

/-- A resolved connect is handed to the loop with a new socket. -/
theorem startConnect (wired : Wired none io) (unstarted : Unstarted io t)
    (kind : (io.task t).kind = .connect) (isOpen : (io.task t).done = false)
    (cAsync : (io.task t).cAsync = false) (connecting : Connecting) :
    Goes io (io.startConnect t connecting) := by
  cases connecting with
  | noMem => exact wired.errs unstarted.ready _
  | refused err => exact wired.errs unstarted.ready _
  | started =>
    -- The socket is made, then the task points at it, and then its completion is active.
    have made := wired.sockNew
    have fine := made.wired.tasks t
    have taskN : io.sockNew.task t = io.task t := rfl
    have aimed := made.wired.loose (t := t) (f := ({ · with sock := some io.nsock }))
      unstarted.inside rfl unstarted.apart { fine with
        aimed := fun isWrite => by rw [taskN, kind] at isWrite; cases isWrite
        closing := fun isClose => by rw [taskN, kind] at isClose; cases isClose
        connecting := fun _ _ => by simp
        undone := fun _ => isOpen
        points := fun x there => ⟨Option.some.inj there ▸ Nat.lt_succ_self _, by rw [taskN, kind]; rfl⟩
        pooled := fun async => by rw [taskN, cAsync] at async; cases async }
    have fineA := aimed.tasks t
    generalize isA : io.sockNew.modTask t ({ · with sock := some io.nsock }) = v at aimed fineA
    have taskA : v.task t = { io.task t with sock := some io.nsock } := by
      rw [← isA]; simp [Io.sockNew]
    have started := aimed.loose (t := t) (f := ({ · with c := true }))
      (by rw [← isA]; exact unstarted.inside) rfl (by rw [taskA]; exact unstarted.apart) { fineA with
        closing := fun isClose => by rw [taskA] at isClose; rw [kind] at isClose; cases isClose
        closingFile := fun isClose => by rw [taskA] at isClose; rw [kind] at isClose; cases isClose
        connecting := fun _ _ => by rw [taskA]; simp
        pooled := fun async => by rw [taskA] at async; rw [cAsync] at async; cases async
        sends := fun _ isWrite => by rw [taskA] at isWrite; rw [kind] at isWrite; cases isWrite }
    unfold Io.startConnect
    dsimp only
    rw [isA]
    refine made.trans ⟨started, ?_⟩
    rw [← isA]
    exact .tables rfl rfl rfl rfl rfl rfl

/-- The thread-pool stage of a task is over. -/
theorem poolDoneCb (wired : Wired none io) (active : (io.task t).cAsync = true)
    (wait : Option XevError) (value errno : Int) (connecting : Connecting) :
    Goes io (io.poolDoneCb t wait value errno connecting) := by
  have inside := wired.inside (.inr active)
  have fine := wired.tasks t
  -- Until the stage is over, the task is neither on the loop nor at a socket.
  obtain ⟨isPooled, idle, out⟩ := fine.pooled active
  have before : Unstarted io t := ⟨inside, isPooled, out, idle⟩
  have back : Goes io (io.modTask t ({ · with
      cAsync := false, poolPending := false, poolValue := value, poolErrno := errno })) :=
    ⟨wired.loose inside rfl before.apart { fine with pooled := fun async => by cases async },
      .modTask _ _ _⟩
  unfold Io.poolDoneCb
  dsimp only
  generalize isBack : io.modTask t ({ · with
      cAsync := false, poolPending := false, poolValue := value, poolErrno := errno }) = v at back
  have taskV : v.task t = { io.task t with
      cAsync := false, poolPending := false, poolValue := value, poolErrno := errno } := by
    rw [← isBack]; simp
  have unstarted : Unstarted v t := ⟨by rw [back.frame.ntask]; exact inside,
    by rw [taskV]; exact isPooled, by rw [taskV]; exact out, by rw [taskV]; exact idle⟩
  have ready := unstarted.ready
  refine back.trans ?_
  cases wait with
  | some err =>
    dsimp only
    split
    · exact back.wired.stays
    · exact back.wired.errs ready _
  | none =>
    dsimp only
    split
    · exact back.wired.stays
    rename_i notDone
    have isOpen : (v.task t).done = false := by simpa using notDone
    split
    · split
      · exact back.wired.errs ready _
      · exact back.wired.succeeds ready _
    · split
      · exact back.wired.succeeds ready _
      · exact back.wired.errs ready _
    · rename_i kind
      split
      · exact back.wired.isCanceled ready
      · split
        · exact back.wired.errs ready _
        · exact back.wired.startConnect unstarted kind isOpen (by rw [taskV]) connecting
    · exact back.wired.stays

/-! ### Canceling -/

/-- A cancel of a task that is in no FIFO goes to the loop. -/
theorem submitsCancel (wired : Wired none io) (inside : t < io.ntask)
    (ended : (io.task t).kind = .sockWrite → (io.task t).done = true) :
    Goes io (io.submitCancel t) := by
  exact ⟨wired.submitCancel inside ended, .submitCancel io t⟩

/-- `cancelDoneCb` of a task that is off the loop. -/
theorem cancelDoneCb (wired : Wired none io) (inside : t < io.ntask) (idle : (io.task t).c = false)
    (ended : (io.task t).kind = .sockWrite → (io.task t).done = true) :
    Goes io (io.cancelDoneCb t) := by
  have fine := wired.tasks t
  have close : ∀ v, Goes io v → (v.task t).done = (io.task t).done →
      (v.task t).kind = (io.task t).kind → (v.task t).sock = none → (v.task t).c = false →
      Goes io (if (v.task t).done then v else v.completeCanceled t) := by
    intro v goes done kind out idleV
    split
    · exact goes
    · rename_i notDone
      refine goes.trans (goes.wired.isCanceled
        ⟨by rw [goes.frame.ntask]; exact inside, ?_, out, fun _ => idleV⟩)
      intro isWrite
      rw [kind] at isWrite
      rw [done] at notDone
      exact notDone (ended isWrite)
  -- Where the task still points at a socket, it is not done, and leaves it as its kind requires.
  unfold Io.cancelDoneCb
  cases points : (io.task t).sock with
  | none => exact close io wired.stays rfl rfl points idle
  | some s =>
    have insideSock := (fine.points s points).1
    have isOpen := fine.undone (by rw [points]; simp)
    have plain : ∀ v : Io, Goes io v → v.task = io.task → seated (io.task t).kind = false →
        Goes io (v.modTask t ({ · with sock := none })) := by
      intro v goes same apart
      have notWrite : (io.task t).kind ≠ .sockWrite := fun isWrite => by
        rw [isWrite] at apart; cases apart
      refine goes.trans ⟨goes.wired.loose (by rw [goes.frame.ntask]; exact inside) rfl
        (by rw [same]; exact apart) ?_, .modTask _ _ _⟩
      exact (goes.wired.tasks t).unaim (by rw [same]; exact notWrite) fun _ => by rw [same]; exact idle
    cases kind : (io.task t).kind with
    | sockRead =>
      obtain ⟨goes, _⟩ := wired.vacates (.inl rfl) kind isOpen points
      exact close _ goes (by simp) (by simp) (by simp) (by simpa using idle)
    | accept =>
      obtain ⟨goes, _⟩ := wired.vacates (.inr rfl) kind isOpen points
      exact close _ goes (by simp) (by simp) (by simp) (by simpa using idle)
    | sockWrite => have done := ended kind; rw [isOpen] at done; cases done
    | connect =>
      have goes := plain _ (wired.sockDiscard insideSock) rfl (by rw [kind]; rfl)
      exact close _ goes (by simp [Io.sockDiscard, Io.sockFree])
        (by simp [Io.sockDiscard, Io.sockFree]) (by simp)
        (by simpa [Io.sockDiscard, Io.sockFree] using idle)
    | _ =>
      have goes := plain io wired.stays rfl (by rw [kind]; rfl)
      exact close _ goes (by simp) (by simp) (by simp) (by simpa using idle)

/-- The loop has processed a cancel. -/
theorem cancelCb (wired : Wired none io) (active : (io.task t).cCancel = true) :
    Goes io (io.cancelCb t) := by
  have inside := wired.inside_of_cCancel active
  have fine := wired.tasks t
  -- The cancel's own completion is inactive first; a write it belongs to is done already.
  have off : Goes io (io.modTask t ({ · with cCancel := false })) :=
    ⟨wired.touch inside rfl ⟨fine.aimed, fine.closing, fine.closingFile, fine.connecting, fine.undone,
      fine.points, fine.won, fine.pooled, (by intro idle; cases idle), fine.sends⟩, .modTask _ _ _⟩
  unfold Io.cancelCb
  dsimp only
  generalize isOff : io.modTask t ({ · with cCancel := false }) = v at off
  have taskV : v.task t = { io.task t with cCancel := false } := by rw [← isOff]; simp
  have insideV : t < v.ntask := by rw [off.frame.ntask]; exact inside
  have ended : (v.task t).kind = .sockWrite → (v.task t).done = true := by
    rw [taskV]; exact fine.canceling active
  refine off.trans ?_
  split
  · exact off.wired.stays
  split
  · have killed : Goes v (v.disarm t) := ⟨off.wired.disarm insideV ended, .modTask _ _ _⟩
    refine killed.trans (killed.wired.cancelDoneCb insideV ?_ ?_)
    · simp [Io.disarm]
    · simpa [Io.disarm] using ended
  · exact off.wired.stays

/-- Only a write behind the head is taken out of its FIFO; all others wait for the loop. -/
theorem implCancel (wired : Wired none io) (inside : t < io.ntask) :
    Goes io (io.implCancel t).1 := by
  have fine := wired.tasks t
  unfold Io.implCancel
  split
  · exact wired.stays
  rename_i notDone
  have isOpen : (io.task t).done = false := by simpa using notDone
  -- All kinds but a write leave the rest to the loop.
  have asks : (io.task t).kind ≠ .sockWrite → Goes io (io.submitCancel t) := fun other =>
    wired.submitsCancel inside fun isWrite => absurd isWrite other
  cases kind : (io.task t).kind with
  | timer =>
    dsimp only
    split
    · exact wired.stays
    · exact ⟨wired.loose (f := ({ · with cCancel := true })) inside rfl (by rw [kind]; rfl)
        { fine with canceling := fun _ isWrite => by rw [kind] at isWrite; cases isWrite },
        .modTask _ _ _⟩
  | sockRead => exact asks (by rw [kind]; decide)
  | accept => exact asks (by rw [kind]; decide)
  | connect =>
    dsimp only
    split
    · exact ⟨wired.note (f := ({ · with cancelRequested := true })) inside rfl, .modTask _ _ _⟩
    · exact asks (by rw [kind]; decide)
  | fileRw =>
    dsimp only
    split
    · exact asks (by rw [kind]; decide)
    · exact wired.stays
  | sockWrite =>
    dsimp only
    split
    · exact wired.stays
    · rename_i s points
      split
      · exact wired.stays
      · rename_i queued
        refine ⟨wired.removed asCanceled_keeps (wired.pends_of_points kind points) queued, ?_⟩
        rw [writeListRemove_eq]
        have removed : Frame io
            ((io.relink s ((io.chain s).remove io.ntask t)).modTask t ({ · with sock := none })) :=
          .tables rfl rfl rfl rfl rfl rfl
        exact removed.trans (.settle (by rw [removed.ntask]; exact inside) asCanceled_keeps)
  | _ => exact wired.stays

end Wired

end Myio.Xev.Io
