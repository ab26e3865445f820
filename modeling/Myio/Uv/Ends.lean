import Myio.Uv.Stops

/-! How tasks of the libuv backend end, as the moves that takes. -/

namespace Myio.Uv

theorem Alike.refl (k : Task) : Alike k k := ⟨rfl, rfl, rfl, rfl, rfl, rfl, rfl, id⟩

namespace Io

open Function (update)

variable {p : Prop} {io io₁ io' : Io} {t u : TaskId} {s c : SockId} {k : Task}

/-! ### All the books -/

/-- A record with no result yet, unless the task is done; a close never wins a socket. -/
def Unread (k : Task) : Prop :=
  (k.done = false → k.res = rPending) ∧ (k.kind = .sockClose → k.res.ptr = none)

/-- The results of the tasks, as far as they are known. -/
def Plain (io : Io) : Prop := ∀ t, Unread (io.task t)

namespace Plain

/-- One task is written, and none of the others. -/
theorem renew (plain : Plain io) (task : io'.task = update io.task t k) (fine : Unread k) : Plain io' := by
  intro u
  rw [task]
  by_cases isT : u = t
  · subst isT; rw [Function.update_self]; exact fine
  · rw [Function.update_of_ne isT]; exact plain u

theorem fresh (fresh : Fresh k) : Unread k := ⟨fun _ => fresh.res, by simp [fresh.res]⟩

theorem move (plain : Plain io) (slots : Slots io) (move : Move p io io') : Plain io' := by
  cases move with
  | aside change =>
    intro u
    unfold Unread
    rw [(change.task u).done, (change.task u).res, (change.task u).kind]
    exact plain u
  | make k isFresh kind given => exact plain.renew rfl (fresh isFresh)
  | failed kind err notConnect => exact plain.renew rfl ⟨by simp, by simp⟩
  | claim | bare | listen | closeSlot | arrivePark | closed => exact plain
  | lookup =>
    exact plain.renew (k := { kind := .connect, sock := some io.nsock, req := .queued }) rfl ⟨by simp, by simp⟩
  | waitRead s k isFresh kind on given free => exact plain.renew rfl (fresh isFresh)
  | waitAccept s given free empty =>
    exact plain.renew (k := { kind := .accept, sock := some s }) rfl ⟨by simp, by simp⟩
  | serve s c rest k ended given free parked =>
    exact plain.renew (k := k) rfl ⟨by simp [ended.done], by simp [ended.kind]⟩
  | request t req made before kind unstopped => exact plain.renew rfl (plain t)
  | tick t made before kind => exact plain.renew rfl (plain t)
  | start t queued => exact plain.renew rfl (plain t)
  | take t queued allowed => exact plain.renew rfl (plain t)
  | shake t s kind working on alive => exact plain.renew rfl (plain t)
  | ends t k made ended kind closes => exact plain.renew rfl ⟨by simp [ended.done], by simp [ended.ptr]⟩
  | leaveRead s t k named ended => exact plain.renew (k := k) rfl ⟨by simp [ended.done], by simp [ended.ptr]⟩
  | leaveAccept s t k named ended => exact plain.renew (k := k) rfl ⟨by simp [ended.done], by simp [ended.ptr]⟩
  | connected t s k kind before on ended =>
    exact plain.renew rfl ⟨by simp [ended.done], by simp [ended.kind, kind]⟩
  | connectEnds t k kind before ended sock ptr truth =>
    exact plain.renew rfl ⟨by simp [ended.done], by simp [ptr]⟩
  | close s inside allowed =>
    unfold Io.sockDestroy
    split
    · exact plain
    · intro u
      simp only [uvClose]
      split
      · exact plain u
      · exact plain u
  | shut s inside given =>
    intro u
    simp only [Io.shut]
    split
    · exact plain u
    · exact plain u
  | arriveHand s t k listens named ended =>
    have isAccept := ((slots.accept s t).mp named).1
    exact plain.renew (k := k) rfl ⟨by simp [ended.done], by simp [ended.kind, isAccept]⟩

end Plain

/-- What holds between two moves. -/
structure Books (p : Prop) (io : Io) : Prop where
  slots : Slots io
  connects : Connects io
  plain : Plain io
  stops : p ∨ Stops io

namespace Books

theorem new : Books p Io.new := ⟨.new, .new, fun _ => ⟨fun _ => rfl, fun _ => rfl⟩, .inr .new⟩

theorem move (books : Books p io) (move : Move p io io') : Books p io' := by
  refine ⟨books.slots.move move, books.connects.move books.slots move, books.plain.move books.slots move, ?_⟩
  by_cases anyEnd : p
  · exact .inl anyEnd
  · obtain rfl : p = False := eq_false anyEnd
    exact .inr ((books.stops.resolve_left id).move books.slots books.connects move)

theorem moves (books : Books p io) (moves : Moves p io io') : Books p io' := by
  induction moves with
  | refl => exact books
  | tail _ last ih => exact ih.move last

end Books

/-! ### The end of a task -/

theorem Aside.refl (io : Io) : Aside io io :=
  ⟨rfl, rfl, fun _ => .refl _, fun _ _ => rfl, fun _ => rfl, fun _ _ => rfl, fun _ => id, fun _ => id⟩

/-- One task record is written, in what only its memory and its timer are about. -/
theorem Aside.modTask (inside : t < io.ntask) {f : Task → Task} (alike : Alike (io.task t) (f (io.task t))) :
    Aside io (io.modTask t f) := by
  refine ⟨rfl, rfl, fun u => ?_, fun u unmade => ?_, fun _ => rfl, fun _ _ => rfl, fun _ => id, fun _ => id⟩
  · rw [modTask_task]
    split
    · rename_i isT; subst isT; exact alike
    · exact .refl _
  · have other : u ≠ t := fun isT => Nat.not_lt.mpr unmade (isT ▸ inside)
    rw [modTask_task, if_neg other]

theorem Aside.trans (first : Aside io io₁) (second : Aside io₁ io') : Aside io io' := by
  refine ⟨second.ntask.trans first.ntask, second.nsock.trans first.nsock, fun u => ?_, fun u unmade => ?_,
    fun s => ?_, fun s unopened => ?_, fun s given => first.claimed s (second.claimed s given),
    fun u held => first.held u (second.held u held)⟩
  · obtain ⟨kind, done, res, sock, stage, req, stopped, ticking⟩ := first.task u
    obtain ⟨kind', done', res', sock', stage', req', stopped', ticking'⟩ := second.task u
    exact ⟨kind'.trans kind, done'.trans done, res'.trans res, sock'.trans sock, stage'.trans stage,
      req'.trans req, stopped'.trans stopped, fun after => ticking (ticking' after)⟩
  · rw [second.made u (by rw [first.ntask]; exact unmade), first.made u unmade]
  · rw [second.sock s, first.sock s]
  · rw [second.opened s (by rw [first.nsock]; exact unopened), first.opened s unopened]

/-- A socket is read from no more, or again. -/
theorem Aside.reading (inside : s < io.nsock) (on : Bool) : Aside io (io.modSock s ({ · with reading := on })) := by
  refine ⟨rfl, rfl, fun _ => .refl _, fun _ _ => rfl, fun c => ?_, fun c unopened => ?_, fun _ => id, fun _ => id⟩
  · rw [modSock_sock]
    split
    · rename_i isS; subst isS; rfl
    · rfl
  · have other : c ≠ s := fun isS => Nat.not_lt.mpr unopened (isS ▸ inside)
    rw [modSock_sock, if_neg other]

theorem timerClose_aside (inside : t < io.ntask) : Aside io (io.timerClose t) :=
  .modTask inside ⟨rfl, rfl, rfl, rfl, rfl, rfl, rfl, by simp⟩

theorem taskFreeMem_aside (inside : t < io.ntask) : Aside io (io.taskFreeMem t) :=
  .modTask inside ⟨rfl, rfl, rfl, rfl, rfl, rfl, rfl, id⟩

/-- The memory of a task is released, or waits for its timer. -/
theorem release_aside (inside : t < io.ntask) : Aside io (io.release t) := by
  have waits : Aside io (io.modTask t ({ · with freeOnClose := true })) :=
    .modTask inside ⟨rfl, rfl, rfl, rfl, rfl, rfl, rfl, id⟩
  unfold release
  split
  · dsimp only
    split
    · exact waits
    · exact waits.trans (timerClose_aside inside)
  · exact taskFreeMem_aside inside

/-- A task is reaped, and the socket it has won is closed. -/
theorem taskReap_moves (books : Books p io) (inside : t < io.ntask) : Moves p io (io.taskReap t) := by
  unfold taskReap
  split
  · rename_i s won
    have closed : Move p io (io.sockDestroy s) := by
      refine .close s (books.slots.won t s won) (.inr fun u looking on => ?_)
      simp only [lookingUp, Bool.and_eq_true, Bool.not_eq_eq_eq_not, Bool.not_true, decide_eq_true_eq] at looking
      exact (books.connects.hidden u s ⟨looking.1.1, looking.1.2⟩ on).won t won
    have same : (io.sockDestroy s).ntask = io.ntask := by
      unfold sockDestroy
      split
      · rfl
      · rfl
    exact .tail (.single closed) (.aside (release_aside (same ▸ inside)))
  · exact .single (.aside (release_aside inside))

/-- A task ends by a move, and is counted and reaped. -/
theorem finish_moves (books : Books p io) (inside : t < io₁.ntask)
    (moves : Moves p io (io₁.modTask t ({ · with done := true }))) : Moves p io (io₁.taskFinish t) := by
  have after := books.moves moves
  have made : t < (io₁.modTask t ({ · with done := true })).ntask := inside
  generalize isNext : io₁.modTask t ({ · with done := true }) = io₂ at *
  have counted : Aside io₂ { io₂ with ncompleted := (io₂.ncompleted + 1) % 2 ^ 32 } :=
    ⟨rfl, rfl, fun _ => .refl _, fun _ _ => rfl, fun _ => rfl, fun _ _ => rfl, fun _ => id, fun _ => id⟩
  have counts := moves.tail (.aside counted)
  unfold taskFinish
  dsimp only
  rw [isNext]
  split
  · exact counts.trans (taskReap_moves (after.move (.aside counted)) made)
  · exact counts

/-! ### What ends and closes leave alone -/

/-- No task is made, nothing given or taken, and the user thread stays where it is. -/
structure Within (io io' : Io) : Prop where
  ntask : io'.ntask = io.ntask
  nsock : io.nsock ≤ io'.nsock
  claimed : io'.claimed = io.claimed
  held : io'.held = io.held
  user : io'.user = io.user
  kind : ∀ t, (io'.task t).kind = (io.task t).kind

theorem Within.refl (io : Io) : Within io io := ⟨rfl, Nat.le_refl _, rfl, rfl, rfl, fun _ => rfl⟩

theorem Within.trans (first : Within io io₁) (second : Within io₁ io') : Within io io' :=
  ⟨second.ntask.trans first.ntask, Nat.le_trans first.nsock second.nsock, second.claimed.trans first.claimed,
    second.held.trans first.held, second.user.trans first.user,
    fun t => (second.kind t).trans (first.kind t)⟩

theorem Within.modTask {f : Task → Task} (kind : (f (io.task t)).kind = (io.task t).kind) :
    Within io (io.modTask t f) := by
  refine ⟨rfl, Nat.le_refl _, rfl, rfl, rfl, fun u => ?_⟩
  rw [modTask_task]
  split
  · rename_i isT; subst isT; exact kind
  · rfl

theorem Within.modSock (f : Sock → Sock) : Within io (io.modSock s f) :=
  ⟨rfl, Nat.le_refl _, rfl, rfl, rfl, fun _ => rfl⟩

theorem Within.sockNew (io : Io) : Within io io.sockNew := ⟨rfl, Nat.le_succ _, rfl, rfl, rfl, fun _ => rfl⟩

theorem Within.sockDestroy (io : Io) (s : SockId) : Within io (io.sockDestroy s) := by
  unfold Io.sockDestroy
  split
  · exact .refl io
  · refine ⟨rfl, Nat.le_refl _, rfl, rfl, rfl, fun u => ?_⟩
    simp only [uvClose]
    split
    · rfl
    · rfl

theorem Within.release (io : Io) (t : TaskId) : Within io (io.release t) := by
  have waits : Within io (io.modTask t ({ · with freeOnClose := true })) := .modTask rfl
  unfold Io.release
  split
  · dsimp only
    split
    · exact waits
    · exact waits.trans (.modTask rfl)
  · exact .modTask rfl

theorem Within.taskReap (io : Io) (t : TaskId) : Within io (io.taskReap t) := by
  unfold Io.taskReap
  split
  · exact (Within.sockDestroy io _).trans (.release _ t)
  · exact .release io t

theorem Within.taskFinish (io : Io) (t : TaskId) : Within io (io.taskFinish t) := by
  have counted : Within io { io.modTask t ({ · with done := true }) with
      ncompleted := (io.ncompleted + 1) % 2 ^ 32 } := by
    have ended : Within io (io.modTask t ({ · with done := true })) := .modTask rfl
    exact ⟨rfl, Nat.le_refl _, rfl, rfl, rfl, ended.kind⟩
  unfold Io.taskFinish
  dsimp only
  split
  · exact counted.trans (.taskReap _ t)
  · exact counted

theorem Within.taskComplete (io : Io) (t : TaskId) (n : Int) : Within io (io.taskComplete t n) :=
  (Within.modTask rfl).trans (.taskFinish _ t)

theorem Within.cancelSlot (io : Io) (t : TaskId) : Within io (io.cancelSlot t) :=
  (Within.modTask rfl).trans (.taskComplete _ t _)

/-! ### Results -/

@[simp] theorem uvResult_ptr (r : Result) (n : Int) : (uvResult r n).ptr = r.ptr := by
  unfold uvResult
  split
  · rfl
  · split
    · rfl
    · rfl

/-- A task is canceled iff it ends with libuv's code for that. -/
theorem uvResult_canceled (r : Result) (n : Int) : (uvResult r n).status = .canceled ↔ n = UV_ECANCELED := by
  unfold uvResult UV_ECANCELED
  split
  · rename_i okay
    simp only [reduceCtorEq, false_iff]
    omega
  · split
    · rename_i isCancel; simp [isCancel]
    · rename_i other; simp [other]

/-- What a change of a task must keep for the task to end by it. -/
structure Last (k k' : Task) : Prop where
  kind : k'.kind = k.kind
  sock : k'.sock = k.sock
  res : k'.res = k.res
  req : k'.req = .none
  ticking : k'.ticking = false
  stays : k.stopped = true → k'.stopped = true

/-- The record of a task that ends with a result. -/
def endWith (k : Task) (r : Result → Result) : Task := { k with res := r k.res, done := true }

/-- What ends a task: a last change of its record, and then its result. -/
structure Leaves (p : Prop) (k : Task) (f : Task → Task) (r : Result → Result) : Prop where
  last : Last k (f k)
  keeps : ∀ x, (r x).ptr = x.ptr
  truth : p ∨ ((r k.res).status = .canceled ↔ (f k).stopped = true)

/-- A code of libuv's ends a task. -/
theorem Leaves.coded {f : Task → Task} {n : Int} (last : Last k (f k))
    (truth : p ∨ (n = UV_ECANCELED ↔ (f k).stopped = true)) : Leaves p k f (uvResult · n) :=
  ⟨last, fun _ => uvResult_ptr _ _, truth.imp id fun truth => (uvResult_canceled _ _).trans truth⟩

theorem Leaves.ended {f : Task → Task} {r : Result → Result} (leaves : Leaves p k f r)
    (ptr : k.res.ptr = none) : EndedBare p k (endWith (f k) r) := by
  obtain ⟨last, keeps, truth⟩ := leaves
  refine ⟨⟨last.kind, rfl, last.req, last.ticking, last.stays⟩, last.sock, ?_, truth.imp id fun truth => ?_⟩
  · simp [endWith, keeps, last.res, ptr]
  · simpa [endWith, last.res] using truth

/-- The three writes that end a task are one. -/
theorem modTask_endWith (f : Task → Task) (r : Result → Result) :
    ((io.modTask t f).modTask t fun k => { k with res := r k.res }).modTask t ({ · with done := true }) =
      io.setTask t (endWith (f (io.task t)) r) := by
  simp [modTask, setTask, endWith]

/-- A task that stands in no slot ends. -/
theorem ends_moves (books : Books p io) (made : t < io.ntask) {f : Task → Task} {r : Result → Result}
    (leaves : Leaves p (io.task t) f r) (ptr : (io.task t).res.ptr = none)
    (kind : (io.task t).kind ≠ .connect ∧ (io.task t).kind ≠ .accept ∧ (io.task t).kind ≠ .sockRead)
    (closes : p ∨ ((io.task t).kind = .sockClose → (f (io.task t)).stopped = false)) :
    Moves p io (((io.modTask t f).modTask t fun k => { k with res := r k.res }).taskFinish t) := by
  refine finish_moves books made (.single ?_)
  rw [modTask_endWith]
  exact .ends t _ made (leaves.ended ptr) kind closes

/-- A task that is not done is canceled in truth iff it has been stopped before. -/
theorem Books.told (books : Books p io) (t : TaskId) :
    p ∨ Told (fun s => (io.sock s).closing) (io.task t) := books.stops.imp id fun stops => stops t

/-! ### The slots of a socket -/

/-- Only requests of the thread pool and those on a handle are with libuv. -/
theorem Books.req_none (books : Books p io) (kind : (io.task t).kind = .sockRead ∨ (io.task t).kind = .accept ∨
    (io.task t).kind = .timer ∨ (io.task t).kind = .sockClose) : (io.task t).req = .none := by
  have pool := books.connects.pool t
  have handle := books.connects.handle t
  cases req : (io.task t).req with
  | none => rfl
  | queued | working | canceled | onHandle =>
    rcases kind with kind | kind | kind | kind
    all_goals simp [req, kind, Req.onPool] at pool handle

/-- Only a timer ticks. -/
theorem Books.ticking_false (books : Books p io) (kind : (io.task t).kind ≠ .timer) :
    (io.task t).ticking = false := by
  by_contra ticks
  exact kind (books.slots.ticking t (by simpa using ticks)).2

/-- The read that stands in a slot. -/
structure InSlot (io : Io) (t : TaskId) (s : SockId) (kind : Kind) : Prop where
  kind : (io.task t).kind = kind
  before : (io.task t).done = false
  on : (io.task t).sock = some s
  req : (io.task t).req = .none
  ticking : (io.task t).ticking = false
  ptr : (io.task t).res.ptr = none
  made : t < io.ntask
  inside : s < io.nsock

theorem Books.read (books : Books p io) (named : (io.sock s).readTask = some t) : InSlot io t s .sockRead := by
  obtain ⟨kind, before, on⟩ := (books.slots.read s t).mp named
  exact ⟨kind, before, on, books.req_none (.inl kind), books.ticking_false (by simp [kind]),
    by simp [(books.plain t).1 before], books.slots.inside (by simp [kind]), books.slots.on t s on⟩

theorem Books.accept (books : Books p io) (named : (io.sock s).acceptTask = some t) : InSlot io t s .accept := by
  obtain ⟨kind, before, on⟩ := (books.slots.accept s t).mp named
  exact ⟨kind, before, on, books.req_none (.inr (.inl kind)), books.ticking_false (by simp [kind]),
    by simp [(books.plain t).1 before], books.slots.inside (by simp [kind]), books.slots.on t s on⟩

/-- A task in a slot has not been stopped. -/
theorem InSlot.unstopped {kind : Kind} (slot : InSlot io t s kind) (isSlot : kind = .sockRead ∨ kind = .accept)
    (books : Books p io) : p ∨ (io.task t).stopped = false := by
  refine (books.told t).imp id fun told => told.slot slot.before ?_ ?_ ?_
  all_goals
    rw [slot.kind]
    rcases isSlot with rfl | rfl
    · simp
    · simp

/-- A task is stopped in its slot. -/
theorem InSlot.stopped {kind : Kind} (slot : InSlot io t s kind) :
    Leaves p (io.task t) ({ · with stopped := true }) (uvResult · UV_ECANCELED) :=
  .coded ⟨rfl, rfl, rfl, slot.req, slot.ticking, fun _ => rfl⟩ (.inr (by simp))

/-- A task ends in its slot with what libuv reports. -/
theorem InSlot.reported {kind : Kind} (slot : InSlot io t s kind) (isSlot : kind = .sockRead ∨ kind = .accept)
    (books : Books p io) {n : Int} (other : n ≠ UV_ECANCELED) : Leaves p (io.task t) id (uvResult · n) :=
  .coded ⟨rfl, rfl, rfl, slot.req, slot.ticking, id⟩
    ((slot.unstopped isSlot books).imp id fun unstopped => by simp [other, unstopped])

theorem leaveRead_moves (books : Books p io) (named : (io.sock s).readTask = some t) {f : Task → Task}
    {r : Result → Result} (leaves : Leaves p (io.task t) f r) :
    Moves p io ((((io.modSock s ({ · with readTask := none })).modTask t f).modTask t fun k =>
      { k with res := r k.res }).taskFinish t) := by
  have slot := books.read named
  refine finish_moves books slot.made (.single ?_)
  rw [modTask_endWith]
  exact .leaveRead s t _ named (leaves.ended slot.ptr)

theorem leaveAccept_moves (books : Books p io) (named : (io.sock s).acceptTask = some t) {f : Task → Task}
    {r : Result → Result} (leaves : Leaves p (io.task t) f r) :
    Moves p io ((((io.modSock s ({ · with acceptTask := none })).modTask t f).modTask t fun k =>
      { k with res := r k.res }).taskFinish t) := by
  have slot := books.accept named
  refine finish_moves books slot.made (.single ?_)
  rw [modTask_endWith]
  exact .leaveAccept s t _ named (leaves.ended slot.ptr)

theorem release_modSock (g : Sock → Sock) : (io.release t).modSock s g = (io.modSock s g).release t := by
  unfold release
  simp only [modSock_task, modTask_task, if_true]
  split
  · split
    · rfl
    · rfl
  · rfl

/-- What a task without a socket does at its end is nothing to the sockets. -/
theorem taskFinish_modSock (ptr : (io.task t).res.ptr = none) (g : Sock → Sock) :
    (io.taskFinish t).modSock s g = (io.modSock s g).taskFinish t := by
  unfold taskFinish taskReap
  simp only [modSock_task, modTask_task, if_true, ptr]
  split
  · rw [release_modSock]
    rfl
  · rfl

theorem taskComplete_modSock (ptr : (io.task t).res.ptr = none) (n : Int) (g : Sock → Sock) :
    (io.taskComplete t n).modSock s g = (io.modSock s g).taskComplete t n := by
  unfold taskComplete
  rw [taskFinish_modSock (by simp [ptr])]
  rfl

theorem cancelSlot_modSock (ptr : (io.task t).res.ptr = none) (g : Sock → Sock) :
    (io.cancelSlot t).modSock s g = (io.modSock s g).cancelSlot t := by
  unfold cancelSlot stop
  rw [taskComplete_modSock (by simp [ptr])]
  rfl

/-- A release writes one task, and not its result. -/
theorem release_eq (io : Io) (t : TaskId) : ∃ k, io.release t = io.setTask t k ∧ k.res = (io.task t).res ∧
    k.done = (io.task t).done := by
  unfold release
  split
  · dsimp only
    split
    · exact ⟨_, rfl, rfl, rfl⟩
    · exact ⟨{ io.task t with freeOnClose := true, ticking := false, timerClosing := true },
        by simp [timerClose, modTask, setTask], rfl, rfl⟩
  · exact ⟨_, rfl, rfl, rfl⟩

/-- A task without a socket ends, and nothing else is written. -/
theorem taskComplete_eq (ptr : (io.task t).res.ptr = none) (m : Int) : ∃ k n, io.taskComplete t m =
    { io.setTask t k with ncompleted := n } ∧ k.done = true ∧ k.res = uvResult (io.task t).res m := by
  unfold taskComplete taskFinish
  dsimp only
  split
  · unfold taskReap
    simp only [modTask_task, if_true, uvResult_ptr, ptr]
    obtain ⟨k, isNext, res, done⟩ := release_eq ({ ((io.modTask t fun k =>
      { k with res := uvResult k.res m }).modTask t ({ · with done := true })) with
      ncompleted := (io.ncompleted + 1) % 2 ^ 32 } : Io) t
    refine ⟨k, (io.ncompleted + 1) % 2 ^ 32, ?_, ?_, ?_⟩
    · refine isNext.trans ?_
      simp [modTask, setTask]
    · rw [done]; simp
    · rw [res]; simp
  · exact ⟨{ io.task t with res := uvResult (io.task t).res m, done := true },
      (io.ncompleted + 1) % 2 ^ 32, by simp [modTask, setTask], rfl, rfl⟩

/-- A task without a socket is canceled, and nothing else is written. -/
theorem cancelSlot_eq (ptr : (io.task t).res.ptr = none) : ∃ k n, io.cancelSlot t =
    { io.setTask t k with ncompleted := n } ∧ k.done = true ∧ k.res.status = .canceled := by
  have still : ((io.stop t).task t).res.ptr = none := by simp [stop, ptr]
  obtain ⟨k, n, isNext, done, res⟩ := taskComplete_eq still UV_ECANCELED
  refine ⟨k, n, ?_, done, by rw [res]; exact (uvResult_canceled _ _).mpr rfl⟩
  unfold cancelSlot
  rw [isNext]
  simp [stop, modTask, setTask]

/-! ### Connects -/

theorem modTask_id : io.modTask t id = io := by simp [modTask]

theorem modSock_modSock (f g : Sock → Sock) : (io.modSock s f).modSock s g = io.modSock s fun q => g (f q) := by
  simp [modSock]

theorem modTask_modTask (f g : Task → Task) : (io.modTask t f).modTask t g = io.modTask t fun k => g (f k) := by
  simp [modTask]

/-- A handle is closed, and a task is written that does not connect on it. -/
theorem sockDestroy_modTask {f : Task → Task} (before : connectsOn s (io.task t) = false)
    (after : connectsOn s (f (io.task t)) = false) :
    (io.sockDestroy s).modTask t f = (io.modTask t f).sockDestroy s := by
  unfold sockDestroy
  rw [modTask_sock]
  by_cases closing : (io.sock s).closing = true
  · rw [if_pos closing, if_pos closing]
  · rw [if_neg closing, if_neg closing]
    simp only [modTask, uvClose, modSock, before]
    congr 1
    funext u
    by_cases isT : u = t
    · subst isT
      simp [after]
    · simp [Function.update_of_ne isT]

theorem connectsOn_of_none (req : k.req = .none) : connectsOn s k = false := by
  simp [connectsOn, req]

/-- A connect fails: its socket is closed, and it forgets the socket. -/
theorem connectFails_moves (books : Books p io) (kind : (io.task t).kind = .connect)
    (before : (io.task t).done = false) {f : Task → Task} {r : Result → Result}
    (leaves : Leaves p (io.task t) f r) :
    Moves p io ((((io.modTask t f).dropSock t).modTask t fun k => { k with res := r k.res }).taskFinish t) := by
  obtain ⟨s, on, _⟩ := books.connects.stage t ⟨kind, before⟩
  have made : t < io.ntask := books.slots.inside (by simp [kind])
  obtain ⟨last, keeps, truth⟩ := leaves
  rw [(books.plain t).1 before] at truth
  have pending := (books.plain t).1 before
  generalize isK : ({ f (io.task t) with sock := none, res := r rPending, done := true } : Task) = k
  have ended : Ended (io.task t) k := by
    rw [← isK]
    exact ⟨last.kind, rfl, last.req, last.ticking, last.stays⟩
  have ptr : k.res.ptr = none := by rw [← isK]; exact keeps _
  have ends : Move p io (io.setTask t k) :=
    .connectEnds t k kind before ended (by rw [← isK]) ptr (by rw [← isK]; exact truth)
  have closes : Move p (io.setTask t k) ((io.setTask t k).sockDestroy s) := by
    refine .close s (books.slots.on t s on) (.inr fun u looking isOn => ?_)
    simp only [lookingUp, Bool.and_eq_true, Bool.not_eq_eq_eq_not, Bool.not_true, decide_eq_true_eq,
      setTask_task] at looking isOn
    split at isOn
    · rename_i isT
      rw [if_pos isT, ended.done] at looking
      cases looking.1.2
    · rename_i other
      exact (books.connects.hidden t s ⟨kind, before⟩ on).others u other isOn
  have still : ((io.modTask t f).dropSock t).ntask = io.ntask := by
    unfold dropSock sockDestroy
    split
    · rfl
    · rfl
  refine finish_moves books ?_ ?_
  · exact still ▸ made
  · -- The code closes the socket before it writes the task; the order makes no difference.
    have named : (io.modTask t f).sockOf t = s := by simp [sockOf, last.sock, on]
    have same : ((((io.modTask t f).dropSock t).modTask t fun k => { k with res := r k.res }).modTask t
        ({ · with done := true })) = (io.setTask t k).sockDestroy s := by
      unfold dropSock
      rw [named, modTask_modTask, modTask_modTask, sockDestroy_modTask, modTask_modTask]
      · congr 1
        rw [← isK, ← pending, ← last.res]
        rfl
      · exact connectsOn_of_none (by simp [last.req])
      · exact connectsOn_of_none (by simp [last.req])
    rw [same]
    exact .tail (.single ends) closes

end Io

end Myio.Uv
