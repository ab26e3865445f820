import Myio.ZLoop.Pending

/-!
One turn of the loop, with every access checked.

The checked code does what the code does, and stops where it would read a task or a socket that has
been released, complete a task that is done, or call a handler that it must not call.
-/

namespace Myio.Loop

open Function (update)
open Loop.Core

namespace ZIo

/-! ### Checked code -/

/-- The memory of a task is there. -/
def taskThere (c : Core) (t : TaskId) : Bool := decide (t < c.ntask) && (c.task t).frees == 0

/-- The memory of a socket is there. -/
def sockThere (c : Core) (s : SockId) : Bool := decide (s < c.nsock) && (c.sock s).frees == 0

/-- Every task on the list is there, so that the list can be walked. -/
def listThere (c : Core) : Bool := c.armed.all (taskThere c)

/-- `task_complete`: it walks the list, writes the task, and may have to release a socket. -/
def completeChecked (c : Core) (t : TaskId) (res : Result) : Option Core :=
  if taskThere c t && listThere c && !(c.task t).done && res.ptr.all (sockThere c)
  then some (taskComplete c t res) else none

/-- The first loop of `run_loop_once`, which fills `owner[]`. -/
def ownersChecked (c : Core) : Option (List TaskId) :=
  if listThere c && (owners c).all (fun t => sockThere c (c.sockOf t)) then some (owners c) else none

/-- `t->next` of a task on the list. -/
def following : List TaskId → TaskId → Option TaskId
  | [], _ => none
  | a :: rest, t => if a = t then rest.head? else following rest t

/-- The walk that completes the expired timers; `next` is saved before a completion. -/
def fireChecked (now : Int) : Nat → Core → Option TaskId → Option Core
  | _, c, none => some c
  | 0, _, some _ => none
  | fuel + 1, c, some t =>
    if taskThere c t then
      let next := following c.armed t
      if (c.task t).kind = .taskTimer ∧ (c.task t).deadline ≤ now then
        (completeChecked c t (rOk 0 none)).bind fun c => fireChecked now fuel c next
      else fireChecked now fuel c next
    else none

/-- `connect_ready`. -/
def connectChecked (c : Core) (t : TaskId) (soerr : Int) : Option Core :=
  let s := c.sockOf t
  if sockThere c s then
    let c := c.modTask t ({ · with sock := none })
    if soerr = 0 then completeChecked c t (rOk 0 (some s))
    else completeChecked (c.sockRelease s) t (rErr soerr)
  else none

/-- `accept_try`. -/
def acceptChecked (z : ZIo) (t : TaskId) (ans : AcceptAns) : Option ZIo :=
  let ls := z.sockOf t
  if sockThere z.toCore ls then
    let freed := z.on (·.modSock ls ({ · with acceptTask := none }))
    let fd := z.ndesc
    let ends := fun (z : ZIo) res => (completeChecked z.toCore t res).map fun c => z.on fun _ => c
    match ans with
    | .again => some z
    | .err errno => ends freed (rErr errno)
    | .blocking errno => ends ((freed.on (·.newDesc)).on (·.closeDesc fd)) (rErr errno)
    | .conn mem =>
      let z := freed.on (·.newDesc)
      if z.hasSock mem then ends (z.on (·.sockNew (some fd))) (rOk 0 (some z.nsock))
      else ends (z.on (·.closeDesc fd)) (rErr ENOMEM)
  else none

/-- `read_try`. -/
def readChecked (c : Core) (t : TaskId) (ans : RecvAns) : Option Core :=
  let s := c.sockOf t
  if sockThere c s then
    let freed := c.modSock s ({ · with readTask := none })
    match ans with
    | .again => some c
    | .err errno => completeChecked freed t (rErr errno)
    | .got n => completeChecked freed t (rOk n none)
  else none

/-- The head of a FIFO is popped and completed. -/
def popChecked (c : Core) (s : SockId) (t : TaskId) (res : Result) : Option Core :=
  if sockThere c s then completeChecked (c.modSock s fun k => { k with wq := (wqPop k.wq).1 }) t res
  else none

/-- `write_arm`, over the FIFO from the task on. -/
def writeArmChecked (z : ZIo) (s : SockId) : List TaskId → Option ZIo
  | [] => some z
  | t :: rest =>
    if taskThere z.toCore t && sockThere z.toCore s then
      match z.writeTryAll t with
      | (z, .again) => some (z.on (·.arm t))
      | (z, .drained) => (popChecked z.toCore s t (rOk (z.task t).buf.length none)).bind fun c =>
          writeArmChecked (z.on fun _ => c) s rest
      | (z, .err errno) => (popChecked z.toCore s t (rErr errno)).bind fun c =>
          writeArmChecked (z.on fun _ => c) s rest
    else none

/-- `write_ready`. -/
def writeReadyChecked (z : ZIo) (t : TaskId) : Option ZIo :=
  let s := z.sockOf t
  if sockThere z.toCore s then
    match z.writeTryAll t with
    | (z, .again) => some z
    | (z, .drained) => (popChecked z.toCore s t (rOk (z.task t).buf.length none)).bind fun c =>
        writeArmChecked (z.on fun _ => c) s (c.sock s).wq
    | (z, .err errno) => (popChecked z.toCore s t (rErr errno)).bind fun c =>
        writeArmChecked (z.on fun _ => c) s (c.sock s).wq
  else none

/-- The readiness handler of a task's kind. -/
def handlerChecked (z : ZIo) (p : Poll) (t : TaskId) : Option ZIo :=
  match (z.task t).kind with
  | .taskConnect => (connectChecked z.toCore t (p.soerr t)).map fun c => z.on fun _ => c
  | .taskAccept => z.acceptChecked t (p.accept t)
  | .taskSockRead => (readChecked z.toCore t (p.recv t)).map fun c => z.on fun _ => c
  | .taskSockWrite => z.writeReadyChecked t
  | _ => some z

/--
One entry of the poll set: the list is walked for its task, and only a task found there is read.

`handled` are the tasks whose handler was called in this turn; each is called for at most once.
-/
def readyOneChecked (z : ZIo) (p : Poll) (handled : List TaskId) (t : TaskId) :
    Option (ZIo × List TaskId) :=
  if p.revents t then
    if listThere z.toCore then
      if t ∈ z.armed then
        if taskThere z.toCore t && !(z.task t).done && decide (t ∉ handled)
        then (z.handlerChecked p t).map fun z => (z, t :: handled) else none
      else some (z, handled)
    else none
  else some (z, handled)

/-- The walk over the poll set. -/
def readyAllChecked (p : Poll) : ZIo → List TaskId → List TaskId → Option (ZIo × List TaskId)
  | z, handled, [] => some (z, handled)
  | z, handled, t :: rest =>
    (z.readyOneChecked p handled t).bind fun next => readyAllChecked p next.1 next.2 rest

/-- `run_loop_once` up to the eventfd's entry, and the tasks whose handlers it has called. -/
def turnChecked (z : ZIo) (p : Poll) (why : Why) : Option (ZIo × List TaskId) :=
  (ownersChecked z.toCore).bind fun entries =>
    (fireChecked p.now z.armed.length z.toCore z.armed.head?).bind fun c =>
      let z := z.on fun _ => c
      if p.rc ≤ 0 then some (z.turned why, [])
      else (readyAllChecked p z [] entries).map fun next =>
        (if p.evfd then { next.1 with user := .reading why } else next.1.turned why, next.2)

variable {c c' : Core} {x : TaskId → Bool} {h : SockId → Bool} {t u : TaskId} {s : SockId} {z z' : ZIo}
  {e : Result}

/-! ### What is there -/

theorem taskThere_of_pending (lives : c.Lives) (pending : c.Pending x t) : taskThere c t = true := by
  have frees := (lives.each t pending.1).frees
  rw [pending.2.1] at frees
  simp only [Bool.false_and, Bool.false_eq_true, if_false] at frees
  simp [taskThere, pending.1, frees]

theorem sockThere_of_live (linked : c.Linked) (live : s ∈ c.socks) : sockThere c s = true := by
  have bound := linked.bound s live
  have frees := linked.frees s bound
  rw [if_pos live] at frees
  simp [sockThere, bound, frees]

theorem listThere_of_sound (sound : Sound calm ⟨c, x, h⟩) : listThere c = true := by
  unfold listThere
  rw [List.all_eq_true]
  intro t armed
  exact taskThere_of_pending sound.lives ((sound.placed.armed t).mp armed).1

/-- What a completion needs is only read, not changed, by what comes before it in a handler. -/
theorem completeChecked_eq (sound : Sound calm ⟨c, x, h⟩) (pending : c.Pending x t)
    (ntask : c'.ntask = c.ntask) (armed : c'.armed = c.armed)
    (task : ∀ u, (c'.task u).frees = (c.task u).frees ∧ (c'.task u).done = (c.task u).done)
    (ptr : ∀ s, e.ptr = some s → sockThere c' s = true) :
    completeChecked c' t e = some (taskComplete c' t e) := by
  have there : ∀ u, taskThere c' u = taskThere c u := fun u => by
    unfold taskThere
    rw [ntask, (task u).1]
  have list : listThere c' = true := by
    unfold listThere
    rw [armed, funext there]
    exact listThere_of_sound sound
  have points : e.ptr.all (sockThere c') = true := by
    cases isPtr : e.ptr with
    | none => rfl
    | some s => exact ptr s isPtr
  unfold completeChecked
  rw [there, taskThere_of_pending sound.lives pending, list, (task t).2, pending.2.1, points]
  rfl

/-! ### Timers -/

/-- The successor of a task on a list without duplicates. -/
theorem following_append {pre rest : List TaskId} (apart : t ∉ pre) :
    following (pre ++ t :: rest) t = rest.head? := by
  induction pre with
  | nil => simp [following]
  | cons a pre ih =>
    obtain ⟨other, apart⟩ := not_or.mp (mt List.mem_cons.mpr apart)
    simp only [List.cons_append, following, if_neg (Ne.symm other)]
    exact ih apart

/-- The walk by saved pointers visits the list as it was at its start. -/
theorem fireChecked_eq (now : Int) (l : List TaskId) : ∀ {c : Core} (pre : List TaskId),
    Sound calm c.rest → c.armed = pre ++ l →
    fireChecked now l.length c l.head? = some (fireTimers c now l) := by
  -- What has been passed stays on the list, unless it was an expired timer.
  induction l with
  | nil => intro c pre _ _; rfl
  | cons t rest ih =>
    intro c pre sound list
    have nodup : c.armed.Nodup := sound.placed.nodup
    have apart : t ∉ pre := by
      rw [list] at nodup
      exact fun inside => (List.nodup_append.mp nodup).2.2 t inside t List.mem_cons_self rfl
    have armed : t ∈ c.armed := by rw [list]; simp
    have pending := ((sound.placed.armed t).mp armed).1
    have next : following c.armed t = rest.head? := by rw [list]; exact following_append apart
    have there : taskThere c t = true := taskThere_of_pending sound.lives pending
    simp only [List.length_cons, List.head?_cons, fireChecked, fireTimers]
    rw [if_pos there, next]
    split
    · rename_i expired
      have ends : completeChecked c t (rOk 0 none) = some (taskComplete c t (rOk 0 none)) :=
        completeChecked_eq sound pending rfl rfl (fun _ => ⟨rfl, rfl⟩) (by intros; contradiction)
      rw [ends]
      have kind : (c.task t).kind = .taskTimer := expired.1
      have fired : Moves calm c.rest (taskOk c t 0 none).rest :=
        complete_pending sound pending (by simp [kind]) (by simp [kind]) (by simp [kind])
          ⟨by simp [kind], by simp [kind]⟩ (by simp) (by simp)
      refine ih pre (sound.moves fired) ?_
      rw [taskComplete_armed (by simp), list, List.erase_append_right _ apart, List.erase_cons_head]
    · refine ih (pre ++ [t]) sound ?_
      rw [list, List.append_assoc]
      rfl

/-! ### Readiness handlers -/

/-- `connect_ready` reads nothing that is gone. -/
theorem connectChecked_eq (sound : Sound calm c.rest) (pending : c.Pending (fun _ => false) t)
    (kind : (c.task t).kind = .taskConnect) (soerr : Int) :
    connectChecked c t soerr = some (connectReady c t soerr) := by
  obtain ⟨s, sock⟩ := sock_of_kind sound pending (.inl kind)
  have live : s ∈ c.socks := sound.placed.live t s pending (.inl sock)
  have isSock : c.sockOf t = s := by simp [sockOf, sock]
  have there : sockThere c s = true := sockThere_of_live sound.linked live
  have same : ∀ u, ((c.modTask t ({ · with sock := none })).task u).frees = (c.task u).frees ∧
      ((c.modTask t ({ · with sock := none })).task u).done = (c.task u).done := by
    intro u
    simp only [modTask, Function.update_apply]
    split
    · rename_i isT; rw [isT]; exact ⟨rfl, rfl⟩
    · exact ⟨rfl, rfl⟩
  unfold connectChecked connectReady
  rw [isSock]
  dsimp only
  rw [if_pos there]
  split
  · refine completeChecked_eq sound pending rfl rfl same fun u points => ?_
    obtain rfl : s = u := by simpa using points
    exact there
  · exact completeChecked_eq sound pending rfl rfl same (by intros; contradiction)

/-- A completion in a state that differs from a sound one in its sockets and descriptors. -/
theorem ends_eq (sound : Sound calm z.rest) (pending : z.Pending (fun _ => false) t)
    (ntask : z'.ntask = z.ntask) (armed : z'.armed = z.armed) (task : z'.task = z.task)
    (ptr : ∀ s, e.ptr = some s → sockThere z'.toCore s = true) :
    (completeChecked z'.toCore t e).map (fun c => z'.on fun _ => c) =
      some (z'.on (taskComplete · t e)) := by
  rw [completeChecked_eq sound pending ntask armed (fun u => by rw [task]; exact ⟨rfl, rfl⟩) ptr]
  rfl

/-- `accept_try` reads nothing that is gone. -/
theorem acceptChecked_eq (sound : Sound calm z.rest) (pending : z.Pending (fun _ => false) t)
    (kind : (z.task t).kind = .taskAccept) (ans : AcceptAns) :
    z.acceptChecked t ans = some (z.acceptTry t ans).1 := by
  obtain ⟨s, sock⟩ := sock_of_kind sound pending (.inr (.inl kind))
  have live : s ∈ z.socks := sound.placed.live t s pending (.inl sock)
  have isSock : z.sockOf t = s := by simp [sockOf, sock]
  have there : sockThere z.toCore s = true := sockThere_of_live sound.linked live
  unfold acceptChecked acceptTry
  rw [isSock]
  dsimp only
  rw [if_pos there]
  cases ans with
  | again => rfl
  | err errno => exact ends_eq sound pending rfl rfl rfl (by intros; contradiction)
  | blocking errno => exact ends_eq sound pending rfl rfl rfl (by intros; contradiction)
  | conn mem =>
    dsimp only
    split
    · -- The socket that is won is new.
      refine ends_eq sound pending rfl rfl rfl fun u points => ?_
      obtain rfl : z.nsock = u := by simpa [ZIo.on, newDesc, modSock] using points
      simp [sockThere, sockNew, ZIo.on, newDesc, modSock]
    · exact ends_eq sound pending rfl rfl rfl (by intros; contradiction)

/-- `read_try` reads nothing that is gone. -/
theorem readChecked_eq (sound : Sound calm c.rest) (pending : c.Pending (fun _ => false) t)
    (kind : (c.task t).kind = .taskSockRead) (ans : RecvAns) :
    readChecked c t ans = some (readTry c t ans).1 := by
  obtain ⟨s, sock⟩ := sock_of_kind sound pending (.inr (.inr (.inl kind)))
  have live : s ∈ c.socks := sound.placed.live t s pending (.inl sock)
  have isSock : c.sockOf t = s := by simp [sockOf, sock]
  have there : sockThere c s = true := sockThere_of_live sound.linked live
  unfold readChecked readTry
  rw [isSock]
  dsimp only
  rw [if_pos there]
  cases ans with
  | again => rfl
  | err errno => exact completeChecked_eq sound pending rfl rfl (fun _ => ⟨rfl, rfl⟩) (by intros; contradiction)
  | got n => exact completeChecked_eq sound pending rfl rfl (fun _ => ⟨rfl, rfl⟩) (by intros; contradiction)

/-- A head that is through is popped and completed. -/
theorem popChecked_eq (sound : Sound calm ⟨c, x, h⟩) (pending : c.Pending x t) (live : s ∈ c.socks)
    (ptr : e.ptr = none) : popChecked c s t e = some (writePop c s t e) := by
  unfold popChecked
  rw [if_pos (sockThere_of_live sound.linked live)]
  refine completeChecked_eq sound pending rfl rfl (fun _ => ⟨rfl, rfl⟩) fun u points => ?_
  rw [ptr] at points
  cases points

/-- What an attempt at the head of a FIFO leaves, and what popping that head leaves. -/
structure Tried (z z' : ZIo) (h : SockId → Bool) (s : SockId) (t : TaskId) (rest : List TaskId)
    (past : TryEnd) : Prop where
  sound : Sound calm ⟨z'.toCore, fun _ => false, h⟩
  live : s ∈ z'.socks
  wq : (z'.sock s).wq = t :: rest
  pending : z'.Pending (fun _ => false) t
  other : ∀ u, u ≠ t → z'.task u = z.task u
  full : past = .drained → (z'.task t).off = (z'.task t).buf.length

theorem writeTryAll_tried {rest : List TaskId} (sound : Sound calm ⟨z.toCore, fun _ => false, h⟩)
    (live : s ∈ z.socks) (wq : (z.sock s).wq = t :: rest) :
    Tried z (z.writeTryAll t).1 h s t rest (z.writeTryAll t).2 := by
  obtain ⟨pending, on, first⟩ := head_first sound live wq
  obtain ⟨tried, sent, full⟩ := writeTry_spec (h := h)
    ((z.task t).buf.length - (z.task t).off) pending on first
  have fits := (sound.wired trivial).fits t pending.1
  unfold writeTryAll
  generalize z.writeTry t ((z.task t).buf.length - (z.task t).off) = q at tried sent full
  obtain ⟨z₁, past⟩ := q
  dsimp only at tried sent full ⊢
  have task : z₁.task = update z.task t { z.task t with off := (z₁.task t).off } := by
    have := congrArg (fun z : ZIo => z.task) sent
    exact this
  have isTask : z₁.task t = { z.task t with off := (z₁.task t).off } := by
    have := congrFun task t
    simpa using this
  have same : z₁.sock = z.sock ∧ z₁.socks = z.socks ∧ z₁.ntask = z.ntask := by
    rw [sent]; exact ⟨rfl, rfl, rfl⟩
  constructor
  case sound => exact sound_after sound rfl tried
  case live => rw [same.2.1]; exact live
  case wq => rw [same.1]; exact wq
  case pending =>
    refine ⟨by rw [same.2.2]; exact pending.1, ?_, rfl⟩
    rw [isTask]
    exact pending.2.1
  case other => intro u other; rw [task, Function.update_of_ne other]
  case full =>
    intro drained
    have := full drained fits (Nat.le_refl _)
    rw [this, isTask]

/-- The result of a head that is through, or cannot go on. -/
def TryEnd.result (buf : List UInt8) : TryEnd → Result
  | .err errno => rErr errno
  | _ => rOk buf.length none

/-- A head that is popped leaves a sound state, in which the next one waits to be armed. -/
theorem Tried.popped {rest : List TaskId} {past : TryEnd} (tried : Tried z z' h s t rest past)
    (ended : past ≠ .again) :
    let e := past.result (z'.task t).buf
    popChecked z'.toCore s t e = some (writePop z'.toCore s t e) ∧
      Sound calm ⟨writePop z'.toCore s t e, fun _ => false, fun u => h u || decide (u = s)⟩ ∧
      s ∈ (writePop z'.toCore s t e).socks ∧ ((writePop z'.toCore s t e).sock s).wq = rest := by
  intro e
  have ptr : e.ptr = none := by cases past <;> rfl
  have status : e.status ≠ .pending := by cases past <;> simp [e, TryEnd.result]
  have kept : e.status ≠ .canceled := by cases past <;> simp [e, TryEnd.result]
  have whole : e.status = .ok → (z'.task t).off = (z'.task t).buf.length ∧
      e.value = (z'.task t).buf.length := by
    intro okay
    cases past with
    | err errno => simp [e, TryEnd.result] at okay
    | drained => exact ⟨tried.full rfl, rfl⟩
    | again => exact absurd rfl ended
  have moves := writePop_moves (r := eager) tried.sound tried.live tried.wq status ptr whole
    ⟨rfl, kept⟩
  obtain ⟨wq, socks⟩ := writePop_sock (c := z'.toCore) (s := s) (t := t) ptr s
  refine ⟨popChecked_eq tried.sound tried.pending tried.live ptr, sound_after tried.sound rfl moves,
    by rw [socks]; exact tried.live, ?_⟩
  rw [wq, if_pos rfl, tried.wq]
  rfl

/-- A completion writes no other task. -/
theorem taskComplete_other (other : u ≠ t) : (taskComplete c t e).task u = c.task u := by
  unfold taskComplete reapIfDetached
  split
  · unfold taskReap
    split <;> simp [freeMem, modTask, sockRelease, finish, disarm, other]
  · simp [finish, modTask, disarm, other]

/-- `write_arm` reads nothing that is gone, and writes no task outside the FIFO. -/
theorem writeArmChecked_eq (l : List TaskId) : ∀ {z : ZIo} {h : SockId → Bool},
    Sound calm ⟨z.toCore, fun _ => false, h⟩ → s ∈ z.socks → (z.sock s).wq = l →
    writeArmChecked z s l = some (z.writeArm s l) ∧
      ∀ u, u ∉ l → (z.writeArm s l).task u = z.task u := by
  -- The induction is on the FIFO: each round leaves its tail.
  induction l with
  | nil => intro z h _ _ _; exact ⟨rfl, fun _ _ => rfl⟩
  | cons t rest ih =>
    intro z h sound live wq
    obtain ⟨pending, -, -⟩ := head_first sound live wq
    have task : taskThere z.toCore t = true := taskThere_of_pending sound.lives pending
    have sock : sockThere z.toCore s = true := sockThere_of_live sound.linked live
    have tried := writeTryAll_tried sound live wq
    unfold writeArmChecked writeArm
    rw [task, sock, Bool.and_self, if_pos rfl]
    generalize z.writeTryAll t = q at tried
    obtain ⟨z₁, past⟩ := q
    dsimp only at tried ⊢
    have goesOn (ended : past ≠ .again) :
        let z₂ := z₁.on (writePop · s t (past.result (z₁.task t).buf))
        ((popChecked z₁.toCore s t (past.result (z₁.task t).buf)).bind fun c =>
          writeArmChecked (z₁.on fun _ => c) s rest) = some (z₂.writeArm s rest) ∧
          ∀ u, u ∉ t :: rest → (z₂.writeArm s rest).task u = z.task u := by
      intro z₂
      obtain ⟨popped, sound₂, live₂, wq₂⟩ := tried.popped ended
      obtain ⟨checked, frame⟩ := ih (z := z₂) sound₂ live₂ wq₂
      rw [popped]
      refine ⟨checked, fun u outside => ?_⟩
      obtain ⟨other, apart⟩ := not_or.mp (mt List.mem_cons.mpr outside)
      rw [frame u apart, ← tried.other u other]
      exact taskComplete_other other
    cases past with
    | again =>
      refine ⟨rfl, fun u outside => ?_⟩
      exact tried.other u fun same => outside (same ▸ List.mem_cons_self)
    | drained => exact goesOn (by simp)
    | err errno => exact goesOn (by simp)

/-- `write_ready` reads nothing that is gone, and writes no task but writes. -/
theorem writeReadyChecked_eq (sound : Sound calm z.rest) (armed : t ∈ z.armed)
    (kind : (z.task t).kind = .taskSockWrite) :
    z.writeReadyChecked t = some (z.writeReady t) ∧
      ∀ u, (z.task u).kind ≠ .taskSockWrite → (z.writeReady t).task u = z.task u := by
  have there := (sound.placed.armed t).mp armed
  have isPending : z.Pending (fun _ => false) t := there.1
  obtain ⟨s, sock⟩ := sock_of_kind sound isPending (.inr (.inr (.inr kind)))
  have live : s ∈ z.socks := sound.placed.live t s there.1 (.inl sock)
  obtain ⟨rest, wq⟩ := List.head?_eq_some_iff.mp (there.2 s kind sock).2
  have isSock : z.sockOf t = s := by simp [sockOf, sock]
  have isThere : sockThere z.toCore s = true := sockThere_of_live sound.linked live
  have writes : ∀ u, u ∈ t :: rest → (z.task u).kind = .taskSockWrite := fun u inside =>
    ((sound.placed.fifo s u live).mp (by rw [← wq] at inside; exact inside)).2.1
  have tried := writeTryAll_tried (h := fun _ => false) sound live wq
  unfold writeReadyChecked writeReady
  rw [isSock]
  dsimp only
  rw [if_pos isThere]
  generalize z.writeTryAll t = q at tried
  obtain ⟨z₁, past⟩ := q
  dsimp only at tried ⊢
  have goesOn (ended : past ≠ .again) :
      let z₂ := z₁.on (writePop · s t (past.result (z₁.task t).buf))
      ((popChecked z₁.toCore s t (past.result (z₁.task t).buf)).bind fun c =>
        writeArmChecked (z₁.on fun _ => c) s (c.sock s).wq) = some (z₂.writeArm s (z₂.sock s).wq) ∧
        ∀ u, (z.task u).kind ≠ .taskSockWrite →
          (z₂.writeArm s (z₂.sock s).wq).task u = z.task u := by
    intro z₂
    obtain ⟨popped, sound₂, live₂, wq₂⟩ := tried.popped ended
    obtain ⟨checked, frame⟩ := writeArmChecked_eq (z₂.sock s).wq (z := z₂) sound₂ live₂ rfl
    rw [popped]
    refine ⟨checked, fun u noWrite => ?_⟩
    have outside : u ∉ t :: rest := fun inside => noWrite (writes u inside)
    obtain ⟨other, apart⟩ := not_or.mp (mt List.mem_cons.mpr outside)
    have tail : (z₂.sock s).wq = rest := wq₂
    rw [frame u (by rw [tail]; exact apart), ← tried.other u other]
    exact taskComplete_other other
  cases past with
  | again =>
    refine ⟨rfl, fun u noWrite => ?_⟩
    exact tried.other u fun same => noWrite (by rw [same]; exact kind)
  | drained => exact goesOn (by simp)
  | err errno => exact goesOn (by simp)

/-- The handler of a task of a kind in the poll set reads nothing that is gone, and no timer. -/
theorem handlerChecked_eq (sound : Sound calm z.rest) (p : Poll) (ready : p.revents t = true)
    (armed : t ∈ z.armed) (polled : pollable (z.task t).kind = true) :
    z.handlerChecked p t = some (z.readyOne p t) ∧
      ∀ u, (z.task u).kind = .taskTimer → (z.readyOne p t).task u = z.task u := by
  have pending : z.Pending (fun _ => false) t := ((sound.placed.armed t).mp armed).1
  have other : ∀ u, (z.task u).kind = .taskTimer → u ≠ t := by
    intro u timer same
    rw [← same, timer] at polled
    cases polled
  unfold handlerChecked readyOne
  rw [ready, Bool.true_and, if_pos (by simpa using armed)]
  cases kind : (z.task t).kind with
  | taskConnect =>
    dsimp only
    rw [connectChecked_eq sound pending kind]
    refine ⟨rfl, fun u timer => ?_⟩
    change (connectReady z.toCore t (p.soerr t)).task u = z.task u
    unfold connectReady taskOk taskErr
    dsimp only
    split
    · rw [taskComplete_other (other u timer)]; simp [modTask, other u timer]
    · rw [taskComplete_other (other u timer)]; simp [modTask, sockRelease, other u timer]
  | taskAccept =>
    dsimp only
    rw [acceptChecked_eq sound pending kind]
    refine ⟨rfl, fun u timer => ?_⟩
    unfold acceptTry taskOk taskErr
    dsimp only
    split
    · rfl
    · exact taskComplete_other (other u timer)
    · exact taskComplete_other (other u timer)
    · split
      · exact taskComplete_other (other u timer)
      · exact taskComplete_other (other u timer)
  | taskSockRead =>
    dsimp only
    rw [readChecked_eq sound pending kind]
    refine ⟨rfl, fun u timer => ?_⟩
    change (readTry z.toCore t (p.recv t)).1.task u = z.task u
    unfold readTry taskOk taskErr
    dsimp only
    split
    · rfl
    · exact taskComplete_other (other u timer)
    · exact taskComplete_other (other u timer)
  | taskSockWrite =>
    obtain ⟨checked, frame⟩ := writeReadyChecked_eq sound armed kind
    exact ⟨checked, fun u timer => frame u (by simp [timer])⟩
  | _ => exact ⟨rfl, fun _ _ => rfl⟩

/-! ### The walk over the poll set -/

/--
The walk calls each handler at most once, and only for a task that is still pending.

The entries that are left have not been handled: the poll set has one entry for a task.
-/
theorem readyAllChecked_eq (p : Poll) (l : List TaskId) : ∀ {z : ZIo} {handled : List TaskId},
    Sound calm z.rest → l.Nodup → (∀ t ∈ l, t ∉ handled ∧ t < z.ntask ∧ pollable (z.task t).kind = true) →
    ∃ called, readyAllChecked p z handled l = some (z.readyAll p l, called ++ handled) ∧
      called.Nodup ∧ (∀ t ∈ called, t ∈ l ∧ p.revents t = true) ∧
      ∀ u, u < z.ntask → (z.task u).kind = .taskTimer → (z.readyAll p l).task u = z.task u := by
  induction l with
  | nil => intro z handled _ _ _; exact ⟨[], rfl, List.nodup_nil, by simp, fun _ _ _ => rfl⟩
  | cons t rest ih =>
    intro z handled sound nodup entries
    obtain ⟨apart, nodup⟩ := List.nodup_cons.mp nodup
    obtain ⟨fresh, submitted, polled⟩ := entries t List.mem_cons_self
    obtain ⟨first, -⟩ := readyOne_spec sound p t
    have later := first.later
    have sound₁ : Sound calm (z.readyOne p t).rest := sound_after sound rfl first
    have list : listThere z.toCore = true := listThere_of_sound sound
    -- Whatever was done for this entry, the others are as they were for the next.
    have onward : ∀ {now : List TaskId}, (∀ u ∈ rest, u ∉ now) →
        ∀ u ∈ rest, u ∉ now ∧ u < (z.readyOne p t).ntask ∧
          pollable ((z.readyOne p t).task u).kind = true := by
      intro now outside u inside
      obtain ⟨-, known, isPolled⟩ := entries u (List.mem_cons_of_mem t inside)
      have kind : ((z.readyOne p t).task u).kind = (z.task u).kind := (later.args u known).1
      exact ⟨outside u inside, Nat.lt_of_lt_of_le known later.ntask, by rw [kind]; exact isPolled⟩
    have timers : (∀ u, (z.task u).kind = .taskTimer → (z.readyOne p t).task u = z.task u) →
        (∀ u, u < (z.readyOne p t).ntask → ((z.readyOne p t).task u).kind = .taskTimer →
          ((z.readyOne p t).readyAll p rest).task u = (z.readyOne p t).task u) →
        ∀ u, u < z.ntask → (z.task u).kind = .taskTimer →
          (z.readyAll p (t :: rest)).task u = z.task u := by
      intro one all u known timer
      have kept := all u (Nat.lt_of_lt_of_le known later.ntask) (by rw [one u timer]; exact timer)
      exact kept.trans (one u timer)
    by_cases called : p.revents t = true ∧ t ∈ z.armed
    · -- The handler is called, and the task is noted.
      obtain ⟨ready, armed⟩ := called
      obtain ⟨checked, frame⟩ := handlerChecked_eq sound p ready armed polled
      have pending : z.Pending (fun _ => false) t := ((sound.placed.armed t).mp armed).1
      have isThere : taskThere z.toCore t = true := taskThere_of_pending sound.lives pending
      have isOpen : (z.task t).done = false := pending.2.1
      obtain ⟨more, walked, once, inside, still⟩ := @ih _ (t :: handled) sound₁ nodup
        (onward fun u there => by
          intro member
          rcases List.mem_cons.mp member with same | old
          · exact apart (same ▸ there)
          · exact (entries u (List.mem_cons_of_mem t there)).1 old)
      refine ⟨more ++ [t], ?_, ?_, fun u member => ?_, timers frame still⟩
      · simp only [readyAllChecked, readyOneChecked, ready, list, armed, isThere, isOpen, fresh, if_true,
          checked, Bool.not_false, Bool.and_self, decide_true, not_false_eq_true, Option.map_some,
          Option.bind_some]
        rw [walked, List.append_assoc]
        rfl
      · refine List.nodup_append.mpr ⟨once, by simp, fun a member b isT same => ?_⟩
        rw [same, List.mem_singleton.mp isT] at member
        exact apart (inside t member).1
      · rcases List.mem_append.mp member with old | isT
        · exact ⟨List.mem_cons_of_mem t (inside u old).1, (inside u old).2⟩
        · rw [List.mem_singleton.mp isT]
          exact ⟨List.mem_cons_self, ready⟩
    · -- The entry is passed over.
      have same : z.readyOne p t = z := by
        unfold readyOne
        rw [if_neg (by simpa using called)]
      have passed : z.readyOneChecked p handled t = some (z, handled) := by
        unfold readyOneChecked
        rw [if_pos list]
        by_cases ready : p.revents t = true
        · rw [if_pos ready, if_neg fun armed => called ⟨ready, armed⟩]
        · rw [if_neg ready]
      obtain ⟨more, walked, once, inside, still⟩ := @ih _ handled sound₁ nodup
        (onward fun u there => (entries u (List.mem_cons_of_mem t there)).1)
      refine ⟨more, ?_, once, fun u member => ⟨List.mem_cons_of_mem t (inside u member).1,
        (inside u member).2⟩, timers (fun u _ => by rw [same]) still⟩
      simp only [readyAllChecked, passed, Option.bind_some, readyAll]
      rw [same] at walked ⊢
      exact walked

/-- What the walk over the timers does to each task. -/
theorem fireTimers_task (now : Int) (l : List TaskId) : ∀ {c : Core}, l.Nodup → ∀ u,
    (fireTimers c now l).task u =
      if u ∈ l ∧ (c.task u).kind = .taskTimer ∧ (c.task u).deadline ≤ now
      then settled (rOk 0 none) (c.task u) else c.task u := by
  induction l with
  | nil => intro c _ u; simp [fireTimers]
  | cons t rest ih =>
    intro c nodup u
    obtain ⟨apart, nodup⟩ := List.nodup_cons.mp nodup
    unfold fireTimers
    dsimp only
    rw [ih nodup u]
    by_cases isT : u = t
    · subst isT
      rw [if_neg fun there => apart there.1]
      split
      · rename_i expired
        rw [if_pos ⟨List.mem_cons_self, expired⟩]
        exact taskComplete_task (by simp)
      · rename_i stays
        rw [if_neg fun there => stays there.2]
    · have same : (if (c.task t).kind = .taskTimer ∧ (c.task t).deadline ≤ now then taskOk c t 0 none
          else c).task u = c.task u := by
        split
        · exact taskComplete_other isT
        · rfl
      rw [same]
      simp [isT]

/-! ### The whole turn -/

/-- The places of the user thread between the return of `zsock_poll` and that of `run_loop_once`. -/
def inTurn : ZUser → Bool
  | .reading _ | .draining _ | .harvesting _ _ => true
  | _ => false

/--
What `drain_spawn_done` relies on: every task on `spawn_done` is there, and the one it has taken off
is a spawned task that is there and not done.
-/
def drainChecked (z : ZIo) : Bool :=
  z.spawnDone.all (taskThere z.toCore) && listThere z.toCore &&
    match z.user with
    | .harvesting t _ => taskThere z.toCore t && !(z.task t).done && (z.task t).kind == .taskSpawn
    | _ => true

/-- The steps that are taken while the turn goes on, by the user thread and the work queue. -/
abbrev Draining : ZIo → ZIo → Prop := Machine.Path step fun z _ => inTurn z.user = true

/-- What the drain relies on holds in every good state. -/
theorem drainChecked_of_good (good : Good z) : drainChecked z = true := by
  have list : listThere z.toCore = true := listThere_of_sound good.sound
  have there : ∀ t, (decide (t ∈ z.spawnDone) || z.user.harvests t) = true →
      taskThere z.toCore t = true ∧ (z.task t).done = false ∧ (z.task t).kind = .taskSpawn := by
    intro t past
    have life := good.spawning.each t
    unfold SpawnAt at life
    have isOpen := (life.past past).1
    have spawned := life.spawned (by
      rw [Bool.or_assoc (decide (t ∈ z.workq) || _), past, Bool.or_true])
    have submitted : t < z.ntask := by simpa using spawned.1
    have pending : z.Pending (fun _ => false) t := ⟨submitted, isOpen, rfl⟩
    exact ⟨taskThere_of_pending good.sound.lives pending, isOpen, spawned.2⟩
  unfold drainChecked
  rw [list, Bool.and_true, Bool.and_eq_true, List.all_eq_true]
  refine ⟨fun t inside => (there t (by simp [inside])).1, ?_⟩
  split
  · rename_i t why harvesting
    obtain ⟨isThere, isOpen, kind⟩ := there t (by simp [harvesting, ZUser.harvests])
    rw [isThere, isOpen, kind]
    rfl
  · rfl

/-- Code that completes nothing leaves every done flag as it was. -/
theorem done_of_still {r : Rules} {a b : Cut} (moves : Moves r a b) (never : ∀ k e, ¬ r.ends k e)
    (submitted : t < a.core.ntask) : (b.core.task t).done = (a.core.task t).done := by
  cases before : (a.core.task t).done with
  | true => exact (moves.later.done t submitted before).1
  | false =>
    by_contra isDone
    exact never _ _ (moves.later.ended t submitted before (by simpa using isDone))

/-- The timers of a state are timers of another, and as much done. -/
def SameTimers (z z' : ZIo) : Prop :=
  z'.ntask = z.ntask ∧ ∀ t, t < z.ntask → (z.task t).kind = .taskTimer →
    (z'.task t).kind = .taskTimer ∧ (z'.task t).done = (z.task t).done

theorem SameTimers.trans {z'' : ZIo} (first : SameTimers z z') (second : SameTimers z' z'') :
    SameTimers z z'' := by
  refine ⟨second.1.trans first.1, fun t submitted timer => ?_⟩
  obtain ⟨kind, done⟩ := first.2 t submitted timer
  obtain ⟨kind', done'⟩ := second.2 t (by rw [first.1]; exact submitted) kind
  exact ⟨kind', done'.trans done⟩

/-- Code that completes nothing leaves the timers as they were. -/
theorem SameTimers.of_still {r : Rules} (moves : Moves r z.rest z'.rest) (ntask : z'.ntask = z.ntask)
    (never : ∀ k e, ¬ r.ends k e) : SameTimers z z' := by
  refine ⟨ntask, fun t submitted timer => ?_⟩
  have same : (z'.task t).kind = (z.task t).kind := (moves.later.args t submitted).1
  exact ⟨by rw [same]; exact timer, done_of_still moves never submitted⟩

/-- No timer is completed while the spawned functions are harvested. -/
theorem resume_timers (good : Good z) (going : inTurn z.user = true) (step : z.resume = some z') :
    SameTimers z z' := by
  have ntask : z'.ntask = z.ntask := (resume_keeps step).1
  unfold resume at step
  split at step
  · split at step
    · obtain rfl := Option.some.inj step; exact ⟨rfl, fun _ _ timer => ⟨timer, rfl⟩⟩
    · cases step
  · rename_i why draining
    split at step
    · obtain rfl := Option.some.inj step; exact ⟨rfl, fun _ _ timer => ⟨timer, rfl⟩⟩
    · -- The list is empty, and the turn is over.
      rename_i empty
      obtain rfl := Option.some.inj step
      obtain ⟨-, moves⟩ := turned_good good ⟨fun u => by rw [draining]; rfl, fun _ => empty⟩
        fun u (points : why.target = some u) =>
          good.spawning.target u (by rw [draining]; exact points)
      exact .of_still moves ntask fun _ _ ends => ends
  · -- What is harvested was spawned.
    rename_i u why harvesting
    split at step
    · cases step
    · obtain rfl := Option.some.inj step
      refine ⟨ntask, fun t _ timer => ?_⟩
      have life := good.spawning.each u
      unfold SpawnAt at life
      have spawned := life.spawned (by simp [harvesting, ZUser.harvests])
      have other : t ≠ u := by
        intro same
        rw [same, spawned.2] at timer
        cases timer
      have same : (taskComplete z.toCore u (fnResult (z.task u).fnRet)).task t = z.task t :=
        taskComplete_other other
      exact ⟨(congrArg Task.kind same).trans timer, congrArg Task.done same⟩
  · rename_i u isAt; rw [isAt] at going; cases going
  · rename_i isAt; rw [isAt] at going; cases going
  · cases step

/-- What every step of the drain keeps. -/
theorem step_timers {label : Label} (good : Good z) (going : inTurn z.user = true)
    (step : z.step label = some z') : Good z' ∧ SameTimers z z' := by
  have works : ∀ label : Label, z.work label = some z' → Good z' ∧ SameTimers z z' := by
    intro label worked
    obtain ⟨after, moves⟩ := work_good good worked
    exact ⟨after, .of_still moves (work_keeps worked).1 fun _ _ ends => ends⟩
  cases label with
  | take => exact works .take step
  | ran ret => exact works (.ran ret) step
  | push => exact works .push step
  | wake => exact works .wake step
  | finish => exact works .finish step
  | resume => exact ⟨(resume_good good step).1, resume_timers good going step⟩
  | poll p =>
    unfold ZIo.step at step
    dsimp only at step
    split at step
    · rename_i why isAt; rw [isAt] at going; cases going
    · cases step
  | _ =>
    -- A new call is made only by an idle thread.
    have idle : z.user = .idle := by
      by_contra busy
      simp [ZIo.step, busy] at step
    rw [idle] at going
    cases going

/-- What holds along the drain, from the state the poll set was left in. -/
theorem Draining.timers (good : Good z) (path : Draining z z') : Good z' ∧ SameTimers z z' := by
  induction path with
  | refl => exact ⟨good, rfl, fun _ _ timer => ⟨timer, rfl⟩⟩
  | snoc before going taken ih =>
    obtain ⟨after, same⟩ := step_timers ih.1 going taken
    exact ⟨after, ih.2.trans same⟩

/-- The first loop reads the sockets of tasks that are pending. -/
theorem ownersChecked_eq (sound : Sound calm c.rest) : ownersChecked c = some (owners c) := by
  have list : listThere c = true := listThere_of_sound sound
  unfold ownersChecked
  rw [list, Bool.true_and, if_pos]
  rw [List.all_eq_true]
  intro t inside
  obtain ⟨armed, polled⟩ := List.mem_filter.mp inside
  have pending : c.Pending (fun _ => false) t := ((sound.placed.armed t).mp armed).1
  have kind : (c.task t).kind = .taskConnect ∨ (c.task t).kind = .taskAccept ∨
      (c.task t).kind = .taskSockRead ∨ (c.task t).kind = .taskSockWrite := by
    cases isKind : (c.task t).kind <;> simp [isKind, pollable] at polled ⊢
  obtain ⟨s, sock⟩ := sock_of_kind sound pending kind
  have isSock : c.sockOf t = s := by simp [sockOf, sock]
  rw [isSock]
  exact sockThere_of_live sound.linked (sound.placed.live t s pending (.inl sock))

/-- The first walk completes the timers that have expired and no other. -/
theorem fireTimers_timers (sound : Sound calm c.rest) (now : Int) (submitted : t < c.ntask)
    (timer : (c.task t).kind = .taskTimer) (isOpen : (c.task t).done = false) :
    ((fireTimers c now c.armed).task t).kind = .taskTimer ∧
      (((fireTimers c now c.armed).task t).done = true ↔ (c.task t).deadline ≤ now) := by
  have armed : t ∈ c.armed := (sound.placed.armed t).mpr ⟨⟨submitted, isOpen, rfl⟩, fun s write _ => by
    rw [show c.rest.core.task t = c.task t from rfl, timer] at write
    cases write⟩
  rw [fireTimers_task now c.armed sound.placed.nodup t]
  by_cases expired : (c.task t).deadline ≤ now
  · rw [if_pos ⟨armed, timer, expired⟩]
    exact ⟨timer, by simp [settled, expired]⟩
  · rw [if_neg fun all => expired all.2.2]
    exact ⟨timer, by simp [isOpen, expired]⟩

/-- Whatever a turn did for a thread in the poll, its end completes nothing. -/
theorem turned_timers {why : Why} (good : Good z') (quiet : Quiet z z') (polling : z.user = .polling why) :
    SameTimers z' (z'.turned why) := by
  have user : z'.user = .polling why := quiet.user.trans polling
  obtain ⟨-, moves⟩ := turned_good good
    ⟨fun u => by rw [user]; rfl, fun drains => by rw [user] at drains; cases drains⟩
    fun u (points : why.target = some u) => good.spawning.target u (by rw [user]; exact points)
  exact .of_still moves turned_keeps.1 fun _ _ ends => ends

/-- The turn up to the eventfd's entry, with every access checked. -/
theorem turnChecked_eq (good : Good z) {why : Why} (polling : z.user = .polling why) (p : Poll) :
    ∃ handled, turnChecked z p why = some (z.runLoopOnce p why, handled) ∧ handled.Nodup ∧
      (∀ t ∈ handled, t ∈ owners z.toCore ∧ p.revents t = true) ∧
      ∀ t, t < z.ntask → (z.task t).kind = .taskTimer → (z.task t).done = false →
        ((z.runLoopOnce p why).task t).kind = .taskTimer ∧
          (((z.runLoopOnce p why).task t).done = true ↔ (z.task t).deadline ≤ p.now) := by
  have fired := fireTimers_moves p.now z.armed good.sound good.sound.placed.nodup fun _ => id
  have walked := fireChecked_eq p.now z.armed [] good.sound rfl
  have expired := fun t => fireTimers_timers (t := t) good.sound p.now
  generalize isFired : fireTimers z.toCore p.now z.armed = c at fired walked expired
  have first : Steps steady z (z.on fun _ => c) := ⟨steady_of_calm fired, ⟨rfl, rfl, rfl, rfl, rfl, rfl⟩⟩
  have good₁ := good.steps first.of_steady
  have ntask : c.ntask = z.ntask := by rw [← isFired]; exact fireTimers_ntask z.armed
  -- A timer is settled by the first walk, and nothing that follows touches it.
  have settle : ∀ {z' : ZIo}, SameTimers (z.on fun _ => c) z' → ∀ t, t < z.ntask →
      (z.task t).kind = .taskTimer → (z.task t).done = false →
      (z'.task t).kind = .taskTimer ∧ ((z'.task t).done = true ↔ (z.task t).deadline ≤ p.now) := by
    intro z' same t submitted timer isOpen
    obtain ⟨kind, done⟩ := expired t submitted timer isOpen
    obtain ⟨kind', done'⟩ := same.2 t (by rw [show (z.on fun _ => c).ntask = c.ntask from rfl, ntask]; exact submitted) kind
    exact ⟨kind', by rw [done']; exact done⟩
  unfold turnChecked runLoopOnce
  rw [ownersChecked_eq good.sound, Option.bind_some, walked, Option.bind_some]
  dsimp only
  have core : (z.on fun c => fireTimers c p.now c.armed) = z.on fun _ => c := by rw [← isFired]; rfl
  rw [core]
  split
  · exact ⟨[], rfl, List.nodup_nil, by simp, settle (turned_timers good₁ first.2 polling)⟩
  · have later := fired.later
    obtain ⟨called, checked, once, inside, frame⟩ := @readyAllChecked_eq p (owners z.toCore)
      (z.on fun _ => c) [] good₁.sound (good.sound.placed.nodup.filter _)
      fun t member => by
        obtain ⟨armed, polled⟩ := List.mem_filter.mp member
        have submitted : t < z.ntask := ((good.sound.placed.armed t).mp armed).1.1
        have kind : (c.task t).kind = (z.task t).kind := (later.args t submitted).1
        exact ⟨by simp, Nat.lt_of_lt_of_le submitted later.ntask, (congrArg pollable kind).trans polled⟩
    rw [List.append_nil] at checked
    obtain ⟨ready, aside⟩ := readyAll_spec p (owners z.toCore) good₁.sound
    have both : Steps steady z ((z.on fun _ => c).readyAll p (owners z.toCore)) :=
      ⟨first.1.trans ready, first.2.trans aside.quiet⟩
    have good₂ := good.steps both.of_steady
    have same : SameTimers (z.on fun _ => c) ((z.on fun _ => c).readyAll p (owners z.toCore)) :=
      ⟨(readyAll_keeps _).1, fun t submitted timer => by
        rw [frame t submitted timer]; exact ⟨timer, rfl⟩⟩
    rw [checked, Option.map_some]
    split
    · exact ⟨called, rfl, once, inside, settle same⟩
    · exact ⟨called, rfl, once, inside, settle (same.trans (turned_timers good₂ both.2 polling))⟩

/--
One turn of the loop, for every outcome of the poll and every way the work queue interleaves.

With every access checked the code never stops: it reads no task and no socket that has been released,
completes no task that is done, and calls a handler only for a task that is pending, each at most
once. Of the timers that were pending it completes those whose deadline is past and no other.
-/
theorem turn_safe (good : Good z) {why : Why} (polling : z.user = .polling why) (p : Poll) :
    ∃ handled, turnChecked z p why = some (z.runLoopOnce p why, handled) ∧ handled.Nodup ∧
      (∀ t ∈ handled, t ∈ owners z.toCore ∧ p.revents t = true) ∧
      ∀ z', Draining (z.runLoopOnce p why) z' →
        drainChecked z' = true ∧ z'.ntask = z.ntask ∧ (∀ t, t < z.ntask → (z'.task t).dones ≤ 1) ∧
        ∀ t, t < z.ntask → (z.task t).kind = .taskTimer → (z.task t).done = false →
          ((z'.task t).done = true ↔ (z.task t).deadline ≤ p.now) := by
  obtain ⟨handled, checked, once, inside, timers⟩ := turnChecked_eq good polling p
  refine ⟨handled, checked, once, inside, fun z' path => ?_⟩
  have ntask : (z.runLoopOnce p why).ntask = z.ntask := runLoopOnce_keeps.1
  obtain ⟨good', same⟩ := Draining.timers (runLoopOnce_good good polling p).1 path
  have known : z'.ntask = z.ntask := same.1.trans ntask
  refine ⟨drainChecked_of_good good', known, fun t submitted => ?_, fun t submitted timer isOpen => ?_⟩
  · have life := (good'.sound.lives.each t (by
      rw [show z'.rest.core.ntask = z'.ntask from rfl, known]; exact submitted)).dones
    rw [show z'.rest.core.task t = z'.task t from rfl] at life
    rw [life]
    split <;> omega
  · obtain ⟨kind, done⟩ := timers t submitted timer isOpen
    rw [(same.2 t (by rw [ntask]; exact submitted) kind).2]
    exact done

/-- Two writes and an accept are pending, and a detached timer; the caller waits in `impl_step`. -/
def waiting : ZIo := after [.again, .sent 2, .sent 1] (twoParked ++ [.detach 3, .step])

theorem waiting_good : Good waiting :=
  good_of_run (run_after [.again, .sent 2, .sent 1] (twoParked ++ [.detach 3, .step]) (by decide +kernel))

/-- A poll that reports every entry, after the timer has expired. -/
def allReady : Poll :=
  { rc := 2, revents := fun _ => true, now := 9, accept := fun _ => .conn true }

theorem turn_safe_waiting :
    waiting.user = .polling .step ∧ owners waiting.toCore = [2, 0] ∧ (waiting.task 3).deadline = 5 ∧
    ∃ handled, handled.Nodup ∧
      turnChecked waiting allReady .step = some (waiting.runLoopOnce allReady .step, handled) ∧
      handled = [0, 2] ∧ ((waiting.runLoopOnce allReady .step).task 3).done = true ∧
      ((waiting.runLoopOnce allReady .step).task 3).frees = 1 ∧
      ((waiting.runLoopOnce allReady .step).task 1).done = true ∧
      drainChecked (waiting.runLoopOnce allReady .step) = true := by
  have polling : waiting.user = .polling .step := by decide +kernel
  obtain ⟨handled, checked, once, -, drain⟩ := turn_safe waiting_good polling allReady
  obtain ⟨safe, -, -, timers⟩ := drain _ (.refl _)
  have fired := (timers 3 (by decide +kernel) (by decide +kernel) (by decide +kernel)).mpr
    (by decide +kernel)
  have called : (turnChecked waiting allReady .step).map (·.2) = some [0, 2] := by decide +kernel
  rw [checked] at called
  exact ⟨polling, by decide +kernel, by decide +kernel, handled, once, checked,
    Option.some.inj called, fired, by decide +kernel, by decide +kernel, safe⟩

end ZIo

end Myio.Loop
