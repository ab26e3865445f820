import Myio.Uv.Connects

/-! Which tasks have been stopped, and that exactly those end as canceled. -/

namespace Myio.Uv

/-- What is known of a task's stop, given which sockets are closing. -/
structure Told (closing : SockId → Bool) (k : Task) : Prop where
  ended : k.done = true → (k.res.status = .canceled ↔ k.stopped = true)
  /-- A request on the thread pool is stopped by `uv_cancel`. -/
  pool : k.done = false → k.kind = .fs ∨ k.kind = .spawn → (k.stopped = true ↔ k.req = .canceled)
  /-- A lookup is not stopped at all. -/
  lookup : k.done = false → k.kind = .connect → k.connecting = false →
    k.stopped = false ∧ k.req ≠ .canceled ∧ ∀ s, k.sock = some s → closing s = false
  /-- A handshake is stopped by closing its socket. -/
  shake : k.done = false → k.kind = .connect → k.connecting = true →
    ∀ s, k.sock = some s → (k.stopped = true ↔ closing s = true)
  /-- The others end in the moment they are stopped. -/
  slot : k.done = false → k.kind ≠ .fs → k.kind ≠ .spawn → k.kind ≠ .connect → k.stopped = false
  close : k.kind = .sockClose → k.stopped = false

namespace Told

variable {k : Task}

/-- What is known of a task that is done, however it ended. -/
theorem done {closing : SockId → Bool} (done : k.done = true)
    (truth : k.res.status = .canceled ↔ k.stopped = true) (close : k.kind = .sockClose → k.stopped = false) :
    Told closing k := by
  have never : ∀ {q : Prop}, k.done = false → q := fun before => by rw [done] at before; cases before
  exact ⟨fun _ => truth, fun before => never before, fun before => never before, fun before => never before,
    fun before => never before, close⟩

/-- What is known of a task that stands in a slot, or has just been made. -/
theorem unstopped {closing : SockId → Bool} (done : k.done = false) (stopped : k.stopped = false)
    (req : k.req ≠ .canceled) (notConnect : k.kind ≠ .connect) : Told closing k := by
  refine ⟨fun after => ?_, fun _ _ => by simp [stopped, req], fun _ isConnect => absurd isConnect notConnect,
    fun _ isConnect => absurd isConnect notConnect, fun _ _ _ _ => stopped, fun _ => stopped⟩
  rw [done] at after
  cases after

/-- Only what a task's own socket does matters to it. -/
theorem congr {closing closing' : SockId → Bool} (told : Told closing k)
    (same : k.done = false → k.kind = .connect → ∀ s, k.sock = some s → closing' s = closing s) :
    Told closing' k := by
  refine ⟨told.ended, told.pool, fun before isConnect looking => ?_, fun before isConnect shaking s on => ?_,
    told.slot, told.close⟩
  · obtain ⟨stopped, req, alive⟩ := told.lookup before isConnect looking
    exact ⟨stopped, req, fun s on => (same before isConnect s on).trans (alive s on)⟩
  · rw [told.shake before isConnect shaking s on, same before isConnect s on]

end Told

namespace Io

open Function (update)

variable {p : Prop} {io io' : Io} {t u : TaskId} {s c : SockId} {k : Task}

/-- Every task that was stopped ends as canceled, and no other does. -/
def Stops (io : Io) : Prop := ∀ t, Told (fun s => (io.sock s).closing) (io.task t)

namespace Stops

theorem new : Stops Io.new := fun _ => .unstopped rfl rfl (by simp [Io.new]) (by simp [Io.new])

/-- One task is told anew. -/
theorem renew (stops : Stops io) (task : ∀ u, u ≠ t → io'.task u = io.task u)
    (closing : ∀ s, (io'.sock s).closing = (io.sock s).closing)
    (told : Told (fun s => (io.sock s).closing) (io'.task t)) : Stops io' := by
  intro u
  simp only [closing]
  by_cases isT : u = t
  · subst isT; exact told
  · rw [task u isT]; exact stops u

/-- The books of one socket change, but not whether it is closing. -/
theorem modSock_closing {f : Sock → Sock} (same : (f (io.sock s)).closing = (io.sock s).closing) (c : SockId) :
    ((io.modSock s f).sock c).closing = (io.sock c).closing := by
  simp only [modSock_sock]
  split
  · rename_i isS; subst isS; exact same
  · rfl

/-- No task is different. -/
theorem same (stops : Stops io) (task : io'.task = io.task)
    (closing : ∀ s, (io'.sock s).closing = (io.sock s).closing) : Stops io' := by
  intro u
  simp only [closing, task]
  exact stops u

/-- A socket is made, which no connect has. -/
theorem sockNew (stops : Stops io) (slots : Slots io) : Stops io.sockNew := by
  intro u
  refine (stops u).congr fun _ _ s on => ?_
  have old : s ≠ io.nsock := Nat.ne_of_lt (slots.on u s on)
  simp [old]

/-- A handle is closed under the handshake on it, if there is one. -/
theorem sockDestroy (stops : Stops io) (slots : Slots io) (connects : Connects io)
    (spared : ∀ t, io.lookingUp t = true → (io.task t).sock ≠ some s) : Stops (io.sockDestroy s) := by
  unfold Io.sockDestroy
  split
  · exact stops
  rename_i live
  have others : ∀ u, connectsOn s (io.task u) = false →
      Told (fun c => ((io.uvClose s).sock c).closing) (io.task u) := by
    intro u apart
    refine (stops u).congr fun before isConnect c on => ?_
    have other : c ≠ s := by
      rintro rfl
      obtain ⟨_, _, stage⟩ := connects.stage u ⟨isConnect, before⟩
      have some : (io.task u).req ≠ .none := by
        rcases stage with ⟨_, pool⟩ | ⟨_, handle, _⟩
        · rintro none; rw [none] at pool; cases pool
        · simp [handle]
      simp [connectsOn, isConnect, on, some] at apart
    simp [uvClose, other]
  intro u
  simp only [uvClose]
  split
  · rename_i hit
    -- The connect on the handle is past its lookup, and is stopped now.
    simp only [connectsOn, Bool.and_eq_true, decide_eq_true_eq] at hit
    obtain ⟨⟨isConnect, on⟩, some⟩ := hit
    have before := slots.req u some
    have shaking : (io.task u).connecting = true := by
      by_contra looking
      exact spared u (by simp [lookingUp, isConnect, before, looking]) on
    refine ⟨fun after => ?_, fun _ other => ?_, fun _ _ looking => ?_, fun _ _ _ c isOn => ?_,
      fun _ _ _ notConnect => absurd isConnect notConnect, fun isClose => ?_⟩
    · rw [show (io.task u).done = true from after] at before; cases before
    · rcases other with other | other
      · exact absurd (isConnect.symm.trans other) (by simp)
      · exact absurd (isConnect.symm.trans other) (by simp)
    · rw [show (io.task u).connecting = false from looking] at shaking; cases shaking
    · obtain rfl : s = c := Option.some.inj (on.symm.trans isOn)
      simp
    · exact absurd (isConnect.symm.trans isClose) (by simp)
  · rename_i miss
    simpa [uvClose] using others u (by simpa using miss)

/-- The sockets a `sock_close` closes are not those of connects. -/
theorem shut (stops : Stops io) (connects : Connects io) (slots : Slots io) (given : io.claimed s = true) :
    Stops (io.shut s) := by
  have hidden : ∀ u c, io.Connecting u → (io.task u).sock = some c →
      (decide (c = s) || decide (c ∈ (io.sock s).pending)) = false := by
    intro u c connecting on
    have hidden := connects.hidden u c connecting on
    have other : c ≠ s := by rintro rfl; rw [hidden.claimed] at given; cases given
    simp [other, hidden.parked s]
  intro u
  have same : (io.shut s).task u = io.task u := by
    simp only [Io.shut]
    rw [if_neg]
    intro hit
    simp only [Bool.and_eq_true, decide_eq_true_eq, Option.any_eq_true] at hit
    obtain ⟨⟨isConnect, some⟩, c, on, closes, _⟩ := hit
    rw [hidden u c ⟨isConnect, slots.req u some⟩ on] at closes
    cases closes
  rw [same]
  refine (stops u).congr fun before isConnect c on => ?_
  have apart := hidden u c ⟨isConnect, before⟩ on
  simp only [Bool.or_eq_false_iff, decide_eq_false_iff_not] at apart
  simp [Io.shut, apart.1, apart.2]

/-- A task ends in a slot or without one. -/
theorem endedBare (stops : Stops io) (ended : EndedBare False (io.task t) k)
    (closes : k.kind = .sockClose → k.stopped = false) (task : io'.task = update io.task t k)
    (closing : ∀ s, (io'.sock s).closing = (io.sock s).closing) : Stops io' := by
  refine stops.renew (t := t) (fun u other => ?_) closing ?_
  · rw [task, Function.update_of_ne other]
  · rw [task, Function.update_self]
    exact .done ended.done (ended.truth.resolve_left id) closes

theorem endedWith (stops : Stops io) (ended : EndedWith False (io.task t) k c)
    (task : io'.task = update io.task t k)
    (closing : ∀ s, (io'.sock s).closing = (io.sock s).closing) : Stops io' := by
  have stopped := ended.stopped.resolve_left id
  refine stops.renew (t := t) (fun u other => ?_) closing ?_
  · rw [task, Function.update_of_ne other]
  · rw [task, Function.update_self]
    exact .done ended.done (by simp [ended.status, stopped]) fun _ => stopped

/-- Every move tells the truth. -/
theorem move (stops : Stops io) (slots : Slots io) (connects : Connects io) (move : Move False io io') :
    Stops io' := by
  have onNew : ∀ {k : Task} (u : TaskId), u ≠ io.ntask → (io.taskNew k).task u = io.task u := by
    intro k u other
    simp [other]
  cases move with
  | aside change =>
    intro u
    have closing : ∀ s, (io'.sock s).closing = (io.sock s).closing := fun s => by rw [change.sock s]
    obtain ⟨kind, done, res, sock, stage, req, stopped, _⟩ := change.task u
    obtain ⟨ended, pool, lookup, shake, slot, close⟩ := stops u
    simp only [closing]
    constructor
    case ended => rw [done, res, stopped]; exact ended
    case pool => rw [done, kind, stopped, req]; exact pool
    case lookup => rw [done, kind, stage, stopped, req, sock]; exact lookup
    case shake => rw [done, kind, stage, stopped, sock]; exact shake
    case slot => rw [done, kind, stopped]; exact slot
    case close => rw [kind, stopped]; exact close
  | make k fresh kind given =>
    refine stops.renew (t := io.ntask) onNew (fun _ => rfl) ?_
    simpa using Told.unstopped fresh.done fresh.stopped (by simp [fresh.req]) kind.1
  | failed kind err notConnect =>
    refine stops.renew (t := io.ntask) onNew (fun _ => rfl) ?_
    simpa [taskNewFailed] using Told.done (k := { kind, done := true, res := rErr err }) rfl (by simp [rErr])
      fun _ => rfl
  | claim t s won => exact stops.same rfl fun _ => rfl
  | bare => exact stops.sockNew slots
  | listen =>
    have closing : ∀ c, ((io.sockNew.modSock io.nsock ({ · with listening := true })).sock c).closing =
        (io.sockNew.sock c).closing := modSock_closing rfl
    exact (stops.sockNew slots).same rfl closing
  | lookup =>
    refine (stops.sockNew slots).renew (t := io.ntask) onNew (fun _ => rfl) ?_
    simp only [sockNew_task, taskNew_task, if_true]
    refine ⟨by simp, by simp, fun _ _ _ => ⟨rfl, by simp, fun s on => ?_⟩, by simp, by simp, by simp⟩
    obtain rfl : io.nsock = s := by simpa using on
    simp
  | waitRead s k fresh kind on given free =>
    refine stops.renew (t := io.ntask) onNew (modSock_closing rfl) ?_
    simpa using Told.unstopped fresh.done fresh.stopped (by simp [fresh.req]) (by simp [kind])
  | waitAccept s given free empty =>
    refine stops.renew (t := io.ntask) onNew (modSock_closing rfl) ?_
    simpa using Told.unstopped (k := { kind := .accept, sock := some s }) rfl rfl (by simp) (by simp)
  | serve s c rest k ended given free parked =>
    have stopped := ended.stopped.resolve_left id
    refine stops.renew (t := io.ntask) onNew (modSock_closing rfl) ?_
    simpa using Told.done (k := k) ended.done (by simp [ended.status, stopped]) fun _ => stopped
  | request t req made before kind unstopped =>
    refine stops.renew (t := t) (fun u other => by simp [other]) (fun _ => rfl) ?_
    simp only [modTask_task, if_true]
    refine .unstopped before unstopped ?_ ?_
    · rcases kind with ⟨_, rfl⟩ | ⟨_, rfl⟩
      · simp
      · simp
    · rcases kind with ⟨isFs | isSpawn, _⟩ | ⟨isWrite, _⟩
      · simp [isFs]
      · simp [isSpawn]
      · simp [isWrite]
  | tick t made before kind =>
    refine stops.renew (t := t) (fun u other => by simp [other]) (fun _ => rfl) ?_
    simp only [modTask_task, if_true]
    obtain ⟨ended, pool, lookup, shake, slot, close⟩ := stops t
    exact ⟨ended, pool, lookup, shake, slot, close⟩
  | start t queued =>
    refine stops.renew (t := t) (fun u other => by simp [other]) (fun _ => rfl) ?_
    simp only [modTask_task, if_true]
    obtain ⟨ended, pool, lookup, shake, slot, close⟩ := stops t
    refine ⟨ended, fun before isPool => ?_, fun before isConnect looking => ?_, shake, slot, close⟩
    · have same := pool before isPool
      rw [queued] at same
      simpa using same
    · obtain ⟨stopped, _, alive⟩ := lookup before isConnect looking
      exact ⟨stopped, by simp, alive⟩
  | take t queued allowed =>
    have notConnect := allowed.resolve_left id
    have before := slots.req t (by simp [queued])
    have isPool : (io.task t).kind = .fs ∨ (io.task t).kind = .spawn := by
      rcases connects.pool t (by simp [queued, Req.onPool]) with isFs | isSpawn | ⟨isConnect, _⟩
      · exact .inl isFs
      · exact .inr isSpawn
      · exact absurd isConnect notConnect
    refine stops.renew (t := t) (fun u other => by simp [other]) (fun _ => rfl) ?_
    simp only [modTask_task, if_true]
    refine ⟨fun after => ?_, fun _ _ => by simp, fun _ isConnect => absurd isConnect notConnect,
      fun _ isConnect => absurd isConnect notConnect, fun _ notFs notSpawn => ?_, fun isClose => ?_⟩
    · rw [show (io.task t).done = true from after] at before; cases before
    · exact (isPool.elim notFs notSpawn).elim
    · rcases isPool with isFs | isSpawn
      · exact absurd (isFs.symm.trans isClose) (by simp)
      · exact absurd (isSpawn.symm.trans isClose) (by simp)
  | shake t s kind working on alive =>
    have before := slots.req t (by simp [working])
    have looking : (io.task t).connecting = false := by
      rcases connects.pool t (by simp [working, Req.onPool]) with isFs | isSpawn | ⟨_, looking⟩
      · exact absurd (isFs.symm.trans kind) (by simp)
      · exact absurd (isSpawn.symm.trans kind) (by simp)
      · exact looking
    obtain ⟨stopped, _, _⟩ := (stops t).lookup before kind looking
    refine stops.renew (t := t) (fun u other => by simp [other]) (fun _ => rfl) ?_
    simp only [modTask_task, if_true]
    refine ⟨fun after => ?_, fun _ other => ?_, fun _ _ looking => by simp at looking,
      fun _ _ _ c isOn => ?_, fun _ _ _ notConnect => absurd kind notConnect, fun _ => stopped⟩
    · rw [show (io.task t).done = true from after] at before; cases before
    · rcases other with other | other
      · exact absurd (kind.symm.trans other) (by simp)
      · exact absurd (kind.symm.trans other) (by simp)
    · obtain rfl : s = c := Option.some.inj (on.symm.trans isOn)
      simp [stopped, alive]
  | closeSlot s t inside kind => exact stops.same rfl (modSock_closing rfl)
  | ends t k made ended kind closes =>
    exact stops.endedBare ended (fun isClose => closes.resolve_left id (ended.kind ▸ isClose)) rfl fun _ => rfl
  | leaveRead s t k named ended =>
    have isRead := ((slots.read s t).mp named).1
    exact stops.endedBare ended (by simp [ended.kind, isRead]) rfl (modSock_closing rfl)
  | leaveAccept s t k named ended =>
    have isAccept := ((slots.accept s t).mp named).1
    exact stops.endedBare ended (by simp [ended.kind, isAccept]) rfl (modSock_closing rfl)
  | connected t s k kind before on ended => exact stops.endedWith ended rfl fun _ => rfl
  | connectEnds t k kind before ended sock ptr truth =>
    refine stops.renew (t := t) (fun u other => by simp [other]) (fun _ => rfl) ?_
    simpa using Told.done (k := k) ended.done (truth.resolve_left id) (by simp [ended.kind, kind])
  | close s inside allowed => exact stops.sockDestroy slots connects (allowed.resolve_left id)
  | shut s inside given => exact stops.shut connects slots given
  | arriveHand s t k listens named ended =>
    exact (stops.sockNew slots).endedWith (t := t) (k := k) ended rfl (modSock_closing rfl)
  | arrivePark s listens free => exact (stops.sockNew slots).same rfl (modSock_closing rfl)
  | closed s inside closing quiet => exact stops.same rfl (modSock_closing rfl)

end Stops

end Io

end Myio.Uv
