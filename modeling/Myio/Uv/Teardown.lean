import Myio.Uv.Runs

/-! A teardown, and the half-made sockets of the connects it finds. -/

namespace Myio.Uv.Io

open Function (update)

variable {p : Prop} {io io' w : Io} {t u : TaskId} {s c : SockId} {k : Task} {label : Label}

/-! ### No lookup begins without a new task -/

/-- Moves make tasks, and take none away. -/
theorem Move.ntask (move : Move p io io') : io.ntask ≤ io'.ntask := by
  cases move with
  | aside change => exact Nat.le_of_eq change.ntask.symm
  | close s => exact Nat.le_of_eq (Within.sockDestroy io s).ntask.symm
  | make | failed | lookup | waitRead | waitAccept | serve => exact Nat.le_succ _
  | _ => exact Nat.le_refl _

theorem Moves.ntask (moves : Moves p io io') : io.ntask ≤ io'.ntask := by
  induction moves with
  | refl => exact Nat.le_refl _
  | tail _ move ih => exact Nat.le_trans ih move.ntask

/-- A task is written and goes on as before, or is done or past its lookup. -/
theorem lookingUp_update (t : TaskId) (task : io'.task = update io.task t k)
    (looks : k.kind = .connect → k.done = false → k.connecting = false → io.lookingUp t = true)
    (looking : io'.lookingUp u = true) : io.lookingUp u = true := by
  obtain ⟨kind, before, early⟩ := lookingUp_iff.mp looking
  rw [task, Function.update_apply] at kind before early
  split at kind
  · rename_i isT
    rw [if_pos isT] at before early
    rw [isT]
    exact looks kind before early
  · rename_i other
    rw [if_neg other] at before early
    exact lookingUp_iff.mpr ⟨kind, before, early⟩

/-- A move that makes no task begins no lookup. -/
theorem Move.lookingUp (move : Move p io io') (same : io'.ntask = io.ntask)
    (looking : io'.lookingUp u = true) : io.lookingUp u = true := by
  have more : ∀ {q : Prop}, io.ntask + 1 = io.ntask → q := fun grows => absurd grows (Nat.succ_ne_self _)
  have done : ∀ {t : TaskId} {k : Task}, k.done = true →
      k.kind = .connect → k.done = false → k.connecting = false → io.lookingUp t = true := by
    intro t k done _ before _
    rw [done] at before
    cases before
  have kept : ∀ {t : TaskId}, (io.task t).kind = .connect → (io.task t).done = false →
      (io.task t).connecting = false → io.lookingUp t = true := fun kind before early =>
    lookingUp_iff.mpr ⟨kind, before, early⟩
  cases move with
  | aside change =>
    obtain ⟨kind, done, _, _, early, _⟩ := change.task u
    rw [lookingUp_iff, kind, done, early] at looking
    exact lookingUp_iff.mpr looking
  | make | failed | lookup | waitRead | waitAccept | serve => exact more same
  | claim | bare | listen | closeSlot | arrivePark | closed => exact looking
  | request t | tick t | start t | take t =>
    refine lookingUp_update t rfl ?_ looking
    exact kept
  | shake t => exact lookingUp_update t rfl (by simp) looking
  | ends t k made ended => exact lookingUp_update t rfl (done ended.done) looking
  | leaveRead s t k named ended => exact lookingUp_update t rfl (done ended.done) looking
  | leaveAccept s t k named ended => exact lookingUp_update t rfl (done ended.done) looking
  | connected t s k kind before on ended => exact lookingUp_update t rfl (done ended.done) looking
  | connectEnds t k kind before ended => exact lookingUp_update t rfl (done ended.done) looking
  | close s =>
    rw [sockDestroy_eq] at looking
    exact looking
  | shut s =>
    rw [shut_form] at looking
    exact looking
  | arriveHand s t k listens named ended => exact lookingUp_update t rfl (done ended.done) looking

theorem Moves.lookingUp (moves : Moves p io io') (same : io'.ntask = io.ntask)
    (looking : io'.lookingUp u = true) : io.lookingUp u = true := by
  induction moves with
  | refl => exact looking
  | @tail middle last before move ih =>
    have first := Moves.ntask before
    have second := move.ntask
    have still : last.ntask = middle.ntask := Nat.le_antisymm (same ▸ first) second
    have earlier : middle.ntask = io.ntask := still.symm.trans same
    exact ih earlier (move.lookingUp still looking)

/-! ### Turns of the loop for a teardown -/

/-- The instance is being torn down, or has been. -/
def dying (io : Io) : Prop := (∃ before, io.user = .turning .destroy before) ∨ io.user = .destroyed

/-- A step of an instance that is torn down makes no task. -/
theorem dying_step (dies : io.dying) (taken : io.step label = some io') : io'.dying ∧ io'.ntask = io.ntask := by
  cases label with
  | user c =>
    simp only [step] at taken
    split at taken
    · rename_i idle
      rcases dies with ⟨_, turning⟩ | dead
      · rw [turning] at idle; cases idle
      · rw [dead] at idle; cases idle
    · cases taken
  | pool t =>
    simp only [step] at taken
    split at taken
    · cases taken
      exact ⟨dies, rfl⟩
    · cases taken
  | loop cb =>
    simp only [step] at taken
    split at taken
    · cases taken
      have within := Within.callback io cb
      refine ⟨?_, within.ntask⟩
      unfold dying
      rw [within.user]
      exact dies
    · cases taken
  | turnEnd =>
    simp only [step] at taken
    split at taken
    · rename_i goal before turning
      cases taken
      rcases dies with ⟨_, isDestroy⟩ | dead
      · rw [turning] at isDestroy
        cases isDestroy
        exact ⟨.inr rfl, rfl⟩
      · rw [turning] at dead; cases dead
    · cases taken

/-- A teardown that finds no lookup sees none later. -/
theorem dying_runs (run : Runs io w) (sane : Sane True io) (dies : io.dying)
    (settled : ∀ t, io.lookingUp t = false) : Sane True w ∧ ∀ t, w.lookingUp t = false := by
  have all : Sane True w ∧ w.dying ∧ ∀ t, w.lookingUp t = false := by
    refine Machine.Path.invariant (fun io => Sane True io ∧ io.dying ∧ ∀ t, io.lookingUp t = false) ?_ run
      ⟨sane, dies, settled⟩
    rintro io label next ⟨sane, dies, settled⟩ may taken
    obtain ⟨still, same⟩ := dying_step dies taken
    refine ⟨sane.step may (.inl trivial) taken, still, fun t => ?_⟩
    cases looking : next.lookingUp t with
    | false => rfl
    | true =>
      have before := (sane.moves may (.inl trivial) taken).lookingUp same looking
      rw [settled t] at before
      cases before
  exact ⟨all.1, all.2.2⟩

/-! ### What the walk over the handles leaves -/

/-- Two records of a task that differ in whether it was stopped, and in its timer's memory. -/
structure Alive (k k' : Task) : Prop where
  kind : k'.kind = k.kind
  done : k'.done = k.done
  sock : k'.sock = k.sock
  connecting : k'.connecting = k.connecting
  req : k'.req = k.req

theorem walkSocks_eq : ∀ (l : List SockId) (io : Io),
    (∀ t, Alive (io.task t) ((io.walkSocks l).task t)) ∧
      (∀ s, ((io.walkSocks l).sock s).closing = (decide (s ∈ l) || (io.sock s).closing)) ∧
      (io.walkSocks l).ntask = io.ntask := by
  intro l
  induction l with
  | nil => exact fun io => ⟨fun _ => ⟨rfl, rfl, rfl, rfl, rfl⟩, fun s => by simp [walkSocks], rfl⟩
  | cons c rest ih =>
    intro io
    obtain ⟨tasks, closing, ntask⟩ := ih (io.sockDestroy c)
    refine ⟨fun t => ?_, fun s => ?_, ?_⟩
    · have first : Alive (io.task t) ((io.sockDestroy c).task t) := by
        rw [sockDestroy_eq]
        exact ⟨rfl, rfl, rfl, rfl, rfl⟩
      obtain ⟨kind, done, sock, early, req⟩ := tasks t
      exact ⟨kind.trans first.kind, done.trans first.done, sock.trans first.sock, early.trans first.connecting,
        req.trans first.req⟩
    · refine (closing s).trans ?_
      rw [sockDestroy_eq]
      simp only [closed_closing, List.mem_cons]
      by_cases isC : s = c
      · simp [isC]
      · simp [isC]
    · exact ntask.trans (Within.sockDestroy io c).ntask

/-- The walk leaves a connect as it is, and closes every socket. -/
theorem implDestroy_leaves (io : Io) :
    (∀ t, Alive (io.task t) (io.implDestroy.task t)) ∧
      (∀ s, s < io.nsock → (io.implDestroy.sock s).closing = true) ∧ io.implDestroy.ntask = io.ntask := by
  have timers : Aside io (io.walkTimers (List.range io.ntask)) :=
    walkTimers_aside _ fun t member => List.mem_range.mp member
  have socks := walkSocks_eq (List.range (io.walkTimers (List.range io.ntask)).nsock)
    (io.walkTimers (List.range io.ntask))
  refine ⟨fun t => ?_, fun s inside => ?_, socks.2.2.trans timers.ntask⟩
  · obtain ⟨kind, done, _, sock, early, req, _⟩ := timers.task t
    obtain ⟨kind', done', sock', early', req'⟩ := socks.1 t
    exact ⟨kind'.trans kind, done'.trans done, sock'.trans sock, early'.trans early, req'.trans req⟩
  · have member : s ∈ List.range (io.walkTimers (List.range io.ntask)).nsock := by
      rw [timers.nsock]
      exact List.mem_range.mpr inside
    refine (socks.2.1 s).trans ?_
    rw [decide_eq_true member, Bool.true_or]

/-! ### When a teardown is safe -/

/-- The callbacks of a connect, which go through its socket. -/
def connecter : Label → Option TaskId
  | .loop (.gai t _ _) | .loop (.connect t _) => some t
  | _ => none

/-- In every run from here, the callbacks of connects find their sockets' memory. -/
def ConnectsLive (io : Io) : Prop :=
  ∀ w label t s, Runs io w → w.allowed label = true → (w.step label).isSome = true →
    connecter label = some t → (w.task t).sock = some s → (w.sock s).frees = 0

/-- The callback of a connect that is past its lookup finds its socket. -/
theorem connecter_live (books : Books p io) (settled : io.lookingUp t = false)
    (may : io.allowed label = true) (calls : connecter label = some t) (on : (io.task t).sock = some s) :
    (io.sock s).frees = 0 := by
  have promised := allowed_libuv may
  unfold connecter at calls
  split at calls
  · -- The callback of a lookup comes during the lookup only.
    rename_i v status rc
    cases calls
    simp only [libuv, Bool.and_eq_true, decide_eq_true_eq] at promised
    obtain ⟨⟨⟨kind, ends⟩, _⟩, _⟩ := promised
    have req := poolEnds_req ends
    have onPool : Req.onPool (io.task t).req = true := by
      rcases req with req | req
      · simp [req, Req.onPool]
      · simp [req, Req.onPool]
    have before : (io.task t).done = false := by
      refine books.slots.req t ?_
      rcases req with req | req
      · simp [req]
      · simp [req]
    rcases books.connects.pool t onPool with isFs | isSpawn | ⟨_, early⟩
    · rw [kind] at isFs; cases isFs
    · rw [kind] at isSpawn; cases isSpawn
    · rw [lookingUp_iff.mpr ⟨kind, before, early⟩] at settled
      cases settled
  · rename_i v status
    cases calls
    simp only [libuv, Bool.and_eq_true, decide_eq_true_eq] at promised
    obtain ⟨⟨⟨kind, handle⟩, _⟩, _⟩ := promised
    have before : (io.task t).done = false := books.slots.req t (by simp [handle])
    obtain ⟨c, isOn, stage⟩ := books.connects.stage t ⟨kind, before⟩
    rw [on] at isOn
    cases isOn
    rcases stage with ⟨_, onPool⟩ | ⟨_, _, live⟩
    · rw [handle] at onPool; cases onPool
    · exact live
  · cases calls

/-- The callback of a closed handle leaves the connect on it alone, and releases its socket. -/
theorem sockCloseCb_leaves (books : Books p io) (connecting : io.Connecting t) (on : (io.task t).sock = some s) :
    (io.sockCloseCb s).task t = io.task t ∧ ((io.sockCloseCb s).sock s).frees = (io.sock s).frees + 1 := by
  have hidden := books.connects.hidden t s connecting on
  -- Neither a read nor an accept waits on a socket that only the connect knows.
  have noRead : (io.sock s).readTask = none := by
    cases named : (io.sock s).readTask with
    | none => rfl
    | some u =>
      obtain ⟨kind, _, isOn⟩ := (books.slots.read s u).mp named
      refine absurd isOn (hidden.others u ?_)
      rintro rfl
      rw [connecting.1] at kind
      cases kind
  have noAccept : (io.sock s).acceptTask = none := by
    cases named : (io.sock s).acceptTask with
    | none => rfl
    | some u =>
      obtain ⟨kind, _, isOn⟩ := (books.slots.accept s u).mp named
      refine absurd isOn (hidden.others u ?_)
      rintro rfl
      rw [connecting.1] at kind
      cases kind
  unfold sockCloseCb
  simp only [noRead, noAccept]
  split
  · rename_i u named
    have isClose := books.slots.close s u named
    have other : t ≠ u := by
      rintro rfl
      rw [connecting.1] at isClose
      cases isClose
    obtain ⟨k, n, isNext, _, _⟩ := taskComplete_eq ((books.plain u).2 isClose) 0
    rw [isNext]
    exact ⟨by simp [other], by simp⟩
  · exact ⟨rfl, by simp⟩

/-- The callback of a lookup may come now, with the given status. -/
theorem gai_comes (turning : ∃ before, io.user = .turning .destroy before) (kind : (io.task t).kind = .connect)
    (status : Int) (ends : io.poolEnds t status UV_EAI_CANCELED = true) :
    io.allowed (.loop (.gai t status (-1))) = true ∧ (io.step (.loop (.gai t status (-1)))).isSome = true := by
  obtain ⟨before, turning⟩ := turning
  refine ⟨?_, by simp [step, turning]⟩
  simp [allowed, obeys, libuv, kind, ends, UV_ECANCELED]

/-- Where a lookup runs and its socket's memory is gone, a callback that goes through it can come. -/
theorem gone_unsafe (books : Books p io) (turning : ∃ before, io.user = .turning .destroy before)
    (looking : io.lookingUp t = true) (on : (io.task t).sock = some s) (gone : (io.sock s).frees ≠ 0) :
    ¬ io.ConnectsLive := by
  intro live
  obtain ⟨kind, before, early⟩ := lookingUp_iff.mp looking
  obtain ⟨c, isOn, stage⟩ := books.connects.stage t ⟨kind, before⟩
  have onPool : Req.onPool (io.task t).req = true := by
    rcases stage with ⟨_, onPool⟩ | ⟨late, _⟩
    · exact onPool
    · rw [early] at late; cases late
  simp only [Req.onPool, Bool.or_eq_true, decide_eq_true_eq] at onPool
  rcases onPool with (queued | working) | canceled
  · -- A thread of the pool takes the request first.
    generalize isNext : io.modTask t ({ · with req := .working }) = next
    have taken : io.step (.pool t) = some next := by simp [step, queued, isNext]
    have run : Runs io next := .snoc (.refl io) (by simp [allowed, obeys, libuv]) taken
    have self : next.task t = { io.task t with req := .working } := by rw [← isNext]; simp
    have turns : ∃ before, next.user = .turning .destroy before := by rw [← isNext]; exact turning
    obtain ⟨may, enabled⟩ := gai_comes (t := t) turns (by rw [self]; exact kind) UV_EAI_FAIL
      (by simp [poolEnds, self, UV_EAI_FAIL, UV_EAI_CANCELED])
    refine gone (live next _ t s run may enabled rfl (by rw [self]; exact on) ▸ ?_)
    rw [← isNext]
    rfl
  · obtain ⟨may, enabled⟩ := gai_comes (t := t) turning kind UV_EAI_FAIL
      (by simp [poolEnds, working, UV_EAI_FAIL, UV_EAI_CANCELED])
    exact gone (live io _ t s (.refl io) may enabled rfl on)
  · obtain ⟨may, enabled⟩ := gai_comes (t := t) turning kind UV_EAI_CANCELED
      (by simp [poolEnds, canceled])
    exact gone (live io _ t s (.refl io) may enabled rfl on)

theorem ConnectsLive.later (live : io.ConnectsLive) (run : Runs io w) : w.ConnectsLive :=
  fun last label t s later => live last label t s (run.trans later)

/-- A closing socket whose connect is in its lookup goes before the lookup's callback can come. -/
theorem closing_unsafe (books : Books p io) (turning : ∃ before, io.user = .turning .destroy before)
    (looking : io.lookingUp t = true) (on : (io.task t).sock = some s) (closing : (io.sock s).closing = true) :
    ¬ io.ConnectsLive := by
  intro live
  by_cases gone : (io.sock s).frees = 0
  · obtain ⟨kind, before, early⟩ := lookingUp_iff.mp looking
    have connecting : io.Connecting t := ⟨kind, before⟩
    have hidden := books.connects.hidden t s connecting on
    -- Nothing is under way on the handle: the lookup is with the thread pool.
    have quiet : io.quiet s = true := by
      simp only [quiet, List.all_eq_true, List.mem_range, Bool.not_eq_true', decide_eq_false_iff_not, Bool.and_eq_false_imp,
        decide_eq_true_eq]
      intro u _ handle isOn
      by_cases isT : u = t
      · subst isT
        rcases books.connects.handle u handle with isWrite | ⟨_, late⟩
        · rw [kind] at isWrite; cases isWrite
        · rw [early] at late; cases late
      · exact hidden.others u isT isOn
    have may : io.allowed (.loop (.sockClose s)) = true := by
      simp [allowed, obeys, libuv, closing, gone, quiet]
    have taken : io.step (.loop (.sockClose s)) = some (io.sockCloseCb s) := by
      obtain ⟨before, turning⟩ := turning
      simp [step, turning, callback]
    obtain ⟨self, freed⟩ := sockCloseCb_leaves books connecting on
    have run : Runs io (io.sockCloseCb s) := .snoc (.refl io) may taken
    refine gone_unsafe (t := t) (s := s) (books.moves (sockCloseCb_moves books (allowed_libuv may))) ?_ ?_ ?_ ?_
      (live.later run)
    · rw [(Within.sockCloseCb io s).user]; exact turning
    · rw [lookingUp_iff, self]; exact ⟨kind, before, early⟩
    · rw [self]; exact on
    · rw [freed]; exact Nat.succ_ne_zero _
  · exact gone_unsafe books turning looking on gone live

/--
After any run, a teardown finds the memory of every connect's socket in each callback that goes
through it, in every order of the callbacks, exactly when no connect is in its lookup.
-/
theorem destroy_safe_iff (run : Runs Io.new io) (idle : io.user = .idle) :
    io.implDestroy.ConnectsLive ↔ ∀ t, io.lookingUp t = false := by
  have sane := run.sane
  have taken : io.step (.user .destroy) = some io.implDestroy := by simp [step, idle, call]
  have may : io.allowed (.user .destroy) = true := by simp [allowed, obeys, libuv]
  have after : Sane True io.implDestroy := sane.step may (.inl trivial) taken
  obtain ⟨leaves, closes, _⟩ := implDestroy_leaves io
  have same : ∀ t, io.implDestroy.lookingUp t = io.lookingUp t := fun t => by
    obtain ⟨kind, done, _, early, _⟩ := leaves t
    unfold lookingUp
    rw [kind, done, early]
  constructor
  · intro live t
    by_contra looks
    have looking : io.lookingUp t = true := by simpa using looks
    obtain ⟨kind, before, _⟩ := lookingUp_iff.mp looking
    obtain ⟨s, on, _⟩ := sane.books.connects.stage t ⟨kind, before⟩
    exact closing_unsafe after.books ⟨_, rfl⟩ ((same t).trans looking) ((leaves t).sock.trans on)
      (closes s (sane.books.slots.on t s on)) live
  · intro settled w label t s later may enabled calls on
    obtain ⟨end_, quiet⟩ := dying_runs later after (.inl ⟨_, rfl⟩) fun t => (same t).trans (settled t)
    exact connecter_live end_.books (quiet t) may calls on

/-- An instance with one connect that has just been submitted. -/
def lookup : Io := Machine.drive step Io.new [.user (.tcpConnect 0)]

/-- A teardown right after the submission is not safe. -/
theorem destroy_safe_iff_lookup : lookup.user = .idle ∧ ¬ lookup.implDestroy.ConnectsLive := by
  have run : Runs Io.new lookup := .of_legal allowed (fun _ _ => id) _ (.refl _) (by decide +kernel)
  have idle : lookup.user = .idle := by decide +kernel
  refine ⟨idle, fun live => ?_⟩
  have settled := (destroy_safe_iff run idle).mp live 0
  exact absurd settled (by decide +kernel)

end Myio.Uv.Io
