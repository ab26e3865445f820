import Myio.Uv.Moves

/-! Which tasks are under way, and in which slot of a socket each of them stands. -/

namespace Myio.Uv.Io

open Function (update)

variable {p : Prop} {io io' : Io} {t u : TaskId} {s c : SockId} {k : Task}

/-- The books of the tasks under way. -/
structure Slots (io : Io) : Prop where
  unmade : ∀ t, io.ntask ≤ t → io.task t = { kind := .fs }
  unopened : ∀ s, io.nsock ≤ s → io.sock s = {}
  held : ∀ t, io.held t = true → t < io.ntask
  claimed : ∀ s, io.claimed s = true → s < io.nsock
  won : ∀ t s, (io.task t).res.ptr = some s → s < io.nsock
  parked : ∀ s c, c ∈ (io.sock s).pending → c < io.nsock
  on : ∀ t s, (io.task t).sock = some s → s < io.nsock
  /-- A task with a request or a timer running is not done. -/
  req : ∀ t, (io.task t).req ≠ .none → (io.task t).done = false
  ticking : ∀ t, (io.task t).ticking = true → (io.task t).done = false ∧ (io.task t).kind = .timer
  /-- The slots of a socket name the read and the accept that wait on it. -/
  read : ∀ s t, (io.sock s).readTask = some t ↔
    (io.task t).kind = .sockRead ∧ (io.task t).done = false ∧ (io.task t).sock = some s
  accept : ∀ s t, (io.sock s).acceptTask = some t ↔
    (io.task t).kind = .accept ∧ (io.task t).done = false ∧ (io.task t).sock = some s
  onSome : ∀ t, (io.task t).kind = .sockRead ∨ (io.task t).kind = .accept →
    (io.task t).done = false → ∃ s, (io.task t).sock = some s
  close : ∀ s t, (io.sock s).closeTask = some t → (io.task t).kind = .sockClose
  gone : ∀ s, (io.sock s).frees ≠ 0 → (io.sock s).closing = true

namespace Slots

theorem new : Slots Io.new := by
  constructor <;> simp [Io.new]

/-- A task that is not of the kind of the unmade ones has been made. -/
theorem inside (slots : Slots io) (kind : (io.task t).kind ≠ .fs) : t < io.ntask := by
  by_contra outside
  rw [slots.unmade t (Nat.le_of_not_lt outside)] at kind
  exact kind rfl

/-- So has one with a request under way. -/
theorem requested (slots : Slots io) (some : (io.task t).req ≠ .none) : t < io.ntask := by
  by_contra outside
  rw [slots.unmade t (Nat.le_of_not_lt outside)] at some
  exact some rfl

/-- The sockets that have been made are those in use. -/
theorem inside_of_ne (slots : Slots io) (used : io.sock s ≠ {}) : s < io.nsock := by
  by_contra outside
  exact used (slots.unopened s (Nat.le_of_not_lt outside))

/-- A change that leaves every task under way and every slot alone. -/
theorem same (slots : Slots io) (ntask : io'.ntask = io.ntask) (nsock : io'.nsock = io.nsock)
    (held : ∀ t, io'.held t = true → io.held t = true)
    (claimed : ∀ s, io'.claimed s = true → s < io.nsock)
    (made : ∀ t, io.ntask ≤ t → io'.task t = io.task t)
    (opened : ∀ s, io.nsock ≤ s → io'.sock s = io.sock s)
    (task : ∀ t, (io'.task t).kind = (io.task t).kind ∧ (io'.task t).done = (io.task t).done ∧
      (io'.task t).res.ptr = (io.task t).res.ptr ∧ (io'.task t).sock = (io.task t).sock ∧
      (io'.task t).req = (io.task t).req ∧ ((io'.task t).ticking = true → (io.task t).ticking = true))
    (sock : ∀ s, (io'.sock s).readTask = (io.sock s).readTask ∧
      (io'.sock s).acceptTask = (io.sock s).acceptTask ∧
      (io'.sock s).closeTask = (io.sock s).closeTask ∧
      (∀ c, c ∈ (io'.sock s).pending → c ∈ (io.sock s).pending) ∧
      (io'.sock s).frees = (io.sock s).frees ∧
      ((io.sock s).closing = true → (io'.sock s).closing = true)) : Slots io' := by
  constructor
  case unmade => intro t outside; rw [made t (ntask ▸ outside)]; exact slots.unmade t (ntask ▸ outside)
  case unopened =>
    intro s outside; rw [opened s (nsock ▸ outside)]; exact slots.unopened s (nsock ▸ outside)
  case held => intro t isHeld; rw [ntask]; exact slots.held t (held t isHeld)
  case claimed => intro s isClaimed; rw [nsock]; exact claimed s isClaimed
  case won => intro t s; rw [(task t).2.2.1, nsock]; exact slots.won t s
  case parked => intro s c parked; rw [nsock]; exact slots.parked s c ((sock s).2.2.2.1 c parked)
  case on => intro t s; rw [(task t).2.2.2.1, nsock]; exact slots.on t s
  case req => intro t; rw [(task t).2.2.2.2.1, (task t).2.1]; exact slots.req t
  case ticking =>
    intro t ticks
    rw [(task t).1, (task t).2.1]
    exact slots.ticking t ((task t).2.2.2.2.2 ticks)
  case read =>
    intro s t; rw [(sock s).1, (task t).1, (task t).2.1, (task t).2.2.2.1]; exact slots.read s t
  case accept =>
    intro s t; rw [(sock s).2.1, (task t).1, (task t).2.1, (task t).2.2.2.1]; exact slots.accept s t
  case onSome => intro t; rw [(task t).1, (task t).2.1, (task t).2.2.2.1]; exact slots.onSome t
  case close => intro s t; rw [(sock s).2.2.1, (task t).1]; exact slots.close s t
  case gone =>
    intro s; rw [(sock s).2.2.2.2.1]; exact fun freed => (sock s).2.2.2.2.2 (slots.gone s freed)

/-- A task is made that stands in no slot. -/
theorem taskNew (slots : Slots io) (free : k.done = true ∨ k.kind ≠ .sockRead ∧ k.kind ≠ .accept)
    (won : ∀ s, k.res.ptr = some s → s < io.nsock) (on : ∀ s, k.sock = some s → s < io.nsock)
    (req : k.req ≠ .none → k.done = false) (ticking : k.ticking = false) : Slots (io.taskNew k) := by
  have unmade := slots.unmade io.ntask (Nat.le_refl _)
  have noRead : ∀ s, (io.sock s).readTask ≠ some io.ntask := fun s named => by
    simpa [unmade] using ((slots.read s _).mp named).1
  have noAccept : ∀ s, (io.sock s).acceptTask ≠ some io.ntask := fun s named => by
    simpa [unmade] using ((slots.accept s _).mp named).1
  have noClose : ∀ s, (io.sock s).closeTask ≠ some io.ntask := fun s named => by
    simpa [unmade] using slots.close s _ named
  constructor
  case unmade =>
    intro t outside
    have past : io.ntask < t := outside
    rw [taskNew_task, if_neg (Nat.ne_of_gt past)]
    exact slots.unmade t (Nat.le_of_lt past)
  case held =>
    intro t
    simp only [taskNew_held, taskNew_ntask]
    split
    · rename_i isNew; intro _; rw [isNew]; exact Nat.lt_succ_self _
    · intro isHeld; exact Nat.lt_succ_of_lt (slots.held t isHeld)
  case unopened => exact slots.unopened
  case claimed => exact slots.claimed
  case parked => exact slots.parked
  case won => intro t s; rw [taskNew_task]; split; exacts [won s, slots.won t s]
  case on => intro t s; rw [taskNew_task]; split; exacts [on s, slots.on t s]
  case req => intro t; rw [taskNew_task]; split; exacts [req, slots.req t]
  case ticking => intro t; rw [taskNew_task]; split; exacts [by simp [ticking], slots.ticking t]
  case read => intro s t; have := slots.read s t; simp only [taskNew_task, taskNew_sock]; grind
  case accept => intro s t; have := slots.accept s t; simp only [taskNew_task, taskNew_sock]; grind
  case onSome => intro t; have := slots.onSome t; simp only [taskNew_task]; grind
  case close => intro s t; have := slots.close s t; simp only [taskNew_task, taskNew_sock]; grind
  case gone => exact slots.gone

/-- A socket is made. -/
theorem sockNew (slots : Slots io) : Slots io.sockNew := by
  have unopened := slots.unopened io.nsock (Nat.le_refl _)
  have wider : ∀ {c}, c < io.nsock → c < io.sockNew.nsock := fun less => Nat.lt_succ_of_lt less
  have sock : ∀ c, io.sockNew.sock c = io.sock c := fun c => by
    rw [sockNew_sock]
    split
    · rename_i isNew; rw [isNew, unopened]
    · rfl
  constructor
  case unopened =>
    intro s outside
    rw [sock]
    exact slots.unopened s (Nat.le_of_succ_le outside)
  case unmade => exact slots.unmade
  case held => exact slots.held
  case claimed => exact fun s isClaimed => wider (slots.claimed s isClaimed)
  case won => exact fun t s won => wider (slots.won t s won)
  case parked => intro s c; rw [sock]; exact fun parked => wider (slots.parked s c parked)
  case on => exact fun t s on => wider (slots.on t s on)
  case req => exact slots.req
  case ticking => exact slots.ticking
  case read => intro s t; rw [sock]; exact slots.read s t
  case accept => intro s t; rw [sock]; exact slots.accept s t
  case onSome => exact slots.onSome
  case close => intro s t; rw [sock]; exact slots.close s t
  case gone => intro s; rw [sock]; exact slots.gone s

/-- A task goes on or ends, and keeps its place in a slot if it has one. -/
theorem setTask (slots : Slots io) (made : t < io.ntask) (kind : k.kind = (io.task t).kind)
    (kept : k.kind = .sockRead ∨ k.kind = .accept → k.done = (io.task t).done ∧ k.sock = (io.task t).sock)
    (won : ∀ s, k.res.ptr = some s → s < io.nsock) (on : ∀ s, k.sock = some s → s < io.nsock)
    (req : k.req ≠ .none → k.done = false)
    (ticking : k.ticking = true → k.done = false ∧ k.kind = .timer) : Slots (io.setTask t k) := by
  constructor
  case unmade =>
    intro u outside
    rw [setTask_task, if_neg (by rintro rfl; exact absurd made (Nat.not_lt_of_le outside))]
    exact slots.unmade u outside
  case unopened => exact slots.unopened
  case held => exact slots.held
  case claimed => exact slots.claimed
  case parked => exact slots.parked
  case won => intro u s; rw [setTask_task]; split; exacts [won s, slots.won u s]
  case on => intro u s; rw [setTask_task]; split; exacts [on s, slots.on u s]
  case req => intro u; rw [setTask_task]; split; exacts [req, slots.req u]
  case ticking => intro u; rw [setTask_task]; split; exacts [ticking, slots.ticking u]
  case read => intro s u; have := slots.read s u; simp only [setTask_task, setTask_sock]; grind
  case accept => intro s u; have := slots.accept s u; simp only [setTask_task, setTask_sock]; grind
  case onSome => intro u; have := slots.onSome u; simp only [setTask_task]; grind
  case close => intro s u; have := slots.close s u; simp only [setTask_task, setTask_sock]; grind
  case gone => exact slots.gone

/-- The books of one socket change, but not its slots. -/
theorem modSock (slots : Slots io) {f : Sock → Sock} (inside : s < io.nsock)
    (read : (f (io.sock s)).readTask = (io.sock s).readTask)
    (accept : (f (io.sock s)).acceptTask = (io.sock s).acceptTask)
    (close : ∀ t, (f (io.sock s)).closeTask = some t → (io.task t).kind = .sockClose)
    (parked : ∀ c, c ∈ (f (io.sock s)).pending → c < io.nsock)
    (gone : (f (io.sock s)).frees ≠ 0 → (f (io.sock s)).closing = true) : Slots (io.modSock s f) := by
  constructor
  case unopened =>
    intro c outside
    rw [modSock_sock, if_neg (by rintro rfl; exact absurd inside (Nat.not_lt_of_le outside))]
    exact slots.unopened c outside
  case unmade => exact slots.unmade
  case held => exact slots.held
  case claimed => exact slots.claimed
  case won => exact slots.won
  case on => exact slots.on
  case req => exact slots.req
  case ticking => exact slots.ticking
  case onSome => exact slots.onSome
  case parked => intro c d; rw [modSock_sock]; split; exacts [parked d, slots.parked c d]
  case read =>
    intro c t
    rw [modSock_sock]
    split
    · rename_i isS; rw [isS, read]; exact slots.read s t
    · exact slots.read c t
  case accept =>
    intro c t
    rw [modSock_sock]
    split
    · rename_i isS; rw [isS, accept]; exact slots.accept s t
    · exact slots.accept c t
  case close => intro c t; rw [modSock_sock]; split; exacts [close t, slots.close c t]
  case gone => intro c; rw [modSock_sock]; split; exacts [gone, slots.gone c]

/-- A read or an accept is made, and takes its socket's slot. -/
theorem wait (slots : Slots io) {f : Sock → Sock} (fresh : Fresh k) (on : k.sock = some s)
    (kind : k.kind = .sockRead ∨ k.kind = .accept) (inside : s < io.nsock)
    (readFree : k.kind = .sockRead → (io.sock s).readTask = none)
    (acceptFree : k.kind = .accept → (io.sock s).acceptTask = none)
    (read : (f (io.sock s)).readTask =
      if k.kind = .sockRead then some io.ntask else (io.sock s).readTask)
    (accept : (f (io.sock s)).acceptTask =
      if k.kind = .accept then some io.ntask else (io.sock s).acceptTask)
    (close : (f (io.sock s)).closeTask = (io.sock s).closeTask)
    (parked : (f (io.sock s)).pending = (io.sock s).pending)
    (gone : (f (io.sock s)).frees ≠ 0 → (f (io.sock s)).closing = true) :
    Slots ((io.taskNew k).modSock s f) := by
  -- But for the slots themselves, it is as with a task that is done from the start.
  have ended := slots.taskNew (k := { k with done := true }) (.inl rfl) (by simp [fresh.res])
    (fun c => by simp only [on, Option.some.injEq]; rintro rfl; exact inside)
    (fun some => absurd fresh.req some) fresh.ticking
  have unmade := slots.unmade io.ntask (Nat.le_refl _)
  have noRead : ∀ c, (io.sock c).readTask ≠ some io.ntask := fun c named => by
    simpa [unmade] using ((slots.read c _).mp named).1
  have noAccept : ∀ c, (io.sock c).acceptTask ≠ some io.ntask := fun c named => by
    simpa [unmade] using ((slots.accept c _).mp named).1
  have begun := fresh.done
  constructor
  case unopened =>
    intro c outside
    rw [modSock_sock, if_neg (by rintro rfl; exact absurd inside (Nat.not_lt_of_le outside))]
    exact slots.unopened c outside
  case unmade =>
    intro t outside
    have other := ended.unmade t outside
    simp only [modSock_task, taskNew_task, if_neg (Nat.ne_of_gt outside)] at other ⊢
    exact other
  case held => exact ended.held
  case claimed => exact slots.claimed
  case won => intro t c; have := ended.won t c; simp at this ⊢; grind
  case on => intro t c; have := ended.on t c; simp at this ⊢; grind
  case req => intro t; have := slots.req t; have := fresh.req; simp; grind
  case ticking => intro t; have := slots.ticking t; have := fresh.ticking; simp; grind
  case onSome => intro t; have := slots.onSome t; simp; grind
  case parked => intro c d; have := slots.parked c d; simp; grind
  case read =>
    intro c t
    have := slots.read c t
    have := noRead c
    simp only [modSock_sock, modSock_task, taskNew_task, taskNew_sock]
    grind
  case accept =>
    intro c t
    have := slots.accept c t
    have := noAccept c
    simp only [modSock_sock, modSock_task, taskNew_task, taskNew_sock]
    grind
  case close =>
    intro c t
    have := ended.close c t
    simp only [modSock_sock, modSock_task, taskNew_task, taskNew_sock] at this ⊢
    grind
  case gone => intro c; rw [modSock_sock]; split; exacts [gone, slots.gone c]

/-- A read or an accept ends, and leaves its socket's slot. -/
theorem leave (slots : Slots io) {f : Sock → Sock} (ended : Ended (io.task t) k)
    (on : (io.task t).sock = some s) (sock : k.sock = (io.task t).sock)
    (kind : (io.task t).kind = .sockRead ∨ (io.task t).kind = .accept)
    (won : ∀ c, k.res.ptr = some c → c < io.nsock)
    (read : (f (io.sock s)).readTask =
      if (io.sock s).readTask = some t then none else (io.sock s).readTask)
    (accept : (f (io.sock s)).acceptTask =
      if (io.sock s).acceptTask = some t then none else (io.sock s).acceptTask)
    (close : (f (io.sock s)).closeTask = (io.sock s).closeTask)
    (parked : (f (io.sock s)).pending = (io.sock s).pending)
    (gone : (f (io.sock s)).frees ≠ 0 → (f (io.sock s)).closing = true) :
    Slots ((io.setTask t k).modSock s f) := by
  have made : t < io.ntask := slots.inside (by rcases kind with kind | kind <;> simp [kind])
  have inside : s < io.nsock := slots.on t s on
  obtain ⟨sameKind, done, req, ticking⟩ := ended
  constructor
  case unopened =>
    intro c outside
    rw [modSock_sock, if_neg (by rintro rfl; exact absurd inside (Nat.not_lt_of_le outside))]
    exact slots.unopened c outside
  case unmade =>
    intro u outside
    rw [modSock_task, setTask_task, if_neg (by rintro rfl; exact absurd made (Nat.not_lt_of_le outside))]
    exact slots.unmade u outside
  case held => exact slots.held
  case claimed => exact slots.claimed
  case won => intro u c; have := slots.won u c; simp; grind
  case on => intro u c; have := slots.on u c; simp; grind
  case req => intro u; have := slots.req u; simp; grind
  case ticking => intro u; have := slots.ticking u; simp; grind
  case onSome => intro u; have := slots.onSome u; simp; grind
  case parked => intro c d; have := slots.parked c d; simp; grind
  case read =>
    intro c u
    have := slots.read c u
    have := slots.read c t
    simp only [modSock_sock, modSock_task, setTask_task, setTask_sock]
    grind
  case accept =>
    intro c u
    have := slots.accept c u
    have := slots.accept c t
    simp only [modSock_sock, modSock_task, setTask_task, setTask_sock]
    grind
  case close =>
    intro c u
    have := slots.close c u
    simp only [modSock_sock, modSock_task, setTask_task, setTask_sock]
    grind
  case gone => intro c; rw [modSock_sock]; split; exacts [gone, slots.gone c]

theorem modTask (slots : Slots io) {f : Task → Task} (made : t < io.ntask)
    (kind : (f (io.task t)).kind = (io.task t).kind)
    (done : (f (io.task t)).done = (io.task t).done)
    (res : (f (io.task t)).res = (io.task t).res) (sock : (f (io.task t)).sock = (io.task t).sock)
    (req : (f (io.task t)).req ≠ .none → (io.task t).done = false)
    (ticking : (f (io.task t)).ticking = true → (io.task t).done = false ∧ (io.task t).kind = .timer) :
    Slots (io.modTask t f) := by
  refine slots.setTask (k := f (io.task t)) made kind (fun _ => ⟨done, sock⟩) (fun s => ?_) (fun s => ?_)
    (fun some => done.trans (req some)) fun ticks => ?_
  · rw [res]; exact slots.won t s
  · rw [sock]; exact slots.on t s
  · rw [done, kind]; exact ticking ticks

/-- A handle is closed. -/
theorem uvClose (slots : Slots io) (inside : s < io.nsock) : Slots (io.uvClose s) := by
  have none : ∀ t, io.ntask ≤ t → connectsOn s (io.task t) = false := fun t outside => by
    simp [connectsOn, slots.unmade t outside]
  refine slots.same rfl rfl (fun _ => id) slots.claimed (fun t outside => ?_) (fun c outside => ?_)
    (fun t => ?_) fun c => ?_
  · simp [Io.uvClose, none t outside]
  · simp only [Io.uvClose, modSock_sock]
    rw [if_neg (by rintro rfl; exact absurd inside (Nat.not_lt_of_le outside))]
  · simp only [Io.uvClose]
    split <;> exact ⟨rfl, rfl, rfl, rfl, rfl, id⟩
  · simp only [Io.uvClose, modSock_sock]
    split
    · rename_i isS; subst isS; exact ⟨rfl, rfl, rfl, fun _ => id, rfl, fun _ => rfl⟩
    · exact ⟨rfl, rfl, rfl, fun _ => id, rfl, id⟩

theorem sockDestroy (slots : Slots io) (inside : s < io.nsock) : Slots (io.sockDestroy s) := by
  unfold Io.sockDestroy
  split
  · exact slots
  · exact slots.uvClose inside

theorem shut (slots : Slots io) (inside : s < io.nsock) : Slots (io.shut s) := by
  have apart : ∀ c, io.nsock ≤ c → c ≠ s ∧ c ∉ (io.sock s).pending := fun c outside =>
    ⟨by rintro rfl; exact absurd inside (Nat.not_lt_of_le outside),
      fun parked => absurd (slots.parked s c parked) (Nat.not_lt_of_le outside)⟩
  refine slots.same rfl rfl (fun _ => id) slots.claimed (fun t outside => ?_) (fun c outside => ?_)
    (fun t => ?_) fun c => ?_
  · simp [Io.shut, slots.unmade t outside]
  · simp [Io.shut, (apart c outside).1, (apart c outside).2]
  · simp only [Io.shut]
    split <;> exact ⟨rfl, rfl, rfl, rfl, rfl, id⟩
  · simp only [Io.shut]
    split <;> split <;> simp_all

theorem aside (slots : Slots io) (aside : Aside io io') : Slots io' := by
  refine slots.same aside.ntask aside.nsock aside.held
    (fun s isClaimed => slots.claimed s (aside.claimed s isClaimed)) aside.made aside.opened
    (fun t => ?_) fun s => ?_
  · obtain ⟨kind, done, res, sock, _, req, _, ticking⟩ := aside.task t
    exact ⟨kind, done, by rw [res], sock, req, ticking⟩
  · rw [aside.sock s]; exact ⟨rfl, rfl, rfl, fun _ => id, rfl, id⟩

/-- Every move keeps the books of the tasks under way. -/
theorem move (slots : Slots io) (move : Move p io io') : Slots io' := by
  cases move with
  | aside change => exact slots.aside change
  | make k fresh kind given =>
    exact slots.taskNew (.inr ⟨kind.2.2, kind.2.1⟩) (by simp [fresh.res])
      (fun s on => slots.claimed s (given s on)) (fun some => absurd fresh.req some) fresh.ticking
  | failed kind err notConnect =>
    exact slots.taskNew (.inl rfl) (by simp) (by simp) (by simp) rfl
  | claim t s won =>
    refine slots.same rfl rfl (fun _ => id) (fun c isClaimed => ?_) (fun _ _ => rfl) (fun _ _ => rfl)
      (fun _ => ⟨rfl, rfl, rfl, rfl, rfl, id⟩) fun _ => ⟨rfl, rfl, rfl, fun _ => id, rfl, id⟩
    simp only [Function.update_apply] at isClaimed
    split at isClaimed
    · rename_i isS; subst isS; exact slots.won t c won
    · exact slots.claimed c isClaimed
  | bare => exact slots.sockNew
  | listen =>
    have opened := slots.sockNew.modSock (s := io.nsock) (f := ({ · with listening := true }))
      (Nat.lt_succ_self _) rfl rfl (by simp) (by simp) (by simp)
    refine opened.same rfl rfl (fun _ => id) (fun c isClaimed => ?_) (fun _ _ => rfl) (fun _ _ => rfl)
      (fun _ => ⟨rfl, rfl, rfl, rfl, rfl, id⟩) fun _ => ⟨rfl, rfl, rfl, fun _ => id, rfl, id⟩
    simp only [Function.update_apply] at isClaimed
    split at isClaimed
    · rename_i isS; subst isS; exact Nat.lt_succ_self _
    · exact Nat.lt_succ_of_lt (slots.claimed c isClaimed)
  | lookup =>
    -- The socket is there before anybody looks at the task.
    exact slots.sockNew.taskNew (k := { kind := .connect, sock := some io.nsock, req := .queued })
      (.inr (by simp)) (by simp) (fun s => by simp only [Option.some.injEq]; rintro rfl; exact Nat.lt_succ_self _)
      (by simp) rfl
  | waitRead s k fresh kind on given free =>
    exact slots.wait fresh on (.inl kind) (slots.claimed s given) (fun _ => free) (by simp [kind])
      (by simp [kind]) (by simp [kind]) rfl rfl (slots.gone s)
  | waitAccept s given free empty =>
    exact slots.wait (k := { kind := .accept, sock := some s }) ⟨rfl, rfl, rfl, rfl, rfl, rfl⟩ rfl
      (.inr rfl) (slots.claimed s given) (by simp) (fun _ => free) (by simp) (by simp) rfl rfl
      (slots.gone s)
  | serve s c rest k ended given free parked =>
    have inside := slots.claimed s given
    have isParked : ∀ d, d ∈ c :: rest → d < io.nsock := fun d member =>
      slots.parked s d (by rw [parked]; exact member)
    have made := slots.taskNew (k := k) (.inl ended.done)
      (fun d => by rw [ended.ptr]; rintro ⟨⟩; exact isParked _ (by simp))
      (fun d => by rw [ended.sock]; rintro ⟨⟩; exact inside) (by simp [ended.req]) ended.ticking
    refine made.modSock inside rfl rfl (made.close s) (fun d member => isParked d ?_) (made.gone s)
    exact List.mem_cons_of_mem _ member
  | request t req made before kind unstopped =>
    exact slots.modTask made rfl rfl rfl rfl (fun _ => before) (slots.ticking t)
  | tick t made before kind =>
    exact slots.modTask made rfl rfl rfl rfl (slots.req t) fun _ => ⟨before, kind⟩
  | start t queued =>
    exact slots.modTask (slots.requested (by simp [queued])) rfl rfl rfl rfl
      (fun _ => slots.req t (by simp [queued])) (slots.ticking t)
  | take t queued allowed =>
    exact slots.modTask (slots.requested (by simp [queued])) rfl rfl rfl rfl
      (fun _ => slots.req t (by simp [queued])) (slots.ticking t)
  | shake t s kind working on alive =>
    exact slots.modTask (slots.requested (by simp [working])) rfl rfl rfl rfl
      (fun _ => slots.req t (by simp [working])) (slots.ticking t)
  | closeSlot s t inside kind =>
    refine slots.modSock inside rfl rfl (fun u => ?_) (slots.parked s) (slots.gone s)
    simp only [Option.some.injEq]
    rintro rfl
    exact kind
  | ends t k made ended kind closes =>
    refine slots.setTask made ended.kind ?_ (by simp [ended.ptr]) ?_ (by simp [ended.req])
      (by simp [ended.ticking])
    · rw [ended.kind]
      rintro (isRead | isAccept)
      · exact absurd isRead kind.2.2
      · exact absurd isAccept kind.2.1
    · rw [ended.sock]; exact slots.on t
  | leaveRead s t k named ended =>
    obtain ⟨kind, _, on⟩ := (slots.read s t).mp named
    have apart : (io.sock s).acceptTask ≠ some t := fun named' => by
      simp [((slots.accept s t).mp named').1] at kind
    exact slots.leave ended.toEnded on ended.sock (.inl kind) (by simp [ended.ptr]) (by simp [named])
      (by simp [apart]) rfl rfl (slots.gone s)
  | leaveAccept s t k named ended =>
    obtain ⟨kind, _, on⟩ := (slots.accept s t).mp named
    have apart : (io.sock s).readTask ≠ some t := fun named' => by
      simp [((slots.read s t).mp named').1] at kind
    exact slots.leave ended.toEnded on ended.sock (.inr kind) (by simp [ended.ptr]) (by simp [apart])
      (by simp [named]) rfl rfl (slots.gone s)
  | connected t s k kind before on ended =>
    have made : t < io.ntask := slots.inside (by simp [kind])
    refine slots.setTask made ended.kind (by simp [ended.kind, kind]) ?_ ?_ (by simp [ended.req])
      (by simp [ended.ticking])
    · intro c; rw [ended.ptr]; rintro ⟨⟩; exact slots.on t s on
    · rw [ended.sock]; exact slots.on t
  | connectEnds t k kind before ended sock ptr truth =>
    have made : t < io.ntask := slots.inside (by simp [kind])
    exact slots.setTask made ended.kind (by simp [ended.kind, kind]) (by simp [ptr]) (by simp [sock])
      (by simp [ended.req]) (by simp [ended.ticking])
  | close s inside allowed => exact slots.sockDestroy inside
  | shut s inside given => exact slots.shut inside
  | arriveHand s t k listens named ended =>
    obtain ⟨kind, before, on⟩ := (slots.accept s t).mp named
    have inside : s < io.nsock := slots.on t s on
    have old : s ≠ io.nsock := Nat.ne_of_lt inside
    have apart : (io.sock s).readTask ≠ some t := fun named' => by
      simp [((slots.read s t).mp named').1] at kind
    refine slots.sockNew.leave (t := t) ended.toEnded on ended.sock (.inr kind) ?_ ?_ ?_ ?_ ?_
      (slots.sockNew.gone s)
    · intro c; rw [ended.ptr]; rintro ⟨⟩; exact Nat.lt_succ_self _
    all_goals simp [old, apart, named]
  | arrivePark s listens free =>
    have used : io.sock s ≠ {} := fun isNew => by rw [isNew] at listens; cases listens
    have inside := slots.inside_of_ne used
    refine slots.sockNew.modSock (Nat.lt_succ_of_lt inside) rfl rfl (slots.sockNew.close s) ?_
      (slots.sockNew.gone s)
    simp only [sockNew_sock, if_neg (Nat.ne_of_lt inside), List.mem_append, List.mem_singleton]
    rintro c (parked | rfl)
    · exact Nat.lt_succ_of_lt (slots.parked s c parked)
    · exact Nat.lt_succ_self _
  | closed s inside closing quiet =>
    exact slots.modSock inside rfl rfl (slots.close s) (slots.parked s) fun _ => closing

end Slots

end Myio.Uv.Io
