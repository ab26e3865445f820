import Myio.Uv.Slots

/-! The stages of a connect, and the socket that only the connect knows until it has won it. -/

namespace Myio.Uv.Io

open Function (update)

variable {p : Prop} {io io' : Io} {t u : TaskId} {s c : SockId} {k : Task}

/-- A request is with libuv's thread pool, or on its way back from there. -/
def Req.onPool (r : Req) : Bool := r = .queued || r = .working || r = .canceled

/-- A connect that is not done. -/
def Connecting (io : Io) (t : TaskId) : Prop := (io.task t).kind = .connect ∧ (io.task t).done = false

/-- A socket that no caller, no task and no listener knows. -/
structure Hidden (io : Io) (t : TaskId) (s : SockId) : Prop where
  claimed : io.claimed s = false
  others : ∀ u, u ≠ t → (io.task u).sock ≠ some s
  won : ∀ u, (io.task u).res.ptr ≠ some s
  parked : ∀ l, s ∉ (io.sock l).pending

/-- The books of the connects. -/
structure Connects (io : Io) : Prop where
  /-- A connect is in its lookup, or in its handshake with its socket there. -/
  stage : ∀ t, io.Connecting t → ∃ s, (io.task t).sock = some s ∧
    ((io.task t).connecting = false ∧ Req.onPool (io.task t).req = true ∨
      (io.task t).connecting = true ∧ (io.task t).req = .onHandle ∧ (io.sock s).frees = 0)
  hidden : ∀ t s, io.Connecting t → (io.task t).sock = some s → io.Hidden t s
  pool : ∀ t, Req.onPool (io.task t).req = true → (io.task t).kind = .fs ∨ (io.task t).kind = .spawn ∨
    (io.task t).kind = .connect ∧ (io.task t).connecting = false
  handle : ∀ t, (io.task t).req = .onHandle → (io.task t).kind = .sockWrite ∨
    (io.task t).kind = .connect ∧ (io.task t).connecting = true

namespace Connects

theorem new : Connects Io.new := by
  constructor <;> simp [Io.new, Connecting, Req.onPool]

/-- A change that leaves the connects and the names of sockets alone. -/
theorem same (connects : Connects io)
    (task : ∀ t, (io'.task t).kind = (io.task t).kind ∧ (io'.task t).done = (io.task t).done ∧
      (io'.task t).res.ptr = (io.task t).res.ptr ∧ (io'.task t).sock = (io.task t).sock ∧
      (io'.task t).req = (io.task t).req ∧ (io'.task t).connecting = (io.task t).connecting)
    (claimed : ∀ t s, io.Connecting t → (io.task t).sock = some s → io'.claimed s = false)
    (frees : ∀ t s, io.Connecting t → (io.task t).sock = some s → (io.task t).req = .onHandle →
      (io.sock s).frees = 0 → (io'.sock s).frees = 0)
    (parked : ∀ t s, io.Connecting t → (io.task t).sock = some s → ∀ l, s ∉ (io'.sock l).pending) :
    Connects io' := by
  have alike : ∀ t, io'.Connecting t ↔ io.Connecting t := fun t => by
    unfold Connecting; rw [(task t).1, (task t).2.1]
  constructor
  case stage =>
    intro t connecting
    rw [alike] at connecting
    obtain ⟨s, on, stage⟩ := connects.stage t connecting
    obtain ⟨_, _, _, sameSock, sameReq, sameStage⟩ := task t
    rw [sameSock, sameReq, sameStage]
    refine ⟨s, on, stage.imp id ?_⟩
    rintro ⟨isConnecting, req, live⟩
    exact ⟨isConnecting, req, frees t s connecting on req live⟩
  case hidden =>
    intro t s connecting on
    rw [alike] at connecting
    rw [(task t).2.2.2.1] at on
    have hidden := connects.hidden t s connecting on
    refine ⟨claimed t s connecting on, fun u other => ?_, fun u => ?_, parked t s connecting on⟩
    · rw [(task u).2.2.2.1]; exact hidden.others u other
    · rw [(task u).2.2.1]; exact hidden.won u
  case pool => intro t; rw [(task t).1, (task t).2.2.2.2.1, (task t).2.2.2.2.2]; exact connects.pool t
  case handle => intro t; rw [(task t).1, (task t).2.2.2.2.1, (task t).2.2.2.2.2]; exact connects.handle t

/-- The books of one socket change, but nothing a connect relies on. -/
theorem modSock (connects : Connects io) {f : Sock → Sock}
    (frees : (f (io.sock s)).frees = (io.sock s).frees)
    (parked : ∀ c, c ∈ (f (io.sock s)).pending →
      c ∈ (io.sock s).pending ∨ ∀ t, io.Connecting t → (io.task t).sock ≠ some c) :
    Connects (io.modSock s f) := by
  refine connects.same (fun _ => ⟨rfl, rfl, rfl, rfl, rfl, rfl⟩)
    (fun t c connecting on => (connects.hidden t c connecting on).claimed) (fun t c _ _ _ live => ?_)
    fun t c connecting on l => ?_
  · rw [modSock_sock]
    split
    · rename_i isS; subst isS; exact frees.trans live
    · exact live
  · have hidden := (connects.hidden t c connecting on).parked
    rw [modSock_sock]
    split
    · exact fun member => (parked c member).elim (hidden s) fun other => other t connecting on
    · exact hidden l

/-- A task is made that is no connect. -/
theorem taskNew (connects : Connects io) (slots : Slots io) (kind : k.kind ≠ .connect)
    (req : k.req = .none) (on : ∀ s, k.sock = some s → io.claimed s = true)
    (won : ∀ c, k.res.ptr = some c → ∃ l, c ∈ (io.sock l).pending) : Connects (io.taskNew k) := by
  have unmade := slots.unmade io.ntask (Nat.le_refl _)
  have old : ∀ {t}, (io.taskNew k).Connecting t → t ≠ io.ntask ∧ io.Connecting t := by
    rintro t ⟨isConnect, before⟩
    rw [taskNew_task] at isConnect before
    split at isConnect
    · exact absurd isConnect kind
    · rename_i other; rw [if_neg other] at before; exact ⟨other, isConnect, before⟩
  constructor
  case stage =>
    intro t connecting
    obtain ⟨other, before⟩ := old connecting
    rw [taskNew_task, if_neg other]
    exact connects.stage t before
  case hidden =>
    intro t s connecting isOn
    obtain ⟨other, before⟩ := old connecting
    rw [taskNew_task, if_neg other] at isOn
    have hidden := connects.hidden t s before isOn
    refine ⟨hidden.claimed, fun u apart => ?_, fun u => ?_, hidden.parked⟩
    · rw [taskNew_task]
      split
      · exact fun isOn' => by simpa [hidden.claimed] using on s isOn'
      · exact hidden.others u apart
    · rw [taskNew_task]
      split
      · rintro isWon
        obtain ⟨l, parked⟩ := won s isWon
        exact hidden.parked l parked
      · exact hidden.won u
  case pool =>
    intro t
    rw [taskNew_task]
    split
    · rw [req]; intro some; cases some
    · exact connects.pool t
  case handle =>
    intro t
    rw [taskNew_task]
    split
    · rw [req]; intro some; cases some
    · exact connects.handle t

/-- A task goes on or ends; a connect that goes on stays in a stage. -/
theorem setTask (connects : Connects io) (kind : k.kind = (io.task t).kind)
    (sock : k.sock = (io.task t).sock ∨ k.sock = none)
    (goes : k.kind = .connect → k.done = false → (io.task t).done = false ∧
      ∃ s, (io.task t).sock = some s ∧ k.sock = some s ∧ (k.connecting = false ∧ Req.onPool k.req = true ∨
        k.connecting = true ∧ k.req = .onHandle ∧ (io.sock s).frees = 0))
    (won : ∀ c, k.res.ptr = some c → (io.task t).res.ptr = some c ∨
      (k.kind = .connect → k.done = true) ∧ ∀ u, u ≠ t → io.Connecting u → (io.task u).sock ≠ some c)
    (pool : Req.onPool k.req = true → k.kind = .fs ∨ k.kind = .spawn ∨
      k.kind = .connect ∧ k.connecting = false)
    (handle : k.req = .onHandle → k.kind = .sockWrite ∨ k.kind = .connect ∧ k.connecting = true) :
    Connects (io.setTask t k) := by
  have before : ∀ {u}, (io.setTask t k).Connecting u → io.Connecting u := by
    rintro u ⟨isConnect, undone⟩
    rw [setTask_task] at isConnect undone
    split at isConnect
    · rename_i isT
      rw [if_pos isT] at undone
      subst isT
      exact ⟨kind ▸ isConnect, (goes isConnect undone).1⟩
    · rename_i other; rw [if_neg other] at undone; exact ⟨isConnect, undone⟩
  have sameSock : ∀ {u c}, ((io.setTask t k).task u).sock = some c → (io.task u).sock = some c := by
    intro u c
    rw [setTask_task]
    split
    · rename_i isT
      subst isT
      rcases sock with same | none
      · rw [same]; exact id
      · rw [none]; intro some; cases some
    · exact id
  constructor
  case stage =>
    rintro u connecting
    by_cases isT : u = t
    · subst isT
      obtain ⟨isConnect, undone⟩ := connecting
      rw [setTask_task, if_pos rfl] at isConnect undone
      obtain ⟨_, s, _, on, stage⟩ := goes isConnect undone
      rw [setTask_task, if_pos rfl]
      exact ⟨s, on, stage⟩
    · rw [setTask_task, if_neg isT]
      exact connects.stage u (before connecting)
  case hidden =>
    intro u s connecting on
    have hidden := connects.hidden u s (before connecting) (sameSock on)
    refine ⟨hidden.claimed, fun v apart isOn => hidden.others v apart (sameSock isOn), fun v => ?_,
      hidden.parked⟩
    rw [setTask_task]
    split
    · rename_i isT
      subst isT
      intro isWon
      rcases won s isWon with old | ⟨ended, others⟩
      · exact hidden.won v old
      · -- The task that wins the socket is not another connect, nor a connect that goes on.
        by_cases isU : u = v
        · subst isU
          obtain ⟨isConnect, undone⟩ := connecting
          rw [setTask_task, if_pos rfl] at isConnect undone
          rw [ended isConnect] at undone
          cases undone
        · exact others u isU (before connecting) (sameSock on)
    · exact hidden.won v
  case pool =>
    intro u
    rw [setTask_task]
    split
    · exact pool
    · exact connects.pool u
  case handle =>
    intro u
    rw [setTask_task]
    split
    · exact handle
    · exact connects.handle u

/-- A task of another kind goes on or ends. -/
theorem setOther (connects : Connects io) (apart : (io.task t).kind ≠ .connect)
    (kind : k.kind = (io.task t).kind) (sock : k.sock = (io.task t).sock)
    (won : ∀ c, k.res.ptr = some c → (io.task t).res.ptr = some c ∨
      ∀ u, io.Connecting u → (io.task u).sock ≠ some c)
    (pool : Req.onPool k.req = true → k.kind = .fs ∨ k.kind = .spawn)
    (handle : k.req = .onHandle → k.kind = .sockWrite) : Connects (io.setTask t k) := by
  refine connects.setTask kind (.inl sock) (fun isConnect => absurd (kind.symm.trans isConnect) apart)
    (fun c isWon => (won c isWon).imp id fun others =>
      ⟨fun isConnect => absurd (kind.symm.trans isConnect) apart, fun u _ => others u⟩)
    (fun some => (pool some).imp id .inl) fun some => .inl (handle some)

theorem uvClose (connects : Connects io) (s : SockId) : Connects (io.uvClose s) := by
  refine connects.same (fun t => ?_)
    (fun t c connecting on => (connects.hidden t c connecting on).claimed) (fun t c _ _ _ live => ?_)
    fun t c connecting on l => ?_
  · simp only [Io.uvClose]
    split <;> exact ⟨rfl, rfl, rfl, rfl, rfl, rfl⟩
  · simp only [Io.uvClose, modSock_sock]
    split
    · rename_i isS; subst isS; exact live
    · exact live
  · have hidden := (connects.hidden t c connecting on).parked
    simp only [Io.uvClose, modSock_sock]
    split
    · exact hidden s
    · exact hidden l

theorem sockDestroy (connects : Connects io) (s : SockId) : Connects (io.sockDestroy s) := by
  unfold Io.sockDestroy
  split
  · exact connects
  · exact connects.uvClose s

theorem shut (connects : Connects io) (s : SockId) : Connects (io.shut s) := by
  refine connects.same (fun t => ?_)
    (fun t c connecting on => (connects.hidden t c connecting on).claimed) (fun t c _ _ _ live => ?_)
    fun t c connecting on l => ?_
  · simp only [Io.shut]
    split <;> exact ⟨rfl, rfl, rfl, rfl, rfl, rfl⟩
  · simp only [Io.shut]
    split <;> split <;> simp_all
  · have hidden := (connects.hidden t c connecting on).parked l
    simp only [Io.shut]
    split <;> split <;> simp_all

/-- A socket is made that no connect has. -/
theorem sockNew (connects : Connects io) (slots : Slots io) : Connects io.sockNew := by
  have unopened := slots.unopened io.nsock (Nat.le_refl _)
  have sock : ∀ c, io.sockNew.sock c = io.sock c := fun c => by
    rw [sockNew_sock]
    split
    · rename_i isNew; rw [isNew, unopened]
    · rfl
  refine connects.same (fun _ => ⟨rfl, rfl, rfl, rfl, rfl, rfl⟩)
    (fun t c connecting on => (connects.hidden t c connecting on).claimed) (fun t c _ _ _ live => ?_)
    fun t c connecting on l => ?_
  · rw [sock]; exact live
  · rw [sock]; exact (connects.hidden t c connecting on).parked l

/-- A connect is made on a socket that nobody knows. -/
theorem taskConnect (connects : Connects io) (hidden : io.Hidden io.ntask s) :
    Connects (io.taskNew { kind := .connect, sock := some s, req := .queued }) := by
  have old : ∀ {t}, t ≠ io.ntask →
      (io.taskNew { kind := .connect, sock := some s, req := .queued }).Connecting t → io.Connecting t := by
    intro t other connecting
    unfold Connecting at connecting
    rw [taskNew_task, if_neg other] at connecting
    exact connecting
  constructor
  case stage =>
    intro t connecting
    rw [taskNew_task]
    split
    · exact ⟨s, rfl, .inl ⟨rfl, rfl⟩⟩
    · rename_i other; exact connects.stage t (old other connecting)
  case hidden =>
    intro t c connecting on
    rw [taskNew_task] at on
    split at on
    · rename_i isNew
      obtain rfl : s = c := Option.some.inj on
      subst isNew
      refine ⟨hidden.claimed, fun u other => ?_, fun u => ?_, hidden.parked⟩
      · rw [taskNew_task, if_neg other]; exact hidden.others u other
      · rw [taskNew_task]
        split
        · simp
        · exact hidden.won u
    · rename_i other
      have before := connects.hidden t c (old other connecting) on
      refine ⟨before.claimed, fun u apart => ?_, fun u => ?_, before.parked⟩
      · rw [taskNew_task]
        split
        · -- The new connect's socket is not that of the older one.
          rintro same
          obtain rfl : s = c := Option.some.inj same
          exact hidden.others t other on
        · exact before.others u apart
      · rw [taskNew_task]
        split
        · simp
        · exact before.won u
  case pool =>
    intro t
    rw [taskNew_task]
    split
    · exact fun _ => .inr (.inr ⟨rfl, rfl⟩)
    · exact connects.pool t
  case handle =>
    intro t
    rw [taskNew_task]
    split
    · intro some; cases some
    · exact connects.handle t

/-- A socket just made is known to nobody. -/
theorem hidden_new (slots : Slots io) (t : TaskId) : io.sockNew.Hidden t io.nsock := by
  have self : ∀ {c : SockId}, c < io.nsock → c = io.nsock → False := fun less same =>
    absurd same (Nat.ne_of_lt less)
  refine ⟨?_, fun u _ on => self (slots.on u _ on) rfl, fun u won => self (slots.won u _ won) rfl,
    fun l parked => ?_⟩
  · cases isClaimed : io.claimed io.nsock with
    | false => exact isClaimed
    | true => exact (self (slots.claimed _ isClaimed) rfl).elim
  · rw [sockNew_sock] at parked
    split at parked
    · cases parked
    · exact self (slots.parked l _ parked) rfl

theorem aside (connects : Connects io) (aside : Aside io io') : Connects io' := by
  have unclaimed : ∀ {s}, io.claimed s = false → io'.claimed s = false := by
    intro s isFree
    cases isClaimed : io'.claimed s with
    | false => rfl
    | true => rw [aside.claimed s isClaimed] at isFree; cases isFree
  refine connects.same (fun t => ?_)
    (fun t s connecting on => unclaimed (connects.hidden t s connecting on).claimed)
    (fun t s _ _ _ live => ?_) fun t s connecting on l => ?_
  · obtain ⟨kind, done, res, sock, stage, req, _, _⟩ := aside.task t
    exact ⟨kind, done, by rw [res], sock, req, stage⟩
  · rw [aside.sock]; exact live
  · rw [aside.sock]; exact (connects.hidden t s connecting on).parked l

/-- Every move keeps the books of the connects. -/
theorem move (connects : Connects io) (slots : Slots io) (move : Move p io io') : Connects io' := by
  have claimed : ∀ t s, io.Connecting t → (io.task t).sock = some s → io.claimed s = false :=
    fun t s connecting on => (connects.hidden t s connecting on).claimed
  have unparked : ∀ {s c}, c ∈ (io.sock s).pending → ∀ t, io.Connecting t → (io.task t).sock ≠ some c :=
    fun {s c} parked t connecting on => (connects.hidden t c connecting on).parked s parked
  cases move with
  | aside change => exact connects.aside change
  | make k fresh kind given =>
    exact connects.taskNew slots kind.1 fresh.req given (by simp [fresh.res])
  | failed kind err notConnect => exact connects.taskNew slots notConnect rfl (by simp) (by simp)
  | claim t s won =>
    refine connects.same (fun _ => ⟨rfl, rfl, rfl, rfl, rfl, rfl⟩) (fun u c connecting on => ?_)
      (fun _ _ _ _ _ => id) fun u c connecting on => (connects.hidden u c connecting on).parked
    have hidden := connects.hidden u c connecting on
    have other : c ≠ s := by rintro rfl; exact hidden.won t won
    simpa [other] using hidden.claimed
  | bare => exact connects.sockNew slots
  | listen =>
    have made := (connects.sockNew slots).modSock (s := io.nsock) (f := ({ · with listening := true }))
      rfl fun c parked => .inl parked
    refine made.same (fun _ => ⟨rfl, rfl, rfl, rfl, rfl, rfl⟩) (fun u c connecting on => ?_)
      (fun _ _ _ _ _ => id) fun u c connecting on => (made.hidden u c connecting on).parked
    have old : c ≠ io.nsock := Nat.ne_of_lt (slots.on u c on)
    simpa [old] using claimed u c connecting on
  | lookup => exact (connects.sockNew slots).taskConnect (hidden_new slots io.ntask)
  | waitRead s k fresh kind on given free =>
    have made := connects.taskNew slots (by simp [kind]) fresh.req
      (fun c isOn => by rw [on] at isOn; cases isOn; exact given) (by simp [fresh.res])
    exact made.modSock rfl fun c parked => .inl parked
  | waitAccept s given free empty =>
    have made := connects.taskNew slots (k := { kind := .accept, sock := some s }) (by simp) rfl
      (fun c isOn => by cases isOn; exact given) (by simp)
    exact made.modSock rfl fun c parked => .inl parked
  | serve s c rest k ended given free parked =>
    have made := connects.taskNew slots (k := k) (by simp [ended.kind]) ended.req
      (fun d isOn => by rw [ended.sock] at isOn; cases isOn; exact given)
      (fun d isWon => by rw [ended.ptr] at isWon; cases isWon; exact ⟨s, by simp [parked]⟩)
    refine made.modSock rfl fun d isParked => .inl ?_
    change d ∈ (io.sock s).pending
    rw [parked]
    exact List.mem_cons_of_mem _ isParked
  | request t req made before kind unstopped =>
    have apart : (io.task t).kind ≠ .connect := by
      rcases kind with ⟨kind | kind, _⟩ | ⟨kind, _⟩ <;> simp [kind]
    refine connects.setOther apart rfl rfl (fun c => .inl) (fun some => ?_) fun some => ?_
    · rcases kind with ⟨kind, _⟩ | ⟨_, rfl⟩
      · exact kind
      · cases some
    · rcases kind with ⟨_, rfl⟩ | ⟨kind, _⟩
      · cases some
      · exact kind
  | tick t made before kind =>
    refine connects.setOther (by simp [kind]) rfl rfl (fun c => .inl) (fun some => ?_) fun some => ?_
    · have := connects.pool t some; simp [kind] at this
    · have := connects.handle t some; simp [kind] at this
  | start t queued =>
    have before := slots.req t (by simp [queued])
    have pool := connects.pool t (by simp [queued, Req.onPool])
    refine connects.setTask rfl (.inl rfl) (fun isConnect _ => ⟨before, ?_⟩) (fun c => .inl)
      (fun _ => pool) (by simp)
    obtain ⟨s, on, _⟩ := connects.stage t ⟨isConnect, before⟩
    have stage : (io.task t).connecting = false := by
      rcases pool with kind | kind | ⟨_, stage⟩
      · exact absurd (kind.symm.trans isConnect) (by simp)
      · exact absurd (kind.symm.trans isConnect) (by simp)
      · exact stage
    exact ⟨s, on, on, .inl ⟨stage, rfl⟩⟩
  | take t queued allowed =>
    have before := slots.req t (by simp [queued])
    have pool := connects.pool t (by simp [queued, Req.onPool])
    refine connects.setTask rfl (.inl rfl) (fun isConnect _ => ⟨before, ?_⟩) (fun c => .inl)
      (fun _ => pool) (by simp)
    obtain ⟨s, on, _⟩ := connects.stage t ⟨isConnect, before⟩
    have stage : (io.task t).connecting = false := by
      rcases pool with kind | kind | ⟨_, stage⟩
      · exact absurd (kind.symm.trans isConnect) (by simp)
      · exact absurd (kind.symm.trans isConnect) (by simp)
      · exact stage
    exact ⟨s, on, on, .inl ⟨stage, rfl⟩⟩
  | shake t s kind working on alive =>
    have before := slots.req t (by simp [working])
    refine connects.setTask rfl (.inl rfl) (fun _ _ => ⟨before, s, on, on, .inr ⟨rfl, rfl, ?_⟩⟩)
      (fun c => .inl) (by simp [Req.onPool]) fun _ => .inr ⟨kind, rfl⟩
    -- What is not closing has not been freed.
    by_contra freed
    rw [slots.gone s freed] at alive
    cases alive
  | closeSlot s t inside kind => exact connects.modSock rfl fun c parked => .inl parked
  | ends t k made ended kind closes =>
    exact connects.setOther kind.1 ended.kind ended.sock (by simp [ended.ptr])
      (by simp [ended.req, Req.onPool]) (by simp [ended.req])
  | leaveRead s t k named ended =>
    obtain ⟨kind, _, _⟩ := (slots.read s t).mp named
    have left := connects.setOther (by simp [kind]) ended.kind ended.sock (by simp [ended.ptr])
      (by simp [ended.req, Req.onPool]) (by simp [ended.req])
    exact left.modSock rfl fun c parked => .inl parked
  | leaveAccept s t k named ended =>
    obtain ⟨kind, _, _⟩ := (slots.accept s t).mp named
    have left := connects.setOther (by simp [kind]) ended.kind ended.sock (by simp [ended.ptr])
      (by simp [ended.req, Req.onPool]) (by simp [ended.req])
    exact left.modSock rfl fun c parked => .inl parked
  | connected t s k kind before on ended =>
    have hidden := connects.hidden t s ⟨kind, before⟩ on
    refine connects.setTask ended.kind (.inl ended.sock) (by simp [ended.done]) (fun c isWon => .inr ?_)
      (by simp [ended.req, Req.onPool]) (by simp [ended.req])
    rw [ended.ptr] at isWon
    cases isWon
    exact ⟨fun _ => ended.done, fun u other _ => hidden.others u other⟩
  | connectEnds t k kind before ended sock ptr truth =>
    exact connects.setTask ended.kind (.inr sock) (by simp [ended.done]) (by simp [ptr])
      (by simp [ended.req, Req.onPool]) (by simp [ended.req])
  | close s inside allowed => exact connects.sockDestroy s
  | shut s inside given => exact connects.shut s
  | arriveHand s t k listens named ended =>
    obtain ⟨kind, _, on⟩ := (slots.accept s t).mp named
    have old : s ≠ io.nsock := Nat.ne_of_lt (slots.on t s on)
    have handed := (connects.sockNew slots).setOther (t := t) (k := k) (by simp [kind]) ended.kind
      ended.sock (fun c isWon => .inr fun u _ isOn => ?_) (by simp [ended.req, Req.onPool])
      (by simp [ended.req])
    · exact handed.modSock rfl fun c parked => .inl parked
    · rw [ended.ptr] at isWon
      cases isWon
      exact absurd (slots.on u _ isOn) (Nat.lt_irrefl _)
  | arrivePark s listens free =>
    refine (connects.sockNew slots).modSock rfl fun c parked => ?_
    simp only [List.mem_append, List.mem_singleton] at parked
    refine parked.imp id ?_
    rintro rfl u _ isOn
    exact absurd (slots.on u _ isOn) (Nat.lt_irrefl _)
  | closed s inside closing quiet =>
    refine connects.same (fun _ => ⟨rfl, rfl, rfl, rfl, rfl, rfl⟩) claimed (fun t c connecting on req live => ?_)
      fun t c connecting on l => ?_
    · -- A socket with a handshake on it is not freed.
      have made : t < io.ntask := slots.requested (by simp [req])
      have apart : c ≠ s := by
        rintro rfl
        have quiet := List.all_eq_true.mp quiet t (List.mem_range.mpr made)
        simp [req, on] at quiet
      rw [modSock_sock, if_neg apart]
      exact live
    · have hidden := (connects.hidden t c connecting on).parked
      rw [modSock_sock]
      split
      · exact hidden s
      · exact hidden l

end Connects

end Myio.Uv.Io
