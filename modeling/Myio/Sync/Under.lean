import Myio.Sync.Results

/-! The one operation of a joining program that is under way on the pool. -/

namespace Myio

open Core

/-- What the phase of a worker says about how its task will end. -/
def Outcome.Fits (o : Outcome) (sends : List SendOs) (k : Task) : Phase → Prop
  | .entry => sends = o.sends
  | .sending off => sendEnd k.buf.length off sends = sendEnd k.buf.length 0 o.sends
  | .commit res none => some res.seen = o.ends k.kind k.buf
  | .commit _ (some _) => some o.won = o.ends k.kind k.buf
  | _ => True

/-- The task of the operation under way, while it is not done. -/
structure Pool.Busy (p : Pool) (o : Outcome) (sends : List SendOs) (t : TaskId) : Prop where
  kind : (p.task t).kind ≠ .opSockClose
  cancelReq : (p.task t).cancelReq = false
  open_ : ∀ s, (p.task t).sock = some s → (p.sock s).closing = false
  unsent : (p.task t).started = false → sends = o.sends
  fits : ∀ w phase, p.At w t phase → o.Fits sends (p.task t) phase

/-- The last task is the one under way, and every other one is done. -/
structure Pool.Under (p : Pool) (o : Outcome) (sends : List SendOs) (t : TaskId) : Prop where
  last : t + 1 = p.ntask
  others : ∀ u, u < t → (p.task u).done = true
  ended : (p.task t).done = true → some (p.task t).res.seen = o.ends (p.task t).kind (p.task t).buf
  busy : (p.task t).done = false → p.Busy o sends t

namespace Pool

variable {o : Outcome} {sends sends' : List SendOs} {os : Os} {p p' : Pool} {t u : TaskId}
  {w v : WorkerId} {act : Act} {phase : Phase}

/-- A task that is pending is the operation under way. -/
theorem Under.pending (under : p.Under o sends t) (pending : p.Pending (fun _ => false) u) :
    u = t ∧ (p.task t).done = false := by
  obtain ⟨below, isOpen, _⟩ := pending
  have less : u < t + 1 := by rw [under.last]; exact below
  rcases Nat.lt_succ_iff_lt_or_eq.mp less with earlier | rfl
  · rw [under.others u earlier] at isOpen
    cases isOpen
  · exact ⟨rfl, isOpen⟩

/-- A worker at work is at work on the operation under way, and no other worker is. -/
theorem Under.mine (under : p.Under o sends t) (sound : Sound p.rest) (runs : p.Runs w u) :
    u = t ∧ (p.task t).done = false := by
  exact under.pending (sound.placed.run_pending w u runs).1

/-- What a change that completes nothing keeps of the operation under way. -/
theorem Under.later (under : p.Under o sends t) (later : Later p.toCore p'.toCore)
    (ntask : p'.ntask = p.ntask) (done : (p'.task t).done = (p.task t).done)
    (busy : (p.task t).done = false → p'.Busy o sends' t) : p'.Under o sends' t := by
  have inside : t < p.ntask := by rw [← under.last]; exact Nat.lt_succ_self t
  constructor
  case last => rw [ntask]; exact under.last
  case others =>
    intro u less
    exact (later.done u (Nat.lt_trans less inside) (under.others u less)).1
  case ended =>
    intro ended
    rw [done] at ended
    obtain ⟨kind, _, buf⟩ := later.args t inside
    rw [(later.done t inside ended).2, kind, buf]
    exact under.ended ended
  case busy =>
    intro isOpen
    rw [done] at isOpen
    exact busy isOpen

/-- The operation under way is as it was, and no worker has come to another phase of it. -/
theorem Busy.same (busy : p.Busy o sends t) (task : p'.task t = p.task t)
    (closing : ∀ s, (p'.sock s).closing = (p.sock s).closing)
    (at_ : ∀ v phase, p'.At v t phase → p.At v t phase) : p'.Busy o sends t where
  kind := by rw [task]; exact busy.kind
  cancelReq := by rw [task]; exact busy.cancelReq
  open_ s := by rw [task, closing]; exact busy.open_ s
  unsent := by rw [task]; exact busy.unsent
  fits v phase there := by rw [task]; exact busy.fits v phase (at_ v phase there)

/-- A worker takes the lock in `worker_main`: it takes the one task there is, sleeps or retires. -/
theorem Under.main {q : Pool} {timedout : Bool} (under : p.Under o sends t) (sound : Sound p.rest)
    (core : q.toCore = p.toCore) (later : Later p.toCore (q.workerMain w timedout).toCore) :
    (q.workerMain w timedout).Under o sends t := by
  -- A worker that goes to sleep or retires has no task.
  have leaves : ∀ (r : Pool) (pc : Pc), pc.task? = none → r.toCore = p.toCore.setPc w pc →
      Later p.toCore r.toCore → r.Under o sends t := by
    intro r pc none core later
    refine under.later later (by rw [core]; rfl) (by rw [core]; rfl) fun isOpen => ?_
    refine (under.busy isOpen).same (by rw [core]; rfl) (fun s => by rw [core]; rfl)
      fun v phase there => ?_
    rw [core] at there
    obtain ⟨inside, pc'⟩ := there
    refine ⟨inside, ?_⟩
    simp only [setPc, modWorker, Function.update_apply] at pc'
    split at pc'
    · rw [show pc = .running t phase from pc'] at none
      cases none
    · exact pc'
  revert later
  unfold workerMain
  split
  · rename_i u rest queue
    intro later
    rw [core] at queue
    have queued : u ∈ p.queue := by rw [queue]; exact List.mem_cons_self
    obtain ⟨pending, unstarted⟩ := sound.placed.queue_pending u queued
    obtain ⟨rfl, isOpen⟩ := under.pending pending
    have task : ∀ v, (q.take w u).task v =
        if v = u then { p.task u with started := true, worker := some w } else p.task v := by
      intro v
      simp only [take, Pool.on, setPc, modWorker, modTask, Function.update_apply, core]
    have done : ((q.take w u).task u).done = (p.task u).done := by rw [task, if_pos rfl]
    refine under.later later (by simp [take, Pool.on, setPc, modWorker, modTask, core]) done fun _ => ?_
    have busy := under.busy isOpen
    constructor
    case kind => rw [task, if_pos rfl]; exact busy.kind
    case cancelReq => rw [task, if_pos rfl]; exact busy.cancelReq
    case open_ =>
      intro s sock
      rw [task, if_pos rfl] at sock
      have := busy.open_ s sock
      rw [← core] at this
      exact this
    case unsent => intro fresh; rw [task, if_pos rfl] at fresh; cases fresh
    case fits =>
      intro v phase there
      by_cases isW : v = w
      · subst isW
        have entry : phase = .entry := by
          have := there.2
          simp [take, Pool.on, setPc, modWorker] at this
          exact this.symm
        rw [entry]
        exact busy.unsent unstarted
      · -- No other worker runs a task that was queued.
        have runs : p.Runs v u := by
          obtain ⟨inside, pc⟩ := there
          simp only [take, Pool.on, setPc, modWorker, modTask, Function.update_apply, if_neg isW, core]
            at inside pc
          exact ⟨inside, by rw [pc]; rfl⟩
        have started := (sound.placed.run_pending v u runs).2
        rw [unstarted] at started
        cases started
  · split
    · intro later
      exact leaves _ .retired rfl (by simp [retire, Pool.on, core]) later
    · intro later
      exact leaves _ .asleep rfl (by simp [Pool.on, core]) later

/-! ### A worker gets on with the operation -/

/-- What a phase says depends on two arguments of the task. -/
theorem Fits.congr {k k' : Task} (kind : k'.kind = k.kind) (buf : k'.buf = k.buf)
    (fits : o.Fits sends k phase) : o.Fits sends k' phase := by
  cases phase with
  | sending off => unfold Outcome.Fits at *; rw [buf]; exact fits
  | commit res newfd => cases newfd <;> (unfold Outcome.Fits at *; rw [kind, buf]; exact fits)
  | _ => exact fits

/-- A worker comes to the next phase of the operation under way. -/
theorem Under.works {next : Phase} (under : p.Under o sends t) (sound : Sound p.rest)
    (isAt : p.At w t phase) (works : Works w t p.toCore p'.toCore)
    (later : Later p.toCore p'.toCore) (closing : ∀ s, (p'.sock s).closing = (p.sock s).closing)
    (pc : (p'.worker w).pc = .running t next) (fits : o.Fits sends' (p.task t) next) :
    p'.Under o sends' t := by
  obtain ⟨-, isOpen⟩ := under.mine sound isAt.runs
  have busy := under.busy isOpen
  have ntask : p'.ntask = p.ntask := by rw [works.rest]
  have nworker : p'.nworker = p.nworker := by rw [works.rest]
  have task := works.task t
  refine under.later later ntask (by rw [task]) fun _ => ?_
  have started : (p.task t).started = true := (sound.placed.run_pending w t isAt.runs).2
  constructor
  case kind => rw [task]; exact busy.kind
  case cancelReq => rw [task]; exact busy.cancelReq
  case open_ => intro s; rw [task, closing]; exact busy.open_ s
  case unsent =>
    intro fresh
    rw [task] at fresh
    rw [show (p.task t).started = false from fresh] at started
    cases started
  case fits =>
    intro v phase' there
    by_cases same : v = w
    · -- The worker that moved.
      rw [same] at there
      obtain rfl : next = phase' := by
        have := pc.symm.trans there.2
        simpa using this
      exact Fits.congr (by rw [task]) (by rw [task]) fits
    · -- There is no other worker at work.
      obtain ⟨inside, pc'⟩ := there
      rw [works.others v same] at pc'
      have runs : p.Runs v t := ⟨by rw [← nworker]; exact inside, by rw [pc']; rfl⟩
      exact absurd (sound.placed.run_inj v w t runs isAt.runs) same

/-- A dispatch moves no socket. -/
theorem dispatchLocked_sock (p : Pool) (t : TaskId) : (p.dispatchLocked t).1.sock = p.sock := by
  unfold dispatchLocked spawnThread
  dsimp only
  split
  · rfl
  · by_cases created : (p.on (·.queuePush t)).os.create (p.on (·.queuePush t)).tick = true
    · rw [if_pos created]; rfl
    · rw [if_neg created]
      change ((p.queuePush t).queueRemove t).sock = p.sock
      rw [queueRemove_rest]
      rfl

/-- The loop of `write_advance` closes no socket. -/
theorem promote_closing (s : SockId) (l : List TaskId) : ∀ (p : Pool) (u : SockId),
    ((promote p s l).sock u).closing = (p.sock u).closing := by
  induction l with
  | nil => intro p u; rfl
  | cons n rest ih =>
    intro p u
    have sock := dispatchLocked_sock p n
    unfold promote
    rcases dispatched : p.dispatchLocked n with ⟨q, _ | _⟩ <;> rw [dispatched] at sock
    · dsimp only
      rw [ih, on_toCore, failHead_eq]
      simp only [modTask, modSock, Function.update_apply]
      rw [show q.sock = p.sock from sock]
      split
      · rename_i same; rw [same]
      · rfl
    · exact congrArg Sock.closing (congrFun sock u)

/-- A task that leaves its socket does not close it. -/
theorem leave_closing (p : Pool) (t : TaskId) (u : SockId) :
    ((p.leave t).sock u).closing = (p.sock u).closing := by
  have left : ((p.on (·.leaveSock t)).sock u).closing = (p.sock u).closing := by
    rw [on_toCore, leaveSock_sock]
  rw [leave_eq]
  split
  · unfold handOn
    split
    · exact left
    · rw [promote_closing]; exact left
  · exact left

/-- The end of a commit stores the result. -/
theorem complete_task (p : Pool) (t : TaskId) (res : Result) :
    ((p.complete t res).task t).done = true ∧ ((p.complete t res).task t).res = res := by
  unfold complete reapIfDetached reap
  dsimp only [Pool.on]
  split
  · split <;> simp [sockDiscard, sockUnlink, sockFree, closeDesc, modDesc, modSock, taskFreeMem, finish,
      modTask]
  · simp [finish, modTask]

/-- What wrapping leaves alone. -/
theorem wrapWon_frame (p : Pool) (res : Result) (newfd : Option Fd) (linked : Bool) :
    (p.wrapWon res newfd linked).1.task = p.task ∧ (p.wrapWon res newfd linked).1.ntask = p.ntask ∧
      ∀ s, s < p.nsock → (p.wrapWon res newfd linked).1.sock s = p.sock s := by
  unfold wrapWon
  split
  · exact ⟨rfl, rfl, fun _ _ => rfl⟩
  · split
    · refine ⟨rfl, rfl, fun s inside => ?_⟩
      simp [Pool.on, sockLink, Nat.ne_of_lt inside]
    · exact ⟨rfl, rfl, fun _ _ => rfl⟩

/-- The commit of the operation under way stores what the worker has brought. -/
theorem Under.commit {res : Result} {newfd : Option Fd} {linked : Bool} (under : p.Under o sends t)
    (sound : Sound p.rest) (isAt : p.At w t (.commit res newfd)) (memory : linked = o.memSock)
    (later : Later p.toCore (p.workerCommit w t res newfd linked).toCore)
    (ntask : (p.workerCommit w t res newfd linked).ntask = p.ntask) :
    (p.workerCommit w t res newfd linked).Under o sends t ∧
      ((p.workerCommit w t res newfd linked).task t).done = true := by
  obtain ⟨-, isOpen⟩ := under.mine sound isAt.runs
  have busy := under.busy isOpen
  have inside : t < p.ntask := by rw [← under.last]; exact Nat.lt_succ_self t
  obtain ⟨task, -, sock⟩ := wrapWon_frame (p.on (·.setPc w .ready)) res newfd linked
  -- The socket is not closing, so the result is the one the wrapping has left.
  have kept : (((p.on (·.setPc w .ready)).wrapWon res newfd linked).1.settleSock t
      ((p.on (·.setPc w .ready)).wrapWon res newfd linked).2).2 =
      ((p.on (·.setPc w .ready)).wrapWon res newfd linked).2 := by
    rw [settleSock_eq]
    split
    · rename_i blocks
      have isTask : (((p.on (·.setPc w .ready)).wrapWon res newfd linked).1.task t) = p.task t := by
        rw [task]; rfl
      rw [isTask] at blocks
      obtain ⟨s, isSock, live⟩ := sound.placed.sock_live t ⟨inside, isOpen, rfl⟩ blocks
      have isS : (p.task t).sock = some s := isSock
      have sockOf : ((p.on (·.setPc w .ready)).wrapWon res newfd linked).1.sockOf t = s := by
        unfold Core.sockOf
        rw [isTask, isS]
        rfl
      have open_ := busy.open_ s isS
      rw [sockOf, leave_closing, sock s (sound.linked.bound s live)]
      rw [show ((p.on (·.setPc w .ready)).sock s).closing = false from open_]
      rfl
    · rfl
  have stored : ((p.workerCommit w t res newfd linked).task t).done = true ∧
      ((p.workerCommit w t res newfd linked).task t).res =
        (((p.on (·.setPc w .ready)).wrapWon res newfd linked).1.settleSock t
          ((p.on (·.setPc w .ready)).wrapWon res newfd linked).2).2 := complete_task _ t _
  rw [kept] at stored
  obtain ⟨done, isRes⟩ := stored
  refine ⟨?_, done⟩
  constructor
  case last => rw [ntask]; exact under.last
  case others =>
    intro u less
    exact (later.done u (Nat.lt_trans less inside) (under.others u less)).1
  case ended =>
    intro _
    obtain ⟨kind, _, buf⟩ := later.args t inside
    rw [isRes, kind, buf]
    have fits := busy.fits w _ isAt
    cases newfd with
    | none => exact fits
    | some fd =>
      rw [← fits]
      unfold wrapWon Outcome.won
      rw [memory]
      cases o.memSock <;> rfl
  case busy => intro isOpen'; rw [done] at isOpen'; cases isOpen'

/-- What the blocking call of an operation returns is what the operation comes to. -/
theorem callResult_ends {kind : OpKind} (buf : List UInt8) {n errno : Int}
    (answered : Joined.answer o sends kind (.ret n errno) = some sends') (write : kind ≠ .opSockWrite)
    (close : kind ≠ .opSockClose) :
    some (callResult kind n errno).seen = o.ends kind buf := by
  cases kind with
  | opSockWrite => exact absurd rfl write
  | opSockClose => exact absurd rfl close
  | opSleep => rfl
  | opConnect =>
    simp only [Joined.answer] at answered
    split at answered
    · rename_i isEnd
      simp [callResult, Outcome.ends, isEnd]
    · cases answered
  | opAccept =>
    simp only [Joined.answer] at answered
    split at answered
    · rename_i given
      have lost : ¬ 0 ≤ o.rc := by omega
      simp [callResult, Outcome.ends, lost, given.2.2]
    · cases answered
  | _ =>
    simp only [Joined.answer] at answered
    split at answered
    · rename_i given
      simp [callResult, Outcome.ends, given.1, given.2]
    · cases answered

/-- A descriptor that the blocking call returns is won. -/
theorem retFd_ends {kind : OpKind} (buf : List UInt8) {errno : Int}
    (answered : Joined.answer o sends kind (.retFd errno) = some sends')
    (wins : kind = .opConnect ∨ kind = .opAccept) : some o.won = o.ends kind buf := by
  rcases wins with rfl | rfl
  · simp only [Joined.answer] at answered
    split at answered
    · rename_i isEnd
      simp [Outcome.ends, isEnd]
    · cases answered
  · simp only [Joined.answer] at answered
    split at answered
    · rename_i won
      simp [Outcome.ends, won]
    · cases answered

/-- One move of the worker that runs the operation under way. -/
theorem Under.runStep (under : p.Under o sends t) (sound : Sound p.rest) (up : p.shutdown = false)
    (isAt : p.At w t phase) (answered : Joined.answer o sends (p.task t).kind act = some sends')
    (taken : p.runStep w t phase act = some p') (later : Later p.toCore p'.toCore)
    (ntask : p'.ntask = p.ntask) : p'.Under o sends' t := by
  obtain ⟨-, isOpen⟩ := under.mine sound isAt.runs
  have busy := under.busy isOpen
  have fits := busy.fits w phase isAt
  have phased : p.PhaseOk t phase := sound.phased w t phase isAt
  have inside : t < p.ntask := by rw [← under.last]; exact Nat.lt_succ_self t
  have cases_ := runStep_cases isAt.2 taken
  -- Outside the commits the worker only comes to another phase.
  have moves : ∀ next : Phase, (∀ res newfd, phase ≠ .commit res newfd) → phase ≠ .commitClose →
      (∀ s, (p'.sock s).closing = (p.sock s).closing) → (p'.worker w).pc = .running t next →
      o.Fits sends' (p.task t) next → p'.Under o sends' t := by
    intro next commit close closing pc fits
    rcases cases_ with ⟨-, works⟩ | ⟨res, newfd, linked, isCommit, -⟩ | ⟨isClose, -⟩
    · exact under.works sound isAt works later closing pc fits
    · exact absurd isCommit (commit res newfd)
    · exact absurd isClose close
  have goes : ∀ next : Phase, (∀ res newfd, phase ≠ .commit res newfd) → phase ≠ .commitClose →
      p' = p.on (·.setPc w (.running t next)) → o.Fits sends' (p.task t) next →
      p'.Under o sends' t := by
    intro next commit close same fits
    refine moves next commit close (fun s => by rw [same]; rfl) ?_ fits
    rw [same]
    simp [setPc, modWorker]
  unfold Pool.runStep at taken
  split at taken
  · -- The switch on the kind.
    obtain rfl : sends = sends' := Option.some.inj answered
    have entered := Option.some.inj taken
    unfold workerEnter at entered
    split at entered
    · rename_i kind; exact absurd kind busy.kind
    · rename_i kind
      have blocks : opOnSock (p.task t).kind = true := by rw [kind]; rfl
      obtain ⟨s, isSock, -⟩ := sound.placed.sock_live t ⟨inside, isOpen, rfl⟩ blocks
      have isS : (p.task t).sock = some s := isSock
      have sockOf : p.sockOf t = s := by simp [Core.sockOf, isS]
      rw [sockOf, busy.open_ s isS, up, Bool.or_self, if_neg (by simp)] at entered
      refine goes (.sending 0) (by simp) (by simp) entered.symm ?_
      change sendEnd _ 0 sends = _
      rw [show sends = o.sends from fits]
    · exact goes .check (by simp) (by simp) entered.symm trivial
    · exact goes .check (by simp) (by simp) entered.symm trivial
    · exact goes .check (by simp) (by simp) entered.symm trivial
    · exact goes .call (by simp) (by simp) entered.symm trivial
  · -- The top of the loop in `cancelable_wait`.
    obtain rfl : sends = sends' := Option.some.inj answered
    rw [busy.cancelReq, if_neg (by simp)] at taken
    split at taken
    · exact goes .call (by simp) (by simp) (Option.some.inj taken).symm trivial
    · exact goes .polling (by simp) (by simp) (Option.some.inj taken).symm trivial
  · obtain rfl : sends = sends' := Option.some.inj answered
    split at taken
    · have same := Option.some.inj taken
      refine moves .check (by simp) (by simp) (fun s => by rw [← same]; rfl) ?_ trivial
      rw [← same]
      simp [setPc, modWorker]
    · exact goes .call (by simp) (by simp) (Option.some.inj taken).symm trivial
  · -- The blocking call returns.
    rename_i n errno
    obtain ⟨write, close⟩ := phased
    have ends := callResult_ends (p.task t).buf answered write close
    exact goes (.commit (callResult (p.task t).kind n errno) none) (by simp) (by simp)
      (Option.some.inj taken).symm ends
  · -- It returns a descriptor.
    rename_i errno
    have wins : (p.task t).kind = .opConnect ∨ (p.task t).kind = .opAccept := by
      split at taken
      · rename_i kind; exact .inl kind
      · rename_i kind; exact .inr kind
      · cases taken
    have ends := retFd_ends (p.task t).buf answered wins
    split at taken
    · have same := Option.some.inj taken
      refine moves (.commit (rErr errno) (some p.ndesc)) (by simp) (by simp) (fun s => by rw [← same]; rfl) ?_
        ends
      rw [← same]
      simp [setPc, modWorker]
    · have same := Option.some.inj taken
      refine moves (.commit (rOk 0 none) (some p.ndesc)) (by simp) (by simp) (fun s => by rw [← same]; rfl) ?_
        ends
      rw [← same]
      simp [setPc, modWorker]
    · cases taken
  · -- `send` accepts some bytes.
    rename_i off n
    split at taken
    · rename_i room
      have same := Option.some.inj taken
      simp only [Joined.answer] at answered
      split at answered
      · split at answered
        · rename_i rest isN
          obtain rfl := Option.some.inj answered
          refine moves (.sending (off + n)) (by simp) (by simp) (fun s => by rw [← same]; rfl) ?_ ?_
          · rw [← same]
            simp [sendBytes, setPc, modWorker]
          · change sendEnd _ (off + n) rest = _
            rw [← sendEnd_sent room.1, isN]
            exact fits
        · cases answered
      · cases answered
    · cases taken
  · -- A signal came in between.
    rename_i off
    split at taken
    · rename_i room
      have same := Option.some.inj taken
      simp only [Joined.answer] at answered
      split at answered
      · rename_i rest
        obtain rfl := Option.some.inj answered
        refine moves (.sending off) (by simp) (by simp) (fun s => by rw [← same]) (by rw [← same]; exact isAt.2) ?_
        change sendEnd _ off rest = _
        rw [← sendEnd_intr room]
        exact fits
      · cases answered
    · cases taken
  · -- `send` fails.
    rename_i off errno
    obtain ⟨kind, -⟩ := phased
    split at taken
    · rename_i room
      simp only [Joined.answer] at answered
      split at answered
      · split at answered
        · rename_i e rest isE
          obtain rfl := Option.some.inj answered
          refine goes (.commit (rErr errno) none) (by simp) (by simp) (Option.some.inj taken).symm ?_
          have now := sendEnd_err rest errno room
          rw [isE] at now
          change some (rErr errno).seen = o.ends (p.task t).kind (p.task t).buf
          rw [kind, isE]
          exact congrArg (Option.map Result.seen) (now.symm.trans fits)
        · cases answered
      · cases answered
    · cases taken
  · -- Nothing is left to send.
    rename_i off
    obtain ⟨kind, -⟩ := phased
    obtain rfl : sends = sends' := Option.some.inj answered
    split at taken
    · cases taken
    · rename_i full
      refine goes (.commit (rOk (p.task t).buf.length none) none) (by simp) (by simp)
        (Option.some.inj taken).symm ?_
      have ended := sendEnd_full sends full
      change some (rOk (p.task t).buf.length none).seen = o.ends (p.task t).kind (p.task t).buf
      rw [kind]
      exact congrArg (Option.map Result.seen) (ended.symm.trans fits)
  · -- The commit.
    rename_i res newfd linked
    have same := Option.some.inj taken
    simp only [Joined.answer] at answered
    split at answered
    · rename_i memory
      obtain rfl := Option.some.inj answered
      rw [← same] at later ntask ⊢
      exact (under.commit sound isAt memory later ntask).1
    · cases answered
  · exact absurd phased busy.kind
  · exact absurd phased.1 busy.kind
  · exact absurd phased.1 busy.kind
  · cases taken

end Pool

end Myio
