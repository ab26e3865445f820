import Myio.Sync.Refines

/-! Programs that join every operation see the same on the pool as on the synchronous backend. -/

namespace Myio.Joined

open Core

variable {prog : Program} {os : Nat → Outcome} {wakes : Nat → WorkerId → Bool} {j j' : Joined}
  {p p' : Pool} {t : TaskId} {w : WorkerId} {act : Pool.Act}

/-- The operation the program has submitted, and is about to join. -/
structure Doing (prog : Program) (os : Nat → Outcome) (seen : List Seen) (sends : List SendOs)
    (p : Pool) (t : TaskId) : Prop where
  next : ∃ op, prog seen = some op ∧ op ≠ .tcpListen ∧ (p.task t).kind = op.kind ∧
    (p.task t).buf = op.buf
  mem : (os seen.length).mem = true
  under : p.Under (os seen.length) sends t
  unseen : p.unseen + (if (p.task t).done then 0 else 1) ≤ p.ntask
  few : p.ntask ≤ seen.length + 1

/-- Between two operations. -/
structure Between (seen : List Seen) (p : Pool) : Prop where
  resting : p.Resting
  unseen : p.unseen ≤ p.ntask
  few : p.ntask ≤ seen.length

/-- Where the program is, and where the pool. -/
def Staged (prog : Program) (os : Nat → Outcome) (j : Joined) : Prop :=
  match j.stage with
  | .ready => j.pool.user = .idle ∧ Between j.seen j.pool
  | .wrapping => (∃ fd, j.pool.user = .listening fd) ∧ Between j.seen j.pool ∧
    prog j.seen = some .tcpListen ∧ posixListen (os j.seen.length).listen = none
  | .made t => j.pool.user = .idle ∧ Doing prog os j.seen j.sends j.pool t
  | .waiting t => j.pool.user.goal? = some (.await t) ∧ Doing prog os j.seen j.sends j.pool t
  | .freeing t => j.pool.user = .idle ∧ Between j.seen j.pool ∧ t + 1 = j.pool.ntask

/-- The program has seen what its operations come to on the pool. -/
def Told (prog : Program) (os : Nat → Outcome) (seen : List Seen) : Prop :=
  ∀ k, k < seen.length → ∃ op x, prog (seen.take k) = some op ∧ (os k).onPool op = some x ∧
    seen[k]? = some x

/-- Everything that holds in every state of a joining program. -/
structure Good (prog : Program) (os : Nat → Outcome) (wakes : Nat → WorkerId → Bool) (j : Joined) :
    Prop where
  run : Pool.Run (Pool.new { create := fun _ => true, wakes }) j.pool
  create : ∀ n, j.pool.os.create n = true
  told : Told prog os j.seen
  staged : j.Staged prog os

theorem Good.new : Good prog os wakes (Joined.new wakes) where
  run := .refl _
  create _ := rfl
  told k less := absurd less (Nat.not_lt_zero k)
  staged := ⟨rfl, fun t less => absurd less (Nat.not_lt_zero t), Nat.le_refl _, Nat.le_refl _⟩

/-- The program sees one more result. -/
theorem Told.snoc {seen : List Seen} {op : Op} {x : Seen} (told : Told prog os seen)
    (next : prog seen = some op) (ended : (os seen.length).onPool op = some x) :
    Told prog os (seen ++ [x]) := by
  intro k less
  have length : (seen ++ [x]).length = seen.length + 1 := by simp
  rw [length] at less
  rcases Nat.lt_succ_iff_lt_or_eq.mp less with old | rfl
  · obtain ⟨op', x', chosen, isPool, there⟩ := told k old
    refine ⟨op', x', ?_, isPool, ?_⟩
    · rw [List.take_append_of_le_length (Nat.le_of_lt old)]; exact chosen
    · rw [List.getElem?_append_left old]; exact there
  · refine ⟨op, x, ?_, ended, by simp⟩
    rw [List.take_append_of_le_length (Nat.le_refl _), List.take_length]
    exact next

/-- The user thread is in no `destroy`. -/
theorem Staged.up (staged : j.Staged prog os) (good : j.pool.Good) : j.pool.shutdown = false := by
  have leaves : j.pool.user.leaves = false := by
    unfold Staged at staged
    cases isAt : j.stage <;> rw [isAt] at staged <;> dsimp only at staged
    · rw [staged.1]; rfl
    · obtain ⟨⟨fd, user⟩, -⟩ := staged; rw [user]; rfl
    · rw [staged.1]; rfl
    · cases user : j.pool.user <;> rw [user] at staged <;> first | rfl | cases staged.1
    · rw [staged.1]; rfl
  rw [good.tidy.shutdown]
  exact leaves

/-- A step of the pool the caller may take. -/
theorem run_of_obeying {c : Pool.Call} (run : Pool.Run q p) (taken : obeying p c = some p') :
    Pool.Run q p' ∧ p.step (.user c) = some p' ∧ p.obeys (.user c) = true := by
  unfold obeying at taken
  split at taken
  · rename_i obeyed
    exact ⟨.snoc run obeyed taken, taken, obeyed⟩
  · cases taken

/-! ### The workers -/

/-- A worker moves: the operation under way gets on, and between two of them nothing happens. -/
theorem Good.work (good : Good prog os wakes j) (taken : j.work os w act = some j') :
    Good prog os wakes j' ∧ j'.seen = j.seen := by
  unfold Joined.work at taken
  obtain ⟨sends, answered, taken⟩ := Option.bind_eq_some_iff.mp taken
  obtain ⟨q, moved, rfl⟩ := Option.map_eq_some_iff.mp taken
  have run : Pool.Run _ q := .snoc good.run (by rfl) moved
  have isGood := good.run.good
  have later : Later j.pool.toCore q.toCore :=
    Pool.Run.later (.snoc (.refl _) (by rfl) moved) isGood
  have up := good.staged.up isGood
  have frame := Pool.workerStep_frame moved
  have user : q.user = j.pool.user := (Pool.Stays.workerStep moved).user
  have rests : Between j.seen j.pool → Between j.seen q := by
    intro between
    obtain ⟨resting, unseen⟩ := between.resting.workerStep isGood moved later
    exact ⟨resting, by rw [show q.unseen = _ from unseen, frame.1]; exact between.unseen,
      by rw [show q.ntask = _ from frame.1]; exact between.few⟩
  have does : ∀ t, Doing prog os j.seen j.sends j.pool t → Doing prog os j.seen sends q t := by
    intro t doing
    obtain ⟨⟨op, next, task, kind, buf⟩, mem, under, unseen, few⟩ := doing
    have inside : t < j.pool.ntask := by rw [← under.last]; exact Nat.lt_succ_self t
    obtain ⟨isKind, -, isBuf⟩ := later.args t inside
    constructor
    case next => exact ⟨op, next, task, isKind.trans kind, isBuf.trans buf⟩
    case mem => exact mem
    case under => exact under.workerStep isGood up answered moved later
    case unseen =>
      rw [show q.unseen + _ = _ from under.tally isGood moved, frame.1]
      exact unseen
    case few => rw [show q.ntask = _ from frame.1]; exact few
  refine ⟨⟨run, ?_, good.told, ?_⟩, rfl⟩
  · intro n
    rw [show q.os = j.pool.os from frame.2]
    exact good.create n
  · have staged := good.staged
    unfold Staged at staged ⊢
    cases isAt : j.stage <;> rw [isAt] at staged <;> dsimp only at staged ⊢ <;> rw [user]
    · exact ⟨staged.1, rests staged.2⟩
    · exact ⟨staged.1, rests staged.2.1, staged.2.2⟩
    · exact ⟨staged.1, does _ staged.2⟩
    · exact ⟨staged.1, does _ staged.2⟩
    · exact ⟨staged.1, rests staged.2.1, by rw [staged.2.2, frame.1]⟩

/-! ### The program -/

/-- A vtable call made between two operations. -/
structure Begun (o : Outcome) (op : Op) (p p' : Pool) : Prop where
  under : p'.Under o o.sends p.ntask
  kind : (p'.task p.ntask).kind = op.kind
  buf : (p'.task p.ntask).buf = op.buf
  ntask : p'.ntask = p.ntask + 1
  os : p'.os = p.os
  user : p'.user = p.user
  unseen : p'.unseen = p.unseen

/-- The submit functions. -/
theorem begun_of_submit {o : Outcome} {op : Op} {k : Task} (create : ∀ n, p.os.create n = true)
    (resting : p.Resting) (good : (p.submit k).Good) (isOpen : k.done = false)
    (started : k.started = false) (cancelReq : k.cancelReq = false) (close : k.kind ≠ .opSockClose)
    (open_ : ∀ s, k.sock = some s → (p.sock s).closing = false) (kind : k.kind = op.kind)
    (buf : k.buf = op.buf) : Begun o op p (p.submit k) := by
  have sub := Pool.submit_submitted create k
  have task : (p.submit k).task p.ntask = k := by rw [sub.task, Function.update_self]
  exact ⟨sub.under good.sound resting isOpen started cancelReq close open_, by rw [task, kind],
    by rw [task, buf], sub.ntask, sub.os, sub.user, sub.unseen⟩

/-- Every vtable call that makes a task. -/
theorem begun_of_call {o : Outcome} {op : Op} {c : Pool.Call} {given : List SockId}
    (create : ∀ n, p.os.create n = true) (resting : p.Resting) (good : p.Good) (good' : p'.Good)
    (gone : p.gone = false) (called : callOf given op = some c) (listen : op ≠ .tcpListen)
    (obeyed : p.obeys (.user c) = true) (taken : p.call c = some p') : Begun o op p p' := by
  have bare : ∀ (s : SockId), (none : Option SockId) = some s → (p.sock s).closing = false := by intros; contradiction
  have usable : ∀ {s : SockId}, (p.claimed s && !(p.sock s).closing) = true →
      p.claimed s = true ∧ (p.sock s).closing = false := by
    intro s both
    simpa using both
  cases op with
  | tcpListen => exact absurd rfl listen
  | tcpAccept i =>
    obtain ⟨s, -, rfl⟩ := Option.map_eq_some_iff.mp called
    obtain rfl := Option.some.inj taken
    refine begun_of_submit create resting good' rfl rfl rfl (by simp) (fun u isS => ?_) rfl rfl
    obtain rfl := Option.some.inj isS
    exact (usable obeyed).2
  | sockRead i =>
    obtain ⟨s, -, rfl⟩ := Option.map_eq_some_iff.mp called
    obtain rfl := Option.some.inj taken
    refine begun_of_submit create resting good' rfl rfl rfl (by simp) (fun u isS => ?_) rfl rfl
    obtain rfl := Option.some.inj isS
    exact (usable obeyed).2
  | sockWrite i buf =>
    obtain ⟨s, -, rfl⟩ := Option.map_eq_some_iff.mp called
    obtain rfl := Option.some.inj taken
    refine begun_of_submit create resting good' rfl rfl rfl (by simp) (fun u isS => ?_) rfl rfl
    obtain rfl := Option.some.inj isS
    exact (usable obeyed).2
  | sockClose i =>
    obtain ⟨s, -, rfl⟩ := Option.map_eq_some_iff.mp called
    obtain rfl := Option.some.inj taken
    obtain ⟨claimed, open_⟩ := usable obeyed
    have live : s ∈ p.socks := good.sound.claims.claimed_live s claimed open_ gone
    obtain ⟨under, ntask, os, user, unseen, kind, buf, -⟩ :=
      Pool.implSockClose_under (o := o) good.sound resting live
    exact ⟨under, kind, buf, ntask, os, user, unseen⟩
  | _ =>
    obtain rfl := Option.some.inj called
    obtain rfl := Option.some.inj taken
    exact begun_of_submit create resting good' rfl rfl rfl (by simp) bare rfl rfl

/-- A call made by an idle user thread is a vtable call. -/
theorem call_of_step {c : Pool.Call} (idle : p.user = .idle) (taken : p.step (.user c) = some p') :
    p.call c = some p' := by
  rcases Pool.userStep_cases taken with ⟨-, called⟩ | ⟨ok, rfl, resumed⟩
  · exact called
  · unfold Pool.resume at resumed
    rw [idle] at resumed
    cases resumed

/-- The program starts an operation. -/
theorem Good.start {op : Op} (good : Good prog os wakes j) (ready : j.stage = .ready)
    (next : prog j.seen = some op) (taken : j.start (os j.seen.length) op = some j') :
    Good prog os wakes j' := by
  obtain ⟨run, create, told, staged⟩ := good
  have isGood := run.good
  unfold Staged at staged
  rw [ready] at staged
  obtain ⟨idle, between⟩ := staged
  obtain ⟨resting, unseen, few⟩ := between
  have gone : j.pool.gone = false := isGood.tidy.here (by rw [idle]; simp)
  have onward : ∀ {x : Seen}, (os j.seen.length).onPool op = some x →
      Good prog os wakes { j with seen := j.seen ++ [x] } := by
    intro x ended
    refine ⟨run, create, told.snoc next ended, ?_⟩
    unfold Staged
    rw [ready]
    exact ⟨idle, resting, unseen, by simp; omega⟩
  by_cases listen : op = .tcpListen
  · subst listen
    unfold Joined.start at taken
    dsimp only at taken
    cases isEnd : posixListen (os j.seen.length).listen with
    | some err =>
      rw [isEnd] at taken
      obtain rfl := Option.some.inj taken
      exact onward (by simp [Outcome.onPool, Outcome.listens, isEnd])
    | none =>
      rw [isEnd] at taken
      obtain ⟨p', obeyed, rfl⟩ := Option.map_eq_some_iff.mp taken
      obtain ⟨run', moved, -⟩ := run_of_obeying run obeyed
      obtain rfl := Option.some.inj (call_of_step idle moved)
      exact ⟨run', create, told, ⟨_, rfl⟩, ⟨resting, unseen, few⟩, next, isEnd⟩
  · have begins : j.start (os j.seen.length) op = if (os j.seen.length).mem then
        (callOf j.given op).bind fun c => (obeying j.pool c).map fun p =>
          { j with pool := p, stage := .made j.pool.ntask, sends := (os j.seen.length).sends }
        else some { j with seen := j.seen ++ [(rErr ENOMEM).seen] } := by
      unfold Joined.start
      cases op <;> first | rfl | exact absurd rfl listen
    rw [begins] at taken
    split at taken
    · rename_i mem
      obtain ⟨c, called, taken⟩ := Option.bind_eq_some_iff.mp taken
      obtain ⟨p', obeyed, rfl⟩ := Option.map_eq_some_iff.mp taken
      obtain ⟨run', moved, allowed⟩ := run_of_obeying run obeyed
      have begun := begun_of_call (o := os j.seen.length) create resting isGood run'.good gone called
        listen allowed (call_of_step idle moved)
      refine ⟨run', fun n => by rw [begun.os]; exact create n, told, begun.user.trans idle, ?_⟩
      constructor
      case next => exact ⟨op, next, listen, begun.kind, begun.buf⟩
      case mem => exact mem
      case under => exact begun.under
      case unseen =>
        rw [begun.unseen, begun.ntask]
        split <;> omega
      case few => rw [begun.ntask]; exact Nat.succ_le_succ few
    · rename_i mem
      obtain rfl := Option.some.inj taken
      exact onward (by simp [Outcome.onPool, listen, mem])

/-- `myio_await` goes on, and only the user thread and what it has seen change. -/
theorem resume_await {ok : Bool} (goal : p.user.goal? = some (.await t))
    (taken : p.resume ok = some p') :
    p'.toCore = p.toCore ∧ p'.os = p.os ∧ p'.unseen ≤ p.unseen ∧
      (p'.user.goal? = some (.await t) ∨ p'.user = .idle ∧ ∃ res, p'.ret = some (.awaited res)) := by
  unfold Pool.resume at taken
  cases user : p.user with
  | polling goal' rest =>
    rw [user] at goal taken
    obtain rfl : goal' = .await t := Option.some.inj goal
    obtain rfl := Option.some.inj taken
    unfold Pool.pollOn
    split
    · exact ⟨rfl, rfl, Nat.le_refl _, .inl rfl⟩
    · exact ⟨rfl, rfl, Nat.le_refl _, .inl rfl⟩
    · split
      · exact ⟨rfl, rfl, Nat.le_refl _, .inr ⟨rfl, _, rfl⟩⟩
      · exact ⟨rfl, rfl, Nat.le_refl _, .inl rfl⟩
  | stepping goal' =>
    rw [user] at goal taken
    obtain rfl : goal' = .await t := Option.some.inj goal
    obtain rfl := Option.some.inj taken
    unfold Pool.stepOn
    cases p.implStep with
    | wait => exact ⟨rfl, rfl, Nat.le_refl _, .inl (by rw [user]; rfl)⟩
    | one => exact ⟨rfl, rfl, Nat.zero_le _, .inl rfl⟩
    | zero => exact ⟨rfl, rfl, Nat.zero_le _, .inr ⟨rfl, _, rfl⟩⟩
  | _ => rw [user] at goal; cases goal

/-- What the operation under way came to is what the program will see. -/
theorem Doing.ended {seen : List Seen} {sends : List SendOs} (doing : Doing prog os seen sends p t)
    (done : (p.task t).done = true) :
    ∃ op, prog seen = some op ∧ (os seen.length).onPool op = some (p.task t).res.seen := by
  obtain ⟨⟨op, next, listen, kind, buf⟩, mem, under, -, -⟩ := doing
  refine ⟨op, next, ?_⟩
  unfold Outcome.onPool
  rw [if_neg listen, if_pos mem, ← kind, ← buf]
  exact (under.ended done).symm

theorem awaited_on (busy : p.user ≠ .idle) :
    j.awaited t p = { j with pool := p, stage := .waiting t } := by
  unfold Joined.awaited
  split
  · rename_i idle _; exact absurd idle busy
  · rfl

theorem awaited_end {res : Result} (idle : p.user = .idle) (ret : p.ret = some (.awaited res)) :
    j.awaited t p = { j with pool := p.implTaskResult t, seen := j.seen ++ [res.seen],
                             given := j.given ++ res.ptr.toList, stage := .freeing t } := by
  unfold Joined.awaited
  rw [idle, ret]

/-- The program is inside `myio_await`, with nothing but the user thread's place changed. -/
theorem Doing.same {seen : List Seen} {sends : List SendOs} (doing : Doing prog os seen sends p t)
    (core : p'.toCore = p.toCore) (unseen : p'.unseen ≤ p.unseen) : Doing prog os seen sends p' t := by
  obtain ⟨next, mem, under, few, length⟩ := doing
  constructor
  case next => rw [core]; exact next
  case mem => exact mem
  case under =>
    refine under.later (by rw [core]; exact .refl _) (by rw [core]) (by rw [core]) fun isOpen => ?_
    exact (under.busy isOpen).same (by rw [core]) (fun s => by rw [core]) fun v phase there => by
      rw [core] at there; exact there
  case unseen => rw [core]; exact Nat.le_trans (Nat.add_le_add_right unseen _) few
  case few => rw [core]; exact length

/-- `myio_await` returns what the operation under way comes to. -/
theorem Good.awaited {ok : Bool} (good : Good prog os wakes j) (waiting : j.stage = .waiting t)
    (taken : obeying j.pool (.resume ok) = some p)
    (few : (j.awaited t p).seen.length < 2 ^ 64) : Good prog os wakes (j.awaited t p) := by
  obtain ⟨run, create, told, staged⟩ := good
  unfold Staged at staged
  rw [waiting] at staged
  obtain ⟨goal, doing⟩ := staged
  obtain ⟨run', moved, -⟩ := run_of_obeying run taken
  have resumed : j.pool.resume ok = some p := moved
  obtain ⟨core, isOs, unseen, next⟩ := resume_await goal resumed
  have create' : ∀ n, p.os.create n = true := fun n => by rw [isOs]; exact create n
  have inside : t < j.pool.ntask := by rw [← doing.under.last]; exact Nat.lt_succ_self t
  rcases next with goal' | ⟨idle, res, isRet⟩
  · -- The loop goes on.
    have busy : p.user ≠ .idle := by intro idle; rw [idle] at goal'; cases goal'
    rw [awaited_on busy]
    exact ⟨run', create', told, goal', doing.same core unseen⟩
  · -- It returns, and not for want of progress.
    rw [awaited_end idle isRet] at few ⊢
    have length : j.seen.length + 1 < 2 ^ 64 := by simpa using few
    have unwrapped : j.pool.unseen < 2 ^ 64 := by
      have := doing.unseen
      have := doing.few
      omega
    obtain ⟨-, -, -, answers⟩ := Pool.step_sees_completions run unwrapped
    obtain ⟨done, ret⟩ : (j.pool.task t).done = true ∧ p.ret = some (.awaited (j.pool.task t).res) :=
      answers (.await t) ok p goal ⟨t, List.mem_singleton_self _⟩ resumed idle
    obtain rfl : (j.pool.task t).res = res := by
      have := ret.symm.trans isRet
      simpa using this
    obtain ⟨op, next, ended⟩ := doing.ended done
    have held : j.pool.held t = true := run.good.tidy.named t (by
      have names : some t ∈ j.pool.user.names := by
        cases user : j.pool.user with
        | polling goal' rest =>
          rw [user] at goal
          obtain rfl : goal' = .await t := Option.some.inj goal
          exact List.mem_singleton_self _
        | stepping goal' =>
          rw [user] at goal
          obtain rfl : goal' = .await t := Option.some.inj goal
          exact List.mem_singleton_self _
        | _ => rw [user] at goal; cases goal
      exact names)
    have read : Pool.Run (Pool.new { create := fun _ => true, wakes }) (p.implTaskResult t) := by
      have obeyed : p.obeys (.user (.taskResult t)) = true := by
        rw [show p.obeys (.user (.taskResult t)) = p.held t from rfl, core]; exact held
      have taken : p.step (.user (.taskResult t)) = some (p.implTaskResult t) := by
        change (if p.user = .idle then p.call (.taskResult t) else none) = _
        rw [if_pos idle]
        rfl
      exact .snoc run' obeyed taken
    have same : (p.implTaskResult t).task = j.pool.task ∧ (p.implTaskResult t).ntask = j.pool.ntask ∧
        (p.implTaskResult t).os = p.os ∧ (p.implTaskResult t).user = p.user ∧
        (p.implTaskResult t).unseen = p.unseen := by
      rw [← core]
      unfold Pool.implTaskResult
      split <;> exact ⟨rfl, rfl, rfl, rfl, rfl⟩
    obtain ⟨task, ntask, os', user, isUnseen⟩ := same
    refine ⟨read, fun n => by rw [os']; exact create' n, told.snoc next ended,
      user.trans idle, ⟨fun u less => ?_, ?_, ?_⟩, by rw [ntask]; exact doing.under.last⟩
    · rw [task]
      rw [ntask, ← doing.under.last] at less
      rcases Nat.lt_succ_iff_lt_or_eq.mp less with earlier | rfl
      · exact doing.under.others u earlier
      · exact done
    · rw [isUnseen, ntask]
      have := doing.unseen
      omega
    · rw [ntask]
      simpa using doing.few

/-- The program goes on. -/
theorem Good.go (good : Good prog os wakes j) (taken : j.go prog os = some j')
    (few : j'.seen.length < 2 ^ 64) : Good prog os wakes j' := by
  have staged := good.staged
  unfold Joined.go at taken
  unfold Staged at staged
  cases stage : j.stage with
  | ready =>
    rw [stage] at taken
    obtain ⟨op, next, started⟩ := Option.bind_eq_some_iff.mp taken
    exact good.start stage next started
  | wrapping =>
    -- `tcp_listen` returns.
    rw [stage] at taken staged
    obtain ⟨⟨fd, user⟩, between, next, isEnd⟩ := staged
    obtain ⟨p, obeyed, rfl⟩ := Option.map_eq_some_iff.mp taken
    obtain ⟨run', moved, -⟩ := run_of_obeying good.run obeyed
    have wrapped : p = j.pool.wrapListener fd (os j.seen.length).memSock := by
      have resumed : j.pool.resume _ = some p := moved
      unfold Pool.resume at resumed
      rw [user] at resumed
      exact (Option.some.inj resumed).symm
    have same : p.task = j.pool.task ∧ p.ntask = j.pool.ntask ∧ p.os = j.pool.os ∧ p.user = .idle ∧
        p.unseen = j.pool.unseen := by
      rw [wrapped]
      unfold Pool.wrapListener
      split <;> exact ⟨rfl, rfl, rfl, rfl, rfl⟩
    obtain ⟨task, ntask, isOs, idle, unseen⟩ := same
    have create : ∀ n, p.os.create n = true := fun n => by rw [isOs]; exact good.create n
    have rests : ∀ x : Seen, Between (j.seen ++ [x]) p := by
      intro x
      refine ⟨fun t inside => ?_, by rw [unseen, ntask]; exact between.unseen, ?_⟩
      · rw [ntask] at inside; rw [task]; exact between.resting t inside
      · rw [ntask]; simpa using Nat.le_succ_of_le between.few
    have seen : (os j.seen.length).onPool .tcpListen = some (if (os j.seen.length).memSock
        then .listened none else .listened (some ENOMEM)) := by
      simp only [Outcome.onPool, Outcome.listens, isEnd, if_true]
    unfold Joined.listened
    split
    · rename_i mem
      rw [if_pos mem] at seen
      exact ⟨run', create, good.told.snoc next seen, idle, rests _⟩
    · rename_i mem
      rw [if_neg mem] at seen
      exact ⟨run', create, good.told.snoc next seen, idle, rests _⟩
  | made t =>
    -- `myio_await` begins.
    rw [stage] at taken staged
    obtain ⟨idle, doing⟩ := staged
    obtain ⟨p, obeyed, rfl⟩ := Option.map_eq_some_iff.mp taken
    obtain ⟨run', moved, -⟩ := run_of_obeying good.run obeyed
    obtain rfl := Option.some.inj (call_of_step idle moved)
    rw [awaited_on (by simp)]
    exact ⟨run', good.create, good.told, rfl, doing.same rfl (Nat.le_refl _)⟩
  | waiting t =>
    rw [stage] at taken
    obtain ⟨p, obeyed, rfl⟩ := Option.map_eq_some_iff.mp taken
    exact good.awaited stage obeyed few
  | freeing t =>
    rw [stage] at taken staged
    obtain ⟨idle, between, last⟩ := staged
    obtain ⟨p, obeyed, rfl⟩ := Option.map_eq_some_iff.mp taken
    obtain ⟨run', moved, -⟩ := run_of_obeying good.run obeyed
    have done : (j.pool.task t).done = true :=
      between.resting t (by rw [← last]; exact Nat.lt_succ_self t)
    have freed : p = (j.pool.dropHandle t).on (·.taskFreeMem t) := by
      have called : some (j.pool.implTaskFree t) = some p := call_of_step idle moved
      unfold Pool.implTaskFree at called
      rw [if_pos done] at called
      exact (Option.some.inj called).symm
    subst freed
    refine ⟨run', good.create, good.told, idle, fun u inside => ?_, between.unseen, between.few⟩
    have isDone := between.resting u inside
    simp only [Pool.on, Pool.dropHandle, taskFreeMem, modTask, Function.update_apply]
    split
    · exact done
    · exact isDone

/-- The program never forgets what it has seen. -/
theorem step_seen {label : Label} (taken : j.step prog os label = some j') :
    j.seen.length ≤ j'.seen.length := by
  have longer : ∀ x : Seen, j.seen.length ≤ (j.seen ++ [x]).length := fun x => by simp
  have waits : ∀ t p, j.seen.length ≤ (j.awaited t p).seen.length := by
    intro t p
    unfold Joined.awaited
    split
    · exact longer _
    · exact Nat.le_refl _
  cases label with
  | worker w act =>
    obtain ⟨sends, -, taken⟩ := Option.bind_eq_some_iff.mp taken
    obtain ⟨q, -, rfl⟩ := Option.map_eq_some_iff.mp taken
    exact Nat.le_refl _
  | user =>
    change j.go prog os = some j' at taken
    unfold Joined.go at taken
    split at taken
    · obtain ⟨op, -, taken⟩ := Option.bind_eq_some_iff.mp taken
      unfold Joined.start at taken
      split at taken
      · split at taken
        · obtain rfl := Option.some.inj taken; exact longer _
        · obtain ⟨p, -, rfl⟩ := Option.map_eq_some_iff.mp taken; exact Nat.le_refl _
      · split at taken
        · obtain ⟨c, -, taken⟩ := Option.bind_eq_some_iff.mp taken
          obtain ⟨p, -, rfl⟩ := Option.map_eq_some_iff.mp taken
          exact Nat.le_refl _
        · obtain rfl := Option.some.inj taken; exact longer _
    · obtain ⟨p, -, rfl⟩ := Option.map_eq_some_iff.mp taken
      unfold Joined.listened
      split <;> exact longer _
    · obtain ⟨p, -, rfl⟩ := Option.map_eq_some_iff.mp taken; exact waits _ p
    · obtain ⟨p, -, rfl⟩ := Option.map_eq_some_iff.mp taken; exact waits _ p
    · obtain ⟨p, -, rfl⟩ := Option.map_eq_some_iff.mp taken; exact Nat.le_refl _

/-- What holds in every state a joining program reaches. -/
theorem Run.good (run : Run prog os (Joined.new wakes) j) (few : j.seen.length < 2 ^ 64) :
    Good prog os wakes j := by
  -- The program saw less before its last step, so the bound held then too.
  induction run with
  | refl => exact .new
  | @snoc middle last label before allowed taken ih =>
    have earlier := ih (Nat.lt_of_le_of_lt (step_seen taken) few)
    cases label with
    | user => exact earlier.go taken few
    | worker w act => exact (earlier.work taken).1

/-! ### The two backends -/

/-- A program that connects and closes the connection. -/
def connectAndClose : Program := fun seen => [Op.tcpConnect, .sockClose 0][seen.length]?

/-- The connection is made at once, and its `close(2)` returns the given value, with `EIO`. -/
def closing (rc : Int) : Nat → Outcome
  | 0 => { connect := { addrs := [.connected] } }
  | _ => { rc, errno := 5 }

/-- The program's calls and the worker's moves, in one order of many. -/
def connectAndCloseRun : List Label :=
  [.user, .worker 0 .main, .worker 0 .enter, .user, .worker 0 (.retFd ECONNREFUSED),
    .worker 0 (.commit true), .user, .user, .user, .user, .user]

/-- The state the order leads to. -/
def closed (rc : Int) : Joined :=
  Machine.drive (step connectAndClose (closing rc)) (Joined.new fun _ _ => false) connectAndCloseRun

end Myio.Joined
