import Myio.Uring.Closes
import Myio.Uring.Inflight

/-! The runs of the io_uring backend, and what holds in every state they reach. -/

namespace Myio.Loop

open Function (update)
open Loop.Core

namespace UringIo

variable {B : Prop} {c : Core} {t v : TaskId} {s : SockId} {u u' : UringIo}

/-! ### Cancellation -/

/-- A queued write is unlinked and completed as canceled. -/
theorem unqueue_moves (firm : Firm B c.rest) (pending : c.Pending (fun _ => false) t)
    (kind : (c.task t).kind = .taskSockWrite) (sock : (c.task t).sock = some s)
    (behind : (c.sock s).wq.head? ≠ some t) :
    Moves (still B) c.rest (taskComplete ((c.modSock s fun k => { k with wq := wqRemove k.wq t }).modTask t
      ({ · with sock := none })) t (-ECANCELED)).rest := by
  -- It is not on the ring, and its going exposes nobody.
  have absent : t ∉ c.armed := fun there =>
    behind (((firm.sound.placed.armed t).mp there).2 s kind sock).2
  have exposes : (fun w => c.rest.bare w || c.exposes t w) = fun _ => false := by
    funext w
    by_cases same : w = s
    · subst same; simp [Core.exposes, rest_bare, behind]
    · simp [Core.exposes, rest_bare, sock, Ne.symm same]
  have exits : Moves (still B) c.rest ⟨(c.disarm t).leaveSock t, update (fun _ => false) t true,
      fun w => c.rest.bare w || c.exposes t w⟩ := .one (.exit pending)
  have left : c.leaveSock t = c.modSock s fun k => { k with wq := wqRemove k.wq t } :=
    firm.sound.placed.leave_write pending kind sock
  rw [exposes, disarm_eq absent, left] at exits
  have letsGo := Move.drop (r := still B) (h := fun _ => false) (p := none) (q := (c.task t).newsock)
    (c := c.modSock s fun k => { k with wq := wqRemove k.wq t }) (x := update (fun _ => false) t true)
    (t := t) (by simp) (.inl rfl) (.inr rfl)
  rw [modTask_congr (g := ({ · with sock := none })) rfl] at letsGo
  have ends := ends_moves (B := B) (h := fun _ => false) (x := update (fun _ => false) t true) (t := t)
    (c := (c.modSock s fun k => { k with wq := wqRemove k.wq t }).modTask t ({ · with sock := none }))
    (e := cqeResult (-ECANCELED)) pending.1 (by simp [Core.modTask]; exact pending.2.1) (by simp)
    (cqeResult_status _) (cqeResult_ptr _) fun _ okay => absurd okay (cqeResult_failed (by decide))
  rw [out_back] at ends
  exact (exits.snoc letsGo).trans ends

/-- `impl_cancel` returns to the caller, goes on in `impl_task_free`, or waits. -/
theorem cancelReturn_core (u : UringIo) (t : TaskId) (free : Bool) (rc : Int) :
    (u.cancelReturn t free rc).toCore = u.toCore ∧
      ((u.cancelReturn t free rc).user = .idle ∨ (u.cancelReturn t free rc).user = .freeing t) := by
  unfold cancelReturn
  split
  · exact ⟨rfl, .inr rfl⟩
  · exact ⟨rfl, .inl rfl⟩

/-- The mark a cancel leaves on a write that is on the ring. -/
def wcancel (c : Core) (t : TaskId) : Core := c.modTask t ({ · with wcanceled := true })

/-- What a step does to the shared part: moves, or the mark of a cancel. -/
def Works (B : Prop) (u u' : UringIo) : Prop :=
  Moves (ring B) u.rest u'.rest ∨ ∃ t, u'.toCore = wcancel u.toCore t

/-- The mark is no part of what the moves keep. -/
theorem Firm.wcancel (firm : Firm B c.rest) (t : TaskId) : Firm B (wcancel c t).rest := by
  let noting : Rules := { ring B with notes := True }
  have move : Move noting c.rest (UringIo.wcancel c t).rest := .note trivial rfl
  have sound : Sound noting c.rest := firm.sound.rules rfl
  exact ⟨(sound.move move).rules rfl, firm.early.move move firm.sound.built⟩

/-- `impl_cancel`, up to its loop. -/
theorem implCancel_moves (firm : Firm B u.rest) (submitted : t < u.ntask) (free : Bool) :
    (Moves (still B) u.rest (u.implCancel t free).rest ∨
      (u.implCancel t free).toCore = wcancel u.toCore t) ∧ ((u.implCancel t free).user = .idle ∨
      (u.implCancel t free).user = .freeing t ∨ (u.implCancel t free).user = .canceling t free) := by
  have returns : ∀ (w : UringIo) (rc : Int), Moves (still B) u.rest w.rest →
      (Moves (still B) u.rest (w.cancelReturn t free rc).rest ∨
        (w.cancelReturn t free rc).toCore = wcancel u.toCore t) ∧
        ((w.cancelReturn t free rc).user = .idle ∨ (w.cancelReturn t free rc).user = .freeing t ∨
          (w.cancelReturn t free rc).user = .canceling t free) := by
    intro w rc moves
    obtain ⟨core, user⟩ := cancelReturn_core w t free rc
    rw [core]
    exact ⟨.inl moves, user.imp id .inl⟩
  have asked := cancelSubmit_core u
  unfold implCancel
  split
  · exact returns u _ (.refl _)
  rename_i isOpen
  have isOpen : (u.task t).done = false := by simpa using isOpen
  have pending : u.Pending (fun _ => false) t := ⟨submitted, isOpen, rfl⟩
  split
  case h_9 kind =>
    dsimp only
    split
    · rename_i s queued
      obtain ⟨s', sock, notHead⟩ := Option.bind_eq_some_iff.mp queued
      split at notHead
      · cases notHead
      · rename_i behind
        obtain rfl := Option.some.inj notHead
        exact returns _ 0 (unqueue_moves firm pending kind sock behind)
    · rcases cancelSubmit_cases u with got | got <;> rw [got] at asked ⊢
      · exact ⟨.inr rfl, .inr (.inr rfl)⟩
      · exact returns _ _ (.refl _)
  case h_10 => exact returns u _ (.refl _)
  all_goals
    rcases cancelSubmit_cases u with got | got <;> rw [got] at asked ⊢
    · exact ⟨.inl (.refl _), .inr (.inr rfl)⟩
    · exact returns _ _ (.refl _)

/-! ### The end of a handle -/

/-- `impl_task_free` of a task that is done. -/
theorem freeTask_spec {torn : Prop} (firm : Firm B u.rest) (tidy : Tidy torn u.toCore fun _ => false)
    (held : u.held t = true) (done : (u.task t).done = true) :
    Moves (ring B) u.rest (u.freeTask t).rest ∧ Tidy torn (u.freeTask t).toCore fun _ => false := by
  have moves : Moves (ring B) u.rest (u.freeTask t).rest := .one (.free done held trivial)
  refine ⟨moves, tidy.fewer (fun v pending => ?_) moves.later⟩
  exact Fewer.modTask (c := u.toCore) (t := t) (f := fun k => { k with frees := k.frees + 1 })
    (.inr ⟨rfl, rfl, rfl, rfl⟩) rfl v pending

/-- `impl_task_detach`: a won socket that nobody is using goes with its task. -/
theorem implTaskDetach_spec {torn : Prop} (firm : Firm B u.rest) (tidy : Tidy torn u.toCore fun _ => false)
    (held : u.held t = true) (unused : (u.task t).done = true → ∀ s, (u.task t).res.ptr = some s →
      s ∈ u.socks ∧ ∀ v, v < u.ntask → (u.task v).done = false → ¬ u.Refers v s) :
    Moves (ring B) u.rest (u.implTaskDetach t).rest ∧
      Tidy torn (u.implTaskDetach t).toCore fun _ => false := by
  unfold implTaskDetach
  split
  · rename_i done
    change Moves (ring B) u.rest ({ u.toCore.taskReap t with held := update u.held t false } : Core).rest ∧
      Tidy torn { u.toCore.taskReap t with held := update u.held t false } fun _ => false
    cases ptr : (u.task t).res.ptr with
    | some s =>
      rw [show u.toCore.taskReap t = (u.toCore.sockRelease s).freeMem t by unfold taskReap; rw [ptr]]
      obtain ⟨live, tasks⟩ := unused done s ptr
      have moves : Moves (ring B) u.rest
          ({ (u.toCore.sockRelease s).freeMem t with held := update u.held t false } : Core).rest :=
        (Moves.one (.release ⟨live, fun v there => tasks v there.1 there.2.1⟩)).snoc (.free done held trivial)
      refine ⟨moves, tidy.fewer (fun v pending => ?_) moves.later⟩
      exact Fewer.modTask (c := u.toCore) (t := t) (f := fun k => { k with frees := k.frees + 1 })
        (.inr ⟨rfl, rfl, rfl, rfl⟩) rfl v pending
    | none =>
      rw [show u.toCore.taskReap t = u.toCore.freeMem t by unfold taskReap; rw [ptr]]
      exact freeTask_spec firm tidy held done
  · rename_i isOpen
    have isOpen : (u.task t).done = false := by simpa using isOpen
    have moves : Moves (ring B) u.rest ({ u.toCore.modTask t ({ · with detached := true }) with
        held := update u.held t false } : Core).rest := .one (.detach isOpen held trivial)
    refine ⟨moves, tidy.fewer (fun v pending => ?_) moves.later⟩
    exact Fewer.modTask (c := u.toCore) (t := t) (f := ({ · with detached := true }))
      (.inr ⟨rfl, rfl, rfl, rfl⟩) rfl v pending

/-- The caller reads a result. -/
theorem readResult_moves (built : c.Built) (submitted : t < c.ntask) :
    Moves (still B) c.rest (readResult c t).rest := by
  unfold readResult
  split
  · rename_i s ptr
    refine .one (.claim (built.ptr t s submitted ptr) fun v less isOpen builds => ?_)
    exact (built.sole v s less isOpen builds).2.1 t submitted ptr
  · exact .refl _

/-! ### Teardown, up to its drain -/

theorem cancelAll_core (l : List TaskId) : ∀ {u : UringIo}, (u.cancelAll l).toCore = u.toCore := by
  induction l with
  | nil => exact fun {u} => rfl
  | cons t rest ih =>
    intro u
    unfold cancelAll
    refine ih.trans ?_
    split
    · rfl
    · exact cancelSubmit_core u

/-- The first loop of `impl_destroy` empties every FIFO it goes over. -/
theorem dismantleAll_spec (l : List SockId) : ∀ {c : Core}, Firm B c.rest → Closing c (fun _ => false) →
    Severed True c (fun _ => false) → (∀ s ∈ l, s ∈ c.socks) →
    (∀ s ∈ c.socks, s ∈ l ∨ (c.sock s).wq = []) →
    Moves (ring B) c.rest (dismantleAll c l).rest ∧ Closing (dismantleAll c l) (fun _ => false) ∧
      Severed True (dismantleAll c l) (fun _ => false) ∧
      ∀ s ∈ (dismantleAll c l).socks, ((dismantleAll c l).sock s).wq = [] := by
  induction l with
  | nil =>
    intro c firm closing lone _ empty
    exact ⟨.refl _, closing, lone, fun s live => (empty s live).resolve_left List.not_mem_nil⟩
  | cons s rest ih =>
    intro c firm closing lone inside empty
    have live := inside s List.mem_cons_self
    have moves := dismantle_moves firm live
    obtain ⟨socks, gone, others, _⟩ := dismantle_rest c s
    unfold dismantleAll
    obtain ⟨later, closing', lone', all⟩ := ih (c := dismantle c s) (firm.moves moves)
      (closing.loses (dismantle_loses firm live) moves.later.shut)
      (severed_dismantle lone firm live (.inl trivial))
      (fun v there => by rw [socks]; exact inside v (List.mem_cons_of_mem s there)) (fun v there => by
        rw [socks] at there
        by_cases same : v = s
        · rw [same]; exact .inr gone
        · rw [others v same]
          exact (empty v there).imp (fun isIn => (List.mem_cons.mp isIn).resolve_left same) id)
    exact ⟨moves.trans later, closing', lone', all⟩

/-- When every FIFO is empty every pending write has lost its socket. -/
theorem cleared_of_empty (firm : Firm B c.rest) (empty : ∀ s ∈ c.socks, (c.sock s).wq = []) :
    Cleared True c fun _ => false := by
  intro _ t pending kind
  by_contra some_
  obtain ⟨s, sock⟩ := Option.ne_none_iff_exists'.mp some_
  have live : s ∈ c.socks := firm.sound.placed.live t s pending (.inl sock)
  have queued : t ∈ (c.sock s).wq := (firm.sound.placed.fifo s t live).mpr ⟨pending, kind, sock⟩
  rw [empty s live] at queued
  cases queued

/-- `impl_destroy`, up to its drain. -/
theorem implDestroy_spec (firm : Firm B u.rest) (tidy : Tidy False u.toCore fun _ => false) :
    Moves (ring B) u.rest u.implDestroy.rest ∧ Tidy True u.implDestroy.toCore fun _ => false := by
  have lone : Severed True u.toCore fun _ => false := fun t pending kind sock s on =>
    ⟨.inl trivial, (tidy.lone t pending kind sock s on).2⟩
  obtain ⟨moves, closing', lone', empty⟩ := dismantleAll_spec u.socks firm tidy.closing lone (fun _ => id)
    fun s live => .inl live
  have core : u.implDestroy.toCore = dismantleAll u.toCore u.socks := cancelAll_core _
  rw [core]
  exact ⟨moves, closing', lone', cleared_of_empty (firm.moves moves) empty⟩

/-! ### Reachable states -/

/-- Whether teardown has begun. -/
def UUser.over : UUser → Prop
  | .destroying | .draining .destroy _ _ | .destroyed => True
  | _ => False

/-- The handle that the call the user thread is in will look at again. -/
def UUser.target : UUser → Option TaskId
  | .canceling t _ | .freeing t | .draining (.cancel t) _ _ | .draining (.freeing t) _ _ => some t
  | _ => none

/-- The calls a caller may make: on handles it has, and on sockets it was given and has not closed.
A connect or accept that is done is detached only while its socket is open and not in use. -/
def Allowed (u : UringIo) : Label → Prop
  | .tcpAccept _ _ s | .sockRead _ s _ | .sockWrite _ s _ | .sockClose _ s => Usable u.toCore s
  | .cancel t | .free t | .result t => u.held t = true
  | .detach t => u.held t = true ∧ ∀ s, (u.task t).res.ptr = some s →
    s ∈ u.socks ∧ ∀ v, v < u.ntask → (u.task v).done = false → ¬ u.Refers v s
  | _ => True

/-- What the kernel's answers keep to; a buffer that is in memory has a length that fits. -/
def Answered (u : UringIo) : Label → Prop
  | .cqe t res => u.answers (.cqe t res) = true ∧ (u.task t).buf.length < 2 ^ 63
  | _ => True

/-- Everything that holds in every state before the instance is gone. -/
structure Steady (B : Prop) (u : UringIo) : Prop where
  firm : Firm B u.rest
  tidy : Tidy (UUser.over u.user) u.toCore fun _ => false
  counted : Counted u
  target : ∀ t, UUser.target u.user = some t → u.held t = true
  fitted : B → Fitted (fun _ => False) u

theorem Steady.new (sqes : Nat → Bool) : Steady B (UringIo.new sqes) where
  firm := ⟨Sound.new, fun t s inside => absurd inside (Nat.not_lt_zero t)⟩
  tidy := by
    refine ⟨fun t s pending => ?_, fun t pending => ?_, fun never => never.elim⟩
    · exact absurd pending.1 (Nat.not_lt_zero t)
    · exact absurd pending.1 (Nat.not_lt_zero t)
  counted := rfl
  target t points := by cases points
  fitted _ := Fitted.new sqes

/-- When nothing is on the ring every task is done. -/
theorem done_of_empty (firm : Firm B c.rest) (empty : c.armed = []) (inside : t < c.ntask) :
    (c.task t).done = true := by
  -- A pending task is on the ring, or behind a write that is.
  by_contra isOpen
  have pending : c.Pending (fun _ => false) t := ⟨inside, by simpa using isOpen, rfl⟩
  have none_ : ∀ v, v ∉ c.armed := by simp [empty]
  have notTurn : ¬ c.InTurn (fun _ => false) t := fun inTurn =>
    none_ t ((firm.sound.placed.armed t).mpr ⟨pending, inTurn⟩)
  refine notTurn fun s kind sock => ⟨rfl, ?_⟩
  have live : s ∈ c.socks := firm.sound.placed.live t s pending (.inl sock)
  have queued : t ∈ (c.sock s).wq := (firm.sound.placed.fifo s t live).mpr ⟨pending, kind, sock⟩
  obtain ⟨w, rest, wq⟩ := List.exists_cons_of_ne_nil (List.ne_nil_of_mem queued)
  obtain ⟨pendingW, kindW, sockW⟩ := (firm.sound.placed.fifo s w live).mp (by
    change w ∈ (c.sock s).wq; rw [wq]; exact List.mem_cons_self)
  refine absurd ((firm.sound.placed.armed w).mpr ⟨pendingW, fun s' _ sock' => ?_⟩) (none_ w)
  obtain rfl : s = s' := Option.some.inj (sockW.symm.trans sock')
  exact ⟨rfl, by change (c.sock s).wq.head? = _; rw [wq]; rfl⟩

/-- Nothing is on the ring when nothing is counted. -/
theorem Counted.empty (counted : Counted u) (zero : u.inflight = 0) : u.armed = [] := by
  unfold Counted at counted
  exact List.eq_nil_of_length_eq_zero (by omega)

/-- A step does its work, and everything still holds. -/
def Goes (B : Prop) (u u' : UringIo) : Prop := Steady B u' ∧ Works B u u'

/-- A step that only moves the user thread on. -/
theorem Steady.become (steady : Steady B u) {user : UUser} {ret : Option URet}
    (torn : UUser.over user = UUser.over u.user)
    (target : ∀ t, UUser.target user = some t → u.held t = true) : Goes B u { u with user, ret } := by
  refine ⟨⟨steady.firm, ?_, steady.counted, target, fun bounds => (steady.fitted bounds).keeps (.aside rfl rfl rfl)⟩,
    .inl (.refl _)⟩
  change Tidy (UUser.over user) _ _
  rw [torn]
  exact steady.tidy

/-- Code that lets nothing enter, with the user thread where it goes. -/
theorem Steady.still (steady : Steady B u) {w : UringIo} (moves : Moves (still B) u.rest w.rest)
    (counted : Counted w) (torn : UUser.over w.user = UUser.over u.user)
    (target : ∀ t, UUser.target w.user = some t → u.held t = true)
    (fitted : B → Fitted (fun _ => False) w) : Goes B u w := by
  refine ⟨⟨steady.firm.moves (ring_of_still moves), ?_, counted, fun t points => ?_, fitted⟩,
    .inl (ring_of_still moves)⟩
  · rw [torn]
    exact steady.tidy.fewer (fewer_of_still moves) moves.later
  · have held := target t points
    exact (moves.later.keeps id t (steady.firm.sound.lives.bound t held)).trans held

/-- The mark of a cancel, with the user thread where it goes. -/
theorem Steady.wcancel (steady : Steady B u) {w : UringIo} (core : w.toCore = wcancel u.toCore t)
    (counted : Counted w) (torn : UUser.over w.user = UUser.over u.user)
    (target : ∀ t, UUser.target w.user = some t → u.held t = true)
    (fitted : B → Fitted (fun _ => False) w) : Goes B u w := by
  have fewer : Fewer u.toCore (UringIo.wcancel u.toCore t) (fun _ => false) fun _ => false :=
    .modTask (.inr ⟨rfl, rfl, rfl, rfl⟩) rfl
  have later : Later { ring B with notes := True } u.toCore (UringIo.wcancel u.toCore t) :=
    Later.modTask t ({ · with wcanceled := true }) rfl rfl rfl rfl rfl (fun _ => rfl) (Nat.le_refl _)
      fun none_ => absurd trivial none_
  refine ⟨⟨by rw [core]; exact steady.firm.wcancel t, ?_, counted, fun v points => ?_, fitted⟩, .inr ⟨t, core⟩⟩
  · rw [torn, core]
    exact steady.tidy.fewer fewer later
  · rw [core]
    exact target v points

/-- A submission, which returns to the caller. -/
theorem Steady.submits (steady : Steady B u) (idle : u.user = .idle) {w : UringIo} (submits : Submits B u w)
    (counted : Counted w) (back : w.user = .idle) (fitted : B → Fitted (fun _ => False) w) :
    Goes B u w := by
  have tidy : Tidy False u.toCore fun _ => false := by
    have := steady.tidy
    rw [idle] at this
    exact this
  refine ⟨⟨steady.firm.moves submits.1, ?_, counted, fun t points => ?_, fitted⟩, .inl submits.1⟩
  · rw [back]
    exact tidy.joins steady.firm submits.2
  · rw [back] at points
    cases points

/-- A submission that needs nothing but an entry returns. -/
theorem submitPlain_user (kind : TaskKind) (len : Nat) : (u.submitPlain kind len).user = .idle := by
  unfold submitPlain
  rcases sqeGet_cases (u.on (·.taskNew { kind })) with got | got <;> rw [got] <;> rfl

/-- The calls that wait for nothing and give no handle up. -/
def submitting : Label → Bool
  | .open _ _ | .close _ | .read _ _ | .write _ _ | .sleep _ | .spawn _ _ | .tcpConnect _ _ | .tcpListen _
  | .tcpAccept _ _ _ | .sockRead _ _ _ | .sockWrite _ _ _ | .sockClose _ _ => true
  | _ => false

/-- A submission leaves the user thread with the caller. -/
theorem submitting_user {label : Label} (submits : submitting label = true)
    (taken : u.call label = some u') : u'.user = .idle := by
  cases label with
  | «open» mem path =>
    obtain rfl := Option.some.inj taken
    unfold implOpen
    split
    · split
      · exact submitPlain_user _ _
      · rfl
    · rfl
  | close mem =>
    obtain rfl := Option.some.inj taken
    unfold implClose
    split
    · exact submitPlain_user _ _
    · rfl
  | read mem len =>
    obtain rfl := Option.some.inj taken
    unfold implRead
    split
    · exact submitPlain_user _ _
    · rfl
  | write mem len =>
    obtain rfl := Option.some.inj taken
    unfold implWrite
    split
    · exact submitPlain_user _ _
    · rfl
  | sleep mem =>
    obtain rfl := Option.some.inj taken
    unfold implSleep
    split
    · exact submitPlain_user _ _
    · rfl
  | spawn mem ret => obtain rfl := Option.some.inj taken; unfold implSpawn; split <;> rfl
  | tcpConnect mem ans => obtain rfl := Option.some.inj taken; unfold implTcpConnect; split <;> rfl
  | tcpListen ans =>
    obtain rfl := Option.some.inj taken
    unfold implTcpListen
    cases ans with
    | listening mem => dsimp only; split <;> rfl
    | _ => rfl
  | tcpAccept mem memSock ls => obtain rfl := Option.some.inj taken; unfold implTcpAccept; split <;> rfl
  | sockRead mem s len => obtain rfl := Option.some.inj taken; unfold implSockRead; split <;> rfl
  | sockWrite mem s buf => obtain rfl := Option.some.inj taken; unfold implSockWrite; split <;> rfl
  | sockClose mem s => obtain rfl := Option.some.inj taken; unfold implSockClose; split <;> rfl
  | _ => cases submits

/-- A submission other than a close makes one task at most, and leaves the others alone. -/
theorem submitting_submits {label : Label} (firm : Firm B u.rest) (allowed : u.Allowed label)
    (submits : submitting label = true) (other : ∀ mem s, label ≠ .sockClose mem s)
    (taken : u.call label = some u') : Submits B u u' := by
  cases label with
  | «open» mem path => obtain rfl := Option.some.inj taken; exact implOpen_submits mem path
  | close mem => obtain rfl := Option.some.inj taken; exact implClose_submits mem
  | read mem len => obtain rfl := Option.some.inj taken; exact implRead_submits mem len
  | write mem len => obtain rfl := Option.some.inj taken; exact implWrite_submits mem len
  | sleep mem => obtain rfl := Option.some.inj taken; exact implSleep_submits mem
  | spawn mem ret => obtain rfl := Option.some.inj taken; exact implSpawn_submits mem ret
  | tcpConnect mem ans => obtain rfl := Option.some.inj taken; exact implTcpConnect_submits firm mem ans
  | tcpListen ans => obtain rfl := Option.some.inj taken; exact implTcpListen_submits firm ans
  | tcpAccept mem memSock ls =>
    obtain rfl := Option.some.inj taken
    exact implTcpAccept_submits firm allowed mem memSock
  | sockRead mem s len => obtain rfl := Option.some.inj taken; exact implSockRead_submits allowed mem len
  | sockWrite mem s buf => obtain rfl := Option.some.inj taken; exact implSockWrite_submits firm allowed mem buf
  | sockClose mem s => exact absurd rfl (other mem s)
  | _ => cases submits

/-- `impl_cancel`, called for itself or by `impl_task_free`. -/
theorem implCancel_steady (steady : Steady B u) (idle : u.user = .idle) (held : u.held t = true) (free : Bool)
    (fitted : B → Fitted (fun _ => False) (u.implCancel t free)) : Goes B u (u.implCancel t free) := by
  have counted := steady.counted.implCancel t free
  obtain ⟨moves, user⟩ := implCancel_moves steady.firm (steady.firm.sound.lives.bound t held) free
  have torn : UUser.over (u.implCancel t free).user = UUser.over u.user := by
    rcases user with is | is | is <;> rw [is, idle] <;> rfl
  have target : ∀ v, UUser.target (u.implCancel t free).user = some v → u.held v = true := by
    intro v points
    have : v = t := by
      rcases user with is | is | is <;> rw [is] at points <;> simp [UUser.target] at points
      · exact points.symm
      · exact points.symm
    rw [this]
    exact held
  rcases moves with moves | core
  · exact steady.still moves counted torn target fitted
  · exact steady.wcancel core counted torn target fitted

/-- A vtable call. -/
theorem call_steady {label : Label} (steady : Steady B u) (idle : u.user = .idle) (allowed : u.Allowed label)
    (taken : u.call label = some u') : Goes B u u' := by
  have counted := steady.counted.call taken
  have fitted : B → Fitted (fun _ => False) u' := fun bounds => (steady.fitted bounds).call taken
  have tidy : Tidy False u.toCore fun _ => false := by
    have there := steady.tidy
    rw [idle] at there
    exact there
  have idleOver : UUser.over u.user = False := by rw [idle]; rfl
  cases submits : submitting label with
  | true =>
    have back := submitting_user submits taken
    by_cases close : ∃ mem s, label = .sockClose mem s
    · obtain ⟨mem, s, rfl⟩ := close
      obtain rfl := Option.some.inj taken
      obtain ⟨moves, after⟩ := implSockClose_spec steady.firm allowed tidy mem
      refine ⟨⟨steady.firm.moves moves, ?_, counted, fun t points => ?_, fitted⟩, .inl moves⟩
      · rw [back]; exact after
      · rw [back] at points; cases points
    · exact steady.submits idle (submitting_submits steady.firm allowed submits
        (fun mem s same => close ⟨mem, s, same⟩) taken) counted back fitted
  | false =>
    cases label with
    | step =>
      obtain rfl := Option.some.inj taken
      unfold implStep at *
      split
      · exact steady.become idleOver.symm fun t points => by cases points
      · exact steady.become idleOver.symm fun t points => by cases points
    | cancel t =>
      obtain rfl := Option.some.inj taken
      exact implCancel_steady steady idle allowed false fitted
    | free t =>
      obtain rfl := Option.some.inj taken
      unfold implTaskFree at *
      split
      · rename_i done
        rw [if_pos done] at counted fitted
        obtain ⟨moves, after⟩ := freeTask_spec steady.firm tidy allowed done
        exact ⟨⟨steady.firm.moves moves, after, counted, fun v points => (by cases points), fitted⟩, .inl moves⟩
      · rename_i isOpen
        rw [if_neg isOpen] at fitted
        exact implCancel_steady steady idle allowed true fitted
    | detach t =>
      obtain rfl := Option.some.inj taken
      have back : (u.implTaskDetach t).user = .idle := by unfold implTaskDetach; split <;> exact idle
      obtain ⟨moves, after⟩ := implTaskDetach_spec steady.firm tidy allowed.1 fun _ => allowed.2
      refine ⟨⟨steady.firm.moves moves, ?_, counted, fun v points => ?_, fitted⟩, .inl moves⟩
      · rw [back]; exact after
      · rw [back] at points; cases points
    | result t =>
      obtain rfl := Option.some.inj taken
      have moves : Moves (UringIo.still B) u.rest (u.on (readResult · t)).rest :=
        readResult_moves steady.firm.sound.built (steady.firm.sound.lives.bound t allowed)
      refine steady.still moves counted rfl (fun v points => ?_) fitted
      rw [show (u.on (readResult · t)).user = .idle from idle] at points
      cases points
    | destroy =>
      obtain rfl := Option.some.inj taken
      obtain ⟨moves, after⟩ := implDestroy_spec steady.firm tidy
      exact ⟨⟨steady.firm.moves moves, after, counted, fun v points => (by cases points), fitted⟩, .inl moves⟩
    | _ => first | (cases taken; done) | cases submits

/-! ### Every step -/

/-- What the kernel answered to the label, as the bounds on the writes need it. -/
theorem Answered.answers {label : Label} (answered : u.Answered label) : u.answers label = true := by
  cases label with
  | cqe t res => exact answered.1
  | _ => rfl

/-- A send that succeeds takes no more than is left of its write. -/
theorem cqe_fits {res : Int} (firm : Firm B u.rest) (fitted : Fitted (fun _ => False) u)
    (armed : t ∈ u.armed) (answered : u.Answered (.cqe t res)) (kind : (u.task t).kind = .taskSockWrite)
    (sent : ¬ res < 0) :
    (u.task t).off + res.toNat ≤ (u.task t).buf.length ∧ (u.task t).buf.length < 2 ^ 63 := by
  have isOpen : (u.task t).done = false := ((firm.sound.placed.armed t).mp armed).1.2.1
  have few := (answers_write answered.1 kind sent).1
  have asked := fitted.asks t armed id isOpen kind
  have below := toU32_le ((u.task t).buf.length - (u.task t).off)
  have fits := fitted.fits t isOpen kind
  exact ⟨by omega, answered.2⟩

/-- The loop of `impl_task_free`, at its condition: what it frees is done. -/
theorem freeLoop_steady (steady : Steady B u) (past : UUser.over u.user = False) (held : u.held t = true)
    (fitted : B → Fitted (fun _ => False) (u.freeLoop t)) : Goes B u (u.freeLoop t) := by
  have submitted := steady.firm.sound.lives.bound t held
  have tidy : Tidy False u.toCore fun _ => false := by
    have there := steady.tidy
    rw [past] at there
    exact there
  have counted := steady.counted.freeLoop t
  unfold freeLoop at *
  split
  · rename_i ends
    rw [if_pos ends] at counted fitted
    have done : (u.task t).done = true := by
      rcases Bool.or_eq_true _ _ ▸ ends with isDone | empty
      · exact isDone
      · exact done_of_empty steady.firm (steady.counted.empty (by simpa using empty)) submitted
    obtain ⟨moves, after⟩ := freeTask_spec steady.firm tidy held done
    exact ⟨⟨steady.firm.moves moves, after, counted, fun v points => (by cases points), fitted⟩, .inl moves⟩
  · refine steady.become past.symm fun v points => ?_
    obtain rfl : t = v := by simpa [UUser.target] using points
    exact held

/-- A call that waits looks at the condition of its loop. -/
theorem resume_steady (steady : Steady B u) (taken : u.step .resume = some u') :
    u'.user = .destroyed ∨ Goes B u u' := by
  have fitted : B → Fitted (fun _ => False) u' := fun bounds => (steady.fitted bounds).resume taken
  simp only [UringIo.step] at taken
  split at taken
  · rename_i t free canceling
    obtain rfl := Option.some.inj taken
    have past : UUser.over u.user = False := by rw [canceling]; rfl
    have held : u.held t = true := steady.target t (by rw [canceling]; rfl)
    have returns : ∀ rc, Goes B u (u.cancelReturn t free rc) := by
      intro rc
      unfold cancelReturn
      split
      · exact steady.become past.symm fun v points => by
          obtain rfl : t = v := by simpa [UUser.target] using points
          exact held
      · exact steady.become past.symm fun v points => by cases points
    right
    unfold cancelLoop
    split
    · exact returns _
    split
    · exact returns _
    · exact steady.become past.symm fun v points => by
        obtain rfl : t = v := by simpa [UUser.target] using points
        exact held
  · rename_i t freeing
    obtain rfl := Option.some.inj taken
    exact .inr (freeLoop_steady steady (by rw [freeing]; rfl) (steady.target t (by rw [freeing]; rfl)) fitted)
  · rename_i destroying
    obtain rfl := Option.some.inj taken
    unfold destroyLoop
    split
    · exact .inl rfl
    · exact .inr (steady.become (by rw [destroying]; rfl) fun v points => by cases points)
  · cases taken

/-- Every step keeps the invariants, or is the last. -/
theorem step_steady {label : Label} (steady : Steady B u) (allowed : u.Allowed label)
    (answered : B → u.Answered label) (taken : u.step label = some u') :
    u'.user = .destroyed ∨ Goes B u u' := by
  have fitted : B → Fitted (fun _ => False) u' := fun bounds =>
    (steady.fitted bounds).step (answered bounds).answers taken
  cases label with
  | cqe t res =>
    simp only [UringIo.step] at taken
    split at taken
    · rename_i why free got draining
      split at taken
      · rename_i armed
        obtain rfl := Option.some.inj taken
        have moves : Moves (UringIo.still B) u.rest (u.drainOp t res).rest := drainOp_moves steady.firm
          steady.tidy.lone steady.tidy.closing armed
          fun bounds kind sent => cqe_fits steady.firm (steady.fitted bounds) armed (answered bounds) kind sent
        refine .inr (steady.still moves (steady.counted.drainOp armed res) ?_ (fun v points => ?_) fitted)
        · rw [draining]; cases why <;> rfl
        · exact steady.target v (by rw [draining]; cases why <;> exact points)
      · cases taken
    · cases taken
  | cancelCqe =>
    simp only [UringIo.step] at taken
    split at taken
    · rename_i why free got draining
      split at taken
      · rename_i some_
        obtain rfl := Option.some.inj taken
        refine .inr (steady.still (.refl _) (steady.counted.drainCancel some_) ?_ (fun v points => ?_) fitted)
        · rw [draining]; cases why <;> rfl
        · exact steady.target v (by rw [draining]; cases why <;> exact points)
      · cases taken
    · cases taken
  | drained =>
    simp only [UringIo.step] at taken
    split at taken
    · rename_i why free draining
      obtain rfl := Option.some.inj taken
      right
      cases why with
      | step => exact steady.become (by rw [draining]; rfl) fun v points => by cases points
      | cancel t => exact steady.become (by rw [draining]; rfl) fun v points => steady.target v (by rw [draining]; exact points)
      | freeing t => exact steady.become (by rw [draining]; rfl) fun v points => steady.target v (by rw [draining]; exact points)
      | destroy => exact steady.become (by rw [draining]; rfl) fun v points => by cases points
    · cases taken
  | resume => exact resume_steady steady taken
  | _ =>
    simp only [UringIo.step] at taken
    split at taken
    · rename_i idle
      exact .inr (call_steady steady idle allowed taken)
    · cases taken

/-- Once the instance is gone nothing happens any more. -/
theorem step_destroyed {label : Label} (gone : u.user = .destroyed) : u.step label = none := by
  unfold UringIo.step
  rw [gone]
  cases label <;> rfl

/-- The runs of allowed steps, on a kernel that may answer anything. -/
abbrev Run : UringIo → UringIo → Prop := Machine.Path step Allowed

/-- The runs of allowed steps, on a kernel that keeps to its documentation. -/
abbrev Fair : UringIo → UringIo → Prop :=
  Machine.Path step fun u label => u.Allowed label ∧ u.Answered label

theorem Fair.run (fair : Fair u u') : Run u u' := Machine.Path.mono (fun _ _ both => both.1) fair

theorem steady_of_run {sqes : Nat → Bool} (run : Run (UringIo.new sqes) u) (there : u.user ≠ .destroyed) :
    Steady False u := by
  have sane : u.user = .destroyed ∨ Steady False u := by
    refine run.invariant (fun u => u.user = .destroyed ∨ Steady False u) (fun v label w before allowed taken => ?_)
      (.inr (.new sqes))
    rcases before with gone | steady
    · rw [step_destroyed gone] at taken
      cases taken
    · exact (step_steady steady allowed False.elim taken).imp id And.left
  exact sane.resolve_left there

theorem steady_of_fair {sqes : Nat → Bool} (fair : Fair (UringIo.new sqes) u)
    (there : u.user ≠ .destroyed) : Steady True u := by
  have sane : u.user = .destroyed ∨ Steady True u := by
    refine fair.invariant (fun u => u.user = .destroyed ∨ Steady True u) (fun v label w before both taken => ?_)
      (.inr (.new sqes))
    rcases before with gone | steady
    · rw [step_destroyed gone] at taken
      cases taken
    · exact (step_steady steady both.1 (fun _ => both.2) taken).imp id And.left
  exact sane.resolve_left there

/-- Whether a call may be made and a completion answered, as a check. -/
def obeys (u : UringIo) : Label → Bool
  | .tcpAccept _ _ s | .sockRead _ s _ | .sockWrite _ s _ | .sockClose _ s =>
    decide (s ∈ u.socks) && u.claimed s && !u.shut s
  | .cancel t | .free t | .result t => u.held t
  | .detach t => u.held t && (u.task t).res.ptr.all fun s =>
    decide (s ∈ u.socks) && !(List.range u.ntask).any fun v =>
      !(u.task v).done && ((u.task v).sock = some s || (u.task v).newsock = some s)
  | .cqe t res => u.answers (.cqe t res) && decide ((u.task t).buf.length < 2 ^ 63)
  | _ => true

theorem fair_of_obeys {label : Label} (obeyed : u.obeys label = true) :
    u.Allowed label ∧ u.Answered label := by
  have uses : ∀ s, (decide (s ∈ u.socks) && u.claimed s && !u.shut s) = true → Usable u.toCore s := by
    intro s there
    simp only [Bool.and_eq_true, decide_eq_true_eq, Bool.not_eq_true'] at there
    exact ⟨there.1.1, there.1.2, there.2⟩
  cases label with
  | tcpAccept mem memSock s => exact ⟨uses s obeyed, trivial⟩
  | sockRead mem s len => exact ⟨uses s obeyed, trivial⟩
  | sockWrite mem s buf => exact ⟨uses s obeyed, trivial⟩
  | sockClose mem s => exact ⟨uses s obeyed, trivial⟩
  | cancel t => exact ⟨obeyed, trivial⟩
  | free t => exact ⟨obeyed, trivial⟩
  | result t => exact ⟨obeyed, trivial⟩
  | cqe t res =>
    simp only [obeys, Bool.and_eq_true, decide_eq_true_eq] at obeyed
    exact ⟨trivial, obeyed⟩
  | detach t =>
    simp only [obeys, Bool.and_eq_true] at obeyed
    refine ⟨⟨obeyed.1, fun s ptr => ?_⟩, trivial⟩
    have unused := obeyed.2
    rw [ptr] at unused
    simp only [Option.all_some, Bool.and_eq_true, decide_eq_true_eq, Bool.not_eq_true',
      List.any_eq_false, List.mem_range] at unused
    refine ⟨unused.1, fun v less isOpen refers => unused.2 v less ?_⟩
    rcases refers with sock | newsock
    · simp [isOpen, sock]
    · simp [isOpen, newsock]
  | _ => exact ⟨trivial, trivial⟩

/-- The state a list of steps leads to, when every request for an entry but those listed is met. -/
def after (refused : List Nat) (labels : List Label) : UringIo :=
  Machine.drive step (UringIo.new fun n => !refused.contains n) labels

/-- Steps that check out make a run. -/
theorem fair_after (refused : List Nat) (labels : List Label)
    (checked : Machine.legal step obeys (UringIo.new fun n => !refused.contains n) labels = true) :
    Fair (UringIo.new fun n => !refused.contains n) (after refused labels) :=
  .of_legal obeys (fun _ _ => fair_of_obeys) labels (.refl _) checked

end UringIo

end Myio.Loop
