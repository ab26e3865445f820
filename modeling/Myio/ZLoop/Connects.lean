import Myio.ZLoop.Frames

/-! Every way out of a `tcp_connect` of the Zephyr event loop. -/

namespace Myio.Loop

open Function (update)
open Loop.Core

/-! ### What no move does to a socket -/

/-- A socket keeps its descriptor, and one that is off the list stays off. -/
def Keeping (s : SockId) (c c' : Core) : Prop :=
  s < c'.nsock ∧ (∀ fd, (c.sock s).fd = some fd → (c'.sock s).fd = some fd) ∧
    (s ∉ c.socks → s ∉ c'.socks)

theorem Move.keeping {r : Rules} {a b : Cut} {s : SockId} (move : Move r a b)
    (made : s < a.core.nsock) : Keeping s a.core b.core := by
  cases move with
  | enter =>
    rename_i c x h t _ _ _ _ _ _ _ _
    have other := setSlot_other (c.arm t) t s
    rw [setSlot_rest]
    exact ⟨made, fun fd isFd => other.2.1.trans isFd, id⟩
  | exit =>
    rename_i c x h t _
    have other := leaveSock_other (c.disarm t) t s
    rw [leaveSock_rest]
    exact ⟨made, fun fd isFd => other.1.trans isFd, id⟩
  | sever =>
    rename_i c x h t _ _ _
    have other := leaveSock_other c t s
    rw [leaveSock_rest]
    exact ⟨made, fun fd isFd => other.1.trans isFd, id⟩
  | park =>
    refine ⟨made, fun fd isFd => ?_, id⟩
    simp only [modSock, Function.update_apply]
    split
    · rename_i same; subst same; exact isFd
    · exact isFd
  | sockNew =>
    refine ⟨Nat.lt_succ_of_lt made, fun fd isFd => ?_, fun gone => ?_⟩
    · simp only [Core.sockNew, Function.update_of_ne (Nat.ne_of_lt made)]
      exact isFd
    · intro inside
      rcases List.mem_cons.mp inside with same | inside
      · exact Nat.ne_of_lt made same
      · exact gone inside
  | setFd live mine without loose =>
    refine ⟨made, fun fd isFd => ?_, id⟩
    simp only [modSock, Function.update_apply]
    split
    · rename_i same
      subst same
      rw [without] at isFd
      cases isFd
    · exact isFd
  | release =>
    refine ⟨made, fun fd isFd => ?_, fun gone inside => gone (List.mem_of_mem_erase inside)⟩
    simp only [Core.sockRelease, Function.update_apply]
    split
    · rename_i same; subst same; exact isFd
    · exact isFd
  | _ => exact ⟨made, fun _ => id, id⟩

theorem Moves.keeping {r : Rules} {a b : Cut} {s : SockId} (moves : Moves r a b)
    (made : s < a.core.nsock) : Keeping s a.core b.core := by
  induction moves with
  | refl => exact ⟨made, fun _ => id, id⟩
  | snoc before last ih =>
    obtain ⟨still, fds, gone⟩ := last.keeping ih.1
    exact ⟨still, fun fd isFd => fds fd (ih.2.1 fd isFd), fun out => gone (ih.2.2 out)⟩

namespace ZIo

variable {c : Core} {z z' : ZIo} {t u : TaskId} {s : SockId} {e : Result} {p : Poll}

/-! ### Completion -/

/-- What a completion stores, and the socket a detached task lets go of. -/
theorem taskComplete_ends (c : Core) (t : TaskId) (e : Result) :
    ((taskComplete c t e).task t).done = true ∧ ((taskComplete c t e).task t).res = e ∧
      (taskComplete c t e).socks =
        if (c.task t).detached then e.ptr.elim c.socks c.socks.erase else c.socks := by
  unfold taskComplete
  rw [finish_reapIfDetached]
  have detached : ((c.disarm t).task t).detached = (c.task t).detached := rfl
  unfold reaped
  rw [detached]
  cases isDetached : (c.task t).detached <;> cases points : e.ptr <;>
    simp [settle, modTask, settled, sockRelease, disarm]

/-- `connect_ready` of a connect on its socket. -/
theorem connectReady_ends (nodup : c.socks.Nodup) (sock : (c.task t).sock = some s) (soerr : Int) :
    ((connectReady c t soerr).task t).done = true ∧
      ((soerr = 0 ∧ ((connectReady c t soerr).task t).res = rOk 0 (some s) ∧
          (connectReady c t soerr).socks =
            if (c.task t).detached then c.socks.erase s else c.socks) ∨
        soerr ≠ 0 ∧ ((connectReady c t soerr).task t).res = rErr soerr ∧
          s ∉ (connectReady c t soerr).socks) := by
  have isSock : c.sockOf t = s := by simp [sockOf, sock]
  unfold connectReady taskOk taskErr
  dsimp only
  rw [isSock]
  split
  · rename_i zero
    obtain ⟨done, res, socks⟩ := taskComplete_ends (c.modTask t ({ · with sock := none })) t
      (rOk 0 (some s))
    refine ⟨done, .inl ⟨zero, res, socks.trans ?_⟩⟩
    have same : ((c.modTask t ({ · with sock := none })).task t).detached = (c.task t).detached := by
      simp [modTask]
    rw [same]
    cases (c.task t).detached <;> rfl
  · rename_i other
    obtain ⟨done, res, socks⟩ := taskComplete_ends
      ((c.modTask t ({ · with sock := none })).sockRelease s) t (rErr soerr)
    refine ⟨done, .inr ⟨other, res, ?_⟩⟩
    rw [socks]
    split
    · exact nodup.not_mem_erase
    · exact nodup.not_mem_erase

/-! ### The walk over the poll set -/

theorem writeTry_socks (fuel : Nat) : ∀ {z : ZIo}, (z.writeTry u fuel).1.socks = z.socks := by
  induction fuel with
  | zero => intro z; rfl
  | succ fuel ih =>
    intro z
    unfold writeTry
    split
    · split
      · rfl
      · rfl
      · exact ih
    · rfl

theorem writePop_socks (ptr : e.ptr = none) : (writePop c s u e).socks = c.socks := by
  unfold writePop
  rw [taskComplete_plain ptr]
  rfl

theorem writeArm_socks (l : List TaskId) : ∀ {z : ZIo}, (z.writeArm s l).socks = z.socks := by
  induction l with
  | nil => intro z; rfl
  | cons u rest ih =>
    intro z
    have tried : (z.writeTryAll u).1.socks = z.socks := writeTry_socks _
    unfold writeArm
    split
    · rename_i isEnd; rw [isEnd] at tried; exact tried
    · rename_i isEnd
      rw [isEnd] at tried
      exact ih.trans ((writePop_socks (by simp)).trans tried)
    · rename_i isEnd
      rw [isEnd] at tried
      exact ih.trans ((writePop_socks (by simp)).trans tried)

theorem writeReady_socks : (z.writeReady u).socks = z.socks := by
  have tried : (z.writeTryAll u).1.socks = z.socks := writeTry_socks _
  unfold writeReady
  dsimp only
  split
  · rename_i isEnd; rw [isEnd] at tried; exact tried
  · rename_i isEnd
    rw [isEnd] at tried
    exact (writeArm_socks _).trans ((writePop_socks (by simp)).trans tried)
  · rename_i isEnd
    rw [isEnd] at tried
    exact (writeArm_socks _).trans ((writePop_socks (by simp)).trans tried)

theorem readTry_socks (ans : RecvAns) : (readTry c u ans).1.socks = c.socks := by
  unfold readTry taskOk taskErr
  cases ans with
  | again => rfl
  | _ => dsimp only; rw [taskComplete_plain (by simp)]; rfl

/-- A completion lets go of no socket but the one it would deliver. -/
theorem taskComplete_socks (live : s ∈ c.socks) (other : e.ptr ≠ some s) :
    s ∈ (taskComplete c t e).socks := by
  rw [(taskComplete_ends c t e).2.2]
  split
  · cases points : e.ptr with
    | none => exact live
    | some v =>
      have apart : s ≠ v := fun same => other (by rw [points, same])
      exact (List.mem_erase_of_ne apart).mpr live
  · exact live

/-- `accept_try` lets go of no socket that was there before. -/
theorem acceptTry_socks (live : s ∈ z.socks) (made : s < z.nsock) (ans : AcceptAns) :
    s ∈ (z.acceptTry u ans).1.socks := by
  unfold acceptTry taskOk taskErr
  cases ans with
  | again => exact live
  | conn mem =>
    dsimp only [ZIo.on]
    split
    · refine taskComplete_socks (List.mem_cons_of_mem _ live) fun points => ?_
      exact Nat.ne_of_lt made (Option.some.inj points).symm
    · exact taskComplete_socks live (by simp)
  | _ => exact taskComplete_socks live (by simp)

/-- The handler of one entry touches no other task, if that is not a write. -/
theorem readyOne_task (sound : Sound calm z.rest) (other : t ≠ u)
    (noWrite : (z.task t).kind ≠ .taskSockWrite) : (z.readyOne p u).task t = z.task t := by
  unfold readyOne
  split
  · rename_i ready
    simp only [Bool.and_eq_true, decide_eq_true_eq] at ready
    split
    · change (connectReady z.toCore u (p.soerr u)).task t = z.task t
      unfold connectReady taskOk taskErr
      dsimp only
      split
      · exact (taskComplete_other other).trans (Function.update_of_ne other _ _)
      · exact (taskComplete_other other).trans (Function.update_of_ne other _ _)
    · exact acceptTry_task other _
    · exact readTry_task other _
    · rename_i isWrite
      exact (writeReadyChecked_eq sound ready.2 isWrite).2 t noWrite
    · rfl
  · rfl

/-- The handler of one entry lets go of no socket but the one its connect is building. -/
theorem readyOne_socks (sound : Sound calm z.rest) (live : s ∈ z.socks)
    (apart : (z.task u).kind = .taskConnect → (z.task u).sock ≠ some s) :
    s ∈ (z.readyOne p u).socks := by
  unfold readyOne
  split
  · rename_i ready
    simp only [Bool.and_eq_true, decide_eq_true_eq] at ready
    have pending : z.Pending (fun _ => false) u := ((sound.placed.armed u).mp ready.2).1
    split
    · rename_i isConnect
      obtain ⟨v, sock⟩ := sock_of_kind sound pending (.inl isConnect)
      have other : s ≠ v := fun same => apart isConnect (same ▸ sock)
      have isSock : z.sockOf u = v := by simp [sockOf, sock]
      change s ∈ (connectReady z.toCore u (p.soerr u)).socks
      unfold connectReady taskOk taskErr
      dsimp only
      rw [isSock]
      split
      · exact taskComplete_socks live (by simpa using Ne.symm other)
      · exact taskComplete_socks ((List.mem_erase_of_ne other).mpr live) (by simp)
    · exact acceptTry_socks live (sound.linked.bound s live) _
    · exact (readTry_socks _).symm ▸ live
    · exact writeReady_socks.symm ▸ live
    · exact live
  · exact live

/-- The walk passes a connect whose entry it does not come to. -/
theorem readyAll_passes (l : List TaskId) : ∀ {z : ZIo}, Sound calm z.rest → t ∉ l →
    (z.task t).kind = .taskConnect → (z.readyAll p l).task t = z.task t := by
  induction l with
  | nil => intro z _ _ _; rfl
  | cons u rest ih =>
    intro z sound outside kind
    obtain ⟨other, apart⟩ := List.ne_and_not_mem_of_not_mem_cons outside
    have one := readyOne_task (p := p) sound other (by simp [kind])
    have sound₁ := sound_after sound rfl (readyOne_spec sound p u).1
    unfold readyAll
    rw [ih sound₁ apart (by rw [one]; exact kind), one]

/-- The rest of the walk lets a socket be that a connect has delivered. -/
theorem readyAll_delivered (l : List TaskId) : ∀ {z : ZIo}, Sound calm z.rest → t < z.ntask →
    (z.task t).done = true → (z.task t).res.ptr = some s → s ∈ z.socks →
      s ∈ (z.readyAll p l).socks := by
  induction l with
  | nil => intro z _ _ _ _ live; exact live
  | cons u rest ih =>
    intro z sound submitted done ptr live
    obtain ⟨moves, -⟩ := readyOne_spec sound p u
    obtain ⟨stays, res, -⟩ := moves.later.done t submitted done
    have kept : s ∈ (z.readyOne p u).socks := by
      -- A handler that runs is one for a pending task, and no pending connect builds this socket.
      by_cases armed : u ∈ z.armed
      · refine readyOne_socks sound live fun isConnect sock => ?_
        have pending := ((sound.placed.armed u).mp armed).1
        exact (connect_sole sound pending isConnect sock).2.2.2.1 t submitted ptr
      · unfold readyOne
        rw [if_neg (by simp [armed])]
        exact live
    unfold readyAll
    exact ih (sound_after sound rfl moves) (Nat.lt_of_lt_of_le submitted moves.later.ntask) stays
      (by rw [show ((z.readyOne p u).task t).res = (z.task t).res from res]; exact ptr) kept

/-- The walk over the expired timers is about timers. -/
theorem fireTimers_socks {now : Int} (l : List TaskId) : ∀ {c : Core},
    (fireTimers c now l).socks = c.socks := by
  induction l with
  | nil => intro c; rfl
  | cons u rest ih =>
    intro c
    unfold fireTimers
    rw [ih]
    split
    · unfold taskOk
      rw [taskComplete_plain (by simp)]
      rfl
    · rfl

theorem turned_result (why : Why) : ((z.turned why).task t).done = (z.task t).done ∧
    ((z.turned why).task t).res = (z.task t).res ∧ (z.turned why).socks = z.socks := by
  cases why with
  | freeing u =>
    change ((z.freeLoop u).task t).done = _ ∧ ((z.freeLoop u).task t).res = _ ∧ (z.freeLoop u).socks = _
    unfold freeLoop
    split
    · exact taskFree_result u
    split
    · exact taskFree_result u
    · exact ⟨rfl, rfl, rfl⟩
  | _ => exact ⟨rfl, rfl, rfl⟩

/-- How a connect ends when its socket has become writable. -/
def Verdict (z z' : ZIo) (t : TaskId) (s : SockId) (soerr : Int) : Prop :=
  (z'.task t).done = true ∧
    (soerr = 0 ∧ (z'.task t).res = rOk 0 (some s) ∧
        (((z.task t).detached = true ∧ s ∉ z'.socks) ∨ ((z.task t).detached = false ∧ s ∈ z'.socks)) ∨
      soerr ≠ 0 ∧ (z'.task t).res = rErr soerr ∧ s ∉ z'.socks)

theorem Verdict.congr {z'' : ZIo} {soerr : Int} (verdict : Verdict z z' t s soerr)
    (done : (z''.task t).done = (z'.task t).done) (res : (z''.task t).res = (z'.task t).res)
    (socks : z''.socks = z'.socks) : Verdict z z'' t s soerr := by
  unfold Verdict at verdict ⊢
  rw [done, res, socks]
  exact verdict

/-- The walk, split at one entry. -/
theorem readyAll_append {post : List TaskId} (pre : List TaskId) : ∀ {z : ZIo},
    z.readyAll p (pre ++ t :: post) = ((z.readyAll p pre).readyOne p t).readyAll p post := by
  induction pre with
  | nil => intro z; rfl
  | cons u pre ih => intro z; exact ih

/-- The walk over the poll set, from a state in which the connect is pending. -/
theorem readyAll_connect {l : List TaskId} (sound : Sound calm z.rest)
    (pending : z.Pending (fun _ => false) t) (kind : (z.task t).kind = .taskConnect)
    (sock : (z.task t).sock = some s) (nodup : l.Nodup) (listed : t ∈ l) :
    (p.revents t = false ∧ (z.readyAll p l).task t = z.task t) ∨
      (p.revents t = true ∧ Verdict z (z.readyAll p l) t s (p.soerr t)) := by
  have single : lone (z.task t).kind = true := by rw [kind]; rfl
  -- The entries before the connect's own, the entry, and those after it.
  obtain ⟨pre, post, rfl, outside⟩ := List.eq_append_cons_of_mem listed
  rw [readyAll_append]
  have first := (readyAll_spec p pre sound).1
  have same : (z.readyAll p pre).task t = z.task t := readyAll_passes pre sound outside kind
  have sound₁ := sound_after sound rfl first
  generalize z.readyAll p pre = z₁ at first same sound₁ ⊢
  have pending₁ : z₁.Pending (fun _ => false) t :=
    ⟨Nat.lt_of_lt_of_le pending.1 first.later.ntask, by rw [same]; exact pending.2.1, rfl⟩
  have kind₁ : (z₁.task t).kind = .taskConnect := by rw [same]; exact kind
  have sock₁ : (z₁.task t).sock = some s := by rw [same]; exact sock
  have armed := lone_armed sound₁ pending₁ (by rw [same]; exact single)
  have apart : t ∉ post := (List.nodup_cons.mp (List.nodup_append.mp nodup).2.1).1
  cases ready : p.revents t with
  | false =>
    have passed : z₁.readyOne p t = z₁ := by
      unfold readyOne
      rw [if_neg (by simp [ready])]
    rw [passed]
    exact .inl ⟨rfl, (readyAll_passes post sound₁ apart kind₁).trans same⟩
  | true =>
    have handled : z₁.readyOne p t = z₁.on (connectReady · t (p.soerr t)) := by
      unfold readyOne
      rw [if_pos (by simp [ready, armed]), kind₁]
    have second := (readyOne_spec sound₁ p t).1
    rw [handled] at second ⊢
    have nodup₁ : z₁.socks.Nodup := sound₁.linked.nodup
    obtain ⟨done, verdict⟩ := connectReady_ends nodup₁ sock₁ (p.soerr t)
    have sound₂ := sound_after sound₁ rfl second
    have known : t < (z₁.on (connectReady · t (p.soerr t))).ntask :=
      Nat.lt_of_lt_of_le pending₁.1 second.later.ntask
    have third := (readyAll_spec p post sound₂).1
    obtain ⟨stays, res, -⟩ := third.later.done t known done
    have made : s < (z₁.on (connectReady · t (p.soerr t))).nsock :=
      (second.keeping (sound₁.linked.bound s (connect_sole sound₁ pending₁ kind₁ sock₁).1)).1
    have gone := (third.keeping made).2.2
    refine .inr ⟨rfl, stays, ?_⟩
    rcases verdict with ⟨zero, okay, socks⟩ | ⟨other, failed, out⟩
    · refine .inl ⟨zero, res.trans okay, ?_⟩
      rw [same] at socks
      cases detached : (z.task t).detached with
      | true =>
        rw [detached, if_pos rfl] at socks
        have out : s ∉ (connectReady z₁.toCore t (p.soerr t)).socks := by
          rw [socks]
          exact nodup₁.not_mem_erase
        exact .inl ⟨rfl, gone out⟩
      | false =>
        rw [detached, if_neg (by simp)] at socks
        have live : s ∈ (connectReady z₁.toCore t (p.soerr t)).socks := by
          rw [socks]
          exact (connect_sole sound₁ pending₁ kind₁ sock₁).1
        exact .inr ⟨rfl, readyAll_delivered post sound₂ known done
          (by rw [show ((z₁.on (connectReady · t (p.soerr t))).task t).res = rOk 0 (some s) from okay]
              rfl) live⟩
    · exact .inr ⟨other, res.trans failed, gone out⟩

/-- One turn of the loop, for a pending connect. -/
theorem runLoopOnce_connect (good : Good z) (why : Why) (p : Poll)
    (pending : z.Pending (fun _ => false) t) (kind : (z.task t).kind = .taskConnect)
    (sock : (z.task t).sock = some s) :
    (¬ (0 < p.rc ∧ p.revents t = true) ∧ (z.runLoopOnce p why).task t = z.task t) ∨
      ((0 < p.rc ∧ p.revents t = true) ∧ Verdict z (z.runLoopOnce p why) t s (p.soerr t)) := by
  have fired := fireTimers_moves p.now z.armed good.sound good.sound.placed.nodup fun _ => id
  have same : (fireTimers z.toCore p.now z.armed).task t = z.task t := by
    rw [fireTimers_task p.now z.armed good.sound.placed.nodup t, if_neg]
    rintro ⟨-, isTimer, -⟩
    rw [kind] at isTimer
    cases isTimer
  let z₁ := z.on fun c => fireTimers c p.now c.armed
  have sound₁ : Sound calm z₁.rest := sound_after good.sound rfl fired
  have task₁ : z₁.task t = z.task t := same
  have pending₁ : z₁.Pending (fun _ => false) t :=
    ⟨Nat.lt_of_lt_of_le pending.1 fired.later.ntask, by rw [task₁]; exact pending.2.1, rfl⟩
  have armed₁ := lone_armed sound₁ pending₁ (by rw [task₁, kind]; rfl)
  have listed : t ∈ owners z.toCore := by
    have single : lone (z.task t).kind = true := by rw [kind]; rfl
    exact List.mem_filter.mpr ⟨lone_armed good.sound pending single, by rw [kind]; rfl⟩
  have nodup : (owners z.toCore).Nodup := good.sound.placed.nodup.filter _
  unfold runLoopOnce
  dsimp only
  split
  · rename_i silent
    refine .inl ⟨fun ready => absurd ready.1 (Int.not_lt.mpr silent), ?_⟩
    exact (turned_task pending₁.2.1 armed₁ why).trans task₁
  · rename_i some
    have walked := readyAll_connect (p := p) sound₁ pending₁ (by rw [task₁]; exact kind)
      (by rw [task₁]; exact sock) nodup listed
    have moves := (readyAll_spec p (owners z.toCore) sound₁).1
    have sound₂ := sound_after sound₁ rfl moves
    have known := Nat.lt_of_lt_of_le pending₁.1 moves.later.ntask
    show _ ∨ _ ∧ Verdict z (if p.evfd then { z₁.readyAll p (owners z.toCore) with user := .reading why }
      else (z₁.readyAll p (owners z.toCore)).turned why) t s (p.soerr t)
    generalize z₁.readyAll p (owners z.toCore) = z₂ at walked sound₂ known ⊢
    rcases walked with ⟨unready, kept⟩ | ⟨ready, verdict⟩
    · refine .inl ⟨fun there => Bool.false_ne_true (unready.symm.trans there.2), ?_⟩
      have pending₂ : z₂.Pending (fun _ => false) t :=
        ⟨known, by rw [kept, task₁]; exact pending.2.1, rfl⟩
      have armed₂ := lone_armed sound₂ pending₂ (by rw [kept, task₁, kind]; rfl)
      split
      · exact kept.trans task₁
      · exact (turned_task pending₂.2.1 armed₂ why).trans (kept.trans task₁)
    · refine .inr ⟨⟨Int.not_le.mp some, ready⟩, ?_⟩
      unfold Verdict at verdict
      rw [task₁] at verdict
      have verdict : Verdict z z₂ t s (p.soerr t) := verdict
      split
      · exact verdict.congr rfl rfl rfl
      · obtain ⟨done, res, socks⟩ := turned_result (z := z₂) (t := t) why
        exact verdict.congr done res socks

/-! ### From submission to the end -/

/-- The error set by the call that failed inside submit, if one did. -/
def failing (z : ZIo) : ConnectAns → Option Int
  | .unresolved rc errno => some (if rc = DNS_EAI_SYSTEM then errno else -(rc.natAbs : Int))
  | .socket errno => some errno
  | .blocking errno => some errno
  | .connect mem rc =>
    if z.hasSock mem then
      match rc with
      | .failed errno _ => some errno
      | _ => none
    else some ENOMEM

/-- No block and no descriptor that a submission in `z` took, as far as `z₁`, is left in `z₂`. -/
def Released (z z₁ z₂ : ZIo) : Prop :=
  (∀ s, z.nsock ≤ s → s < z₁.nsock → s ∉ z₂.socks ∧ (z₂.sock s).frees = 1) ∧
    ∀ fd, z.ndesc ≤ fd → fd < z₁.ndesc → (z₂.desc fd).closes = 1

/-- The task delivers one socket, of that submission, which is on the list and open. -/
def Delivered (z z₁ z₂ : ZIo) (t : TaskId) : Prop :=
  z₁.nsock = z.nsock + 1 ∧ z₁.ndesc = z.ndesc + 1 ∧ (z₂.task t).res = rOk 0 (some z.nsock) ∧
    z.nsock ∈ z₂.socks ∧ (z₂.sock z.nsock).frees = 0 ∧ (z₂.sock z.nsock).fd = some z.ndesc ∧
    (z₂.desc z.ndesc).closes = 0

/-- A connect is over: it has completed once, with a socket or without a trace. -/
def Concluded (z z₁ z₂ : ZIo) (t : TaskId) : Prop :=
  (z₂.task t).dones = 1 ∧ (Delivered z z₁ z₂ t ∨ Released z z₁ z₂)

/-- The steps that decide a connect in progress. -/
def decides (z : ZIo) (t : TaskId) : Label → Bool
  | .cancel u | .free u => u = t
  | .poll p => 0 < p.rc && p.revents t
  | .resume => z.user = .destroying && z.armed.head? = some t
  | _ => false

/-- The result of a connect in progress, by the step that ends it. -/
def verdict (t : TaskId) (s : SockId) : Label → Result
  | .poll p => if p.soerr t = 0 then rOk 0 (some s) else rErr (p.soerr t)
  | _ => rCanceled

/-- What is promised of a connect in a later state. -/
structure Pursued (z z₁ z₂ : ZIo) (t : TaskId) : Prop where
  once : (z₂.task t).dones ≤ 1
  /-- A step that decides it ends it, and whatever ends it leaves nothing behind. -/
  ends : (z₂.task t).done = false → ∀ label z₃, z₂.Allowed label → z₂.step label = some z₃ →
    (z₂.decides t label = true → (z₃.task t).done = true) ∧
    ((z₃.task t).done = true → Concluded z z₁ z₃ t ∧ (z₃.task t).res = verdict t z.nsock label)
  /-- The instance is not destroyed before it is over. -/
  awaited : (z₂.task t).done = false → z₂.user = .destroying → ∀ z₃, z₂.step .resume = some z₃ →
    z₃.user ≠ .destroyed

/-- What is promised of a `tcp_connect`, whatever its calls answer and whatever comes later. -/
structure Connects (z : ZIo) (mem : Bool) (ans : ConnectAns) : Prop where
  /-- Without a task nothing is taken. -/
  refused : z.hasTask mem = false → (z.implTcpConnect mem ans).toCore = z.toCore
  /-- A call that fails ends the connect with its error. -/
  failed : z.hasTask mem = true → ∀ error, failing z ans = some error →
    ((z.implTcpConnect mem ans).task z.ntask).done = true ∧
      ((z.implTcpConnect mem ans).task z.ntask).res = rErr error
  atOnce : z.hasTask mem = true → ((z.implTcpConnect mem ans).task z.ntask).done = true →
    Concluded z (z.implTcpConnect mem ans) (z.implTcpConnect mem ans) z.ntask
  later : z.hasTask mem = true → ∀ z₂, Run (z.implTcpConnect mem ans) z₂ →
    Pursued z (z.implTcpConnect mem ans) z₂ z.ntask

/-- A completion of a task that the caller still has touches no socket and no descriptor. -/
theorem taskComplete_attached (attached : (c.task t).detached = false) :
    (taskComplete c t e).nsock = c.nsock ∧ (taskComplete c t e).ndesc = c.ndesc ∧
      (taskComplete c t e).sock = c.sock ∧ (taskComplete c t e).desc = c.desc ∧
      (taskComplete c t e).socks = c.socks := by
  have same : ((c.disarm t).task t).detached = false := attached
  unfold taskComplete
  rw [finish_reapIfDetached, reaped, same]
  exact ⟨rfl, rfl, rfl, rfl, rfl⟩

/-- How far a submission has come when it returns. -/
inductive Submitted (z z₁ : ZIo) : ConnectAns → Prop
  /-- A call failed before there was a descriptor. -/
  | early {ans error} (failed : failing z ans = some error) (done : (z₁.task z.ntask).done = true)
      (res : (z₁.task z.ntask).res = rErr error) (nsock : z₁.nsock = z.nsock)
      (ndesc : z₁.ndesc = z.ndesc) : Submitted z z₁ ans
  /-- A call failed before there was a socket. -/
  | bare {ans error} (failed : failing z ans = some error) (done : (z₁.task z.ntask).done = true)
      (res : (z₁.task z.ntask).res = rErr error) (nsock : z₁.nsock = z.nsock)
      (ndesc : z₁.ndesc = z.ndesc + 1) (closes : (z₁.desc z.ndesc).closes = 1) : Submitted z z₁ ans
  /-- The socket was there when the connect failed. -/
  | lost {memSock errno after} (has : z.hasSock memSock = true)
      (done : (z₁.task z.ntask).done = true) (res : (z₁.task z.ntask).res = rErr after)
      (nsock : z₁.nsock = z.nsock + 1) (ndesc : z₁.ndesc = z.ndesc + 1) (gone : z.nsock ∉ z₁.socks)
      (fd : (z₁.sock z.nsock).fd = some z.ndesc) :
      Submitted z z₁ (.connect memSock (.failed errno after))
  | won {memSock} (has : z.hasSock memSock = true) (done : (z₁.task z.ntask).done = true)
      (res : (z₁.task z.ntask).res = rOk 0 (some z.nsock)) (nsock : z₁.nsock = z.nsock + 1)
      (ndesc : z₁.ndesc = z.ndesc + 1) (live : z.nsock ∈ z₁.socks)
      (fd : (z₁.sock z.nsock).fd = some z.ndesc) : Submitted z z₁ (.connect memSock .connected)
  | goes {memSock} (has : z.hasSock memSock = true)
      (task : z₁.task z.ntask = { kind := .taskConnect, sock := some z.nsock })
      (nsock : z₁.nsock = z.nsock + 1) (ndesc : z₁.ndesc = z.ndesc + 1)
      (fd : (z₁.sock z.nsock).fd = some z.ndesc) : Submitted z z₁ (.connect memSock .inProgress)

/-- A submission that fails with a descriptor and no socket closes the descriptor. -/
theorem wasted {ans : ConnectAns} {error : Int} (failed : failing z ans = some error)
    (made : (z.toCore.taskNew { kind := .taskConnect }).task z.ntask = { kind := .taskConnect }) :
    Submitted z (((((z.on (·.taskNew { kind := .taskConnect })).on (·.newDesc)).on
      (·.closeDesc z.ndesc)).on (taskComplete · z.ntask (rErr error))).give
        (.submitted (some z.ntask))) ans := by
  let k := ((z.toCore.taskNew { kind := .taskConnect }).newDesc).closeDesc z.ndesc
  obtain ⟨done, res, -⟩ := taskComplete_ends k z.ntask (rErr error)
  obtain ⟨nsock, ndesc, -, desc, -⟩ := @taskComplete_attached k z.ntask (rErr error)
    (congrArg Task.detached made)
  refine .bare failed done res nsock ndesc ?_
  show ((taskComplete k z.ntask (rErr error)).desc z.ndesc).closes = 1
  rw [desc]
  simp [k, closeDesc, modDesc, newDesc, taskNew]

/-- A connect in progress, on the socket and the descriptor its submission in `z` took. -/
structure Trying (z z₂ : ZIo) : Prop where
  good : Good z₂
  known : z.ntask < z₂.ntask
  kind : (z₂.task z.ntask).kind = .taskConnect
  sock : (z₂.task z.ntask).done = false → (z₂.task z.ntask).sock = some z.nsock
  made : z.nsock < z₂.nsock
  fd : (z₂.sock z.nsock).fd = some z.ndesc

namespace Trying

variable {z₁ z₂ z₃ : ZIo} {label : Label}

/-- What one step does to a connect in progress. -/
theorem fate (trying : Trying z z₂) (isOpen : (z₂.task z.ntask).done = false)
    (allowed : z₂.Allowed label) (step : z₂.step label = some z₃) :
    SameBut (z₂.task z.ntask) (z₃.task z.ntask) ∨
      (∃ p, label = .poll p ∧ (0 < p.rc ∧ p.revents z.ntask = true) ∧
        Verdict z₂ z₃ z.ntask z.nsock (p.soerr z.ntask)) ∨
      ((∀ p, label ≠ .poll p) ∧ CanceledAt z₂ z₃ z.ntask) := by
  have pending : z₂.Pending (fun _ => false) z.ntask := ⟨trying.known, isOpen, rfl⟩
  by_cases isPoll : ∃ p, label = .poll p
  · obtain ⟨p, rfl⟩ := isPoll
    unfold ZIo.step at step
    dsimp only at step
    split at step
    · rename_i why polling
      cases step
      rcases runLoopOnce_connect trying.good why p pending trying.kind (trying.sock isOpen) with
        ⟨-, same⟩ | ⟨ready, verdict⟩
      · exact .inl (by rw [same]; exact .refl _)
      · exact .inr (.inl ⟨p, rfl, ready, verdict⟩)
    · cases step
  · rcases step_fate trying.good allowed step pending (by rw [trying.kind]; rfl) with
      there | same | canceled
    · exact absurd there isPoll
    · exact .inl same
    · exact .inr (.inr ⟨fun p isP => isPoll ⟨p, isP⟩, canceled⟩)

theorem step (trying : Trying z z₂) (allowed : z₂.Allowed label) (step : z₂.step label = some z₃) :
    Trying z z₃ := by
  have moves := step_moves trying.good allowed step
  have later := moves.later
  obtain ⟨made, fds, -⟩ := moves.keeping trying.made
  refine ⟨(step_good trying.good allowed step).1, Nat.lt_of_lt_of_le trying.known later.ntask,
    (later.args z.ntask trying.known).1.trans trying.kind, fun isOpen => ?_, made, fds _ trying.fd⟩
  have before : (z₂.task z.ntask).done = false := by
    cases done : (z₂.task z.ntask).done with
    | false => rfl
    | true =>
      have stays : (z₃.task z.ntask).done = true := (later.done z.ntask trying.known done).1
      rw [stays] at isOpen
      cases isOpen
  rcases trying.fate before allowed step with ⟨detached, same⟩ | ⟨p, -, -, verdict⟩ | ⟨-, canceled⟩
  · rw [same]
    exact trying.sock before
  · rw [verdict.1] at isOpen
    cases isOpen
  · rw [canceled.1] at isOpen
    cases isOpen

/-- The socket of the connect is off the list: its block and its descriptor are back. -/
theorem released (trying : Trying z z₃) (nsock : z₁.nsock = z.nsock + 1)
    (ndesc : z₁.ndesc = z.ndesc + 1) (gone : z.nsock ∉ z₃.socks) : Released z z₁ z₃ := by
  have frees : (z₃.sock z.nsock).frees = 1 :=
    (trying.good.sound.linked.frees z.nsock trying.made).trans (if_neg gone)
  have closes : (z₃.desc z.ndesc).closes = 1 :=
    (trying.good.sound.linked.closes z.nsock z.ndesc trying.made trying.fd).trans frees
  refine ⟨fun s low high => ?_, fun fd low high => ?_⟩
  · obtain rfl : s = z.nsock := by omega
    exact ⟨gone, frees⟩
  · obtain rfl : fd = z.ndesc := by omega
    exact closes

/-- The socket of the connect is on the list and has been delivered. -/
theorem delivered (trying : Trying z z₃) (nsock : z₁.nsock = z.nsock + 1)
    (ndesc : z₁.ndesc = z.ndesc + 1) (live : z.nsock ∈ z₃.socks)
    (res : (z₃.task z.ntask).res = rOk 0 (some z.nsock)) : Delivered z z₁ z₃ z.ntask := by
  have frees : (z₃.sock z.nsock).frees = 0 :=
    (trying.good.sound.linked.frees z.nsock trying.made).trans (if_pos live)
  exact ⟨nsock, ndesc, res, live, frees, trying.fd,
    (trying.good.sound.linked.closes z.nsock z.ndesc trying.made trying.fd).trans frees⟩

/-- A connect that is done has been completed once. -/
theorem once (trying : Trying z z₂) : (z₂.task z.ntask).dones =
    if (z₂.task z.ntask).done then 1 else 0 :=
  (trying.good.sound.lives.each z.ntask trying.known).dones

/-- However a connect in progress ends, it ends once, with its socket or without a trace. -/
theorem concluded (trying : Trying z z₂) (nsock : z₁.nsock = z.nsock + 1)
    (ndesc : z₁.ndesc = z.ndesc + 1) (isOpen : (z₂.task z.ntask).done = false)
    (allowed : z₂.Allowed label) (step : z₂.step label = some z₃)
    (done : (z₃.task z.ntask).done = true) :
    Concluded z z₁ z₃ z.ntask ∧ (z₃.task z.ntask).res = verdict z.ntask z.nsock label := by
  have after := trying.step allowed step
  have dones : (z₃.task z.ntask).dones = 1 := by rw [after.once, if_pos done]
  rcases trying.fate isOpen allowed step with ⟨detached, same⟩ | ⟨p, rfl, -, verdict⟩ |
    ⟨noPoll, canceled⟩
  · rw [same, isOpen] at done
    cases done
  · rcases verdict with ⟨-, ⟨zero, res, ⟨-, gone⟩ | ⟨-, live⟩⟩ | ⟨other, res, gone⟩⟩
    · exact ⟨⟨dones, .inr (after.released nsock ndesc gone)⟩, res.trans (if_pos zero).symm⟩
    · exact ⟨⟨dones, .inl (after.delivered nsock ndesc live res)⟩, res.trans (if_pos zero).symm⟩
    · exact ⟨⟨dones, .inr (after.released nsock ndesc gone)⟩, res.trans (if_neg other).symm⟩
  · obtain ⟨-, res, gone⟩ := canceled
    have isSock : z₂.sockOf z.ntask = z.nsock := by simp [sockOf, trying.sock isOpen]
    refine ⟨⟨dones, .inr (after.released nsock ndesc (isSock ▸ gone trying.kind))⟩, res.trans ?_⟩
    cases label with
    | poll p => exact absurd rfl (noPoll p)
    | _ => rfl

/-- `destroy` does not come to its end while a connect is in progress. -/
theorem awaited (trying : Trying z z₂) (isOpen : (z₂.task z.ntask).done = false)
    (destroying : z₂.user = .destroying) (step : z₂.step .resume = some z₃) :
    z₃.user ≠ .destroyed := by
  have pending : z₂.Pending (fun _ => false) z.ntask := ⟨trying.known, isOpen, rfl⟩
  have armed := lone_armed trying.good.sound pending (by rw [trying.kind]; rfl)
  change z₂.resume = some z₃ at step
  unfold resume at step
  rw [destroying] at step
  cases step
  unfold destroyRound
  split
  · rename_i u rest isArmed
    have submitted : u < z₂.ntask :=
      ((trying.good.sound.placed.armed u).mp (by change u ∈ z₂.armed; rw [isArmed]; simp)).1.1
    obtain ⟨-, user, -⟩ := implCancel_good trying.good submitted fun v => by rw [destroying]; rfl
    split
    · rename_i z' isEnd
      rw [isEnd] at user
      rw [show z'.user = .destroying from user.trans destroying]
      simp
    · simp
  · rename_i empty
    rw [empty] at armed
    cases armed

end Trying

/-- A connect that is done when submit returns was completed once. -/
theorem Submitted.concluded {z₁ : ZIo} {ans : ConnectAns} (submitted : Submitted z z₁ ans)
    (good : Good z₁) (known : z.ntask < z₁.ntask) (done : (z₁.task z.ntask).done = true) :
    Concluded z z₁ z₁ z.ntask := by
  have dones : (z₁.task z.ntask).dones = 1 :=
    (good.sound.lives.each z.ntask known).dones.trans (if_pos done)
  have linked := good.sound.linked
  refine ⟨dones, ?_⟩
  cases submitted with
  | early _ _ _ nsock ndesc =>
    refine .inr ⟨fun s low high => ?_, fun fd low high => ?_⟩
    · omega
    · omega
  | bare _ _ _ nsock ndesc closes =>
    refine .inr ⟨fun s low high => ?_, fun fd low high => ?_⟩
    · omega
    · obtain rfl : fd = z.ndesc := by omega
      exact closes
  | lost _ _ _ nsock ndesc gone isFd =>
    have made : z.nsock < z₁.nsock := by omega
    have frees : (z₁.sock z.nsock).frees = 1 := (linked.frees z.nsock made).trans (if_neg gone)
    refine .inr ⟨fun s low high => ?_, fun fd low high => ?_⟩
    · obtain rfl : s = z.nsock := by omega
      exact ⟨gone, frees⟩
    · obtain rfl : fd = z.ndesc := by omega
      exact (linked.closes z.nsock z.ndesc made isFd).trans frees
  | won _ _ res nsock ndesc live isFd =>
    have made : z.nsock < z₁.nsock := by omega
    have frees : (z₁.sock z.nsock).frees = 0 := (linked.frees z.nsock made).trans (if_pos live)
    exact .inl ⟨nsock, ndesc, res, live, frees, isFd,
      (linked.closes z.nsock z.ndesc made isFd).trans frees⟩
  | goes _ task =>
    rw [task] at done
    cases done

/-- A submission whose close leaves `errno` alone reports the error of the call that failed. -/
theorem Submitted.failed {z₁ : ZIo} {ans : ConnectAns} {error : Int} (submitted : Submitted z z₁ ans)
    (sane : ∀ memSock errno after, ans = .connect memSock (.failed errno after) →
      z.hasSock memSock = true → after = errno) (isError : failing z ans = some error) :
    (z₁.task z.ntask).done = true ∧ (z₁.task z.ntask).res = rErr error := by
  cases submitted with
  | early failed done res =>
    obtain rfl := Option.some.inj (failed.symm.trans isError)
    exact ⟨done, res⟩
  | bare failed done res =>
    obtain rfl := Option.some.inj (failed.symm.trans isError)
    exact ⟨done, res⟩
  | lost has done res =>
    obtain rfl : _ = error := by simpa [failing, has] using isError
    rw [sane _ _ _ rfl has] at res
    exact ⟨done, res⟩
  | won has => simp [failing, has] at isError
  | goes has => simp [failing, has] at isError

end ZIo

end Myio.Loop
