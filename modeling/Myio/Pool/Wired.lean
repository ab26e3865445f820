import Myio.Lib.Stream
import Myio.Pool.Phased

/-! What was sent on a socket, and by which writes. -/

namespace Myio.Core

open Function (update)
open Machine

/-- A write on a socket. -/
def WriteOn (c : Core) (s : SockId) (t : TaskId) : Prop :=
  (c.task t).kind = .opSockWrite ∧ (c.task t).sock = some s

/-- The part of its buffer a task has sent on a socket. -/
def sentOn (c : Core) (s : SockId) (t : TaskId) : List UInt8 :=
  if (c.task t).kind = .opSockWrite ∧ (c.task t).sock = some s
  then (c.task t).buf.take (c.task t).sent else []

/-- What the writes on a socket have sent, in the order they were submitted. -/
def transcript (c : Core) (s : SockId) : List UInt8 := stream (c.sentOn s) c.ntask

/-- Every socket's bytes are those of its writes, in order, and writes take turns. -/
structure Wired (c : Core) (x : TaskId → Bool) : Prop where
  fd : ∀ t s, t < c.ntask → opOnSock (c.task t).kind → (c.task t).sock = some s →
    (c.task t).fd = some (c.sock s).fd
  unsent : ∀ t, t < c.ntask → (c.task t).started = false → (c.task t).sent = 0
  turn : ∀ t u s, t < u → u < c.ntask → c.WriteOn s t → c.WriteOn s u → c.Pending x t →
    (c.task u).started = false
  wire : ∀ s, s < c.nsock → (c.desc (c.sock s).fd).wire = c.transcript s
  whole : ∀ t, t < c.ntask → (c.task t).kind = .opSockWrite → (c.task t).done = true →
    (c.task t).res.status = .ok →
    (c.task t).sent = (c.task t).buf.length ∧ (c.task t).res.value = (c.task t).buf.length

variable {o : OpKind → Result → Prop} {c c' : Core} {x x' : TaskId → Bool}
  {h h' : SockId → Bool}

/-- What has been sent is the same when the tasks' arguments and progress are. -/
theorem transcript_congr (ntask : c'.ntask = c.ntask) (s : SockId)
    (task : ∀ t, t < c.ntask → (c'.task t).kind = (c.task t).kind ∧
      (c'.task t).sock = (c.task t).sock ∧ (c'.task t).buf = (c.task t).buf ∧
      (c'.task t).sent = (c.task t).sent) : c'.transcript s = c.transcript s := by
  unfold transcript
  rw [ntask]
  refine stream_congr fun t inside => ?_
  obtain ⟨kind, sock, buf, sent⟩ := task t inside
  simp only [sentOn, kind, sock, buf, sent]

/-- Nothing is sent, no task starts, and no write succeeds. -/
theorem Wired.congr (wired : c.Wired x) (ntask : c'.ntask = c.ntask) (nsock : c'.nsock = c.nsock)
    (task : ∀ t, t < c.ntask → (c'.task t).kind = (c.task t).kind ∧
      (c'.task t).sock = (c.task t).sock ∧ (c'.task t).buf = (c.task t).buf ∧
      (c'.task t).sent = (c.task t).sent ∧ (c'.task t).fd = (c.task t).fd ∧
      (c'.task t).started = (c.task t).started)
    (ended : ∀ t, t < c.ntask → (c.task t).kind = .opSockWrite → (c'.task t).done = true →
      (c'.task t).res.status = .ok → (c.task t).sent = (c.task t).buf.length ∧
        (c'.task t).res.value = (c.task t).buf.length)
    (pending : ∀ t s, t + 1 < c.ntask → c.WriteOn s t → c'.Pending x' t → c.Pending x t)
    (sock : ∀ t s, t < c.ntask → opOnSock (c.task t).kind → (c.task t).sock = some s →
      (c'.sock s).fd = (c.sock s).fd)
    (wire : ∀ s, s < c.nsock → (c'.desc (c'.sock s).fd).wire = (c.desc (c.sock s).fd).wire) :
    c'.Wired x' := by
  have written : ∀ t s, t < c.ntask → (c'.WriteOn s t ↔ c.WriteOn s t) := by
    intro t s inside; simp only [WriteOn, task t inside]
  constructor
  case fd =>
    rw [ntask]
    intro t s inside blocks isSock
    rw [(task t inside).1] at blocks
    rw [(task t inside).2.1] at isSock
    rw [(task t inside).2.2.2.2.1, sock t s inside blocks isSock]
    exact wired.fd t s inside blocks isSock
  case unsent =>
    rw [ntask]
    intro t inside
    rw [(task t inside).2.2.2.2.2, (task t inside).2.2.2.1]
    exact wired.unsent t inside
  case turn =>
    rw [ntask]
    intro t u s less inside writeT writeU isPending
    have insideT := Nat.lt_trans less inside
    rw [written t s insideT] at writeT
    rw [written u s inside] at writeU
    rw [(task u inside).2.2.2.2.2]
    exact wired.turn t u s less inside writeT writeU
      (pending t s (Nat.lt_of_le_of_lt less inside) writeT isPending)
  case wire =>
    rw [nsock]
    intro s made
    rw [wire s made, wired.wire s made]
    refine (transcript_congr ntask s fun t inside => ?_).symm
    obtain ⟨kind, isSock, buf, sent, _, _⟩ := task t inside
    exact ⟨kind, isSock, buf, sent⟩
  case whole =>
    rw [ntask]
    intro t inside isWrite done okay
    rw [(task t inside).1] at isWrite
    rw [(task t inside).2.2.1, (task t inside).2.2.2.1]
    exact ended t inside isWrite done okay

/-- A change of what the transcripts do not depend on. -/
theorem Wired.same (wired : c.Wired x) (ntask : c'.ntask = c.ntask) (nsock : c'.nsock = c.nsock)
    (task : c'.task = c.task) (sock : ∀ s, (c'.sock s).fd = (c.sock s).fd)
    (wire : ∀ s, s < c.nsock → (c'.desc (c.sock s).fd).wire = (c.desc (c.sock s).fd).wire) :
    c'.Wired x := by
  refine wired.congr ntask nsock (fun t _ => by rw [task]; simp) ?_ ?_ (fun _ s _ _ _ => sock s) ?_
  · rw [task]; exact wired.whole
  · intro t s _ _ there; unfold Pending at there ⊢; rw [ntask, task] at there; exact there
  · intro s made; rw [sock]; exact wire s made

/-- A change inside one task's record that leaves its arguments, progress and end alone. -/
theorem Wired.modTask (wired : c.Wired x) (t : TaskId) (f : Task → Task)
    (same : f (c.task t) = { c.task t with
      cancelReq := (f (c.task t)).cancelReq, detached := (f (c.task t)).detached
      worker := (f (c.task t)).worker, frees := (f (c.task t)).frees
      dones := (f (c.task t)).dones }) : (c.modTask t f).Wired x := by
  have fields : ∀ u, (c.modTask t f).task u = { c.task u with
      cancelReq := ((c.modTask t f).task u).cancelReq
      detached := ((c.modTask t f).task u).detached
      worker := ((c.modTask t f).task u).worker, frees := ((c.modTask t f).task u).frees
      dones := ((c.modTask t f).task u).dones } := by
    intro u
    simp only [Core.modTask, Function.update_apply]
    split
    · rename_i isT; subst isT; exact same
    · rfl
  refine wired.congr rfl rfl (fun u _ => ?_) ?_ ?_ (fun _ _ _ _ _ => rfl) (fun _ _ => rfl)
  · rw [fields]; exact ⟨rfl, rfl, rfl, rfl, rfl, rfl⟩
  · intro u inside; rw [fields]; exact wired.whole u inside
  · intro u s _ _ there
    have isOpen := there.2.1
    rw [fields] at isOpen
    exact ⟨there.1, isOpen, there.2.2⟩

/-- A new task has sent nothing, and comes after all others. -/
theorem Wired.taskNew (wired : c.Wired x) {k : Task} (unsent : k.sent = 0)
    (unstarted : k.started = false) (isOpen : k.done = false)
    (fd : ∀ s, opOnSock k.kind → k.sock = some s → k.fd = some (c.sock s).fd) :
    (c.taskNew k).Wired (update x c.ntask true) := by
  have old : ∀ u, u ≠ c.ntask → (c.taskNew k).task u = c.task u := by
    intro u other; simp [Core.taskNew, other]
  have new : (c.taskNew k).task c.ntask = k := by simp [Core.taskNew]
  have below : ∀ u, u < c.ntask + 1 → u ≠ c.ntask → u < c.ntask := fun u inside other =>
    Nat.lt_of_le_of_ne (Nat.le_of_lt_succ inside) other
  constructor
  case fd =>
    intro u s inside blocks isSock
    by_cases isNew : u = c.ntask
    · subst isNew; rw [new] at *; exact fd s blocks isSock
    · rw [old u isNew] at *; exact wired.fd u s (below u inside isNew) blocks isSock
  case unsent =>
    intro u inside notStarted
    by_cases isNew : u = c.ntask
    · subst isNew; rw [new]; exact unsent
    · rw [old u isNew] at *; exact wired.unsent u (below u inside isNew) notStarted
  case turn =>
    intro t u s less inside writeT writeU isPending
    by_cases isNew : u = c.ntask
    · subst isNew; rw [new]; exact unstarted
    · have insideU := below u inside isNew
      have notNew : t ≠ c.ntask := Nat.ne_of_lt (Nat.lt_trans less insideU)
      unfold WriteOn at writeT writeU
      unfold Pending at isPending
      rw [old t notNew] at writeT isPending
      rw [Function.update_of_ne notNew] at isPending
      rw [old u isNew] at writeU ⊢
      exact wired.turn t u s less insideU writeT writeU
        ⟨Nat.lt_trans less insideU, isPending.2⟩
  case wire =>
    intro s made
    have last : (c.taskNew k).sentOn s c.ntask = [] := by simp [sentOn, new, unsent]
    refine (wired.wire s made).trans ?_
    unfold transcript
    change _ = stream _ (c.ntask + 1)
    rw [stream_succ, last, List.append_nil]
    refine (stream_congr fun t inside => ?_).symm
    simp only [sentOn, old t (Nat.ne_of_lt inside)]
  case whole =>
    intro u inside isWrite done
    by_cases isNew : u = c.ntask
    · subst isNew; simp [new, isOpen] at done
    · rw [old u isNew] at *; exact wired.whole u (below u inside isNew) isWrite done

/-- A new socket has a silent descriptor, and no task refers to it. -/
theorem Wired.sockLink (wired : c.Wired x) (closes : c.Closes x) {fd : Fd} (loose : c.Loose fd) :
    (c.sockLink fd).Wired x := by
  have old : ∀ s, s < c.nsock → (c.sockLink fd).sock s = c.sock s := by
    intro s made; simp [Core.sockLink, Function.update_of_ne (Nat.ne_of_lt made)]
  obtain ⟨isFd, unsent, turn, wire, whole⟩ := wired
  constructor
  case fd =>
    intro t s inside blocks isSock
    rw [old s (closes.sock_bound t s inside isSock)]
    exact isFd t s inside blocks isSock
  case unsent => exact unsent
  case turn => exact turn
  case wire =>
    intro s made
    by_cases isNew : s = c.nsock
    · subst isNew
      have silent : (c.sockLink fd).transcript c.nsock = [] := by
        refine stream_nil fun t inside => ?_
        have elsewhere : ¬ ((c.task t).kind = .opSockWrite ∧ (c.task t).sock = some c.nsock) :=
          fun there => Nat.lt_irrefl _ (closes.sock_bound t _ inside there.2)
        exact if_neg elsewhere
      rw [silent]
      simp [Core.sockLink, loose.fresh]
    · have before : s < c.nsock := Nat.lt_of_le_of_ne (Nat.le_of_lt_succ made) isNew
      rw [old s before]
      exact wire s before
  case whole => exact whole

/-- A pending write that has started heads its FIFO, so it is the first that is not done. -/
theorem Placed.started_first (placed : c.Placed x h) {s : SockId} {t u : TaskId}
    (writeT : c.WriteOn s t) (writeU : c.WriteOn s u) (pendingT : c.Pending x t)
    (pendingU : c.Pending x u) (less : t < u) : (c.task u).started = false ∧ u ∉ c.queue := by
  have blocks : ∀ v, c.WriteOn s v → opOnSock (c.task v).kind = true := by
    intro v there; rw [there.1]; rfl
  obtain ⟨s', sock, live⟩ := placed.sock_live u pendingU (blocks u writeU)
  obtain rfl : s = s' := Option.some.inj (writeU.2.symm.trans sock)
  have memT := (placed.wq_mem s t live).mpr ⟨pendingT, writeT⟩
  have memU := (placed.wq_mem s u live).mpr ⟨pendingU, writeU⟩
  have notHead : (c.sock s).wq.head? ≠ some u := by
    -- The FIFO is sorted, so its head is at most the earlier write.
    intro head
    obtain ⟨rest, wq⟩ := List.head?_eq_some_iff.mp head
    have sorted := placed.wq_sorted s live
    rw [wq] at sorted memT
    rcases List.mem_cons.mp memT with same | behind
    · exact Nat.ne_of_lt less same
    · exact Nat.lt_asymm less ((List.pairwise_cons.mp sorted).1 t behind)
  have := placed.wq_rest s u live memU (.inr notHead)
  exact ⟨this.2, this.1⟩

/-- The head of the work queue is started in its turn. -/
theorem Wired.start {t : TaskId} {rest : List TaskId} (wired : c.Wired x)
    (placed : c.Placed x h) (queue : c.queue = t :: rest) (ntask : c'.ntask = c.ntask)
    (nsock : c'.nsock = c.nsock) (sock : c'.sock = c.sock) (desc : c'.desc = c.desc)
    (same : ∀ u, (c'.task u).kind = (c.task u).kind ∧ (c'.task u).sock = (c.task u).sock ∧
      (c'.task u).buf = (c.task u).buf ∧ (c'.task u).sent = (c.task u).sent ∧
      (c'.task u).fd = (c.task u).fd ∧ (c'.task u).done = (c.task u).done ∧
      (c'.task u).res = (c.task u).res)
    (started : ∀ u, (c'.task u).started = if u = t then true else (c.task u).started) :
    c'.Wired x := by
  have written : ∀ s u, c'.WriteOn s u ↔ c.WriteOn s u := by
    intro s u; simp only [WriteOn, same u]
  have pending : ∀ u, c'.Pending x u ↔ c.Pending x u := by
    intro u; simp only [Pending, same u, ntask]
  constructor
  case fd =>
    intro u s
    rw [ntask, (same u).1, (same u).2.1, (same u).2.2.2.2.1, sock]
    exact wired.fd u s
  case unsent =>
    intro u inside notStarted
    rw [started] at notStarted
    split at notStarted
    · cases notStarted
    · rw [(same u).2.2.2.1]; exact wired.unsent u (ntask ▸ inside) notStarted
  case turn =>
    intro v u s less inside writeV writeU isPending
    rw [written] at writeV writeU
    rw [pending] at isPending
    rw [started]
    split
    · -- A write with an earlier one still pending is not on the queue.
      rename_i isT
      subst isT
      have onQueue : u ∈ c.queue := by simp [queue]
      have pendingU := (placed.queue_pending u onQueue).1
      exact absurd onQueue (placed.started_first writeV writeU isPending pendingU less).2
    · exact wired.turn v u s less (ntask ▸ inside) writeV writeU isPending
  case wire =>
    intro s made
    rw [desc, sock, wired.wire s (nsock ▸ made)]
    refine (transcript_congr ntask s fun u _ => ?_).symm
    exact ⟨(same u).1, (same u).2.1, (same u).2.2.1, (same u).2.2.2.1⟩
  case whole =>
    intro u
    rw [ntask, (same u).1, (same u).2.2.1, (same u).2.2.2.1, (same u).2.2.2.2.2.1,
      (same u).2.2.2.2.2.2]
    exact wired.whole u

/-- The one write at its turn sends, and its bytes come after all that were sent before. -/
theorem Wired.send {w : WorkerId} {t : TaskId} {off n : Nat} (wired : c.Wired x)
    (placed : c.Placed x h) (owned : c.Owned) (closes : c.Closes x) (phased : c.Phased)
    (at_ : c.At w t (.sending off)) : (Pool.sendBytes c w t off n).Wired x := by
  obtain ⟨isWrite, isOff, _⟩ : c.PhaseOk t (.sending off) := phased w t _ at_
  obtain ⟨pending, started⟩ := placed.run_pending w t at_.runs
  have blocks : opOnSock (c.task t).kind = true := by rw [isWrite]; rfl
  obtain ⟨s, isSock, live⟩ := placed.sock_live t pending blocks
  have made := closes.sock_bound t s pending.1 isSock
  have isFd := wired.fd t s pending.1 blocks isSock
  have fields : ∀ u, (Pool.sendBytes c w t off n).task u =
      if u = t then { c.task t with sent := off + n } else c.task u := by
    intro u
    simp only [Pool.sendBytes, setPc, modWorker, Core.modTask, modDesc, Function.update_apply]
  constructor
  case fd =>
    intro u v inside blocks' isSock'
    rw [fields] at *
    have := wired.fd u v inside
    change _ = some (c.sock v).fd
    grind
  case unsent =>
    intro u inside notStarted
    rw [fields] at *
    have := wired.unsent u inside
    grind
  case turn =>
    intro v u s' less inside writeV writeU isPending
    unfold WriteOn at writeV writeU
    rw [fields] at writeV writeU ⊢
    have isOpen := isPending.2.1
    rw [fields] at isOpen
    have := wired.turn v u s' less inside (by unfold WriteOn; grind) (by unfold WriteOn; grind)
      ⟨isPending.1, by grind, isPending.2.2⟩
    grind
  case wire =>
    intro u madeU
    change ((Pool.sendBytes c w t off n).desc (c.sock u).fd).wire = _
    have desc : ∀ fd, ((Pool.sendBytes c w t off n).desc fd).wire =
        if fd = (c.sock s).fd then (c.desc fd).wire ++ ((c.task t).buf.drop off).take n
        else (c.desc fd).wire := by
      intro fd
      simp only [Pool.sendBytes, setPc, modWorker, Core.modTask, modDesc, isFd, Option.getD_some,
        Function.update_apply]
      grind
    rw [desc]
    split
    · rename_i same
      obtain rfl := owned.sock_inj u s madeU made same
      rw [wired.wire u madeU]
      refine (stream_grow (k := t) pending.1 (fun v _ other => ?_) (fun v less inside => ?_) ?_).symm
      · simp only [sentOn, fields, other, if_false]
      · -- A later write has not been started, and so has sent nothing.
        unfold sentOn
        split
        · rename_i writeV
          have := wired.turn t v u less inside ⟨isWrite, isSock⟩ writeV pending
          simp [wired.unsent v inside this]
        · rfl
      · simp only [sentOn, fields, if_true, isWrite, isSock, and_self, ← isOff]
        exact List.take_add
    · rename_i differs
      rw [wired.wire u madeU]
      refine (stream_congr fun v _ => ?_).symm
      have elsewhere : u ≠ s := by rintro rfl; exact differs rfl
      simp only [sentOn, fields]
      grind
  case whole =>
    intro u inside isWrite' done okay
    rw [fields] at *
    have := wired.whole u inside
    have := pending.2.1
    grind

/-- Every move keeps the sockets' transcripts right. -/
theorem Wired.move (move : Move o ⟨c, x, h⟩ ⟨c', x', h'⟩) (wired : c.Wired x)
    (placed : c.Placed x h) (owned : c.Owned) (closes : c.Closes x) (phased : c.Phased) :
    c'.Wired x' := by
  cases move with
  | stir stirred => rw [stirred.rest]; exact wired.same rfl rfl rfl (fun _ => rfl) fun _ _ => rfl
  | exit pending unstarted =>
    rename_i t
    rw [leaveSock_rest, queueRemove_rest]
    refine wired.congr rfl rfl (fun _ _ => ⟨rfl, rfl, rfl, rfl, rfl, rfl⟩) wired.whole ?_
      (fun _ _ _ _ _ => by rw [leaveSock_sock]) (fun _ _ => by rw [leaveSock_sock])
    intro u _ _ _ there
    simp only [Pending, Function.update_apply] at there ⊢; grind
  | exitRun at_ pending =>
    rename_i w t phase
    rw [leaveSock_rest]
    refine wired.congr rfl rfl (fun _ _ => ⟨rfl, rfl, rfl, rfl, rfl, rfl⟩) wired.whole ?_
      (fun _ _ _ _ _ => by rw [leaveSock_sock]; rfl) (fun _ _ => by rw [leaveSock_sock]; rfl)
    intro u _ _ _ there
    simp only [Pending, setPc, modWorker, Function.update_apply] at there ⊢; grind
  | settle submitted open_ out settles allowed =>
    rename_i t res
    have fields : ∀ u, (c.settle t res).task u =
        if u = t then settled res (c.task t) else c.task u := by
      intro u; simp only [Core.settle, Core.modTask, Function.update_apply]
    refine wired.congr rfl rfl (fun u _ => ?_) (fun u inside isWrite => ?_) ?_
      (fun _ _ _ _ _ => rfl) (fun _ _ => rfl)
    · rw [fields]; grind [settled]
    · rw [fields]
      split
      · rename_i isT; subst isT; exact fun _ => settles.write isWrite
      · exact wired.whole u inside isWrite
    · intro u _ _ _ there
      have isOpen := there.2.1
      rw [fields] at isOpen
      have other : u ≠ t := by rintro rfl; simp [settled] at isOpen
      have notOut := there.2.2
      rw [Function.update_of_ne other] at notOut
      exact ⟨there.1, by simpa [other] using isOpen, notOut⟩
  | promote live bare head => exact wired.same rfl rfl rfl (fun _ => rfl) fun _ _ => rfl
  | fail live bare usable wq =>
    rename_i s n rest
    rw [failHead_eq]
    have fields : ∀ u, ((c.modSock s fun k =>
        { k with wq := k.wq.tail, inflight := k.inflight - 1 }).modTask n
          (settled (rErr EAGAIN))).task u =
        if u = n then settled (rErr EAGAIN) (c.task n) else c.task u := by
      intro u; simp only [Core.modTask, modSock, Function.update_apply]
    have sock : ∀ u, (((c.modSock s fun k =>
        { k with wq := k.wq.tail, inflight := k.inflight - 1 }).modTask n
          (settled (rErr EAGAIN))).sock u).fd = (c.sock u).fd := by
      intro u; simp only [Core.modTask, modSock, Function.update_apply]; grind
    refine wired.congr rfl rfl (fun u _ => ?_) (fun u inside isWrite => ?_) ?_
      (fun _ u _ _ _ => sock u) (fun u _ => by rw [sock]; rfl)
    · rw [fields]; grind [settled]
    · rw [fields]
      split
      · intro _ okay; simp [settled] at okay
      · exact wired.whole u inside isWrite
    · intro u _ _ _ there
      have isOpen := there.2.1
      rw [fields] at isOpen
      exact ⟨there.1, by grind [settled], there.2.2⟩
  | headed empty => exact wired
  | create fresh =>
    refine wired.taskNew fresh.sent fresh.started fresh.done fun s blocks isSock => ?_
    obtain ⟨u, _, there, _, fd⟩ := fresh.sock blocks
    obtain rfl : s = u := Option.some.inj (isSock.symm.trans there)
    exact fd
  | createClose live open_ mine =>
    refine (wired.taskNew (k := { kind := .opSockClose, sock := some _ }) rfl rfl rfl ?_).same
      rfl rfl rfl (fun u => ?_) fun _ _ => rfl
    · intro s blocks; simp [opOnSock] at blocks
    · simp only [modSock, Function.update_apply]; grind
  | enqueue submitted open_ unstarted out kind live onSock =>
    rename_i t _
    have pending : ∀ u s, c.WriteOn s u → u ≠ t := by
      rintro u s isWrite rfl; exact kind isWrite.1
    split
    · refine wired.congr rfl rfl (fun _ _ => ⟨rfl, rfl, rfl, rfl, rfl, rfl⟩) wired.whole
        (fun u s _ isWrite there => ?_) (fun _ u _ _ _ => ?_) (fun u _ => ?_)
      · have other := pending u s isWrite
        exact ⟨there.1, there.2.1, by simpa [other] using there.2.2⟩
      · simp only [queuePush, inflightInc, modSock, Function.update_apply]; grind
      · simp only [queuePush, inflightInc, modSock, Function.update_apply]; grind
    · refine wired.congr rfl rfl (fun _ _ => ⟨rfl, rfl, rfl, rfl, rfl, rfl⟩) wired.whole
        (fun u s _ isWrite there => ?_) (fun _ _ _ _ _ => rfl) (fun _ _ => rfl)
      have other := pending u s isWrite
      exact ⟨there.1, there.2.1, by simpa [other] using there.2.2⟩
  | park submitted open_ unstarted out kind sock live usable =>
    rename_i t s
    refine wired.congr rfl rfl (fun _ _ => ⟨rfl, rfl, rfl, rfl, rfl, rfl⟩) wired.whole
      (fun u s less isWrite there => ?_) (fun _ u _ _ _ => ?_) (fun u _ => ?_)
    · -- Nothing has been submitted after the new write yet.
      have other : u ≠ t := by rintro rfl; exact Nat.ne_of_lt less submitted
      exact ⟨there.1, there.2.1, by simpa [other] using there.2.2⟩
    · simp only [inflightInc, modSock, Function.update_apply]; grind
    · simp only [inflightInc, modSock, Function.update_apply]; grind
  | take queue inside free =>
    refine wired.start placed queue rfl rfl rfl rfl (fun u => ?_) fun u => ?_ <;>
      simp only [setPc, modWorker, Core.modTask, Function.update_apply] <;> grind
  | flag => exact wired.modTask _ _ rfl
  | win at_ plain kept =>
    refine wired.same rfl rfl rfl (fun _ => rfl) fun s made => ?_
    have less := Nat.ne_of_lt (owned.sock_bound s made)
    simp [setPc, modWorker, newDesc, less]
  | send at_ fits => exact wired.send placed owned closes phased at_
  | link loose => exact wired.sockLink closes loose
  | close loose =>
    refine wired.same rfl rfl rfl (fun _ => rfl) fun s _ => ?_
    simp only [closeDesc, modDesc, Function.update_apply]; grind
  | discard unused =>
    refine wired.same rfl rfl rfl (fun u => ?_) fun s _ => ?_ <;>
      simp only [sockDiscard, sockFree, modSock, closeDesc, modDesc, sockUnlink,
        Function.update_apply] <;> grind
  | freeSock at_ sock =>
    refine wired.same rfl rfl rfl (fun u => ?_) fun _ _ => rfl
    simp only [setPc, modWorker, sockFree, modSock, Function.update_apply]; grind
  | closeFd at_ =>
    refine wired.same rfl rfl rfl (fun _ => rfl) fun s _ => ?_
    simp only [setPc, modWorker, closeDesc, modDesc, Function.update_apply]; grind
  | detach open_ held =>
    rename_i t
    exact (wired.modTask t ({ · with detached := true }) rfl).same rfl rfl rfl (fun _ => rfl)
      fun _ _ => rfl
  | free done held =>
    rename_i t
    exact (wired.modTask t (fun k => { k with frees := k.frees + 1 }) rfl).same rfl rfl rfl
      (fun _ => rfl) fun _ _ => rfl
  | wrap free =>
    refine wired.same rfl rfl rfl (fun _ => rfl) fun s made => ?_
    have less := Nat.ne_of_lt (owned.sock_bound s made)
    simp [newDesc, less]
  | sweep idle =>
    rw [closeSocks_rest]
    exact wired.same rfl rfl rfl (closeSocks_fd c c.socks) fun s _ => closeSocks_wire c c.socks _
  | _ => exact wired.same rfl rfl rfl (fun _ => rfl) fun _ _ => rfl

end Myio.Core
