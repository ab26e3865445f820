import Myio.Uring.Sends

/-! Lengths of 64 bits in the 32-bit fields of the ring's entries. -/

namespace Myio.Loop

open Function (update)
open Loop.Core

namespace UringIo

variable {u u' : UringIo} {t : TaskId} {s : SockId}

/--
What a `sock_write` of this length is owed: each completion dispatched to it ends it, successfully
only after all its bytes were sent, or leaves less to send, so that there are finitely many.
-/
structure Finishes (len : Nat) : Prop where
  progress : ∀ sqes u t res u', Served (UringIo.new sqes) u → (u.task t).kind = .taskSockWrite →
    (u.task t).buf.length = len → (u.task t).done = false → u.answers (.cqe t res) = true →
    u.step (.cqe t res) = some u' →
    ((u'.task t).done = true ∧ ((u'.task t).res.status = .ok → (u'.task t).off = len)) ∨
      ((u'.task t).done = false ∧ len - (u'.task t).off < len - (u.task t).off)
  finite : ∀ sqes u t, Served (UringIo.new sqes) u → (u.task t).kind = .taskSockWrite →
    (u.task t).buf.length = len → (u.task t).done = false → u.served t ≤ len

/-- A completion is only drained for a task on the ring. -/
theorem step_cqe {res : Int} (taken : u.step (.cqe t res) = some u') :
    t ∈ u.armed ∧ u'.task = (u.drainOp t res).task ∧ u'.armed = (u.drainOp t res).armed := by
  simp only [step] at taken
  split at taken
  · split at taken
    · rename_i armed
      cases taken
      exact ⟨armed, rfl, rfl⟩
    · cases taken
  · cases taken

/-- A length that fits the field gets on with every completion. -/
theorem finishes_of_short {len : Nat} (short : len < 2 ^ 32) : Finishes len where
  progress sqes u t res u' run write length isOpen answered taken := by
    have fitted := run.fitted
    obtain ⟨armed, task, _⟩ := step_cqe taken
    have advances := (drainOp_write fitted armed write answered).2 isOpen
    rw [task]
    rcases advances with ⟨done, whole⟩ | ⟨stillOpen, sent, off, left⟩
    · exact .inl ⟨done, fun okay => by rw [whole okay, length]⟩
    · -- Something was left and asked for, so that at least one byte was sent.
      have asked := fitted.asks t armed id isOpen write
      rw [length] at asked left
      have exact_ : toU32 (len - (u.task t).off) = len - (u.task t).off :=
        Nat.mod_eq_of_lt (by omega)
      rw [exact_] at asked
      obtain ⟨_, some⟩ := answers_write answered write sent
      exact .inr ⟨stillOpen, by omega⟩
  finite sqes u t run write length isOpen := by
    have fitted := run.fitted
    have fits := fitted.fits t isOpen write
    have paced := fitted.paced t id isOpen write (by rw [length]; exact short)
    omega

/-! ### A length that does not fit -/

/-- A short send on an open socket goes on the ring again with what is left. -/
theorem drainOp_rearms (res : Int) (kind : (u.task t).kind = .taskSockWrite) (sent : ¬ res < 0)
    (sock : (u.task t).sock ≠ none) (kept : (u.task t).wcanceled = false)
    (entries : u.sqes u.tick = true)
    (short : (u.task t).off + res.toNat < (u.task t).buf.length) :
    (u.drainOp t res).task t = { u.task t with off := (u.task t).off + res.toNat } ∧
      (u.drainOp t res).entry t = toU32 ((u.task t).buf.length - ((u.task t).off + res.toNat)) ∧
      t ∈ (u.drainOp t res).armed ∧ (u.drainOp t res).sqes = u.sqes := by
  have isKind : ((u.taken t).task t).kind = .taskSockWrite := kind
  rw [drainOp_eq, dispatch, isKind]
  dsimp only
  unfold dispatchWrite
  rw [if_neg sent]
  dsimp only
  generalize isNext : (u.taken t).on (·.sendBytes t res.toNat) = v
  have fields : v.task t = { u.task t with off := (u.task t).off + res.toNat } := by
    rw [← isNext]
    change ((u.taken t).sendBytes t res.toNat).task t = _
    rw [sendBytes_task, if_pos rfl]
    rfl
  have entry : v.sqeGet = ({ v with tick := v.tick + 1 }, true) := by
    have same : v.sqes v.tick = u.sqes u.tick := by rw [← isNext]; rfl
    unfold sqeGet
    rw [same, entries]
  have arms : v.writeArm t = (sqeFlush { v with tick := v.tick + 1 } t
      ((v.task t).buf.length - (v.task t).off), true) := by
    unfold writeArm
    rw [entry]
  rw [if_pos (by rw [fields]; exact short), if_neg (by rw [fields]; simp [sock, kept]), arms]
  refine ⟨fields, ?_, List.mem_cons_self, by rw [← isNext]; rfl⟩
  simp [sqeFlush, fields]

/-- The record `impl_sock_write` fills in. -/
def newWrite (u : UringIo) (s : SockId) (buf : List UInt8) : Task :=
  { kind := .taskSockWrite, sock := some s, buf, fd := (u.sock s).fd, on := some s }

/-- A write on an empty FIFO goes on the ring. -/
theorem implSockWrite_arms (buf : List UInt8) (entries : u.sqes u.tick = true)
    (empty : (u.sock s).wq = []) :
    let v := u.implSockWrite true s buf
    v.task u.ntask = u.newWrite s buf ∧
      v.entry u.ntask = toU32 buf.length ∧ u.ntask ∈ v.armed ∧ v.inflight = u.inflight + 1 ∧
      v.user = .idle ∧ v.sqes = u.sqes := by
  intro v
  have isV : v = u.implSockWrite true s buf := rfl
  unfold implSockWrite at isV
  rw [← newWrite] at isV
  rw [if_pos rfl] at isV
  dsimp only at isV
  generalize isNew : u.on (·.taskNew (u.newWrite s buf)) = w at isV
  have head : (wqPush (w.sock s).wq u.ntask).2 = true := by
    rw [← isNew]
    simp [on, taskNew, wqPush, empty]
  rw [head, if_pos rfl] at isV
  generalize isPushed : w.on (·.modSock s fun k => { k with wq := (wqPush k.wq u.ntask).1 }) = x
    at isV
  have fields : x.task u.ntask = u.newWrite s buf := by
    rw [← isPushed, ← isNew]
    simp [on, taskNew, modSock]
  have same : x.sqes x.tick = u.sqes u.tick ∧ x.inflight = u.inflight ∧ x.sqes = u.sqes := by
    rw [← isPushed, ← isNew]
    exact ⟨rfl, rfl, rfl⟩
  have arms : x.writeArm u.ntask = (sqeFlush { x with tick := x.tick + 1 } u.ntask buf.length,
      true) := by
    unfold writeArm sqeGet
    rw [same.1, entries]
    simp [fields, newWrite]
  rw [arms] at isV
  rw [isV]
  refine ⟨fields, ?_, List.mem_cons_self, ?_, rfl, same.2.2⟩
  · simp [give, sqeFlush]
  · change x.inflight + 1 = _
    rw [same.2.1]

/-- A connection made, and its socket read by the caller. -/
def connected : List Label :=
  [.tcpConnect true (.opened true), .step, .cqe 0 0, .drained, .result 0]

/-- An instance with one connected socket. -/
def oneSocket : UringIo := Machine.drive step (UringIo.new fun _ => true) connected

theorem oneSocket_served : Served (UringIo.new fun _ => true) oneSocket :=
  .of_legal answers (fun _ _ => id) connected (.refl _) (by decide +kernel)

/-- What is left of a length that does not fit comes to a multiple of the field's range. -/
theorem toU32_rest {len : Nat} : toU32 (len - len % 2 ^ 32) = 0 := by
  unfold toU32
  have split := Nat.div_add_mod len (2 ^ 32)
  have rest : len - len % 2 ^ 32 = 2 ^ 32 * (len / 2 ^ 32) := by omega
  rw [rest, Nat.mul_mod_right]

/-- A write that does not fit the field comes to a send of no bytes, which leaves as much to send. -/
theorem not_finishes_of_long {len : Nat} (long : 2 ^ 32 ≤ len) : ¬ Finishes len := by
  intro finishes
  have idle : oneSocket.user = .idle := by decide +kernel
  have all : ∀ n, oneSocket.sqes n = true := fun n => rfl
  let buf : List UInt8 := List.replicate len 0
  have length : buf.length = len := by simp [buf]
  -- The write goes on the ring, and the caller waits.
  obtain ⟨task, entry, armed, inflight, user, sqes⟩ :=
    implSockWrite_arms (s := 0) buf (all _) (by decide +kernel)
  generalize isWritten : oneSocket.implSockWrite true 0 buf = v at task entry armed inflight user sqes
  generalize oneSocket.ntask = t at task entry armed
  have written : oneSocket.step (.sockWrite true 0 buf) = some v := by
    rw [← isWritten]
    simp [step, idle, call]
  have waits : v.step .step = some { v with user := .draining .step false false } := by
    have pending : v.inflight ≠ 0 := by omega
    simp [step, user, call, implStep, pending]
  generalize isWaiting : ({ v with user := .draining .step false false } : UringIo) = w at waits
  have fields : w.task t = oneSocket.newWrite 0 buf := by rw [← isWaiting]; exact task
  have field : w.entry t = len % 2 ^ 32 := by
    rw [← isWaiting]
    change v.entry t = _
    rw [entry, length]
    rfl
  have onRing : t ∈ w.armed := by rw [← isWaiting]; exact armed
  have draining : w.user = .draining .step false false := by rw [← isWaiting]
  have entries : w.sqes = oneSocket.sqes := by rw [← isWaiting]; exact sqes
  have waiting : Served (UringIo.new fun _ => true) w :=
    (oneSocket_served.snoc rfl written).snoc rfl waits
  -- The kernel sends all that the field asks for, and a multiple of its range is left.
  have first : w.answers (.cqe t (len % 2 ^ 32 : Nat)) = true := by
    have small : (-4096 : Int) < (len % 2 ^ 32 : Nat) := by omega
    have asked : len % 2 ^ 32 = 0 ∨ (0 : Int) < (len % 2 ^ 32 : Nat) := by omega
    have least : (len % 2 ^ 32 : Nat) ≤ w.entry t ∧
        (w.entry t = 0 ∨ (0 : Int) < (len % 2 ^ 32 : Nat)) := by
      rw [field]
      exact ⟨Nat.le_refl _, asked⟩
    simp only [answers, decide_eq_true small, Bool.true_and, Bool.or_eq_true, Bool.and_eq_true,
      beq_iff_eq, decide_eq_true_eq, Int.toNat_natCast]
    exact .inr least
  obtain ⟨task', entry', armed', sqes'⟩ := drainOp_rearms (u := w) (t := t)
    (len % 2 ^ 32 : Nat) (by rw [fields]; rfl) (by omega) (by rw [fields]; simp [newWrite])
    (by rw [fields]; rfl) (by rw [entries]; exact all _)
    (by rw [fields]
        have below := Nat.mod_lt len (show 0 < 2 ^ 32 by decide)
        simp only [newWrite, length, Int.toNat_natCast]
        omega)
  have sent : w.step (.cqe t (len % 2 ^ 32 : Nat)) =
      some { w.drainOp t (len % 2 ^ 32 : Nat) with user := .draining .step false true } := by
    simp [step, draining, onRing]
  generalize isSent : ({ w.drainOp t (len % 2 ^ 32 : Nat) with
    user := .draining .step false true } : UringIo) = x at sent
  have fields' : x.task t = { oneSocket.newWrite 0 buf with off := len % 2 ^ 32 } := by
    rw [← isSent]
    change (w.drainOp t (len % 2 ^ 32 : Nat)).task t = _
    rw [task', fields]
    simp only [newWrite, Nat.zero_add, Int.toNat_natCast]
  have field' : x.entry t = 0 := by
    rw [← isSent]
    change (w.drainOp t (len % 2 ^ 32 : Nat)).entry t = _
    rw [entry', fields]
    simp only [newWrite, length, Nat.zero_add, Int.toNat_natCast]
    exact toU32_rest
  have reached : Served (UringIo.new fun _ => true) x := waiting.snoc first sent
  have onRing' : t ∈ x.armed := by rw [← isSent]; exact armed'
  have draining' : x.user = .draining .step false true := by rw [← isSent]
  have entries' : x.sqes = oneSocket.sqes := by rw [← isSent]; exact sqes'.trans entries
  -- A send of no bytes is answered with none, and as much is left as before.
  obtain ⟨task'', _, _, _⟩ := drainOp_rearms (u := x) (t := t) 0 (by rw [fields']; rfl)
    (by decide) (by rw [fields']; simp [newWrite]) (by rw [fields']; rfl)
    (by rw [entries']; exact all _)
    (by rw [fields']
        have below := Nat.mod_lt len (show 0 < 2 ^ 32 by decide)
        simp only [newWrite, length, Int.toNat_zero]
        omega)
  have again : x.step (.cqe t 0) = some { x.drainOp t 0 with user := .draining .step false true } := by
    simp [step, draining', onRing']
  have second : x.answers (.cqe t 0) = true := by simp [answers, field']
  rcases finishes.progress _ x t 0 _ reached (by rw [fields']; rfl)
    (by rw [fields']; exact length) (by rw [fields']; rfl) second again with ⟨done, _⟩ | ⟨_, less⟩
  · change ((x.drainOp t 0).task t).done = true at done
    rw [task'', fields'] at done
    cases done
  · change len - ((x.drainOp t 0).task t).off < _ at less
    rw [task'', fields'] at less
    simp only [Int.toNat_zero, Nat.add_zero, Nat.lt_irrefl] at less

/--
A `sock_write` of the io_uring backend gets on with every completion exactly when its length fits
the length field of an entry.
-/
theorem finishes_iff (len : Nat) : Finishes len ↔ len < 2 ^ 32 :=
  ⟨fun finishes => by
    by_contra long
    exact not_finishes_of_long (Nat.le_of_not_lt long) finishes, finishes_of_short⟩

/-- A buffer of 4 GiB is sent in pieces of no bytes. -/
theorem not_finishes_of_four_gib : ¬ Finishes (2 ^ 32) := not_finishes_of_long (Nat.le_refl _)

end UringIo

end Myio.Loop
