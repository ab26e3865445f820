import Myio.Uring.Submits

/-! Completions, and the end of a socket: what a close leaves, and what teardown takes away first. -/

namespace Myio.Loop

open Function (update)
open Loop.Core

namespace UringIo

variable {B : Prop} {c c' : Core} {x x' : TaskId → Bool} {h : SockId → Bool} {t v n : TaskId}
  {s : SockId} {u : UringIo}

/-! ### What is pending on a closed socket -/

/-- A pending close is the only task left on its socket, and the caller has given the socket up. -/
def Closing (c : Core) (x : TaskId → Bool) : Prop :=
  ∀ t s, c.Pending x t → (c.task t).kind = .taskSockClose → (c.task t).sock = some s →
    c.shut s = true ∧ ∀ v, c.Pending x v → c.Refers v s → v = t

/-- Once teardown has begun every write has lost its socket. -/
def Cleared (torn : Prop) (c : Core) (x : TaskId → Bool) : Prop :=
  torn → ∀ t, c.Pending x t → (c.task t).kind = .taskSockWrite → (c.task t).sock = none

/-- A task that points where it did refers to what it did. -/
theorem SameEnds.refers (same : SameEnds (c.task t) (c'.task t)) :
    c'.Refers t s ↔ c.Refers t s := by
  unfold Refers
  rw [same.2.1, same.2.2.1]

theorem Closing.fewer {r : Rules} (closing : Closing c x) (fewer : Fewer c c' x x')
    (later : Later r c c') : Closing c' x' := by
  intro t s pending kind sock
  obtain ⟨before, same⟩ := fewer t pending
  obtain ⟨shut, only⟩ := closing t s before (same.1.symm.trans kind) (same.2.1.symm.trans sock)
  refine ⟨later.shut s shut, fun v there refers => ?_⟩
  obtain ⟨beforeV, sameV⟩ := fewer v there
  exact only v beforeV (sameV.refers.mp refers)

theorem Severed.fewer {r : Rules} {torn : Prop} (severed : Severed torn c x) (fewer : Fewer c c' x x')
    (later : Later r c c') : Severed torn c' x' := by
  intro t pending kind sock s on
  obtain ⟨before, isKind, isSock, _, isOn⟩ := fewer t pending
  obtain ⟨past, only⟩ := severed t before (isKind.symm.trans kind) (isSock.symm.trans sock) s
    (isOn.symm.trans on)
  refine ⟨past.imp id (later.shut s), fun v there onV => ?_⟩
  obtain ⟨beforeV, isKindV, _, _, isOnV⟩ := fewer v there
  exact only v beforeV ⟨isKindV.symm.trans onV.1, isOnV.symm.trans onV.2⟩

theorem Cleared.fewer {torn : Prop} (cleared : Cleared torn c x) (fewer : Fewer c c' x x') :
    Cleared torn c' x' := by
  intro past t pending kind
  obtain ⟨before, isKind, isSock, _⟩ := fewer t pending
  rw [isSock]
  exact cleared past t before (isKind.symm.trans kind)

/-- Who is pending after a submission: whoever was, and the new task. -/
theorem Joins.pending (joins : Joins c c') (there : c'.Pending (fun _ => false) v) :
    (c.Pending (fun _ => false) v ∧ c'.task v = c.task v) ∨
      (v = c.ntask ∧ Joining c c' v) := by
  by_cases inside : v < c.ntask
  · have same := joins.others v inside
    exact .inl ⟨⟨inside, by rw [← same]; exact there.2.1, rfl⟩, same⟩
  · have isNew : v = c.ntask :=
      Nat.le_antisymm (Nat.le_of_lt_succ (Nat.lt_of_lt_of_le there.1 joins.ntask)) (Nat.le_of_not_lt inside)
    exact .inr ⟨isNew, by rw [isNew] at there ⊢; exact joins.new there.1⟩

theorem Closing.joins (closing : Closing c fun _ => false) (joins : Joins c c')
    (live : ∀ t s, c.Pending (fun _ => false) t → c.Refers t s → s ∈ c.socks) :
    Closing c' fun _ => false := by
  intro t s pending kind sock
  rcases joins.pending pending with ⟨before, same⟩ | ⟨_, new⟩
  · rw [same] at kind sock
    obtain ⟨shut, only⟩ := closing t s before kind sock
    refine ⟨by rw [joins.shut]; exact shut, fun v there refers => ?_⟩
    rcases joins.pending there with ⟨beforeV, sameV⟩ | ⟨_, newV⟩
    · unfold Refers at refers
      rw [sameV] at refers
      exact only v beforeV refers
    · -- A new task is not pointed at a socket that is being closed.
      rcases newV.refers s there.2.1 refers with open_ | gone
      · rw [shut] at open_; cases open_
      · exact absurd (live t s before (.inl sock)) gone
  · exact absurd kind new.close

theorem Severed.joins (severed : Severed False c fun _ => false) (joins : Joins c c') :
    Severed False c' fun _ => false := by
  intro t pending kind sock s on
  rcases joins.pending pending with ⟨before, same⟩ | ⟨_, new⟩
  · rw [same] at kind sock on
    obtain ⟨past, only⟩ := severed t before kind sock s on
    have shut := past.resolve_left id
    refine ⟨.inr (by rw [joins.shut]; exact shut), fun v there onV => ?_⟩
    rcases joins.pending there with ⟨beforeV, sameV⟩ | ⟨_, newV⟩
    · refine only v beforeV ?_
      unfold WriteOn at onV ⊢
      rw [← sameV]
      exact onV
    · obtain ⟨s', _, onV', open_⟩ := newV.write there.2.1 onV.1
      obtain rfl : s = s' := Option.some.inj (onV.2.symm.trans onV')
      rw [shut] at open_
      cases open_
  · obtain ⟨_, isSock, _⟩ := new.write pending.2.1 kind
    rw [sock] at isSock
    cases isSock

/-! ### Every completion -/

/-- One round of `drain_cqes`, of any operation. -/
theorem drainOp_moves {torn : Prop} (firm : Firm B u.rest) (severed : Severed torn u.toCore fun _ => false)
    (closing : Closing u.toCore fun _ => false) (armed : t ∈ u.armed) {res : Int}
    (fits : B → (u.task t).kind = .taskSockWrite → ¬ res < 0 →
      (u.task t).off + res.toNat ≤ (u.task t).buf.length ∧ (u.task t).buf.length < 2 ^ 63) :
    Moves (still B) u.rest (u.drainOp t res).rest := by
  obtain ⟨pending, _⟩ := (firm.sound.placed.armed t).mp armed
  have core : (u.taken t).toCore = u.disarm t := rfl
  have plain : ∀ {res : Int}, (u.task t).kind ≠ .taskSockRead → (u.task t).kind ≠ .taskAccept →
      (u.task t).kind ≠ .taskSockWrite →
      Moves (still B) u.rest (taskComplete (u.disarm t) t res).rest := fun read accept write =>
    plain_moves firm pending read accept write (cqeResult_status _) (cqeResult_ptr _)
  rw [drainOp_eq]
  unfold dispatch
  cases kind : (u.task t).kind
  all_goals
    rw [show ((u.taken t).task t).kind = (u.task t).kind from rfl, kind]
    dsimp only
  case taskConnect => exact connect_moves firm pending kind res
  case taskAccept => exact accept_moves firm pending kind res
  case taskSockRead => exact read_moves firm pending kind res
  case taskSockWrite => exact dispatchWrite_moves firm severed armed kind core fun bounds => fits bounds kind
  case taskSockClose =>
    exact close_moves firm pending kind (fun v s sock there refers =>
      (closing t s pending kind sock).2 v there refers) res
  all_goals exact plain (by simp [kind]) (by simp [kind]) (by simp [kind])

/-! ### Severing -/

/-- Every pending task points where it did, or nowhere. -/
def Loses (c c' : Core) (x : TaskId → Bool) : Prop :=
  ∀ v, c'.Pending x v → c.Pending x v ∧ (c'.task v).kind = (c.task v).kind ∧
    ((c'.task v).sock = none ∨ (c'.task v).sock = (c.task v).sock) ∧
    (c'.task v).newsock = (c.task v).newsock ∧ (c'.task v).on = (c.task v).on

theorem Loses.refl (c : Core) (x : TaskId → Bool) : Loses c c x :=
  fun _ pending => ⟨pending, rfl, .inr rfl, rfl, rfl⟩

theorem Loses.trans {c'' : Core} (first : Loses c c' x) (second : Loses c' c'' x) : Loses c c'' x := by
  intro v pending
  obtain ⟨middle, kind, sock, newsock, on⟩ := second v pending
  obtain ⟨before, kind', sock', newsock', on'⟩ := first v middle
  refine ⟨before, kind.trans kind', ?_, newsock.trans newsock', on.trans on'⟩
  rcases sock with none | same
  · exact .inl none
  · exact sock'.imp same.trans same.trans

theorem Loses.refers (loses : Loses c c' x) (pending : c'.Pending x v) (refers : c'.Refers v s) :
    c.Refers v s := by
  obtain ⟨_, _, sock, newsock, _⟩ := loses v pending
  rcases refers with here | there
  · rcases sock with none | same
    · rw [none] at here; cases here
    · exact .inl (same.symm.trans here)
  · exact .inr (newsock.symm.trans there)

theorem Closing.loses (closing : Closing c x) (loses : Loses c c' x)
    (shut : ∀ s, c.shut s = true → c'.shut s = true) : Closing c' x := by
  intro t s pending kind sock
  obtain ⟨before, isKind, isSock, _, _⟩ := loses t pending
  have there : (c.task t).sock = some s := by
    rcases isSock with none | same
    · rw [none] at sock; cases sock
    · exact same.symm.trans sock
  obtain ⟨closed, only⟩ := closing t s before (isKind.symm.trans kind) there
  exact ⟨shut s closed, fun v pendingV refers => only v (loses v pendingV).1 (loses.refers pendingV refers)⟩

/-- Losing sockets makes no difference to the writes that keep theirs. -/
theorem Severed.loses {torn : Prop} (severed : Severed torn c x) (loses : Loses c c' x)
    (shut : ∀ s, c.shut s = true → c'.shut s = true)
    (keeps : ∀ v, c'.Pending x v → (c'.task v).kind = .taskSockWrite → (c'.task v).sock = (c.task v).sock) :
    Severed torn c' x := by
  intro t pending kind sock s on
  obtain ⟨before, isKind, _, _, isOn⟩ := loses t pending
  obtain ⟨past, only⟩ := severed t before (isKind.symm.trans kind)
    ((keeps t pending kind).symm.trans sock) s (isOn.symm.trans on)
  refine ⟨past.imp id (shut s), fun v there onV => ?_⟩
  obtain ⟨beforeV, isKindV, _, _, isOnV⟩ := loses v there
  exact only v beforeV ⟨isKindV.symm.trans onV.1, isOnV.symm.trans onV.2⟩

/-- One task loses its socket. -/
theorem loses_of_task (ntask : c'.ntask = c.ntask) (t : TaskId)
    (mine : c'.task t = { c.task t with sock := none }) (others : ∀ v, v ≠ t → c'.task v = c.task v) :
    Loses c c' x := by
  intro v pending
  by_cases same : v = t
  · subst same
    refine ⟨⟨by rw [← ntask]; exact pending.1, ?_, pending.2.2⟩, ?_⟩
    · have := pending.2.1
      rw [mine] at this
      exact this
    · rw [mine]
      exact ⟨rfl, .inl rfl, rfl, rfl⟩
  · have task := others v same
    refine ⟨⟨by rw [← ntask]; exact pending.1, by rw [← task]; exact pending.2.1, pending.2.2⟩, ?_⟩
    rw [task]
    exact ⟨rfl, .inr rfl, rfl, rfl⟩

/-- `severRead`, less the cancel request. -/
def unread (c : Core) (s : SockId) : Core :=
  match (c.sock s).readTask with
  | some rt => (c.modTask rt ({ · with sock := none })).modSock s ({ · with readTask := none })
  | none => c

/-- `severAccept`, less the cancel request. -/
def unaccept (c : Core) (s : SockId) : Core :=
  match (c.sock s).acceptTask with
  | some w => (c.modTask w ({ · with sock := none })).modSock s ({ · with acceptTask := none })
  | none => c

/-- A cancel request is no change of a task or a socket. -/
theorem cancelSubmit_core (u : UringIo) : u.cancelSubmit.1.toCore = u.toCore := by
  rcases cancelSubmit_cases u with got | got
  · rw [got]; rfl
  · rw [got]

theorem severRead_core (u : UringIo) (s : SockId) : (u.severRead s).toCore = unread u.toCore s := by
  -- Without a reader both leave everything as it is.
  cases reader : (u.sock s).readTask with
  | none => simp only [severRead, unread, reader]
  | some rt =>
    simp only [severRead, unread, reader]
    rcases cancelSubmit_cases u with got | got <;> rw [got] <;> rfl

theorem severAccept_core (u : UringIo) (s : SockId) :
    (u.severAccept s).toCore = unaccept u.toCore s := by
  -- Without an accepter both leave everything as it is.
  cases accepter : (u.sock s).acceptTask with
  | none => simp only [severAccept, unaccept, accepter]
  | some w =>
    simp only [severAccept, unaccept, accepter]
    rcases cancelSubmit_cases u with got | got <;> rw [got] <;> rfl

theorem severWrites_core (u : UringIo) (s : SockId) :
    (u.severWrites s).toCore = dismantle u.toCore s := by
  unfold severWrites
  split
  · rename_i empty
    unfold dismantle
    rw [show (u.toCore.sock s).wq = [] from empty]
  · change dismantle u.cancelSubmit.1.toCore s = _
    rw [cancelSubmit_core]

/-- A task that can complete loses its socket. -/
theorem sever_moves (firm : Firm B ⟨c, x, fun _ => false⟩) (pending : c.Pending x t)
    (kind : (c.task t).kind = .taskSockRead ∨ (c.task t).kind = .taskAccept) :
    Moves (ring B) ⟨c, x, fun _ => false⟩
      ⟨(c.leaveSock t).modTask t ({ · with sock := none }), x, fun _ => false⟩ := by
  have write : (c.task t).kind ≠ .taskSockWrite := by rcases kind with is | is <;> simp [is]
  have armed : t ∈ c.armed := (firm.sound.placed.armed t).mpr ⟨pending, fun _ isWrite => absurd isWrite write⟩
  have shape := firm.sound.shaped t pending
  have fits : (ring B).Fits { c.task t with sock := none } := by
    unfold Rules.Fits ring uShape at shape ⊢
    rcases kind with is | is
    · rw [is] at shape ⊢; exact shape
    · rw [is] at shape ⊢; exact shape
  have severs : Moves (ring B) ⟨c, x, fun _ => false⟩ ⟨(c.leaveSock t).modTask t ({ · with sock := none }), x,
      fun v => false || c.exposes t v⟩ :=
    .one (.sever armed (by rcases kind with is | is <;> simp [is]) fits)
  rw [exposes_false (.inl write)] at severs
  exact severs

/-- The outstanding read forgets its socket. -/
theorem unread_moves (firm : Firm B ⟨c, x, fun _ => false⟩) (live : s ∈ c.socks) :
    Moves (ring B) ⟨c, x, fun _ => false⟩ ⟨unread c s, x, fun _ => false⟩ := by
  unfold unread
  split
  · rename_i rt reader
    obtain ⟨pending, kind, sock⟩ := (firm.sound.placed.read s rt live).mp reader
    have severs := sever_moves firm pending (.inl kind)
    rw [firm.sound.placed.leave_read pending kind sock] at severs
    exact severs
  · exact .refl _

/-- The outstanding accept forgets its socket. -/
theorem unaccept_moves (firm : Firm B ⟨c, x, fun _ => false⟩) (live : s ∈ c.socks) :
    Moves (ring B) ⟨c, x, fun _ => false⟩ ⟨unaccept c s, x, fun _ => false⟩ := by
  unfold unaccept
  split
  · rename_i w accepter
    obtain ⟨pending, kind, sock⟩ := (firm.sound.placed.accept s w live).mp accepter
    have severs := sever_moves firm pending (.inr kind)
    rw [firm.sound.placed.leave_accept pending kind sock] at severs
    exact severs
  · exact .refl _

/-- Only the reader and its slot are different. -/
theorem unread_rest (c : Core) (s : SockId) :
    unread c s = { c with task := (unread c s).task, sock := (unread c s).sock } ∧
    (∀ v, (c.sock s).readTask = some v → (unread c s).task v = { c.task v with sock := none }) ∧
    (∀ v, (c.sock s).readTask ≠ some v → (unread c s).task v = c.task v) ∧
    ∀ v, ((unread c s).sock v).acceptTask = (c.sock v).acceptTask ∧
      ((unread c s).sock v).wq = (c.sock v).wq := by
  unfold unread
  split
  · rename_i rt reader
    refine ⟨rfl, fun v same => ?_, fun v other => ?_, fun v => ?_⟩
    · obtain rfl : rt = v := Option.some.inj (reader.symm.trans same)
      simp [modTask, modSock]
    · have apart : v ≠ rt := fun same => other (same ▸ reader)
      simp [modTask, modSock, apart]
    · simp only [modTask, modSock, Function.update_apply]
      split
      · rename_i same; subst same; exact ⟨rfl, rfl⟩
      · exact ⟨rfl, rfl⟩
  · rename_i reader
    refine ⟨rfl, fun v same => ?_, fun _ _ => rfl, fun _ => ⟨rfl, rfl⟩⟩
    rw [reader] at same
    cases same

/-- Only the accepter and its slot are different. -/
theorem unaccept_rest (c : Core) (s : SockId) :
    unaccept c s = { c with task := (unaccept c s).task, sock := (unaccept c s).sock } ∧
    (∀ v, (c.sock s).acceptTask = some v → (unaccept c s).task v = { c.task v with sock := none }) ∧
    (∀ v, (c.sock s).acceptTask ≠ some v → (unaccept c s).task v = c.task v) ∧
    ∀ v, ((unaccept c s).sock v).wq = (c.sock v).wq := by
  unfold unaccept
  split
  · rename_i w accepter
    refine ⟨rfl, fun v same => ?_, fun v other => ?_, fun v => ?_⟩
    · obtain rfl : w = v := Option.some.inj (accepter.symm.trans same)
      simp [modTask, modSock]
    · have apart : v ≠ w := fun same => other (same ▸ accepter)
      simp [modTask, modSock, apart]
    · simp only [modTask, modSock, Function.update_apply]
      split
      · rename_i same; subst same; rfl
      · rfl
  · rename_i accepter
    refine ⟨rfl, fun v same => ?_, fun _ _ => rfl, fun _ => rfl⟩
    rw [accepter] at same
    cases same

/-! ### Dismantling a FIFO -/

/-- What is queued behind a head that is gone is completed as canceled, in order. -/
theorem dropQueued_moves (l : List TaskId) : ∀ {c : Core}, Firm B ⟨c, x, h⟩ → s ∈ c.socks →
    h s = true → (c.sock s).wq = l →
    Moves (still B) ⟨c, x, h⟩ ⟨dropQueued c s l, x, update h s false⟩ := by
  induction l with
  | nil =>
    intro c firm live bare wq
    refine .one (.headed fun v _ differs => ?_)
    by_cases same : v = s
    · rw [same]; exact wq
    · simp [same] at differs
  | cons q rest ih =>
    intro c firm live bare wq
    have dropped := writeDrop_moves firm live bare wq (show -ECANCELED < 0 by decide)
    obtain ⟨socks, sock, _⟩ := writeDrop_rest c s q (-ECANCELED)
    unfold dropQueued
    refine dropped.trans (ih (firm.moves (ring_of_still dropped)) (by rw [socks]; exact live) bare ?_)
    rw [sock]
    simp [wqPop, wq]

/-- What the loop leaves: an empty FIFO, and no other socket or task touched. -/
theorem dropQueued_rest (l : List TaskId) : ∀ {c : Core}, (c.sock s).wq = l →
    (dropQueued c s l).socks = c.socks ∧ ((dropQueued c s l).sock s).wq = [] ∧
    (∀ v, v ≠ s → (dropQueued c s l).sock v = c.sock v) ∧
    (∀ v, v ∉ l → (dropQueued c s l).task v = c.task v) ∧
    ∀ v, v ∈ l → ((dropQueued c s l).task v).done = true ∧
      ((dropQueued c s l).task v).res = rCanceled := by
  induction l with
  | nil => exact fun wq => ⟨rfl, wq, fun _ _ => rfl, fun _ _ => rfl, fun _ there => by cases there⟩
  | cons q rest ih =>
    intro c wq
    obtain ⟨socks, sock, _, other⟩ := writeDrop_rest c s q (-ECANCELED)
    obtain ⟨socks', wq', sock', other', done'⟩ := ih (c := writeDrop c s q (-ECANCELED)) (by
      rw [sock]; simp [wqPop, wq])
    unfold dropQueued
    refine ⟨socks'.trans socks, wq', fun v apart => ?_, fun v absent => ?_, fun v there => ?_⟩
    · rw [sock' v apart, sock, Function.update_of_ne apart]
    · rw [other' v fun inside => absent (List.mem_cons_of_mem q inside),
        other v fun same => absent (same ▸ List.mem_cons_self)]
    · by_cases inside : v ∈ rest
      · exact done' v inside
      · obtain rfl : v = q := (List.mem_cons.mp there).resolve_right inside
        rw [other' v inside]
        have ended := taskComplete_task (((c.modSock s fun k => { k with wq := (wqPop k.wq).1 }).modTask v
          ({ · with sock := none }))) v (-ECANCELED)
        exact ended

/-- A FIFO is dismantled: the head is left to its own completion, the rest are completed. -/
theorem dismantle_moves (firm : Firm B ⟨c, x, fun _ => false⟩) (live : s ∈ c.socks) :
    Moves (ring B) ⟨c, x, fun _ => false⟩ ⟨dismantle c s, x, fun _ => false⟩ := by
  unfold dismantle
  split
  · exact .refl _
  · rename_i w rest wq
    obtain ⟨pending, kind, sock⟩ := (firm.sound.placed.fifo s w live).mp (by
      change w ∈ (c.sock s).wq; rw [wq]; exact List.mem_cons_self)
    have armed : w ∈ c.armed := (firm.sound.placed.armed w).mpr ⟨pending, fun s' _ sock' => by
      obtain rfl : s = s' := Option.some.inj (sock.symm.trans sock')
      exact ⟨rfl, by change (c.sock s).wq.head? = _; rw [wq]; rfl⟩⟩
    have shape := firm.sound.shaped w pending
    have fits : (ring B).Fits { c.task w with sock := none } := by
      unfold Rules.Fits ring uShape at shape ⊢
      rw [show (c.task w).kind = _ from kind] at shape ⊢
      exact ⟨shape.1, shape.2.1, .inl rfl⟩
    have exposes : (fun v => false || c.exposes w v) = fun v => decide (v = s) := by
      funext v
      by_cases same : v = s
      · subst same
        simp [Core.exposes, wq, show (c.task w).kind = _ from kind, show (c.task w).sock = _ from sock]
      · simp [Core.exposes, same, show (c.task w).sock = _ from sock, Ne.symm same]
    have severs : Moves (ring B) ⟨c, x, fun _ => false⟩
        ⟨(c.leaveSock w).modTask w ({ · with sock := none }), x, fun v => false || c.exposes w v⟩ :=
      .one (.sever armed (by rw [show (c.task w).kind = _ from kind]; decide) fits)
    rw [exposes, firm.sound.placed.leave_head live wq] at severs
    change Moves (ring B) _ ⟨severHead c s w, x, fun v => decide (v = s)⟩ at severs
    have dropped := dropQueued_moves (s := s) rest (firm.moves severs) live (by simp) (by
      simp [severHead, modTask, modSock, wqPop, wq])
    have quiet : update (fun v => decide (v = s)) s false = fun _ => false := by
      funext v; by_cases same : v = s <;> simp [same]
    rw [quiet] at dropped
    exact severs.trans (ring_of_still dropped)

/-- What dismantling a FIFO leaves. -/
theorem dismantle_rest (c : Core) (s : SockId) :
    (dismantle c s).socks = c.socks ∧ ((dismantle c s).sock s).wq = [] ∧
    (∀ v, v ≠ s → (dismantle c s).sock v = c.sock v) ∧
    (∀ v, v ∉ (c.sock s).wq → (dismantle c s).task v = c.task v) ∧
    ∀ w rest, (c.sock s).wq = w :: rest →
      (w ∉ rest → (dismantle c s).task w = { c.task w with sock := none }) ∧
      ∀ v ∈ rest, ((dismantle c s).task v).done = true ∧ ((dismantle c s).task v).res = rCanceled := by
  unfold dismantle
  split
  · rename_i empty
    exact ⟨rfl, empty, fun _ _ => rfl, fun _ _ => rfl, fun w rest wq => by rw [empty] at wq; cases wq⟩
  · rename_i w rest wq
    obtain ⟨socks, empty, sock, other, done⟩ := dropQueued_rest (s := s) rest (c := severHead c s w) (by
      simp [severHead, modTask, modSock, wqPop, wq])
    refine ⟨socks, empty, fun v apart => ?_, fun v absent => ?_, fun w' rest' wq' => ?_⟩
    · rw [sock v apart]
      simp [severHead, modTask, modSock, apart]
    · rw [wq] at absent
      rw [other v fun inside => absent (List.mem_cons_of_mem w inside)]
      have apart : v ≠ w := fun same => absent (same ▸ List.mem_cons_self)
      simp [severHead, modTask, modSock, apart]
    · obtain ⟨rfl, rfl⟩ := List.cons.inj (wq.symm.trans wq')
      refine ⟨fun apart => ?_, done⟩
      rw [other w apart]
      simp [severHead, modTask, modSock]

/-! ### What severing keeps -/

theorem unread_loses (c : Core) (s : SockId) (x : TaskId → Bool) : Loses c (unread c s) x := by
  obtain ⟨rest, mine, others, _⟩ := unread_rest c s
  have ntask : (unread c s).ntask = c.ntask := by rw [rest]
  cases reader : (c.sock s).readTask with
  | none =>
    have same : unread c s = c := by unfold unread; rw [reader]
    rw [same]
    exact .refl c x
  | some t =>
    exact loses_of_task ntask t (mine t reader) fun v apart =>
      others v (by rw [reader]; simpa using Ne.symm apart)

theorem unaccept_loses (c : Core) (s : SockId) (x : TaskId → Bool) : Loses c (unaccept c s) x := by
  obtain ⟨rest, mine, others, _⟩ := unaccept_rest c s
  have ntask : (unaccept c s).ntask = c.ntask := by rw [rest]
  cases accepter : (c.sock s).acceptTask with
  | none =>
    have same : unaccept c s = c := by unfold unaccept; rw [accepter]
    rw [same]
    exact .refl c x
  | some t =>
    exact loses_of_task ntask t (mine t accepter) fun v apart =>
      others v (by rw [accepter]; simpa using Ne.symm apart)

/-- Of a FIFO's writes only the head is pending when it has been dismantled, and has no socket. -/
theorem dismantle_head (firm : Firm B ⟨c, x, fun _ => false⟩) (live : s ∈ c.socks)
    (inside : v ∈ (c.sock s).wq) (pending : (dismantle c s).Pending x v) :
    (dismantle c s).task v = { c.task v with sock := none } ∧ (c.sock s).wq.head? = some v := by
  obtain ⟨w, rest, wq⟩ := List.exists_cons_of_ne_nil (List.ne_nil_of_mem inside)
  have sorted : (c.sock s).wq.Pairwise (· < ·) := firm.sound.placed.sorted s live
  rw [wq] at inside sorted
  have apart : w ∉ rest := fun there => Nat.lt_irrefl w ((List.pairwise_cons.mp sorted).1 w there)
  obtain ⟨head, behind⟩ := (dismantle_rest c s).2.2.2.2 w rest wq
  rcases List.mem_cons.mp inside with rfl | later
  · exact ⟨head apart, by rw [wq]; rfl⟩
  · have ended := (behind v later).1
    rw [pending.2.1] at ended
    cases ended

theorem dismantle_loses (firm : Firm B ⟨c, x, fun _ => false⟩) (live : s ∈ c.socks) :
    Loses c (dismantle c s) x := by
  have ntask : (dismantle c s).ntask = c.ntask := (Tame.dismantle s).ntask
  intro v pending
  by_cases inside : v ∈ (c.sock s).wq
  · obtain ⟨task, _⟩ := dismantle_head firm live inside pending
    refine ⟨⟨by rw [← ntask]; exact pending.1, ?_, pending.2.2⟩, ?_⟩
    · have isOpen := pending.2.1
      rw [task] at isOpen
      exact isOpen
    · rw [task]
      exact ⟨rfl, .inl rfl, rfl, rfl⟩
  · have task := (dismantle_rest c s).2.2.2.1 v inside
    refine ⟨⟨by rw [← ntask]; exact pending.1, by rw [← task]; exact pending.2.1, pending.2.2⟩, ?_⟩
    rw [task]
    exact ⟨rfl, .inr rfl, rfl, rfl⟩

/-- The pending writes of a socket are on its FIFO, unless one has lost the socket. -/
theorem write_queued (firm : Firm B ⟨c, x, h⟩) (pending : c.Pending x t) (on : c.WriteOn s t)
    (sock : (c.task t).sock ≠ none) : s ∈ c.socks ∧ t ∈ (c.sock s).wq := by
  have shape := firm.sound.shaped t pending
  unfold Rules.Fits ring uShape at shape
  rw [show (c.task t).kind = .taskSockWrite from on.1] at shape
  have isSock : (c.task t).sock = some s := (shape.2.2.resolve_left sock).trans on.2
  have live := firm.sound.placed.live t s pending (.inl isSock)
  exact ⟨live, (firm.sound.placed.fifo s t live).mpr ⟨pending, on.1, isSock⟩⟩

/-- A dismantled FIFO leaves at most one pending write, and no other will follow. -/
theorem severed_dismantle {torn : Prop} (severed : Severed torn c x)
    (firm : Firm B ⟨c, x, fun _ => false⟩) (live : s ∈ c.socks) (past : torn ∨ c.shut s = true) :
    Severed torn (dismantle c s) x := by
  have shut : ∀ v, c.shut v = true → (dismantle c s).shut v = true := (dismantle_moves firm live).later.shut
  have loses := dismantle_loses firm live
  have writes : ∀ v s', (dismantle c s).Pending x v → (dismantle c s).WriteOn s' v → c.WriteOn s' v := by
    intro v s' there onV
    obtain ⟨_, kind, _, _, on⟩ := loses v there
    exact ⟨kind.symm.trans onV.1, on.symm.trans onV.2⟩
  intro t pending kind sock s' on
  obtain ⟨before, isKind, _, _, isOn⟩ := loses t pending
  have onT : c.WriteOn s' t := writes t s' pending ⟨kind, on⟩
  by_cases inside : t ∈ (c.sock s).wq
  · -- The head has just lost its socket.
    obtain ⟨_, isWrite, sockT⟩ := (firm.sound.placed.fifo s t live).mp inside
    have shape := firm.sound.shaped t before
    unfold Rules.Fits ring uShape at shape
    rw [show (c.task t).kind = .taskSockWrite from isWrite] at shape
    have isSock : s = s' := by
      have same := shape.2.2.resolve_left (by rw [show (c.task t).sock = some s from sockT]; simp)
      exact Option.some.inj (sockT.symm.trans (same.trans onT.2))
    subst isSock
    refine ⟨past.imp id (shut s), fun v there onV => ?_⟩
    have beforeV := (loses v there).1
    have onV' := writes v s there onV
    by_cases lost : (c.task v).sock = none
    · exact (((severed v beforeV onV'.1 lost s onV'.2).2 t before onT)).symm
    · have queued := (write_queued firm beforeV onV' lost).2
      have headT := (dismantle_head firm live inside pending).2
      have headV := (dismantle_head firm live queued there).2
      exact Option.some.inj (headV.symm.trans headT)
  · have same := (dismantle_rest c s).2.2.2.1 t inside
    rw [same] at sock
    obtain ⟨past', only⟩ := severed t before (isKind.symm.trans kind) sock s' (isOn.symm.trans on)
    exact ⟨past'.imp id (shut s'), fun v there onV => only v (loses v there).1 (writes v s' there onV)⟩

/-- Only records of tasks and sockets are different. -/
def SameRest (c c' : Core) : Prop := c' = { c with task := c'.task, sock := c'.sock }

theorem SameRest.trans {c'' : Core} (first : SameRest c c') (second : SameRest c' c'') :
    SameRest c c'' := by
  unfold SameRest at *
  rw [second, first]

theorem dropQueued_same (l : List TaskId) : ∀ {c : Core}, SameRest c (dropQueued c s l) := by
  induction l with
  | nil => exact fun {c} => rfl
  | cons q rest ih =>
    intro c
    have dropped : SameRest c (writeDrop c s q (-ECANCELED)) := by
      unfold SameRest writeDrop taskComplete
      dsimp only
      rw [taskFinish_plain (cqeResult_ptr _)]
      rfl
    exact dropped.trans ih

theorem dismantle_same (c : Core) (s : SockId) : SameRest c (dismantle c s) := by
  unfold dismantle
  split
  · rfl
  · exact SameRest.trans (show SameRest c (severHead c s _) from rfl) (dropQueued_same _)

/-! ### `impl_sock_close` -/

/-- The outstanding operations of a socket are cut off from it. -/
def severed (c : Core) (s : SockId) : Core := dismantle (unaccept (unread c s) s) s

theorem severs_core (u : UringIo) (s : SockId) :
    (((u.severRead s).severAccept s).severWrites s).toCore = severed u.toCore s := by
  rw [severWrites_core, severAccept_core, severRead_core]
  rfl

theorem severed_same (c : Core) (s : SockId) : SameRest c (severed c s) :=
  SameRest.trans (SameRest.trans (unread_rest c s).1 (unaccept_rest _ s).1) (dismantle_same _ s)

theorem severed_moves (firm : Firm B ⟨c, x, fun _ => false⟩) (live : s ∈ c.socks) :
    Moves (ring B) ⟨c, x, fun _ => false⟩ ⟨severed c s, x, fun _ => false⟩ := by
  have first := unread_moves firm live
  have live₁ : s ∈ (unread c s).socks := by rw [(unread_rest c s).1]; exact live
  have second := unaccept_moves (firm.moves first) live₁
  have live₂ : s ∈ (unaccept (unread c s) s).socks := by
    rw [(unaccept_rest (unread c s) s).1]; exact live₁
  exact (first.trans second).trans (dismantle_moves (firm.moves (first.trans second)) live₂)

theorem severed_loses (firm : Firm B ⟨c, x, fun _ => false⟩) (live : s ∈ c.socks) :
    Loses c (severed c s) x := by
  have first := unread_moves firm live
  have live₁ : s ∈ (unread c s).socks := by rw [(unread_rest c s).1]; exact live
  have second := unaccept_moves (firm.moves first) live₁
  have live₂ : s ∈ (unaccept (unread c s) s).socks := by
    rw [(unaccept_rest (unread c s) s).1]; exact live₁
  exact ((unread_loses c s x).trans (unaccept_loses _ s x)).trans
    (dismantle_loses (firm.moves (first.trans second)) live₂)

/-- A task that the socket does not know is not touched. -/
theorem severed_other (read : (c.sock s).readTask ≠ some v) (accept : (c.sock s).acceptTask ≠ some v)
    (write : v ∉ (c.sock s).wq) : (severed c s).task v = c.task v := by
  obtain ⟨_, _, first, slots⟩ := unread_rest c s
  obtain ⟨_, _, second, wq⟩ := unaccept_rest (unread c s) s
  have third := (dismantle_rest (unaccept (unread c s) s) s).2.2.2.1 v (by
    rw [wq, (slots s).2]; exact write)
  exact third.trans ((second v (by rw [(slots s).1]; exact accept)).trans (first v read))

/-- Nothing pending points at the socket any more. -/
theorem severed_clean (firm : Firm B ⟨c, x, fun _ => false⟩) (live : s ∈ c.socks)
    (mine : c.claimed s = true)
    (open_ : ∀ v, c.Pending x v → (c.task v).kind = .taskSockClose → (c.task v).sock ≠ some s)
    (pending : (severed c s).Pending x v) : ¬ (severed c s).Refers v s := by
  intro refers
  have loses := severed_loses firm live
  have before := (loses v pending).1
  have refers₀ : c.Refers v s := loses.refers pending refers
  -- The caller's sockets are not being won.
  have wins : ¬ c.Builds v s := fun builds => by
    have := (firm.sound.built.sole v s before.1 before.2.1 builds).1
    rw [mine] at this
    cases this
  have sock : (c.task v).sock = some s := refers₀.resolve_right fun there => wins (.inr there)
  have still_ : ((severed c s).task v).sock = some s := refers.resolve_right fun there => by
    exact wins (.inr ((loses v pending).2.2.2.1.symm.trans there))
  have shape := firm.sound.shaped v before
  unfold Rules.Fits ring uShape at shape
  obtain ⟨rest₁, readers, others₁, slots⟩ := unread_rest c s
  obtain ⟨rest₂, accepters, others₂, wq⟩ := unaccept_rest (unread c s) s
  have first := unread_moves firm live
  have live₁ : s ∈ (unread c s).socks := by rw [rest₁]; exact live
  have second := first.trans (unaccept_moves (firm.moves first) live₁)
  have live₂ : s ∈ (unaccept (unread c s) s).socks := by rw [rest₂]; exact live₁
  have later₂ : Loses (unread c s) (severed c s) x := (unaccept_loses _ s x).trans
    (dismantle_loses (firm.moves second) live₂)
  have later₃ : Loses (unaccept (unread c s) s) (severed c s) x :=
    dismantle_loses (firm.moves second) live₂
  -- Once a task has no socket it gets none.
  have stays : ∀ {d : Core}, Loses d (severed c s) x → (d.task v).sock ≠ none := by
    intro d loses none_
    rcases (loses v pending).2.2.1 with gone | same
    · rw [gone] at still_; cases still_
    · rw [same, none_] at still_; cases still_
  cases kind : (c.task v).kind
  case taskConnect => exact wins (.inl ⟨kind, sock⟩)
  case taskSockRead =>
    have reader := (firm.sound.placed.read s v live).mpr ⟨before, kind, sock⟩
    exact stays later₂ (by rw [readers v reader])
  case taskAccept =>
    have accepter : (c.sock s).acceptTask = some v := (firm.sound.placed.accept s v live).mpr ⟨before, kind, sock⟩
    exact stays later₃ (by rw [accepters v (by rw [(slots s).1]; exact accepter)])
  case taskSockWrite =>
    have queued : v ∈ (c.sock s).wq := (firm.sound.placed.fifo s v live).mpr ⟨before, kind, sock⟩
    have task := (dismantle_head (firm.moves second) live₂ (v := v) (by
      rw [wq, (slots s).2]; exact queued) pending).1
    rw [show (severed c s).task v = _ from task] at still_
    cases still_
  case taskSockClose => exact open_ v before kind sock
  all_goals
    have absent : (c.task v).sock = none := by
      rw [show ({ core := c, out := x, bare := fun _ => false : Cut }.core.task v).kind = _ from kind] at shape
      first
        | exact shape.1
        | exact shape.elim
    rw [absent] at sock
    cases sock

/-- Cutting a socket off keeps what holds of the pending tasks. -/
theorem severed_keeps {torn : Prop} (firm : Firm B ⟨c, x, fun _ => false⟩) (live : s ∈ c.socks)
    (closing : Closing c x) (lone : Severed torn c x) (past : torn ∨ c.shut s = true) :
    Closing (severed c s) x ∧ Severed torn (severed c s) x := by
  obtain ⟨rest₁, readers, others₁, slots⟩ := unread_rest c s
  obtain ⟨rest₂, accepters, others₂, wq⟩ := unaccept_rest (unread c s) s
  have first := unread_moves firm live
  have live₁ : s ∈ (unread c s).socks := by rw [rest₁]; exact live
  have second := unaccept_moves (firm.moves first) live₁
  have live₂ : s ∈ (unaccept (unread c s) s).socks := by rw [rest₂]; exact live₁
  have past₂ : torn ∨ (unaccept (unread c s) s).shut s = true := by rw [rest₂, rest₁]; exact past
  refine ⟨closing.loses (severed_loses firm live) (severed_moves firm live).later.shut, ?_⟩
  -- Neither the reader nor the accepter is a write.
  have lone₁ : Severed torn (unread c s) x := by
    refine lone.loses (unread_loses c s x) (fun v shut => by rw [rest₁]; exact shut) fun v pending isWrite => ?_
    rw [others₁ v fun reader => ?_]
    have kind := ((firm.sound.placed.read s v live).mp reader).2.1
    rw [(unread_loses c s x v pending).2.1, show (c.task v).kind = _ from kind] at isWrite
    cases isWrite
  have lone₂ : Severed torn (unaccept (unread c s) s) x := by
    refine lone₁.loses (unaccept_loses _ s x) (fun v shut => by rw [rest₂]; exact shut)
      fun v pending isWrite => ?_
    rw [others₂ v fun accepter => ?_]
    have kind := (((firm.moves first).sound.placed.accept s v live₁).mp accepter).2.1
    rw [(unaccept_loses _ s x v pending).2.1, show ((unread c s).task v).kind = _ from kind] at isWrite
    cases isWrite
  exact severed_dismantle lone₂ (firm.moves (first.trans second)) live₂ past₂

/-- The core of `impl_sock_close`, up to the entry for the close itself. -/
def shutting (c : Core) (s : SockId) : Core := severed ((c.taskNew { kind := .taskSockClose }).markShut s) s

/-- The state in which `impl_sock_close` asks for the entry of the close. -/
theorem shutting_spec (firm : Firm B c.rest) (usable : Usable c s) (closing : Closing c fun _ => false)
    (lone : Severed False c fun _ => false) :
    let d := shutting c s
    Moves (ring B) c.rest (handing d c.ntask) ∧ d.task c.ntask = { kind := .taskSockClose } ∧
      d.ntask = c.ntask + 1 ∧ s ∈ d.socks ∧ d.claimed s = true ∧ d.shut s = true ∧
      Closing d (update (fun _ => false) c.ntask true) ∧
      Severed False d (update (fun _ => false) c.ntask true) ∧
      ∀ v, d.Pending (update (fun _ => false) c.ntask true) v → ¬ d.Refers v s := by
  intro d
  obtain ⟨live, mine, open_⟩ := usable
  let k := (c.taskNew { kind := .taskSockClose }).markShut s
  have made : Moves (still B) c.rest (handing k c.ntask) :=
    (Moves.one (.make (fresh_plain .taskSockClose (by decide)) trivial)).snoc .shut
  have fewer := fewer_of_still made
  have firm₁ : Firm B (handing k c.ntask) := firm.moves (ring_of_still made)
  have closing₁ : Closing k (update (fun _ => false) c.ntask true) := closing.fewer fewer made.later
  have lone₁ : Severed False k (update (fun _ => false) c.ntask true) := lone.fewer fewer made.later
  have shut : k.shut s = true := by simp [k, markShut]
  have live₁ : s ∈ k.socks := live
  obtain ⟨closing₂, lone₂⟩ := severed_keeps firm₁ live₁ closing₁ lone₁ (.inr shut)
  have severs := severed_moves firm₁ live₁
  -- The new task is on nobody's list.
  have absent : ∀ v, k.Pending (update (fun _ => false) c.ntask true) v → v ≠ c.ntask := by
    rintro v pending rfl
    have out := pending.2.2
    simp at out
  have own : d.task c.ntask = { kind := .taskSockClose } := by
    refine (severed_other (c := k) (fun reader => ?_) (fun accepter => ?_) fun queued => ?_).trans
      (taskNew_task c _)
    · exact absent _ ((firm₁.sound.placed.read s c.ntask live₁).mp reader).1 rfl
    · exact absent _ ((firm₁.sound.placed.accept s c.ntask live₁).mp accepter).1 rfl
    · exact absent _ ((firm₁.sound.placed.fifo s c.ntask live₁).mp queued).1 rfl
  have none_ : ∀ v, k.Pending (update (fun _ => false) c.ntask true) v →
      (k.task v).kind = .taskSockClose → (k.task v).sock ≠ some s := by
    intro v pending kind sock
    obtain ⟨before, isKind, isSock, _⟩ := fewer v pending
    have := (closing v s before (isKind.symm.trans kind) (isSock.symm.trans sock)).1
    change c.shut s = true at this
    rw [open_] at this
    cases this
  have rest : d = { k with task := d.task, sock := d.sock } := severed_same k s
  exact ⟨(ring_of_still made).trans severs, own, by rw [rest]; rfl, by rw [rest]; exact live₁,
    by rw [rest]; exact mine, by rw [rest]; exact shut, closing₂, lone₂, fun v =>
      severed_clean firm₁ live₁ mine none_⟩

/-- The books on the pending tasks, besides what the moves keep. -/
structure Tidy (torn : Prop) (c : Core) (x : TaskId → Bool) : Prop where
  closing : Closing c x
  lone : Severed torn c x
  cleared : Cleared torn c x

theorem Tidy.fewer {r : Rules} {torn : Prop} (tidy : Tidy torn c x) (fewer : Fewer c c' x x')
    (later : Later r c c') : Tidy torn c' x' :=
  ⟨tidy.closing.fewer fewer later, tidy.lone.fewer fewer later, tidy.cleared.fewer fewer⟩

theorem Tidy.joins (firm : Firm B c.rest) (tidy : Tidy False c fun _ => false) (joins : Joins c c') :
    Tidy False c' fun _ => false :=
  ⟨tidy.closing.joins joins firm.sound.placed.live, tidy.lone.joins joins, fun never => never.elim⟩

/-- `impl_sock_close`: the close is on the ring alone with its socket, or has failed. -/
theorem implSockClose_spec (firm : Firm B u.rest) (usable : Usable u.toCore s)
    (tidy : Tidy False u.toCore fun _ => false) (mem : Bool) :
    Moves (ring B) u.rest (u.implSockClose mem s).rest ∧
      Tidy False (u.implSockClose mem s).toCore fun _ => false := by
  unfold implSockClose
  split
  case isFalse => exact ⟨.refl _, tidy⟩
  dsimp only
  generalize isNext : ((((u.on (·.taskNew { kind := .taskSockClose })).on (·.markShut s)).severRead s).severAccept
    s).severWrites s = p
  have core : p.toCore = shutting u.toCore s := by rw [← isNext, severs_core]; rfl
  obtain ⟨moves, own, ntask, live, mine, shut, closing, lone, clean⟩ :=
    shutting_spec firm usable tidy.closing tidy.lone
  rw [← core] at moves own ntask live mine shut closing lone clean
  have submitted : u.ntask < p.ntask := by rw [ntask]; exact Nat.lt_succ_self _
  rcases sqeGet_cases p with got | got <;> rw [got]
  · let d := p.toCore.modTask u.ntask ({ · with sock := some s })
    have isNow : d.task u.ntask = { kind := .taskSockClose, sock := some s } := by
      simp only [d, modTask, Function.update_self]
      rw [own]
    have aimed : Moves (ring B) u.rest (handing d u.ntask) :=
      moves.snoc (.aim submitted (by rw [own]) (by simp) (by rw [own]; simp) live mine)
    have enters := entersNow aimed submitted (by rw [isNow]) (by rw [isNow]; simp)
      (by rw [isNow]; exact ⟨by simp, rfl⟩)
      (fun v refers => by
        unfold Refers at refers
        rw [isNow] at refers
        obtain rfl : s = v := by simpa using refers
        exact live)
      (by rw [isNow]; intro never; cases never) (by rw [isNow]; intro never; cases never)
    rw [setSlot_self (by rw [show (d.arm u.ntask).task u.ntask = _ from isNow]; simp)
      (by rw [show (d.arm u.ntask).task u.ntask = _ from isNow]; simp)] at enters
    -- Besides the close itself whoever is pending was so before, and points where it did.
    have old : ∀ v, v ≠ u.ntask → d.Pending (fun _ => false) v →
        p.Pending (update (fun _ => false) u.ntask true) v ∧ d.task v = p.task v := by
      intro v apart there
      have same : d.task v = p.task v := by simp [d, modTask, apart]
      exact ⟨⟨there.1, by rw [← same]; exact there.2.1, by simp [apart]⟩, same⟩
    have refersOwn : ∀ s', d.Refers u.ntask s' → s' = s := by
      intro s' refers
      unfold Refers at refers
      rw [isNow] at refers
      simpa [eq_comm] using refers
    refine ⟨enters, fun t s' pending kind sock => ?_, fun t pending kind sock s' on => ?_, fun never => never.elim⟩
    · by_cases isNew : t = u.ntask
      · subst isNew
        obtain rfl := refersOwn s' (.inl sock)
        refine ⟨shut, fun v there refers => ?_⟩
        by_contra apart
        obtain ⟨before, same⟩ := old v apart there
        refine clean v before ?_
        unfold Refers at refers ⊢
        rw [← same]
        exact refers
      · obtain ⟨before, same⟩ := old t isNew pending
        change (d.task t).kind = _ at kind
        change (d.task t).sock = _ at sock
        rw [same] at kind sock
        obtain ⟨closed, only⟩ := closing t s' before kind sock
        refine ⟨closed, fun v there refers => ?_⟩
        by_cases isNewV : v = u.ntask
        · subst isNewV
          obtain rfl := refersOwn s' refers
          exact absurd (.inl sock) (clean t before)
        · obtain ⟨beforeV, sameV⟩ := old v isNewV there
          refine only v beforeV ?_
          unfold Refers at refers ⊢
          rw [← sameV]
          exact refers
    · have isNew : t ≠ u.ntask := by
        rintro rfl
        change (d.task _).kind = _ at kind
        rw [isNow] at kind
        cases kind
      obtain ⟨before, same⟩ := old t isNew pending
      change (d.task t).kind = _ at kind
      change (d.task t).sock = _ at sock
      change (d.task t).on = _ at on
      rw [same] at kind sock on
      obtain ⟨past, only⟩ := lone t before kind sock s' on
      refine ⟨past, fun v there onV => ?_⟩
      have isNewV : v ≠ u.ntask := by
        rintro rfl
        have kindV := onV.1
        change (d.task _).kind = _ at kindV
        rw [isNow] at kindV
        cases kindV
      obtain ⟨beforeV, sameV⟩ := old v isNewV there
      refine only v beforeV ?_
      unfold WriteOn at onV ⊢
      rw [← sameV]
      exact onV
  · have ends := endsLast (B := B) (d := p.toCore) (e := rErr EAGAIN) submitted (by rw [own]) (by rw [own])
      (by simp) (by simp) (.inl (by rw [own]; simp))
    refine ⟨moves.trans (ring_of_still ends), ?_⟩
    exact Tidy.fewer ⟨closing, lone, fun never => never.elim⟩ (fewer_of_still ends) ends.later

end UringIo

end Myio.Loop
