import Myio.Xev.Writes

/-! How one task of the libxev backend is changed, and how it takes and leaves its slot. -/

namespace Myio.Xev.Io

open Function (update)

variable {io io' : Io} {skip : Option SockId} {t u : TaskId} {s : SockId} {k : Task}
  {r : Result → Result}

/-- The kinds of task that stand in a slot or in the FIFO of a socket. -/
def seated : Kind → Bool
  | .accept | .sockRead | .sockWrite => true
  | _ => false

/-- A task that can be completed: it is in no slot and no FIFO. -/
structure Ready (io : Io) (t : TaskId) : Prop where
  inside : t < io.ntask
  other : (io.task t).kind ≠ .sockWrite
  out : (io.task t).sock = none
  idle : (io.task t).kind = .sockClose ∨ (io.task t).kind = .fileClose → (io.task t).c = false

/-- The loop lets go of a task. -/
theorem TaskOk.disarm (fine : TaskOk io t k) : TaskOk io t { k with c := false } where
  aimed := fine.aimed
  closing _ active := by cases active
  closingFile _ active := by cases active
  connecting _ active := by cases active
  undone := fine.undone
  points := fine.points
  won := fine.won
  pooled async := ⟨(fine.pooled async).1, rfl, (fine.pooled async).2.2⟩
  canceling := fine.canceling
  sends active := by cases active

/-- A task lets go of its socket. -/
theorem TaskOk.unaim (fine : TaskOk io t k) (other : k.kind ≠ .sockWrite)
    (idle : k.kind = .sockClose ∨ k.kind = .connect → k.c = false) :
    TaskOk io t { k with sock := none } where
  aimed isWrite := absurd isWrite other
  closing isClose active := by rw [idle (.inl isClose)] at active; cases active
  closingFile := fine.closingFile
  connecting isConnect active := by rw [idle (.inr isConnect)] at active; cases active
  undone points := absurd rfl points
  points _ there := by cases there
  won := fine.won
  pooled async := ⟨(fine.pooled async).1, (fine.pooled async).2.1, rfl⟩
  canceling := fine.canceling
  sends := fine.sends

namespace Wired

theorem inside_of_c (wired : Wired skip io) (active : (io.task t).c = true) : t < io.ntask := by
  -- A task that was never made has no active completion.
  by_contra outside
  rw [wired.freshTask t (Nat.le_of_not_lt outside)] at active
  cases active

theorem inside_of_cCancel (wired : Wired skip io) (active : (io.task t).cCancel = true) :
    t < io.ntask := by
  by_contra outside
  rw [wired.freshTask t (Nat.le_of_not_lt outside)] at active
  cases active

theorem inside_of_cClose (wired : Wired skip io) (active : (io.sock s).cClose = true) :
    s < io.nsock := by
  by_contra outside
  rw [wired.freshSock s (Nat.le_of_not_lt outside)] at active
  cases active

/-- A task of a kind that has no socket points at none. -/
theorem unsocketed (wired : Wired skip io) (kind : socketed (io.task t).kind = false) :
    (io.task t).sock = none := by
  cases points : (io.task t).sock with
  | none => rfl
  | some s =>
    have has := ((wired.tasks t).points s points).2
    rw [kind] at has
    cases has

/-! ### Changes of one task -/

/-- A task that stands in no slot and no FIFO is changed. -/
theorem loose (wired : Wired skip io) {f : Task → Task} (inside : t < io.ntask)
    (kind : (f (io.task t)).kind = (io.task t).kind) (other : seated (io.task t).kind = false)
    (fine : TaskOk io t (f (io.task t))) : Wired skip (io.modTask t f) := by
  -- No slot and no FIFO names a task of its kind, before the change or after it.
  have notRead : (io.task t).kind ≠ .sockRead := fun same => by rw [same] at other; cases other
  have notAccept : (io.task t).kind ≠ .accept := fun same => by rw [same] at other; cases other
  have notWrite : (io.task t).kind ≠ .sockWrite := fun same => by rw [same] at other; cases other
  refine wired.renew (k := f (io.task t)) rfl (.inl ⟨rfl, inside⟩) (Nat.le_refl _) ?_ ?_ ?_ ?_
    (fun _ => ⟨rfl, rfl⟩) (fun _ _ => id) (fine.mono (Nat.le_refl _) fun _ => id) wired.freshSock
  · intro s; simp [pends, notWrite]
  · intro s; simp [pends, kind, notWrite]
  · intro s u
    rw [modTask_sock, kind]
    split
    · rename_i isT; rw [isT, wired.read]; simp [notRead]
    · rfl
  · intro s u
    rw [modTask_sock, kind]
    split
    · rename_i isT; rw [isT, wired.accept]; simp [notAccept]
    · rfl

/-- Fields of a task that are no links and arm no send are written. -/
theorem touch (wired : Wired skip io) {f : Task → Task} (inside : t < io.ntask)
    (links : f (io.task t) = { f (io.task t) with
      kind := (io.task t).kind, done := (io.task t).done, sock := (io.task t).sock
      on := (io.task t).on, wnext := (io.task t).wnext, c := (io.task t).c })
    (fine : TaskOk io t (f (io.task t))) : Wired skip (io.modTask t f) := by
  have each : ∀ {α : Type} (g : Task → α), g (f (io.task t)) = g (io.task t) →
      ∀ u, g ((io.modTask t f).task u) = g (io.task u) := by
    intro α g agree u
    rw [modTask_task, Function.update_apply]
    split
    · rename_i isT; rw [isT]; exact agree
    · rfl
  -- What the books read of any task is what it was.
  have kind := each Task.kind (by rw [links])
  have done := each Task.done (by rw [links])
  have sock := each Task.sock (by rw [links])
  have on := each Task.on (by rw [links])
  have wnext := each Task.wnext (by rw [links])
  have c := each Task.c (by rw [links])
  have same : ∀ s u, (io.modTask t f).pends s u = io.pends s u := fun s u => by
    simp only [pends, kind, done, on]
  constructor
  case read => intro s u; rw [kind, done, sock]; exact wired.read s u
  case accept => intro s u; rw [kind, done, sock]; exact wired.accept s u
  case fifo =>
    intro s used
    have pend : (io.modTask t f).pend s = io.pend s := Machine.select_congr fun u _ => same s u
    rw [pend]
    exact wired.chain_congr used rfl rfl fun u _ => wnext u
  case armed =>
    intro s u pending used
    rw [same] at pending
    rw [c]
    exact wired.armed s u pending used
  case tasks =>
    intro u
    have mono : ∀ {k}, TaskOk io u k → TaskOk (io.modTask t f) u k := fun fine =>
      fine.mono (Nat.le_refl _) fun _ => id
    by_cases isT : u = t
    · subst isT; rw [modTask_task, Function.update_self]; exact mono fine
    · rw [modTask_task, Function.update_of_ne isT]; exact mono (wired.tasks u)
  case freshTask =>
    intro u outside
    rw [modTask_task, Function.update_of_ne (Nat.ne_of_gt (Nat.lt_of_lt_of_le inside outside))]
    exact wired.freshTask u outside
  case freshSock => exact wired.freshSock

/-- Fields of a task that nothing here depends on are written. -/
theorem note (wired : Wired skip io) {f : Task → Task} (inside : t < io.ntask)
    (links : f (io.task t) = { f (io.task t) with
      kind := (io.task t).kind, done := (io.task t).done, res := (io.task t).res
      c := (io.task t).c, cCancel := (io.task t).cCancel, cAsync := (io.task t).cAsync
      sock := (io.task t).sock, wnext := (io.task t).wnext, on := (io.task t).on }) :
    Wired skip (io.modTask t f) := by
  have fine := wired.tasks t
  refine wired.touch inside (by rw [links]) ?_
  rw [links]
  exact ⟨fine.aimed, fine.closing, fine.closingFile, fine.connecting, fine.undone, fine.points,
    fine.won, fine.pooled, fine.canceling, fine.sends⟩

/-- The loop lets go of a task that is not a write in a FIFO. -/
theorem disarm (wired : Wired skip io) (inside : t < io.ntask)
    (ended : (io.task t).kind = .sockWrite → (io.task t).done = true) :
    Wired skip (io.disarm t) := by
  -- A write that is done stands in no FIFO, and every other task stands in none anyway.
  refine wired.rework inside (fun s => ?_) rfl (wired.tasks t).disarm
  cases pending : io.pends s t with
  | false => rfl
  | true =>
    obtain ⟨isWrite, isOpen, _⟩ := pends_iff.mp pending
    rw [ended isWrite] at isOpen
    cases isOpen

/-! ### The slots -/

/-- The slot of a socket for tasks of a kind, if there is one. -/
def slot : Kind → Sock → Option TaskId
  | .sockRead, k => k.readTask
  | .accept, k => k.acceptTask
  | _, _ => none

def setSlot (kind : Kind) (seat : Option TaskId) (k : Sock) : Sock :=
  match kind with
  | .sockRead => { k with readTask := seat }
  | .accept => { k with acceptTask := seat }
  | _ => k

theorem slot_iff (wired : Wired skip io) {kind : Kind} (isSlot : kind = .sockRead ∨ kind = .accept) :
    slot kind (io.sock s) = some t ↔
      (io.task t).kind = kind ∧ (io.task t).done = false ∧ (io.task t).sock = some s := by
  rcases isSlot with rfl | rfl
  · exact wired.read s t
  · exact wired.accept s t

/-- A task takes its slot of a socket, or leaves it. -/
theorem reseat (wired : Wired skip io) {kind : Kind} (isSlot : kind = .sockRead ∨ kind = .accept)
    {f : Task → Task} (seat : Bool) (inside : t < io.ntask) (insideSock : s < io.nsock)
    (isKind : (io.task t).kind = kind) (only : ∀ u, slot kind (io.sock s) = some u → u = t)
    (here : ∀ v, (io.task t).sock = some v → v = s)
    (after : f (io.task t) = { f (io.task t) with
      kind := kind, done := false, sock := cond seat (some s) none })
    (fine : TaskOk io t (f (io.task t))) :
    Wired skip ((io.modSock s (setSlot kind (cond seat (some t) none))).modTask t f) := by
  have notWrite : kind ≠ .sockWrite := by rintro rfl; rcases isSlot with h | h <;> cases h
  have kindT : (f (io.task t)).kind = kind := by rw [after]
  have doneT : (f (io.task t)).done = false := by rw [after]
  have sockT : (f (io.task t)).sock = cond seat (some s) none := by rw [after]
  generalize isNew : io.modSock s (setSlot kind (cond seat (some t) none)) = v
  have sock : v.sock = update io.sock s (setSlot kind (cond seat (some t) none) (io.sock s)) := by
    rw [← isNew]; rfl
  have taskV : v.task = io.task := by rw [← isNew]; rfl
  -- The slot of this kind holds the task on this socket alone, if it is seated at all.
  have own : ∀ x u, slot kind (v.sock x) = some u ↔
      if u = t then cond seat (some s) none = some x else slot kind (io.sock x) = some u := by
    intro x u
    rw [sock, Function.update_apply]
    by_cases isS : x = s
    · subst isS
      have set : slot kind (setSlot kind (cond seat (some t) none) (io.sock x)) =
          cond seat (some t) none := by
        rcases isSlot with rfl | rfl <;> rfl
      rw [if_pos rfl, set]
      by_cases isT : u = t
      · subst isT; cases seat <;> simp
      · have out : slot kind (io.sock x) ≠ some u := fun there => isT (only u there)
        cases seat <;> simp [isT, out, Ne.symm isT]
    · rw [if_neg isS]
      by_cases isT : u = t
      · have out : slot kind (io.sock x) ≠ some t := fun there =>
          isS (here x ((wired.slot_iff isSlot).mp there).2.2)
        cases seat <;> simp [isT, out, Ne.symm isS]
      · simp [isT]
  -- No other field of a socket is written.
  have others : ∀ {α : Type} (g : Sock → α),
      g (setSlot kind (cond seat (some t) none) (io.sock s)) = g (io.sock s) →
      ∀ x, g (v.sock x) = g (io.sock x) := by
    intro α g agree x
    rw [sock, Function.update_apply]
    split
    · rename_i isS; rw [isS]; exact agree
    · rfl
  have closeTask := others Sock.closeTask (by rcases isSlot with rfl | rfl <;> rfl)
  refine wired.renew (k := f (io.task t)) (by rw [← isNew]; rfl)
    (.inl ⟨by rw [← isNew]; rfl, inside⟩) (by rw [← isNew]; exact Nat.le_refl _) ?_ ?_ ?_ ?_
    (fun x => ⟨?_, ?_⟩) (fun x u mine => ?_) ?_ fun x outside => ?_
  · intro x; simp [pends, isKind, notWrite]
  · intro x; simp [pends, taskV, kindT, notWrite]
  · intro x u
    rcases isSlot with rfl | rfl
    · rw [kindT, doneT, sockT]; simpa [slot] using own x u
    · rw [kindT]
      change (v.sock x).readTask = some u ↔ _
      rw [others Sock.readTask rfl]
      split
      · rename_i isT; rw [isT, wired.read, isKind]; simp
      · rfl
  · intro x u
    rcases isSlot with rfl | rfl
    · rw [kindT]
      change (v.sock x).acceptTask = some u ↔ _
      rw [others Sock.acceptTask rfl]
      split
      · rename_i isT; rw [isT, wired.accept, isKind]; simp
      · rfl
    · rw [kindT, doneT, sockT]; simpa [slot] using own x u
  · exact others Sock.writeHead (by rcases isSlot with rfl | rfl <;> rfl) x
  · exact others Sock.writeTail (by rcases isSlot with rfl | rfl <;> rfl) x
  · exact (closeTask x).trans mine
  · exact fine.mono (by rw [← isNew]; exact Nat.le_refl _) fun x mine => (closeTask x).trans mine
  · change v.sock x = {}
    have beyond : io.nsock ≤ x := by rw [← isNew] at outside; exact outside
    rw [sock, Function.update_of_ne (Nat.ne_of_gt (Nat.lt_of_lt_of_le insideSock beyond))]
    exact wired.freshSock x beyond

/-- A task leaves its slot. -/
theorem leave (wired : Wired skip io) {kind : Kind} (isSlot : kind = .sockRead ∨ kind = .accept)
    (there : slot kind (io.sock s) = some t) :
    Wired skip ((io.modSock s (setSlot kind none)).modTask t ({ · with sock := none })) := by
  -- The slot says what the task is and where it points.
  obtain ⟨isKind, isOpen, points⟩ := (wired.slot_iff isSlot).mp there
  have fine := wired.tasks t
  have notWrite : kind ≠ .sockWrite := by rintro rfl; rcases isSlot with h | h <;> cases h
  refine wired.reseat isSlot false (wired.inside (.inl ?_)) (fine.points s points).1 isKind
    (fun u other => ?_) (fun v aimed => ?_) ?_
    (fine.unaim (by rw [isKind]; exact notWrite) fun other => ?_)
  · rw [isKind]; rintro rfl; rcases isSlot with h | h <;> cases h
  · exact Option.some.inj (other.symm.trans there)
  · exact Option.some.inj (aimed.symm.trans points)
  · simp [isKind, isOpen]
  · rw [isKind] at other
    rcases isSlot with rfl | rfl <;> rcases other with other | other <;> cases other

/-- A new task takes an empty slot, and is handed to the loop. -/
theorem take (wired : Wired skip io) {kind : Kind} (isSlot : kind = .sockRead ∨ kind = .accept)
    (inside : t < io.ntask) (new : io.task t = { kind }) (insideSock : s < io.nsock)
    (free : slot kind (io.sock s) = none) :
    Wired skip
      (((io.modTask t ({ · with sock := some s })).modSock s (setSlot kind (some t))).start t) := by
  -- The three writes make one change of the task and one of the socket.
  have seats := wired.reseat (s := s) (f := fun k => { k with sock := some s, c := true }) isSlot true
    inside insideSock (by rw [new]) (by simp [free]) (by simp [new]) (by simp [new]) (by
      have socketed : socketed kind = true := by rcases isSlot with rfl | rfl <;> rfl
      rw [new]
      constructor <;> rcases isSlot with rfl | rfl <;> simp_all [Io.socketed])
  convert seats using 1
  simp [Io.start, Io.modTask, Io.modSock]

end Wired

end Myio.Xev.Io
