import Myio.Xev.Parts

/-! How the tasks, the slots and the write FIFOs of the libxev backend point at each other. -/

namespace Myio.Xev.Io

open Function (update)

/-- A write that was submitted on a socket and is not done. -/
def pends (io : Io) (s : SockId) (t : TaskId) : Bool :=
  (io.task t).kind = .sockWrite && !(io.task t).done && (io.task t).on = some s

/-- The writes of a socket that are not done, in submission order. -/
def pend (io : Io) (s : SockId) : List TaskId := Machine.select (io.pends s) io.ntask

/-- The kinds of task that point at a socket. -/
def socketed : Kind → Bool
  | .connect | .accept | .sockRead | .sockWrite | .sockClose => true
  | _ => false

/-- What each task's callbacks expect of it: which completions are active, and where it points. -/
structure TaskOk (io : Io) (t : TaskId) (k : Task) : Prop where
  aimed : k.kind = .sockWrite → k.sock = if k.done then none else k.on
  closing : k.kind = .sockClose → k.c = true →
    k.done = false ∧ ∃ s, k.sock = some s ∧ (io.sock s).closeTask = some t
  closingFile : k.kind = .fileClose → k.c = true → k.done = false
  connecting : k.kind = .connect → k.c = true → k.sock ≠ none
  undone : k.sock ≠ none → k.done = false
  points : ∀ s, k.sock = some s → s < io.nsock ∧ socketed k.kind = true
  won : ∀ s, k.res.ptr = some s → s < io.nsock ∧ (k.kind = .connect ∨ k.kind = .accept)
  pooled : k.cAsync = true → pooled k.kind = true ∧ k.c = false ∧ k.sock = none
  canceling : k.cCancel = true → k.kind = .sockWrite → k.done = true
  sends : k.c = true → k.kind = .sockWrite → ∃ s, k.on = some s ∧ s < io.nsock

/--
The slots and FIFOs hold the tasks that act on their socket and are not done, and only the head of
a FIFO has its send on the loop.

Inside `implSockClose` the pointers of one FIFO are out of order; it is skipped then.
-/
structure Wired (skip : Option SockId) (io : Io) : Prop where
  read : ∀ s t, (io.sock s).readTask = some t ↔
    (io.task t).kind = .sockRead ∧ (io.task t).done = false ∧ (io.task t).sock = some s
  accept : ∀ s t, (io.sock s).acceptTask = some t ↔
    (io.task t).kind = .accept ∧ (io.task t).done = false ∧ (io.task t).sock = some s
  fifo : ∀ s, skip ≠ some s → (io.chain s).Holds (io.pend s)
  armed : ∀ s t, io.pends s t = true → skip ≠ some s →
    ((io.task t).c = true ↔ (io.sock s).writeHead = some t)
  tasks : ∀ t, TaskOk io t (io.task t)
  freshTask : ∀ t, io.ntask ≤ t → io.task t = { kind := .open }
  freshSock : ∀ s, io.nsock ≤ s → io.sock s = {}

variable {io io' : Io} {skip : Option SockId} {t : TaskId} {s : SockId} {k : Task}

theorem mem_pend : t ∈ io.pend s ↔ t < io.ntask ∧ io.pends s t = true := Machine.mem_select

theorem pends_iff : io.pends s t = true ↔
    (io.task t).kind = .sockWrite ∧ (io.task t).done = false ∧ (io.task t).on = some s := by
  simp [pends, and_assoc]

/-- A condition on a task outlasts later closes and new sockets. -/
theorem TaskOk.mono (fine : TaskOk io t k) (nsock : io.nsock ≤ io'.nsock)
    (closeTask : ∀ s, (io.sock s).closeTask = some t → (io'.sock s).closeTask = some t) :
    TaskOk io' t k where
  aimed := fine.aimed
  closing isClose active := by
    obtain ⟨isOpen, s, points, mine⟩ := fine.closing isClose active
    exact ⟨isOpen, s, points, closeTask s mine⟩
  closingFile := fine.closingFile
  connecting := fine.connecting
  undone := fine.undone
  points s there := ⟨Nat.lt_of_lt_of_le (fine.points s there).1 nsock, (fine.points s there).2⟩
  won s there := ⟨Nat.lt_of_lt_of_le (fine.won s there).1 nsock, (fine.won s there).2⟩
  pooled := fine.pooled
  canceling := fine.canceling
  sends active isWrite := by
    obtain ⟨s, on, inside⟩ := fine.sends active isWrite
    exact ⟨s, on, Nat.lt_of_lt_of_le inside nsock⟩

/-- What is asked of a write. -/
theorem TaskOk.write (isWrite : k.kind = .sockWrite) (aimed : k.sock = if k.done then none else k.on)
    (inside : ∀ s, k.sock = some s → s < io.nsock) (ptr : k.res.ptr = none) (cAsync : k.cAsync = false)
    (canceling : k.cCancel = true → k.done = true)
    (sends : k.c = true → ∃ s, k.on = some s ∧ s < io.nsock) : TaskOk io t k := by
  constructor <;> simp_all [socketed]

/-- A task just made. -/
theorem TaskOk.new (io : Io) (t : TaskId) (kind : Kind) : TaskOk io t { kind } := by
  constructor <;> simp

namespace Wired

/-- A task with a name beyond the last is not a write. -/
theorem inside_of_pends (wired : Wired skip io) (pends : io.pends s t = true) : t < io.ntask := by
  by_contra outside
  rw [pends_iff, wired.freshTask t (Nat.le_of_not_lt outside)] at pends
  exact absurd pends.1 (by decide)

theorem inside (wired : Wired skip io) (other : (io.task t).kind ≠ .open ∨ (io.task t).cAsync = true) :
    t < io.ntask := by
  by_contra outside
  rw [wired.freshTask t (Nat.le_of_not_lt outside)] at other
  simp at other

/-- The links of the tasks that are in no FIFO do not matter to it. -/
theorem chain_congr (wired : Wired skip io) (used : skip ≠ some s)
    (head : (io'.sock s).writeHead = (io.sock s).writeHead)
    (tail : (io'.sock s).writeTail = (io.sock s).writeTail)
    (wnext : ∀ u, io.pends s u = true → (io'.task u).wnext = (io.task u).wnext) :
    (io'.chain s).Holds (io.pend s) :=
  (wired.fifo s used).congr head tail fun u member => wnext u (mem_pend.mp member).2

/--
One task that stands in no FIFO is changed or made, and with it the slots that hold it.
-/
theorem renew (wired : Wired skip io) {k : Task} (task : io'.task = update io.task t k)
    (ntask : io'.ntask = io.ntask ∧ t < io.ntask ∨ io'.ntask = io.ntask + 1 ∧ t = io.ntask)
    (nsock : io.nsock ≤ io'.nsock)
    (before : ∀ s, io.pends s t = false) (after : ∀ s, io'.pends s t = false)
    (read : ∀ s u, (io'.sock s).readTask = some u ↔
      if u = t then k.kind = .sockRead ∧ k.done = false ∧ k.sock = some s
      else (io.sock s).readTask = some u)
    (accept : ∀ s u, (io'.sock s).acceptTask = some u ↔
      if u = t then k.kind = .accept ∧ k.done = false ∧ k.sock = some s
      else (io.sock s).acceptTask = some u)
    (ends : ∀ s, (io'.sock s).writeHead = (io.sock s).writeHead ∧
      (io'.sock s).writeTail = (io.sock s).writeTail)
    (closeTask : ∀ s u, (io.sock s).closeTask = some u → (io'.sock s).closeTask = some u)
    (fine : TaskOk io' t k) (freshSock : ∀ s, io'.nsock ≤ s → io'.sock s = {}) : Wired skip io' := by
  have other : ∀ u, u ≠ t → io'.task u = io.task u := fun u ne => by
    rw [task, Function.update_of_ne ne]
  have same : ∀ s u, io'.pends s u = io.pends s u := by
    intro s u
    by_cases isT : u = t
    · rw [isT, before, after]
    · simp only [pends, other u isT]
  have pend : ∀ s, io'.pend s = io.pend s := by
    intro s
    rcases ntask with ⟨stays, _⟩ | ⟨grown, rfl⟩
    · rw [Io.pend, Io.pend, stays]
      exact Machine.select_congr fun u _ => same s u
    · rw [Io.pend, Io.pend, grown, Machine.select_succ, after]
      simp [Machine.select_congr fun u (_ : u < io.ntask) => same s u]
  constructor
  case read =>
    intro s u
    rw [read]
    split
    · rename_i isT; rw [isT, task, Function.update_self]
    · rename_i ne; rw [other u ne]; exact wired.read s u
  case accept =>
    intro s u
    rw [accept]
    split
    · rename_i isT; rw [isT, task, Function.update_self]
    · rename_i ne; rw [other u ne]; exact wired.accept s u
  case fifo =>
    intro s used
    rw [pend]
    refine wired.chain_congr used (ends s).1 (ends s).2 fun u pends => ?_
    rw [other u]
    rintro rfl
    rw [before] at pends
    cases pends
  case armed =>
    intro s u pends used
    rw [same] at pends
    have ne : u ≠ t := by
      rintro rfl
      rw [before] at pends
      cases pends
    rw [other u ne, (ends s).1]
    exact wired.armed s u pends used
  case tasks =>
    intro u
    by_cases isT : u = t
    · rw [isT, task, Function.update_self]; exact fine
    · rw [other u isT]
      exact (wired.tasks u).mono nsock fun s => closeTask s u
  case freshTask =>
    intro u outside
    rcases ntask with ⟨stays, inside⟩ | ⟨grown, rfl⟩
    · rw [stays] at outside
      rw [other u (Nat.ne_of_gt (Nat.lt_of_lt_of_le inside outside))]
      exact wired.freshTask u outside
    · rw [grown] at outside
      rw [other u (Nat.ne_of_gt outside)]
      exact wired.freshTask u (Nat.le_of_lt outside)
  case freshSock => exact freshSock

/-- Fields of sockets that hold no links are written. -/
theorem resock (wired : Wired skip io) (task : io'.task = io.task) (ntask : io'.ntask = io.ntask)
    (nsock : io.nsock ≤ io'.nsock)
    (links : ∀ s, (io'.sock s).readTask = (io.sock s).readTask ∧
      (io'.sock s).acceptTask = (io.sock s).acceptTask ∧
      (io'.sock s).writeHead = (io.sock s).writeHead ∧ (io'.sock s).writeTail = (io.sock s).writeTail)
    (closeTask : ∀ s u, (io.sock s).closeTask = some u → (io'.sock s).closeTask = some u)
    (freshSock : ∀ s, io'.nsock ≤ s → io'.sock s = {}) : Wired skip io' where
  read s u := by rw [task, (links s).1]; exact wired.read s u
  accept s u := by rw [task, (links s).2.1]; exact wired.accept s u
  fifo s used := by
    have pend : io'.pend s = io.pend s := by
      rw [Io.pend, Io.pend, ntask]
      exact Machine.select_congr fun u _ => by simp only [pends, task]
    rw [pend]
    exact wired.chain_congr used (links s).2.2.1 (links s).2.2.2 fun u _ => by rw [task]
  armed s u pends used := by
    rw [task, (links s).2.2.1]
    refine wired.armed s u ?_ used
    simpa only [Io.pends, task] using pends
  tasks u := by rw [task]; exact (wired.tasks u).mono nsock fun s => closeTask s u
  freshTask u outside := by
    rw [ntask] at outside
    rw [task]; exact wired.freshTask u outside
  freshSock := freshSock

/-- Other parts of the instance are written. -/
theorem aside (wired : Wired skip io) (task : io'.task = io.task) (sock : io'.sock = io.sock)
    (ntask : io'.ntask = io.ntask) (nsock : io'.nsock = io.nsock) : Wired skip io' :=
  wired.resock task ntask (Nat.le_of_eq nsock.symm) (by simp [sock])
    (fun s u mine => by rw [sock]; exact mine)
    (fun s outside => by rw [sock]; exact wired.freshSock s (by rw [← nsock]; exact outside))

/-- A field of a socket that holds no link is written. -/
theorem modSock (wired : Wired skip io) {f : Sock → Sock} (inside : s < io.nsock)
    (links : f (io.sock s) = { f (io.sock s) with
      readTask := (io.sock s).readTask, acceptTask := (io.sock s).acceptTask
      closeTask := (io.sock s).closeTask, writeHead := (io.sock s).writeHead
      writeTail := (io.sock s).writeTail }) : Wired skip (io.modSock s f) := by
  have each : ∀ {α : Type} (g : Sock → α), g (f (io.sock s)) = g (io.sock s) →
      ∀ v, g ((io.modSock s f).sock v) = g (io.sock v) := by
    intro α g agree v
    rw [modSock_sock, Function.update_apply]
    split
    · rename_i isS; rw [isS]; exact agree
    · rfl
  refine wired.resock rfl rfl (Nat.le_refl _) (fun v => ⟨?_, ?_, ?_, ?_⟩) (fun v u mine => ?_) fun v outside => ?_
  · exact each Sock.readTask (by rw [links]) v
  · exact each Sock.acceptTask (by rw [links]) v
  · exact each Sock.writeHead (by rw [links]) v
  · exact each Sock.writeTail (by rw [links]) v
  · rw [each Sock.closeTask (by rw [links]) v]; exact mine
  · rw [modSock_sock, Function.update_of_ne (Nat.ne_of_gt (Nat.lt_of_lt_of_le inside outside))]
    exact wired.freshSock v outside

/-- A task in no FIFO is changed, and stays in the slot it is in, if any. -/
theorem rework (wired : Wired skip io) {f : Task → Task} (inside : t < io.ntask)
    (before : ∀ s, io.pends s t = false)
    (links : f (io.task t) = { f (io.task t) with
      kind := (io.task t).kind, done := (io.task t).done, sock := (io.task t).sock
      on := (io.task t).on })
    (fine : TaskOk io t (f (io.task t))) : Wired skip (io.modTask t f) := by
  have kind : (f (io.task t)).kind = (io.task t).kind := by rw [links]
  have done : (f (io.task t)).done = (io.task t).done := by rw [links]
  have sock : (f (io.task t)).sock = (io.task t).sock := by rw [links]
  have on : (f (io.task t)).on = (io.task t).on := by rw [links]
  refine wired.renew (k := f (io.task t)) rfl (.inl ⟨rfl, inside⟩) (Nat.le_refl _) before ?_ ?_ ?_
    (fun _ => ⟨rfl, rfl⟩) (fun _ _ => id) (fine.mono (Nat.le_refl _) fun _ => id) wired.freshSock
  · intro s
    rw [← before s]
    simp only [pends, modTask_task, Function.update_self, kind, done, on]
  · intro s u
    rw [modTask_sock]
    split
    · rename_i isT; rw [isT, kind, done, sock]; exact wired.read s t
    · rfl
  · intro s u
    rw [modTask_sock]
    split
    · rename_i isT; rw [isT, kind, done, sock]; exact wired.accept s t
    · rfl

/-- A task points at no socket, and is given nothing to point at. -/
theorem unaimed (wired : Wired skip io) {f : Task → Task} (inside : t < io.ntask)
    (before : (io.task t).sock = none) (kind : (f (io.task t)).kind = (io.task t).kind)
    (after : (f (io.task t)).sock = none) (other : (io.task t).kind ≠ .sockWrite)
    (fine : TaskOk io t (f (io.task t))) : Wired skip (io.modTask t f) := by
  have noRead : ∀ s, (io.sock s).readTask ≠ some t := fun s slot => by
    have points := ((wired.read s t).mp slot).2.2
    rw [before] at points; cases points
  have noAccept : ∀ s, (io.sock s).acceptTask ≠ some t := fun s slot => by
    have points := ((wired.accept s t).mp slot).2.2
    rw [before] at points; cases points
  refine wired.renew (k := f (io.task t)) rfl (.inl ⟨rfl, inside⟩) (Nat.le_refl _) ?_ ?_ ?_ ?_
    (fun _ => ⟨rfl, rfl⟩) (fun _ _ => id) (fine.mono (Nat.le_refl _) fun _ => id) wired.freshSock
  · intro s; simp [pends, other]
  · intro s; simp [pends, kind, other]
  · intro s u
    rw [modTask_sock, after]
    split
    · rename_i isT; simp [isT, noRead]
    · rfl
  · intro s u
    rw [modTask_sock, after]
    split
    · rename_i isT; simp [isT, noAccept]
    · rfl

/-- A task is made. -/
theorem taskNew (wired : Wired skip io) (kind : Kind) : Wired skip (io.taskNew kind) := by
  have fresh := wired.freshTask io.ntask (Nat.le_refl _)
  have noRead : ∀ s, (io.sock s).readTask ≠ some io.ntask := fun s slot => by
    have points := ((wired.read s io.ntask).mp slot).1
    rw [fresh] at points; cases points
  have noAccept : ∀ s, (io.sock s).acceptTask ≠ some io.ntask := fun s slot => by
    have points := ((wired.accept s io.ntask).mp slot).1
    rw [fresh] at points; cases points
  refine wired.renew (t := io.ntask) (k := { kind }) rfl (.inr ⟨rfl, rfl⟩) (Nat.le_refl _) ?_ ?_ ?_ ?_
    (fun _ => ⟨rfl, rfl⟩) (fun _ _ => id) (.new _ _ _) wired.freshSock
  · intro s; simp [pends, fresh]
  · intro s; simp [pends, Io.taskNew]
  · intro s u
    change (io.sock s).readTask = some u ↔ _
    split
    · rename_i isT; simp [isT, noRead]
    · rfl
  · intro s u
    change (io.sock s).acceptTask = some u ↔ _
    split
    · rename_i isT; simp [isT, noAccept]
    · rfl

/-- What is discarded with a task changes no links. -/
theorem discard (wired : Wired skip io) (t : TaskId) : Wired skip { io with sock := io.discarded t } := by
  have inside := (wired.tasks t).won
  cases detached : (io.task t).detached with
  | false => rw [discarded, detached]; exact wired
  | true =>
    cases ptr : (io.task t).res.ptr with
    | none => rw [discarded, detached, ptr]; exact wired
    | some s =>
      rw [discarded, detached, ptr]
      exact wired.modSock (f := fun k => { k with cClose := true, loopCloses := k.loopCloses + 1 })
        (inside s ptr).1 rfl

/-- A task that is in no slot and no FIFO ends. -/
theorem settle (wired : Wired skip io) {r : Result → Result} (keeps : Result.Keeps r)
    (inside : t < io.ntask) (other : (io.task t).kind ≠ .sockWrite) (out : (io.task t).sock = none)
    (closed : (io.task t).kind = .sockClose ∨ (io.task t).kind = .fileClose → (io.task t).c = false) :
    Wired skip (io.settle t r) := by
  have fine := wired.tasks t
  have ended : TaskOk io t (settled r (io.task t)) := by
    constructor
    case aimed => intro isWrite; exact absurd isWrite other
    case closing => intro isClose active; exact absurd (closed (.inl isClose)) (by simpa [settled] using active)
    case closingFile => intro isClose active; exact absurd (closed (.inr isClose)) (by simpa [settled] using active)
    case connecting => exact fine.connecting
    case undone => intro points; exact absurd out points
    case points => exact fine.points
    case won =>
      intro s ptr
      refine fine.won s ?_
      rw [← keeps (io.task t).res]
      simp only [settled] at ptr
      split at ptr
      · cases ptr
      · exact ptr
    case pooled => exact fine.pooled
    case canceling => intro _ isWrite; exact absurd isWrite other
    case sends => intro _ isWrite; exact absurd isWrite other
  have discards := wired.discard t
  have done := discards.unaimed (f := settled r) inside out rfl out other
    (ended.mono (Nat.le_refl _) fun s mine => by
      unfold discarded
      split
      · simp only [Function.update_apply]
        split
        · rename_i isS; rw [← isS]; exact mine
        · exact mine
      · exact mine)
  rw [settle_eq keeps]
  exact done.aside rfl rfl rfl rfl

/-- The skipped FIFO may be any. -/
theorem skipping (wired : Wired none io) (s : SockId) : Wired (some s) io :=
  { wired with fifo := fun v _ => wired.fifo v (by simp), armed := fun v u pends _ => wired.armed v u pends (by simp) }

/-- Writes of one socket are changed, together with the ends of its FIFO. -/
theorem refile (wired : Wired skip io) {skip' : Option SockId} (inside : s < io.nsock)
    (skips : ∀ v, v ≠ s → skip' ≠ some v → skip ≠ some v)
    (task : ∀ u, io'.task u = io.task u ∨ ((io'.task u).kind = .sockWrite ∧ (io'.task u).on = some s ∧
      TaskOk io u (io'.task u) ∧ (io.task u).kind = .sockWrite ∧
      ((io.task u).on = none ∨ (io.task u).on = some s)))
    (ntask : io'.ntask = io.ntask) (nsock : io'.nsock = io.nsock)
    (sock : ∀ v, v ≠ s → io'.sock v = io.sock v)
    (links : io'.sock s = { io.sock s with
      writeHead := (io'.sock s).writeHead, writeTail := (io'.sock s).writeTail })
    (fifo : skip' ≠ some s → (io'.chain s).Holds (io'.pend s))
    (armed : skip' ≠ some s → ∀ u, io'.pends s u = true →
      ((io'.task u).c = true ↔ (io'.sock s).writeHead = some u)) : Wired skip' io' := by
  have slots : ∀ v, (io'.sock v).readTask = (io.sock v).readTask ∧
      (io'.sock v).acceptTask = (io.sock v).acceptTask ∧
      (io'.sock v).closeTask = (io.sock v).closeTask := by
    intro v
    by_cases isS : v = s
    · rw [isS, links]; exact ⟨rfl, rfl, rfl⟩
    · rw [sock v isS]; exact ⟨rfl, rfl, rfl⟩
  -- On other sockets the same writes are pending.
  have same : ∀ v, v ≠ s → ∀ u, io'.pends v u = io.pends v u := by
    intro v other u
    rcases task u with unchanged | ⟨_, on, _, _, before⟩
    · simp only [pends, unchanged]
    · have apart : some s ≠ some v := fun equal => other (Option.some.inj equal).symm
      rcases before with before | before <;> simp [pends, on, before, apart]
  have elsewhere : ∀ v, v ≠ s → ∀ u, io.pends v u = true → io'.task u = io.task u := by
    intro v other u pends
    rcases task u with unchanged | ⟨_, _, _, _, before⟩
    · exact unchanged
    · have on := (pends_iff.mp pends).2.2
      rcases before with before | before
      · rw [before] at on; cases on
      · rw [before] at on; exact absurd (Option.some.inj on).symm other
  constructor
  case read =>
    intro v u
    rw [(slots v).1]
    rcases task u with unchanged | ⟨isWrite, _, _, wasWrite, _⟩
    · rw [unchanged]; exact wired.read v u
    · rw [wired.read v u, isWrite, wasWrite]; simp
  case accept =>
    intro v u
    rw [(slots v).2.1]
    rcases task u with unchanged | ⟨isWrite, _, _, wasWrite, _⟩
    · rw [unchanged]; exact wired.accept v u
    · rw [wired.accept v u, isWrite, wasWrite]; simp
  case fifo =>
    intro v used
    by_cases isS : v = s
    · rw [isS] at used ⊢; exact fifo used
    · have pend : io'.pend v = io.pend v := by
        rw [Io.pend, Io.pend, ntask]
        exact Machine.select_congr fun u _ => same v isS u
      rw [pend]
      refine wired.chain_congr (skips v isS used) (by rw [sock v isS]) (by rw [sock v isS]) ?_
      intro u pends
      rw [elsewhere v isS u pends]
  case armed =>
    intro v u pends used
    by_cases isS : v = s
    · rw [isS] at pends used ⊢; exact armed used u pends
    · rw [same v isS] at pends
      rw [elsewhere v isS u pends, sock v isS]
      exact wired.armed v u pends (skips v isS used)
  case tasks =>
    intro u
    have mono : ∀ {k}, TaskOk io u k → TaskOk io' u k := fun fine =>
      fine.mono (Nat.le_of_eq nsock.symm) fun v mine => by rw [(slots v).2.2]; exact mine
    rcases task u with unchanged | ⟨_, _, fine, _, _⟩
    · rw [unchanged]; exact mono (wired.tasks u)
    · exact mono fine
  case freshTask =>
    intro u outside
    rw [ntask] at outside
    have fresh := wired.freshTask u outside
    rcases task u with unchanged | ⟨_, _, _, wasWrite, _⟩
    · rw [unchanged]; exact fresh
    · rw [fresh] at wasWrite; cases wasWrite
  case freshSock =>
    intro v outside
    rw [nsock] at outside
    rw [sock v (Nat.ne_of_gt (Nat.lt_of_lt_of_le inside outside))]
    exact wired.freshSock v outside

end Wired

end Myio.Xev.Io
