import Myio.Uring.Writes

/-! The submissions of the io_uring backend. -/

namespace Myio.Loop

open Function (update)
open Loop.Core

namespace UringIo

variable {B : Prop} {c d : Core} {t v : TaskId} {s : SockId} {e : Result} {u : UringIo}
  {kind : TaskKind}

/-! ### A task is made, and ends or enters -/

/-- The moment at which one task is in the running code's hands. -/
def handing (c : Core) (t : TaskId) : Cut := ⟨c, update (fun _ => false) t true, fun _ => false⟩

/-- A task record with nothing but a kind. -/
theorem fresh_plain (kind : TaskKind) (other : kind ≠ .taskSockWrite) : c.Fresh { kind } := by
  constructor <;> simp [other]

/-- The record of a new write. -/
theorem fresh_write (buf : List UInt8) (live : s ∈ c.socks) (mine : c.claimed s = true) :
    c.Fresh { kind := .taskSockWrite, sock := some s, buf, fd := (c.sock s).fd, on := some s } := by
  constructor <;> simp [live, mine]

/-- `task_new`, for a task whose arguments are filled in later. -/
theorem make_moves (other : kind ≠ .taskSockWrite) :
    Moves (ring B) c.rest (handing (c.taskNew { kind }) c.ntask) :=
  .one (.make (fresh_plain kind other) trivial)

/-- The shared part after shared code. -/
@[simp] theorem on_toCore (u : UringIo) (f : Core → Core) : (u.on f).toCore = f u.toCore := rfl

/-- The record of a task that has just been made. -/
@[simp] theorem taskNew_task (c : Core) (k : Task) : (c.taskNew k).task c.ntask = k := by
  simp [taskNew]

/-- The task in hand ends. -/
theorem endsLast (submitted : t < d.ntask) (isOpen : (d.task t).done = false)
    (mine : (d.task t).detached = false) (status : e.status ≠ .pending) (ptr : e.ptr = none)
    (other : (d.task t).kind ≠ .taskSockWrite ∨ e.status ≠ .ok) :
    Moves (still B) (handing d t) (d.finish t e).rest := by
  have ends : Moves (still B) (handing d t)
      ⟨d.settle t e, update (update (fun _ => false) t true) t false, fun _ => false⟩ :=
    .one (.settle submitted isOpen (by simp) (Settles.plain status ptr other) trivial)
  -- Nobody has had the time to detach it.
  have same : d.finish t e = d.settle t e := by
    unfold finish settle settled modTask
    simp [mine]
  rw [out_back] at ends
  rw [same]
  exact ends

/-- The task in hand ends before the call returns. -/
theorem endsNow (moves : Moves (ring B) c.rest (handing d t)) (submitted : t < d.ntask)
    (isOpen : (d.task t).done = false) (mine : (d.task t).detached = false)
    (status : e.status ≠ .pending) (ptr : e.ptr = none)
    (other : (d.task t).kind ≠ .taskSockWrite ∨ e.status ≠ .ok) :
    Moves (ring B) c.rest (d.finish t e).rest :=
  moves.trans (ring_of_still (endsLast submitted isOpen mine status ptr other))

/-- The task in hand is put on the ring. -/
theorem entersNow (moves : Moves (ring B) c.rest (handing d t)) (submitted : t < d.ntask)
    (isOpen : (d.task t).done = false) (kind : (d.task t).kind ≠ .taskSockWrite)
    (fits : (ring B).Fits (d.task t)) (live : ∀ s, d.Refers t s → s ∈ d.socks)
    (read : (d.task t).kind = .taskSockRead →
      ∃ s, (d.task t).sock = some s ∧ (d.sock s).readTask = none)
    (accept : (d.task t).kind = .taskAccept →
      ∃ s, (d.task t).sock = some s ∧ (d.sock s).acceptTask = none) :
    Moves (ring B) c.rest ((d.arm t).setSlot t).rest := by
  have enters := moves.snoc (.enter submitted isOpen (by simp) kind fits live read accept)
  rw [out_back] at enters
  exact enters

/-- A task without a socket takes no slot. -/
theorem setSlot_none (none_ : (c.task t).sock = none) : c.setSlot t = c := by
  unfold setSlot
  rw [none_]

/-- A task that neither reads nor accepts takes no slot. -/
theorem setSlot_self (read : (c.task t).kind ≠ .taskSockRead) (accept : (c.task t).kind ≠ .taskAccept) :
    c.setSlot t = c := by
  unfold setSlot
  split
  · exact modSock_self _ _ (by simp [read, accept])
  · rfl

/-! ### What a submission leaves alone -/

/-- A task that points at no socket the caller has closed, and at its own if it is a write. -/
structure Joining (c c' : Core) (t : TaskId) : Prop where
  close : (c'.task t).kind ≠ .taskSockClose
  refers : ∀ s, (c'.task t).done = false → c'.Refers t s → c.shut s = false ∨ s ∉ c.socks
  write : (c'.task t).done = false → (c'.task t).kind = .taskSockWrite →
    ∃ s, (c'.task t).sock = some s ∧ (c'.task t).on = some s ∧ c.shut s = false

/-- One task is new at most. -/
structure Joins (c c' : Core) : Prop where
  ntask : c'.ntask ≤ c.ntask + 1
  others : ∀ v, v < c.ntask → c'.task v = c.task v
  shut : c'.shut = c.shut
  new : c.ntask < c'.ntask → Joining c c' c.ntask

/-- No task is made. -/
theorem Joins.same {c' : Core} (ntask : c'.ntask = c.ntask) (task : c'.task = c.task)
    (shut : c'.shut = c.shut) : Joins c c' := by
  refine ⟨by rw [ntask]; exact Nat.le_succ _, fun v _ => by rw [task], shut, fun less => ?_⟩
  rw [ntask] at less
  exact absurd less (Nat.lt_irrefl _)

/-- A new task that ends before the call returns. -/
theorem Joining.ended {c' : Core} (close : (c'.task t).kind ≠ .taskSockClose)
    (done : (c'.task t).done = true) : Joining c c' t := by
  refine ⟨close, fun s isOpen => ?_, fun isOpen => ?_⟩
  · rw [done] at isOpen; cases isOpen
  · rw [done] at isOpen; cases isOpen

/-- A new task without arguments ends before the call returns. -/
theorem inline_moves (write : kind ≠ .taskSockWrite) (close : kind ≠ .taskSockClose)
    (status : e.status ≠ .pending) (ptr : e.ptr = none) :
    Moves (ring B) c.rest ((c.taskNew { kind }).finish c.ntask e).rest ∧
      Joins c ((c.taskNew { kind }).finish c.ntask e) := by
  refine ⟨endsNow (make_moves write) (Nat.lt_succ_self _) (by simp) (by simp) status ptr
    (.inl (by simpa using write)), Nat.le_refl _, fun v inside => ?_, rfl, fun _ => .ended ?_ ?_⟩
  · simp [finish, modTask, taskNew, Nat.ne_of_lt inside]
  · simpa [finish, modTask] using close
  · simp [finish, modTask]

/-! ### Files, sleeps and spawned functions -/

/-- The kinds that need nothing but an entry. -/
def plainKind : TaskKind → Bool
  | .taskOpen | .taskClose | .taskRead | .taskWrite | .taskSleep => true
  | _ => false

/-- A submission that needs nothing but an entry. -/
theorem submitPlain_moves (plain : plainKind kind = true) (len : Nat) :
    Moves (ring B) u.rest (u.submitPlain kind len).rest ∧
      Joins u.toCore (u.submitPlain kind len).toCore := by
  have write : kind ≠ .taskSockWrite := by rintro rfl; cases plain
  have read : kind ≠ .taskSockRead := by rintro rfl; cases plain
  have accept : kind ≠ .taskAccept := by rintro rfl; cases plain
  have close : kind ≠ .taskSockClose := by rintro rfl; cases plain
  have fits : (ring B).Fits ({ kind } : Task) := by
    unfold Rules.Fits ring uShape
    cases kind <;> first | exact ⟨rfl, rfl⟩ | cases plain
  unfold submitPlain
  rcases sqeGet_cases (u.on (·.taskNew { kind })) with got | got <;> rw [got]
  · have enters := entersNow (B := B) (make_moves (c := u.toCore) write) (Nat.lt_succ_self _) (by simp)
      (by simpa using write) (by rw [taskNew_task]; exact fits)
      (fun s refers => by unfold Refers at refers; rw [taskNew_task] at refers; simp at refers)
      (fun isRead => absurd (by simpa using isRead) read)
      fun isAccept => absurd (by simpa using isAccept) accept
    rw [setSlot_none (by simp [Core.arm])] at enters
    refine ⟨enters, ⟨Nat.le_refl _, fun v inside => ?_, rfl, fun _ => ⟨?_, fun s _ refers => ?_,
      fun _ isWrite => ?_⟩⟩⟩
    · exact Function.update_of_ne (Nat.ne_of_lt inside) _ _
    · change ((u.taskNew { kind }).task u.ntask).kind ≠ _
      rw [taskNew_task]
      exact close
    · change (u.taskNew { kind }).Refers u.ntask s at refers
      unfold Refers at refers
      rw [taskNew_task] at refers
      simp at refers
    · change ((u.taskNew { kind }).task u.ntask).kind = _ at isWrite
      rw [taskNew_task] at isWrite
      exact absurd isWrite write
  · exact inline_moves write close (by simp) (by simp)

/-- What a submission is made of: its moves, and what it leaves alone. -/
def Submits (B : Prop) (u u' : UringIo) : Prop :=
  Moves (ring B) u.rest u'.rest ∧ Joins u.toCore u'.toCore

/-- A call that finds no memory for its handle. -/
theorem Submits.give (ret : URet) : Submits B u (u.give ret) := ⟨.refl _, .same rfl rfl rfl⟩

theorem implOpen_submits (mem path : Bool) : Submits B u (u.implOpen mem path) := by
  unfold implOpen
  split
  · split
    · exact submitPlain_moves rfl 0
    · exact inline_moves (c := u.toCore) (by decide) (by decide) (by simp) (by simp)
  · exact .give _

theorem implClose_submits (mem : Bool) : Submits B u (u.implClose mem) := by
  unfold implClose
  split
  · exact submitPlain_moves rfl 0
  · exact .give _

theorem implRead_submits (mem : Bool) (len : Nat) : Submits B u (u.implRead mem len) := by
  unfold implRead
  split
  · exact submitPlain_moves rfl len
  · exact .give _

theorem implWrite_submits (mem : Bool) (len : Nat) : Submits B u (u.implWrite mem len) := by
  unfold implWrite
  split
  · exact submitPlain_moves rfl len
  · exact .give _

theorem implSleep_submits (mem : Bool) : Submits B u (u.implSleep mem) := by
  unfold implSleep
  split
  · exact submitPlain_moves rfl 0
  · exact .give _

theorem implSpawn_submits (mem : Bool) (ret : Int) : Submits B u (u.implSpawn mem ret) := by
  unfold implSpawn
  split
  · exact inline_moves (c := u.toCore) (by decide) (by decide) (by unfold fnResult; split <;> simp)
      (by unfold fnResult; split <;> rfl)
  · exact .give _

/-! ### Connecting and listening -/

/-- A descriptor that does not become a socket. -/
theorem waste_moves {x : TaskId → Bool} {h : SockId → Bool} (linked : c.Linked) :
    Moves (ring B) ⟨c, x, h⟩ ⟨c.newDesc.closeDesc c.ndesc, x, h⟩ :=
  (Moves.one .newDesc).snoc (.closeDesc linked.loose_new)

/-- A socket that has just been made is nobody's. -/
theorem sole_new (built : c.Built) (fd : Option Fd) : (c.sockNew fd).Sole c.nsock := by
  constructor
  case live => exact List.mem_cons_self
  case mine =>
    change c.claimed c.nsock = false
    cases given : c.claimed c.nsock with
    | false => rfl
    | true => exact absurd (built.claimed _ given) (Nat.lt_irrefl _)
  case tasks =>
    exact fun v inside isOpen refers => Nat.lt_irrefl _ (built.bound v _ inside isOpen refers)
  case ptr => exact fun v inside points => Nat.lt_irrefl _ (built.ptr v _ inside points)

/-- A descriptor that becomes a socket nobody knows. -/
theorem wrap_moves {x : TaskId → Bool} {h : SockId → Bool} (linked : c.Linked) (built : c.Built) :
    Moves (ring B) ⟨c, x, h⟩ ⟨c.newDesc.sockNew (some c.ndesc), x, h⟩ ∧
      (c.newDesc.sockNew (some c.ndesc)).Sole c.nsock := by
  have same : c.newDesc.Built := ⟨built.bound, built.sole, built.ptr, built.claimed⟩
  refine ⟨(Moves.one .newDesc).snoc (.sockNew (fun d isFd => ?_) fun none => by cases none),
    sole_new same _⟩
  obtain rfl : c.ndesc = d := by simpa using isFd
  exact linked.loose_new

/-- The task in hand releases the socket it was to win, and lets go of it. -/
theorem release_moves {p q : Option SockId} (moves : Moves (ring B) c.rest (handing d t))
    (live : s ∈ d.socks) (only : ∀ v, v < d.ntask → (d.task v).done = false → d.Refers v s → v = t)
    (sock : p = none ∨ p = (d.task t).sock) (newsock : q = none ∨ q = (d.task t).newsock) :
    Moves (ring B) c.rest
      (handing ((d.sockRelease s).modTask t ({ · with sock := p, newsock := q })) t) := by
  have released : Move (ring B) (handing d t) (handing (d.sockRelease s) t) := by
    refine .release ⟨live, fun v there refers => ?_⟩
    have := only v there.1 there.2.1 refers
    subst this
    have out := there.2.2
    simp at out
  exact (moves.snoc released).snoc (.drop (by simp) sock newsock)

/-- A connect whose socket is known is put on the ring, or its socket is released again. -/
theorem connecting_moves (firm : Firm B c.rest) :
    let k := c.taskNew { kind := .taskConnect }
    let d := (k.newDesc.sockNew (some k.ndesc)).modTask c.ntask ({ · with sock := some k.nsock })
    Moves (ring B) c.rest (d.arm c.ntask).rest ∧
      Moves (ring B) c.rest (((d.sockRelease k.nsock).modTask c.ntask ({ · with sock := none })).finish
        c.ntask (rErr EAGAIN)).rest := by
  intro k d
  have made := make_moves (B := B) (c := c) (show TaskKind.taskConnect ≠ .taskSockWrite by decide)
  have sound := (firm.moves made).sound
  obtain ⟨wrapped, sole⟩ : Moves (ring B) (handing k c.ntask)
      (handing (k.newDesc.sockNew (some k.ndesc)) c.ntask) ∧
        (k.newDesc.sockNew (some k.ndesc)).Sole k.nsock := wrap_moves sound.linked sound.built
  have new : (k.newDesc.sockNew (some k.ndesc)).task c.ntask = { kind := .taskConnect } := taskNew_task c _
  have built : Moves (ring B) c.rest (handing d c.ntask) :=
    (made.trans wrapped).snoc (.build (t := c.ntask) (Nat.lt_succ_self _) (by rw [new]) (by simp)
      (by rw [new]) sole)
  have own : d.task c.ntask = { kind := .taskConnect, sock := some k.nsock } := by
    simp only [d, modTask, Function.update_self]
    rw [new]
  have live : k.nsock ∈ d.socks := List.mem_cons_self
  have only : ∀ v, v < d.ntask → (d.task v).done = false → d.Refers v k.nsock → v = c.ntask := by
    intro v inside isOpen refers
    by_contra other
    have same : d.task v = (k.newDesc.sockNew (some k.ndesc)).task v := by simp [d, modTask, other]
    unfold Refers at refers
    rw [same] at isOpen refers
    exact sole.tasks v inside isOpen refers
  refine ⟨?_, ?_⟩
  · have enters := entersNow built (Nat.lt_succ_self _) (by rw [own]) (by rw [own]; simp)
      (by rw [own]; exact ⟨by simp, rfl⟩)
      (fun s refers => by
        unfold Refers at refers
        rw [own] at refers
        obtain rfl : k.nsock = s := by simpa using refers
        exact live)
      (by rw [own]; intro never; cases never) (by rw [own]; intro never; cases never)
    rw [setSlot_self (by rw [show (d.arm c.ntask).task c.ntask = _ from own]; simp)
      (by rw [show (d.arm c.ntask).task c.ntask = _ from own]; simp)] at enters
    exact enters
  · have back := release_moves built live only (p := none) (q := (d.task c.ntask).newsock) (.inl rfl)
      (.inr rfl)
    rw [modTask_congr (g := ({ · with sock := none })) rfl] at back
    have isNow : ((d.sockRelease k.nsock).modTask c.ntask ({ · with sock := none })).task c.ntask =
        { kind := .taskConnect } := by
      simp only [modTask, Function.update_self]
      rw [show (d.sockRelease k.nsock).task c.ntask = _ from own]
    exact endsNow back (Nat.lt_succ_self _) (by rw [isNow]) (by rw [isNow]) (by simp) (by simp)
      (.inl (by rw [isNow]; decide))

theorem implTcpConnect_submits (firm : Firm B u.rest) (mem : Bool) (ans : ConnectAns) :
    Submits B u (u.implTcpConnect mem ans) := by
  have early : ∀ err : Int, Submits B u ((u.on (·.taskNew { kind := .taskConnect })).on
      (taskFail · u.ntask err)) := fun err =>
    inline_moves (c := u.toCore) (by decide) (by decide) (by simp) (by simp)
  unfold implTcpConnect
  split
  case isFalse => exact .give _
  cases ans with
  | unresolved rc errno => exact early _
  | socket errno => exact early _
  | opened memSock =>
    dsimp only
    split
    · obtain ⟨armed, lost⟩ := connecting_moves firm
      have outside : u.nsock ∉ u.socks := fun there =>
        Nat.lt_irrefl _ (firm.sound.linked.bound _ there)
      generalize isNext : (((u.on (·.taskNew { kind := .taskConnect })).on (·.newDesc)).on
        (·.sockNew (some (u.on (·.taskNew { kind := .taskConnect })).ndesc))).on
        (·.modTask u.ntask ({ · with sock := some ((u.on (·.taskNew { kind := .taskConnect })).on
          (·.newDesc)).nsock })) = p
      have core : p.toCore = (((u.taskNew { kind := .taskConnect }).newDesc.sockNew
          (some u.ndesc)).modTask u.ntask ({ · with sock := some u.nsock })) := by rw [← isNext]; rfl
      have own : p.task u.ntask = { kind := .taskConnect, sock := some u.nsock } := by
        rw [core]
        simp [modTask, sockNew, newDesc]
      rcases sqeGet_cases p with got | got <;> rw [got]
      · refine ⟨?_, ?_⟩
        · change Moves (ring B) u.rest (p.toCore.arm u.ntask).rest
          rw [core]
          exact armed
        · refine ⟨?_, fun v inside => ?_, ?_, fun _ => ⟨?_, fun s _ refers => .inr ?_, fun _ isWrite => ?_⟩⟩
          · change p.ntask ≤ _; rw [core]; exact Nat.le_refl _
          · change p.task v = _
            rw [core]
            simp [modTask, sockNew, newDesc, taskNew, Nat.ne_of_lt inside]
          · change p.shut = _; rw [core]; rfl
          · change (p.task u.ntask).kind ≠ _; rw [own]; simp
          · change p.Refers u.ntask s at refers
            unfold Refers at refers
            rw [own] at refers
            obtain rfl : u.nsock = s := by simpa using refers
            exact outside
          · change (p.task u.ntask).kind = _ at isWrite; rw [own] at isWrite; cases isWrite
      · refine ⟨?_, ?_⟩
        · change Moves (ring B) u.rest (((p.toCore.sockRelease u.nsock).modTask u.ntask
            ({ · with sock := none })).finish u.ntask (rErr EAGAIN)).rest
          rw [core]
          exact lost
        · refine ⟨?_, fun v inside => ?_, ?_, fun _ => .ended ?_ ?_⟩
          · change p.ntask ≤ _; rw [core]; exact Nat.le_refl _
          · change (((p.toCore.sockRelease u.nsock).modTask u.ntask ({ · with sock := none })).finish
              u.ntask (rErr EAGAIN)).task v = _
            rw [core]
            simp [finish, modTask, sockRelease, sockNew, newDesc, taskNew, Nat.ne_of_lt inside]
          · change p.shut = _; rw [core]; rfl
          · change ((((p.toCore.sockRelease u.nsock).modTask u.ntask ({ · with sock := none })).finish
              u.ntask (rErr EAGAIN)).task u.ntask).kind ≠ _
            rw [core]
            simp [finish, modTask, sockRelease, sockNew, newDesc]
          · change ((((p.toCore.sockRelease u.nsock).modTask u.ntask ({ · with sock := none })).finish
              u.ntask (rErr EAGAIN)).task u.ntask).done = _
            simp [finish, modTask]
    · -- The descriptor is closed again.
      have made := make_moves (B := B) (c := u.toCore) (show TaskKind.taskConnect ≠ .taskSockWrite by decide)
      have wasted := made.trans (waste_moves (firm.moves made).sound.linked)
      refine ⟨endsNow (d := (u.taskNew { kind := .taskConnect }).newDesc.closeDesc u.ndesc) wasted
        (Nat.lt_succ_self _) ?_ ?_ (by simp) (by simp) (.inl ?_), Nat.le_refl _, fun v inside => ?_, rfl,
        fun _ => .ended ?_ ?_⟩
      · simp [closeDesc, modDesc, newDesc]
      · simp [closeDesc, modDesc, newDesc]
      · simp [closeDesc, modDesc, newDesc]
      · change (((u.taskNew { kind := .taskConnect }).newDesc.closeDesc u.ndesc).finish u.ntask
          (rErr ENOMEM)).task v = _
        simp [finish, modTask, closeDesc, modDesc, newDesc, taskNew, Nat.ne_of_lt inside]
      · change ((((u.taskNew { kind := .taskConnect }).newDesc.closeDesc u.ndesc).finish u.ntask
          (rErr ENOMEM)).task u.ntask).kind ≠ _
        simp [finish, modTask, closeDesc, modDesc, newDesc]
      · change ((((u.taskNew { kind := .taskConnect }).newDesc.closeDesc u.ndesc).finish u.ntask
          (rErr ENOMEM)).task u.ntask).done = _
        simp [finish, modTask]

theorem implTcpListen_submits (firm : Firm B u.rest) (ans : ListenAns) :
    Submits B u (u.implTcpListen ans) := by
  have wasted := waste_moves (B := B) (x := fun _ => false) (h := fun _ => false) firm.sound.linked
  unfold implTcpListen
  cases ans with
  | badHost => exact .give _
  | socket errno => exact .give _
  | bind errno => exact ⟨wasted, .same rfl rfl rfl⟩
  | listening mem =>
    dsimp only
    split
    · obtain ⟨wrapped, sole⟩ := wrap_moves (B := B) (x := fun _ => false) (h := fun _ => false)
        firm.sound.linked firm.sound.built
      refine ⟨wrapped.snoc (.claim (Nat.lt_succ_self _) fun v inside isOpen builds => ?_), .same rfl rfl rfl⟩
      exact sole.tasks v inside isOpen builds.refers
    · exact ⟨wasted, .same rfl rfl rfl⟩

/-! ### Reading and accepting -/

/-- What the caller may do with a socket: it was given it, and has not closed it. -/
def Usable (c : Core) (s : SockId) : Prop := s ∈ c.socks ∧ c.claimed s = true ∧ c.shut s = false

/-- The slot a task takes is its socket's. -/
theorem setSlot_read (kind : (c.task t).kind = .taskSockRead) (sock : (c.task t).sock = some s) :
    c.setSlot t = c.modSock s ({ · with readTask := some t }) := by
  unfold setSlot
  rw [sock, kind]
  simp

theorem setSlot_accept (kind : (c.task t).kind = .taskAccept) (sock : (c.task t).sock = some s) :
    c.setSlot t = c.modSock s ({ · with acceptTask := some t }) := by
  unfold setSlot
  rw [sock, kind]
  simp

theorem implSockRead_submits (usable : Usable u.toCore s) (mem : Bool) (len : Nat) :
    Submits B u (u.implSockRead mem s len) := by
  obtain ⟨live, mine, open_⟩ := usable
  have early : ∀ (w : UringIo) (err : Int), w.toCore = u.taskNew { kind := .taskSockRead } →
      Submits B u (w.on (taskFail · u.ntask err)) := by
    intro w err core
    unfold Submits
    rw [show (w.on (taskFail · u.ntask err)).toCore =
      (u.taskNew { kind := .taskSockRead }).finish u.ntask (rErr err) by rw [← core]; rfl]
    exact inline_moves (c := u.toCore) (by decide) (by decide) (by simp) (by simp)
  unfold implSockRead
  split
  case isFalse => exact .give _
  dsimp only
  split
  · exact early _ _ rfl
  rename_i notBusy
  have free : (u.sock s).readTask = none := by simpa [on, taskNew] using notBusy
  rcases sqeGet_cases (u.on (·.taskNew { kind := .taskSockRead })) with got | got <;> rw [got]
  · let d := (u.taskNew { kind := .taskSockRead }).modTask u.ntask ({ · with sock := some s })
    have own : d.task u.ntask = { kind := .taskSockRead, sock := some s } := by simp [d, modTask]
    have aimed : Moves (ring B) u.rest (handing d u.ntask) :=
      (make_moves (by decide)).snoc (.aim (Nat.lt_succ_self _) (by simp) (by simp) (by simp) live mine)
    have enters := entersNow aimed (Nat.lt_succ_self _) (by rw [own]) (by rw [own]; simp)
      (by rw [own]; rfl)
      (fun v refers => by
        unfold Refers at refers
        rw [own] at refers
        obtain rfl : s = v := by simpa using refers
        exact live)
      (fun _ => ⟨s, by rw [own], free⟩) (by rw [own]; intro never; cases never)
    rw [setSlot_read (c := d.arm u.ntask) (s := s) (congrArg Task.kind own) (congrArg Task.sock own)] at enters
    refine ⟨enters, Nat.le_refl _, fun v inside => ?_, rfl, fun _ => ⟨?_, fun v _ refers => .inl ?_,
      fun _ isWrite => ?_⟩⟩
    · change d.task v = _
      simp [d, modTask, taskNew, Nat.ne_of_lt inside]
    · change (d.task u.ntask).kind ≠ _
      rw [own]
      simp
    · change d.Refers u.ntask v at refers
      unfold Refers at refers
      rw [own] at refers
      obtain rfl : s = v := by simpa using refers
      exact open_
    · change (d.task u.ntask).kind = _ at isWrite
      rw [own] at isWrite
      cases isWrite
  · exact early { u.on (·.taskNew { kind := .taskSockRead }) with
      tick := (u.on (·.taskNew { kind := .taskSockRead })).tick + 1 } _ rfl

/-- An accept whose socket is made is put on the ring, or its socket is released again. -/
theorem accepting_moves {ls : SockId} (firm : Firm B c.rest) (usable : Usable c ls)
    (free : (c.sock ls).acceptTask = none) :
    let k := c.taskNew { kind := .taskAccept }
    let d := (k.sockNew none).modTask c.ntask ({ · with newsock := some k.nsock })
    Moves (ring B) c.rest (((d.arm c.ntask).modTask c.ntask ({ · with sock := some ls })).modSock ls
        ({ · with acceptTask := some c.ntask })).rest ∧
      Moves (ring B) c.rest (((d.sockRelease k.nsock).modTask c.ntask ({ · with newsock := none })).finish
        c.ntask (rErr EAGAIN)).rest := by
  intro k d
  obtain ⟨live, mine, _⟩ := usable
  have made := make_moves (B := B) (c := c) (show TaskKind.taskAccept ≠ .taskSockWrite by decide)
  have sound := (firm.moves made).sound
  have sole : (k.sockNew none).Sole k.nsock := sole_new sound.built none
  have wrapped : Moves (ring B) c.rest (handing (k.sockNew none) c.ntask) :=
    made.snoc (.sockNew (fun _ none_ => by cases none_) fun _ => trivial)
  have new : (k.sockNew none).task c.ntask = { kind := .taskAccept } := taskNew_task c _
  have built : Moves (ring B) c.rest (handing d c.ntask) :=
    wrapped.snoc (.buildNew (t := c.ntask) (Nat.lt_succ_self _) (by rw [new]) (by simp) sole
      (by simp [sockNew]))
  have own : d.task c.ntask = { kind := .taskAccept, newsock := some k.nsock } := by
    simp only [d, modTask, Function.update_self]
    rw [new]
  have madeLive : k.nsock ∈ d.socks := List.mem_cons_self
  have stillLive : ls ∈ d.socks := List.mem_cons_of_mem _ live
  have only : ∀ v, v < d.ntask → (d.task v).done = false → d.Refers v k.nsock → v = c.ntask := by
    intro v inside isOpen refers
    by_contra other
    have same : d.task v = (k.sockNew none).task v := by simp [d, modTask, other]
    unfold Refers at refers
    rw [same] at isOpen refers
    exact sole.tasks v inside isOpen refers
  refine ⟨?_, ?_⟩
  · let a := d.modTask c.ntask ({ · with sock := some ls })
    have isNow : a.task c.ntask = { kind := .taskAccept, sock := some ls, newsock := some k.nsock } := by
      simp only [a, modTask, Function.update_self]
      rw [show d.task c.ntask = _ from own]
    have aimed : Moves (ring B) c.rest (handing a c.ntask) :=
      built.snoc (.aim (Nat.lt_succ_self _) (by rw [own]) (by simp) (by rw [own]; simp) stillLive mine)
    -- The listener is older than the socket to be won.
    have older : ls ≠ c.nsock := Nat.ne_of_lt (firm.sound.linked.bound ls live)
    have slot : (a.sock ls).acceptTask = none := by
      simp only [a, d, k, modTask, sockNew, taskNew]
      rw [Function.update_of_ne older]
      exact free
    have enters := entersNow aimed (Nat.lt_succ_self _) (by rw [isNow]) (by rw [isNow]; simp)
      (by rw [isNow]; exact Option.some_ne_none _)
      (fun v refers => by
        unfold Refers at refers
        rw [isNow] at refers
        rcases refers with here | there
        · obtain rfl : ls = v := by simpa using here
          exact stillLive
        · obtain rfl : k.nsock = v := by simpa using there
          exact madeLive)
      (by rw [isNow]; intro never; cases never) (fun _ => ⟨ls, by rw [isNow], slot⟩)
    rw [setSlot_accept (c := a.arm c.ntask) (s := ls) (congrArg Task.kind isNow)
      (congrArg Task.sock isNow)] at enters
    exact enters
  · have back := release_moves built madeLive only (p := (d.task c.ntask).sock) (q := none) (.inr rfl)
      (.inl rfl)
    rw [modTask_congr (g := ({ · with newsock := none })) rfl] at back
    have isNow : ((d.sockRelease k.nsock).modTask c.ntask ({ · with newsock := none })).task c.ntask =
        { kind := .taskAccept } := by
      simp only [modTask, Function.update_self]
      rw [show (d.sockRelease k.nsock).task c.ntask = _ from own]
    exact endsNow back (Nat.lt_succ_self _) (by rw [isNow]) (by rw [isNow]) (by simp) (by simp)
      (.inl (by rw [isNow]; decide))

theorem implTcpAccept_submits {ls : SockId} (firm : Firm B u.rest) (usable : Usable u.toCore ls)
    (mem memSock : Bool) : Submits B u (u.implTcpAccept mem memSock ls) := by
  have early : ∀ err : Int, Submits B u ((u.on (·.taskNew { kind := .taskAccept })).on
      (taskFail · u.ntask err)) := fun err =>
    inline_moves (c := u.toCore) (by decide) (by decide) (by simp) (by simp)
  unfold implTcpAccept
  split
  case isFalse => exact .give _
  dsimp only
  split
  · exact early _
  rename_i notBusy
  have free : (u.sock ls).acceptTask = none := by simpa [on, taskNew] using notBusy
  split
  · obtain ⟨armed, lost⟩ := accepting_moves firm usable free
    have outside : u.nsock ∉ u.socks := fun there =>
      Nat.lt_irrefl _ (firm.sound.linked.bound _ there)
    generalize isNext : ((u.on (·.taskNew { kind := .taskAccept })).on (·.sockNew none)).on
      (·.modTask u.ntask ({ · with newsock := some (u.on (·.taskNew { kind := .taskAccept })).nsock })) = p
    have core : p.toCore = (((u.taskNew { kind := .taskAccept }).sockNew none).modTask u.ntask
        ({ · with newsock := some u.nsock })) := by rw [← isNext]; rfl
    have own : p.task u.ntask = { kind := .taskAccept, newsock := some u.nsock } := by
      rw [core]
      simp [modTask, sockNew]
    rcases sqeGet_cases p with got | got <;> rw [got]
    · refine ⟨?_, ?_, fun v inside => ?_, ?_, fun _ => ⟨?_, fun s _ refers => ?_, fun _ isWrite => ?_⟩⟩
      · change Moves (ring B) u.rest (((p.toCore.arm u.ntask).modTask u.ntask
          ({ · with sock := some ls })).modSock ls ({ · with acceptTask := some u.ntask })).rest
        rw [core]
        exact armed
      · change p.ntask ≤ _; rw [core]; exact Nat.le_refl _
      · change (p.toCore.modTask u.ntask ({ · with sock := some ls })).task v = _
        rw [core]
        simp [modTask, sockNew, taskNew, Nat.ne_of_lt inside]
      · change p.shut = _; rw [core]; rfl
      · change ((p.toCore.modTask u.ntask ({ · with sock := some ls })).task u.ntask).kind ≠ _
        simp [modTask, own]
      · change (p.toCore.modTask u.ntask ({ · with sock := some ls })).Refers u.ntask s at refers
        unfold Refers at refers
        simp only [modTask, Function.update_self, own] at refers
        rcases refers with here | there
        · obtain rfl : ls = s := by simpa using here
          exact .inl usable.2.2
        · obtain rfl : u.nsock = s := by simpa using there
          exact .inr outside
      · change ((p.toCore.modTask u.ntask ({ · with sock := some ls })).task u.ntask).kind = _ at isWrite
        simp [modTask, own] at isWrite
    · refine ⟨?_, ?_, fun v inside => ?_, ?_, fun _ => .ended ?_ ?_⟩
      · change Moves (ring B) u.rest (((p.toCore.sockRelease u.nsock).modTask u.ntask
          ({ · with newsock := none })).finish u.ntask (rErr EAGAIN)).rest
        rw [core]
        exact lost
      · change p.ntask ≤ _; rw [core]; exact Nat.le_refl _
      · change (((p.toCore.sockRelease u.nsock).modTask u.ntask ({ · with newsock := none })).finish
          u.ntask (rErr EAGAIN)).task v = _
        rw [core]
        simp [finish, modTask, sockRelease, sockNew, taskNew, Nat.ne_of_lt inside]
      · change p.shut = _; rw [core]; rfl
      · change ((((p.toCore.sockRelease u.nsock).modTask u.ntask ({ · with newsock := none })).finish
          u.ntask (rErr EAGAIN)).task u.ntask).kind ≠ _
        rw [core]
        simp [finish, modTask, sockRelease, sockNew]
      · change ((((p.toCore.sockRelease u.nsock).modTask u.ntask ({ · with newsock := none })).finish
          u.ntask (rErr EAGAIN)).task u.ntask).done = _
        simp [finish, modTask]
  · exact early _

/-! ### Writing -/

/-- A new write on its socket's FIFO. -/
theorem parked_moves (usable : Usable c s) (buf : List UInt8) :
    let k := c.taskNew { kind := .taskSockWrite, sock := some s, buf, fd := (c.sock s).fd, on := some s }
    Moves (ring B) c.rest ⟨k.modSock s fun q => { q with wq := q.wq ++ [c.ntask] }, fun _ => false,
      fun v => v = s && (c.sock s).wq.isEmpty⟩ := by
  intro k
  obtain ⟨live, mine, _⟩ := usable
  have made : Moves (ring B) c.rest (handing k c.ntask) := .one (.make (fresh_write buf live mine) trivial)
  have own : k.task c.ntask = { kind := .taskSockWrite, sock := some s, buf, fd := (c.sock s).fd, on := some s } :=
    taskNew_task c _
  have parks := made.snoc (.park (s := s) rfl (by rw [own]) (by simp) (by rw [own]) (by rw [own])
    (by rw [own]) (by rw [own]; exact ⟨rfl, by simp, .inr rfl⟩) live)
  rw [out_back] at parks
  simp only [Bool.false_or] at parks
  exact parks

/-- A write that gets no entry is popped again, and fails. -/
theorem writeDrop_eq {d : Core} (mine : (d.task t).detached = false) :
    writeDrop d s t (-EAGAIN) = ((d.modSock s fun k => { k with wq := (wqPop k.wq).1 }).modTask t
      ({ · with sock := none })).finish t (rErr EAGAIN) := by
  have result : cqeResult (-EAGAIN) = rErr EAGAIN := by decide
  unfold writeDrop taskComplete
  dsimp only
  rw [taskFinish_plain (cqeResult_ptr _), result]
  unfold finish settle settled modTask
  simp [modSock, mine]

/-- The head of a FIFO is put on the ring, or the FIFO that held it alone is empty again. -/
theorem heading_moves (firm : Firm B c.rest) (usable : Usable c s) (buf : List UInt8)
    (empty : (c.sock s).wq = []) :
    let k := c.taskNew { kind := .taskSockWrite, sock := some s, buf, fd := (c.sock s).fd, on := some s }
    let d := k.modSock s fun q => { q with wq := q.wq ++ [c.ntask] }
    Moves (ring B) c.rest (d.arm c.ntask).rest ∧
      Moves (ring B) c.rest (((d.modSock s fun q => { q with wq := (wqPop q.wq).1 }).modTask c.ntask
        ({ · with sock := none })).finish c.ntask (rErr EAGAIN)).rest := by
  intro k d
  have live : s ∈ d.socks := usable.1
  have parks : Moves (ring B) c.rest ⟨d, fun _ => false, fun v => v = s && (c.sock s).wq.isEmpty⟩ :=
    parked_moves usable buf
  have own : d.task c.ntask = { kind := .taskSockWrite, sock := some s, buf, fd := (c.sock s).fd, on := some s } :=
    taskNew_task c _
  have alone : (d.sock s).wq = [c.ntask] := by simp [d, k, modSock, taskNew, empty]
  have bare : (decide (s = s) && (c.sock s).wq.isEmpty) = true := by simp [empty]
  have quiet : update (fun v => decide (v = s) && (c.sock s).wq.isEmpty) s false = fun _ => false := by
    funext v
    by_cases same : v = s <;> simp [same]
  refine ⟨?_, ?_⟩
  · have arms := parks.snoc (.arm (s := s) (n := c.ntask) live bare (by rw [alone]; rfl))
    rw [quiet] at arms
    exact arms
  · have drops := writeDrop_moves (firm.moves parks) live bare alone (show -EAGAIN < 0 by decide)
    have popped : ((writeDrop d s c.ntask (-EAGAIN)).sock s).wq = [] := by
      rw [(writeDrop_rest d s c.ntask (-EAGAIN)).2.1]
      simp [wqPop, alone]
    -- Nothing is left that could be sent.
    have ends := (parks.trans (ring_of_still drops)).snoc (.headed (g := fun _ => false)
      fun v _ differs => by
        by_cases same : v = s
        · rw [same]; exact popped
        · simp [same] at differs)
    rw [writeDrop_eq (by rw [own])] at ends
    exact ends

theorem implSockWrite_submits (firm : Firm B u.rest) (usable : Usable u.toCore s) (mem : Bool)
    (buf : List UInt8) : Submits B u (u.implSockWrite mem s buf) := by
  unfold implSockWrite
  split
  case isFalse => exact .give _
  dsimp only
  generalize isNext : (u.on (·.taskNew
    { kind := .taskSockWrite, sock := some s, buf, fd := (u.sock s).fd, on := some s })).on
    (·.modSock s fun k => { k with wq := (wqPush k.wq u.ntask).1 }) = p
  have core : p.toCore = (u.taskNew { kind := .taskSockWrite, sock := some s, buf, fd := (u.sock s).fd, on := some s }).modSock s
      fun k => { k with wq := k.wq ++ [u.ntask] } := by rw [← isNext]; rfl
  have own : p.task u.ntask = { kind := .taskSockWrite, sock := some s, buf, fd := (u.sock s).fd, on := some s } := by
    rw [core]
    exact taskNew_task u.toCore _
  have old : ∀ v, v < u.ntask → p.task v = u.task v := by
    intro v inside
    rw [core]
    simp [modSock, taskNew, Nat.ne_of_lt inside]
  have joins : ∀ w : UringIo, w.ntask = p.ntask → w.task = p.task → w.shut = p.shut →
      Joins u.toCore w.toCore := by
    intro w ntask task shut
    refine ⟨by rw [ntask, core]; exact Nat.le_refl _, fun v inside => by rw [task, old v inside],
      by rw [shut, core]; rfl, fun _ => ⟨by rw [task, own]; simp, fun v _ refers => .inl ?_,
      fun _ _ => ⟨s, by rw [task, own], by rw [task, own], usable.2.2⟩⟩⟩
    unfold Refers at refers
    rw [task, own] at refers
    obtain rfl : s = v := by simpa using refers
    exact usable.2.2
  have isHead : (wqPush ((u.on (·.taskNew { kind := .taskSockWrite, sock := some s, buf, fd := (u.sock s).fd, on := some s })).sock s).wq u.ntask).2 = (u.sock s).wq.isEmpty := rfl
  rw [isHead]
  split
  · rename_i empty
    have empty : (u.sock s).wq = [] := by simpa using empty
    obtain ⟨armed, lost⟩ := heading_moves firm usable buf empty
    rcases writeArm_cases p u.ntask with got | got <;> rw [got]
    · refine ⟨?_, joins _ rfl rfl rfl⟩
      change Moves (ring B) u.rest (p.toCore.arm u.ntask).rest
      rw [core]
      exact armed
    · refine ⟨?_, ?_, fun v inside => ?_, ?_, fun _ => .ended ?_ ?_⟩
      · change Moves (ring B) u.rest (((p.toCore.modSock s fun k => { k with wq := (wqPop k.wq).1 }).modTask
          u.ntask ({ · with sock := none })).finish u.ntask (rErr EAGAIN)).rest
        rw [core]
        exact lost
      · change p.ntask ≤ _; rw [core]; exact Nat.le_refl _
      · change (((p.toCore.modSock s fun k => { k with wq := (wqPop k.wq).1 }).modTask
          u.ntask ({ · with sock := none })).finish u.ntask (rErr EAGAIN)).task v = _
        rw [← old v inside]
        simp [finish, modTask, modSock, Nat.ne_of_lt inside]
      · change p.shut = _; rw [core]; rfl
      · change ((((p.toCore.modSock s fun k => { k with wq := (wqPop k.wq).1 }).modTask
          u.ntask ({ · with sock := none })).finish u.ntask (rErr EAGAIN)).task u.ntask).kind ≠ _
        simp [finish, modTask, modSock, own]
      · change ((((p.toCore.modSock s fun k => { k with wq := (wqPop k.wq).1 }).modTask
          u.ntask ({ · with sock := none })).finish u.ntask (rErr EAGAIN)).task u.ntask).done = _
        simp [finish, modTask]
  · rename_i waits
    have parks := parked_moves (B := B) usable buf
    have quiet : (fun v => decide (v = s) && (u.sock s).wq.isEmpty) = fun _ => false := by
      funext v
      simp [waits]
    rw [quiet] at parks
    refine ⟨?_, joins _ rfl rfl rfl⟩
    change Moves (ring B) u.rest p.toCore.rest
    rw [core]
    exact parks

end UringIo

end Myio.Loop
