import Myio.Xev.Callbacks

/-! Every submission to the libxev backend keeps the pointers in order. -/

namespace Myio.Xev.Io

open Function (update)

variable {io io' : Io} {skip : Option SockId} {t u : TaskId} {s : SockId} {k : Task}
  {r : Result → Result}

namespace Wired

/-! ### Submission -/

/-- A new task. -/
theorem fresh_task (io : Io) (kind : Kind) : (io.taskNew kind).task io.ntask = { kind } := by
  simp [Io.taskNew]

theorem unstarted_new (io : Io) {kind : Kind} (isPooled : Io.pooled kind = true) :
    Unstarted (io.taskNew kind) io.ntask := by
  refine ⟨Nat.lt_succ_self _, ?_, ?_, ?_⟩ <;> rw [fresh_task]
  exact isPooled

theorem ready_new (io : Io) {kind : Kind} (other : kind ≠ .sockWrite) :
    Ready (io.taskNew kind) io.ntask := by
  refine ⟨Nat.lt_succ_self _, ?_, ?_, ?_⟩ <;> rw [fresh_task]
  · exact other
  · exact fun _ => rfl

theorem taskFailed (wired : Wired none io) {kind : Kind} (other : kind ≠ .sockWrite) (errno : Int) :
    Goes (io.taskNew kind) (io.taskFailed kind errno) :=
  (wired.taskNew kind).errs (ready_new io other) errno

/-- A new task of a kind that needs no socket is handed to the loop. -/
theorem starts_new (wired : Wired none io) {kind : Kind} (plain : socketed kind = false) :
    Goes (io.taskNew kind) ((io.taskNew kind).start io.ntask) := by
  -- None of the kinds that a completion asks something of is among these.
  have made := wired.taskNew kind
  have new := fresh_task io kind
  have fine := made.tasks io.ntask
  have apart : seated kind = false := by cases kind <;> first | rfl | cases plain
  refine ⟨made.loose (f := ({ · with c := true })) (Nat.lt_succ_self _) rfl
    (by rw [new]; exact apart) { fine with
    closing := fun isClose => ?_, closingFile := fun _ _ => ?_, connecting := fun isConnect => ?_
    pooled := fun async => ?_, sends := fun _ isWrite => ?_ }, .modTask _ _ _⟩
  · rw [new] at isClose; cases (show kind = .sockClose from isClose); cases plain
  · rw [new]
  · rw [new] at isConnect; cases (show kind = .connect from isConnect); cases plain
  · rw [new] at async; cases async
  · rw [new] at isWrite; cases (show kind = .sockWrite from isWrite); cases plain

theorem implOpen (wired : Wired none io) (init : Option XevError) :
    Goes (io.taskNew .open) (io.implOpen init) :=
  (wired.taskNew .open).poolSubmit (unstarted_new io rfl) init

theorem implSpawn (wired : Wired none io) (init : Option XevError) :
    Goes (io.taskNew .spawn) (io.implSpawn init) :=
  (wired.taskNew .spawn).poolSubmit (unstarted_new io rfl) init

theorem implTcpConnect (wired : Wired none io) (port : Int) (init : Option XevError) :
    Goes (io.taskNew .connect) (io.implTcpConnect port init) := by
  unfold Io.implTcpConnect
  dsimp only
  split
  · exact (wired.taskNew .connect).errs (ready_new io (by decide)) _
  · exact (wired.taskNew .connect).poolSubmit (unstarted_new io rfl) init

theorem fileSubmit (wired : Wired none io) (len : Nat) :
    Goes (io.taskNew .fileRw) (io.fileSubmit len) := by
  unfold Io.fileSubmit
  dsimp only
  split
  · exact (wired.taskNew .fileRw).succeeds (ready_new io (by decide)) _
  · exact wired.starts_new rfl

theorem implSleep (wired : Wired none io) (init : Option XevError) :
    Goes (io.taskNew .timer) (io.implSleep init) := by
  cases init with
  | some err => exact (wired.taskNew .timer).errs (ready_new io (by decide)) _
  | none => exact wired.starts_new rfl

theorem implTcpAccept (wired : Wired none io) (inside : s < io.nsock) :
    Goes (io.taskNew .accept) (io.implTcpAccept s) := by
  unfold Io.implTcpAccept
  split
  · exact wired.taskFailed (by decide) _
  · rename_i free
    exact ⟨(wired.taskNew .accept).take (.inr rfl) (Nat.lt_succ_self _) (fresh_task io _) inside
      (by simpa [slot, Io.taskNew] using free), .tables rfl rfl rfl rfl rfl rfl⟩

theorem implSockRead (wired : Wired none io) (inside : s < io.nsock) (len : Nat) :
    Goes (io.taskNew .sockRead) (io.implSockRead s len) := by
  unfold Io.implSockRead
  split
  · exact wired.taskFailed (by decide) _
  · rename_i free
    dsimp only
    split
    · exact (wired.taskNew .sockRead).succeeds (ready_new io (by decide)) _
    · exact ⟨(wired.taskNew .sockRead).take (.inl rfl) (Nat.lt_succ_self _) (fresh_task io _) inside
        (by simpa [slot, Io.taskNew] using free), .tables rfl rfl rfl rfl rfl rfl⟩

/-- A write is only linked into the FIFO of its socket. -/
theorem submitsWrite (wired : Wired none io) (inside : s < io.nsock) (buf : List UInt8) :
    Goes (io.taskNew .sockWrite) (io.implSockWrite s buf) := by
  refine ⟨wired.implSockWrite inside buf, ?_⟩
  -- Whether the FIFO was empty or not, only tasks and sockets are written.
  unfold Io.implSockWrite Io.writePush
  dsimp only
  cases ((((io.taskNew .sockWrite).modTask io.ntask fun k =>
    { k with sock := some s, on := some s, wbuf := buf }).modTask io.ntask
      ({ · with wnext := none })).sock s).writeTail
  · exact .tables rfl rfl rfl rfl rfl rfl
  · exact .tables rfl rfl rfl rfl rfl rfl

/-! ### The close of a socket -/

/-- What the parts of `implSockClose` leave of the close task and of the mark of the close. -/
structure Spares (t : TaskId) (io io' : Io) : Prop where
  task : io'.task t = io.task t
  closeTask : ∀ s, (io'.sock s).closeTask = (io.sock s).closeTask

theorem Spares.trans {v : Io} (first : Spares t io v) (second : Spares t v io') : Spares t io io' :=
  ⟨second.task.trans first.task, fun s => (second.closeTask s).trans (first.closeTask s)⟩

theorem Spares.settle (keeps : Result.Keeps r) (other : t ≠ u) : Spares t io (io.settle u r) := by
  -- A socket that is discarded keeps its mark.
  rw [settle_eq keeps]
  refine ⟨by simp [Function.update_of_ne other], fun s => ?_⟩
  cases detached : (io.task u).detached with
  | false => simp only [discarded, detached]
  | true =>
    cases ptr : (io.task u).res.ptr with
    | none => simp only [discarded, detached, ptr]
    | some x =>
      simp only [discarded, detached, ptr, Function.update_apply]
      split
      · rename_i isX; rw [isX]
      · rfl

theorem Spares.submitCancel (other : t ≠ u) : Spares t io (io.submitCancel u) := by
  unfold Io.submitCancel
  split
  · exact ⟨rfl, fun _ => rfl⟩
  · split
    · exact ⟨by simp [Function.update_of_ne other], fun _ => rfl⟩
    · exact ⟨rfl, fun _ => rfl⟩

/-- What `implSockClose` does to the task in a slot. -/
theorem cancelSlot (wired : Wired none io) {kind : Kind} (isSlot : kind = .sockRead ∨ kind = .accept)
    (there : slot kind (io.sock s) = some t) :
    Goes io ((((io.modSock s (setSlot kind none)).modTask t
      ({ · with sock := none })).completeCanceled t).submitCancel t) ∧
    ∀ u, (io.task u).kind ≠ kind → Spares u io ((((io.modSock s (setSlot kind none)).modTask t
      ({ · with sock := none })).completeCanceled t).submitCancel t) := by
  obtain ⟨isKind, isOpen, points⟩ := (wired.slot_iff isSlot).mp there
  -- The task leaves the slot, ends, and is canceled on the loop.
  obtain ⟨left, ready⟩ := wired.vacates isSlot isKind isOpen points
  have other := ready.other
  have noClose : ∀ x, (setSlot kind none x).closeTask = x.closeTask := by
    intro x; rcases isSlot with rfl | rfl <;> rfl
  have apart : ∀ u, u ≠ t →
      Spares u io ((io.modSock s (setSlot kind none)).modTask t ({ · with sock := none })) := by
    refine fun u ne => ⟨by simp [Function.update_of_ne ne], fun x => ?_⟩
    rw [modTask_sock, modSock_sock, Function.update_apply]
    split
    · rename_i isS; rw [isS, noClose]
    · rfl
  generalize (io.modSock s (setSlot kind none)).modTask t ({ · with sock := none }) = v
    at left ready other apart
  have ended := left.wired.isCanceled ready
  refine ⟨left.trans (ended.trans (ended.wired.submitsCancel ?_ fun isWrite => ?_)),
    fun u otherKind => ?_⟩
  · rw [ended.frame.ntask]; exact ready.inside
  · rw [completeCanceled_eq, settle_eq asCanceled_keeps] at isWrite
    simp only [Function.update_self] at isWrite
    exact absurd isWrite other
  · have ne : u ≠ t := fun same => otherKind (same ▸ isKind)
    exact (apart u ne).trans ((Spares.settle asCanceled_keeps ne).trans (.submitCancel ne))

/-- The outstanding read, if there is one, ends. -/
theorem cancelRead (wired : Wired none io) (s : SockId) : Goes io (io.cancelRead s) ∧
    ∀ u, (io.task u).kind ≠ .sockRead → Spares u io (io.cancelRead s) := by
  cases reader : (io.sock s).readTask with
  | none =>
    have same : io.cancelRead s = io := by rw [Io.cancelRead, reader]
    rw [same]
    exact ⟨wired.stays, fun _ _ => ⟨rfl, fun _ => rfl⟩⟩
  | some rt =>
    have same : io.cancelRead s = (((io.modSock s (setSlot .sockRead none)).modTask rt
        ({ · with sock := none })).completeCanceled rt).submitCancel rt := by
      rw [Io.cancelRead, reader]; rfl
    rw [same]
    exact wired.cancelSlot (.inl rfl) reader

/-- The outstanding accept, if there is one, ends. -/
theorem cancelAccept (wired : Wired none io) (s : SockId) : Goes io (io.cancelAccept s) ∧
    ∀ u, (io.task u).kind ≠ .accept → Spares u io (io.cancelAccept s) := by
  cases accepter : (io.sock s).acceptTask with
  | none =>
    have same : io.cancelAccept s = io := by rw [Io.cancelAccept, accepter]
    rw [same]
    exact ⟨wired.stays, fun _ _ => ⟨rfl, fun _ => rfl⟩⟩
  | some w =>
    have same : io.cancelAccept s = (((io.modSock s (setSlot .accept none)).modTask w
        ({ · with sock := none })).completeCanceled w).submitCancel w := by
      rw [Io.cancelAccept, accepter]; rfl
    rw [same]
    exact wired.cancelSlot (.inr rfl) accepter

end Wired

/-- By induction on the writes, as the loop goes through them. -/
theorem Frame.dropEach (l : List TaskId) :
    ∀ {io : Io}, (∀ w ∈ l, w < io.ntask) → Frame io (io.dropEach l) := by
  induction l with
  | nil => intro io _; exact .refl io
  | cons w rest ih =>
    intro io inside
    have dropped : Frame io
        ((io.modTask w ({ · with wnext := none, sock := none })).settle w asCanceled) :=
      .trans (.modTask io w ({ · with wnext := none, sock := none }))
        (@Frame.settle (io.modTask w ({ · with wnext := none, sock := none })) w _
          (inside w (by simp)) asCanceled_keeps)
    exact dropped.trans (ih fun u member => by rw [dropped.ntask]; exact inside u (by simp [member]))

namespace Wired

/-- Every write of the FIFO ends. -/
theorem cancelsWrites (wired : Wired none io) (inside : s < io.nsock) : Goes io (io.cancelWrites s) ∧
    ∀ u, (io.task u).kind ≠ .sockWrite → Spares u io (io.cancelWrites s) := by
  cases head : (io.sock s).writeHead with
  | none =>
    have same : io.cancelWrites s = io := by rw [Io.cancelWrites, head]
    rw [same]
    exact ⟨wired.stays, fun _ _ => ⟨rfl, fun _ => rfl⟩⟩
  | some h =>
    -- The loop over the FIFO is the walk over the writes that are not done.
    have holds := wired.fifo s (by simp)
    have pending : ∀ w ∈ io.pend s, io.pends s w = true := fun w member => (mem_pend.mp member).2
    have first : h ∈ io.pend s := List.mem_of_mem_head? (by rw [← wired.head_eq (by simp)]; exact head)
    refine ⟨⟨wired.cancelWrites inside, ?_⟩, fun u other => ?_⟩
    · rw [wired.cancelWrites_eq head]
      exact (Frame.dropEach _ fun w member => (mem_pend.mp member).1).trans
        (.trans (.modSock _ s ({ · with writeHead := none, writeTail := none })) (.submitCancel _ h))
    · have notWrite : ∀ w ∈ io.pend s, u ≠ w := fun w member same =>
        other (same ▸ (pends_iff.mp (pending w member)).1)
      obtain ⟨sock, _, _⟩ := dropEach_sock (io.pend s) io holds.nodup fun w member =>
        (wired.tasks w).noPtr (pends_iff.mp (pending w member)).1
      rw [wired.cancelWrites_eq head]
      refine .trans (v := (io.dropEach (io.pend s)).modSock s
          ({ · with writeHead := none, writeTail := none })) ⟨?_, fun x => ?_⟩
        (.submitCancel (notWrite h first))
      · rw [modSock_task, dropEach_task _ _ holds.nodup, if_neg fun member => notWrite u member rfl]
      · rw [modSock_sock, sock, Function.update_apply]
        split
        · rename_i isS; rw [isS]
        · rfl

/-- `implSockClose`, from the mark on the socket on. -/
theorem closing (wired : Wired none io) (inside : t < io.ntask) (insideSock : s < io.nsock)
    (new : io.task t = { kind := .sockClose }) (unmarked : (io.sock s).closeTask = none) :
    Goes io (((io.modSock s fun k => { k with
      closeTask := some t, loopCloses := k.loopCloses + 1 }).modTask t
        ({ · with sock := some s })).start t) := by
  generalize isMarked : (io.modSock s fun k => { k with
    closeTask := some t, loopCloses := k.loopCloses + 1 }) = v
  have sock : v.sock = update io.sock s { io.sock s with
      closeTask := some t, loopCloses := (io.sock s).loopCloses + 1 } := by rw [← isMarked]; rfl
  have frame : Frame io v := by rw [← isMarked]; exact .modSock _ _ _
  have task : v.task t = { kind := .sockClose } := by rw [← isMarked]; exact new
  have mine : (v.sock s).closeTask = some t := by rw [sock, Function.update_self]
  -- The mark is the socket's first, so that no other close task loses its own.
  have marked : Wired none v := by
    refine wired.resock (by rw [← isMarked]; rfl) frame.ntask frame.nsock (fun x => ?_)
      (fun x u other => ?_) fun x outside => ?_
    · rw [sock, Function.update_apply]
      split
      · rename_i isS; rw [isS]; exact ⟨rfl, rfl, rfl, rfl⟩
      · exact ⟨rfl, rfl, rfl, rfl⟩
    · have apart : x ≠ s := by rintro rfl; rw [unmarked] at other; cases other
      rw [sock, Function.update_of_ne apart]; exact other
    · have beyond := Nat.le_trans frame.nsock outside
      rw [sock, Function.update_of_ne (Nat.ne_of_gt (Nat.lt_of_lt_of_le insideSock beyond))]
      exact wired.freshSock x beyond
  have started := marked.loose (t := t) (f := fun k => { k with sock := some s, c := true })
    (by rw [frame.ntask]; exact inside) rfl (by rw [task]; rfl) (by
      rw [task]
      constructor <;> simp_all [socketed]
      exact Nat.lt_of_lt_of_le insideSock frame.nsock)
  have same : (v.modTask t ({ · with sock := some s })).start t =
      v.modTask t (fun k => { k with sock := some s, c := true }) := by
    simp [Io.start, Io.modTask]
  rw [same]
  exact ⟨started, frame.trans (.modTask _ _ _)⟩

/-- A close empties the slots and the FIFO first, and none of that touches the close task. -/
theorem implSockClose (wired : Wired none io) (inside : s < io.nsock) :
    Goes (io.taskNew .sockClose) (io.implSockClose s) := by
  unfold Io.implSockClose
  split
  · exact wired.taskFailed (by decide) _
  rename_i notClosing
  have unmarked : (io.sock s).closeTask = none := by simpa using notClosing
  have made := wired.taskNew .sockClose
  have new := fresh_task io .sockClose
  -- The three parts in turn, each sparing the new task, whose kind they do not look for.
  obtain ⟨noRead, spared⟩ := made.cancelRead s
  have spared := spared io.ntask (by rw [new]; decide)
  obtain ⟨noAccept, spared'⟩ := noRead.wired.cancelAccept s
  have spared := spared.trans (spared' io.ntask (by rw [spared.task, new]; decide))
  have both := noRead.trans noAccept
  obtain ⟨noWrites, spared'⟩ := both.wired.cancelsWrites (s := s)
    (Nat.lt_of_lt_of_le (show s < (io.taskNew .sockClose).nsock from inside) both.frame.nsock)
  have spared := spared.trans (spared' io.ntask (by rw [spared.task, new]; decide))
  have all := both.trans noWrites
  dsimp only
  generalize (((io.taskNew .sockClose).cancelRead s).cancelAccept s).cancelWrites s = v at all spared
  have task : v.task io.ntask = { kind := .sockClose } := spared.task.trans new
  have closeTask : (v.sock s).closeTask = none := (spared.closeTask s).trans unmarked
  have insideT : io.ntask < v.ntask := by rw [all.frame.ntask]; exact Nat.lt_succ_self _
  have insideS : s < v.nsock :=
    Nat.lt_of_lt_of_le (show s < (io.taskNew .sockClose).nsock from inside) all.frame.nsock
  exact all.trans (all.wired.closing insideT insideS task closeTask)

end Wired

end Myio.Xev.Io
