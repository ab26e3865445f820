import Myio.ZLoop.Files

/-! The files of the Zephyr pool, with any number of its workers in `file_rw` at once. -/

namespace Myio

open Machine

/-- `MYIO_NO_OFFSET`. -/
def MYIO_NO_OFFSET : Int := -1

/-- What `file_rw` reads of a task; which of the two transfers it asks for changes nothing here. -/
structure FileTask where
  fd : Nat
  offset : Int
  deriving DecidableEq, Repr

/-- The offset of a positional read or write. -/
def FileTask.own (t : FileTask) : Option Int := if t.offset = MYIO_NO_OFFSET then none else some t.offset

/-- What a worker does next; from `telling` to `unlocking` it is between the two calls on `fs_mu`. -/
inductive FilePhase
  | idle
  | locking (t : FileTask)
  | telling (t : FileTask)
  | seeking (t : FileTask) (saved : Int)
  | moving (t : FileTask) (saved : Int)
  | restoring (t : FileTask) (saved n : Int)
  | unlocking (t : FileTask) (rc n : Int)
  | opening (slot : Nat)
  | closing (slot : Nat)
  deriving DecidableEq, Repr

namespace FilePhase

/-- The worker has `fs_mu`. -/
def holds : FilePhase → Bool
  | telling _ | seeking _ _ | moving _ _ | restoring _ _ _ | unlocking _ _ _ => true
  | _ => false

/-- The file of a read or write that is not over. -/
def uses : FilePhase → Option Nat
  | locking t | telling t | seeking t _ | moving t _ | restoring t _ _ | unlocking t _ _ => some t.fd
  | _ => none

/-- The file that a positional read or write has moved away from its position. -/
def away : FilePhase → Option Nat
  | moving t _ => if t.own.isSome then some t.fd else none
  | restoring t _ _ => some t.fd
  | _ => none

/-- Where the file of a read or write has to be by now. -/
def Fits (f : OpenFile) : FilePhase → Prop
  | telling t => t.own = some t.offset
  | seeking t saved => t.own = some t.offset ∧ saved = f.pos
  | moving t saved => t.own.isSome → t.own = some t.offset ∧ f.pos = t.offset ∧ saved = f.alone.pos
  | restoring _ saved _ => saved = f.alone.pos
  | _ => True

end FilePhase

/-- The pool's file table, `fs_mu`, the workers, and what each worker's last operation came to. -/
structure FilePool where
  maxFiles : Nat
  file : Nat → Loop.File
  fsMu : Option Nat
  worker : Nat → FilePhase
  res : Nat → Result

/-- The steps of the workers; an error of `none` is a call that succeeds. -/
inductive FileLabel
  /-- A worker takes a read or a write from the queue. -/
  | rw (w : Nat) (t : FileTask)
  | lock (w : Nat)
  | tell (w : Nat) (err : Option Int)
  | seek (w : Nat) (err : Option Int)
  | transfer (w : Nat) (n left : Int)
  | restore (w : Nat) (err : Option Int)
  | unlock (w : Nat)
  /-- A worker takes an `OP_OPEN` and reserves a slot for it. -/
  | open (w : Nat)
  | fsOpen (w : Nat) (rc : Int)
  /-- A worker takes an `OP_CLOSE`. -/
  | close (w fd : Nat)
  | fsClose (w : Nat) (rc : Int)
  deriving DecidableEq, Repr

/-- The worker that takes a step. -/
def FileLabel.worker : FileLabel → Nat
  | rw w _ | lock w | tell w _ | seek w _ | transfer w _ _ | restore w _ | unlock w | .open w | fsOpen w _
  | close w _ | fsClose w _ => w

namespace FilePool

/-- No file is open and no worker is busy. -/
def new (maxFiles : Nat) : FilePool where
  maxFiles := maxFiles
  file := fun _ => {}
  fsMu := none
  worker := fun _ => .idle
  res := fun _ => rPending

/-- The worker goes on to its next step. -/
def next (p : FilePool) (w : Nat) (phase : FilePhase) : FilePool :=
  { p with worker := Function.update p.worker w phase }

def modFile (p : FilePool) (fd : Nat) (change : Loop.File → Loop.File) : FilePool :=
  { p with file := Function.update p.file fd (change (p.file fd)) }

/-- The worker's operation is over. -/
def ret (p : FilePool) (w : Nat) (res : Result) : FilePool :=
  { p.next w .idle with res := Function.update p.res w res }

/-- The first slot that is free. -/
def freeSlot (p : FilePool) : Option Nat := (List.range p.maxFiles).find? fun i => !(p.file i).used

/-- One step of a worker, or none when it is not where the step begins. -/
def step (p : FilePool) : FileLabel → Option FilePool
  | .rw w t =>
    match p.worker w with
    | .idle => some (p.next w (.locking t))
    | _ => none
  | .lock w =>
    match p.worker w, p.fsMu with
    | .locking t, none =>
      some { p.next w (if t.own.isSome then .telling t else .moving t 0) with fsMu := some w }
    | _, _ => none
  | .tell w err =>
    match p.worker w with
    | .telling t =>
      match err with
      | some rc => some (p.next w (.unlocking t rc 0))
      | none => some (p.next w (.seeking t (p.file t.fd).pos))
    | _ => none
  | .seek w err =>
    match p.worker w with
    | .seeking t saved =>
      match err with
      | some rc => some (p.next w (.unlocking t rc 0))
      | none => some ((p.modFile t.fd (·.seekTo t.offset)).next w (.moving t saved))
    | _ => none
  | .transfer w n left =>
    match p.worker w with
    | .moving t saved =>
      some ((p.modFile t.fd (·.moveBytes t.own n left)).next w
        (if t.own.isSome then .restoring t saved n else .unlocking t (if n < 0 then n else 0) n))
    | _ => none
  | .restore w err =>
    match p.worker w with
    | .restoring t saved n =>
      -- Only a seek back that succeeds restores the position.
      let p := if err.isNone then p.modFile t.fd (·.seekTo saved) else p
      some (p.next w (.unlocking t (if n < 0 then n else 0) n))
    | _ => none
  | .unlock w =>
    match p.worker w with
    | .unlocking _ rc n =>
      some { p.ret w (if rc < 0 then rErr (-rc) else rOk n none) with fsMu := none }
    | _ => none
  | .open w =>
    match p.worker w with
    | .idle =>
      match p.freeSlot with
      | none => some (p.ret w (rErr EMFILE))
      | some slot => some ((p.modFile slot ({ · with used := true })).next w (.opening slot))
    | _ => none
  | .fsOpen w rc =>
    match p.worker w with
    | .opening slot =>
      if rc < 0 then some ((p.modFile slot ({ · with used := false })).ret w (rErr (-rc)))
      else some ((p.modFile slot fun _ => { used := true }).ret w (rOk slot none))
    | _ => none
  | .close w fd =>
    match p.worker w with
    | .idle => some (p.next w (.closing fd))
    | _ => none
  | .fsClose w rc =>
    match p.worker w with
    | .closing fd =>
      let p := if rc = 0 then p.modFile fd ({ · with used := false }) else p
      some (p.ret w (if rc < 0 then rErr (-rc) else rOk 0 none))
    | _ => none

/-- A file that has been opened and is not being closed. -/
def Ready (p : FilePool) (fd : Nat) : Prop :=
  (p.file fd).used = true ∧ ∀ v, p.worker v ≠ .opening fd ∧ p.worker v ≠ .closing fd

/--
What is assumed of the environment.

Seeking back to a position that `fs_tell` returned succeeds, and a call that fails returns a negative
code. The reads and writes of a file come between its open and its close.
-/
def Allowed (p : FilePool) : FileLabel → Prop
  | .restore _ err => err = none
  | .tell _ err | .seek _ err => ∀ rc ∈ err, rc < 0
  | .rw _ t => p.Ready t.fd
  | .close _ fd => ∀ v, (p.worker v).uses ≠ some fd
  | _ => True

abbrev Run : FilePool → FilePool → Prop := Machine.Path step Allowed

/-! ### What holds between the steps -/

variable {p p' : FilePool} {w v fd : Nat} {t : FileTask} {phase : FilePhase} {label : FileLabel}

theorem next_self : (p.next w phase).worker w = phase := Function.update_self ..

theorem next_other (other : v ≠ w) : (p.next w phase).worker v = p.worker v :=
  Function.update_of_ne other ..

theorem modFile_self (p : FilePool) (fd : Nat) : p.modFile fd id = p := by
  simp [modFile]

theorem modFile_here (change : Loop.File → Loop.File) :
    (p.modFile fd change).file fd = change (p.file fd) := Function.update_self ..

/-- A change of the `used` flag alone leaves the files as they are. -/
theorem modFile_used (used : Bool) (i : Nat) :
    ((p.modFile fd ({ · with used })).file i).toOpenFile = (p.file i).toOpenFile := by
  simp only [modFile, Function.update_apply]
  split
  · rename_i is
    rw [is]
  · rfl

/-- A file away from its position is in use, by the worker that has the lock. -/
theorem away_uses (away : phase.away = some fd) :
    phase.uses = some fd ∧ phase.holds = true := by
  cases phase with
  | moving t saved =>
    change (if t.own.isSome then some t.fd else none) = some fd at away
    split at away
    · exact ⟨away, rfl⟩
    · cases away
  | restoring t saved n => exact ⟨away, rfl⟩
  | _ => cases away

/-- A worker in `file_rw` is where its file's position allows. -/
structure Inv (p : FilePool) : Prop where
  mutex : ∀ w, (p.worker w).holds = true ↔ p.fsMu = some w
  ready : ∀ w fd, (p.worker w).uses = some fd → p.Ready fd
  undisturbed : ∀ fd, (p.file fd).Undisturbed
  stands : ∀ fd, (∀ w, (p.worker w).away ≠ some fd) → (p.file fd).pos = (p.file fd).alone.pos
  fits : ∀ w fd, (p.worker w).uses = some fd → (p.worker w).Fits (p.file fd).toOpenFile

namespace Inv

theorem new (maxFiles : Nat) : Inv (FilePool.new maxFiles) where
  mutex w := by simp [FilePool.new, FilePhase.holds]
  ready w fd uses := by cases uses
  undisturbed fd := OpenFile.Settled.new.toUndisturbed
  stands fd _ := OpenFile.Settled.new.stands
  fits w fd uses := by cases uses

/-- With the lock free every file stands where it should. -/
theorem settled (inv : Inv p) (free : p.fsMu = none) (fd : Nat) : (p.file fd).Settled := by
  refine ⟨inv.undisturbed fd, inv.stands fd fun w away => ?_⟩
  have held := (inv.mutex w).mp (away_uses away).2
  rw [free] at held
  cases held

/-- Only one worker is between the calls on `fs_mu`. -/
theorem sole (inv : Inv p) (holds : (p.worker w).holds = true) (other : v ≠ w) :
    (p.worker v).holds = false := by
  cases too : (p.worker v).holds with
  | false => rfl
  | true =>
    have same := ((inv.mutex v).mp too).symm.trans ((inv.mutex w).mp holds)
    exact absurd (Option.some.inj same) other

/-- While the worker that has the lock has moved no file, all stand where they should. -/
theorem home (inv : Inv p) (holds : (p.worker w).holds = true) (near : (p.worker w).away = none) (i : Nat) :
    (p.file i).pos = (p.file i).alone.pos := by
  refine inv.stands i fun v isAway => ?_
  by_cases is : v = w
  · rw [is, near] at isAway
    cases isAway
  · exact Bool.false_ne_true ((inv.sole holds is).symm.trans (away_uses isAway).2)

/-- A worker without the lock asks nothing of its file. -/
theorem fits_free (free : phase.holds = false) (f : OpenFile) : phase.Fits f := by
  cases phase with
  | idle | locking | opening | closing => trivial
  | _ => cases free

/-- A step of the worker that has the lock, on its own file. -/
theorem held (inv : Inv p) (holds : (p.worker w).holds = true) (uses : (p.worker w).uses = some fd)
    {change : Loop.File → Loop.File} (used : ∀ f, (change f).used = f.used)
    (holds' : phase.holds = true) (uses' : phase.uses = some fd)
    (undisturbed : (change (p.file fd)).Undisturbed)
    (stands : phase.away = none → (change (p.file fd)).pos = (change (p.file fd)).alone.pos)
    (fits : phase.Fits (change (p.file fd)).toOpenFile) :
    Inv ((p.modFile fd change).next w phase) := by
  let p' := (p.modFile fd change).next w phase
  have here : p'.file fd = change (p.file fd) := Function.update_self ..
  have there : ∀ i, i ≠ fd → p'.file i = p.file i := fun i other => Function.update_of_ne other ..
  have mine : p'.worker w = phase := Function.update_self ..
  have theirs : ∀ v, v ≠ w → p'.worker v = p.worker v := fun v other => Function.update_of_ne other ..
  refine ⟨fun v => ?_, fun v i isUsed => ?_, fun i => ?_, fun i home => ?_, fun v i isUsed => ?_⟩
  · by_cases same : v = w
    · subst same
      rw [mine, holds']
      exact ⟨fun _ => (inv.mutex v).mp holds, fun _ => rfl⟩
    · rw [theirs v same]
      exact inv.mutex v
  · have before : ∃ u, (p.worker u).uses = some i := by
      by_cases same : v = w
      · rw [same, mine, uses'] at isUsed
        exact ⟨w, uses.trans isUsed⟩
      · rw [theirs v same] at isUsed
        exact ⟨v, isUsed⟩
    obtain ⟨u, uses₀⟩ := before
    obtain ⟨isOpen, apart⟩ := inv.ready u i uses₀
    refine ⟨?_, fun u => ?_⟩
    · by_cases same : i = fd
      · rw [same, here, used, ← same]; exact isOpen
      · rw [there i same]; exact isOpen
    · by_cases same : u = w
      · rw [same, mine]
        constructor
        · rintro rfl; cases uses'
        · rintro rfl; cases uses'
      · rw [theirs u same]
        exact apart u
  · by_cases same : i = fd
    · rw [same, here]; exact undisturbed
    · rw [there i same]; exact inv.undisturbed i
  · by_cases same : i = fd
    · rw [same, here]
      refine stands ?_
      have notHere := home w
      rw [mine, same] at notHere
      cases isAway : phase.away with
      | none => rfl
      | some j =>
        have := uses'.symm.trans (away_uses isAway).1
        rw [isAway, ← this] at notHere
        exact absurd rfl notHere
    · rw [there i same]
      refine inv.stands i fun v isAway => ?_
      by_cases isMine : v = w
      · have := (away_uses isAway).1
        rw [isMine, uses] at this
        exact same (Option.some.inj this).symm
      · exact home v (by rw [theirs v isMine]; exact isAway)
  · by_cases same : v = w
    · rw [same, mine] at isUsed ⊢
      obtain rfl := Option.some.inj (uses'.symm.trans isUsed)
      rw [here]
      exact fits
    · rw [theirs v same]
      exact fits_free (inv.sole holds same) _

/-- A step of a worker outside the lock, which at most opens a file that is new. -/
theorem apart (inv : Inv p) (free : (p.worker w).holds = false) (free' : phase.holds = false)
    (isReady : ∀ fd, phase.uses = some fd → p.Ready fd)
    (begins : ∀ fd, phase = .opening fd ∨ phase = .closing fd → ∀ v, (p.worker v).uses ≠ some fd)
    {file : Nat → Loop.File} {res : Nat → Result}
    (files : ∀ fd, (file fd).toOpenFile = (p.file fd).toOpenFile ∨
      (file fd).toOpenFile = {} ∧ p.worker w = .opening fd)
    (used : ∀ fd, p.Ready fd → (file fd).used = true) :
    Inv { p.next w phase with file, res } := by
  let p' : FilePool := { p.next w phase with file, res }
  have mine : p'.worker w = phase := Function.update_self ..
  have theirs : ∀ v, v ≠ w → p'.worker v = p.worker v := fun v other => Function.update_of_ne other ..
  -- Whoever is in `file_rw` was there before, or is about to begin.
  have user : ∀ v i, (p'.worker v).uses = some i → v ≠ w ∧ (p.worker v).uses = some i ∨
      v = w ∧ phase.uses = some i := by
    intro v i isUsed
    by_cases is : v = w
    · rw [is, mine] at isUsed
      exact .inr ⟨is, isUsed⟩
    · rw [theirs v is] at isUsed
      exact .inl ⟨is, isUsed⟩
  refine ⟨fun v => ?_, fun v i isUsed => ?_, fun i => ?_, fun i home => ?_, fun v i isUsed => ?_⟩
  · by_cases is : v = w
    · rw [is, mine, free', ← free]
      exact inv.mutex w
    · rw [theirs v is]
      exact inv.mutex v
  · have before : p.Ready i ∧ phase ≠ .opening i ∧ phase ≠ .closing i := by
      rcases user v i isUsed with ⟨-, uses⟩ | ⟨-, uses⟩
      · exact ⟨inv.ready v i uses, fun is => begins i (.inl is) v uses, fun is => begins i (.inr is) v uses⟩
      · refine ⟨isReady i uses, ?_, ?_⟩
        · rintro rfl; cases uses
        · rintro rfl; cases uses
    refine ⟨used i before.1, fun u => ?_⟩
    by_cases is : u = w
    · rw [is, mine]
      exact before.2
    · rw [theirs u is]
      exact before.1.2 u
  · rcases files i with same | ⟨fresh, -⟩
    · show (file i).Undisturbed
      rw [same]
      exact inv.undisturbed i
    · show (file i).Undisturbed
      rw [fresh]
      exact OpenFile.Settled.new.toUndisturbed
  · show (file i).pos = (file i).alone.pos
    rcases files i with same | ⟨fresh, -⟩
    · rw [same]
      refine inv.stands i fun v isAway => ?_
      by_cases is : v = w
      · rw [is] at isAway
        exact Bool.false_ne_true (free.symm.trans (away_uses isAway).2)
      · exact home v (by rw [theirs v is]; exact isAway)
    · rw [fresh]
      rfl
  · rcases user v i isUsed with ⟨is, uses⟩ | ⟨is, uses⟩
    · show (p'.worker v).Fits (file i).toOpenFile
      rcases files i with same | ⟨-, isNew⟩
      · rw [same, theirs v is]
        exact inv.fits v i uses
      · exact absurd isNew ((inv.ready v i uses).2 w).1
    · rw [is, mine]
      exact fits_free free' _

/-- A worker that waits for the lock gets it. -/
theorem lock (inv : Inv p) (waits : p.worker w = .locking t) (free : p.fsMu = none) :
    Inv { p.next w (if t.own.isSome then .telling t else .moving t 0) with fsMu := some w } := by
  generalize isNext : (if t.own.isSome then FilePhase.telling t else .moving t 0) = phase
  let p' : FilePool := { p.next w phase with fsMu := some w }
  have mine : p'.worker w = phase := Function.update_self ..
  have theirs : ∀ v, v ≠ w → p'.worker v = p.worker v := fun v other => Function.update_of_ne other ..
  have nobody : ∀ v, (p.worker v).holds = false := by
    intro v
    cases holds : (p.worker v).holds with
    | false => rfl
    | true => cases free.symm.trans ((inv.mutex v).mp holds)
  have starts : phase.holds = true ∧ phase.uses = some t.fd ∧ phase.away = none ∧
      ∀ f, phase.Fits f := by
    rw [← isNext]
    cases own : t.own with
    | none =>
      refine ⟨rfl, rfl, by simp [FilePhase.away, own], fun f isSome => ?_⟩
      rw [own] at isSome
      cases isSome
    | some offset =>
      refine ⟨rfl, rfl, rfl, fun f => ?_⟩
      unfold FileTask.own at own
      split at own
      · cases own
      · rename_i given
        simp [FilePhase.Fits, FileTask.own, given]
  refine ⟨fun v => ?_, fun v i isUsed => ?_, inv.undisturbed, fun i home => ?_, fun v i isUsed => ?_⟩
  · by_cases is : v = w
    · rw [is, mine, starts.1]
      exact ⟨fun _ => rfl, fun _ => rfl⟩
    · rw [theirs v is, nobody v]
      exact ⟨fun no => (Bool.false_ne_true no).elim, fun no => absurd (Option.some.inj no).symm is⟩
  · have before : p.Ready i := by
      by_cases is : v = w
      · rw [is, mine, starts.2.1] at isUsed
        exact inv.ready w i (by rw [waits]; exact isUsed)
      · rw [theirs v is] at isUsed
        exact inv.ready v i isUsed
    refine ⟨before.1, fun u => ?_⟩
    by_cases is : u = w
    · rw [is, mine]
      constructor
      · rintro rfl; cases starts.1
      · rintro rfl; cases starts.1
    · rw [theirs u is]
      exact before.2 u
  · exact inv.stands i fun v isAway => Bool.false_ne_true ((nobody v).symm.trans (away_uses isAway).2)
  · by_cases is : v = w
    · rw [is, mine]
      exact starts.2.2.2 _
    · rw [theirs v is]
      exact fits_free (nobody v) _

/-- A worker that is through gives the lock back. -/
theorem unlock (inv : Inv p) {rc n : Int} (through : p.worker w = .unlocking t rc n)
    {res : Nat → Result} : Inv { p.next w .idle with fsMu := none, res } := by
  let p' : FilePool := { p.next w .idle with fsMu := none, res }
  have mine : p'.worker w = .idle := Function.update_self ..
  have theirs : ∀ v, v ≠ w → p'.worker v = p.worker v := fun v other => Function.update_of_ne other ..
  have holds : (p.worker w).holds = true := by rw [through]; rfl
  have only : ∀ v, (p'.worker v).holds = false := by
    intro v
    by_cases is : v = w
    · rw [is, mine]; rfl
    · rw [theirs v is]
      exact inv.sole holds is
  refine ⟨fun v => ?_, fun v i isUsed => ?_, inv.undisturbed, fun i _ => ?_, fun v i isUsed => ?_⟩
  · rw [only v]
    exact ⟨fun no => (Bool.false_ne_true no).elim, fun no => by cases no⟩
  · have other : v ≠ w := by
      rintro rfl
      rw [mine] at isUsed
      cases isUsed
    rw [theirs v other] at isUsed
    obtain ⟨isOpen, clear⟩ := inv.ready v i isUsed
    refine ⟨isOpen, fun u => ?_⟩
    by_cases is : u = w
    · rw [is, mine]
      simp
    · rw [theirs u is]
      exact clear u
  · exact inv.home holds (by rw [through]; rfl) i
  · exact fits_free (only v) _

/-- A free slot is nobody's. -/
theorem unused (inv : Inv p) (isFree : p.freeSlot = some fd) (v : Nat) : (p.worker v).uses ≠ some fd := by
  intro uses
  have isUsed := (inv.ready v fd uses).1
  have isUnused := List.find?_some isFree
  simp [isUsed] at isUnused

/-- Every step keeps the workers out of each other's way. -/
theorem step (inv : Inv p) (allowed : p.Allowed label) (taken : p.step label = some p') : Inv p' := by
  unfold FilePool.step at taken
  cases label with
  | rw w t =>
    dsimp only at taken
    split at taken
    · rename_i isIdle
      cases taken
      refine inv.apart (by rw [isIdle]; rfl) rfl (fun fd uses => ?_) (by simp) (fun fd => .inl rfl)
        fun fd isReady => isReady.1
      exact Option.some.inj uses ▸ allowed
    · cases taken
  | lock w =>
    dsimp only at taken
    split at taken
    · rename_i t waits free
      cases taken
      exact inv.lock waits free
    · cases taken
  | tell w err =>
    dsimp only at taken
    split at taken
    · rename_i t tells
      have uses : (p.worker w).uses = some t.fd := by rw [tells]; rfl
      have given : (FilePhase.telling t).Fits (p.file t.fd).toOpenFile := tells ▸ inv.fits w t.fd uses
      have stands := inv.home (w := w) (by rw [tells]; rfl) (by rw [tells]; rfl) t.fd
      split at taken
      · cases taken
        rw [← modFile_self p t.fd]
        exact inv.held (by rw [tells]; rfl) uses (fun _ => rfl) rfl rfl (inv.undisturbed _)
          (fun _ => stands) trivial
      · cases taken
        have after : Inv ((p.modFile t.fd id).next w (.seeking t (p.file t.fd).pos)) :=
          inv.held (by rw [tells]; rfl) uses (fun _ => rfl) rfl rfl (inv.undisturbed _) (fun _ => stands)
            ⟨given, rfl⟩
        rw [modFile_self] at after
        exact after
    · cases taken
  | seek w err =>
    dsimp only at taken
    split at taken
    · rename_i t saved seeks
      have uses : (p.worker w).uses = some t.fd := by rw [seeks]; rfl
      have given : (FilePhase.seeking t saved).Fits (p.file t.fd).toOpenFile := seeks ▸ inv.fits w t.fd uses
      have stands := inv.home (w := w) (by rw [seeks]; rfl) (by rw [seeks]; rfl) t.fd
      split at taken
      · cases taken
        rw [← modFile_self p t.fd]
        exact inv.held (by rw [seeks]; rfl) uses (fun _ => rfl) rfl rfl (inv.undisturbed _)
          (fun _ => stands) trivial
      · cases taken
        refine inv.held (by rw [seeks]; rfl) uses (fun _ => rfl) rfl rfl
          ((inv.undisturbed _).seek _) (fun home => ?_) fun _ => ⟨given.1, rfl, given.2.trans stands⟩
        simp [FilePhase.away, given.1] at home
    · cases taken
  | transfer w n left =>
    dsimp only at taken
    split at taken
    · rename_i t saved moves
      have uses : (p.worker w).uses = some t.fd := by rw [moves]; rfl
      have given : (FilePhase.moving t saved).Fits (p.file t.fd).toOpenFile := moves ▸ inv.fits w t.fd uses
      cases taken
      cases own : t.own with
      | none =>
        have stands := inv.home (w := w) (by rw [moves]; rfl)
          (by rw [moves]; simp [FilePhase.away, own]) t.fd
        have settled : (p.file t.fd).Settled := ⟨inv.undisturbed _, stands⟩
        have after : ((p.file t.fd).transfer none n left).Settled := settled.current
        exact inv.held (by rw [moves]; rfl) uses (fun _ => rfl) rfl rfl after.toUndisturbed
          (fun _ => after.stands) trivial
      | some offset =>
        obtain ⟨isOwn, there, isSaved⟩ := given (by rw [own]; rfl)
        obtain rfl : t.offset = offset := Option.some.inj (isOwn.symm.trans own)
        refine inv.held (by rw [moves]; rfl) uses (fun _ => rfl) rfl rfl
          ((inv.undisturbed _).positional there) (fun home => by cases home) ?_
        exact isSaved.trans (congrArg OpenFile.pos OpenFile.transfer_offset_alone.symm)
    · cases taken
  | restore w err =>
    dsimp only at taken
    split at taken
    · rename_i t saved n restores
      have uses : (p.worker w).uses = some t.fd := by rw [restores]; rfl
      have given : (FilePhase.restoring t saved n).Fits (p.file t.fd).toOpenFile :=
        restores ▸ inv.fits w t.fd uses
      obtain rfl : err = none := allowed
      cases taken
      exact inv.held (by rw [restores]; rfl) uses (fun _ => rfl) rfl rfl ((inv.undisturbed _).seek _)
        (fun _ => given) trivial
    · cases taken
  | unlock w =>
    dsimp only at taken
    split at taken
    · rename_i t rc n through
      cases taken
      exact inv.unlock through
    · cases taken
  | «open» w =>
    dsimp only at taken
    split at taken
    · rename_i isIdle
      split at taken
      · cases taken
        exact inv.apart (by rw [isIdle]; rfl) rfl (fun _ uses => by cases uses) (by simp)
          (fun fd => .inl rfl) fun fd isReady => isReady.1
      · rename_i slot isFree
        cases taken
        refine inv.apart (by rw [isIdle]; rfl) rfl (fun _ uses => by cases uses) ?_ (fun fd => .inl ?_)
          fun fd isReady => ?_
        · rintro fd (same | no) v
          · cases same; exact inv.unused isFree v
          · cases no
        · exact modFile_used true fd
        · show ((p.modFile slot ({ · with used := true })).file fd).used = true
          simp only [modFile, Function.update_apply]
          split
          · rfl
          · exact isReady.1
    · cases taken
  | fsOpen w rc =>
    dsimp only at taken
    split at taken
    · rename_i slot opens
      split at taken
      · cases taken
        refine inv.apart (by rw [opens]; rfl) rfl (fun _ uses => by cases uses) (by simp)
          (fun fd => .inl (modFile_used false fd)) fun fd isReady => ?_
        have other : fd ≠ slot := by
          rintro rfl
          exact (isReady.2 w).1 opens
        exact (congrArg Loop.File.used (Function.update_of_ne other ..)).trans isReady.1
      · cases taken
        refine inv.apart (by rw [opens]; rfl) rfl (fun _ uses => by cases uses) (by simp)
          (fun fd => ?_) fun fd isReady => ?_
        · by_cases is : fd = slot
          · subst is
            exact .inr ⟨congrArg Loop.File.toOpenFile (modFile_here fun _ => { used := true }), opens⟩
          · exact .inl (congrArg Loop.File.toOpenFile (Function.update_of_ne is ..))
        · show ((p.modFile slot fun _ => { used := true }).file fd).used = true
          simp only [modFile, Function.update_apply]
          split
          · rfl
          · exact isReady.1
    · cases taken
  | close w fd =>
    dsimp only at taken
    split at taken
    · rename_i isIdle
      cases taken
      refine inv.apart (by rw [isIdle]; rfl) rfl (fun _ uses => by cases uses) ?_ (fun fd => .inl rfl)
        fun fd isReady => isReady.1
      rintro i (no | same) v
      · cases no
      · cases same; exact allowed v
    · cases taken
  | fsClose w rc =>
    dsimp only at taken
    split at taken
    · rename_i fd closes
      cases taken
      by_cases zero : rc = 0
      · rw [if_pos zero]
        refine inv.apart (by rw [closes]; rfl) rfl (fun _ uses => by cases uses) (by simp)
          (fun i => .inl (modFile_used false i)) fun i isReady => ?_
        have other : i ≠ fd := by
          rintro rfl
          exact (isReady.2 w).2 closes
        exact (congrArg Loop.File.used (Function.update_of_ne other ..)).trans isReady.1
      · rw [if_neg zero]
        exact inv.apart (by rw [closes]; rfl) rfl (fun _ uses => by cases uses) (by simp)
          (fun fd => .inl rfl) fun fd isReady => isReady.1
    · cases taken

end Inv

/-- How far the operation has come, and what the file has seen of it. -/
inductive Doing (t : FileTask) (before : List Transfer) : FilePhase → List Transfer → Prop
  | telling : Doing t before (.telling t) before
  | seeking (saved : Int) : Doing t before (.seeking t saved) before
  | moving (saved : Int) : Doing t before (.moving t saved) before
  | restoring (saved n left : Int) :
      Doing t before (.restoring t saved n) (⟨some t.offset, t.offset, n, left⟩ :: before)
  | failed (rc : Int) (negative : rc < 0) : Doing t before (.unlocking t rc 0) before
  | moved (n left : Int) :
      Doing t before (.unlocking t (if n < 0 then n else 0) n)
        (⟨some t.offset, t.offset, n, left⟩ :: before)

theorem Doing.holds {before moved : List Transfer} (doing : Doing t before phase moved) :
    phase.holds = true ∧ phase.uses = some t.fd := by
  cases doing with
  | _ => exact ⟨rfl, rfl⟩

/-- The other workers stay away from a file whose user has the lock. -/
theorem others (inv : Inv p) (holds : (p.worker w).holds = true) (uses : (p.worker w).uses = some fd)
    (taken : p.step label = some p') (other : label.worker ≠ w) :
    p'.worker w = p.worker w ∧ (p'.file fd).toOpenFile = (p.file fd).toOpenFile := by
  have alone : (p.worker label.worker).holds = false := inv.sole holds other
  unfold FilePool.step at taken
  cases label with
  | rw v t =>
    dsimp only at taken
    split at taken
    · cases taken; exact ⟨next_other (Ne.symm other), rfl⟩
    · cases taken
  | lock v =>
    dsimp only at taken
    split at taken
    · cases taken; exact ⟨next_other (Ne.symm other), rfl⟩
    · cases taken
  | «open» v =>
    dsimp only at taken
    split at taken
    · split at taken
      · cases taken; exact ⟨next_other (Ne.symm other), rfl⟩
      · cases taken; exact ⟨next_other (Ne.symm other), modFile_used true fd⟩
    · cases taken
  | fsOpen v rc =>
    dsimp only at taken
    split at taken
    · rename_i slot opens
      have apart : fd ≠ slot := by
        rintro rfl
        exact ((inv.ready w fd uses).2 v).1 opens
      split at taken
      · cases taken; exact ⟨next_other (Ne.symm other), modFile_used false fd⟩
      · cases taken
        exact ⟨next_other (Ne.symm other), congrArg Loop.File.toOpenFile (Function.update_of_ne apart ..)⟩
    · cases taken
  | close v i =>
    dsimp only at taken
    split at taken
    · cases taken; exact ⟨next_other (Ne.symm other), rfl⟩
    · cases taken
  | fsClose v rc =>
    dsimp only at taken
    split at taken
    · cases taken
      split
      · exact ⟨next_other (Ne.symm other), modFile_used false fd⟩
      · exact ⟨next_other (Ne.symm other), rfl⟩
    · cases taken
  | _ =>
    -- The steps between the calls on `fs_mu` are for the worker that has the lock.
    dsimp only at taken
    split at taken
    · rename_i isPhase
      have no := (congrArg FilePhase.holds isPhase).symm.trans alone
      cases no
    · cases taken

/-- The operation goes on, whichever worker takes the next step. -/
theorem Doing.step {before : List Transfer} (inv : Inv p) (own : t.own = some t.offset)
    (doing : Doing t before (p.worker w) (p.file t.fd).moved) (allowed : p.Allowed label)
    (inside : label ≠ .unlock w) (taken : p.step label = some p') :
    Doing t before (p'.worker w) (p'.file t.fd).moved := by
  obtain ⟨holds, uses⟩ := doing.holds
  by_cases mine : label.worker = w
  · have given := inv.fits w t.fd uses
    generalize isMoved : (p.file t.fd).moved = moved at doing
    unfold FilePool.step at taken
    cases label with
    | tell v err =>
      obtain rfl : v = w := mine
      dsimp only at taken
      split at taken
      · rename_i isPhase
        rw [isPhase] at doing
        cases doing
        cases err with
        | none => cases taken; rw [next_self]; exact isMoved ▸ .seeking _
        | some rc => cases taken; rw [next_self]; exact isMoved ▸ .failed rc (allowed rc rfl)
      · cases taken
    | seek v err =>
      obtain rfl : v = w := mine
      dsimp only at taken
      split at taken
      · rename_i isPhase
        rw [isPhase] at doing
        cases doing
        cases err with
        | none =>
          cases taken
          rw [next_self]
          show Doing t before _ ((p.modFile t.fd _).file t.fd).moved
          rw [modFile_here]
          exact isMoved ▸ .moving _
        | some rc => cases taken; rw [next_self]; exact isMoved ▸ .failed rc (allowed rc rfl)
      · cases taken
    | transfer v n left =>
      obtain rfl : v = w := mine
      dsimp only at taken
      split at taken
      · rename_i saved isPhase
        rw [isPhase] at doing given
        cases doing
        cases taken
        -- The file stands at the offset of the operation.
        have there : (p.file t.fd).pos = t.offset := (given (by rw [own]; rfl)).2.1
        rw [next_self, own]
        show Doing t before (.restoring t saved n) ((p.modFile t.fd _).file t.fd).moved
        rw [modFile_here]
        show Doing t before (.restoring t saved n) (⟨some t.offset, (p.file t.fd).pos, n, left⟩ :: _)
        rw [there]
        exact isMoved ▸ .restoring saved n left
      · cases taken
    | restore v err =>
      obtain rfl : v = w := mine
      obtain rfl : err = none := allowed
      dsimp only at taken
      split at taken
      · rename_i isPhase
        rw [isPhase] at doing
        cases taken
        rw [next_self]
        show Doing t before _ ((p.modFile _ _).file t.fd).moved
        cases doing
        rw [modFile_here]
        exact isMoved ▸ .moved _ _
      · cases taken
    | unlock v => exact absurd (congrArg FileLabel.unlock mine) inside
    | lock v =>
      obtain rfl := mine
      dsimp only at taken
      split at taken
      · rename_i isPhase _
        have no := (congrArg FilePhase.holds isPhase).symm.trans holds
        cases no
      · cases taken
    | _ =>
      -- A worker that has the lock takes none of the other steps.
      obtain rfl := mine
      dsimp only at taken
      split at taken
      · rename_i isPhase
        have no := (congrArg FilePhase.holds isPhase).symm.trans holds
        cases no
      · cases taken
  · obtain ⟨same, file⟩ := others inv holds uses taken mine
    rw [same, file]
    exact doing

/-- A worker has opened a file and is about to read it at an offset. -/
def reading : FilePool := drive step (.new 2) [.open 0, .fsOpen 0 0, .rw 0 ⟨0, 6⟩]

end FilePool

end Myio
