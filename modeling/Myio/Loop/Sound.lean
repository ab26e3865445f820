import Myio.Loop.Placed
import Myio.Loop.Wired

/-! The invariants together, and what no move ever takes back. -/

namespace Myio.Loop

open Function (update)
open Loop.Core

namespace Core

/-- Every pending task has the pointers its backend gives it. -/
def Shaped (r : Rules) (c : Core) (x : TaskId → Bool) : Prop :=
  ∀ t, c.Pending x t → r.Fits (c.task t)

variable {r : Rules} {c c' : Core} {x x' : TaskId → Bool} {h h' : SockId → Bool}

/-- No pending task gets other pointers. -/
theorem Shaped.congr (shaped : c.Shaped r x)
    (same : ∀ t, c'.Pending x' t → c.Pending x t ∧ (c'.task t).kind = (c.task t).kind ∧
      (c'.task t).sock = (c.task t).sock ∧ (c'.task t).newsock = (c.task t).newsock ∧
      (c'.task t).on = (c.task t).on) : c'.Shaped r x' := by
  intro t there
  obtain ⟨before, kind, sock, newsock, on⟩ := same t there
  unfold Rules.Fits
  rw [kind, sock, newsock, on]
  exact shaped t before

/-- A change of one task's record that leaves its pointers alone, or any if it is in hand. -/
theorem Shaped.modTask (shaped : c.Shaped r x) (t : TaskId) (f : Task → Task)
    (done : (f (c.task t)).done = (c.task t).done)
    (links : x t = false → r.Fits (c.task t) → r.Fits (f (c.task t))) :
    (c.modTask t f).Shaped r x := by
  intro u there
  have fields : (c.modTask t f).task u = if u = t then f (c.task t) else c.task u := by
    simp only [Core.modTask, Function.update_apply]
  have before : c.Pending x u := by
    refine ⟨there.1, ?_, there.2.2⟩
    have isOpen := there.2.1
    rw [fields] at isOpen
    grind
  rw [fields]
  split
  · rename_i same; subst same; exact links there.2.2 (shaped u before)
  · exact shaped u before

/-- Every move keeps the pending tasks' pointers as the rules have them. -/
theorem Shaped.move (move : Move r ⟨c, x, h⟩ ⟨c', x', h'⟩) (shaped : c.Shaped r x) :
    c'.Shaped r x' := by
  -- A task put where it can complete has the right pointers, and the others keep theirs.
  have joins : ∀ (t : TaskId), r.Fits (c.task t) →
      ∀ u, c.Pending (update x t false) u → r.Fits (c.task u) := by
    intro t fits u there
    by_cases same : u = t
    · subst same; exact fits
    · exact shaped u ⟨there.1, there.2.1, by simpa [same] using there.2.2⟩
  cases move with
  | make fresh allowed =>
    refine shaped.congr fun u there => ?_
    simp only [Pending, Core.taskNew, Function.update_apply] at there ⊢
    grind
  | enter submitted isOpen out kind fits live read accept =>
    rename_i t
    rw [setSlot_rest]
    exact joins t fits
  | park submitted isOpen out kind sock newsock fits live => exact joins _ fits
  | exit pending =>
    rename_i t
    rw [leaveSock_rest]
    refine shaped.congr fun u there => ?_
    simp only [Pending, Core.disarm, Function.update_apply] at there ⊢
    grind
  | sever armed kind fits =>
    rename_i t
    rw [leaveSock_rest]
    exact shaped.modTask t ({ · with sock := none }) rfl fun _ _ => fits
  | settle submitted isOpen out settles allowed =>
    refine shaped.congr fun u there => ?_
    simp only [Pending, Core.settle, Core.modTask, Function.update_apply, settled] at there ⊢
    grind
  | send pending on fits first =>
    rename_i t s n
    exact shaped.modTask t (fun k => { k with off := k.off + n }) rfl fun _ => id
  | aim submitted isOpen out kind live mine =>
    exact shaped.modTask _ _ rfl fun inside => by simp [out] at inside
  | build submitted isOpen out kind sole =>
    exact shaped.modTask _ _ rfl fun inside => by simp [out] at inside
  | buildNew submitted isOpen out sole =>
    exact shaped.modTask _ _ rfl fun inside => by simp [out] at inside
  | drop out sock newsock => exact shaped.modTask _ _ rfl fun inside => by simp [out] at inside
  | note notes same =>
    refine shaped.modTask _ _ (by rw [same]) fun _ fits => ?_
    rw [same]
    exact fits
  | release unused => exact shaped
  | detach isOpen held gives =>
    rename_i t
    exact shaped.modTask t ({ · with detached := true }) rfl fun _ => id
  | free done held gives =>
    rename_i t
    exact shaped.modTask t (fun k => { k with frees := k.frees + 1 }) rfl fun _ => id
  | _ => exact shaped

end Core

/-- Everything that holds at every cut. -/
structure Sound (r : Rules) (a : Cut) : Prop where
  placed : a.core.Placed a.out a.bare
  lives : a.core.Lives
  linked : a.core.Linked
  built : a.core.Built
  wired : r.bounded → a.core.Wired a.out
  shaped : a.core.Shaped r a.out

variable {r : Rules}

/-- Every move keeps every invariant. -/
theorem Sound.move {a b : Cut} (sound : Sound r a) (move : Move r a b) : Sound r b := by
  obtain ⟨c, x, h⟩ := a
  obtain ⟨c', x', h'⟩ := b
  obtain ⟨placed, lives, linked, built, wired, shaped⟩ := sound
  exact ⟨placed.move move linked.bound, lives.move move, linked.move move,
    built.move move linked, fun bounds => Wired.move move bounds (wired bounds) linked built, shaped.move move⟩

/-- Every call keeps every invariant. -/
theorem Sound.moves {a b : Cut} (sound : Sound r a) (moves : Moves r a b) : Sound r b :=
  moves.preserves (fun _ _ move before => before.move move) sound

/-- The results a backend allows are no part of the invariants. -/
theorem Sound.rules {r' : Rules} {a : Cut} (sound : Sound r a) (frame : r'.frame = r.frame) :
    Sound r' a := by
  obtain ⟨placed, lives, linked, built, wired, shaped⟩ := sound
  have shape : r'.shape = r.shape := congrArg Prod.fst frame
  have bounds : r'.bounded = r.bounded := congrArg Prod.snd frame
  refine ⟨placed, lives, linked, built, bounds ▸ wired, fun t there => ?_⟩
  unfold Rules.Fits
  rw [shape]
  exact shaped t there

/-- An instance with nothing in it is sound. -/
theorem Sound.new : Sound r ⟨Core.new, fun _ => false, fun _ => false⟩ where
  placed := by constructor <;> simp [Core.new, Pending]
  lives := by constructor <;> simp [Core.new]
  linked := by constructor <;> simp [Core.new]
  built := by constructor <;> simp [Core.new]
  wired _ := by constructor <;> simp [Core.new, Pending]
  shaped := by simp [Core.Shaped, Core.new, Pending]

namespace Core

/-- The fields of a task that hold no link. -/
def SameNotes (k k' : Task) : Prop :=
  k'.deadline = k.deadline ∧ k'.fnRet = k.fnRet ∧ k'.pushed = k.pushed ∧ k'.runs = k.runs ∧
    k'.wcanceled = k.wcanceled

/-- What no move takes back: arguments, results, and what was sent by a write that is done. -/
structure Later (r : Rules) (c c' : Core) : Prop where
  ntask : c.ntask ≤ c'.ntask
  nsock : c.nsock ≤ c'.nsock
  args : ∀ t, t < c.ntask → (c'.task t).kind = (c.task t).kind ∧ (c'.task t).on = (c.task t).on ∧
    (c'.task t).buf = (c.task t).buf
  done : ∀ t, t < c.ntask → (c.task t).done = true →
    (c'.task t).done = true ∧ (c'.task t).res = (c.task t).res ∧ (c'.task t).off = (c.task t).off
  ended : ∀ t, t < c.ntask → (c.task t).done = false → (c'.task t).done = true →
    r.ends (c.task t).kind (c'.task t).res
  frees : ∀ t, t < c.ntask → (c.task t).frees ≤ (c'.task t).frees
  notes : ¬ r.notes → ∀ t, t < c.ntask → SameNotes (c.task t) (c'.task t)
  held : ∀ t, c'.held t = true → c.held t = true ∨ c.ntask ≤ t
  keeps : ¬ r.gives → ∀ t, t < c.ntask → c'.held t = c.held t
  made : ∀ t, c.ntask ≤ t → t < c'.ntask → r.makes (c'.task t).kind
  born : ∀ t, c.ntask ≤ t → t < c'.ntask → (c'.task t).done = true →
    r.ends (c'.task t).kind (c'.task t).res
  shut : ∀ s, c.shut s = true → c'.shut s = true

namespace Later

variable {c c' c'' : Core} {x x' : TaskId → Bool} {h h' : SockId → Bool}

theorem refl (c : Core) : Later r c c where
  ntask := Nat.le_refl _
  nsock := Nat.le_refl _
  args _ _ := ⟨rfl, rfl, rfl⟩
  done _ _ ended := ⟨ended, rfl, rfl⟩
  ended t _ isOpen ended := by rw [isOpen] at ended; cases ended
  frees _ _ := Nat.le_refl _
  notes _ _ _ := ⟨rfl, rfl, rfl, rfl, rfl⟩
  held _ := .inl
  keeps _ _ _ := rfl
  made _ old new := absurd new (Nat.not_lt_of_le old)
  born _ old new := absurd new (Nat.not_lt_of_le old)
  shut _ := id

theorem trans (first : Later r c c') (second : Later r c' c'') : Later r c c'' := by
  have inside : ∀ t, t < c.ntask → t < c'.ntask := fun _ less => Nat.lt_of_lt_of_le less first.ntask
  constructor
  case ntask => exact Nat.le_trans first.ntask second.ntask
  case nsock => exact Nat.le_trans first.nsock second.nsock
  case args =>
    intro t less
    obtain ⟨kind, on, buf⟩ := first.args t less
    obtain ⟨kind', on', buf'⟩ := second.args t (inside t less)
    exact ⟨kind'.trans kind, on'.trans on, buf'.trans buf⟩
  case done =>
    intro t less before
    obtain ⟨ended, res, off⟩ := first.done t less before
    obtain ⟨ended', res', off'⟩ := second.done t (inside t less) ended
    exact ⟨ended', res'.trans res, off'.trans off⟩
  case ended =>
    -- A task ends in the first part or in the second, and its result then stays.
    intro t less isOpen ended
    cases middle : (c'.task t).done with
    | true =>
      rw [(second.done t (inside t less) middle).2.1]
      exact first.ended t less isOpen middle
    | false =>
      have := second.ended t (inside t less) middle ended
      rwa [(first.args t less).1] at this
  case frees =>
    exact fun t less => Nat.le_trans (first.frees t less) (second.frees t (inside t less))
  case notes =>
    intro without t less
    obtain ⟨deadline, fnRet, pushed, runs, canceled⟩ := first.notes without t less
    obtain ⟨deadline', fnRet', pushed', runs', canceled'⟩ :=
      second.notes without t (inside t less)
    exact ⟨deadline'.trans deadline, fnRet'.trans fnRet, pushed'.trans pushed, runs'.trans runs,
      canceled'.trans canceled⟩
  case held =>
    intro t held
    rcases second.held t held with before | new
    · exact first.held t before
    · exact .inr (Nat.le_trans first.ntask new)
  case keeps =>
    exact fun without t less =>
      (second.keeps without t (inside t less)).trans (first.keeps without t less)
  case made =>
    intro t old new
    by_cases less : t < c'.ntask
    · rw [(second.args t less).1]; exact first.made t old less
    · exact second.made t (Nat.le_of_not_lt less) new
  case born =>
    -- A new task ends in the part it is made in, or in the second part.
    intro t old new ended
    by_cases less : t < c'.ntask
    · rw [(second.args t less).1]
      cases middle : (c'.task t).done with
      | true => rw [(second.done t less middle).2.1]; exact first.born t old less middle
      | false => exact second.ended t less middle ended
    · exact second.born t (Nat.le_of_not_lt less) new ended
  case shut => exact fun s before => second.shut s (first.shut s before)

/-- A change of one task's record that none of what is kept depends on. -/
theorem modTask (t : TaskId) (f : Task → Task) (kind : (f (c.task t)).kind = (c.task t).kind)
    (on : (f (c.task t)).on = (c.task t).on) (buf : (f (c.task t)).buf = (c.task t).buf)
    (done : (f (c.task t)).done = (c.task t).done) (res : (f (c.task t)).res = (c.task t).res)
    (off : (c.task t).done = true → (f (c.task t)).off = (c.task t).off)
    (frees : (c.task t).frees ≤ (f (c.task t)).frees)
    (notes : ¬ r.notes → SameNotes (c.task t) (f (c.task t))) :
    Later r c (c.modTask t f) := by
  have fields : ∀ u, (c.modTask t f).task u = if u = t then f (c.task t) else c.task u := by
    intro u; simp only [Core.modTask, Function.update_apply]
  refine ⟨Nat.le_refl _, Nat.le_refl _, fun u _ => ?_, fun u _ ended => ?_,
    fun u _ isOpen ended => ?_, fun u _ => ?_, fun without u _ => ?_, fun _ => .inl,
    fun _ _ _ => rfl, fun _ old new => absurd new (Nat.not_lt_of_le old),
    fun _ old new => absurd new (Nat.not_lt_of_le old), fun _ => id⟩
  all_goals rw [fields] at *
  · grind
  · grind
  · grind
  · grind
  · split
    · rename_i same; subst same; exact notes without
    · exact ⟨rfl, rfl, rfl, rfl, rfl⟩

/-- A change of what is not kept. -/
theorem same (ntask : c'.ntask = c.ntask) (nsock : c.nsock ≤ c'.nsock) (task : c'.task = c.task)
    (held : ∀ t, c'.held t = true → c.held t = true) (keeps : r.gives ∨ c'.held = c.held)
    (shut : ∀ s, c.shut s = true → c'.shut s = true) : Later r c c' := by
  refine ⟨Nat.le_of_eq ntask.symm, nsock, fun u _ => ?_, fun u _ ended => ?_,
    fun u _ isOpen ended => ?_, fun u _ => ?_, fun _ u _ => ?_, fun t => .inl ∘ held t,
    fun without u _ => ?_, fun u old new => ?_, fun u old new => ?_, shut⟩
  · rw [task]; exact ⟨rfl, rfl, rfl⟩
  · rw [task]; exact ⟨ended, rfl, rfl⟩
  · rw [task, isOpen] at ended; cases ended
  · exact Nat.le_of_eq (by rw [task])
  · rw [task]; exact ⟨rfl, rfl, rfl, rfl, rfl⟩
  · rw [keeps.resolve_left without]
  · rw [ntask] at new; exact absurd new (Nat.not_lt_of_le old)
  · rw [ntask] at new; exact absurd new (Nat.not_lt_of_le old)

/-- No move takes back what is kept. -/
theorem move (move : Move r ⟨c, x, h⟩ ⟨c', x', h'⟩) : Later r c c' := by
  have held : ∀ (t u : TaskId), update c.held t false u = true → c.held u = true := by
    intro t u there
    simp only [Function.update_apply] at there
    grind
  cases move with
  | make fresh allowed =>
    rename_i k
    have old : ∀ u, u < c.ntask → (c.taskNew k).task u = c.task u := by
      intro u inside; simp [Core.taskNew, Function.update_of_ne (Nat.ne_of_lt inside)]
    refine ⟨Nat.le_succ _, Nat.le_refl _, fun u inside => ?_, fun u inside ended => ?_,
      fun u inside isOpen ended => ?_, fun u inside => ?_, fun _ u inside => ?_, fun u there => ?_,
      fun _ u inside => ?_, fun u new inside => ?_, fun u new inside ended => ?_, fun _ => id⟩
    · rw [old u inside]; exact ⟨rfl, rfl, rfl⟩
    · rw [old u inside]; exact ⟨ended, rfl, rfl⟩
    · rw [old u inside, isOpen] at ended; cases ended
    · exact Nat.le_of_eq (by rw [old u inside])
    · rw [old u inside]; exact ⟨rfl, rfl, rfl, rfl, rfl⟩
    · simp only [Core.taskNew, Function.update_apply] at there
      split at there
      · rename_i same; subst same; exact .inr (Nat.le_refl _)
      · exact .inl there
    · simp [Core.taskNew, Function.update_of_ne (Nat.ne_of_lt inside)]
    · obtain rfl : u = c.ntask := Nat.le_antisymm (Nat.le_of_lt_succ inside) new
      simpa [Core.taskNew] using allowed
    · obtain rfl : u = c.ntask := Nat.le_antisymm (Nat.le_of_lt_succ inside) new
      simp [Core.taskNew, fresh.done] at ended
  | settle submitted isOpen out settles allowed =>
    rename_i t res
    have fields : ∀ u, (c.settle t res).task u =
        if u = t then settled res (c.task t) else c.task u := by
      intro u; simp only [Core.settle, Core.modTask, Function.update_apply]
    refine ⟨Nat.le_refl _, Nat.le_refl _, fun u _ => ?_, fun u _ ended => ?_,
      fun u _ open_ ended => ?_, fun u _ => ?_, fun _ u _ => ?_, fun _ => .inl, fun _ _ _ => rfl,
      fun _ old new => absurd new (Nat.not_lt_of_le old),
      fun _ old new => absurd new (Nat.not_lt_of_le old), fun _ => id⟩
    all_goals rw [fields] at *
    case refine_5 =>
      split
      · rename_i same; subst same; exact ⟨rfl, rfl, rfl, rfl, rfl⟩
      · exact ⟨rfl, rfl, rfl, rfl, rfl⟩
    all_goals grind [settled]
  | send pending on fits first =>
    rename_i t s n
    exact (modTask t (fun k => { k with off := k.off + n }) rfl rfl rfl rfl rfl (fun ended => by
      rw [pending.2.1] at ended; cases ended) (Nat.le_refl _) fun _ =>
        ⟨rfl, rfl, rfl, rfl, rfl⟩).trans (same rfl (Nat.le_refl _) rfl (fun _ => id) (.inr rfl) fun _ => id)
  | aim =>
    exact modTask _ _ rfl rfl rfl rfl rfl (fun _ => rfl) (Nat.le_refl _) fun _ =>
      ⟨rfl, rfl, rfl, rfl, rfl⟩
  | build =>
    exact modTask _ _ rfl rfl rfl rfl rfl (fun _ => rfl) (Nat.le_refl _) fun _ =>
      ⟨rfl, rfl, rfl, rfl, rfl⟩
  | buildNew =>
    exact modTask _ _ rfl rfl rfl rfl rfl (fun _ => rfl) (Nat.le_refl _) fun _ =>
      ⟨rfl, rfl, rfl, rfl, rfl⟩
  | drop =>
    exact modTask _ _ rfl rfl rfl rfl rfl (fun _ => rfl) (Nat.le_refl _) fun _ =>
      ⟨rfl, rfl, rfl, rfl, rfl⟩
  | note notes unlinked =>
    refine modTask _ _ ?_ ?_ ?_ ?_ ?_ (fun _ => ?_) (Nat.le_of_eq ?_)
      fun without => absurd notes without
    all_goals rw [unlinked]
  | detach isOpen isHeld gives =>
    rename_i t
    exact (modTask t ({ · with detached := true }) rfl rfl rfl rfl rfl (fun _ => rfl)
      (Nat.le_refl _) fun _ => ⟨rfl, rfl, rfl, rfl, rfl⟩).trans
      (same rfl (Nat.le_refl _) rfl (held t) (.inl gives) fun _ => id)
  | free done isHeld gives =>
    rename_i t
    exact (modTask t (fun k => { k with frees := k.frees + 1 }) rfl rfl rfl rfl rfl
      (fun _ => rfl) (Nat.le_succ _) fun _ => ⟨rfl, rfl, rfl, rfl, rfl⟩).trans
      (same rfl (Nat.le_refl _) rfl (held t) (.inl gives) fun _ => id)
  | enter => rw [setSlot_rest]; exact same rfl (Nat.le_refl _) rfl (fun _ => id) (.inr rfl) fun _ => id
  | exit => rw [leaveSock_rest]; exact same rfl (Nat.le_refl _) rfl (fun _ => id) (.inr rfl) fun _ => id
  | sever armed kind fits =>
    rename_i t
    rw [leaveSock_rest]
    exact (modTask t ({ · with sock := none }) rfl rfl rfl rfl rfl (fun _ => rfl)
      (Nat.le_refl _) fun _ => ⟨rfl, rfl, rfl, rfl, rfl⟩).trans (same rfl (Nat.le_refl _) rfl (fun _ => id) (.inr rfl) fun _ => id)
  | release => exact same rfl (Nat.le_refl _) rfl (fun _ => id) (.inr rfl) fun _ => id
  | sockNew => exact same rfl (Nat.le_succ _) rfl (fun _ => id) (.inr rfl) fun _ => id
  | shut =>
    refine same rfl (Nat.le_refl _) rfl (fun _ => id) (.inr rfl) fun u before => ?_
    simp only [markShut, Function.update_apply]
    split
    · rfl
    · exact before
  | _ => exact same rfl (Nat.le_refl _) rfl (fun _ => id) (.inr rfl) fun _ => id

end Later

end Core

/-- No call takes back what is kept. -/
theorem Moves.later {a b : Cut} (moves : Moves r a b) : Later r a.core b.core := by
  induction moves with
  | refl => exact Later.refl _
  | snoc before last ih => exact ih.trans (Later.move last)

end Myio.Loop
