import Myio.Loop.Lives

/-! Who points at a socket that has not been handed to the caller yet. -/

namespace Myio.Loop.Core

open Function (update)

/-- A socket that a task has yet to win is known to that task only. -/
structure Built (c : Core) : Prop where
  bound : ∀ t s, t < c.ntask → (c.task t).done = false → c.Refers t s → s < c.nsock
  sole : ∀ t s, t < c.ntask → (c.task t).done = false → c.Builds t s → c.claimed s = false ∧
    (∀ u, u < c.ntask → (c.task u).res.ptr ≠ some s) ∧
    ∀ u, u < c.ntask → (c.task u).done = false → c.Refers u s → u = t
  ptr : ∀ t s, t < c.ntask → (c.task t).res.ptr = some s → s < c.nsock
  claimed : ∀ s, c.claimed s = true → s < c.nsock

variable {r : Rules} {c c' : Core} {x x' : TaskId → Bool}
  {h h' : SockId → Bool}

/-- No task gains a pointer, and the caller gains no socket. -/
theorem Built.congr (built : c.Built) (ntask : c'.ntask = c.ntask) (nsock : c.nsock ≤ c'.nsock)
    (task : ∀ t, t < c.ntask → (c'.task t).done = false → (c.task t).done = false ∧
      (∀ s, c'.Refers t s → c.Refers t s) ∧ ∀ s, c'.Builds t s → c.Builds t s)
    (ptr : ∀ t, t < c.ntask → (c'.task t).res.ptr = (c.task t).res.ptr)
    (claimed : c'.claimed = c.claimed) : c'.Built := by
  obtain ⟨isBound, sole, isPtr, isClaimed⟩ := built
  constructor
  case bound =>
    rw [ntask]
    intro t s inside isOpen refers
    obtain ⟨before, fewer, _⟩ := task t inside isOpen
    exact Nat.lt_of_lt_of_le (isBound t s inside before (fewer s refers)) nsock
  case sole =>
    rw [ntask, claimed]
    intro t s inside isOpen builds
    obtain ⟨before, _, fewer⟩ := task t inside isOpen
    obtain ⟨mine, noPtr, only⟩ := sole t s inside before (fewer s builds)
    refine ⟨mine, fun u insideU => ?_, fun u insideU isOpenU refers => ?_⟩
    · rw [ptr u insideU]; exact noPtr u insideU
    · obtain ⟨beforeU, fewerU, _⟩ := task u insideU isOpenU
      exact only u insideU beforeU (fewerU s refers)
  case ptr =>
    rw [ntask]
    intro t s inside points
    rw [ptr t inside] at points
    exact Nat.lt_of_lt_of_le (isPtr t s inside points) nsock
  case claimed =>
    rw [claimed]
    exact fun s before => Nat.lt_of_lt_of_le (isClaimed s before) nsock

/-- A change of one task's record that leaves its pointers, or takes some away. -/
theorem Built.modTask (built : c.Built) (t : TaskId) (f : Task → Task)
    (done : (f (c.task t)).done = (c.task t).done) (kind : (f (c.task t)).kind = (c.task t).kind)
    (res : (f (c.task t)).res = (c.task t).res)
    (sock : (f (c.task t)).sock = none ∨ (f (c.task t)).sock = (c.task t).sock)
    (newsock : (f (c.task t)).newsock = none ∨ (f (c.task t)).newsock = (c.task t).newsock) :
    (c.modTask t f).Built := by
  refine built.congr rfl (Nat.le_refl _) (fun u _ isOpen => ?_) (fun u _ => ?_) rfl
  · simp only [Refers, Builds, Core.modTask, Function.update_apply] at isOpen ⊢
    grind
  · simp only [Core.modTask, Function.update_apply]
    grind

/-- A change of what the invariant does not read. -/
theorem Built.same (built : c.Built) (ntask : c'.ntask = c.ntask) (nsock : c.nsock ≤ c'.nsock)
    (task : c'.task = c.task) (claimed : c'.claimed = c.claimed) : c'.Built := by
  refine built.congr ntask nsock (fun t _ isOpen => ?_) (fun t _ => by rw [task]) claimed
  rw [task] at isOpen
  simp only [Refers, Builds, task]
  exact ⟨isOpen, fun _ => id, fun _ => id⟩

/-- A new task points at sockets of the caller's only. -/
theorem Built.taskNew (built : c.Built) {k : Task} (fresh : c.Fresh k) : (c.taskNew k).Built := by
  have old : ∀ u, u < c.ntask → (c.taskNew k).task u = c.task u := by
    intro u inside; simp [Core.taskNew, Function.update_of_ne (Nat.ne_of_lt inside)]
  have new : (c.taskNew k).task c.ntask = k := by simp [Core.taskNew]
  have split : ∀ u, u < c.ntask + 1 → u = c.ntask ∨ u < c.ntask := fun u inside => by omega
  have points : ∀ s, (c.taskNew k).Refers c.ntask s → c.claimed s = true := by
    intro s refers
    unfold Refers at refers
    rw [new, fresh.newsock] at refers
    exact (fresh.sock s (by simpa using refers)).2
  have noBuild : ∀ s, ¬ (c.taskNew k).Builds c.ntask s := by
    intro s builds
    unfold Builds at builds
    rw [new, fresh.newsock] at builds
    rcases builds with ⟨kind, sock⟩ | never
    · rw [fresh.connect kind] at sock; cases sock
    · cases never
  have refers : ∀ u s, u < c.ntask → ((c.taskNew k).Refers u s ↔ c.Refers u s) := by
    intro u s inside; simp only [Refers, old u inside]
  constructor
  case bound =>
    intro u s inside isOpen there
    rcases split u inside with rfl | before
    · exact built.claimed s (points s there)
    · rw [refers u s before] at there
      rw [old u before] at isOpen
      exact built.bound u s before isOpen there
  case sole =>
    intro u s inside isOpen builds
    rcases split u inside with rfl | before
    · exact absurd builds (noBuild s)
    · unfold Builds at builds
      rw [old u before] at builds isOpen
      obtain ⟨mine, noPtr, only⟩ := built.sole u s before isOpen builds
      refine ⟨mine, fun v insideV => ?_, fun v insideV isOpenV there => ?_⟩
      · rcases split v insideV with rfl | beforeV
        · rw [new, fresh.res]; simp
        · rw [old v beforeV]; exact noPtr v beforeV
      · rcases split v insideV with rfl | beforeV
        · have := points s there
          simp [mine] at this
        · rw [old v beforeV] at isOpenV
          exact only v beforeV isOpenV ((refers v s beforeV).mp there)
  case ptr =>
    intro u s inside there
    rcases split u inside with rfl | before
    · rw [new, fresh.res] at there; simp at there
    · rw [old u before] at there; exact built.ptr u s before there
  case claimed => exact built.claimed

/-- A task in hand is given a pointer to a socket of the caller's, or to one nobody knows. -/
theorem Built.point (built : c.Built) (t : TaskId) (s : SockId) (f : Task → Task)
    (made : s < c.nsock) (done : (f (c.task t)).done = (c.task t).done)
    (kind : (f (c.task t)).kind = (c.task t).kind) (res : (f (c.task t)).res = (c.task t).res)
    (sock : (f (c.task t)).sock = some s ∨ (f (c.task t)).sock = (c.task t).sock)
    (newsock : (f (c.task t)).newsock = some s ∨ (f (c.task t)).newsock = (c.task t).newsock)
    (known : c.Sole s ∨ (c.claimed s = true ∧ (c.task t).kind ≠ .taskConnect ∧
      (f (c.task t)).newsock = (c.task t).newsock)) : (c.modTask t f).Built := by
  have fields : ∀ u, (c.modTask t f).task u = if u = t then f (c.task t) else c.task u := by
    intro u; simp only [Core.modTask, Function.update_apply]
  have isOpen : ∀ u, ((c.modTask t f).task u).done = (c.task u).done := by
    intro u; rw [fields]; grind
  have refers : ∀ u v, (c.modTask t f).Refers u v → c.Refers u v ∨ (u = t ∧ v = s) := by
    intro u v; simp only [Refers, fields]; grind
  have builds : ∀ u v, (c.modTask t f).Builds u v → c.Builds u v ∨ (u = t ∧ v = s ∧ c.Sole s) := by
    intro u v; simp only [Builds, fields]; grind
  obtain ⟨isBound, sole, isPtr, isClaimed⟩ := built
  constructor
  case bound =>
    intro u v inside open_ there
    rw [isOpen] at open_
    rcases refers u v there with before | ⟨rfl, rfl⟩
    · exact isBound u v inside open_ before
    · exact made
  case sole =>
    intro u v inside open_ there
    rw [isOpen] at open_
    rcases builds u v there with before | ⟨rfl, rfl, isSole⟩
    · -- The socket pointed at now is the caller's or nobody's, so no other task was to win it.
      obtain ⟨mine, noPtr, only⟩ := sole u v inside open_ before
      have differs : v ≠ s := by
        rintro rfl
        rcases known with isSole | ⟨claimed, _⟩
        · exact isSole.tasks u inside open_ before.refers
        · simp [mine] at claimed
      refine ⟨mine, fun w insideW => ?_, fun w insideW openW thereW => ?_⟩
      · rw [fields]; have := noPtr w insideW; grind
      · rw [isOpen] at openW
        rcases refers w v thereW with beforeW | ⟨_, same⟩
        · exact only w insideW openW beforeW
        · exact absurd same differs
    · refine ⟨isSole.mine, fun w insideW => ?_, fun w insideW openW thereW => ?_⟩
      · rw [fields]; have := isSole.ptr w insideW; grind
      · rw [isOpen] at openW
        rcases refers w v thereW with beforeW | ⟨same, _⟩
        · exact absurd beforeW (isSole.tasks w insideW openW)
        · exact same
  case ptr =>
    intro u v inside there
    rw [fields] at there
    change v < c.nsock
    have := isPtr u v inside
    grind
  case claimed => exact isClaimed

/-- A task in hand is marked done, and a socket it delivers is no other task's. -/
theorem Built.settle (built : c.Built) {t : TaskId} {res : Result} {bounded : Prop} (settles : c.Settles bounded x t res) :
    (c.settle t res).Built := by
  have fields : ∀ u, (c.settle t res).task u = if u = t then settled res (c.task t) else c.task u := by
    intro u; simp only [Core.settle, Core.modTask, Function.update_apply]
  have other : ∀ u, ((c.settle t res).task u).done = false → u ≠ t := by
    rintro u isOpen rfl; simp [fields, settled] at isOpen
  obtain ⟨isBound, sole, isPtr, isClaimed⟩ := built
  constructor
  case bound =>
    intro u s inside isOpen refers
    have differs := other u isOpen
    unfold Refers at refers
    rw [fields, if_neg differs] at isOpen refers
    exact isBound u s inside isOpen refers
  case sole =>
    intro u s inside isOpen builds
    have differs := other u isOpen
    unfold Builds at builds
    rw [fields, if_neg differs] at isOpen builds
    obtain ⟨mine, noPtr, only⟩ := sole u s inside isOpen builds
    refine ⟨mine, fun v insideV there => ?_, fun v insideV isOpenV refers => ?_⟩
    · rw [fields] at there
      split at there
      · have refers : c.Refers u s := Builds.refers builds
        exact (settles.ptr s there).2.2.2 u inside isOpen differs refers
      · exact noPtr v insideV there
    · have differsV := other v isOpenV
      unfold Refers at refers
      rw [fields, if_neg differsV] at isOpenV refers
      exact only v insideV isOpenV refers
  case ptr =>
    intro u s inside there
    rw [fields] at there
    split at there
    · exact (settles.ptr s there).1
    · exact isPtr u s inside there
  case claimed => exact isClaimed

/-- Every move keeps sockets not won yet to their tasks. -/
theorem Built.move (move : Move r ⟨c, x, h⟩ ⟨c', x', h'⟩) (built : c.Built)
    (linked : c.Linked) : c'.Built := by
  cases move with
  | make fresh allowed => exact built.taskNew fresh
  | aim submitted isOpen out kind live mine =>
    exact built.point _ _ _ (linked.bound _ live) rfl rfl rfl (.inl rfl) (.inr rfl)
      (.inr ⟨mine, kind, rfl⟩)
  | build submitted isOpen out kind sole =>
    exact built.point _ _ _ (linked.bound _ sole.live) rfl rfl rfl (.inl rfl) (.inr rfl) (.inl sole)
  | buildNew submitted isOpen out sole =>
    exact built.point _ _ _ (linked.bound _ sole.live) rfl rfl rfl (.inr rfl) (.inl rfl) (.inl sole)
  | drop out sock newsock => exact built.modTask _ _ rfl rfl rfl sock newsock
  | enter => rw [setSlot_rest]; exact built.same rfl (Nat.le_refl _) rfl rfl
  | exit => rw [leaveSock_rest]; exact built.same rfl (Nat.le_refl _) rfl rfl
  | sever armed kind fits =>
    rename_i t
    rw [leaveSock_rest]
    exact (built.modTask t ({ · with sock := none }) rfl rfl rfl (.inl rfl) (.inr rfl)).same
      rfl (Nat.le_refl _) rfl rfl
  | settle submitted isOpen out settles allowed => exact built.settle settles
  | send pending on fits first =>
    rename_i t s n
    exact (built.modTask t (fun k => { k with off := k.off + n }) rfl rfl rfl (.inr rfl)
      (.inr rfl)).same rfl (Nat.le_refl _) rfl rfl
  | sockNew loose early => exact built.same rfl (Nat.le_succ _) rfl rfl
  | release unused => exact built.same rfl (Nat.le_refl _) rfl rfl
  | detach isOpen held gives =>
    rename_i t
    exact (built.modTask t ({ · with detached := true }) rfl rfl rfl (.inr rfl) (.inr rfl)).same
      rfl (Nat.le_refl _) rfl rfl
  | free done held gives =>
    rename_i t
    exact (built.modTask t (fun k => { k with frees := k.frees + 1 }) rfl rfl rfl (.inr rfl)
      (.inr rfl)).same rfl (Nat.le_refl _) rfl rfl
  | claim made won =>
    rename_i s
    refine ⟨built.bound, fun t u inside isOpen builds => ?_, built.ptr, fun u mine => ?_⟩
    · have differs : u ≠ s := fun same => won t inside isOpen (same ▸ builds)
      obtain ⟨mine, rest⟩ := built.sole t u inside isOpen builds
      exact ⟨by simpa [differs] using mine, rest⟩
    · simp only [Function.update_apply] at mine
      split at mine
      · rename_i same; subst same; exact made
      · exact built.claimed u mine
  | note notes same =>
    refine built.modTask _ _ ?_ ?_ ?_ (.inr ?_) (.inr ?_) <;> rw [same]
  | _ => exact built.same rfl (Nat.le_refl _) rfl rfl

end Myio.Loop.Core
