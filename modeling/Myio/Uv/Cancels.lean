import Myio.Uv.Runs

/-! A cancel that is granted, and how the task ends after it. -/

namespace Myio.Uv.Io

open Function (update)

variable {p : Prop} {io io' last : Io} {t u : TaskId} {s c : SockId} {k : Task} {label : Label}

/-- Runs in which no lookup is taken back, and nothing is torn down during one. -/
def CalmRuns (io io' : Io) : Prop :=
  Machine.Path step (fun io label => io.allowed label = true ∧ io.patient label) io io'

theorem CalmRuns.runs (run : CalmRuns io io') : Runs io io' := run.mono fun _ _ both => both.1

theorem CalmRuns.sane (run : CalmRuns Io.new io) : Sane False io :=
  Machine.Path.invariant (Sane False) (fun _ _ _ sane both taken => sane.step both.1 (.inr both.2) taken) run .new

/-! ### What has been stopped stays so -/

/-- A change of one task that keeps its stop. -/
theorem stays_update (t : TaskId) (task : io'.task = update io.task t k)
    (keeps : (io.task t).stopped = true → k.stopped = true) (stopped : (io.task u).stopped = true) :
    (io'.task u).stopped = true := by
  rw [task, Function.update_apply]
  split
  · rename_i isT; subst isT; exact keeps stopped
  · exact stopped

theorem sockDestroy_stays (s : SockId) (stopped : (io.task u).stopped = true) :
    ((io.sockDestroy s).task u).stopped = true := by
  rw [sockDestroy_eq]
  simp [halted, stopped]

/-- No move takes a stop back. -/
theorem Move.stays (slots : Slots io) (move : Move p io io') (stopped : (io.task u).stopped = true) :
    (io'.task u).stopped = true := by
  -- A task that has been stopped is not one that is made now.
  have made : u ≠ io.ntask := by
    rintro rfl
    rw [slots.unmade _ (Nat.le_refl _)] at stopped
    cases stopped
  have new : ∀ k : Task, ((io.taskNew k).task u).stopped = true := fun k => by simp [made, stopped]
  cases move with
  | aside change => rw [(change.task u).stopped]; exact stopped
  | make k => exact new k
  | failed kind err => exact new _
  | claim | bare | listen | closeSlot | arrivePark | closed => exact stopped
  | lookup => exact new _
  | waitRead s k => exact new k
  | waitAccept s => exact new _
  | serve s c rest k => exact new k
  | request t | tick t | start t | shake t => exact stays_update t rfl id stopped
  | take t => exact stays_update t rfl (fun _ => rfl) stopped
  | ends t k made ended => exact stays_update t rfl ended.stays stopped
  | leaveRead s t k named ended => exact stays_update t rfl ended.stays stopped
  | leaveAccept s t k named ended => exact stays_update t rfl ended.stays stopped
  | connected t s k kind before on ended => exact stays_update t rfl ended.stays stopped
  | connectEnds t k kind before ended => exact stays_update t rfl ended.stays stopped
  | close s => exact sockDestroy_stays s stopped
  | shut s =>
    simp only [Io.shut]
    split
    · rfl
    · exact stopped
  | arriveHand s t k listens named ended => exact stays_update t rfl ended.stays stopped

theorem Moves.stays (books : Books p io) (moves : Moves p io io') (stopped : (io.task u).stopped = true) :
    (io'.task u).stopped = true := by
  have both : Books p io' ∧ (io'.task u).stopped = true := by
    induction moves with
    | refl => exact ⟨books, stopped⟩
    | tail _ move ih => exact ⟨ih.1.move move, move.stays ih.1.slots ih.2⟩
  exact both.2

/-- A run takes no stop back. -/
theorem CalmRuns.stays (sane : Sane False io) (run : CalmRuns io io') (stopped : (io.task u).stopped = true) :
    Sane False io' ∧ (io'.task u).stopped = true := by
  refine Machine.Path.invariant (fun io => Sane False io ∧ (io.task u).stopped = true) ?_ run ⟨sane, stopped⟩
  rintro io label next ⟨sane, stopped⟩ ⟨may, calm⟩ taken
  exact ⟨sane.step may (.inr calm) taken,
    Moves.stays sane.books (sane.moves may (.inr calm) taken) stopped⟩

/-! ### A granted cancel -/

/-- A task that ends as canceled in a slot is stopped. -/
theorem cancelSlot_stopped (books : Books False (io.cancelSlot t)) (ptr : (io.task t).res.ptr = none) :
    ((io.cancelSlot t).task t).stopped = true := by
  obtain ⟨k, n, isNext, done, status⟩ := cancelSlot_eq ptr
  have ended : ((io.cancelSlot t).task t).done = true ∧ ((io.cancelSlot t).task t).res.status = .canceled := by
    rw [isNext]
    simpa [setTask] using ⟨done, status⟩
  exact (((books.told t).resolve_left id).ended ended.1).mp ended.2

/-- A cancel that is granted stops the task. -/
theorem implCancel_stops (books : Books False io) (calm : io.patient (.user (.cancel t)))
    (granted : (io.implCancel t).2 = 0) : ((io.implCancel t).1.task t).stopped = true := by
  have after := books.moves (implCancel_moves (t := t) books (.inr calm))
  have pool : (io.uvCancel t).2 = 0 → ((io.uvCancel t).1.task t).stopped = true := by
    unfold uvCancel
    split
    · intro _; simp
    · intro refused; cases refused
  revert granted after
  unfold implCancel
  split
  · intro refused; cases refused
  rename_i before
  have before : (io.task t).done = false := by simpa using before
  have ptr : (io.task t).res.ptr = none := by simp [(books.plain t).1 before]
  split
  · intro _ after
    exact cancelSlot_stopped after (by simp [timerClose, ptr])
  · exact fun granted _ => pool granted
  · exact fun granted _ => pool granted
  · rename_i kind
    obtain ⟨s, on, stage⟩ := books.connects.stage t ⟨kind, before⟩
    have named : io.sockOf t = s := by simp [sockOf, on]
    split
    · exact fun granted _ => pool granted
    · rename_i shaking
      intro _ _
      have shaking : (io.task t).connecting = true := by simpa using shaking
      have req : (io.task t).req = .onHandle := by
        rcases stage with ⟨looking, _⟩ | ⟨_, req, _⟩
        · rw [shaking] at looking; cases looking
        · exact req
      rw [named, sockDestroy_eq]
      -- A socket that is closing already has stopped its handshake before.
      cases closing : (io.sock s).closing with
      | true =>
        have told := ((books.told t).resolve_left id).shake before kind shaking s on
        simp [halted, told.mpr closing]
      | false => simp [halted, struck, kind, req, on, closing]
  · intro _ after
    exact cancelSlot_stopped after ptr
  · intro _ after
    exact cancelSlot_stopped after ptr
  · intro refused; cases refused
  · intro refused; cases refused

/-- A cancel that is refused changes nothing. -/
theorem implCancel_refused (refused : (io.implCancel t).2 ≠ 0) : (io.implCancel t).1 = io := by
  have pool : (io.uvCancel t).2 ≠ 0 → (io.uvCancel t).1 = io := by
    unfold uvCancel
    split
    · intro granted; exact absurd rfl granted
    · exact fun _ => rfl
  revert refused
  unfold implCancel
  split
  · exact fun _ => rfl
  split
  · intro granted; exact absurd rfl granted
  · exact pool
  · exact pool
  · split
    · exact pool
    · intro granted; exact absurd rfl granted
  · intro granted; exact absurd rfl granted
  · intro granted; exact absurd rfl granted
  · exact fun _ => rfl
  · exact fun _ => rfl

/--
In every run that takes no lookup back and tears nothing down during one, a task is canceled at its
end iff it was stopped; a cancel that was granted is followed by that end in every order of the
callbacks after it, and one that was refused changed nothing.
-/
theorem cancel_is_kept (run : CalmRuns Io.new io) (t : TaskId) :
    ((io.task t).done = true → ((io.task t).res.status = .canceled ↔ (io.task t).stopped = true)) ∧
    ((io.implCancel t).2 ≠ 0 → (io.implCancel t).1 = io) ∧
    ∀ io' last, io.allowed (.user (.cancel t)) = true → io.patient (.user (.cancel t)) →
      (io.implCancel t).2 = 0 → io.step (.user (.cancel t)) = some io' → CalmRuns io' last →
      (last.task t).done = true → (last.task t).res.status = .canceled := by
  have sane := run.sane
  refine ⟨((sane.books.told t).resolve_left id).ended, implCancel_refused,
    fun io' last may calm granted taken later done => ?_⟩
  have next := sane.step may (.inr calm) taken
  have stopped : (io'.task t).stopped = true := by
    rw [step_call taken]
    exact implCancel_stops sane.books calm granted
  obtain ⟨end_, still⟩ := later.stays next stopped
  exact (((end_.books.told t).resolve_left id).ended done).mpr still

/-- Labels that neither take an operation back nor tear anything down. -/
def spares : Label → Bool
  | .user (.cancel _) | .user (.taskFree _) | .user .destroy => false
  | _ => true

theorem CalmRuns.of_spares (labels : List Label)
    (checked : Machine.legal step (fun io label => io.allowed label && spares label) io labels = true) :
    CalmRuns io (Machine.drive step io labels) := by
  refine .of_legal _ (fun io label both => ?_) labels (.refl io) checked
  obtain ⟨may, spared⟩ := Bool.and_eq_true_iff.mp both
  refine ⟨may, ?_⟩
  unfold patient
  split
  · cases spared
  · cases spared
  · cases spared
  · trivial

/-- A connect in its handshake. -/
def handshake : Io :=
  Machine.drive step Io.new
    [.user (.tcpConnect 0), .pool 0, .user .step, .loop (.gai 0 0 0), .turnEnd]

/-- Its cancel is granted, and the callback that follows ends it. -/
theorem cancel_is_kept_handshake :
    (handshake.implCancel 0).2 = 0 ∧
      ((Machine.drive step (handshake.call (.cancel 0)) [.user .step, .loop (.connect 0 (-125))]).task 0).res.status =
        .canceled := by
  have run : CalmRuns Io.new handshake := .of_spares _ (by decide +kernel)
  have granted : (handshake.implCancel 0).2 = 0 := by decide +kernel
  have idle : handshake.user = .idle := by decide +kernel
  have taken : handshake.step (.user (.cancel 0)) = some (handshake.call (.cancel 0)) := by rw [step, if_pos idle]
  have calm : handshake.patient (.user (.cancel 0)) := by
    simp only [patient]
    decide +kernel
  exact ⟨granted, (cancel_is_kept run 0).2.2 _ _ (by decide +kernel) calm granted taken
    (.of_spares _ (by decide +kernel)) (by decide +kernel)⟩

end Myio.Uv.Io
