import Mathlib.Logic.Relation

/-! Paths of a labelled machine, and the induction that carries an invariant along them. -/

namespace Machine

variable {State Label : Type}

/--
The states a machine passes through when every label taken is one the environment allows.

The machine is a partial function: a label that is not enabled has no successor.
-/
inductive Path (step : State → Label → Option State) (allow : State → Label → Prop) :
    State → State → Prop
  | refl (start : State) : Path step allow start start
  | snoc {start middle last : State} {label : Label} (before : Path step allow start middle)
      (allowed : allow middle label) (taken : step middle label = some last) :
      Path step allow start last

variable {step : State → Label → Option State} {allow : State → Label → Prop}

/-- What every allowed step preserves holds at the end of every path. -/
theorem Path.invariant (Holds : State → Prop)
    (preserved : ∀ state label next, Holds state → allow state label →
      step state label = some next → Holds next)
    {start last : State} (path : Path step allow start last) (initially : Holds start) :
    Holds last := by
  -- The path grows at its end, so the hypothesis covers everything before the last step.
  induction path with
  | refl => exact initially
  | snoc before allowed taken ih => exact preserved _ _ _ ih allowed taken

/-- An environment that allows less leaves fewer paths. -/
theorem Path.mono {allow' : State → Label → Prop}
    (weaker : ∀ state label, allow state label → allow' state label)
    {start last : State} (path : Path step allow start last) : Path step allow' start last := by
  induction path with
  | refl => exact .refl _
  | snoc before allowed taken ih => exact .snoc ih (weaker _ _ allowed) taken

/-- Paths compose end to end. -/
theorem Path.trans {start middle last : State} (first : Path step allow start middle)
    (second : Path step allow middle last) : Path step allow start last := by
  induction second with
  | refl => exact first
  | snoc before allowed taken ih => exact .snoc ih allowed taken

/-- Where a list of labels leads, stopping at the first label that is not enabled. -/
def drive (step : State → Label → Option State) : State → List Label → State
  | state, [] => state
  | state, label :: rest =>
    match step state label with
    | some next => drive step next rest
    | none => state

/-- An enabled label drives the machine one step. -/
theorem drive_one {state : State} {label : Label} (enabled : (step state label).isSome = true) :
    step state label = some (drive step state [label]) := by
  cases taken : step state label with
  | none => simp [taken] at enabled
  | some next => simp [drive, taken]

/-- Whether every label of a list is allowed and enabled when its turn comes. -/
def legal (step : State → Label → Option State) (allowed : State → Label → Bool) :
    State → List Label → Bool
  | _, [] => true
  | state, label :: rest =>
    match step state label with
    | some next => allowed state label && legal step allowed next rest
    | none => false

/-- A list of labels that checks out is a path to the state it drives to. -/
theorem Path.of_legal (allowed : State → Label → Bool)
    (sound : ∀ state label, allowed state label = true → allow state label) :
    ∀ (labels : List Label) {start middle : State}, Path step allow start middle →
      legal step allowed middle labels = true →
      Path step allow start (drive step middle labels) := by
  -- Each label extends the path already built by one step.
  intro labels
  induction labels with
  | nil => intro _ _ path _; exact path
  | cons label rest ih =>
    intro start middle path checked
    cases taken : step middle label with
    | none => simp [legal, taken] at checked
    | some next =>
      simp only [legal, taken, Bool.and_eq_true] at checked
      simp only [drive, taken]
      exact ih (path.snoc (sound _ _ checked.1) taken) checked.2

end Machine
