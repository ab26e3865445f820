import Mathlib.Data.List.Basic

/-! Things that arrive one by one, and are handed over in order, parked or dropped. -/

namespace Machine

/-- What has arrived, what became of it, and what still waits. -/
structure Handover (Item Taker : Type) where
  /-- Everything, in order of arrival. -/
  arrived : List Item := []
  /-- What was handed over, and to whom. -/
  handed : List (Taker × Item) := []
  dropped : List Item := []
  parked : List Item := []

namespace Handover

variable {Item Taker : Type} {q : Handover Item Taker} {t : Taker} {x : Item} {rest : List Item}

/-- Nothing is lost, doubled or out of order: what was handed over came before what was not. -/
structure Kept (q : Handover Item Taker) : Prop where
  all : q.arrived = q.handed.map Prod.snd ++ (q.dropped ++ q.parked)
  /-- What waits is dropped all at once. -/
  once : q.dropped = [] ∨ q.parked = []

/-- Something arrives and has to wait. -/
def park (q : Handover Item Taker) (x : Item) : Handover Item Taker :=
  { q with arrived := q.arrived ++ [x], parked := q.parked ++ [x] }

/-- Something arrives for one who waits. -/
def pass (q : Handover Item Taker) (t : Taker) (x : Item) : Handover Item Taker :=
  { q with arrived := q.arrived ++ [x], handed := q.handed ++ [(t, x)] }

/-- One takes what has waited longest. -/
def serve (q : Handover Item Taker) (t : Taker) (x : Item) (rest : List Item) : Handover Item Taker :=
  { q with handed := q.handed ++ [(t, x)], parked := rest }

/-- All that waits is dropped. -/
def shut (q : Handover Item Taker) : Handover Item Taker :=
  { q with dropped := q.dropped ++ q.parked, parked := [] }

namespace Kept

theorem new : Kept ({} : Handover Item Taker) := ⟨rfl, .inl rfl⟩

theorem park (kept : Kept q) (none : q.dropped = []) (x : Item) : Kept (q.park x) := by
  refine ⟨?_, .inl none⟩
  simp [Handover.park, kept.all]

theorem pass (kept : Kept q) (none : q.dropped = []) (empty : q.parked = []) (t : Taker) (x : Item) :
    Kept (q.pass t x) := by
  refine ⟨?_, .inl none⟩
  simp [Handover.pass, kept.all, none, empty]

theorem serve (kept : Kept q) (first : q.parked = x :: rest) (t : Taker) : Kept (q.serve t x rest) := by
  have none : q.dropped = [] := kept.once.resolve_right (by simp [first])
  refine ⟨?_, .inl none⟩
  simp [Handover.serve, kept.all, none, first]

theorem shut (kept : Kept q) : Kept q.shut := by
  refine ⟨?_, .inr rfl⟩
  simp [Handover.shut, kept.all]

/-- Things are handed over in the order in which they arrived. -/
theorem ordered (kept : Kept q) : q.handed.map Prod.snd <+: q.arrived :=
  ⟨q.dropped ++ q.parked, kept.all.symm⟩

end Kept

end Handover

end Machine
