import Mathlib.Data.List.Basic
import Mathlib.Logic.Function.Basic

/-! Intrusive singly linked queues: a head, a tail, and a link inside every member. -/

namespace Machine

open Function (update)

/-- The three kinds of pointers a queue is made of. -/
structure Chain (Node : Type) where
  head : Option Node
  tail : Option Node
  next : Node → Option Node

namespace Chain

variable {Node : Type} [DecidableEq Node]

/-- Appends a node behind the tail. -/
def push (q : Chain Node) (n : Node) : Chain Node :=
  match q.tail with
  | some last => { q with next := update (update q.next n none) last (some n), tail := some n }
  | none => { head := some n, tail := some n, next := update q.next n none }

/-- Detaches the head. -/
def pop (q : Chain Node) : Chain Node :=
  match q.head with
  | none => q
  | some n =>
    { head := q.next n, tail := if (q.next n).isNone then none else q.tail,
      next := update q.next n none }

/-- Takes `n` out, with `prev` the node before it. -/
def unlink (q : Chain Node) (prev : Option Node) (n : Node) : Chain Node :=
  { head := if prev.isSome then q.head else q.next n
    tail := if q.tail = some n then prev else q.tail
    next := match prev with
      | some before => update (update q.next before (q.next n)) n none
      | none => update q.next n none }

/-- The search for a member, over at most as many nodes as the first argument says. -/
def removeFrom (q : Chain Node) (n : Node) : Nat → Option Node → Option Node → Chain Node
  | 0, _, _ => q
  | _ + 1, _, none => q
  | fuel + 1, prev, some c =>
    if c = n then q.unlink prev n else removeFrom q n fuel (some c) (q.next c)

/-- Unlinks a member wherever it is; a node not found changes nothing. -/
def remove (q : Chain Node) (fuel : Nat) (n : Node) : Chain Node :=
  q.removeFrom n fuel none q.head

/-- Following the links from the first pointer visits the list and arrives at the last pointer. -/
def Seg (next : Node → Option Node) : Option Node → List Node → Option Node → Prop
  | first, [], last => first = last
  | first, n :: rest, last => first = some n ∧ Seg next (next n) rest last

/-- The queue's pointers represent this list of its members, from head to tail. -/
structure Holds (q : Chain Node) (members : List Node) : Prop where
  links : Seg q.next q.head members none
  tail : q.tail = members.getLast?
  nodup : members.Nodup

omit [DecidableEq Node] in
theorem Seg.append {next : Node → Option Node} {first last : Option Node} :
    ∀ {l k : List Node}, Seg next first (l ++ k) last ↔
      ∃ middle, Seg next first l middle ∧ Seg next middle k last := by
  intro l
  induction l generalizing first with
  | nil => intro k; simp [Seg]
  | cons n rest ih =>
    intro k
    simp only [List.cons_append, Seg, ih]
    constructor
    · rintro ⟨here, middle, left, right⟩
      exact ⟨middle, ⟨here, left⟩, right⟩
    · rintro ⟨middle, ⟨here, left⟩, right⟩
      exact ⟨here, middle, left, right⟩

/-- A link outside the segment does not matter to it. -/
theorem Seg.update {next : Node → Option Node} {n : Node} {link : Option Node} {last : Option Node} :
    ∀ {l : List Node} {first : Option Node}, n ∉ l → Seg next first l last →
      Seg (update next n link) first l last := by
  intro l
  induction l with
  | nil => intro first _ seg; exact seg
  | cons m rest ih =>
    intro first outside seg
    obtain ⟨other, below⟩ := List.ne_and_not_mem_of_not_mem_cons outside
    refine ⟨seg.1, ?_⟩
    rw [Function.update_of_ne (Ne.symm other)]
    exact ih below seg.2

omit [DecidableEq Node] in
/-- A segment is known by the links of its members. -/
theorem Seg.congr {next next' : Node → Option Node} {last : Option Node} :
    ∀ {l : List Node} {first : Option Node}, (∀ n ∈ l, next' n = next n) →
      Seg next first l last → Seg next' first l last := by
  intro l
  induction l with
  | nil => intro first _ seg; exact seg
  | cons n rest ih =>
    intro first same seg
    refine ⟨seg.1, ?_⟩
    rw [same n (by simp)]
    exact ih (fun m member => same m (by simp [member])) seg.2

omit [DecidableEq Node] in
/-- Where a segment starts. -/
theorem Seg.head? {next : Node → Option Node} {first : Option Node} {l : List Node}
    (seg : Seg next first l none) : first = l.head? := by
  cases l with
  | nil => exact seg
  | cons n rest => exact seg.1

variable {q : Chain Node} {members : List Node}

omit [DecidableEq Node] in
/-- Both ends are null exactly when the queue is empty. -/
theorem Holds.ends (holds : q.Holds members) :
    q.head = members.head? ∧ q.tail = members.getLast? := ⟨holds.links.head?, holds.tail⟩

omit [DecidableEq Node] in
/-- A queue is known by its ends and the links of its members. -/
theorem Holds.congr {q' : Chain Node} (holds : q.Holds members) (head : q'.head = q.head)
    (tail : q'.tail = q.tail) (next : ∀ n ∈ members, q'.next n = q.next n) : q'.Holds members :=
  ⟨by rw [head]; exact holds.links.congr next, by rw [tail]; exact holds.tail, holds.nodup⟩

/-- A node that is not a member goes to the end. -/
theorem Holds.push (holds : q.Holds members) {n : Node} (outside : n ∉ members) :
    (q.push n).Holds (members ++ [n]) := by
  have nodup : (members ++ [n]).Nodup := by
    rw [List.nodup_append]
    refine ⟨holds.nodup, by simp, ?_⟩
    intro m there k last same
    rw [List.mem_singleton] at last
    rw [same, last] at there
    exact outside there
  rcases members.eq_nil_or_concat with rfl | ⟨before, last, rfl⟩
  · -- An empty queue: the node becomes both ends.
    have empty : q.tail = none := holds.tail
    refine ⟨?_, ?_, nodup⟩ <;> simp [Chain.push, empty, Seg]
  · rw [List.concat_eq_append] at holds outside nodup ⊢
    have tail : q.tail = some last := by rw [holds.tail]; simp
    obtain ⟨apart, own⟩ : n ∉ before ∧ n ≠ last := by simpa using outside
    have fresh : last ∉ before := by
      have := holds.nodup
      rw [List.nodup_append] at this
      exact fun there => this.2.2 last there last (by simp) rfl
    refine ⟨?_, by simp [Chain.push, tail], nodup⟩
    obtain ⟨middle, left, right⟩ := Seg.append.mp holds.links
    simp only [Chain.push, tail]
    refine Seg.append.mpr ⟨some n, Seg.append.mpr ⟨middle, ?_, right.1, ?_⟩, rfl, ?_⟩
    · exact (left.update apart).update fresh
    · simp [Seg]
    · rw [Function.update_of_ne own, Function.update_self]
      rfl

/-- The head leaves, and the next member is the head. -/
theorem Holds.pop (holds : q.Holds members) : q.pop.Holds members.tail := by
  cases members with
  | nil =>
    have empty : q.head = none := holds.links
    simpa [Chain.pop, empty] using holds
  | cons n rest =>
    have head : q.head = some n := holds.links.1
    have outside := (List.nodup_cons.mp holds.nodup).1
    have next : q.next n = rest.head? := Seg.head? holds.links.2
    simp only [Chain.pop, head]
    refine ⟨Seg.update outside holds.links.2, ?_, (List.nodup_cons.mp holds.nodup).2⟩
    cases rest with
    | nil => simp [next]
    | cons m rest => simp [next, holds.tail]

/-- A member leaves from between its neighbours. -/
theorem Holds.unlink {before after : List Node} {n : Node} (holds : q.Holds (before ++ n :: after)) :
    (q.unlink before.getLast? n).Holds (before ++ after) := by
  have nodup := holds.nodup
  rw [List.nodup_append, List.nodup_cons] at nodup
  obtain ⟨nodupBefore, ⟨outAfter, nodupAfter⟩, apart⟩ := nodup
  have outBefore : n ∉ before := fun there => apart n there n (by simp) rfl
  have left : (before ++ after).Nodup := by
    rw [List.nodup_append]
    exact ⟨nodupBefore, nodupAfter, fun m there k behind => apart m there k (by simp [behind])⟩
  obtain ⟨middle, links, rest⟩ := Seg.append.mp holds.links
  obtain ⟨rfl, rest⟩ := rest
  have tail : (q.unlink before.getLast? n).tail = (before ++ after).getLast? := by
    simp only [Chain.unlink, holds.tail]
    rcases after.eq_nil_or_concat with rfl | ⟨after, last, rfl⟩
    · simp
    · have other : last ≠ n := by
        rintro rfl
        exact outAfter (by simp)
      have split : before ++ n :: after.concat last = (before ++ n :: after) ++ [last] := by simp
      rw [split, List.getLast?_concat]
      simp [other]
  refine ⟨?_, tail, left⟩
  rcases before.eq_nil_or_concat with rfl | ⟨before, prev, rfl⟩
  · exact Seg.update outAfter rest
  · rw [List.concat_eq_append] at *
    have own : prev ≠ n := by
      rintro rfl
      exact outBefore (by simp)
    have prevOut : prev ∉ before := by
      rw [List.nodup_append] at nodupBefore
      exact fun there => nodupBefore.2.2 prev there prev (by simp) rfl
    have prevAfter : prev ∉ after := fun there => apart prev (by simp) prev (by simp [there]) rfl
    obtain ⟨start, first, here, _⟩ := Seg.append.mp links
    have apartBefore : n ∉ before := fun there => outBefore (by simp [there])
    simp only [Chain.unlink, List.getLast?_concat, Option.isSome_some, if_true]
    refine Seg.append.mpr ⟨q.next n, Seg.append.mpr ⟨start, ?_, here, ?_⟩, ?_⟩
    · exact (first.update prevOut).update apartBefore
    · rw [Function.update_of_ne own, Function.update_self]
      rfl
    · exact (rest.update prevAfter).update outAfter

/-- The search takes the node out of the part it has not walked yet. -/
theorem Holds.removeFrom {n : Node} : ∀ {after before : List Node} {fuel : Nat},
    q.Holds (before ++ after) → n ∉ before → after.length ≤ fuel →
      (q.removeFrom n fuel before.getLast? after.head?).Holds (before ++ after.erase n) := by
  intro after
  induction after with
  | nil =>
    intro before fuel holds _ _
    cases fuel <;> simpa [Chain.removeFrom] using holds
  | cons c rest ih =>
    intro before fuel holds outside enough
    cases fuel with
    | zero => simp at enough
    | succ fuel =>
      simp only [List.head?_cons, Chain.removeFrom]
      by_cases found : c = n
      · subst found
        rw [if_pos rfl, List.erase_cons_head]
        exact holds.unlink
      · rw [if_neg found, List.erase_cons_tail (by simpa using found)]
        have walked : q.Holds ((before ++ [c]) ++ rest) := by simpa using holds
        obtain ⟨middle, _, links⟩ := Seg.append.mp holds.links
        have next : q.next c = rest.head? := Seg.head? links.2
        have later := ih walked (by simp [outside, Ne.symm found]) (by simpa using enough)
        rw [next]
        simpa using later

/-- A member leaves the queue, and a node that is none changes nothing. -/
theorem Holds.remove (holds : q.Holds members) (n : Node) {fuel : Nat}
    (enough : members.length ≤ fuel) : (q.remove fuel n).Holds (members.erase n) := by
  have search : (q.removeFrom n fuel ([] : List Node).getLast? members.head?).Holds
      ([] ++ members.erase n) := Holds.removeFrom holds List.not_mem_nil enough
  rw [Chain.remove, holds.links.head?]
  exact search

/-- Appending touches only the links of the node and of the tail. -/
theorem push_next (q : Chain Node) {n m : Node} (new : m ≠ n) (inner : q.tail ≠ some m) :
    (q.push n).next m = q.next m := by
  unfold push
  split
  · rename_i last tail
    have other : m ≠ last := fun same => inner (by rw [tail, same])
    simp [Function.update_of_ne other, Function.update_of_ne new]
  · simp [Function.update_of_ne new]

/-- Detaching the head touches only its link. -/
theorem pop_next (q : Chain Node) {m : Node} (other : q.head ≠ some m) : q.pop.next m = q.next m := by
  unfold pop
  split
  · rfl
  · rename_i n head
    have apart : m ≠ n := fun same => other (by rw [head, same])
    simp [Function.update_of_ne apart]

/-- The search touches only the links of members. -/
theorem Holds.removeFrom_next {n m : Node} : ∀ {after before : List Node} {fuel : Nat},
    q.Holds (before ++ after) → m ∉ before ++ after →
      (q.removeFrom n fuel before.getLast? after.head?).next m = q.next m := by
  intro after
  induction after with
  | nil => intro before fuel _ _; cases fuel <;> rfl
  | cons c rest ih =>
    intro before fuel holds outside
    cases fuel with
    | zero => rfl
    | succ fuel =>
      simp only [List.head?_cons, Chain.removeFrom]
      by_cases found : c = n
      · subst found
        rw [if_pos rfl]
        have own : m ≠ c := by rintro rfl; exact outside (by simp)
        rcases before.eq_nil_or_concat with rfl | ⟨before, prev, rfl⟩
        · simp [Chain.unlink, Function.update_of_ne own]
        · have other : m ≠ prev := by rintro rfl; exact outside (by simp)
          simp [Chain.unlink, Function.update_of_ne own, Function.update_of_ne other]
      · rw [if_neg found]
        have walked : q.Holds ((before ++ [c]) ++ rest) := by simpa using holds
        obtain ⟨middle, _, links⟩ := Seg.append.mp holds.links
        have next : q.next c = rest.head? := Seg.head? links.2
        have later := @ih (before ++ [c]) fuel walked (by simpa using outside)
        rw [next]
        simpa using later

theorem Holds.remove_next (holds : q.Holds members) (n : Node) {m : Node} (fuel : Nat)
    (outside : m ∉ members) : (q.remove fuel n).next m = q.next m := by
  have search : (q.removeFrom n fuel ([] : List Node).getLast? members.head?).next m = q.next m :=
    Holds.removeFrom_next holds outside
  rw [Chain.remove, holds.links.head?]
  exact search

end Chain

end Machine
