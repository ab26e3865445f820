import Myio.Lib.Chain
import Myio.Wq

/-! The FIFO of `myio_wq.h` in the memory it lives in, and the lists its pointers stand for. -/

namespace Myio.WqHeap

open Function (update)
open Machine (Chain)

variable {Node Queue : Type} [DecidableEq Node] [DecidableEq Queue]

/-- Every `myio_wq_node` with its `next`, and every `myio_wq` with its `head` and `tail`. -/
structure Heap (Node Queue : Type) where
  next : Node → Option Node
  head : Queue → Option Node
  tail : Queue → Option Node

namespace Heap

variable (h : Heap Node Queue)

/-- `myio_wq_push`. -/
def myioWqPush (q : Queue) (n : Node) : Heap Node Queue × Int :=
  let h := { h with next := update h.next n none }
  match h.tail q with
  | some last =>
    ({ h with next := update h.next last (some n), tail := update h.tail q (some n) }, 0)
  | none => ({ h with head := update h.head q (some n), tail := update h.tail q (some n) }, 1)

/-- `myio_wq_pop`; without a head the code follows a null pointer, and there is no answer. -/
def myioWqPop (q : Queue) : Option (Heap Node Queue × Option Node) :=
  (h.head q).map fun n =>
    let h := { h with head := update h.head q (h.next n) }
    let h := if (h.head q).isNone then { h with tail := update h.tail q none } else h
    let h := { h with next := update h.next n none }
    (h, h.head q)

/-- The part of `myio_wq_remove` behind the search, which has stopped at `c`. -/
def unlink (q : Queue) (prev : Option Node) (c n : Node) : Heap Node Queue :=
  let h := match prev with
    | some p => { h with next := update h.next p (h.next c) }
    | none => { h with head := update h.head q (h.next c) }
  let h := if h.tail q = some c then { h with tail := update h.tail q prev } else h
  { h with next := update h.next n none }

/-- The loop of `myio_wq_remove`; there is no answer while the rounds do not suffice. -/
def removeLoop (q : Queue) (n : Node) :
    Nat → Option Node → Option Node → Option (Heap Node Queue × Int)
  | 0, _, _ => none
  | _ + 1, _, none => some (h, 0)
  | rounds + 1, prev, some c =>
    if c ≠ n then removeLoop q n rounds (some c) (h.next c) else some (h.unlink q prev c n, 1)

/-- `myio_wq_remove`. -/
def myioWqRemove (rounds : Nat) (q : Queue) (n : Node) : Option (Heap Node Queue × Int) :=
  h.removeLoop q n rounds none (h.head q)

end Heap

/-- The three operations. -/
inductive Op (Node Queue : Type)
  | push (q : Queue) (n : Node)
  | pop (q : Queue)
  | remove (q : Queue) (n : Node)
  deriving DecidableEq

/-- What an operation returns: a truth value, or a pointer. -/
inductive Ret (Node : Type)
  | int (n : Int)
  | node (n : Option Node)
  deriving DecidableEq

/-- The queue an operation is about. -/
def Op.queue : Op Node Queue → Queue
  | .push q _ => q
  | .pop q => q
  | .remove q _ => q

/-- One call, with as many rounds for a search as the first argument says. -/
def Heap.apply (rounds : Nat) (h : Heap Node Queue) :
    Op Node Queue → Option (Heap Node Queue × Ret Node)
  | .push q n => some ((h.myioWqPush q n).1, .int (h.myioWqPush q n).2)
  | .pop q => (h.myioWqPop q).map fun r => (r.1, .node r.2)
  | .remove q n => (h.myioWqRemove rounds q n).map fun r => (r.1, .int r.2)

/-- A sequence of calls, and what each of them returns. -/
def Heap.applyAll (rounds : Nat) : Heap Node Queue → List (Op Node Queue) →
    Option (Heap Node Queue × List (Ret Node))
  | h, [] => some (h, [])
  | h, op :: ops =>
    (h.apply rounds op).bind fun first =>
      (first.1.applyAll rounds ops).map fun later => (later.1, first.2 :: later.2)

/-! ### The lists -/

/-- What the queues stand for. -/
abbrev Lists (Node Queue : Type) := Queue → List Node

namespace Lists

variable (l : Lists Node Queue)

/-- All queues are empty. -/
def empty : Lists Node Queue := fun _ => []

/-- What an operation does to the lists. -/
def after : Op Node Queue → Lists Node Queue
  | .push q n => update l q (l q ++ [n])
  | .pop q => update l q (l q).tail
  | .remove q n => update l q ((l q).erase n)

/-- What an operation on the lists answers. -/
def answer : Op Node Queue → Ret Node
  | .push q _ => .int (if l q = [] then 1 else 0)
  | .pop q => .node (l q).tail.head?
  | .remove q n => .int (if n ∈ l q then 1 else 0)

/-- What the callers promise: a node is pushed when it is in no queue, and no empty queue is popped. -/
def Allowed : Op Node Queue → Prop
  | .push _ n => ∀ q, n ∉ l q
  | .pop q => l q ≠ []
  | .remove _ _ => True

def afterAll : Lists Node Queue → List (Op Node Queue) → Lists Node Queue
  | l, [] => l
  | l, op :: ops => afterAll (l.after op) ops

def answerAll : Lists Node Queue → List (Op Node Queue) → List (Ret Node)
  | _, [] => []
  | l, op :: ops => l.answer op :: answerAll (l.after op) ops

def AllowedAll : Lists Node Queue → List (Op Node Queue) → Prop
  | _, [] => True
  | l, op :: ops => l.Allowed op ∧ AllowedAll (l.after op) ops

end Lists

/-- The lists are those the backends' models keep in the place of a socket's `wq`. -/
theorem after_eq_wq (l : Lists TaskId Queue) (q : Queue) (n : TaskId) :
    l.after (.push q n) q = (wqPush (l q) n).1 ∧ l.after (.pop q) q = (wqPop (l q)).1 ∧
      l.after (.remove q n) q = wqRemove (l q) n := by
  simp [Lists.after, wqPush, wqPop, wqRemove]

/-! ### The pointers denote the lists -/

/-- The pointers of one queue. -/
def Heap.chain (h : Heap Node Queue) (q : Queue) : Chain Node := ⟨h.head q, h.tail q, h.next⟩

/-- The pointers of every queue represent its list, and no node is on two of them. -/
structure Denotes (h : Heap Node Queue) (l : Lists Node Queue) : Prop where
  holds : ∀ q, (h.chain q).Holds (l q)
  apart : ∀ q r, q ≠ r → ∀ n ∈ l q, n ∉ l r

/-- What one call does besides answering. -/
structure Meets (h h' : Heap Node Queue) (l : Lists Node Queue) (op : Op Node Queue) : Prop where
  denotes : Denotes h' (l.after op)
  /-- A node that leaves the queue points nowhere. -/
  left : ∀ n ∈ l op.queue, n ∉ l.after op op.queue → h'.next n = none
  /-- The other queues keep their ends, and their nodes the links. -/
  others : ∀ r, r ≠ op.queue → h'.head r = h.head r ∧ h'.tail r = h.tail r ∧
    ∀ n ∈ l r, h'.next n = h.next n
  /-- A search for a node that is not there changes nothing. -/
  missed : ∀ q n, op = .remove q n → n ∉ l q → h' = h

section Steps

variable {h : Heap Node Queue} {l : Lists Node Queue} {q : Queue} {n : Node}

omit [DecidableEq Node] [DecidableEq Queue] in
/-- A member of another queue is neither end of this one. -/
theorem Denotes.inner (denotes : Denotes h l) {r : Queue} (other : r ≠ q) {m : Node} (member : m ∈ l r) :
    h.head q ≠ some m ∧ h.tail q ≠ some m := by
  have outside : m ∉ l q := denotes.apart r q other m member
  constructor
  · intro isHead
    rw [show h.head q = (l q).head? from (denotes.holds q).ends.1] at isHead
    exact outside (List.mem_of_head? isHead)
  · intro isTail
    rw [show h.tail q = (l q).getLast? from (denotes.holds q).ends.2] at isTail
    exact outside (List.mem_of_getLast? isTail)

/-- What is left to show of a call that changes the pointers of one queue. -/
theorem Denotes.meets {h' : Heap Node Queue} {op : Op Node Queue} (denotes : Denotes h l)
    (holds : (h'.chain op.queue).Holds (l.after op op.queue))
    (same : ∀ r, r ≠ op.queue → l.after op r = l r)
    (fresh : ∀ r, r ≠ op.queue → ∀ m ∈ l.after op op.queue, m ∉ l r)
    (others : ∀ r, r ≠ op.queue → h'.head r = h.head r ∧ h'.tail r = h.tail r ∧
      ∀ m ∈ l r, h'.next m = h.next m)
    (left : ∀ m ∈ l op.queue, m ∉ l.after op op.queue → h'.next m = none)
    (missed : ∀ p m, op = .remove p m → m ∉ l p → h' = h) : Meets h h' l op := by
  refine ⟨⟨fun r => ?_, fun r p apart m member => ?_⟩, left, others, missed⟩
  · by_cases own : r = op.queue
    · rw [own]
      exact holds
    · rw [same r own]
      obtain ⟨head, tail, next⟩ := others r own
      exact (denotes.holds r).congr head tail next
  · -- Two different queues: at most one of them is the one the call is about.
    by_cases ownR : r = op.queue
    · have ownP : p ≠ op.queue := fun isP => apart (ownR.trans isP.symm)
      rw [same p ownP]
      exact fresh p ownP m (ownR ▸ member)
    · rw [same r ownR] at member
      by_cases ownP : p = op.queue
      · rw [ownP]
        exact fun there => fresh r ownR m there member
      · rw [same p ownP]
        exact denotes.apart r p apart m member

/-- The pointers of the queue a node is pushed to. -/
theorem myioWqPush_chain (h : Heap Node Queue) (q : Queue) (n : Node) :
    (h.myioWqPush q n).1.chain q = (h.chain q).push n := by
  cases tail : h.tail q <;> simp [Heap.myioWqPush, Heap.chain, Chain.push, tail]

theorem myioWqPush_ends (h : Heap Node Queue) {r : Queue} (other : r ≠ q) :
    (h.myioWqPush q n).1.head r = h.head r ∧ (h.myioWqPush q n).1.tail r = h.tail r := by
  cases tail : h.tail q <;> simp [Heap.myioWqPush, tail, Function.update_of_ne other]

/-- `myio_wq_push` appends, and answers whether the queue was empty. -/
theorem Denotes.push (denotes : Denotes h l) (outside : ∀ r, n ∉ l r) :
    (h.myioWqPush q n).2 = (if l q = [] then 1 else 0) ∧
      Meets h (h.myioWqPush q n).1 l (.push q n) := by
  have chain := myioWqPush_chain h q n
  constructor
  · have tail : h.tail q = (l q).getLast? := (denotes.holds q).ends.2
    by_cases isEmpty : l q = []
    · rw [isEmpty] at tail
      simp [Heap.myioWqPush, tail, isEmpty]
    · obtain ⟨last, isLast⟩ := Option.ne_none_iff_exists'.mp (mt List.getLast?_eq_none_iff.mp isEmpty)
      rw [isLast] at tail
      simp [Heap.myioWqPush, tail, isEmpty]
  refine denotes.meets ?_ ?_ ?_ ?_ ?_ ?_
  · simp only [Op.queue, Lists.after, Function.update_self, chain]
    exact (denotes.holds q).push (outside q)
  · intro r other
    exact Function.update_of_ne other _ _
  · intro r other m member
    simp only [Op.queue, Lists.after, Function.update_self, List.mem_append,
      List.mem_singleton] at member other
    rcases member with member | rfl
    · exact denotes.apart q r (Ne.symm other) m member
    · exact outside r
  · intro r other
    obtain ⟨head, tail⟩ := myioWqPush_ends h (n := n) (show r ≠ q from other)
    refine ⟨head, tail, fun m member => ?_⟩
    have new : m ≠ n := fun same => outside r (same ▸ member)
    have link := Chain.push_next (h.chain q) new (denotes.inner other member).2
    rwa [← chain] at link
  · intro m member gone
    simp only [Op.queue, Lists.after, Function.update_self, List.mem_append] at member gone
    exact absurd (Or.inl member) gone
  · intro p m isRemove
    cases isRemove

/-- `myio_wq_pop` on the pointers of its queue, and on those of the others. -/
theorem myioWqPop_chain (head : h.head q = some n) : ∃ h' : Heap Node Queue,
    h.myioWqPop q = some (h', h.next n) ∧ h'.chain q = (h.chain q).pop ∧
      ∀ r, r ≠ q → h'.head r = h.head r ∧ h'.tail r = h.tail r := by
  refine ⟨{ next := update h.next n none, head := update h.head q (h.next n),
            tail := if (h.next n).isNone then update h.tail q none else h.tail }, ?_, ?_, ?_⟩
  · cases isLast : h.next n <;> simp [Heap.myioWqPop, head, isLast]
  · cases isLast : h.next n <;> simp [Heap.chain, Chain.pop, head, isLast]
  · intro r other
    cases isLast : h.next n <;> simp [Function.update_of_ne other]

/-- `myio_wq_pop` drops the first element, and answers with the new first one. -/
theorem Denotes.pop (denotes : Denotes h l) (some : l q ≠ []) :
    ∃ h', h.myioWqPop q = Option.some (h', (l q).tail.head?) ∧ Meets h h' l (.pop q) := by
  obtain ⟨n, rest, list⟩ := List.exists_cons_of_ne_nil some
  have holds := denotes.holds q
  rw [list] at holds
  have head : h.head q = Option.some n := holds.ends.1
  have next : h.next n = rest.head? := Chain.Seg.head? holds.links.2
  obtain ⟨h', popped, chain, ends⟩ := myioWqPop_chain head
  refine ⟨h', by rw [popped, next, list, List.tail_cons], denotes.meets ?_ ?_ ?_ ?_ ?_ ?_⟩
  · simp only [Op.queue, Lists.after, Function.update_self, chain]
    exact (denotes.holds q).pop
  · intro r other
    exact Function.update_of_ne other _ _
  · intro r other m member
    simp only [Op.queue, Lists.after, Function.update_self] at member other
    exact denotes.apart q r (Ne.symm other) m (List.mem_of_mem_tail member)
  · intro r other
    refine ⟨(ends r other).1, (ends r other).2, fun m member => ?_⟩
    have link := Chain.pop_next (h.chain q) (denotes.inner other member).1
    rwa [← chain] at link
  · intro m member gone
    simp only [Op.queue, Lists.after, Function.update_self, list, List.tail_cons] at member gone
    obtain rfl : m = n := (List.mem_cons.mp member).resolve_right gone
    have link : h'.next = (h.chain q).pop.next := congrArg Chain.next chain
    rw [link]
    simp [Chain.pop, Heap.chain, head]
  · intro p m isRemove
    cases isRemove

/-- The search passes the nodes before the one it looks for. -/
theorem removeLoop_found {after : List Node} : ∀ {pre before : List Node} {rounds : Nat},
    (h.chain q).Holds (before ++ (pre ++ n :: after)) → n ∉ pre → pre.length < rounds →
      h.removeLoop q n rounds before.getLast? (pre ++ n :: after).head? =
        some (h.unlink q (before ++ pre).getLast? n n, 1) := by
  intro pre
  induction pre with
  | nil =>
    intro before rounds _ _ enough
    obtain ⟨rounds, rfl⟩ := Nat.exists_eq_succ_of_ne_zero (Nat.ne_of_gt enough)
    simp [Heap.removeLoop]
  | cons c pre ih =>
    intro before rounds holds outside enough
    obtain ⟨rounds, rfl⟩ := Nat.exists_eq_succ_of_ne_zero (Nat.ne_of_gt (Nat.zero_lt_of_lt enough))
    obtain ⟨other, outside⟩ := List.ne_and_not_mem_of_not_mem_cons outside
    obtain ⟨_, _, links⟩ := Chain.Seg.append.mp holds.links
    have next : h.next c = (pre ++ n :: after).head? := Chain.Seg.head? links.2
    have walked : (h.chain q).Holds ((before ++ [c]) ++ (pre ++ n :: after)) := by simpa using holds
    have later := ih walked outside (Nat.lt_of_succ_lt_succ enough)
    simp only [List.cons_append, List.head?_cons, Heap.removeLoop, if_pos (Ne.symm other), next]
    simpa using later

/-- A search that finds nothing walks the whole queue. -/
theorem removeLoop_missed : ∀ {after before : List Node} {rounds : Nat},
    (h.chain q).Holds (before ++ after) → n ∉ after → after.length < rounds →
      h.removeLoop q n rounds before.getLast? after.head? = some (h, 0) := by
  intro after
  induction after with
  | nil =>
    intro before rounds _ _ enough
    obtain ⟨rounds, rfl⟩ := Nat.exists_eq_succ_of_ne_zero (Nat.ne_of_gt enough)
    rfl
  | cons c after ih =>
    intro before rounds holds outside enough
    obtain ⟨rounds, rfl⟩ := Nat.exists_eq_succ_of_ne_zero (Nat.ne_of_gt (Nat.zero_lt_of_lt enough))
    obtain ⟨other, outside⟩ := List.ne_and_not_mem_of_not_mem_cons outside
    obtain ⟨_, _, links⟩ := Chain.Seg.append.mp holds.links
    have next : h.next c = after.head? := Chain.Seg.head? links.2
    have walked : (h.chain q).Holds ((before ++ [c]) ++ after) := by simpa using holds
    have later := ih walked outside (Nat.lt_of_succ_lt_succ enough)
    simp only [List.head?_cons, Heap.removeLoop, if_pos (Ne.symm other), next]
    simpa using later

/-- The pointers of the queue a node is unlinked from, and those of the others. -/
theorem unlink_chain (h : Heap Node Queue) (q : Queue) (prev : Option Node) (n : Node) :
    (h.unlink q prev n n).chain q = (h.chain q).unlink prev n ∧
      ∀ r, r ≠ q → (h.unlink q prev n n).head r = h.head r ∧
        (h.unlink q prev n n).tail r = h.tail r := by
  by_cases isTail : h.tail q = some n <;> cases prev <;>
    simp +contextual [Heap.unlink, Heap.chain, Chain.unlink, isTail, Function.update_of_ne]

/-- Taking a node out touches only its link and that of the node before it. -/
theorem unlink_next (h : Heap Node Queue) {prev : Option Node} {m : Node} (own : m ≠ n)
    (before : prev ≠ some m) : (h.unlink q prev n n).next m = h.next m := by
  cases prev with
  | none => by_cases isTail : h.tail q = some n <;> simp [Heap.unlink, isTail, own]
  | some p =>
    have other : m ≠ p := fun same => before (congrArg some same.symm)
    by_cases isTail : h.tail q = some n <;> simp [Heap.unlink, isTail, own, other]

/-- `myio_wq_remove` deletes the given node wherever it is, and answers whether it was there. -/
theorem Denotes.remove (denotes : Denotes h l) {rounds : Nat} (enough : (l q).length < rounds) :
    ∃ h', h.myioWqRemove rounds q n = some (h', if n ∈ l q then 1 else 0) ∧
      Meets h h' l (.remove q n) := by
  have start : h.head q = (l q).head? := (denotes.holds q).ends.1
  have same (r : Queue) (other : r ≠ q) : l.after (.remove q n) r = l r :=
    Function.update_of_ne other _ _
  have fresh (r : Queue) (other : r ≠ q) : ∀ m ∈ l.after (.remove q n) q, m ∉ l r := by
    intro m member
    simp only [Lists.after, Function.update_self] at member
    exact denotes.apart q r (Ne.symm other) m (List.mem_of_mem_erase member)
  unfold Heap.myioWqRemove
  rw [start]
  by_cases member : n ∈ l q
  · -- The node splits the list, and the search stops behind the first part.
    obtain ⟨pre, after, list, outside⟩ := List.eq_append_cons_of_mem member
    have holds := denotes.holds q
    rw [list] at holds enough
    have short : pre.length < rounds := by
      simp only [List.length_append, List.length_cons] at enough
      omega
    have found : h.removeLoop q n rounds ([] : List Node).getLast? (pre ++ n :: after).head? =
        some (h.unlink q ([] ++ pre).getLast? n n, 1) := removeLoop_found holds outside short
    obtain ⟨chain, ends⟩ := unlink_chain h q pre.getLast? n
    have left : l.after (.remove q n) q = pre ++ after := by
      simp [Lists.after, list, List.erase_append_right _ outside]
    refine ⟨h.unlink q pre.getLast? n n, by rw [if_pos member, list]; exact found,
      denotes.meets ?_ same fresh ?_ ?_ ?_⟩
    · rw [Op.queue, left, chain]
      exact holds.unlink
    · intro r other
      refine ⟨(ends r other).1, (ends r other).2, fun m there => ?_⟩
      have apart : m ∉ l q := denotes.apart r q other m there
      rw [list] at apart
      apply unlink_next
      · rintro rfl
        exact apart (by simp)
      · intro isPrev
        exact apart (by simp [List.mem_of_getLast? isPrev])
    · intro m there gone
      rw [Op.queue, left] at gone
      rw [Op.queue, list] at there
      obtain rfl : m = n := by
        simp only [List.mem_append, List.mem_cons, not_or] at there gone
        tauto
      simp [Heap.unlink]
    · intro p m isRemove missed
      cases isRemove
      exact absurd member missed
  · have missed := @removeLoop_missed _ _ _ _ h q n (l q) [] rounds (denotes.holds q) member enough
    refine ⟨h, by rw [if_neg member]; exact missed, denotes.meets ?_ same fresh ?_ ?_ ?_⟩
    · simp only [Op.queue, Lists.after, Function.update_self, List.erase_of_not_mem member]
      exact denotes.holds q
    · intro r _
      exact ⟨rfl, rfl, fun _ _ => rfl⟩
    · intro m there gone
      simp only [Op.queue, Lists.after, Function.update_self, List.erase_of_not_mem member] at there gone
      exact absurd there gone
    · intro p m _ _
      rfl

/-- One allowed call answers as the lists do, and leaves pointers that denote the new lists. -/
theorem Denotes.apply (denotes : Denotes h l) {op : Op Node Queue} (allowed : l.Allowed op)
    {rounds : Nat} (enough : (l op.queue).length < rounds) :
    ∃ h', h.apply rounds op = some (h', l.answer op) ∧ Meets h h' l op := by
  cases op with
  | push q n =>
    obtain ⟨answer, meets⟩ := denotes.push (q := q) allowed
    exact ⟨_, by rw [Heap.apply, Lists.answer, answer], meets⟩
  | pop q =>
    obtain ⟨h', popped, meets⟩ := denotes.pop allowed
    exact ⟨h', by rw [Heap.apply, popped]; rfl, meets⟩
  | remove q n =>
    obtain ⟨h', removed, meets⟩ := denotes.remove (q := q) (n := n) enough
    exact ⟨h', by rw [Heap.apply, removed]; rfl, meets⟩

omit [DecidableEq Node] [DecidableEq Queue] in
/-- Null ends denote empty lists. -/
theorem Denotes.empty (null : ∀ q, h.head q = none ∧ h.tail q = none) :
    Denotes h (Lists.empty : Lists Node Queue) where
  holds q := ⟨(null q).1, (null q).2, List.nodup_nil⟩
  apart _ _ _ _ member := absurd member List.not_mem_nil

/-- A call makes no list longer by more than one node. -/
theorem after_length (l : Lists Node Queue) (op : Op Node Queue) (r : Queue) :
    (l.after op r).length ≤ (l r).length + 1 := by
  cases op with
  | push q n => by_cases own : r = q <;> simp [Lists.after, own]
  | pop q =>
    by_cases own : r = q <;> simp [Lists.after, own]
    omega
  | remove q n =>
    have shorter : ((l q).erase n).length ≤ (l q).length := List.length_erase_le
    by_cases own : r = q <;> simp [Lists.after, own]
    omega

/-- A sequence of allowed calls answers as the lists do, and leaves pointers that denote them. -/
theorem Denotes.applyAll {rounds : Nat} : ∀ (ops : List (Op Node Queue)) {h : Heap Node Queue}
    {l : Lists Node Queue}, Denotes h l → l.AllowedAll ops →
      (∀ q, (l q).length + ops.length < rounds) →
      ∃ h', h.applyAll rounds ops = some (h', l.answerAll ops) ∧ Denotes h' (l.afterAll ops) ∧
        ∀ q, (l.afterAll ops q).length < rounds := by
  intro ops
  induction ops with
  | nil =>
    intro h l denotes _ enough
    exact ⟨h, rfl, denotes, enough⟩
  | cons op ops ih =>
    intro h l denotes allowed enough
    simp only [List.length_cons] at enough
    obtain ⟨h₁, first, meets⟩ := denotes.apply allowed.1
      (show (l op.queue).length < rounds by have := enough op.queue; omega)
    obtain ⟨h', later, denotes', bound⟩ := ih meets.denotes allowed.2 fun q => by
      have := enough q
      have := after_length l op q
      omega
    refine ⟨h', ?_, denotes', bound⟩
    simp [Heap.applyAll, first, later, Lists.answerAll]

end Steps

/--
The FIFO of `myio_wq.h` refines a list, over every sequence of calls on any number of queues.

The calls answer what the lists answer. The pointers always denote the lists: following `next` from
`head` visits each member once and ends behind `tail`, and both ends are null exactly when the list
is empty. Whatever is called next, the search in it comes to an end, and the call changes its own
list only, takes nothing but the given node out, and leaves what it takes out with a null `next`.
-/
theorem wq_refines_lists (h : Heap Node Queue) (null : ∀ q, h.head q = none ∧ h.tail q = none)
    (ops : List (Op Node Queue)) (allowed : Lists.empty.AllowedAll ops) {rounds : Nat}
    (enough : ops.length < rounds) :
    ∃ h', h.applyAll rounds ops = some (h', Lists.empty.answerAll ops) ∧
      Denotes h' (Lists.empty.afterAll ops) ∧
      (∀ q, (h'.head q = none ∧ h'.tail q = none ↔ Lists.empty.afterAll ops q = []) ∧
        h'.tail q = (Lists.empty.afterAll ops q).getLast? ∧ (Lists.empty.afterAll ops q).Nodup) ∧
      ∀ op, (Lists.empty.afterAll ops).Allowed op →
        ∃ h'', h'.apply rounds op = some (h'', (Lists.empty.afterAll ops).answer op) ∧
          Meets h' h'' (Lists.empty.afterAll ops) op := by
  obtain ⟨h', calls, denotes, bound⟩ := (Denotes.empty null).applyAll ops allowed fun q => by
    simpa [Lists.empty] using enough
  refine ⟨h', calls, denotes, fun q => ?_, fun op next => denotes.apply next (bound op.queue)⟩
  have holds := denotes.holds q
  have head : h'.head q = (Lists.empty.afterAll ops q).head? := holds.ends.1
  have tail : h'.tail q = (Lists.empty.afterAll ops q).getLast? := holds.ends.2
  refine ⟨?_, tail, holds.nodup⟩
  rw [head, tail]
  simp

/-- The tail is removed before the next push, and another queue lives in the same heap. -/
def twoQueues : List (Op Nat Bool) :=
  [.push false 1, .push false 2, .push true 3, .remove false 2, .push false 4, .pop false,
    .remove true 7]

theorem wq_refines_lists_twoQueues :
    ∃ h' : Heap Nat Bool, Heap.applyAll 8 ⟨fun _ => none, fun _ => none, fun _ => none⟩ twoQueues =
        some (h', [.int 1, .int 0, .int 1, .int 1, .int 0, .node (some 4), .int 0]) ∧
      h'.tail false = some 4 ∧ h'.tail true = some 3 := by
  have allowed : Lists.empty.AllowedAll twoQueues := by
    simp [twoQueues, Lists.AllowedAll, Lists.Allowed, Lists.after, Lists.empty, Function.update_apply]
  obtain ⟨h', calls, -, ends, -⟩ := @wq_refines_lists Nat Bool _ _
    ⟨fun _ => none, fun _ => none, fun _ => none⟩ (fun _ => ⟨rfl, rfl⟩) twoQueues allowed 8 (by decide)
  exact ⟨h', calls, (ends false).2.1, (ends true).2.1⟩

end Myio.WqHeap
