import Myio.Pool.Crew
import Myio.Pool.Order
import Myio.Pool.Progress
import Myio.ZPool.Named
import Myio.ZPool.Seats

/-! What the Zephyr pool owes its caller, over whole runs. -/

namespace Myio.ZPool

open Function (update)
open Machine
open Core

variable {n : Nat} {pick : Nat → WorkerId → Bool} {z z' y : ZPool} {t : TaskId} {s : SockId}
  {w : WorkerId}

/-! ### The workers -/

/-- While a worker sleeps, every queued task has a worker coming for it. -/
def Awake (z : ZPool) : Prop := z.shutdown = false →
  (∃ w, w < z.nworker ∧ (z.worker w).pc = .asleep) → z.nqueued ≤ z.tally Pc.comes

namespace Awake

/-- A change that moves no worker and queues no task. -/
theorem same (awake : z.Awake) (nworker : z'.nworker = z.nworker)
    (pc : ∀ w, (z'.worker w).pc = (z.worker w).pc) (shutdown : z'.shutdown = z.shutdown)
    (nqueued : z'.nqueued ≤ z.nqueued) : z'.Awake := by
  intro up sleeper
  obtain ⟨w, inside, asleep⟩ := sleeper
  rw [tally_congr nworker pc]
  exact Nat.le_trans nqueued
    (awake (shutdown ▸ up) ⟨w, nworker ▸ inside, (pc w).symm.trans asleep⟩)

theorem apart (awake : z.Awake) (f : Core → Core) (apart : Pool.Apart z.toCore (f z.toCore)) :
    (z.on f).Awake := awake.same apart.nworker apart.worker apart.shutdown apart.nqueued

/-- A signal wakes a sleeper if there is one, so that one more task has a worker coming. -/
theorem condSignal (awake : z.Awake) (nworker : y.nworker = z.nworker)
    (pc : ∀ w, (y.worker w).pc = (z.worker w).pc) (shutdown : y.shutdown = z.shutdown)
    (nqueued : y.nqueued = z.nqueued + 1) : y.condSignal.Awake := by
  unfold ZPool.condSignal
  cases chosen : y.signalled with
  | none =>
    -- Nobody sleeps.
    intro _ sleeper
    obtain ⟨w, inside, asleep⟩ := sleeper
    have awake := awake_of_unsignalled chosen inside
    simp only [isAsleep, Bool.and_eq_false_iff, decide_eq_false_iff_not] at awake
    rcases awake with outside | awake
    · exact absurd inside outside
    · exact absurd asleep awake
  | some v =>
    have asleep := asleep_of_signalled chosen
    simp only [isAsleep, Bool.and_eq_true, decide_eq_true_eq] at asleep
    intro up _
    have before : z.nqueued ≤ z.tally Pc.comes :=
      awake (shutdown ▸ up) ⟨v, nworker ▸ asleep.1, (pc v).symm.trans asleep.2⟩
    have shift := tally_setPc (c := y.toCore) Pc.comes asleep.1 (.woken false)
    rw [asleep.2, tally_congr nworker pc] at shift
    simp only [Pc.comes, Bool.toNat_false, Bool.toNat_true] at shift
    change y.nqueued ≤ (y.toCore.setPc v (.woken false)).tally Pc.comes
    omega

theorem settled : Settled Awake where
  piece awake piece := awake.apart _ (piece.apart _)
  slots awake _ _ := awake.same rfl (fun _ => rfl) rfl (Nat.le_refl _)
  enqueue awake _ := awake.condSignal rfl (fun _ => rfl) rfl rfl
  kick {z} awake t := awake.same (by rw [on_toCore, kick_rest]; rfl)
    (fun w => kick_pc z.toCore t w) (by rw [on_toCore, kick_rest]; rfl)
    (by rw [on_toCore, kick_rest]; exact Nat.le_refl _)
  aside awake _ _ _ _ _ _ _ _ _ _ _ := awake.same rfl (fun _ => rfl) rfl (Nat.le_refl _)

/-- A worker moves to a place from which it comes, or that is none of the queue's business. -/
theorem setPc {pc : Pc} (awake : z.Awake) (inside : w < z.nworker) (up : pc ≠ .asleep)
    (comes : (z.worker w).pc.comes = true → pc.comes = true) : (z.on (·.setPc w pc)).Awake := by
  intro isUp sleeper
  obtain ⟨v, below, asleep⟩ := sleeper
  have shift := tally_setPc (c := z.toCore) Pc.comes inside pc
  have other : v ≠ w := by
    rintro rfl
    simp [on, Core.setPc, modWorker] at asleep
    exact up asleep
  have before : z.nqueued ≤ z.tally Pc.comes :=
    awake isUp ⟨v, below, by simpa [on, Core.setPc, modWorker, other] using asleep⟩
  change z.nqueued ≤ (z.toCore.setPc w pc).tally Pc.comes
  have more : (z.worker w).pc.comes.toNat ≤ pc.comes.toNat := by
    cases here : (z.worker w).pc.comes with
    | false => exact Nat.zero_le _
    | true => rw [comes here]
  omega

/-- A worker at the top of its loop takes a task, or finds none. -/
theorem workerMain (awake : z.Awake) (counted : z.nqueued = z.queue.length) (inside : w < z.nworker)
    (comes : (z.worker w).pc.comes = true) : (z.workerMain w).Awake := by
  rcases workerMain_cases z w with ⟨t, rest, queue, isNext⟩ | ⟨_, down, isNext⟩ | ⟨queue, _, isNext⟩
  · rw [isNext]
    intro up sleeper
    obtain ⟨v, below, asleep⟩ := sleeper
    have other : v ≠ w := by
      rintro rfl
      simp [take, on, Core.setPc, modWorker, modTask] at asleep
    have before : z.nqueued ≤ z.tally Pc.comes :=
      awake up ⟨v, below, by simpa [take, on, Core.setPc, modWorker, modTask, other] using asleep⟩
    have shift := tally_setPc (c := z.toCore) Pc.comes inside (.running t .entry)
    rw [comes] at shift
    simp only [Pc.comes, Bool.toNat_false, Bool.toNat_true] at shift
    have same : (z.take w t).tally Pc.comes = (z.toCore.setPc w (.running t .entry)).tally Pc.comes :=
      tally_congr rfl fun _ => rfl
    rw [same]
    change z.nqueued - 1 ≤ _
    omega
  · rw [isNext]
    intro up
    change z.shutdown = false at up
    rw [down] at up
    cases up
  · rw [isNext]
    intro _ _
    change z.nqueued ≤ _
    rw [counted, queue]
    exact Nat.zero_le _

/-- The end of a commit queues no task. -/
theorem complete (awake : z.Awake) (t : TaskId) (res : Result) : (z.complete t res).Awake := by
  have ended : ({ z.on (·.finish t res) with
      nrunning := (z.on (·.finish t res)).nrunning - 1
      completions := ((z.on (·.finish t res)).completions + 1) % 2 ^ 32
      unseen := (z.on (·.finish t res)).unseen + 1 } : ZPool).Awake :=
    awake.same rfl (fun _ => rfl) rfl (Nat.le_refl _)
  exact ended.apart _ (Pool.apart_reapIfDetached _ t)

theorem workerStep {act : Pool.Act} (awake : z.Awake) (counted : z.nqueued = z.queue.length)
    (taken : z.workerStep w act = some z') : z'.Awake := by
  obtain ⟨inside, cases⟩ := workerStep_cases taken
  have stable := settled.toStable
  rcases cases with ⟨_, rfl⟩ | ⟨pc, rfl⟩ | ⟨late, pc, rfl⟩ | ⟨t, phase, pc, ran⟩
  · exact awake.setPc inside (by simp) fun _ => rfl
  · have cleared : (z.clearCurrent w).Awake := awake.same rfl (fun _ => rfl) rfl (Nat.le_refl _)
    refine cleared.workerMain counted inside ?_
    change (z.worker w).pc.comes = true
    rw [pc]
    rfl
  · exact awake.workerMain counted inside (by rw [pc]; rfl)
  · have busy : (z.worker w).pc.comes = false := by rw [pc]; rfl
    have back : (z.on (·.setPc w .ready)).Awake := awake.setPc inside (by simp) fun _ => rfl
    rcases runStep_cases ran with goes | ⟨res, newfd, linked, _, rfl⟩ | ⟨_, rfl⟩
    · obtain ⟨phase', pcs⟩ := goes.pc
      have moved : (z.on (·.setPc w (.running t phase'))).Awake :=
        awake.setPc inside (by simp) fun comes => by rw [busy] at comes; cases comes
      refine moved.same ?_ pcs ?_ ?_
      · rw [goes.rest]; rfl
      · rw [goes.rest]; rfl
      · rw [goes.rest]; exact Nat.le_refl _
    · exact (stable.settleSock (stable.wrapWon back res newfd linked) t _).complete t _
    · exact back.complete t _

theorem resume {linked : Bool} (awake : z.Awake) (taken : z.resume linked = some z') : z'.Awake := by
  have aside : ∀ {y : ZPool}, y.worker = z.worker → y.nworker = z.nworker →
      y.shutdown = z.shutdown → y.nqueued = z.nqueued → y.Awake :=
    fun worker nworker shutdown nqueued =>
      awake.same nworker (fun w => by rw [worker]) shutdown (Nat.le_of_eq nqueued)
  unfold ZPool.resume at taken
  split at taken
  · cases taken
    unfold wrapListener
    split <;> exact aside rfl rfl rfl rfl
  · cases taken
    unfold freeOn
    split <;> exact aside rfl rfl rfl rfl
  · cases taken
    unfold pollOn
    split
    · split
      · split <;> exact aside rfl rfl rfl rfl
      · exact aside rfl rfl rfl rfl
    · exact aside rfl rfl rfl rfl
    · split
      · split <;> exact aside rfl rfl rfl rfl
      · exact aside rfl rfl rfl rfl
  · cases taken
    unfold stepOn
    split <;> exact aside rfl rfl rfl rfl
  · cases taken
    unfold destroyOn
    split
    · refine aside ?_ ?_ ?_ ?_ <;> rw [on_toCore, closeSocks_rest]
    · exact awake
  · cases taken

end Awake

/-! ### The counters of completions -/

/-- The counters `step` compares differ by what it has not seen, as far as they can tell. -/
structure Ledger (z : ZPool) : Prop where
  counted : z.completions = (z.compSeen + z.unseen) % 2 ^ 32
  bound : z.compSeen < 2 ^ 32

namespace Ledger

theorem same (ledger : z.Ledger) (completions : z'.completions = z.completions)
    (compSeen : z'.compSeen = z.compSeen) (unseen : z'.unseen = z.unseen) : z'.Ledger :=
  ⟨by rw [completions, compSeen, unseen]; exact ledger.counted, compSeen ▸ ledger.bound⟩

theorem settled : Settled Ledger where
  piece ledger _ := ledger.same rfl rfl rfl
  slots ledger _ _ := ledger.same rfl rfl rfl
  enqueue {z} ledger t := by
    unfold ZPool.enqueue
    rw [condSignal_rest]
    exact ledger.same rfl rfl rfl
  kick ledger _ := ledger.same rfl rfl rfl
  aside ledger _ _ _ _ _ _ _ _ _ _ _ := ledger.same rfl rfl rfl

/-- A commit is counted. -/
theorem complete (ledger : z.Ledger) (t : TaskId) (res : Result) : (z.complete t res).Ledger := by
  refine ⟨?_, ledger.bound⟩
  change (z.completions + 1) % 2 ^ 32 = (z.compSeen + (z.unseen + 1)) % 2 ^ 32
  rw [ledger.counted, Nat.mod_add_mod, Nat.add_assoc]

/-- `step` catches up. -/
theorem resume {linked : Bool} (ledger : z.Ledger) (taken : z.resume linked = some z') :
    z'.Ledger := by
  have caught : z.completions < 2 ^ 32 := ledger.counted ▸ Nat.mod_lt _ (by decide)
  have seen : ∀ y : ZPool, y.completions = z.completions → y.compSeen = z.completions →
      y.unseen = 0 → y.Ledger := fun y completions compSeen unseen => by
    refine ⟨?_, compSeen ▸ caught⟩
    rw [completions, compSeen, unseen, Nat.add_zero, Nat.mod_eq_of_lt caught]
  unfold ZPool.resume at taken
  split at taken
  · cases taken
    unfold wrapListener
    split <;> exact ledger.same rfl rfl rfl
  · cases taken
    unfold freeOn
    split
    · exact ledger.same rfl rfl rfl
    · exact ledger
  · cases taken
    unfold pollOn
    split
    · split
      · split <;> exact ledger.same rfl rfl rfl
      · exact ledger.same rfl rfl rfl
    · exact ledger.same rfl rfl rfl
    · split
      · split <;> exact ledger.same rfl rfl rfl
      · exact ledger.same rfl rfl rfl
  · rename_i goal _
    cases taken
    -- An answer of zero comes only when the counters agree.
    have equal : z.implStep = .zero → z.compSeen = z.completions := by
      intro zero
      unfold implStep at zero
      split at zero
      · rename_i same; exact same.symm
      · cases zero
    unfold stepOn
    split
    · exact ledger
    · exact seen _ rfl rfl rfl
    · exact seen _ rfl rfl rfl
    · exact seen _ rfl (equal ‹_›) rfl
    · exact seen _ rfl (equal ‹_›) rfl
    · exact seen _ rfl (equal ‹_›) rfl
  · cases taken
    unfold destroyOn
    split
    · exact ledger.same rfl rfl rfl
    · exact ledger
  · cases taken

theorem workerStep {act : Pool.Act} (ledger : z.Ledger) (taken : z.workerStep w act = some z') :
    z'.Ledger := by
  obtain ⟨inside, cases⟩ := workerStep_cases taken
  have stable := settled.toStable
  have main : ∀ y : ZPool, y.Ledger → (y.workerMain w).Ledger := by
    intro y ledger
    rcases workerMain_cases y w with ⟨t, _, _, isNext⟩ | ⟨_, _, isNext⟩ | ⟨_, _, isNext⟩ <;>
      (rw [isNext]; exact ledger.same rfl rfl rfl)
  rcases cases with ⟨_, rfl⟩ | ⟨_, rfl⟩ | ⟨_, _, rfl⟩ | ⟨t, phase, _, ran⟩
  · exact ledger.same rfl rfl rfl
  · exact main _ (ledger.same rfl rfl rfl)
  · exact main _ ledger
  · have back : (z.on (·.setPc w .ready)).Ledger := ledger.same rfl rfl rfl
    rcases runStep_cases ran with goes | ⟨res, newfd, linked, _, rfl⟩ | ⟨_, rfl⟩
    · exact ledger.same (by rw [goes.rest]) (by rw [goes.rest]) (by rw [goes.rest])
    · exact (stable.settleSock (stable.wrapWon back res newfd linked) t _).complete t _
    · exact back.complete t _

end Ledger

/-! ### All together -/

/-- What holds of the pool besides until it is told to shut down. -/
structure Brisk (z : ZPool) : Prop where
  awake : z.Awake
  ledger : z.Ledger
  named : z.Named
  staffed : ∀ w, (z.worker w).pc ≠ .retired

/-- A worker's step moves that worker, wakes others at most, and retires nobody before the end. -/
theorem workerStep_pcs {act : Pool.Act} (taken : z.workerStep w act = some z') :
    ∃ pc, (pc = .retired → z.shutdown = true) ∧ ∀ v,
      (z'.worker v).pc = ((z.setPc w pc).worker v).pc ∨ (z'.worker v).pc = .woken false := by
  obtain ⟨_, cases⟩ := workerStep_cases taken
  have main : ∀ y : ZPool, y.toCore = z.toCore → ∃ pc, (pc = .retired → z.shutdown = true) ∧ ∀ v,
      ((y.workerMain w).worker v).pc = ((z.setPc w pc).worker v).pc := by
    intro y core
    rcases workerMain_cases y w with ⟨t, _, _, isNext⟩ | ⟨_, down, isNext⟩ | ⟨_, _, isNext⟩
    · refine ⟨.running t .entry, by simp, fun v => ?_⟩
      rw [isNext, ← core]
      rfl
    · refine ⟨.retired, fun _ => core ▸ down, fun v => ?_⟩
      rw [isNext, ← core]
      rfl
    · refine ⟨.asleep, by simp, fun v => ?_⟩
      rw [isNext, ← core]
      rfl
  rcases cases with ⟨_, rfl⟩ | ⟨_, rfl⟩ | ⟨_, _, rfl⟩ | ⟨t, phase, _, ran⟩
  · exact ⟨.woken false, by simp, fun _ => .inl rfl⟩
  · obtain ⟨pc, down, pcs⟩ := main (z.clearCurrent w) rfl
    exact ⟨pc, down, fun v => .inl (pcs v)⟩
  · obtain ⟨pc, down, pcs⟩ := main z rfl
    exact ⟨pc, down, fun v => .inl (pcs v)⟩
  · rcases runStep_seat ran with ⟨phase', rouses⟩ | ⟨rouses, _⟩
    · exact ⟨.running t phase', by simp, fun v => (rouses.pc v).imp id And.right⟩
    · exact ⟨.ready, by simp, fun v => (rouses.pc v).imp id And.right⟩

/-- Until the end no worker leaves for good. -/
theorem workerStep_staffed {act : Pool.Act} (up : z.shutdown = false)
    (staffed : ∀ v, (z.worker v).pc ≠ .retired) (taken : z.workerStep w act = some z') :
    ∀ v, (z'.worker v).pc ≠ .retired := by
  obtain ⟨pc, down, pcs⟩ := workerStep_pcs taken
  intro v
  rcases pcs v with same | woken
  · rw [same]
    by_cases self : v = w
    · subst self
      simp only [setPc, modWorker, Function.update_self]
      intro retired
      rw [down retired] at up
      cases up
    · simpa [setPc, modWorker, self] using staffed v
  · rw [woken]; simp

/-- Every step before the end keeps what holds besides. -/
theorem Brisk.step {label : Label} (brisk : z.Brisk) (good : z.Good) (obeyed : z.obeys label = true)
    (up : z.shutdown = false) (taken : z.step label = some z') (up' : z'.shutdown = false) :
    z'.Brisk := by
  have counted : z.nqueued = z.queue.length := good.sound.counted.nqueued
  have later : Later z.toCore z'.toCore := by
    refine Later.moves (step_moves (o := fun _ _ => True) good.sound good.tidy good.slotted obeyed
      (fun _ _ _ => trivial) trivial (.inr fun _ => trivial) taken) good.sound
  cases label with
  | worker w act =>
    have works := Works.workerStep taken
    exact ⟨brisk.awake.workerStep counted taken, brisk.ledger.workerStep taken,
      brisk.named.drops good.sound later works.toDrops works.enters,
      workerStep_staffed up brisk.staffed taken⟩
  | user c =>
    have rouses := userStep_rouses taken
    have staffed : ∀ w, (z'.worker w).pc ≠ .retired := by
      intro w
      rcases rouses.pc w with same | ⟨_, woken⟩
      · rw [same]; exact brisk.staffed w
      · rw [woken]; simp
    rcases userStep_cases taken with ⟨_, taken⟩ | ⟨linked, rfl, taken⟩
    · have lives : c ≠ .destroy := by
        rintro rfl
        have leaves := (good.step obeyed ‹z.step _ = some z'›).tidy.leaves
        cases taken
        rw [leaves] at up'
        cases up'
      exact ⟨Awake.settled.call brisk.awake lives taken, Ledger.settled.call brisk.ledger lives taken,
        brisk.named.drops good.sound later (call_drops lives taken) (call_enters lives taken), staffed⟩
    · have works := Works.resume taken
      exact ⟨brisk.awake.resume taken, brisk.ledger.resume taken,
        brisk.named.drops good.sound later works.toDrops works.enters, staffed⟩

theorem Run.brisk (run : Run (ZPool.new n pick) z) (up : z.shutdown = false) : z.Brisk := by
  have both : z.Good ∧ (z.shutdown = false → z.Brisk) := by
    refine run.invariant (fun z => z.Good ∧ (z.shutdown = false → z.Brisk))
      (fun z label z' before obeyed taken => ?_) ⟨.new n pick, fun _ => ?_⟩
    · obtain ⟨good, brisk⟩ := before
      refine ⟨good.step obeyed taken, fun up' => ?_⟩
      have up : z.shutdown = false := by
        cases down : z.shutdown with
        | false => rfl
        | true =>
          have leaves := (leaving_step good (good.tidy.leaves.symm.trans down) taken).1
          rw [(good.step obeyed taken).tidy.leaves, leaves] at up'
          cases up'
      exact (brisk up).step good obeyed up taken up'
    · refine ⟨fun _ sleeper => ?_, ⟨rfl, Nat.two_pow_pos 32⟩, fun _ _ _ _ none => ?_,
        fun _ => by simp [ZPool.new]⟩
      · obtain ⟨_, _, asleep⟩ := sleeper
        cases asleep
      · exact absurd none (Nat.not_lt_zero _)
  exact both.2 up

/-- A worker that runs no task. -/
def restful : Pc → Bool
  | .running _ _ => false
  | _ => true

/-- A read or an accept that is not done, on its socket. -/
def Outstanding (z : ZPool) (k : OpKind) (s : SockId) (t : TaskId) : Prop :=
  t < z.ntask ∧ (z.task t).done = false ∧ (z.task t).kind = k ∧ (z.task t).sock = some s

theorem slot_iff (good : z.Good) (named : z.Named) {k : OpKind}
    (which : k = .opSockRead ∨ k = .opAccept) (s : SockId) (t : TaskId) :
    z.slot k s = some t ↔ z.Outstanding k s t := by
  constructor
  · intro there
    have inSlot := good.slotted k s t there
    exact ⟨inSlot.inside, inSlot.isOpen, inSlot.kind, inSlot.sock⟩
  · intro outstanding
    obtain ⟨inside, isOpen, kind, sock⟩ := outstanding
    exact named k s t which inside isOpen kind sock

/-- While some worker sleeps there is one for every queued task; else every free worker is awake. -/
theorem Brisk.enough (brisk : z.Brisk) (up : z.shutdown = false) :
    min z.nqueued (z.tally restful) ≤ z.tally Pc.comes := by
  by_cases sleeper : ∃ w, w < z.nworker ∧ (z.worker w).pc = .asleep
  · exact Nat.le_trans (Nat.min_le_left _ _) (brisk.awake up sleeper)
  · refine Nat.le_trans (Nat.min_le_right _ _) (count_le fun w inside rests => ?_)
    cases pc : (z.worker w).pc with
    | asleep => exact absurd ⟨w, inside, pc⟩ sleeper
    | retired => exact absurd pc (brisk.staffed w)
    | running t phase => rw [pc] at rests; cases rests
    | ready => rfl
    | woken late => rfl

/-- A read or an accept is refused with EBUSY exactly if one is outstanding. -/
theorem busy_iff (good : z.Good) (named : z.Named) (s : SockId) :
    (((z.implSockRead s).task z.ntask).res = rErr EBUSY ↔ ∃ t, z.Outstanding .opSockRead s t) ∧
    (((z.implTcpAccept s).task z.ntask).res = rErr EBUSY ↔ ∃ t, z.Outstanding .opAccept s t) := by
  have failed : ∀ k, ((z.taskNewFailed k EBUSY).task z.ntask).res = rErr EBUSY := fun k => by
    simp [taskNewFailed, on, finish, modTask]
  have submitted : ∀ (k : Task) reads accepts, k.res ≠ rErr EBUSY →
      ((({ z with readTask := reads, acceptTask := accepts } : ZPool).submit k).task z.ntask).res ≠
        rErr EBUSY := by
    intro k reads accepts other
    rw [submit_rest]
    simpa using other
  have named_iff : ∀ k, (k = .opSockRead ∨ k = .opAccept) →
      ((z.slot k s).isSome = true ↔ ∃ t, z.Outstanding k s t) := by
    intro k which
    rw [Option.isSome_iff_exists]
    exact exists_congr fun t => slot_iff good named which s t
  constructor
  · rw [← named_iff .opSockRead (.inl rfl)]
    change _ ↔ (z.readTask s).isSome = true
    unfold implSockRead
    split
    · rename_i busy; exact ⟨fun _ => busy, fun _ => failed _⟩
    · rename_i free
      exact ⟨fun refused => absurd refused (submitted _ _ _ (by simp [rErr, rPending])),
        fun busy => absurd busy free⟩
  · rw [← named_iff .opAccept (.inr rfl)]
    change _ ↔ (z.acceptTask s).isSome = true
    unfold implTcpAccept
    split
    · rename_i busy; exact ⟨fun _ => busy, fun _ => failed _⟩
    · rename_i free
      exact ⟨fun refused => absurd refused (submitted _ _ _ (by simp [rErr, rPending])),
        fun busy => absurd busy free⟩

/-- The operations outstanding on a socket are as many as it counts. -/
theorem inflight_ncard (good : z.Good) (live : s ∈ z.socks) :
    (z.sock s).inflight = {t | z.OnSock (fun _ => false) s t}.ncard := by
  have same : {t | z.OnSock (fun _ => false) s t} =
      ((Finset.range z.ntask).filter (z.OnSock (fun _ => false) s) : Finset TaskId) := by
    ext t
    simp only [Set.mem_ofPred_eq, Finset.coe_filter, Finset.mem_range]
    exact ⟨fun on => ⟨on.1.1, on⟩, And.right⟩
  have counted : (z.sock s).inflight = Nat.count (z.OnSock (fun _ => false) s) z.ntask :=
    good.sound.counted.inflight s live
  rw [counted, Nat.count_eq_card_filter_range, same, Set.ncard_coe_finset]

/--
In every state before destroy, whatever the number of workers: every task that is not done is in
exactly one place, and the counters count the places; a socket counts its operations, and its slots
name its read and its accept, so that a second one is refused exactly while the first is outstanding;
as many workers are awake as there are tasks queued, or all that run none. So `impl_step` answers zero
only when every task is done, and waits only when no worker has completed anything since the last
step, as long as the counters have not wrapped around.
-/
theorem pool_state (run : Run (ZPool.new n pick) z) (up : z.shutdown = false) :
    (∀ t : TaskId, t < z.ntask → (z.task t).done = false → (∃! place, z.InPlace t place) ∧
      ∀ place other, z.InPlace t place → z.Reaches t other → other = place) ∧
    z.nqueued = z.queue.length ∧ z.nrunning = {t | z.Running t}.ncard ∧
    (∀ s, s ∈ z.socks → (z.sock s).inflight = {t | z.OnSock (fun _ => false) s t}.ncard ∧
      ∀ t, (z.readTask s = some t ↔ z.Outstanding .opSockRead s t) ∧
        (z.acceptTask s = some t ↔ z.Outstanding .opAccept s t)) ∧
    (∀ s z', z.step (.user (.sockRead s)) = some z' →
      ((z'.task z.ntask).res = rErr EBUSY ↔ ∃ t, z.Outstanding .opSockRead s t)) ∧
    (∀ s z', z.step (.user (.tcpAccept s)) = some z' →
      ((z'.task z.ntask).res = rErr EBUSY ↔ ∃ t, z.Outstanding .opAccept s t)) ∧
    min z.nqueued (z.tally restful) ≤ z.tally Pc.comes ∧
    (z.unseen < 2 ^ 32 → (z.implStep = .zero → ∀ t, t < z.ntask → (z.task t).done = true) ∧
      (z.implStep = .wait → z.unseen = 0)) := by
  have good := run.good
  have brisk := run.brisk up
  have placed := good.sound.placed
  have counted := good.sound.counted
  refine ⟨fun t inside isOpen => ⟨?_, fun _ _ => placed.only⟩, counted.nqueued,
    counted.running_ncard placed, fun s live => ⟨inflight_ncard good live, fun t =>
      ⟨slot_iff good brisk.named (.inl rfl) s t, slot_iff good brisk.named (.inr rfl) s t⟩⟩,
    fun s z' taken => ?_, fun s z' taken => ?_, brisk.enough up, fun few => ⟨fun zero t inside => ?_,
      fun wait => ?_⟩⟩
  · obtain ⟨place, here⟩ := placed.inPlace (Core.pending_iff.mpr ⟨inside, isOpen⟩)
    exact ⟨place, here, fun other there => placed.only here (Core.InPlace.reaches there)⟩
  · rcases userStep_cases (c := .sockRead s) taken with ⟨_, taken⟩ | ⟨_, resumed, _⟩
    · cases taken; exact (busy_iff good brisk.named s).1
    · cases resumed
  · rcases userStep_cases (c := .tcpAccept s) taken with ⟨_, taken⟩ | ⟨_, resumed, _⟩
    · cases taken; exact (busy_iff good brisk.named s).2
    · cases resumed
  · unfold implStep at zero
    split at zero
    · split at zero
      · rename_i idle
        exact Pool.done_of_idle (p := z.desktop none) good.sound idle.1 idle.2 inside
      · cases zero
    · cases zero
  · unfold implStep at wait
    split at wait
    · rename_i same
      exact Pool.eq_zero_of_wrap brisk.ledger.bound few (brisk.ledger.counted.symm.trans same)
    · cases wait

/-- A read and two writes on a socket, and a second read; the worker has taken the first read. -/
def busySocket : List Label :=
  [.user .tcpListen, .user (.resume true), .user (.sockRead 0), .user (.sockWrite 0 [1]),
    .user (.sockWrite 0 [2]), .user (.sockRead 0), .worker 0 .main]

theorem pool_state_busySocket :
    (after busySocket).shutdown = false ∧ (after busySocket).nqueued = 1 ∧
    (∃! place, (after busySocket).InPlace 2 place) ∧ (after busySocket).readTask 0 = some 0 ∧
    (after busySocket).Outstanding .opSockRead 0 0 ∧ ((after busySocket).task 3).res = rErr EBUSY := by
  obtain ⟨places, _, _, socks, _⟩ :=
    pool_state (run_after busySocket (by decide +kernel)) (by decide +kernel)
  exact ⟨by decide +kernel, by decide +kernel, (places 2 (by decide +kernel) (by decide +kernel)).1,
    by decide +kernel, ((socks 0 (by decide +kernel)).2 0).1.mp (by decide +kernel), by decide +kernel⟩

/-! ### Closing with every worker -/

/-- The task that closes a socket is not done. -/
def closePending (z : ZPool) (s : SockId) : Bool :=
  (List.range z.ntask).any fun t =>
    (z.task t).kind = .opSockClose && (z.task t).sock = some s && !(z.task t).done

/-- The caller's part, where operations may still come after a `sock_close` until that is done. -/
def obeysLate (z : ZPool) : Label → Bool
  | .user (.tcpAccept s) | .user (.sockRead s) | .user (.sockWrite s _) =>
    z.claimed s && (!(z.sock s).closing || z.closePending s)
  | label => z.obeys label

/-- No operation comes after a `sock_close`. -/
def timely (z : ZPool) : Label → Bool
  | .user (.tcpAccept s) | .user (.sockRead s) | .user (.sockWrite s _) => !(z.sock s).closing
  | _ => true

theorem obeys_of_timely {label : Label} (late : z.obeysLate label = true)
    (timely : z.timely label = true) : z.obeys label = true := by
  unfold obeysLate at late
  split at late
  case h_4 => exact late
  all_goals
    simp only [Bool.and_eq_true] at late
    simp only [obeys, Bool.and_eq_true]
    exact ⟨late.1, timely⟩

/-- Every worker waits in `worker_close` for operations that no worker has started. -/
def Stuck (z : ZPool) : Prop := 0 < z.nworker ∧ ∀ w, w < z.nworker → ∃ t s, z.At w t .drain ∧
  (z.task t).sock = some s ∧ 0 < (z.sock s).inflight ∧
  ∀ u, z.OnSock (fun _ => false) s u → (z.task u).started = false

theorem Run.behind (run : Run (ZPool.new n pick) z) : z.Behind fun _ => false := by
  have good := Good.new n pick
  have initially : (ZPool.new n pick).Behind fun _ => false :=
    ⟨fun t _ _ inside => absurd inside (Nat.not_lt_zero t),
      fun t _ _ pending => absurd pending.1 (Nat.not_lt_zero t)⟩
  exact Behind.moves (run.moves good) good.sound initially

/-- As long as no operation comes after its socket's `sock_close`, closing never stops the pool. -/
theorem close_never_stuck
    (run : Machine.Path step (fun z label => z.obeysLate label = true ∧ z.timely label = true)
      (ZPool.new n pick) z) : ¬ z.Stuck := by
  have run : Run (ZPool.new n pick) z := run.mono fun _ _ both => obeys_of_timely both.1 both.2
  have sound := run.good.sound
  rintro ⟨some_, each⟩
  obtain ⟨t, s, at_, sock, waits, unstarted⟩ := each 0 some_
  obtain ⟨pending, started⟩ := sound.placed.run_pending 0 t at_.runs
  have isClose : (z.task t).kind = .opSockClose := sound.phased 0 t .drain at_
  -- The socket counts some operation, which is either started or before the close on the queue.
  obtain ⟨s', sock', live⟩ := Pool.Sound.live_of_drain (p := z.desktop none) sound at_
  obtain rfl : s' = s := Option.some.inj (sock'.symm.trans sock)
  have counted : (z.sock s').inflight = Nat.count (z.OnSock (fun _ => false) s') z.ntask :=
    sound.counted.inflight s' live
  have found : ∃ u, z.OnSock (fun _ => false) s' u := by
    by_contra none_
    have zero := count_eq_zero.mpr fun u (_ : u < z.ntask) on => none_ ⟨u, on⟩
    omega
  obtain ⟨u, onSock⟩ := found
  have early := run.behind.order t u s' pending onSock.1 isClose sock onSock.2.1 onSock.2.2
    (unstarted u onSock)
  have started : (z.task t).started = true := started
  rw [early.1] at started
  cases started

/-- With one worker, a read that comes after the `sock_close` of its socket is never started. -/
def readAfterClose : List Label :=
  [.user .tcpListen, .user (.resume true), .user (.sockWrite 0 [1]), .user (.sockClose 0),
    .user (.sockRead 0), .worker 0 .main, .worker 0 .enter, .worker 0 (.commit true), .worker 0 .main,
    .worker 0 .enter]

theorem close_gets_stuck : ∃ z, Machine.Path step (fun z label => z.obeysLate label = true)
    (ZPool.new 1 fun _ _ => true) z ∧ z.Stuck := by
  refine ⟨after readAfterClose, .of_legal obeysLate (fun _ _ => id) readAfterClose (.refl _)
    (by decide +kernel), by decide +kernel, fun w inside => ?_⟩
  obtain rfl : w = 0 := Nat.lt_one_iff.mp inside
  refine ⟨1, 0, ⟨by decide +kernel, by decide +kernel⟩, by decide +kernel, by decide +kernel, ?_⟩
  intro u onSock
  have last : ∀ u, u < (after readAfterClose).ntask → (after readAfterClose).OnSock (fun _ => false) 0 u →
      ((after readAfterClose).task u).started = false := by decide +kernel
  exact last u onSock.1.1 onSock

/-- The same without the late read. -/
def closeAlone : List Label :=
  [.user .tcpListen, .user (.resume true), .user (.sockWrite 0 [1]), .user (.sockClose 0),
    .worker 0 .main, .worker 0 .enter, .worker 0 (.commit true), .worker 0 .main, .worker 0 .enter]

theorem close_never_stuck_closeAlone :
    (after closeAlone).At 0 1 .drain ∧ ¬ (after closeAlone).Stuck :=
  ⟨⟨by decide +kernel, by decide +kernel⟩,
    close_never_stuck (.of_legal (fun z label => z.obeysLate label && z.timely label)
      (fun _ _ both => by simpa using both) closeAlone (.refl _) (by decide +kernel))⟩

end Myio.ZPool
