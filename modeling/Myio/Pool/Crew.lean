import Myio.Lib.Count
import Myio.Pool.Stable

/-! How many workers there are, and for how many of the queued tasks one is on its way. -/

namespace Myio

open Machine
open Core

/-- A worker that `idle` counts: it has not taken the lock since it went to sleep. -/
def Pc.waits : Pc → Bool
  | .asleep | .woken _ => true
  | _ => false

/-- A worker that will look at the queue before it runs a task or sleeps. -/
def Pc.comes : Pc → Bool
  | .ready | .woken _ => true
  | _ => false

/-- A worker that `nlive` counts. -/
def Pc.lives : Pc → Bool
  | .retired => false
  | _ => true

namespace Core

/-- How many workers are at a place that passes a test. -/
def tally (c : Core) (test : Pc → Bool) : Nat :=
  Nat.count (fun w => test (c.worker w).pc = true) c.nworker

variable {c c' : Core} {test : Pc → Bool} {w : WorkerId}

/-- Only the workers are counted. -/
theorem tally_congr (nworker : c'.nworker = c.nworker)
    (worker : ∀ w, (c'.worker w).pc = (c.worker w).pc) : c'.tally test = c.tally test := by
  unfold tally
  rw [nworker]
  exact count_congr fun w _ => by rw [worker]

/-- One worker moves. -/
theorem tally_setPc (test : Pc → Bool) (inside : w < c.nworker) (pc : Pc) :
    (c.setPc w pc).tally test + (test (c.worker w).pc).toNat = c.tally test + (test pc).toNat := by
  have shift := count_shift (p := fun v => test (c.worker v).pc)
    (q := fun v => test ((c.setPc w pc).worker v).pc) inside fun v _ other => by
      simp [setPc, modWorker, other]
  have here : ((c.setPc w pc).worker w).pc = pc := by simp [setPc, modWorker]
  rw [here] at shift
  exact shift

end Core

namespace Pool

/-- The counters of workers are right, and every queued task has a worker coming for it. -/
structure Crew (p : Pool) : Prop where
  nlive : p.nlive = p.tally Pc.lives
  idle : p.idle = p.tally Pc.waits
  nqueued : p.nqueued = p.queue.length
  coming : p.shutdown = false → p.nqueued ≤ p.tally Pc.comes

variable {p p' : Pool} {w : WorkerId} {t : TaskId} {s : SockId}

/-- A change that moves no worker and queues no task. -/
theorem Crew.same (crew : p.Crew) (nlive : p'.nlive = p.nlive) (idle : p'.idle = p.idle)
    (nworker : p'.nworker = p.nworker) (worker : ∀ w, (p'.worker w).pc = (p.worker w).pc)
    (shutdown : p'.shutdown = false → p.shutdown = false) (nqueued : p'.nqueued ≤ p.nqueued)
    (queue : p'.nqueued = p'.queue.length) : p'.Crew := by
  refine ⟨?_, ?_, queue, ?_⟩
  · rw [nlive, tally_congr nworker worker]; exact crew.nlive
  · rw [idle, tally_congr nworker worker]; exact crew.idle
  · rw [tally_congr nworker worker]
    exact fun up => Nat.le_trans nqueued (crew.coming (shutdown up))

/-- Shared code that moves no worker and queues no task. -/
theorem Crew.apart (crew : p.Crew) (f : Core → Core) (apart : Apart p.toCore (f p.toCore)) :
    (p.on f).Crew :=
  crew.same rfl rfl apart.nworker apart.worker (fun up => apart.shutdown.symm.trans up) apart.nqueued
    (apart.queue crew.nqueued)

/-- One worker moves, and the counters with it. -/
theorem Crew.setPc (crew : p.Crew) (inside : w < p.nworker) (pc : Pc) (nworker : p'.nworker = p.nworker)
    (worker : p'.worker = (p.toCore.setPc w pc).worker)
    (nlive : p'.nlive + (p.worker w).pc.lives.toNat = p.nlive + pc.lives.toNat)
    (idle : p'.idle + (p.worker w).pc.waits.toNat = p.idle + pc.waits.toNat)
    (queue : p'.nqueued = p'.queue.length)
    (coming : p'.shutdown = false → p'.nqueued = 0 ∨ p.shutdown = false ∧
      p'.nqueued + (p.worker w).pc.comes.toNat ≤ p.nqueued + pc.comes.toNat) : p'.Crew := by
  have same : ∀ test, p'.tally test = (p.toCore.setPc w pc).tally test := fun test =>
    tally_congr nworker fun v => by rw [worker]
  have shift := fun test => tally_setPc test inside pc
  refine ⟨?_, ?_, queue, ?_⟩
  · have := shift Pc.lives
    rw [same]
    have := crew.nlive
    omega
  · have := shift Pc.waits
    rw [same]
    have := crew.idle
    omega
  · intro up
    rw [same]
    rcases coming up with none | ⟨up', less⟩
    · rw [none]; exact Nat.zero_le _
    · have := shift Pc.comes
      have := crew.coming up'
      omega

/-! ### Dispatch -/

/-- If a worker sleeps, a signal wakes one. -/
theorem signalled_of_asleep (inside : w < p.nworker) (asleep : (p.worker w).pc = .asleep) :
    ∃ v, v < p.nworker ∧ p.signalled v = true := by
  have isAsleep : p.isAsleep w = true := by simp [Pool.isAsleep, inside, asleep]
  by_cases picked : (List.range p.nworker).any fun v => p.isAsleep v && p.os.wakes p.tick v
  · obtain ⟨v, below, chosen⟩ := List.any_eq_true.mp picked
    refine ⟨v, List.mem_range.mp below, ?_⟩
    unfold signalled
    rw [if_pos picked]
    exact chosen
  · have found : ((List.range p.nworker).find? p.isAsleep).isSome = true :=
      List.find?_isSome.mpr ⟨w, List.mem_range.mpr inside, isAsleep⟩
    obtain ⟨v, isFirst⟩ := Option.isSome_iff_exists.mp found
    refine ⟨v, List.mem_range.mp (List.mem_of_find?_eq_some isFirst), ?_⟩
    unfold signalled
    rw [if_neg picked]
    exact decide_eq_true isFirst

/-- A signal keeps every worker, and brings one more if one was asleep. -/
theorem condSignal_tally (idle : p.idle = p.tally Pc.waits) :
    p.condSignal.tally Pc.lives = p.tally Pc.lives ∧ p.condSignal.tally Pc.waits = p.tally Pc.waits ∧
      p.tally Pc.comes ≤ p.condSignal.tally Pc.comes ∧
      (p.tally Pc.comes = p.condSignal.tally Pc.comes → p.idle ≤ p.tally Pc.comes) := by
  have pc : ∀ v, (p.condSignal.worker v).pc =
      if p.signalled v then .woken false else (p.worker v).pc := by
    intro v; unfold condSignal wakeAll; dsimp only; split <;> rfl
  have kept : ∀ v, (p.worker v).pc.comes = true → (p.condSignal.worker v).pc.comes = true := by
    intro v comes
    rw [pc]
    split
    · rfl
    · exact comes
  refine ⟨?_, ?_, count_le fun v _ => kept v, fun same => ?_⟩
  · refine count_congr fun v _ => ?_
    rw [pc]
    split
    · rename_i woken; simp [asleep_of_signalled woken, Pc.lives]
    · rfl
  · refine count_congr fun v _ => ?_
    rw [pc]
    split
    · rename_i woken; simp [asleep_of_signalled woken, Pc.waits]
    · rfl
  · -- Nobody was woken, so nobody was asleep, and the idle workers are all awake.
    have none : ∀ v, v < p.nworker → (p.worker v).pc ≠ .asleep := by
      intro v inside asleep
      obtain ⟨u, below, woken⟩ := signalled_of_asleep inside asleep
      have more : p.tally Pc.comes < p.condSignal.tally Pc.comes := by
        have gained := count_gain (p := fun i => (p.worker i).pc.comes = true)
          (q := fun i => (p.worker i).pc.comes = true ∨ i = u) below
          (by simp [asleep_of_signalled woken, Pc.comes]) (.inr rfl) (fun i _ other => by simp [other])
        refine Nat.lt_of_lt_of_le (Nat.lt_succ_self _) (Nat.le_trans (Nat.le_of_eq gained.symm)
          (count_le fun i _ => ?_))
        rintro (comes | rfl)
        · exact kept i comes
        · rw [pc, if_pos woken]; rfl
      exact Nat.lt_irrefl _ (same ▸ more)
    rw [idle]
    refine count_le fun v inside waits => ?_
    have awake := none v inside
    cases here : (p.worker v).pc with
    | asleep => exact absurd here awake
    | woken => rfl
    | _ => rw [here] at waits; cases waits

/-- A new worker is one more of every sort it belongs to. -/
theorem tally_spawned (c : Core) (test : Pc → Bool) :
    { c with nworker := c.nworker + 1
             worker := Function.update c.worker c.nworker { pc := .ready } }.tally test =
      c.tally test + (test .ready).toNat := by
  unfold tally
  dsimp only
  rw [Nat.count_succ]
  have old : Nat.count (fun w => test ((Function.update c.worker c.nworker { pc := .ready }) w).pc =
      true) c.nworker = Nat.count (fun w => test (c.worker w).pc = true) c.nworker :=
    count_congr fun w below => by rw [Function.update_of_ne (Nat.ne_of_lt below)]
  rw [old]
  cases isIt : test .ready <;> simp [isIt]

/-- A dispatch secures a worker, or queues nothing. -/
theorem Crew.dispatchLocked (crew : p.Crew) (t : TaskId) : (p.dispatchLocked t).1.Crew := by
  let q := p.on (·.queuePush t)
  have nlive : q.nlive = q.tally Pc.lives := crew.nlive
  have idle : q.idle = q.tally Pc.waits := crew.idle
  have queue : q.nqueued = q.queue.length := by
    simpa [q, queuePush] using crew.nqueued
  have coming : q.shutdown = false → q.nqueued ≤ q.tally Pc.comes + 1 := fun up =>
    Nat.succ_le_succ (crew.coming up)
  unfold Pool.dispatchLocked
  dsimp only
  split
  · -- With enough idle workers the signal brings one, unless all of them are awake already.
    rename_i enough
    have enough : q.nqueued ≤ q.idle := enough
    obtain ⟨lives, waits, more, none⟩ := condSignal_tally idle
    refine ⟨nlive.trans lives.symm, idle.trans waits.symm, queue, fun up => ?_⟩
    change q.nqueued ≤ q.condSignal.tally Pc.comes
    have := coming up
    by_cases same : q.tally Pc.comes = q.condSignal.tally Pc.comes
    · have := none same
      omega
    · omega
  · by_cases created : q.os.create q.tick = true
    · have spawned := tally_spawned q.toCore
      simp only [spawnThread, q, created, if_true]
      refine ⟨?_, ?_, queue, fun up => ?_⟩
      · rw [spawned]; exact congrArg (· + 1) nlive
      · rw [spawned]; exact idle
      · rw [spawned]; exact coming up
    · simp only [spawnThread, q, created, Bool.false_eq_true, if_false]
      have code : ((p.queuePush t).queueRemove t) =
          { p.toCore with queue := (p.queue ++ [t]).erase t } := by simp [queueRemove, queuePush]
      change Crew { p with toCore := (p.queuePush t).queueRemove t, tick := p.tick + 1 }
      rw [code]
      refine crew.same rfl rfl rfl (fun _ => rfl) id (Nat.le_refl _) ?_
      simpa using crew.nqueued

theorem Crew.stable : Stable Crew where
  piece crew piece := crew.apart _ (piece.apart _)
  dispatch crew t := crew.dispatchLocked t

/-! ### The calls -/

/-- A change of what the caller holds, and of where the user thread is. -/
theorem Crew.aside (crew : p.Crew)
    (core : p'.toCore = { p.toCore with held := p'.held, claimed := p'.claimed
                                        wrapping := p'.wrapping })
    (nlive : p'.nlive = p.nlive) (idle : p'.idle = p.idle) : p'.Crew := by
  refine crew.same nlive idle ?_ (fun _ => ?_) ?_ ?_ ?_ <;> rw [core]
  · exact id
  · exact crew.nqueued

theorem Crew.implTaskFree (crew : p.Crew) (t : TaskId) : (p.implTaskFree t).Crew := by
  have dropped : ∀ {q : Pool}, q.Crew → ((q.dropHandle t).on (·.taskFreeMem t)).Crew := fun crew =>
    (Crew.aside crew rfl rfl rfl : (Pool.dropHandle _ t).Crew).apart (·.taskFreeMem t) (.of_rest rfl)
  refine Stable.ite (dropped crew) (Stable.ite (dropped (Crew.stable.completeUnrun crew t)) ?_)
  have kicked : (if opInterruptible (p.task t).kind then p.on (kick · t) else p).Crew :=
    Stable.ite (crew.apart (kick · t) (apart_kick _ t)) crew
  exact kicked.aside rfl rfl rfl

theorem Crew.implTaskDetach (crew : p.Crew) (t : TaskId) : (p.implTaskDetach t).Crew := by
  have dropped : (p.dropHandle t).Crew := crew.aside rfl rfl rfl
  refine Stable.ite (Crew.apart ?_ (·.reap t) (apart_reap _ t))
    (dropped.apart (·.modTask t _) (.of_rest rfl))
  unfold dropSock
  split
  · exact dropped.aside rfl rfl rfl
  · exact dropped

/-! ### Teardown -/

theorem Crew.dropUnrun (crew : p.Crew) (t : TaskId) : (p.dropUnrun t).Crew := by
  have ended := Crew.stable.completeUnrun crew t
  have dropped : ((p.completeUnrun t).dropHandle t).Crew := ended.aside rfl rfl rfl
  exact Stable.ite (dropped.apart (·.reap t) (apart_reap _ t)) ended

theorem Crew.destroyQueue (n : Nat) : ∀ {p : Pool}, p.Crew → (Pool.destroyQueue n p).Crew := by
  induction n with
  | zero => exact id
  | succ n ih =>
    intro p crew
    unfold Pool.destroyQueue
    split
    · exact crew
    · exact ih (crew.dropUnrun _)

theorem Crew.destroyFifo (l : List TaskId) : ∀ {p : Pool}, p.Crew → (p.destroyFifo l).Crew := by
  induction l with
  | nil => exact id
  | cons t rest ih => exact fun crew => ih (crew.dropUnrun t)

theorem Crew.destroyFifos (l : List SockId) : ∀ {p : Pool}, p.Crew → (p.destroyFifos l).Crew := by
  induction l with
  | nil => exact id
  | cons s rest ih => exact fun crew => ih (Crew.destroyFifo _ crew)

/-- Waking every sleeper changes neither who lives nor who is counted idle. -/
theorem wakeAll_tally (p : Pool) {test : Pc → Bool} (same : test (.woken false) = test .asleep) :
    (p.wakeAll p.isAsleep).tally test = p.tally test := by
  refine count_congr fun w _ => ?_
  unfold wakeAll
  dsimp only
  split
  · rename_i asleep
    simp only [isAsleep, Bool.and_eq_true, decide_eq_true_eq] at asleep
    rw [asleep.2, same]
  · rfl

theorem Crew.implDestroy (crew : p.Crew) : p.implDestroy.Crew := by
  have down : Crew { p with shutdown := true } :=
    crew.same rfl rfl rfl (fun _ => rfl) (by simp) (Nat.le_refl _) crew.nqueued
  have emptied := Crew.destroyFifos
    (Pool.destroyQueue p.queue.length { p with shutdown := true }).socks
    (Crew.destroyQueue p.queue.length down)
  refine ⟨emptied.nlive.trans (wakeAll_tally _ rfl).symm,
    emptied.idle.trans (wakeAll_tally _ rfl).symm, emptied.nqueued, fun up => ?_⟩
  refine Nat.le_trans (emptied.coming up) (count_le fun w _ comes => ?_)
  unfold Pool.implDestroy wakeAll
  dsimp only
  split
  · rfl
  · exact comes

theorem Crew.destroyOn (crew : p.Crew) : p.destroyOn.Crew := by
  refine Stable.ite (crew.same rfl rfl ?_ (fun _ => ?_) (fun up => ?_) ?_ ?_) crew
  all_goals rw [on_toCore, closeSocks_rest] at *
  · exact up
  · exact crew.nqueued

/-! ### The workers -/

/-- `worker_main` with the lock held, by a worker no longer counted idle. -/
theorem Crew.workerMain (crew : Crew { p with idle := p.idle + (p.worker w).pc.waits.toNat })
    (inside : w < p.nworker) (timedout : Bool) (comes : (p.worker w).pc.comes = true) :
    (p.workerMain w timedout).Crew := by
  have lives : (p.worker w).pc.lives = true := by
    cases here : (p.worker w).pc <;> simp_all [Pc.lives, Pc.comes]
  have count : p.nqueued = p.queue.length := crew.nqueued
  unfold Pool.workerMain
  split
  · rename_i t rest queue
    have some_ : p.nqueued = rest.length + 1 := by rw [count, queue]; rfl
    refine crew.setPc inside (.running t .entry) rfl rfl ?_ rfl ?_ fun up => .inr ⟨up, ?_⟩
    · change p.nlive + (p.worker w).pc.lives.toNat = p.nlive + 1
      rw [lives]; rfl
    · change p.nqueued - 1 = p.queue.tail.length
      rw [some_, queue]; rfl
    · change p.nqueued - 1 + (p.worker w).pc.comes.toNat ≤ p.nqueued + 0
      rw [some_, comes]; exact Nat.le_refl _
  · rename_i queue
    have none : p.nqueued = 0 := by rw [count, queue]; rfl
    split
    · refine crew.setPc inside .retired rfl rfl ?_ rfl count fun _ => .inl none
      have positive : 0 < p.nlive := crew.nlive ▸ count_pos inside lives
      change p.nlive - 1 + (p.worker w).pc.lives.toNat = p.nlive + 0
      rw [lives]
      exact Nat.sub_add_cancel positive
    · refine crew.setPc inside .asleep rfl rfl ?_ ?_ count fun _ => .inl none
      · change p.nlive + (p.worker w).pc.lives.toNat = p.nlive + 1
        rw [lives]; rfl
      · exact Nat.add_right_comm p.idle 1 _

/-- A worker is done with its task. -/
theorem Crew.ready (crew : p.Crew) (inside : w < p.nworker) {phase : Phase}
    (pc : (p.worker w).pc = .running t phase) : (p.on (·.setPc w .ready)).Crew := by
  refine crew.setPc inside .ready rfl rfl ?_ ?_ crew.nqueued fun up => .inr ⟨up, ?_⟩
  · rw [pc]; rfl
  · rw [pc]; rfl
  · rw [pc]; exact Nat.le_succ _

/-- A worker gets on with its task. -/
theorem Crew.phase (crew : p.Crew) (inside : w < p.nworker) {phase : Phase}
    (pc : (p.worker w).pc = .running t phase) (phase' : Phase) :
    (p.on (·.setPc w (.running t phase'))).Crew := by
  refine crew.setPc inside (.running t phase') rfl rfl ?_ ?_ crew.nqueued
    fun up => .inr ⟨up, ?_⟩
  all_goals rw [pc]; rfl

theorem Crew.complete (crew : p.Crew) (t : TaskId) (res : Result) : (p.complete t res).Crew := by
  let q := { p.on (·.finish t res) with
    nrunning := p.nrunning - 1, completions := (p.completions + 1) % 2 ^ 64, unseen := p.unseen + 1 }
  have ended : q.Crew := crew.same rfl rfl rfl (fun _ => rfl) id (Nat.le_refl _) crew.nqueued
  exact ended.apart (·.reapIfDetached t) (apart_reapIfDetached _ t)

theorem Crew.workerCommit (crew : p.Crew) (inside : w < p.nworker) {phase : Phase}
    (pc : (p.worker w).pc = .running t phase) (res : Result) (newfd : Option Fd) (linked : Bool) :
    (p.workerCommit w t res newfd linked).Crew :=
  (Crew.stable.settleSock (Crew.stable.wrapWon (crew.ready inside pc) res newfd linked) t _).complete
    t _

theorem Crew.runStep (crew : p.Crew) (inside : w < p.nworker) {phase : Phase} {act : Act}
    (pc : (p.worker w).pc = .running t phase) (taken : p.runStep w t phase act = some p') :
    p'.Crew := by
  rcases runStep_cases pc taken with ⟨same, works⟩ | ⟨res, newfd, linked, _, rfl⟩ | ⟨_, rfl⟩
  · obtain ⟨next, here⟩ := works.here
    have worker : ∀ v, (p'.worker v).pc = ((p.setPc w (.running t next)).worker v).pc := by
      intro v
      by_cases isW : v = w
      · subst isW; simp [here, Core.setPc, modWorker]
      · simp [works.others v isW, Core.setPc, modWorker, isW]
    have moved := crew.phase inside pc next
    refine moved.same (by rw [same]; rfl) (by rw [same]; rfl) ?_ worker ?_ ?_ ?_ <;> rw [works.rest]
    · rfl
    · exact id
    · exact Nat.le_refl _
    · exact crew.nqueued
  · exact crew.workerCommit inside pc res newfd linked
  · exact (crew.ready inside pc).complete t _

theorem Crew.workerStep (crew : p.Crew) {act : Act} (taken : p.workerStep w act = some p') :
    p'.Crew := by
  unfold Pool.workerStep at taken
  split at taken
  · cases taken
  · rename_i outside
    have inside : w < p.nworker := Nat.lt_of_not_le outside
    split at taken
    · rename_i timedout pc
      cases taken
      refine crew.setPc inside (.woken timedout) rfl rfl ?_ ?_ crew.nqueued
        fun up => .inr ⟨up, ?_⟩
      · rw [pc]; rfl
      · rw [pc]; rfl
      · rw [pc]; exact Nat.le_succ _
    · rename_i pc
      cases taken
      refine Crew.workerMain ?_ inside false (by rw [pc]; rfl)
      rw [pc]
      exact crew
    · rename_i timedout pc
      cases taken
      refine Crew.workerMain (p := { p with idle := p.idle - 1 }) ?_ inside timedout (by
        change (p.worker w).pc.comes = true
        rw [pc]; rfl)
      have positive : 0 < p.idle := crew.idle ▸ count_pos inside (by rw [pc]; rfl)
      have back : p.idle - 1 + (p.worker w).pc.waits.toNat = p.idle := by
        rw [pc]; exact Nat.sub_add_cancel positive
      change Crew { p with idle := p.idle - 1 + (p.worker w).pc.waits.toNat }
      rw [back]
      exact crew
    · rename_i pc
      exact crew.runStep inside pc taken
    · cases taken

theorem Crew.call (crew : p.Crew) {c : Call} (taken : p.call c = some p') : p'.Crew := by
  unfold Pool.call at taken
  split at taken <;> cases taken
  case h_8 => exact crew.same rfl rfl rfl (fun _ => rfl) id (Nat.le_refl _) crew.nqueued
  case h_12 s => exact Crew.stable.implSockClose crew s
  case h_13 => exact crew.aside rfl rfl rfl
  case h_14 => exact crew.aside rfl rfl rfl
  case h_15 t => exact Crew.stable.implCancel crew t (crew.apart (kick · t) (apart_kick _ t))
  case h_16 t =>
    unfold implTaskResult
    split
    · exact crew.aside rfl rfl rfl
    · exact crew
  case h_17 t => exact crew.implTaskFree t
  case h_18 t => exact crew.implTaskDetach t
  case h_19 => exact crew.implDestroy
  all_goals exact Crew.stable.submit crew _ ⟨rfl, rfl, rfl⟩

theorem Crew.resume (crew : p.Crew) {o : Bool} (taken : p.resume o = some p') : p'.Crew := by
  unfold Pool.resume at taken
  split at taken <;> cases taken
  · unfold wrapListener
    split
    · exact crew.same rfl rfl rfl (fun _ => rfl) id (Nat.le_refl _) crew.nqueued
    · exact crew.same rfl rfl rfl (fun _ => rfl) id (Nat.le_refl _) crew.nqueued
  · unfold freeOn
    split
    · exact crew.same rfl rfl rfl (fun _ => rfl) id (Nat.le_refl _) crew.nqueued
    · exact crew
  · unfold pollOn
    split
    · split
      · split <;> exact crew.aside rfl rfl rfl
      · exact crew.aside rfl rfl rfl
    · exact crew.aside rfl rfl rfl
    · split
      · split <;> exact crew.aside rfl rfl rfl
      · exact crew.aside rfl rfl rfl
  · unfold stepOn
    split <;> exact crew.aside rfl rfl rfl
  · exact crew.destroyOn

/-- Every step keeps a worker coming for every queued task. -/
theorem Crew.step (crew : p.Crew) {label : Label} (taken : p.step label = some p') : p'.Crew := by
  cases label with
  | worker w act => exact crew.workerStep taken
  | user call =>
    rcases userStep_cases taken with ⟨_, taken⟩ | ⟨o, rfl, taken⟩
    · exact crew.call taken
    · exact crew.resume taken

/-- An instance starts with no worker and no task. -/
theorem Crew.new (os : Os) : (Pool.new os).Crew :=
  ⟨rfl, rfl, rfl, fun _ => Nat.le_refl _⟩

end Pool

end Myio
