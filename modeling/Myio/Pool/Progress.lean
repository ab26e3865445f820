import Myio.Pool.Places

/-! What `step` sees, and what the loops built on it return. -/

namespace Myio

/-- The waiting loop the user thread is in. -/
def User.goal? : User → Option Goal
  | .polling goal _ | .stepping goal => some goal
  | _ => none

namespace Pool

open Core

variable {p p' : Pool} {w : WorkerId} {t : TaskId}

/-! ### The counters of completions -/

/-- The counters `step` compares, with the history beside them. -/
def ledger (p : Pool) : Nat × Nat × Nat := (p.completions, p.compSeen, p.unseen)

/-- No piece of a call and no dispatch counts a completion. -/
theorem ledger_stable (before : Nat × Nat × Nat) : Stable fun p => p.ledger = before where
  piece same _ := same
  dispatch {p} same t := by
    unfold dispatchLocked spawnThread
    dsimp only
    split
    · exact same
    · split
      · rename_i eq
        split at eq <;> cases eq
        exact same
      · rename_i eq
        split at eq <;> cases eq
        exact same

theorem call_ledger {c : Call} (sound : Sound p.rest) (taken : p.call c = some p') :
    p'.ledger = p.ledger := by
  have stable := ledger_stable p.ledger
  unfold Pool.call at taken
  split at taken <;> cases taken
  case h_8 => rfl
  case h_12 s => exact stable.implSockClose rfl s
  case h_13 => rfl
  case h_14 => rfl
  case h_15 t => exact stable.implCancel rfl t rfl
  case h_16 t => unfold implTaskResult; split <;> rfl
  case h_17 t =>
    unfold implTaskFree
    split
    · rfl
    · split
      · exact stable.completeUnrun rfl t
      · dsimp only; split <;> rfl
  case h_18 t =>
    unfold implTaskDetach dropSock
    dsimp only
    split
    · split <;> rfl
    · rfl
  case h_19 => rw [implDestroy_eq sound]; rfl
  all_goals exact stable.submit rfl _ ⟨rfl, rfl, rfl⟩

/-- A worker completes tasks only in a commit, and a commit is counted. -/
theorem workerStep_ledger {act : Act} (taken : p.workerStep w act = some p') :
    (p'.ledger = p.ledger ∧ ∀ t, (p'.task t).done = (p.task t).done) ∨
      (p'.completions = (p.completions + 1) % 2 ^ 64 ∧ p'.compSeen = p.compSeen ∧
        p'.unseen = p.unseen + 1) := by
  have counted : ∀ {q : Pool} t res, q.ledger = p.ledger →
      (q.complete t res).completions = (p.completions + 1) % 2 ^ 64 ∧
        (q.complete t res).compSeen = p.compSeen ∧ (q.complete t res).unseen = p.unseen + 1 := by
    intro q t res same
    simp only [ledger, Prod.mk.injEq] at same
    obtain ⟨completions, compSeen, unseen⟩ := same
    unfold complete
    exact ⟨by rw [← completions]; rfl, compSeen, by rw [← unseen]; rfl⟩
  have main : ∀ {q : Pool} timedout, q.toCore = p.toCore → q.ledger = p.ledger →
      (q.workerMain w timedout).ledger = p.ledger ∧
        ∀ t, ((q.workerMain w timedout).task t).done = (p.task t).done := by
    intro q timedout core same
    unfold workerMain
    split
    · refine ⟨same, fun t => ?_⟩
      simp only [take, on, setPc, modWorker, modTask, Function.update_apply, core]
      split
      · rename_i here; rw [here]
      · rfl
    · split
      all_goals exact ⟨same, fun t => by rw [← core]; rfl⟩
  unfold Pool.workerStep at taken
  split at taken
  · cases taken
  · split at taken
    · cases taken; exact .inl ⟨rfl, fun _ => rfl⟩
    · cases taken; exact .inl (main _ rfl rfl)
    · cases taken; exact .inl (main _ rfl rfl)
    · rename_i t phase pc
      rcases runStep_cases pc taken with ⟨same, works⟩ | ⟨res, newfd, linked, _, rfl⟩ | ⟨_, rfl⟩
      · exact .inl ⟨by rw [same]; rfl, fun u => by rw [works.task u]⟩
      · have stable := ledger_stable p.ledger
        have ready : (p.on (·.setPc w .ready)).ledger = p.ledger := rfl
        exact .inr (counted _ _ (stable.settleSock (stable.wrapWon ready res newfd linked) t _))
      · exact .inr (counted _ _ rfl)
    · cases taken

/-! ### What a waiting loop has seen -/

/-- Two counters that wrap at a bound agree only if nothing came between, or a whole round did. -/
theorem eq_zero_of_wrap {bound seen more : Nat} (inside : seen < bound) (few : more < bound)
    (same : (seen + more) % bound = seen) : more = 0 := by
  rcases Nat.lt_or_ge (seen + more) bound with less | above
  · rw [Nat.mod_eq_of_lt less] at same; omega
  · rw [Nat.mod_eq_sub_mod above, Nat.mod_eq_of_lt (by omega)] at same; omega

/--
What the user thread knows inside a waiting loop: a task it polled and found not done, and that is
done now, was completed by a worker since the last look at the counters.
-/
structure Watches (p : Pool) : Prop where
  seen : p.compSeen < 2 ^ 64
  counted : p.completions = (p.compSeen + p.unseen) % 2 ^ 64
  polling : ∀ goal rest, p.user = .polling goal rest →
    ∃ past, Goal.round goal = past ++ rest ∧
      ∀ t, some t ∈ past → (p.task t).done = true → 0 < p.unseen
  stepping : ∀ goal, p.user = .stepping goal → (goal = .step ∨ ∃ t, some t ∈ Goal.round goal) ∧
    ∀ t, some t ∈ Goal.round goal → (p.task t).done = true → 0 < p.unseen

/-- With the counters equal, no worker has completed anything since the last step. -/
theorem Watches.unseen_zero (watches : p.Watches) (few : p.unseen < 2 ^ 64)
    (same : p.completions = p.compSeen) : p.unseen = 0 :=
  eq_zero_of_wrap watches.seen few (watches.counted.symm.trans same)

/-- Outside the waiting loops only the counters have to agree. -/
theorem Watches.level (seen : p.compSeen < 2 ^ 64)
    (counted : p.completions = (p.compSeen + p.unseen) % 2 ^ 64) (outside : p.user.goal? = none) :
    p.Watches := by
  refine ⟨seen, counted, fun goal rest user => ?_, fun goal user => ?_⟩
  · rw [user] at outside; cases outside
  · rw [user] at outside; cases outside

/-- Outside the waiting loops the counters stay as they are. -/
theorem Watches.outside (watches : p.Watches) (same : p'.ledger = p.ledger)
    (outside : p'.user.goal? = none) : p'.Watches := by
  simp only [ledger, Prod.mk.injEq] at same
  obtain ⟨completions, compSeen, unseen⟩ := same
  refine .level (compSeen ▸ watches.seen) ?_ outside
  rw [completions, compSeen, unseen]; exact watches.counted

theorem Watches.workerStep (watches : p.Watches) {act : Act}
    (taken : p.workerStep w act = some p') : p'.Watches := by
  have user : p'.user = p.user := (Stays.workerStep taken).user
  rcases workerStep_ledger taken with ⟨same, done⟩ | ⟨completions, compSeen, unseen⟩
  · simp only [ledger, Prod.mk.injEq] at same
    obtain ⟨completions, compSeen, unseen⟩ := same
    constructor
    case seen => rw [compSeen]; exact watches.seen
    case counted => rw [completions, compSeen, unseen]; exact watches.counted
    case polling =>
      simp only [user, unseen, done]; exact watches.polling
    case stepping => simp only [user, unseen, done]; exact watches.stepping
  · -- Whatever was completed, the completion shows in the counter.
    have some_ : 0 < p'.unseen := by rw [unseen]; exact Nat.succ_pos _
    constructor
    case seen => rw [compSeen]; exact watches.seen
    case counted =>
      rw [completions, compSeen, unseen, watches.counted, Nat.mod_add_mod, Nat.add_assoc]
    case polling =>
      intro goal rest here
      obtain ⟨past, round, _⟩ := watches.polling goal rest (user.symm.trans here)
      exact ⟨past, round, fun _ _ _ => some_⟩
    case stepping =>
      intro goal here
      exact ⟨(watches.stepping goal (user.symm.trans here)).1, fun _ _ _ => some_⟩

/-- A round of polls begins. -/
theorem Watches.begin (seen : p.compSeen < 2 ^ 64)
    (counted : p.completions = (p.compSeen + p.unseen) % 2 ^ 64) {goal : Goal}
    (user : p.user = .polling goal (Goal.round goal)) : p.Watches := by
  refine ⟨seen, counted, fun goal' rest here => ?_, fun goal' here => ?_⟩
  · obtain ⟨rfl, rfl⟩ := User.polling.inj (user.symm.trans here)
    exact ⟨[], rfl, by simp⟩
  · rw [user] at here; cases here

theorem Watches.call {c : Call} (watches : p.Watches) (sound : Sound p.rest) (idle : p.user = .idle)
    (taken : p.call c = some p') : p'.Watches := by
  have same := call_ledger sound taken
  have stable := Stays.stable p
  have back : p'.user = p.user → p'.Watches := fun user =>
    watches.outside same (by rw [user, idle]; rfl)
  cases c with
  | wait goal =>
    cases goal with
    | step =>
      cases taken
      refine ⟨watches.seen, watches.counted, fun _ _ here => ?_, fun goal' here => ?_⟩
      · cases here
      · cases here; exact ⟨.inl rfl, fun t there => by cases there⟩
    | await t => cases taken; exact .begin watches.seen watches.counted rfl
    | select ts => cases taken; exact .begin watches.seen watches.counted rfl
  | tcpListen => cases taken; exact watches.outside same rfl
  | sockClose s => cases taken; exact back (stable.implSockClose (.refl p) s).user
  | cancel t => cases taken; exact back (stable.implCancel (.refl p) t ((Stays.refl p).apart (kick · t) (apart_kick _ t))).user
  | taskResult t => cases taken; refine back ?_; unfold implTaskResult; split <;> rfl
  | taskFree t =>
    cases taken
    refine watches.outside same ?_
    unfold implTaskFree
    split
    · change p.user.goal? = none; rw [idle]; rfl
    · split
      · change (p.completeUnrun t).user.goal? = none
        rw [(stable.completeUnrun (.refl p) t).user, idle]; rfl
      · rfl
  | taskDetach t =>
    cases taken
    refine back ?_
    unfold implTaskDetach dropSock
    dsimp only
    split
    · split <;> rfl
    · rfl
  | destroy => cases taken; exact watches.outside same (by rw [implDestroy_eq sound]; rfl)
  | resume => cases taken
  | _ => cases taken; exact back (stable.submit (.refl p) _ ⟨rfl, rfl, rfl⟩).user

/-- The polls of a waiting loop, one by one. -/
theorem Watches.pollOn {goal : Goal} {rest : List (Option TaskId)} (watches : p.Watches)
    (user : p.user = .polling goal rest) : (p.pollOn goal rest).Watches := by
  obtain ⟨past, round, polled⟩ := watches.polling goal rest user
  -- A poll that goes on adds one entry to those that were found not done.
  have next : ∀ first rest', rest = first :: rest' → (∀ t, first = some t → (p.task t).done = false) →
      Watches { p with user := .polling goal rest' } := by
    intro first rest' split_ open_
    refine ⟨watches.seen, watches.counted, fun goal' rest'' here => ?_, fun goal' here => ?_⟩
    case refine_2 => cases here
    cases here
    refine ⟨past ++ [first], by rw [round, split_]; simp, fun t there done => ?_⟩
    rcases List.mem_append.mp there with before | last
    · exact polled t before done
    · have := open_ t (by simpa [eq_comm] using last)
      exact Bool.noConfusion (this.symm.trans done)
  have ends : ∀ ret, Watches { p with user := .idle, ret := ret } := fun ret =>
    watches.outside rfl rfl
  have steps : rest = [] → (goal = .step ∨ ∃ t, some t ∈ Goal.round goal) →
      Watches { p with user := .stepping goal } := by
    intro empty some_
    refine ⟨watches.seen, watches.counted, fun _ _ here => ?_, fun goal' here => ?_⟩
    case refine_1 => cases here
    cases here
    refine ⟨some_, fun t there => polled t ?_⟩
    rw [round, empty] at there
    simpa using there
  unfold Pool.pollOn
  split
  · split
    · rename_i ts
      split
      · exact ends _
      · rename_i notAll
        refine steps rfl (.inr ?_)
        by_contra none
        refine notAll (List.all_eq_true.mpr fun entry there => ?_)
        cases entry with
        | none => rfl
        | some t => exact absurd ⟨t, there⟩ none
    · rename_i notSelect
      refine steps rfl ?_
      cases goal with
      | step => exact .inl rfl
      | await t => exact .inr ⟨t, by simp [Goal.round]⟩
      | select ts => exact absurd rfl (notSelect ts)
  · exact next _ _ rfl (by simp)
  · rename_i t rest'
    split
    · split <;> exact ends _
    · rename_i open_
      refine next _ _ rfl fun u same => ?_
      cases same
      simpa using open_

/-- A look at the counters. -/
theorem Watches.stepOn {goal : Goal} (watches : p.Watches) : (p.stepOn goal).Watches := by
  have fits : p.completions < 2 ^ 64 := watches.counted ▸ Nat.mod_lt _ (by decide)
  have caught : p.completions = (p.completions + 0) % 2 ^ 64 := (Nat.mod_eq_of_lt fits).symm
  have level : p.implStep = .zero → p.completions = (p.compSeen + 0) % 2 ^ 64 := fun zero => by
    have same : p.completions = p.compSeen := by
      unfold implStep at zero
      split at zero
      · rename_i same; exact same
      · cases zero
    rw [same]; exact (Nat.mod_eq_of_lt watches.seen).symm
  unfold Pool.stepOn
  split
  · exact watches
  · exact .level fits caught rfl
  · exact .begin fits caught rfl
  all_goals
    rename_i zero
    exact .level watches.seen (level zero) rfl

theorem Watches.resume {o : Bool} (watches : p.Watches) (taken : p.resume o = some p') :
    p'.Watches := by
  unfold Pool.resume at taken
  split at taken <;> cases taken
  · refine watches.outside ?_ ?_ <;> (unfold wrapListener; split <;> rfl)
  · rename_i user
    refine watches.outside ?_ ?_ <;> (unfold freeOn; split)
    · rfl
    · rfl
    · rfl
    · rw [user]; rfl
  · rename_i user; exact watches.pollOn user
  · exact watches.stepOn
  · rename_i user
    refine watches.outside ?_ ?_ <;> (unfold destroyOn; split)
    · rfl
    · rfl
    · rfl
    · rw [user]; rfl

/-- In every state of a run the user thread has missed nothing. -/
theorem Run.watches {os : Os} (run : Run (Pool.new os) p) : p.Watches := by
  induction run with
  | refl => exact .level (Nat.two_pow_pos 64) rfl rfl
  | snoc before obeyed taken ih =>
    rename_i label
    cases label with
    | worker w act => exact ih.workerStep taken
    | user call =>
      rcases userStep_cases taken with ⟨idle, taken⟩ | ⟨_, rfl, taken⟩
      · exact ih.call (Run.good before).sound idle taken
      · exact ih.resume taken

/-! ### What the loops return -/

/-- With no task queued and none running, every task is done. -/
theorem done_of_idle (sound : Sound p.rest) (nqueued : p.nqueued = 0) (nrunning : p.nrunning = 0)
    (inside : t < p.ntask) : (p.task t).done = true := by
  have placed : p.Placed (fun _ => false) fun _ => false := sound.placed
  have counted : p.Counted fun _ => false := sound.counted
  have empty : p.queue = [] := List.length_eq_zero_iff.mp (counted.nqueued.symm.trans nqueued)
  have unqueued : ∀ u, ¬ p.Queued u := fun u queued => by
    have there : u ∈ p.queue := InPlace.reaches (show p.InPlace u .queued from queued)
    rw [empty] at there
    cases there
  have unrun : ∀ u, ¬ p.Running u := by
    rintro u ⟨started, w, runs, _⟩
    obtain ⟨below, isOpen, _⟩ := (placed.run_pending w u runs).1
    exact Machine.count_eq_zero.mp (counted.nrunning.symm.trans nrunning) u below ⟨isOpen, started⟩
  -- A parked task stands behind one that is queued or running.
  cases done : (p.task t).done with
  | true => rfl
  | false =>
    exfalso
    obtain ⟨place, here⟩ := placed.inPlace (pending_iff.mpr ⟨inside, done⟩)
    cases place with
    | queued => exact unqueued t here
    | running => exact unrun t here
    | parked =>
      obtain ⟨_, _, _, _, head, _, _, _, _, queued | running⟩ := here
      · exact unqueued head queued
      · exact unrun head running

/-- What the answers of `impl_step` mean for the counters. -/
theorem implStep_cases (p : Pool) :
    (p.implStep = .zero ∧ p.completions = p.compSeen ∧ p.nqueued = 0 ∧ p.nrunning = 0) ∨
      (p.implStep = .wait ∧ p.completions = p.compSeen) ∨ p.implStep = .one := by
  unfold implStep
  split
  · rename_i same
    split
    · rename_i idle; exact .inl ⟨rfl, same, idle⟩
    · exact .inr (.inl ⟨rfl, same⟩)
  · exact .inr (.inr rfl)

/-- Inside `await` or `select` the answer is never that the loop has run dry. -/
theorem implStep_ne_zero {goal : Goal} (good : p.Good) (watches : p.Watches)
    (few : p.unseen < 2 ^ 64) (user : p.user = .stepping goal) (waits : goal ≠ .step) :
    p.implStep ≠ .zero := by
  intro zero
  rcases implStep_cases p with ⟨_, same, nqueued, nrunning⟩ | ⟨other, _⟩ | other
  · obtain ⟨rounds, missed⟩ := watches.stepping goal user
    obtain ⟨t, there⟩ := rounds.resolve_left waits
    have held := good.tidy.named t (by rw [user]; exact there)
    have done := done_of_idle good.sound nqueued nrunning (good.sound.lives.bound t held)
    -- It is done, yet its round found it not done: its completion has been counted.
    exact Nat.ne_of_gt (missed t there done) (watches.unseen_zero few same)
  · rw [other] at zero; cases zero
  · rw [other] at zero; cases zero

/-- What a waiting loop returns: the result or the index of a task that is done. -/
def Answers (p : Pool) (ret : Option Ret) : Goal → Prop
  | .step => ret = some (.stepped 0) ∨ ret = some (.stepped 1)
  | .await t => (p.task t).done = true ∧ ret = some (.awaited (p.task t).res)
  | .select ts => ∃ (i : Nat) (t : TaskId), ts[i]? = some (some t) ∧ (p.task t).done = true ∧
      ret = some (.selected i)

/-- A poll that ends the loop has found a task done. -/
theorem pollOn_answers {goal : Goal} {rest : List (Option TaskId)} (watches : p.Watches)
    (user : p.user = .polling goal rest) (some_ : ∃ t, some t ∈ Goal.round goal)
    (back : (p.pollOn goal rest).user = .idle) : p.Answers (p.pollOn goal rest).ret goal := by
  obtain ⟨past, round, _⟩ := watches.polling goal rest user
  cases rest with
  | nil =>
    cases goal with
    | select ts =>
      obtain ⟨t, there⟩ := some_
      have notAll : ts.all Option.isNone = false := by
        refine List.all_eq_false.mpr ⟨some t, there, by simp⟩
      simp [Pool.pollOn, notAll] at back
    | step => cases back
    | await t => cases back
  | cons entry rest =>
    cases entry with
    | none => cases back
    | some t =>
      cases done : (p.task t).done with
      | false => simp [Pool.pollOn, done] at back
      | true =>
        cases goal with
        | step => simp [Goal.round] at round
        | await u =>
          -- There is a single entry to poll.
          have single : [some u] = past ++ some t :: rest := round
          obtain ⟨rfl, rfl, rfl⟩ : past = [] ∧ u = t ∧ rest = [] := by
            cases past <;> simp_all
          simp [Answers, Pool.pollOn, done]
        | select ts =>
          have whole : ts = past ++ some t :: rest := round
          have index : ts.length - (rest.length + 1) = past.length := by rw [whole]; simp
          refine ⟨past.length, t, by rw [whole]; simp, done, ?_⟩
          simp [Pool.pollOn, done, index]

/-- Inside `await` or `select` a step goes on to the next round of polls. -/
theorem stepOn_goes_on {goal : Goal} (going : p.implStep ≠ .zero) (waits : goal ≠ .step)
    (user : p.user = .stepping goal) : (p.stepOn goal).user ≠ .idle := by
  unfold Pool.stepOn
  split
  · rw [user]; simp
  · exact absurd rfl waits
  · simp
  all_goals
    rename_i zero
    exact absurd zero going

/--
In every state of a run, with fewer than `2 ^ 64` completions since the last step: `impl_step`
answers zero only when every task is done, and it waits only when no worker has completed anything
since the last step. So `await` returns with the result of its task, and `select` with the index of
a task that is done.
-/
theorem step_sees_completions {os : Os} (run : Run (Pool.new os) p) (few : p.unseen < 2 ^ 64) :
    (p.implStep = .zero → ∀ t : TaskId, t < p.ntask → (p.task t).done = true) ∧
    (p.implStep = .wait → p.unseen = 0) ∧
    (∀ goal, p.user = .stepping goal → goal ≠ .step → p.implStep ≠ .zero) ∧
    (∀ goal ok p', p.user.goal? = some goal → (∃ t, some t ∈ Goal.round goal) →
      p.resume ok = some p' → p'.user = .idle → p.Answers p'.ret goal) := by
  have good := run.good
  have watches := run.watches
  have going : ∀ goal, p.user = .stepping goal → goal ≠ .step → p.implStep ≠ .zero :=
    fun _ user waits => implStep_ne_zero good watches few user waits
  refine ⟨fun zero t inside => ?_, fun wait => ?_, going, fun goal ok p' waiting some_ taken back => ?_⟩
  · rcases implStep_cases p with ⟨_, _, nqueued, nrunning⟩ | ⟨other, _⟩ | other
    · exact done_of_idle good.sound nqueued nrunning inside
    · rw [other] at zero; cases zero
    · rw [other] at zero; cases zero
  · rcases implStep_cases p with ⟨other, _⟩ | ⟨_, same⟩ | other
    · rw [other] at wait; cases wait
    · exact watches.unseen_zero few same
    · rw [other] at wait; cases wait
  · cases user : p.user with
    | polling goal' rest =>
      rw [user] at waiting
      obtain rfl : goal' = goal := Option.some.inj waiting
      simp only [Pool.resume, user, Option.some.injEq] at taken
      subst taken
      exact pollOn_answers watches user some_ back
    | stepping goal' =>
      rw [user] at waiting
      obtain rfl : goal' = goal := Option.some.inj waiting
      simp only [Pool.resume, user, Option.some.injEq] at taken
      subst taken
      have waits : goal' ≠ .step := by
        rintro rfl
        obtain ⟨t, there⟩ := some_
        cases there
      exact absurd back (stepOn_goes_on (going goal' user waits) waits user)
    | _ => rw [user] at waiting; cases waiting

/-- A sleep ends between the poll of its waiter and the look at the counters. -/
def lateCompletion : List Label :=
  [.user .sleep, .worker 0 .main, .user (.wait (.await 0)), .user (.resume true),
    .user (.resume true), .worker 0 .enter, .worker 0 (.check true), .worker 0 (.ret 0 0),
    .worker 0 (.commit true), .user (.resume true)]

theorem step_sees_completions_late :
    (after lateCompletion).unseen < 2 ^ 64 ∧
    (after lateCompletion).user = .polling (.await 0) [some 0] ∧
    (after lateCompletion).Answers (after (lateCompletion ++ [.user (.resume true)])).ret (.await 0) := by
  obtain ⟨_, _, _, returns⟩ := step_sees_completions (run_after lateCompletion (by decide +kernel)) (by decide +kernel)
  refine ⟨by decide +kernel, by decide +kernel, returns _ true _ ?_ ⟨0, by decide +kernel⟩ rfl (by decide +kernel)⟩
  decide

end Pool

end Myio
