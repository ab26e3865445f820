import Myio.Uv.Ends
import Myio.Uv.Results

/-! The calls and callbacks of the libuv backend, as the moves they are made of. -/

namespace Myio.Uv.Io

open Function (update)

variable {p : Prop} {io io' : Io} {t u : TaskId} {s c : SockId} {k : Task}

/-! ### Callbacks of requests and timers -/

/-- A request that ends on the thread pool. -/
theorem poolEnds_req {status code : Int} (ends : io.poolEnds t status code = true) :
    (io.task t).req = .working ∧ status ≠ code ∨ (io.task t).req = .canceled ∧ status = code := by
  simpa [poolEnds] using ends

theorem fsCb_moves (books : Books p io) {result : Int} (may : io.libuv (.loop (.fs t result)) = true) :
    Moves p io (io.fsCb t result) := by
  simp only [libuv, Bool.and_eq_true, decide_eq_true_eq] at may
  obtain ⟨kind, ends⟩ := may
  have ends := poolEnds_req ends
  have some : (io.task t).req ≠ .none := by
    rcases ends with ⟨working, _⟩ | ⟨canceled, _⟩
    · simp [working]
    · simp [canceled]
  have before := books.slots.req t some
  refine ends_moves books (f := ({ · with req := .none })) (r := (uvResult · result))
    (books.slots.requested some) (.coded ⟨rfl, rfl, rfl, rfl, books.ticking_false (by simp [kind]), id⟩ ((books.told t).imp id fun told => ?_))
    (by simp [(books.plain t).1 before]) (by simp [kind]) (.inr (by simp [kind]))
  rw [told.pool before (.inl kind)]
  rcases ends with ⟨working, other⟩ | ⟨canceled, same⟩
  · simp [working, other]
  · simp [canceled, same]

theorem timerCb_moves (books : Books p io) (may : io.libuv (.loop (.timer t)) = true) :
    Moves p io (io.timerCb t) := by
  obtain ⟨before, kind⟩ := books.slots.ticking t may
  refine ends_moves books (f := ({ · with ticking := false, timerClosing := true })) (r := (uvResult · 0))
    (books.slots.inside (by simp [kind])) (.coded ⟨rfl, rfl, rfl, books.req_none (by simp [kind]), rfl, id⟩ ((books.told t).imp id fun told => ?_))
    (by simp [(books.plain t).1 before]) (by simp [kind]) (.inr (by simp [kind]))
  simp [told.slot before (by simp [kind]) (by simp [kind]) (by simp [kind]), UV_ECANCELED]

theorem timerCloseCb_moves (books : Books p io) (may : io.libuv (.loop (.timerClose t)) = true) :
    Moves p io (io.timerCloseCb t) := by
  simp only [libuv, Bool.and_eq_true, Bool.not_eq_eq_eq_not, Bool.not_true] at may
  have made : t < io.ntask := by
    by_contra outside
    rw [books.slots.unmade t (Nat.le_of_not_lt outside)] at may
    cases may.1
  have closed : Aside io (io.modTask t ({ · with timerClosed := true })) :=
    .modTask made ⟨rfl, rfl, rfl, rfl, rfl, rfl, rfl, id⟩
  unfold timerCloseCb
  dsimp only
  split
  · exact .single (.aside (closed.trans (taskFreeMem_aside made)))
  · exact .single (.aside closed)

theorem writeCb_moves (books : Books p io) {status : Int} (may : io.libuv (.loop (.write t status)) = true) :
    Moves p io (io.writeCb t status) := by
  simp only [libuv, Bool.and_eq_true, decide_eq_true_eq] at may
  obtain ⟨⟨kind, req⟩, _⟩ := may
  have some : (io.task t).req ≠ .none := by simp [req]
  have before := books.slots.req t some
  have ptr : (io.task t).res.ptr = none := by simp [(books.plain t).1 before]
  have idle := books.ticking_false (t := t) (by simp [kind])
  have made := books.slots.requested some
  unfold writeCb
  dsimp only
  split
  · rename_i canceled
    unfold stop
    rw [modTask_modTask]
    refine ends_moves books (f := ({ · with req := .none, stopped := true })) (r := (uvResult · _)) made
      (.coded ⟨rfl, rfl, rfl, rfl, idle, fun _ => rfl⟩ (.inr ?_)) ptr (by simp [kind])
      (.inr (by simp [kind]))
    simp [canceled, UV_ECANCELED]
  · rename_i other
    refine ends_moves books (f := ({ · with req := .none })) (r := (uvResult · _)) made
      (.coded ⟨rfl, rfl, rfl, rfl, idle, id⟩ ((books.told t).imp id fun told => ?_)) ptr (by simp [kind])
      (.inr (by simp [kind]))
    have unstopped := told.slot before (by simp [kind]) (by simp [kind]) (by simp [kind])
    simp only [unstopped, Bool.false_eq_true, iff_false]
    split
    · exact other
    · unfold UV_ECANCELED
      omega

theorem afterWorkCb_moves (books : Books p io) {status fnRet : Int}
    (may : io.libuv (.loop (.afterWork t status fnRet)) = true) : Moves p io (io.afterWorkCb t status fnRet) := by
  simp only [libuv, Bool.and_eq_true, decide_eq_true_eq] at may
  obtain ⟨kind, ends⟩ := may
  have ends := poolEnds_req ends
  have some : (io.task t).req ≠ .none := by
    rcases ends with ⟨working, _⟩ | ⟨canceled, _⟩
    · simp [working]
    · simp [canceled]
  have before := books.slots.req t some
  have ptr : (io.task t).res.ptr = none := by simp [(books.plain t).1 before]
  have idle := books.ticking_false (t := t) (by simp [kind])
  have made := books.slots.requested some
  -- Whether the function was stopped is for libuv to say, not for what the function returned.
  have truth : p ∨ (status = UV_ECANCELED ↔ (io.task t).stopped = true) := by
    refine (books.told t).imp id fun told => ?_
    rw [told.pool before (.inr kind)]
    rcases ends with ⟨working, other⟩ | ⟨canceled, same⟩
    · simp [working, other]
    · simp [canceled, same]
  have apart : (io.task t).kind ≠ .connect ∧ (io.task t).kind ≠ .accept ∧ (io.task t).kind ≠ .sockRead := by
    simp [kind]
  unfold afterWorkCb
  dsimp only
  split
  · exact ends_moves books (f := ({ · with req := .none })) (r := (uvResult · status)) made
      (.coded ⟨rfl, rfl, rfl, rfl, idle, id⟩ truth) ptr apart (.inr (by simp [kind]))
  · rename_i ran
    have unstopped : p ∨ (io.task t).stopped = false := by
      refine truth.imp id fun truth => ?_
      rw [← Bool.not_eq_true, ← truth]
      unfold UV_ECANCELED
      omega
    rw [modTask_modTask]
    split
    · rename_i okay
      refine ends_moves books (f := ({ · with req := .none, fnRet })) (r := (uvResult · fnRet)) made
        (.coded ⟨rfl, rfl, rfl, rfl, idle, id⟩ (unstopped.imp id fun unstopped => ?_)) ptr apart (.inr (by simp [kind]))
      simp only [unstopped, Bool.false_eq_true, iff_false]
      unfold UV_ECANCELED
      omega
    · exact ends_moves books (f := ({ · with req := .none, fnRet }))
        (r := ({ · with status := .error, error := toInt32 (-fnRet) })) made ⟨⟨rfl, rfl, rfl, rfl, idle, id⟩, fun _ => rfl, unstopped.imp id fun unstopped => by simp [unstopped]⟩
        ptr apart (.inr (by simp [kind]))

theorem gaiCb_moves (books : Books p io) {status rc : Int}
    (may : io.libuv (.loop (.gai t status rc)) = true) : Moves p io (io.gaiCb t status rc) := by
  simp only [libuv, Bool.and_eq_true, decide_eq_true_eq, bne_iff_ne, ne_eq, Bool.or_eq_true,
    Bool.not_eq_eq_eq_not, Bool.not_true] at may
  obtain ⟨⟨⟨kind, ends⟩, notCancel⟩, open_⟩ := may
  have ends := poolEnds_req ends
  have pool : Req.onPool (io.task t).req = true := by
    rcases ends with ⟨working, _⟩ | ⟨canceled, _⟩
    · simp [working, Req.onPool]
    · simp [canceled, Req.onPool]
  have before := books.slots.req t (by intro none; rw [none] at pool; cases pool)
  have looking : (io.task t).connecting = false := by
    rcases books.connects.pool t pool with isFs | isSpawn | ⟨_, looking⟩
    · exact absurd (isFs.symm.trans kind) (by simp)
    · exact absurd (isSpawn.symm.trans kind) (by simp)
    · exact looking
  have unstopped : p ∨ (io.task t).stopped = false := (books.told t).imp id fun told =>
    (told.lookup before kind looking).1
  have idle := books.ticking_false (t := t) (by simp [kind])
  unfold gaiCb
  dsimp only
  split
  · exact connectFails_moves books kind before (f := ({ · with req := .none }))
      (r := ({ · with status := .error, error := uvEaiToSystem status }))
      ⟨⟨rfl, rfl, rfl, rfl, idle, id⟩, fun _ => rfl, unstopped.imp id fun unstopped => by simp [unstopped]⟩
  · rename_i found
    rw [modTask_modTask]
    split
    · exact connectFails_moves books kind before (f := ({ · with req := .none, connecting := true }))
        (r := (uvResult · rc)) (.coded ⟨rfl, rfl, rfl, rfl, idle, id⟩ (unstopped.imp id fun unstopped => by simp [unstopped, notCancel]))
    · rename_i started
      have working : (io.task t).req = .working := by
        rcases ends with ⟨working, _⟩ | ⟨_, isCancel⟩
        · exact working
        · unfold UV_EAI_CANCELED at isCancel
          omega
      obtain ⟨s, on, _⟩ := books.connects.stage t ⟨kind, before⟩
      have named : io.sockOf t = s := by simp [sockOf, on]
      have shakes := Move.shake (p := p) t s kind working on (by rw [← named]; exact open_.resolve_left started)
      have same : (io.modTask t fun k => { k with req := .none, connecting := true }).modTask t
          ({ · with req := .onHandle }) = io.modTask t ({ · with connecting := true, req := .onHandle }) := by
        rw [modTask_modTask]
      rw [same]
      exact .single shakes

theorem connectCb_moves (books : Books p io) {status : Int}
    (may : io.libuv (.loop (.connect t status)) = true) : Moves p io (io.connectCb t status) := by
  simp only [libuv, Bool.and_eq_true, decide_eq_true_eq, beq_iff_eq] at may
  obtain ⟨⟨⟨kind, req⟩, _⟩, canceled⟩ := may
  have some : (io.task t).req ≠ .none := by simp [req]
  have before := books.slots.req t some
  have shaking : (io.task t).connecting = true := by
    rcases books.connects.handle t req with isWrite | ⟨_, shaking⟩
    · exact absurd (isWrite.symm.trans kind) (by simp)
    · exact shaking
  obtain ⟨s, on, _⟩ := books.connects.stage t ⟨kind, before⟩
  have named : io.sockOf t = s := by simp [sockOf, on]
  rw [named] at canceled
  have truth : p ∨ (status = UV_ECANCELED ↔ (io.task t).stopped = true) := by
    refine (books.told t).imp id fun told => ?_
    rw [told.shake before kind shaking s on, ← canceled, decide_eq_true_eq]
  have idle := books.ticking_false (t := t) (by simp [kind])
  unfold connectCb
  dsimp only
  split
  · rename_i won
    refine finish_moves books (books.slots.inside (by simp [kind])) (.single ?_)
    have same : (((io.modTask t ({ · with req := .none })).modTask t fun k =>
        { k with res := { k.res with ptr := k.sock } }).modTask t fun k =>
        { k with res := uvResult k.res 0 }).modTask t ({ · with done := true }) =
        io.setTask t { io.task t with
          req := .none, res := uvResult { (io.task t).res with ptr := (io.task t).sock } 0, done := true } := by
      simp [modTask, setTask]
    rw [same]
    refine .connected t s _ kind before on ⟨⟨rfl, rfl, rfl, idle, id⟩, rfl, ?_, rfl, truth.imp id fun truth => ?_⟩
    · simp [on]
    · rw [← Bool.not_eq_true]
      intro stopped
      rw [won] at truth
      exact absurd (truth.mpr stopped) (by simp [UV_ECANCELED])
  · exact connectFails_moves books kind before (f := ({ · with req := .none })) (r := (uvResult · status))
      (.coded ⟨rfl, rfl, rfl, rfl, idle, id⟩ truth)

/-! ### Callbacks of sockets -/

theorem readCb_moves (books : Books p io) {nread : Int} (may : io.libuv (.loop (.read s nread)) = true) :
    Moves p io (io.readCb s nread) := by
  simp only [libuv, Bool.and_eq_true, decide_eq_true_eq, bne_iff_ne, ne_eq] at may
  obtain ⟨reads, other⟩ := may
  have inside : s < io.nsock := books.slots.inside_of_ne fun isNew => by rw [isNew] at reads; cases reads
  unfold readCb
  split
  · exact .refl
  have quiet : Move p io (io.modSock s ({ · with reading := false })) := .aside (.reading inside false)
  dsimp only
  split
  · exact .single quiet
  · rename_i t named
    have after := books.move quiet
    have slot := after.read named
    have code : (if nread = UV_EOF then 0 else nread) ≠ UV_ECANCELED := by
      split
      · unfold UV_ECANCELED; omega
      · exact other
    have leaves := leaveRead_moves after named (slot.reported (.inl rfl) after code)
    rw [modTask_id] at leaves
    exact .head quiet leaves

theorem connectionCb_moves (books : Books p io) {status : Int} {taking : Taking}
    (may : io.libuv (.loop (.connection s status taking)) = true) :
    Moves p io (io.connectionCb s status taking) := by
  simp only [libuv, Bool.and_eq_true, decide_eq_true_eq, bne_iff_ne, ne_eq] at may
  obtain ⟨listens, other⟩ := may
  have inside : s < io.nsock := books.slots.inside_of_ne fun isNew => by rw [isNew] at listens; cases listens
  have old : s ≠ io.nsock := Nat.ne_of_lt inside
  unfold connectionCb
  split
  · split
    · rename_i t named
      have leaves := leaveAccept_moves books named ((books.accept named).reported (.inr rfl) books other)
      rw [modTask_id] at leaves
      exact leaves
    · exact .refl
  dsimp only
  cases taking with
  | noMem => exact .refl
  | refused =>
    -- The socket made for it is known to nobody.
    refine .tail (.single .bare) (.close _ (Nat.lt_succ_self _) (.inr fun u _ on => ?_))
    exact absurd (books.slots.on u _ on) (Nat.lt_irrefl _)
  | taken =>
    dsimp only
    cases named : (io.sock s).acceptTask with
    | some t =>
      have slot := books.accept named
      have isNamed : ((io.sockNew.modSock s fun k => { k with arrived := k.arrived ++ [io.nsock] }).sock
          s).acceptTask = some t := by simp [old, named]
      rw [isNamed]
      dsimp only
      refine finish_moves books slot.made (.single ?_)
      have same : (((((io.sockNew.modSock s fun k => { k with arrived := k.arrived ++ [io.nsock] }).modSock s
          ({ · with acceptTask := none })).modSock s fun k => { k with handed := k.handed ++ [(t, io.nsock)] }).modTask t
          fun k => { k with res := { k.res with ptr := some io.nsock } }).modTask t fun k =>
          { k with res := uvResult k.res 0 }).modTask t ({ · with done := true }) =
          (io.sockNew.setTask t { io.task t with
            res := uvResult { (io.task t).res with ptr := some io.nsock } 0, done := true }).modSock s fun q =>
            { q with arrived := q.arrived ++ [io.nsock], acceptTask := none
                     handed := q.handed ++ [(t, io.nsock)] } := by
        simp [modTask, setTask, modSock]
      rw [same]
      exact .arriveHand s t _ listens named ⟨⟨rfl, rfl, slot.req, slot.ticking, id⟩, rfl, rfl, rfl,
        slot.unstopped (.inr rfl) books⟩
    | none =>
      have isFree : ((io.sockNew.modSock s fun k => { k with arrived := k.arrived ++ [io.nsock] }).sock
          s).acceptTask = none := by simp [old, named]
      rw [isFree]
      dsimp only
      rw [modSock_modSock]
      exact .single (.arrivePark s listens named)

/-- `sock_close_cb`, as far as the read that waits. -/
def dropRead (io : Io) (s : SockId) : Io :=
  match (io.sock s).readTask with
  | some t => (io.cancelSlot t).modSock s ({ · with readTask := none })
  | none => io

theorem dropRead_moves (books : Books p io) (s : SockId) : Moves p io (io.dropRead s) := by
  unfold dropRead
  split
  · rename_i t named
    have slot := books.read named
    rw [cancelSlot_modSock slot.ptr]
    exact leaveRead_moves books named slot.stopped
  · exact .refl

theorem endAccept_moves (books : Books p io) (s : SockId) : Moves p io (io.endAccept s) := by
  unfold endAccept
  split
  · rename_i t named
    have slot := books.accept named
    rw [cancelSlot_modSock slot.ptr]
    exact leaveAccept_moves books named slot.stopped
  · exact .refl

theorem endClose_moves (books : Books p io) (s : SockId) : Moves p io (io.endClose s) := by
  unfold endClose
  split
  · rename_i t named
    have kind := books.slots.close s t named
    have unstopped : p ∨ (io.task t).stopped = false := (books.told t).imp id fun told => told.close kind
    have ends := ends_moves books (books.slots.inside (by simp [kind])) (f := id) (r := (uvResult · 0))
      (.coded ⟨rfl, rfl, rfl, books.req_none (by simp [kind]), books.ticking_false (by simp [kind]), id⟩
        (unstopped.imp id fun unstopped => by simp [unstopped, UV_ECANCELED]))
      ((books.plain t).2 kind) (by simp [kind]) (unstopped.imp id fun unstopped _ => unstopped)
    rw [modTask_id] at ends
    exact ends
  · exact .refl

/-- The memory of the socket may as well be released first. -/
theorem sockCloseCb_moves (books : Books p io) (may : io.libuv (.loop (.sockClose s)) = true) :
    Moves p io (io.sockCloseCb s) := by
  simp only [libuv, Bool.and_eq_true, decide_eq_true_eq] at may
  obtain ⟨⟨closing, _⟩, quiet⟩ := may
  have inside : s < io.nsock := books.slots.inside_of_ne fun isNew => by rw [isNew] at closing; cases closing
  let free : Sock → Sock := fun k => { k with frees := k.frees + 1 }
  have read : ∀ {q : Io}, Books p q → (q.dropRead s).modSock s free = (q.modSock s free).dropRead s := by
    intro q books
    unfold dropRead
    simp only [modSock_sock, if_true]
    cases named : (q.sock s).readTask with
    | none => simp [free, named]
    | some t =>
      have ptr := (books.read named).ptr
      have after : ((q.modSock s free).task t).res.ptr = none := ptr
      have named : (free (q.sock s)).readTask = some t := named
      simp only [named]
      rw [modSock_modSock, cancelSlot_modSock ptr, cancelSlot_modSock after, modSock_modSock]
  have accept : ∀ {q : Io}, Books p q → (q.endAccept s).modSock s free = (q.modSock s free).endAccept s := by
    intro q books
    unfold endAccept
    simp only [modSock_sock, if_true]
    cases named : (q.sock s).acceptTask with
    | none => simp [free, named]
    | some t =>
      have ptr := (books.accept named).ptr
      have after : ((q.modSock s free).task t).res.ptr = none := ptr
      have named : (free (q.sock s)).acceptTask = some t := named
      simp only [named]
      rw [modSock_modSock, cancelSlot_modSock ptr, cancelSlot_modSock after, modSock_modSock]
  have close : ∀ {q : Io}, Books p q → (q.endClose s).modSock s free = (q.modSock s free).endClose s := by
    intro q books
    unfold endClose
    simp only [modSock_sock, if_true]
    cases named : (q.sock s).closeTask with
    | none => simp [free, named]
    | some t =>
      simp only [free, named]
      exact taskComplete_modSock ((books.plain t).2 (books.slots.close s t named)) 0 free
  have afterRead := books.moves (dropRead_moves books s)
  have afterAccept := afterRead.moves (endAccept_moves afterRead s)
  have same : io.sockCloseCb s = (((io.modSock s free).dropRead s).endAccept s).endClose s := by
    rw [← read books, ← accept afterRead, ← close afterAccept]
    rfl
  rw [same]
  have freed : Moves p io (io.modSock s free) := .single (.closed s inside closing quiet)
  have first := freed.trans (dropRead_moves (books.moves freed) s)
  have second := first.trans (endAccept_moves (books.moves first) s)
  exact second.trans (endClose_moves (books.moves second) s)

/-! ### Submissions -/

/-- A task is made and ends at once with what libuv answers. -/
theorem made_ends (books : Books p io) (fresh : Fresh k)
    (kind : k.kind ≠ .connect ∧ k.kind ≠ .accept ∧ k.kind ≠ .sockRead)
    (given : ∀ s, k.sock = some s → io.claimed s = true) {n : Int} (other : n ≠ UV_ECANCELED) :
    Moves p io ((io.taskNew k).taskComplete io.ntask n) := by
  have made : Move p io (io.taskNew k) := .make k fresh kind given
  have self : (io.taskNew k).task io.ntask = k := by simp
  have last : Last ((io.taskNew k).task io.ntask) (id ((io.taskNew k).task io.ntask)) := by
    rw [self]
    exact ⟨rfl, rfl, rfl, fresh.req, fresh.ticking, id⟩
  have ends := ends_moves (books.move made) (t := io.ntask) (f := id) (r := (uvResult · n)) (Nat.lt_succ_self _)
    (.coded last (.inr (by rw [self]; simp [other, fresh.stopped]))) (by rw [self]; simp [fresh.res])
    (by rw [self]; exact kind) (.inr fun _ => by rw [self]; exact fresh.stopped)
  rw [modTask_id] at ends
  exact .head made ends

/-- A task is made and its request goes out. -/
theorem made_requests (fresh : Fresh k)
    (kind : k.kind ≠ .connect ∧ k.kind ≠ .accept ∧ k.kind ≠ .sockRead)
    (given : ∀ s, k.sock = some s → io.claimed s = true) {req : Req}
    (fits : (k.kind = .fs ∨ k.kind = .spawn) ∧ req = .queued ∨ k.kind = .sockWrite ∧ req = .onHandle) :
    Moves p io ((io.taskNew k).modTask io.ntask ({ · with req })) := by
  have self : (io.taskNew k).task io.ntask = k := by simp
  refine .tail (.single (.make k fresh kind given))
    (.request io.ntask req (Nat.lt_succ_self _) ?_ ?_ ?_)
  · rw [self]; exact fresh.done
  · rw [self]; exact fits
  · rw [self]; exact fresh.stopped

theorem fsSubmit_moves (books : Books p io) {len : Nat} {rc : Int} (may : rc ≠ UV_ECANCELED) :
    Moves p io (io.fsSubmit len rc) := by
  unfold fsSubmit
  dsimp only
  split
  · exact made_ends books ⟨rfl, rfl, rfl, rfl, rfl, rfl⟩ (by simp) (by simp) may
  · exact made_requests ⟨rfl, rfl, rfl, rfl, rfl, rfl⟩ (by simp) (by simp) (by simp)

theorem implSleep_moves (books : Books p io) {rc : Int} (may : rc ≠ UV_ECANCELED) :
    Moves p io (io.implSleep rc) := by
  unfold implSleep
  dsimp only
  split
  · have ends := made_ends (k := { kind := .timer }) books ⟨rfl, rfl, rfl, rfl, rfl, rfl⟩ (by simp) (by simp) may
    have made : io.ntask < ((io.taskNew { kind := .timer }).taskComplete io.ntask rc).ntask := by
      have same : ((io.taskNew { kind := .timer }).taskComplete io.ntask rc).ntask = io.ntask + 1 := by
        simp [taskComplete, taskFinish]
      rw [same]
      exact Nat.lt_succ_self _
    exact .tail ends (.aside (timerClose_aside made))
  · refine .tail (.single (.make _ ⟨rfl, rfl, rfl, rfl, rfl, rfl⟩ (by simp) (by simp)))
      (.tick io.ntask (Nat.lt_succ_self _) ?_ ?_)
    · simp
    · simp

theorem implSpawn_moves (books : Books p io) {rc : Int} (may : rc ≠ UV_ECANCELED) :
    Moves p io (io.implSpawn rc) := by
  unfold implSpawn
  dsimp only
  split
  · exact made_ends books ⟨rfl, rfl, rfl, rfl, rfl, rfl⟩ (by simp) (by simp) may
  · exact made_requests ⟨rfl, rfl, rfl, rfl, rfl, rfl⟩ (by simp) (by simp) (by simp)

theorem implSockWrite_moves (books : Books p io) {len : Nat} {rc : Int} (given : io.claimed s = true)
    (may : rc ≠ UV_ECANCELED) : Moves p io (io.implSockWrite s len rc) := by
  have isGiven : ∀ c, some s = some c → io.claimed c = true := by
    rintro c ⟨⟩
    exact given
  unfold implSockWrite
  dsimp only
  split
  · exact made_ends books ⟨rfl, rfl, rfl, rfl, rfl, rfl⟩ (by simp) isGiven may
  · exact made_requests ⟨rfl, rfl, rfl, rfl, rfl, rfl⟩ (by simp) isGiven (by simp)

theorem implSockRead_moves (books : Books p io) {len : Nat} {rc : Int} (given : io.claimed s = true)
    (may : rc ≠ UV_ECANCELED) : Moves p io (io.implSockRead s len rc) := by
  unfold implSockRead
  split
  · exact .single (.failed _ _ (by simp))
  rename_i free
  have free : (io.sock s).readTask = none := by simpa using free
  generalize isK : ({ kind := .sockRead, sock := some s, len := len % 2 ^ 32 } : Task) = k
  have waits : Move p io ((io.taskNew k).modSock s ({ · with readTask := some io.ntask })) := by
    subst isK
    exact .waitRead s _ ⟨rfl, rfl, rfl, rfl, rfl, rfl⟩ rfl rfl given free
  have after := books.move waits
  have named : (((io.taskNew k).modSock s ({ · with readTask := some io.ntask })).sock s).readTask =
      some io.ntask := by simp
  dsimp only
  split
  · have leaves := leaveRead_moves after named ((after.read named).reported (.inl rfl) after may)
    rw [modTask_id] at leaves
    exact .head waits leaves
  · have inside : s < ((io.taskNew k).modSock s ({ · with readTask := some io.ntask })).nsock :=
      books.slots.claimed s given
    exact .tail (.single waits) (.aside (.reading inside true))

theorem implTcpAccept_moves (books : Books p io) (given : io.claimed s = true) :
    Moves p io (io.implTcpAccept s) := by
  unfold implTcpAccept
  split
  · exact .single (.failed _ _ (by simp))
  rename_i free
  have free : (io.sock s).acceptTask = none := by simpa using free
  dsimp only
  rw [taskNew_sock]
  cases parked : (io.sock s).pending with
  | nil => exact .single (.waitAccept s given free parked)
  | cons c rest =>
    dsimp only
    refine finish_moves books (Nat.lt_succ_self _) (.single ?_)
    have same : ((((((io.taskNew { kind := .accept, sock := some s }).modSock s fun k =>
        { k with pending := (wqPop k.pending).1 }).modSock s fun k =>
        { k with handed := k.handed ++ [(io.ntask, c)] }).modTask io.ntask fun k =>
        { k with res := { k.res with ptr := some c } }).modTask io.ntask fun k =>
        { k with res := uvResult k.res 0 }).modTask io.ntask ({ · with done := true })) =
        (io.taskNew { kind := .accept, sock := some s, done := true
                      res := uvResult { rPending with ptr := some c } 0 }).modSock s fun q =>
          { q with pending := rest, handed := q.handed ++ [(io.ntask, c)] } := by
      simp [modTask, taskNew, modSock, wqPop, parked]
    rw [same]
    exact .serve s c rest _ ⟨⟨rfl, rfl, rfl, rfl, id⟩, rfl, rfl, rfl, .inr rfl⟩ given free parked

theorem implTcpListen_moves (books : Books p io) (rc : Int) : Moves p io (io.implTcpListen rc) := by
  unfold implTcpListen
  dsimp only
  split
  · refine .tail (.single .bare) (.close _ (Nat.lt_succ_self _) (.inr fun u _ on => ?_))
    exact absurd (books.slots.on u _ on) (Nat.lt_irrefl _)
  · exact .single .listen

end Myio.Uv.Io
