import Myio.Uv.Steps

/-! The calls of the libuv backend that close sockets, take operations back or tear down, as moves. -/

namespace Myio.Uv.Io

open Function (update)

variable {p : Prop} {io io' : Io} {t u : TaskId} {s c : SockId} {k : Task}

/-! ### Connecting -/

theorem implTcpConnect_moves (books : Books p io) (rc : Int) : Moves p io (io.implTcpConnect rc) := by
  let k : Task := { kind := .connect, sock := some io.nsock }
  have looks : Move p io (io.taskNew { k with req := .queued }).sockNew := .lookup
  have self : ((io.taskNew { k with req := .queued }).sockNew.task io.ntask) = { k with req := .queued } := by simp
  unfold implTcpConnect
  dsimp only
  split
  · have fails := connectFails_moves (books.move looks) (t := io.ntask) (f := ({ · with req := .none }))
      (r := ({ · with status := .error, error := uvEaiToSystem rc })) (by rw [self]) (by rw [self])
      ⟨by rw [self]; exact ⟨rfl, rfl, rfl, rfl, rfl, id⟩, fun _ => rfl, .inr (by rw [self]; simp [k])⟩
    have back : (io.taskNew { k with req := .queued }).sockNew.modTask io.ntask ({ · with req := .none }) =
        (io.taskNew k).sockNew := by
      simp [modTask, taskNew, sockNew, k]
    rw [back] at fails
    -- The code closes the socket last; the task is done by then, and has no request.
    have same : ((io.taskNew k).sockNew.taskFailGai io.ntask rc).dropSock io.ntask =
        ((((io.taskNew k).sockNew.dropSock io.ntask).modTask io.ntask fun k =>
          { k with res := { k.res with status := .error, error := uvEaiToSystem rc } }).taskFinish io.ntask) := by
      generalize isMade : (io.taskNew k).sockNew = q
      have record : q.task io.ntask = k := by rw [← isMade]; simp
      have named : q.sockOf io.ntask = io.nsock := by simp [sockOf, record, k]
      have live : (q.sock io.nsock).closing = false := by rw [← isMade]; simp
      simp [taskFailGai, taskFinish, dropSock, sockOf, sockDestroy, record, k, live, uvClose, modTask, modSock,
        connectsOn]
      funext u
      by_cases isNew : u = io.ntask
      · subst isNew; simp
      · simp [isNew]
    rw [same]
    exact .head looks fails
  · have same : (io.taskNew k).sockNew.modTask io.ntask ({ · with req := .queued }) =
        (io.taskNew { k with req := .queued }).sockNew := by
      simp [modTask, taskNew, sockNew, k]
    rw [same]
    exact .single looks

/-! ### Closing a socket -/

/-- What closing a set of sockets does to the books of one. -/
def closed (closes : Bool) (k : Sock) : Sock :=
  if closes && !k.closing then { k with closing := true, listening := false, reading := false } else k

/-- A task connects on one of the sockets, and that one is not closing yet. -/
def struck (sock : SockId → Sock) (closes : SockId → Bool) (k : Task) : Bool :=
  k.kind = .connect && k.req ≠ .none && k.sock.any fun c => closes c && !(sock c).closing

/-- What it does to a task. -/
def halted (sock : SockId → Sock) (closes : SockId → Bool) (k : Task) : Task :=
  { k with stopped := struck sock closes k || k.stopped }

theorem halted_eq (sock : SockId → Sock) (closes : SockId → Bool) (k : Task) :
    halted sock closes k = if struck sock closes k then { k with stopped := true } else k := by
  unfold halted
  cases struck sock closes k with
  | false => simp
  | true => simp

theorem sockDestroy_eq (io : Io) (s : SockId) : io.sockDestroy s =
    { io with sock := fun c => closed (c = s) (io.sock c)
              task := fun t => halted io.sock (· = s) (io.task t) } := by
  unfold sockDestroy
  by_cases closing : (io.sock s).closing = true
  · rw [if_pos closing]
    have socks : (fun c => closed (c = s) (io.sock c)) = io.sock := by
      funext c
      by_cases isS : c = s
      · subst isS; simp [closed, closing]
      · simp [closed, isS]
    have tasks : (fun t => halted io.sock (· = s) (io.task t)) = io.task := by
      funext t
      rw [halted_eq, if_neg]
      unfold struck
      cases (io.task t).sock with
      | none => simp
      | some c =>
        by_cases isS : c = s
        · subst isS; simp [closing]
        · simp [isS]
    rw [socks, tasks]
  · rw [if_neg closing]
    have socks : (fun c => closed (c = s) (io.sock c)) =
        update io.sock s { io.sock s with closing := true, listening := false, reading := false } := by
      funext c
      by_cases isS : c = s
      · subst isS; simp [closed, closing]
      · simp [closed, isS]
    have tasks : (fun t => halted io.sock (· = s) (io.task t)) = fun t =>
        if connectsOn s (io.task t) then { io.task t with stopped := true } else io.task t := by
      funext t
      rw [halted_eq]
      unfold struck connectsOn
      congr 1
      cases on : (io.task t).sock with
      | none => simp
      | some c =>
        by_cases isS : c = s
        · subst isS; simp [closing]
        · simp [isS]
    rw [socks, tasks]
    rfl

/-- The listener's books once the given connections have been dropped. -/
def dropping (l : List SockId) (k : Sock) : Sock :=
  { k with pending := k.pending.drop l.length, dropped := k.dropped ++ l }

theorem closed_closed (a b : Bool) (k : Sock) : closed b (closed a k) = closed (a || b) k := by
  cases a with
  | false => simp [closed]
  | true =>
    cases closing : k.closing with
    | true => simp [closed, closing]
    | false => simp [closed, closing]

theorem closed_dropping (b : Bool) (l : List SockId) (k : Sock) :
    closed b (dropping l k) = dropping l (closed b k) := by
  unfold closed dropping
  split
  · rfl
  · rfl

@[simp] theorem closed_closing (b : Bool) (k : Sock) : (closed b k).closing = (b || k.closing) := by
  unfold closed
  cases b with
  | false => simp
  | true =>
    cases closing : k.closing with
    | false => simp
    | true => simp [closing]

theorem closed_acceptTask (b : Bool) (k : Sock) : (closed b k).acceptTask = k.acceptTask := by
  unfold closed
  split
  · rfl
  · rfl

/-- A task is struck by the sockets that are not closing yet. -/
theorem halted_halted {sock sock' : SockId → Sock} {a b : SockId → Bool} (k : Task)
    (closing : ∀ c, (sock' c).closing = (a c || (sock c).closing)) :
    halted sock' b (halted sock a k) = halted sock (fun c => a c || b c) k := by
  have either : (struck sock' b k || struck sock a k) = struck sock (fun c => a c || b c) k := by
    unfold struck
    cases k.sock with
    | none => simp
    | some c =>
      simp only [Option.any_some, closing]
      cases a c with
      | false => simp
      | true => simp
  have same : struck sock' b (halted sock a k) = struck sock' b k := rfl
  unfold halted at same ⊢
  simp only [same, ← either, Bool.or_assoc]

theorem halted_congr {sock sock' : SockId → Sock} {closes : SockId → Bool} (k : Task)
    (closing : ∀ c, (sock' c).closing = (sock c).closing) : halted sock' closes k = halted sock closes k := by
  unfold halted struck
  simp only [closing]

theorem dropPending_eq (s : SockId) : ∀ (l : List SockId) (io : Io), io.dropPending s l =
    { io with
      sock := fun c => closed (c ∈ l) (if c = s then dropping l (io.sock s) else io.sock c)
      task := fun t => halted io.sock (· ∈ l) (io.task t) } := by
  intro l
  induction l with
  | nil =>
    intro io
    have socks : (fun c => closed (c ∈ ([] : List SockId)) (if c = s then dropping [] (io.sock s) else io.sock c)) =
        io.sock := by
      funext c
      by_cases isS : c = s
      · subst isS; simp [closed, dropping]
      · simp [closed, isS]
    have tasks : (fun t => halted io.sock (· ∈ ([] : List SockId)) (io.task t)) = io.task := by
      funext t
      rw [halted_eq, if_neg]
      unfold struck
      cases (io.task t).sock with
      | none => simp
      | some c => simp
    rw [socks, tasks]
    rfl
  | cons c rest ih =>
    intro io
    unfold dropPending
    dsimp only
    rw [ih, sockDestroy_eq]
    have once : ∀ x, ((io.modSock s fun k =>
        { k with pending := (wqPop k.pending).1, dropped := k.dropped ++ [c] }).sock x) =
        if x = s then dropping [c] (io.sock s) else io.sock x := by
      intro x
      rw [modSock_sock]
      simp [wqPop, dropping]
    have still : ∀ x, ((io.modSock s fun k =>
        { k with pending := (wqPop k.pending).1, dropped := k.dropped ++ [c] }).sock x).closing =
        (io.sock x).closing := by
      intro x
      rw [once]
      split
      · rename_i isS; subst isS; rfl
      · rfl
    have socks : (fun x => closed (x ∈ rest) (if x = s then dropping rest (closed (s = c)
        ((io.modSock s fun k => { k with pending := (wqPop k.pending).1, dropped := k.dropped ++ [c] }).sock s))
        else closed (x = c) ((io.modSock s fun k =>
          { k with pending := (wqPop k.pending).1, dropped := k.dropped ++ [c] }).sock x))) =
        fun x => closed (x ∈ c :: rest) (if x = s then dropping (c :: rest) (io.sock s) else io.sock x) := by
      funext x
      simp only [once]
      have twice : dropping rest (dropping [c] (io.sock s)) = dropping (c :: rest) (io.sock s) := by
        simp [dropping]
      have either : decide (x ∈ c :: rest) = (decide (x = c) || decide (x ∈ rest)) := by simp
      rw [either, ← closed_closed]
      by_cases isS : x = s
      · subst isS
        simp only [if_true]
        rw [← closed_dropping, twice]
      · simp only [if_neg isS]
    have tasks : (fun t => halted (fun x => closed (x = c) ((io.modSock s fun k =>
        { k with pending := (wqPop k.pending).1, dropped := k.dropped ++ [c] }).sock x)) (· ∈ rest)
        (halted (io.modSock s fun k =>
          { k with pending := (wqPop k.pending).1, dropped := k.dropped ++ [c] }).sock (· = c) (io.task t))) =
        fun t => halted io.sock (· ∈ c :: rest) (io.task t) := by
      funext t
      rw [halted_halted _ fun x => closed_closing _ _, halted_congr _ still]
      congr 1
      funext x
      simp
    rw [← socks, ← tasks]
    rfl

theorem shut_form (io : Io) (s : SockId) : io.shut s =
    { io with
      sock := fun c => closed (c ∈ (io.sock s).pending || c = s)
        (if c = s then dropping (io.sock s).pending (io.sock s) else io.sock c)
      task := fun t => halted io.sock (fun c => c ∈ (io.sock s).pending || c = s) (io.task t) } := by
  have swap : ∀ c, (decide (c = s) || decide (c ∈ (io.sock s).pending)) =
      (decide (c ∈ (io.sock s).pending) || decide (c = s)) := fun c => Bool.or_comm ..
  unfold shut
  dsimp only
  congr 1
  · funext t
    rw [halted_eq]
    unfold struck
    simp only [swap]
  · funext c
    unfold closed dropping
    simp only [swap, List.drop_length]

/-- `sock_close` closes the parked connections and then the socket itself. -/
theorem shut_eq (io : Io) (s : SockId) (t : TaskId) :
    ((io.dropPending s (io.sock s).pending).modSock s ({ · with closeTask := some t })).sockDestroy s =
      (io.shut s).modSock s ({ · with closeTask := some t }) := by
  have named : ∀ (b : Bool) (k : Sock), closed b { k with closeTask := some t } =
      { closed b k with closeTask := some t } := by
    intro b k
    unfold closed
    split
    · rfl
    · rfl
  rw [sockDestroy_eq, dropPending_eq, shut_form]
  simp only [modSock]
  congr 1
  · funext u
    refine (halted_halted _ fun c => ?_)
    by_cases isS : c = s
    · subst isS; simp [dropping]
    · simp [isS]
  · funext c
    by_cases isS : c = s
    · subst isS
      simp only [Function.update_self, named, if_true, closed_closed]
    · simp only [Function.update_of_ne isS, if_neg isS, closed_closed]

/-- `impl_sock_close`, as far as the read that waits. -/
def closeRead (io : Io) (s : SockId) : Io :=
  match (io.sock s).readTask with
  | some t =>
    ((io.modSock s ({ · with reading := false })).cancelSlot t).modSock s ({ · with readTask := none })
  | none => io

/-- `impl_sock_close`, from the parked connections on. -/
def closeRest (io : Io) (s : SockId) (t : TaskId) : Io :=
  ((io.dropPending s (io.sock s).pending).modSock s ({ · with closeTask := some t })).sockDestroy s

theorem implSockClose_eq (io : Io) (s : SockId) : io.implSockClose s =
    (((io.taskNew { kind := .sockClose }).closeRead s).endAccept s).closeRest s io.ntask := rfl

/-- The read is canceled as in the close callback, after libuv has been told to stop. -/
theorem closeRead_moves (books : Books p io) (inside : s < io.nsock) : Moves p io (io.closeRead s) := by
  have quiet : Move p io (io.modSock s ({ · with reading := false })) := .aside (.reading inside false)
  have drops := dropRead_moves (books.move quiet) s
  unfold dropRead at drops
  unfold closeRead
  simp only [modSock_sock, if_true] at drops
  split
  · rename_i u named
    rw [named] at drops
    exact .head quiet drops
  · exact .refl

theorem Within.closeRead (io : Io) (s : SockId) : Within io (io.closeRead s) := by
  unfold Io.closeRead
  split
  · exact (Within.modSock _).trans ((Within.cancelSlot _ _).trans (.modSock _))
  · exact .refl io

theorem Within.endAccept (io : Io) (s : SockId) : Within io (io.endAccept s) := by
  unfold Io.endAccept
  split
  · exact (Within.cancelSlot _ _).trans (.modSock _)
  · exact .refl io

theorem implSockClose_moves (books : Books p io) (given : io.claimed s = true) :
    Moves p io (io.implSockClose s) := by
  have made : Move p io (io.taskNew { kind := .sockClose }) :=
    .make _ ⟨rfl, rfl, rfl, rfl, rfl, rfl⟩ (by simp) (by simp)
  have inside : s < (io.taskNew { kind := .sockClose }).nsock := books.slots.claimed s given
  have read := closeRead_moves (books.move made) inside
  have books₁ := (books.move made).moves read
  have accept := endAccept_moves books₁ s
  have books₂ := books₁.moves accept
  have within := (Within.closeRead (io.taskNew { kind := .sockClose }) s).trans (.endAccept _ s)
  have still : (((io.taskNew { kind := .sockClose }).closeRead s).endAccept s).claimed s = true := by
    rw [within.claimed]
    exact given
  have isClose : ((((io.taskNew { kind := .sockClose }).closeRead s).endAccept s).task io.ntask).kind =
      .sockClose := by
    rw [within.kind]
    simp
  rw [implSockClose_eq]
  generalize ((io.taskNew { kind := .sockClose }).closeRead s).endAccept s = io₃ at *
  have shuts : Moves p io₃ (io₃.closeRest s io.ntask) := by
    have inside := books₂.slots.claimed s still
    unfold closeRest
    rw [shut_eq]
    have shut : Move p io₃ (io₃.shut s) := .shut s inside still
    refine .tail (.single shut) (.closeSlot s io.ntask inside ?_)
    simp only [Io.shut]
    split
    · exact isClose
    · exact isClose
  exact .head made ((read.trans accept).trans shuts)

/-! ### Taking operations back -/

theorem uvCancel_moves (t : TaskId) (allowed : (io.task t).req = .queued → p ∨ (io.task t).kind ≠ .connect) :
    Moves p io (io.uvCancel t).1 := by
  unfold uvCancel
  split
  · rename_i queued
    exact .single (.take t queued (allowed queued))
  · exact .refl

theorem lookingUp_iff : io.lookingUp t = true ↔
    (io.task t).kind = .connect ∧ (io.task t).done = false ∧ (io.task t).connecting = false := by
  simp [lookingUp, and_assoc]

theorem implCancel_moves (books : Books p io)
    (allowed : p ∨ (io.lookingUp t && (io.task t).req = .queued) = false) : Moves p io (io.implCancel t).1 := by
  unfold implCancel
  split
  · exact .refl
  rename_i before
  have before : (io.task t).done = false := by simpa using before
  have pending := (books.plain t).1 before
  split
  · -- A timer ends at once.
    rename_i kind
    have req := books.req_none (t := t) (by simp [kind])
    unfold timerClose cancelSlot stop
    rw [modTask_modTask]
    exact ends_moves books (f := ({ · with ticking := false, timerClosing := true, stopped := true }))
      (r := (uvResult · UV_ECANCELED)) (books.slots.inside (by simp [kind]))
      (.coded ⟨rfl, rfl, rfl, req, rfl, fun _ => rfl⟩ (.inr (by simp))) (by simp [pending]) (by simp [kind])
      (.inr (by simp [kind]))
  · rename_i kind
    exact uvCancel_moves t fun _ => .inr (by simp [kind])
  · rename_i kind
    exact uvCancel_moves t fun _ => .inr (by simp [kind])
  · rename_i kind
    obtain ⟨s, on, _⟩ := books.connects.stage t ⟨kind, before⟩
    have named : io.sockOf t = s := by simp [sockOf, on]
    split
    · rename_i looking
      refine uvCancel_moves t fun queued => .inl (allowed.resolve_right ?_)
      simp [lookingUp_iff.mpr ⟨kind, before, looking⟩, queued]
    · rename_i shaking
      rw [named]
      refine .single (.close s (books.slots.on t s on) (.inr fun u looking isOn => ?_))
      obtain ⟨isConnect, notDone, early⟩ := lookingUp_iff.mp looking
      by_cases isT : u = t
      · rw [isT] at early
        exact shaking early
      · exact (books.connects.hidden t s ⟨kind, before⟩ on).others u isT isOn
  · rename_i kind
    obtain ⟨s, on⟩ := books.slots.onSome t (.inl kind) before
    have named : io.sockOf t = s := by simp [sockOf, on]
    have inSlot := (books.slots.read s t).mpr ⟨kind, before, on⟩
    have quiet : Move p io (io.modSock s ({ · with reading := false })) :=
      .aside (.reading (books.slots.on t s on) false)
    have isNamed : ((io.modSock s ({ · with reading := false })).sock s).readTask = some t := by
      simp [inSlot]
    have after := books.move quiet
    have leaves := leaveRead_moves after isNamed (after.read isNamed).stopped
    rw [modSock_modSock] at leaves
    rw [named]
    exact .head quiet leaves
  · rename_i kind
    obtain ⟨s, on⟩ := books.slots.onSome t (.inr kind) before
    have named : io.sockOf t = s := by simp [sockOf, on]
    have inSlot := (books.slots.accept s t).mpr ⟨kind, before, on⟩
    rw [named]
    exact leaveAccept_moves books inSlot (books.accept inSlot).stopped
  · exact .refl
  · exact .refl

theorem Within.implCancel (io : Io) (t : TaskId) : Within io (io.implCancel t).1 := by
  have taken : Within io (io.uvCancel t).1 := by
    have canceled : Within io (io.modTask t ({ · with req := .canceled, stopped := true })) := .modTask rfl
    unfold uvCancel
    split
    · exact canceled
    · exact .refl io
  unfold Io.implCancel
  split
  · exact .refl io
  split
  · have closed : Within io (io.timerClose t) := .modTask rfl
    exact closed.trans (.cancelSlot _ t)
  · exact taken
  · exact taken
  · split
    · exact taken
    · exact .sockDestroy io _
  · exact (Within.modSock _).trans (.cancelSlot _ t)
  · exact (Within.modSock _).trans (.cancelSlot _ t)
  · exact .refl io
  · exact .refl io

/-! ### Freeing, detaching and turns -/

/-- What only the user thread and the caller's handles are about. -/
theorem Aside.user (io : Io) (user : User) (ret : Option Ret) (ncompleted : Nat) {held : TaskId → Bool}
    {claimed : SockId → Bool} (fewer : ∀ t, held t = true → io.held t = true)
    (less : ∀ s, claimed s = true → io.claimed s = true) :
    Aside io { io with user, ret, ncompleted, held, claimed } :=
  ⟨rfl, rfl, fun _ => .refl _, fun _ _ => rfl, fun _ => rfl, fun _ _ => rfl, less, fewer⟩

theorem dropHandle_aside (io : Io) (t : TaskId) : Aside io (io.dropHandle t) := by
  refine .user io io.user io.ret io.ncompleted (fun u held => ?_) fun _ => id
  simp only [Function.update_apply] at held
  split at held
  · cases held
  · exact held

/-- The memory of a task goes, and with it the handle. -/
theorem give_up_aside (inside : t < io.ntask) : Aside io ((io.dropHandle t).release t) :=
  (dropHandle_aside io t).trans (release_aside inside)

theorem implTaskFree_moves (books : Books p io) (held : io.held t = true)
    (allowed : p ∨ (io.lookingUp t && (io.task t).req = .queued) = false) : Moves p io (io.implTaskFree t) := by
  have inside := books.slots.held t held
  unfold implTaskFree
  dsimp only
  split
  · exact .single (.aside (give_up_aside inside))
  · have cancels := implCancel_moves books allowed
    have still : t < (io.implCancel t).1.ntask := (Within.implCancel io t).ntask ▸ inside
    split
    · exact cancels.tail (.aside (give_up_aside still))
    · exact cancels.tail (.aside (.user _ _ _ _ (fun _ => id) fun _ => id))

theorem implTaskDetach_moves (books : Books p io) (held : io.held t = true) :
    Moves p io (io.implTaskDetach t) := by
  have inside := books.slots.held t held
  have drop : Move p io (io.dropHandle t) := .aside (dropHandle_aside io t)
  have after := books.move drop
  unfold implTaskDetach
  dsimp only
  split
  · split
    · rename_i s won
      have gives : Move p (io.dropHandle t)
          { io.dropHandle t with claimed := update (io.dropHandle t).claimed s false } := by
        refine .aside (.user _ _ _ _ (fun _ => id) fun c claimed => ?_)
        simp only [Function.update_apply] at claimed
        split at claimed
        · cases claimed
        · exact claimed
      exact .head drop (.head gives (taskReap_moves (after.move gives) inside))
    · exact .head drop (taskReap_moves after inside)
  · have still : t < (io.dropHandle t).ntask := inside
    exact .tail (.single drop) (.aside (.modTask still ⟨rfl, rfl, rfl, rfl, rfl, rfl, rfl, id⟩))

theorem walkTimers_aside : ∀ (l : List TaskId) {io : Io}, (∀ t ∈ l, t < io.ntask) → Aside io (io.walkTimers l) := by
  intro l
  induction l with
  | nil => exact fun _ => .refl _
  | cons t rest ih =>
    intro io made
    have inside := made t (List.mem_cons_self ..)
    have others : ∀ u ∈ rest, u < io.ntask := fun u member => made u (List.mem_cons_of_mem _ member)
    unfold walkTimers
    dsimp only
    split
    · split
      · have marked : Aside io (io.modTask t ({ · with freeOnClose := true })) :=
          .modTask inside ⟨rfl, rfl, rfl, rfl, rfl, rfl, rfl, id⟩
        exact (marked.trans (timerClose_aside inside)).trans (ih others)
      · exact (timerClose_aside inside).trans (ih others)
    · exact ih others

/-- The sockets are closed one after the other. -/
theorem walkSocks_moves : ∀ (l : List SockId) {io : Io}, (∀ s ∈ l, s < io.nsock) →
    (p ∨ ∀ t, io.lookingUp t = false) → Moves p io (io.walkSocks l) := by
  intro l
  induction l with
  | nil => exact fun _ _ => .refl
  | cons s rest ih =>
    intro io inside settled
    have within := Within.sockDestroy io s
    have still : p ∨ ∀ t, (io.sockDestroy s).lookingUp t = false := by
      refine settled.imp id fun settled t => ?_
      have before := settled t
      rw [sockDestroy_eq]
      exact before
    unfold walkSocks
    refine .head (.close s (inside s (List.mem_cons_self ..)) (settled.imp id fun settled t looking => ?_))
      (ih (fun c member => Nat.lt_of_lt_of_le (inside c (List.mem_cons_of_mem _ member)) within.nsock) still)
    rw [settled t] at looking
    cases looking

theorem implDestroy_moves (io : Io) (allowed : p ∨ ∀ t, io.lookingUp t = false) :
    Moves p io io.implDestroy := by
  have timers : Aside io (io.walkTimers (List.range io.ntask)) :=
    walkTimers_aside _ fun t member => List.mem_range.mp member
  have still : p ∨ ∀ t, (io.walkTimers (List.range io.ntask)).lookingUp t = false := by
    refine allowed.imp id fun settled t => ?_
    obtain ⟨kind, done, _, _, stage, _⟩ := timers.task t
    have before := settled t
    unfold lookingUp at before ⊢
    rw [kind, done, stage]
    exact before
  have socks := walkSocks_moves (List.range (io.walkTimers (List.range io.ntask)).nsock)
    (fun s member => List.mem_range.mp member) still
  exact (Relation.ReflTransGen.head (.aside timers) socks).tail (.aside (.user _ _ _ _ (fun _ => id) fun _ => id))

theorem turnEnd_moves {goal : Goal} {before : Nat}
    (made : ∀ t, goal = .free t → t < io.ntask) : Moves p io (io.turnEnd goal before) := by
  unfold turnEnd
  split
  · exact .single (.aside (.user _ _ _ _ (fun _ => id) fun _ => id))
  · rename_i t
    split
    · exact .single (.aside (.user _ _ _ _ (fun _ => id) fun _ => id))
    · exact .tail (.single (.aside (give_up_aside (made t rfl)))) (.aside (.user _ _ _ _ (fun _ => id) fun _ => id))
  · exact .single (.aside (.user _ _ _ _ (fun _ => id) fun _ => id))

theorem implTaskResult_moves (io : Io) (t : TaskId) : Moves p io (io.implTaskResult t) := by
  unfold implTaskResult
  split
  · rename_i s won
    exact .single (.claim t s won)
  · exact .refl

end Myio.Uv.Io
