import Mathlib.Data.List.Nodup
import Myio.Lib.Handover
import Myio.Uv.Runs

/-! The connections a listener takes from libuv, and what becomes of each. -/

namespace Myio.Uv.Io

open Function (update)

variable {p : Prop} {io io' : Io} {t u : TaskId} {s c : SockId} {k : Task}

/-- The connections of a listener, as they were handed to accept tasks. -/
def handover (io : Io) (s : SockId) : Machine.Handover SockId TaskId where
  arrived := (io.sock s).arrived
  handed := (io.sock s).handed
  dropped := (io.sock s).dropped
  parked := (io.sock s).pending

/-- An accept has ended with a connection. -/
structure Served (k : Task) (s c : SockId) : Prop where
  kind : k.kind = .accept
  done : k.done = true
  on : k.sock = some s
  ptr : k.res.ptr = some c
  status : k.res.status = .ok

/-- The books of the connections. -/
structure Accepts (io : Io) : Prop where
  kept : ∀ s, (io.handover s).Kept
  /-- An accept waits only where nothing is parked. -/
  alone : ∀ s, (io.sock s).acceptTask ≠ none → (io.sock s).pending = []
  /-- A listener that still listens has dropped nothing. -/
  listens : ∀ s, (io.sock s).listening = true → (io.sock s).dropped = [] ∧ (io.sock s).closing = false
  served : ∀ s t c, (t, c) ∈ (io.sock s).handed → Served (io.task t) s c
  /-- Nobody else has won the connection of an accept. -/
  won : ∀ t c, (io.task t).res.ptr = some c →
    (∃ s, (t, c) ∈ (io.sock s).handed) ∨ (io.task t).kind = .connect ∧ (io.task t).sock = some c
  /-- The socket of a connect is no accepted connection. -/
  apart : ∀ t c, (io.task t).kind = .connect → (io.task t).sock = some c → ∀ s, c ∉ (io.sock s).arrived
  once : ∀ s, (io.sock s).arrived.Nodup ∧ ((io.sock s).handed.map Prod.fst).Nodup
  own : ∀ s s' c, c ∈ (io.sock s).arrived → c ∈ (io.sock s').arrived → s = s'
  made : ∀ s c, c ∈ (io.sock s).arrived → c < io.nsock
  closed : ∀ s c, c ∈ (io.sock s).dropped → (io.sock c).closing = true

namespace Accepts

theorem new : Accepts Io.new := by
  constructor
  case kept => exact fun _ => .new
  all_goals simp [Io.new]

/-- What a move leaves of a listener's books. -/
structure SameBooks (q q' : Sock) : Prop where
  arrived : q'.arrived = q.arrived
  handed : q'.handed = q.handed
  dropped : q'.dropped = q.dropped
  pending : q'.pending = q.pending
  accept : q'.acceptTask ≠ none → q.acceptTask ≠ none ∨ q.pending = []
  listening : q'.listening = true →
    q.listening = true ∧ q'.closing = q.closing ∨ q.dropped = [] ∧ q'.closing = false
  closing : q.closing = true → q'.closing = true

theorem SameBooks.refl (q : Sock) : SameBooks q q := ⟨rfl, rfl, rfl, rfl, .inl, fun on => .inl ⟨on, rfl⟩, id⟩

/-- What a move leaves of the tasks that have been served, and who has won sockets since. -/
structure SameWins (io io' : Io) : Prop where
  served : ∀ t, (io.task t).kind = .accept → (io.task t).done = true →
    (io'.task t).kind = .accept ∧ (io'.task t).done = true ∧ (io'.task t).sock = (io.task t).sock ∧
      (io'.task t).res = (io.task t).res
  won : ∀ t c, (io'.task t).res.ptr = some c → (io.task t).res.ptr = some c ∧
      (io'.task t).kind = (io.task t).kind ∧ (io'.task t).sock = (io.task t).sock ∨
    (io'.task t).kind = .connect ∧ (io'.task t).sock = some c
  apart : ∀ t c, (io'.task t).kind = .connect → (io'.task t).sock = some c →
    (io.task t).kind = .connect ∧ (io.task t).sock = some c ∨ io.nsock ≤ c

/-- A move that is nothing to the connections. -/
theorem same (accepts : Accepts io) (wins : SameWins io io') (nsock : io.nsock ≤ io'.nsock)
    (books : ∀ s, SameBooks (io.sock s) (io'.sock s)) : Accepts io' := by
  obtain ⟨kept, alone, listens, served, won, apart, once, own, made, closed⟩ := accepts
  constructor
  case kept =>
    intro s
    obtain ⟨arrived, handed, dropped, pending, _, _, _⟩ := books s
    have same : io'.handover s = io.handover s := by simp [handover, arrived, handed, dropped, pending]
    rw [same]
    exact kept s
  case alone =>
    intro s waiting
    rw [(books s).pending]
    exact ((books s).accept waiting).elim (alone s) id
  case listens =>
    intro s on
    rw [(books s).dropped]
    rcases (books s).listening on with ⟨before, closing⟩ | fine
    · rw [closing]; exact listens s before
    · exact fine
  case served =>
    intro s t c member
    rw [(books s).handed] at member
    obtain ⟨kind, done, on, ptr, status⟩ := served s t c member
    obtain ⟨kind', done', on', res'⟩ := wins.served t kind done
    exact ⟨kind', done', on'.trans on, by rw [res']; exact ptr, by rw [res']; exact status⟩
  case won =>
    intro t c isWon
    rcases wins.won t c isWon with ⟨before, kind, on⟩ | connected
    · rw [kind, on]
      refine (won t c before).imp ?_ id
      rintro ⟨s, member⟩
      exact ⟨s, by rw [(books s).handed]; exact member⟩
    · exact .inr connected
  case apart =>
    intro t c kind on s member
    rw [(books s).arrived] at member
    rcases wins.apart t c kind on with ⟨kind, on⟩ | new
    · exact apart t c kind on s member
    · exact absurd (made s c member) (Nat.not_lt.mpr new)
  case once => intro s; rw [(books s).arrived, (books s).handed]; exact once s
  case own => intro s s' c; rw [(books s).arrived, (books s').arrived]; exact own s s' c
  case made =>
    intro s c
    rw [(books s).arrived]
    exact fun member => Nat.lt_of_lt_of_le (made s c member) nsock
  case closed =>
    intro s c
    rw [(books s).dropped]
    exact fun member => (books c).closing (closed s c member)

/-- One task is written. -/
theorem SameWins.renew (task : io'.task = update io.task t k)
    (unserved : (io.task t).kind = .accept → (io.task t).done = false)
    (won : ∀ c, k.res.ptr = some c → (io.task t).res.ptr = some c ∧ k.kind = (io.task t).kind ∧
      k.sock = (io.task t).sock ∨ k.kind = .connect ∧ k.sock = some c)
    (apart : ∀ c, k.kind = .connect → k.sock = some c →
      (io.task t).kind = .connect ∧ (io.task t).sock = some c ∨ io.nsock ≤ c) : SameWins io io' := by
  constructor
  case served =>
    intro u kind done
    have other : u ≠ t := by
      rintro rfl
      rw [unserved kind] at done
      cases done
    rw [task, Function.update_of_ne other]
    exact ⟨kind, done, rfl, rfl⟩
  case won =>
    intro u c
    rw [task]
    by_cases isT : u = t
    · subst isT; rw [Function.update_self]; exact won c
    · rw [Function.update_of_ne isT]; exact fun isWon => .inl ⟨isWon, rfl, rfl⟩
  case apart =>
    intro u c
    rw [task]
    by_cases isT : u = t
    · subst isT; rw [Function.update_self]; exact apart c
    · rw [Function.update_of_ne isT]; exact fun kind on => .inl ⟨kind, on⟩

/-- No task is written in what matters here. -/
theorem SameWins.alike (task : ∀ t, (io'.task t).kind = (io.task t).kind ∧ (io'.task t).done = (io.task t).done ∧
    (io'.task t).sock = (io.task t).sock ∧ (io'.task t).res = (io.task t).res) : SameWins io io' := by
  constructor
  case served =>
    intro t kind done
    obtain ⟨kind', done', on, res⟩ := task t
    exact ⟨kind'.trans kind, done'.trans done, on, res⟩
  case won =>
    intro t c isWon
    obtain ⟨kind', _, on, res⟩ := task t
    rw [res] at isWon
    exact .inl ⟨isWon, kind', on⟩
  case apart =>
    intro t c kind on
    obtain ⟨kind', _, on', _⟩ := task t
    exact .inl ⟨kind' ▸ kind, on' ▸ on⟩

theorem SameWins.refl (task : io'.task = io.task) : SameWins io io' :=
  .alike fun t => by rw [task]; exact ⟨rfl, rfl, rfl, rfl⟩

/-- A task is made that has won nothing. -/
theorem SameWins.make (slots : Slots io) (task : io'.task = update io.task io.ntask k)
    (ptr : k.res.ptr = none) (kind : k.kind ≠ .connect ∨ ∃ c, k.sock = some c ∧ io.nsock ≤ c) :
    SameWins io io' := by
  refine .renew task (fun isAccept => ?_) (by simp [ptr]) fun c isConnect on => .inr ?_
  · rw [slots.unmade _ (Nat.le_refl _)] at isAccept
    cases isAccept
  · obtain ⟨d, isOn, new⟩ := kind.resolve_left fun other => other isConnect
    rw [isOn] at on
    cases on
    exact new

/-- A task goes on that is not done, and keeps its socket. -/
theorem SameWins.goOn (task : io'.task = update io.task t k) (before : (io.task t).done = false)
    (kind : k.kind = (io.task t).kind) (on : k.sock = (io.task t).sock) (res : k.res = (io.task t).res) :
    SameWins io io' :=
  .renew task (fun _ => before) (fun _ isWon => .inl ⟨res ▸ isWon, kind, on⟩)
    fun _ isConnect isOn => .inl ⟨kind ▸ isConnect, on ▸ isOn⟩

/-- A task ends without a socket. -/
theorem SameWins.ends (task : io'.task = update io.task t k)
    (unserved : (io.task t).kind = .accept → (io.task t).done = false) (kind : k.kind = (io.task t).kind)
    (ptr : k.res.ptr = none) (on : k.sock = (io.task t).sock ∨ k.sock = none) : SameWins io io' := by
  refine .renew task unserved (by simp [ptr]) fun c isConnect isOn => .inl ⟨kind ▸ isConnect, ?_⟩
  rcases on with same | none
  · exact same ▸ isOn
  · rw [none] at isOn; cases isOn

/-- The books of one socket change, but not what is kept there of connections. -/
theorem books_update {q : Sock} (sock : io'.sock = update io.sock s q) (same : SameBooks (io.sock s) q)
    (l : SockId) : SameBooks (io.sock l) (io'.sock l) := by
  rw [sock, Function.update_apply]
  split
  · rename_i isS; subst isS; exact same
  · exact .refl _

/-- A socket that has not been made is as good as new. -/
theorem sockNew_same (slots : Slots io) : io.sockNew.sock = io.sock := by
  funext c
  rw [sockNew_sock]
  split
  · rename_i isNew; rw [isNew, slots.unopened _ (Nat.le_refl _)]
  · rfl

theorem books_closed (b : Bool) (q : Sock) : SameBooks q (Io.closed b q) := by
  unfold Io.closed
  split
  · exact ⟨rfl, rfl, rfl, rfl, .inl, by simp, by simp⟩
  · exact .refl q

/-- The books of one listener change, which may have a new connection. -/
theorem listener (accepts : Accepts io) (slots : Slots io) {fresh : List SockId}
    (isFresh : fresh = [] ∨ fresh = [io.nsock] ∧ io'.nsock = io.nsock + 1) (nsock : io.nsock ≤ io'.nsock)
    (others : ∀ l, l ≠ s → SameBooks (io.sock l) (io'.sock l))
    (arrived : (io'.sock s).arrived = (io.sock s).arrived ++ fresh) (kept : (io'.handover s).Kept)
    (alone : (io'.sock s).acceptTask ≠ none → (io'.sock s).pending = [])
    (listens : (io'.sock s).listening = true → (io'.sock s).dropped = [] ∧ (io'.sock s).closing = false)
    (closing : ∀ c, (io.sock c).closing = true → (io'.sock c).closing = true)
    (dropped : ∀ c, c ∈ (io'.sock s).dropped → c ∈ (io.sock s).dropped ∨ (io'.sock c).closing = true)
    (steady : ∀ t, (io.task t).kind = .accept → (io.task t).done = true →
      (io'.task t).kind = .accept ∧ (io'.task t).done = true ∧ (io'.task t).sock = (io.task t).sock ∧
        (io'.task t).res = (io.task t).res)
    (served : ∀ t c, (t, c) ∈ (io'.sock s).handed → (t, c) ∈ (io.sock s).handed ∨ Served (io'.task t) s c)
    (takers : ((io'.sock s).handed.map Prod.fst).Nodup)
    (won : ∀ t c, (io'.task t).res.ptr = some c →
      (∃ l, (t, c) ∈ (io'.sock l).handed) ∨ (io'.task t).kind = .connect ∧ (io'.task t).sock = some c)
    (connects : ∀ t c, (io'.task t).kind = .connect → (io'.task t).sock = some c →
      (io.task t).kind = .connect ∧ (io.task t).sock = some c) : Accepts io' := by
  have old : ∀ {l c}, c ∈ (io.sock l).arrived → c ∉ fresh := by
    rintro l c member isIn
    rcases isFresh with none | ⟨one, _⟩
    · rw [none] at isIn; cases isIn
    · rw [one, List.mem_singleton] at isIn
      exact absurd (accepts.made l c member) (by rw [isIn]; exact Nat.lt_irrefl _)
  have still : ∀ {l t c}, (t, c) ∈ (io.sock l).handed → Served (io'.task t) l c := by
    intro l t c member
    obtain ⟨kind, done, on, ptr, status⟩ := accepts.served l t c member
    obtain ⟨kind', done', on', res'⟩ := steady t kind done
    exact ⟨kind', done', on'.trans on, by rw [res']; exact ptr, by rw [res']; exact status⟩
  have members : ∀ l c, c ∈ (io'.sock l).arrived → c ∈ (io.sock l).arrived ∨ l = s ∧ c ∈ fresh := by
    intro l c member
    by_cases isS : l = s
    · rw [isS, arrived, List.mem_append] at member
      exact member.imp (isS ▸ id) fun isIn => ⟨isS, isIn⟩
    · rw [(others l isS).arrived] at member
      exact .inl member
  constructor
  case kept =>
    intro l
    by_cases isS : l = s
    · exact isS ▸ kept
    · obtain ⟨arrived, handed, dropped, pending, _, _, _⟩ := others l isS
      have same : io'.handover l = io.handover l := by simp [handover, arrived, handed, dropped, pending]
      rw [same]
      exact accepts.kept l
  case alone =>
    intro l waiting
    by_cases isS : l = s
    · subst isS; exact alone waiting
    · rw [(others l isS).pending]
      exact ((others l isS).accept waiting).elim (accepts.alone l) id
  case listens =>
    intro l on
    by_cases isS : l = s
    · subst isS; exact listens on
    · rw [(others l isS).dropped]
      rcases (others l isS).listening on with ⟨before, closing⟩ | fine
      · rw [closing]; exact accepts.listens l before
      · exact fine
  case served =>
    intro l t c member
    by_cases isS : l = s
    · subst isS; exact (served t c member).elim still id
    · rw [(others l isS).handed] at member
      exact still member
  case won => exact won
  case apart =>
    intro t c kind on l member
    obtain ⟨kind, on⟩ := connects t c kind on
    rcases members l c member with member | ⟨_, isIn⟩
    · exact accepts.apart t c kind on l member
    · have inside := slots.on t c on
      rcases isFresh with none | ⟨one, _⟩
      · rw [none] at isIn; cases isIn
      · rw [one, List.mem_singleton] at isIn
        exact absurd inside (by rw [isIn]; exact Nat.lt_irrefl _)
  case once =>
    intro l
    by_cases isS : l = s
    · subst isS
      refine ⟨?_, takers⟩
      rw [arrived, List.nodup_append]
      refine ⟨(accepts.once l).1, ?_, fun c member d isIn same => old member (same ▸ isIn)⟩
      rcases isFresh with none | ⟨one, _⟩
      · rw [none]; exact List.nodup_nil
      · rw [one]; simp
    · rw [(others l isS).arrived, (others l isS).handed]
      exact accepts.once l
  case own =>
    intro l l' c member member'
    rcases members l c member with member | ⟨isS, isIn⟩
    · rcases members l' c member' with member' | ⟨_, isIn'⟩
      · exact accepts.own l l' c member member'
      · exact absurd isIn' (old member)
    · rcases members l' c member' with member' | ⟨isS', _⟩
      · exact absurd isIn (old member')
      · exact isS.trans isS'.symm
  case made =>
    intro l c member
    rcases members l c member with member | ⟨_, isIn⟩
    · exact Nat.lt_of_lt_of_le (accepts.made l c member) nsock
    · rcases isFresh with none | ⟨one, more⟩
      · rw [none] at isIn; cases isIn
      · rw [one, List.mem_singleton] at isIn
        rw [isIn, more]
        exact Nat.lt_succ_self _
  case closed =>
    intro l c member
    by_cases isS : l = s
    · subst isS
      exact (dropped c member).elim (fun before => closing c (accepts.closed l c before)) id
    · rw [(others l isS).dropped] at member
      exact closing c (accepts.closed l c member)

/-- Those who were served have been made, and are done. -/
theorem taker_done (accepts : Accepts io) (member : t ∈ (io.sock s).handed.map Prod.fst) :
    (io.task t).kind = .accept ∧ (io.task t).done = true := by
  obtain ⟨⟨u, c⟩, isIn, rfl⟩ := List.mem_map.mp member
  have served := accepts.served s u c isIn
  exact ⟨served.kind, served.done⟩

/-- A task that was not done gets a connection. -/
theorem served_once (accepts : Accepts io) (unserved : (io.task t).kind = .accept → (io.task t).done = false)
    (c : SockId) : (((io.sock s).handed ++ [(t, c)]).map Prod.fst).Nodup := by
  rw [List.map_append, List.nodup_append]
  refine ⟨(accepts.once s).2, by simp, fun u member v isIn same => ?_⟩
  simp only [List.map_cons, List.map_nil, List.mem_singleton] at isIn
  subst isIn
  subst same
  obtain ⟨kind, done⟩ := accepts.taker_done member
  rw [unserved kind] at done
  cases done

/-- What handing a connection to one task is to all tasks. -/
theorem hand_won (accepts : Accepts io) (task : io'.task = update io.task t k)
    (unserved : (io.task t).kind = .accept → (io.task t).done = false) (served : Served k s c)
    (handed : ∀ l u d, (u, d) ∈ (io.sock l).handed ∨ l = s ∧ u = t ∧ d = c → (u, d) ∈ (io'.sock l).handed) :
    (∀ u, (io.task u).kind = .accept → (io.task u).done = true →
      (io'.task u).kind = .accept ∧ (io'.task u).done = true ∧ (io'.task u).sock = (io.task u).sock ∧
        (io'.task u).res = (io.task u).res) ∧
    (∀ u d, (io'.task u).res.ptr = some d →
      (∃ l, (u, d) ∈ (io'.sock l).handed) ∨ (io'.task u).kind = .connect ∧ (io'.task u).sock = some d) ∧
    ∀ u d, (io'.task u).kind = .connect → (io'.task u).sock = some d →
      (io.task u).kind = .connect ∧ (io.task u).sock = some d := by
  refine ⟨fun u kind done => ?_, fun u d => ?_, fun u d => ?_⟩
  · have other : u ≠ t := by
      rintro rfl
      rw [unserved kind] at done
      cases done
    rw [task, Function.update_of_ne other]
    exact ⟨kind, done, rfl, rfl⟩
  · rw [task]
    by_cases isT : u = t
    · subst isT
      rw [Function.update_self, served.ptr]
      rintro ⟨⟩
      exact .inl ⟨s, handed s u c (.inr ⟨rfl, rfl, rfl⟩)⟩
    · rw [Function.update_of_ne isT]
      intro isWon
      refine (accepts.won u d isWon).imp ?_ id
      rintro ⟨l, member⟩
      exact ⟨l, handed l u d (.inl member)⟩
  · rw [task]
    by_cases isT : u = t
    · subst isT
      rw [Function.update_self, served.kind]
      intro kind
      cases kind
    · rw [Function.update_of_ne isT]
      exact fun kind on => ⟨kind, on⟩

/-- An accept is made and gets the connection parked first. -/
theorem serve (accepts : Accepts io) (slots : Slots io) {rest : List SockId}
    (ended : EndedWith p { kind := .accept, sock := some s } k c) (free : (io.sock s).acceptTask = none)
    (parked : (io.sock s).pending = c :: rest) :
    Accepts ((io.taskNew k).modSock s fun q => { q with pending := rest, handed := q.handed ++ [(io.ntask, c)] }) := by
  have unserved : (io.task io.ntask).kind = .accept → (io.task io.ntask).done = false := by
    rw [slots.unmade _ (Nat.le_refl _)]
    intro kind
    cases kind
  have served : Served k s c := ⟨ended.kind, ended.done, ended.sock, ended.ptr, ended.status⟩
  generalize isNext : (io.taskNew k).modSock s (fun q =>
    { q with pending := rest, handed := q.handed ++ [(io.ntask, c)] }) = io'
  have task : io'.task = update io.task io.ntask k := by rw [← isNext]; rfl
  have self : io'.sock s =
      { io.sock s with pending := rest, handed := (io.sock s).handed ++ [(io.ntask, c)] } := by
    rw [← isNext]; simp
  have others : ∀ l, l ≠ s → io'.sock l = io.sock l := fun l other => by rw [← isNext]; simp [other]
  have handed : ∀ l u d, (u, d) ∈ (io.sock l).handed ∨ l = s ∧ u = io.ntask ∧ d = c →
      (u, d) ∈ (io'.sock l).handed := by
    rintro l u d (member | ⟨rfl, rfl, rfl⟩)
    · by_cases isS : l = s
      · subst isS; rw [self]; exact List.mem_append_left _ member
      · rw [others l isS]; exact member
    · rw [self]; simp
  have closing : ∀ l, (io'.sock l).closing = (io.sock l).closing := by
    intro l
    by_cases isS : l = s
    · subst isS; rw [self]
    · rw [others l isS]
  obtain ⟨steady, won, connects⟩ := accepts.hand_won task unserved served handed
  have kept : (io'.handover s).Kept := by
    have same : io'.handover s = (io.handover s).serve io.ntask c rest := by
      simp [handover, self, Machine.Handover.serve]
    rw [same]
    exact (accepts.kept s).serve parked io.ntask
  refine accepts.listener slots (s := s) (.inl rfl) (by rw [← isNext]; exact Nat.le_refl _)
    (fun l other => by rw [others l other]; exact .refl _) (by simp [self]) kept (by simp [self, free])
    (fun on => ?_) (fun l => by rw [closing]; exact id) (fun d member => .inl (by simpa [self] using member))
    steady (fun u d member => ?_) (by rw [self]; exact accepts.served_once unserved c) won connects
  · rw [self] at on ⊢
    exact accepts.listens s on
  · rw [self] at member
    rcases List.mem_append.mp member with before | isLast
    · exact .inl before
    · cases List.mem_singleton.mp isLast
      rw [task, Function.update_self]
      exact .inr served

/-- A connection arrives at an accept that waits. -/
theorem arriveHand (accepts : Accepts io) (slots : Slots io) (listens : (io.sock s).listening = true)
    (named : (io.sock s).acceptTask = some t) (ended : EndedWith p (io.task t) k io.nsock) :
    Accepts ((io.sockNew.setTask t k).modSock s fun q =>
      { q with arrived := q.arrived ++ [io.nsock], acceptTask := none
               handed := q.handed ++ [(t, io.nsock)] }) := by
  obtain ⟨kind, before, on⟩ := (slots.accept s t).mp named
  have served : Served k s io.nsock := ⟨ended.kind.trans kind, ended.done, ended.sock.trans on, ended.ptr, ended.status⟩
  obtain ⟨none, open_⟩ := accepts.listens s listens
  have empty := accepts.alone s (by simp [named])
  generalize isNext : (io.sockNew.setTask t k).modSock s (fun q =>
    { q with arrived := q.arrived ++ [io.nsock], acceptTask := Option.none
             handed := q.handed ++ [(t, io.nsock)] }) = io'
  have task : io'.task = update io.task t k := by rw [← isNext]; rfl
  have self : io'.sock s = { io.sock s with
      arrived := (io.sock s).arrived ++ [io.nsock], acceptTask := Option.none
      handed := (io.sock s).handed ++ [(t, io.nsock)] } := by
    rw [← isNext, modSock_sock, if_pos rfl, setTask_sock, sockNew_same slots]
  have others : ∀ l, l ≠ s → io'.sock l = io.sock l := fun l other => by
    rw [← isNext, modSock_sock, if_neg other, setTask_sock, sockNew_same slots]
  have handed : ∀ l u d, (u, d) ∈ (io.sock l).handed ∨ l = s ∧ u = t ∧ d = io.nsock →
      (u, d) ∈ (io'.sock l).handed := by
    rintro l u d (member | ⟨rfl, rfl, rfl⟩)
    · by_cases isS : l = s
      · subst isS; rw [self]; exact List.mem_append_left _ member
      · rw [others l isS]; exact member
    · rw [self]; simp
  have closing : ∀ l, (io'.sock l).closing = (io.sock l).closing := by
    intro l
    by_cases isS : l = s
    · subst isS; rw [self]
    · rw [others l isS]
  obtain ⟨steady, won, connects⟩ := accepts.hand_won task (fun _ => before) served handed
  have kept : (io'.handover s).Kept := by
    have same : io'.handover s = (io.handover s).pass t io.nsock := by
      simp [handover, self, Machine.Handover.pass]
    rw [same]
    exact (accepts.kept s).pass none empty t io.nsock
  refine accepts.listener slots (s := s) (.inr ⟨rfl, by rw [← isNext]; rfl⟩) (by rw [← isNext]; exact Nat.le_succ _)
    (fun l other => by rw [others l other]; exact .refl _) (by simp [self]) kept (by simp [self])
    (fun _ => ?_) (fun l => by rw [closing]; exact id) (fun d member => .inl (by simpa [self] using member))
    steady (fun u d member => ?_) (by rw [self]; exact accepts.served_once (fun _ => before) io.nsock) won connects
  · rw [self]
    exact ⟨none, open_⟩
  · rw [self] at member
    rcases List.mem_append.mp member with before | isLast
    · exact .inl before
    · cases List.mem_singleton.mp isLast
      rw [task, Function.update_self]
      exact .inr served

/-- A connection arrives, and no accept waits. -/
theorem arrivePark (accepts : Accepts io) (slots : Slots io) (listens : (io.sock s).listening = true)
    (free : (io.sock s).acceptTask = none) :
    Accepts (io.sockNew.modSock s fun q =>
      { q with arrived := q.arrived ++ [io.nsock], pending := q.pending ++ [io.nsock] }) := by
  obtain ⟨none, open_⟩ := accepts.listens s listens
  generalize isNext : io.sockNew.modSock s (fun q =>
    { q with arrived := q.arrived ++ [io.nsock], pending := q.pending ++ [io.nsock] }) = io'
  have task : io'.task = io.task := by rw [← isNext]; rfl
  have self : io'.sock s = { io.sock s with
      arrived := (io.sock s).arrived ++ [io.nsock], pending := (io.sock s).pending ++ [io.nsock] } := by
    rw [← isNext, modSock_sock, if_pos rfl, sockNew_same slots]
  have others : ∀ l, l ≠ s → io'.sock l = io.sock l := fun l other => by
    rw [← isNext, modSock_sock, if_neg other, sockNew_same slots]
  have books : ∀ l, (io'.sock l).closing = (io.sock l).closing ∧ (io'.sock l).handed = (io.sock l).handed := by
    intro l
    by_cases isS : l = s
    · subst isS; rw [self]; exact ⟨rfl, rfl⟩
    · rw [others l isS]; exact ⟨rfl, rfl⟩
  have kept : (io'.handover s).Kept := by
    have same : io'.handover s = (io.handover s).park io.nsock := by
      simp [handover, self, Machine.Handover.park]
    rw [same]
    exact (accepts.kept s).park none io.nsock
  refine accepts.listener slots (s := s) (.inr ⟨rfl, by rw [← isNext]; rfl⟩) (by rw [← isNext]; exact Nat.le_succ _)
    (fun l other => by rw [others l other]; exact .refl _) (by simp [self]) kept (by simp [self, free])
    (fun _ => ?_) (fun l => by rw [(books l).1]; exact id) (fun d member => .inl (by simpa [self] using member))
    (fun u kind done => ?_) (fun u d member => .inl (by rw [← (books s).2]; exact member))
    (by rw [(books s).2]; exact (accepts.once s).2) (fun u d isWon => ?_) fun u d => by rw [task]; exact fun kind on => ⟨kind, on⟩
  · rw [self]; exact ⟨none, open_⟩
  · rw [task]; exact ⟨kind, done, rfl, rfl⟩
  · rw [task] at isWon ⊢
    simp only [books]
    exact accepts.won u d isWon

/-- A listener is closed: its parked connections are dropped, and closed too. -/
theorem shut (accepts : Accepts io) (slots : Slots io) : Accepts (io.shut s) := by
  generalize isNext : io.shut s = io'
  have task : ∀ t, (io'.task t).kind = (io.task t).kind ∧ (io'.task t).done = (io.task t).done ∧
      (io'.task t).sock = (io.task t).sock ∧ (io'.task t).res = (io.task t).res := by
    intro t
    rw [← isNext, shut_form]
    exact ⟨rfl, rfl, rfl, rfl⟩
  have sock : ∀ l, io'.sock l = Io.closed (l ∈ (io.sock s).pending || l = s)
      (if l = s then dropping (io.sock s).pending (io.sock s) else io.sock l) := by
    intro l
    rw [← isNext, shut_form]
  have self := sock s
  simp only [decide_true, Bool.or_true, if_true] at self
  have books := books_closed true (dropping (io.sock s).pending (io.sock s))
  rw [← self] at books
  obtain ⟨arrived, handed, dropped, pending, waits, listens, _⟩ := books
  have dropped : (io'.sock s).dropped = (io.sock s).dropped ++ (io.sock s).pending := dropped
  have pending : (io'.sock s).pending = [] := by rw [pending]; simp [dropping]
  have closing : ∀ l, (io'.sock l).closing =
      ((decide (l ∈ (io.sock s).pending) || decide (l = s)) || (io.sock l).closing) := by
    intro l
    rw [sock, closed_closing]
    by_cases isS : l = s
    · subst isS; simp
    · simp [isS]
  have kept : (io'.handover s).Kept := by
    have same : io'.handover s = (io.handover s).shut := by
      simp [handover, Machine.Handover.shut, arrived, handed, dropped, pending, dropping]
    rw [same]
    exact (accepts.kept s).shut
  have handedOf : ∀ l, (io'.sock l).handed = (io.sock l).handed := by
    intro l
    by_cases isS : l = s
    · subst isS; exact handed
    · rw [sock, if_neg isS]; exact (books_closed _ _).handed
  refine accepts.listener slots (s := s) (.inl (rfl : ([] : List SockId) = [])) (by rw [← isNext]; exact Nat.le_refl _)
    (fun l other => ?_) (by rw [List.append_nil]; exact arrived) kept (fun _ => pending) (fun on => ?_)
    (fun l before => by rw [closing, before, Bool.or_true]) (fun d member => ?_)
    (fun u kind done => ?_) (fun u d member => .inl (by rw [← handedOf]; exact member))
    (by rw [handedOf]; exact (accepts.once s).2) (fun u d isWon => ?_) (fun u d kind on => ?_)
  · rw [sock, if_neg other]; exact books_closed _ _
  · -- What was listening is closed.
    have shut : (io'.sock s).closing = true := by rw [closing]; simp
    rcases listens on with ⟨before, same⟩ | ⟨_, open_⟩
    · have live := (accepts.listens s before).2
      rw [shut] at same
      rw [show (dropping (io.sock s).pending (io.sock s)).closing = (io.sock s).closing from rfl, live] at same
      cases same
    · rw [shut] at open_; cases open_
  · rw [dropped, List.mem_append] at member
    refine member.imp id fun parked => ?_
    rw [closing]
    simp [parked]
  · obtain ⟨kind', done', on', res'⟩ := task u
    exact ⟨kind'.trans kind, done'.trans done, on', res'⟩
  · obtain ⟨kind', _, on', res'⟩ := task u
    rw [res'] at isWon
    rw [kind', on']
    simp only [handedOf]
    exact accepts.won u d isWon
  · obtain ⟨kind', _, on', _⟩ := task u
    exact ⟨kind' ▸ kind, on' ▸ on⟩

/-- Every move keeps the books of the connections. -/
theorem move (accepts : Accepts io) (slots : Slots io) (move : Move p io io') : Accepts io' := by
  have still : ∀ {io' : Io}, io'.sock = io.sock → ∀ l, SameBooks (io.sock l) (io'.sock l) := by
    intro io' same l
    rw [same]
    exact .refl _
  cases move with
  | aside change =>
    refine accepts.same (.alike fun t => ?_) (Nat.le_of_eq change.nsock.symm) fun l => ?_
    · obtain ⟨kind, done, res, sock, _⟩ := change.task t
      exact ⟨kind, done, sock, res⟩
    · rw [change.sock l]; exact ⟨rfl, rfl, rfl, rfl, .inl, fun on => .inl ⟨on, rfl⟩, id⟩
  | make k fresh kind given =>
    exact accepts.same (.make slots rfl (by simp [fresh.res]) (.inl kind.1)) (Nat.le_refl _) (still rfl)
  | failed kind err notConnect =>
    exact accepts.same (.make slots rfl (by simp) (.inl notConnect)) (Nat.le_refl _) (still rfl)
  | claim t s won => exact accepts.same (.refl rfl) (Nat.le_refl _) (still rfl)
  | bare => exact accepts.same (.refl rfl) (Nat.le_succ _) (still (sockNew_same slots))
  | listen =>
    have sock : update io.sockNew.sock io.nsock { io.sockNew.sock io.nsock with listening := true } =
        update io.sock io.nsock { io.sock io.nsock with listening := true } := by
      rw [sockNew_same slots]
    have new := slots.unopened io.nsock (Nat.le_refl _)
    exact accepts.same (.refl rfl) (Nat.le_succ _)
      (books_update sock ⟨rfl, rfl, rfl, rfl, .inl, fun _ => .inr (by simp [new]), id⟩)
  | lookup =>
    have sock : io.sockNew.sock = io.sock := sockNew_same slots
    exact accepts.same (.make (k := { kind := .connect, sock := some io.nsock, req := .queued }) slots rfl (by simp)
      (.inr ⟨io.nsock, rfl, Nat.le_refl _⟩)) (Nat.le_succ _) (still sock)
  | waitRead s k fresh kind on given free =>
    exact accepts.same (.make (k := k) slots rfl (by simp [fresh.res]) (.inl (by simp [kind]))) (Nat.le_refl _)
      (books_update rfl ⟨rfl, rfl, rfl, rfl, .inl, fun on => .inl ⟨on, rfl⟩, id⟩)
  | waitAccept s given free empty =>
    exact accepts.same (.make (k := { kind := .accept, sock := some s }) slots rfl (by simp) (.inl (by simp)))
      (Nat.le_refl _) (books_update rfl ⟨rfl, rfl, rfl, rfl, fun _ => .inr empty, fun on => .inl ⟨on, rfl⟩, id⟩)
  | serve s c rest k ended given free parked => exact accepts.serve slots ended free parked
  | request t req made before kind unstopped =>
    exact accepts.same (.goOn rfl before rfl rfl rfl) (Nat.le_refl _) (still rfl)
  | tick t made before kind => exact accepts.same (.goOn rfl before rfl rfl rfl) (Nat.le_refl _) (still rfl)
  | start t queued =>
    exact accepts.same (.goOn rfl (slots.req t (by simp [queued])) rfl rfl rfl) (Nat.le_refl _) (still rfl)
  | take t queued allowed =>
    exact accepts.same (.goOn rfl (slots.req t (by simp [queued])) rfl rfl rfl) (Nat.le_refl _) (still rfl)
  | shake t s kind working on alive =>
    exact accepts.same (.goOn rfl (slots.req t (by simp [working])) rfl rfl rfl) (Nat.le_refl _) (still rfl)
  | closeSlot s t inside kind =>
    exact accepts.same (.refl rfl) (Nat.le_refl _)
      (books_update rfl ⟨rfl, rfl, rfl, rfl, .inl, fun on => .inl ⟨on, rfl⟩, id⟩)
  | ends t k made ended kind closes =>
    exact accepts.same (.ends rfl (fun isAccept => absurd isAccept kind.2.1) ended.kind ended.ptr (.inl ended.sock))
      (Nat.le_refl _) (still rfl)
  | leaveRead s t k named ended =>
    have before := ((slots.read s t).mp named).2.1
    exact accepts.same (.ends (k := k) rfl (fun _ => before) ended.kind ended.ptr (.inl ended.sock)) (Nat.le_refl _)
      (books_update rfl ⟨rfl, rfl, rfl, rfl, .inl, fun on => .inl ⟨on, rfl⟩, id⟩)
  | leaveAccept s t k named ended =>
    have before := ((slots.accept s t).mp named).2.1
    exact accepts.same (.ends (k := k) rfl (fun _ => before) ended.kind ended.ptr (.inl ended.sock)) (Nat.le_refl _)
      (books_update rfl ⟨rfl, rfl, rfl, rfl, by simp, fun on => .inl ⟨on, rfl⟩, id⟩)
  | connected t s k kind before on ended =>
    refine accepts.same (.renew rfl (fun _ => before) (fun c isWon => .inr ?_) fun c isConnect isOn => .inl ?_)
      (Nat.le_refl _) (still rfl)
    · rw [ended.ptr] at isWon
      cases isWon
      exact ⟨ended.kind.trans kind, ended.sock.trans on⟩
    · exact ⟨kind, ended.sock ▸ isOn⟩
  | connectEnds t k kind before ended sock ptr truth =>
    exact accepts.same (.ends rfl (fun _ => before) ended.kind ptr (.inr sock)) (Nat.le_refl _) (still rfl)
  | close s inside allowed =>
    rw [sockDestroy_eq]
    exact accepts.same (.alike fun _ => ⟨rfl, rfl, rfl, rfl⟩) (Nat.le_refl _) fun l => books_closed _ _
  | shut s inside given => exact accepts.shut slots
  | arriveHand s t k listens named ended => exact accepts.arriveHand slots listens named ended
  | arrivePark s listens free => exact accepts.arrivePark slots listens free
  | closed s inside closing quiet =>
    exact accepts.same (.refl rfl) (Nat.le_refl _)
      (books_update rfl ⟨rfl, rfl, rfl, rfl, .inl, fun on => .inl ⟨on, rfl⟩, id⟩)

theorem moves (accepts : Accepts io) (books : Books p io) (moves : Moves p io io') : Accepts io' := by
  suffices both : Accepts io' ∧ Books p io' from both.1
  induction moves with
  | refl => exact ⟨accepts, books⟩
  | tail _ last ih => exact ⟨ih.1.move ih.2.slots last, ih.2.move last⟩

end Accepts

/-! ### Closing a listener -/

/-- The end of the read that waits is nothing to the accept. -/
theorem closeRead_accept (books : Books p io) (s : SockId) :
    ((io.closeRead s).sock s).acceptTask = (io.sock s).acceptTask ∧
      ((io.closeRead s).sock s).pending = (io.sock s).pending ∧
      ∀ t, (io.task t).kind ≠ .sockRead → (io.closeRead s).task t = io.task t := by
  unfold closeRead
  split
  · rename_i u named
    have slot := books.read named
    have ptr : ((io.modSock s ({ · with reading := false })).task u).res.ptr = none := slot.ptr
    obtain ⟨k, n, isNext, _, _⟩ := cancelSlot_eq ptr
    rw [isNext]
    refine ⟨by simp [modSock, setTask], by simp [modSock, setTask], fun t kind => ?_⟩
    have other : t ≠ u := by rintro rfl; exact kind slot.kind
    simp [modSock, setTask, Function.update_of_ne other]
  · exact ⟨rfl, rfl, fun _ _ => rfl⟩

/-- The accept that waits is canceled. -/
theorem endAccept_accept (books : Books p io) (s : SockId) :
    ((io.endAccept s).sock s).acceptTask = none ∧ ((io.endAccept s).sock s).pending = (io.sock s).pending ∧
      ∀ t, (io.sock s).acceptTask = some t →
        ((io.endAccept s).task t).done = true ∧ ((io.endAccept s).task t).res.status = .canceled := by
  unfold endAccept
  split
  · rename_i u named
    obtain ⟨k, n, isNext, done, status⟩ := cancelSlot_eq (books.accept named).ptr
    rw [isNext]
    refine ⟨by simp [modSock, setTask], by simp [modSock, setTask], fun t isT => ?_⟩
    rw [named] at isT
    cases isT
    simpa [modSock, setTask] using ⟨done, status⟩
  · rename_i free
    exact ⟨free, rfl, fun t isT => by rw [free] at isT; cases isT⟩

/-- `sock_close` closes every connection that is parked, and cancels the accept that waits. -/
theorem implSockClose_spec (books : Books p io) (given : io.claimed s = true) :
    ((io.implSockClose s).sock s).pending = [] ∧ ((io.implSockClose s).sock s).acceptTask = none ∧
      (∀ c, c ∈ (io.sock s).pending → ((io.implSockClose s).sock c).closing = true) ∧
      ∀ t, (io.sock s).acceptTask = some t →
        ((io.implSockClose s).task t).done = true ∧ ((io.implSockClose s).task t).res.status = .canceled := by
  have made : Move p io (io.taskNew { kind := .sockClose }) :=
    .make _ ⟨rfl, rfl, rfl, rfl, rfl, rfl⟩ (by simp) (by simp)
  have books₁ := books.move made
  have inside : s < (io.taskNew { kind := .sockClose }).nsock := books.slots.claimed s given
  obtain ⟨accept₂, pending₂, task₂⟩ := closeRead_accept books₁ s
  have books₂ := books₁.moves (closeRead_moves books₁ inside)
  obtain ⟨accept₃, pending₃, task₃⟩ := endAccept_accept books₂ s
  rw [implSockClose_eq]
  generalize ((io.taskNew { kind := .sockClose }).closeRead s).endAccept s = io₃ at *
  have pending : (io₃.sock s).pending = (io.sock s).pending := pending₃.trans pending₂
  unfold closeRest
  rw [shut_eq, shut_form]
  refine ⟨?_, ?_, fun c member => ?_, fun t named => ?_⟩
  · simp only [modSock, Function.update_self]
    rw [(Accepts.books_closed _ _).pending]
    simp [dropping]
  · simp only [modSock, Function.update_self, closed_acceptTask]
    simpa [dropping] using accept₃
  · rw [modSock_sock]
    split
    · simp
    · rw [closed_closing]; simp [pending, member]
  · have old : t < io.ntask := (books.accept named).made
    exact task₃ t (accept₂.trans named)

/-! ### Every run -/

/--
In every run each connection a listener has taken from libuv was handed to exactly one accept task,
or is parked, or was dropped and closed when the listener was closed; connections are handed over in
the order in which they arrived, and no accept waits while one is parked. A `sock_close` leaves
nothing parked and no accept waiting.
-/
theorem connections_kept (run : Runs Io.new io) (s : SockId) :
    (io.handover s).Kept ∧ (io.sock s).arrived.Nodup ∧ ((io.sock s).handed.map Prod.fst).Nodup ∧
    ((io.sock s).acceptTask ≠ none → (io.sock s).pending = []) ∧
    (∀ t c, (t, c) ∈ (io.sock s).handed →
      Served (io.task t) s c ∧ ∀ u, (io.task u).res.ptr = some c → u = t) ∧
    (∀ c, c ∈ (io.sock s).dropped → (io.sock c).closing = true) ∧
    (∀ c, c ∈ (io.sock s).dropped ∨ c ∈ (io.sock s).pending → ∀ u, (io.task u).res.ptr ≠ some c) ∧
    ∀ io', io.allowed (.user (.sockClose s)) = true → io.step (.user (.sockClose s)) = some io' →
      (io'.sock s).pending = [] ∧ (io'.sock s).acceptTask = none ∧
      (∀ c, c ∈ (io.sock s).pending → (io'.sock c).closing = true) ∧
      ∀ t, (io.sock s).acceptTask = some t → (io'.task t).done = true ∧ (io'.task t).res.status = .canceled := by
  have reached : Accepts io ∧ Sane True io :=
    Machine.Path.invariant (fun io => Accepts io ∧ Sane True io)
      (fun _ _ _ before may taken => ⟨before.1.moves before.2.books (before.2.moves may (.inl trivial) taken),
        before.2.step may (.inl trivial) taken⟩) run ⟨.new, .new⟩
  obtain ⟨accepts, sane⟩ := reached
  have all := (accepts.kept s).all
  obtain ⟨distinct, takers⟩ := accepts.once s
  -- A connection is in one place of its listener's books only.
  have places : ((io.sock s).handed.map Prod.snd ++ ((io.sock s).dropped ++ (io.sock s).pending)).Nodup := by
    have same : (io.sock s).arrived = (io.sock s).handed.map Prod.snd ++
        ((io.sock s).dropped ++ (io.sock s).pending) := all
    rw [← same]
    exact distinct
  obtain ⟨items, _, disjoint⟩ := List.nodup_append.mp places
  have arrived : ∀ t c, (t, c) ∈ (io.sock s).handed → c ∈ (io.sock s).arrived := by
    intro t c member
    have isSecond : c ∈ (io.sock s).handed.map Prod.snd := List.mem_map.mpr ⟨(t, c), member, rfl⟩
    exact (accepts.kept s).ordered.subset isSecond
  have winner : ∀ c u, c ∈ (io.sock s).arrived → (io.task u).res.ptr = some c → (u, c) ∈ (io.sock s).handed := by
    intro c u member isWon
    rcases accepts.won u c isWon with ⟨l, handed⟩ | ⟨kind, on⟩
    · have isL : c ∈ (io.sock l).arrived :=
        (accepts.kept l).ordered.subset (List.mem_map.mpr ⟨(u, c), handed, rfl⟩)
      rw [accepts.own s l c member isL]
      exact handed
    · exact absurd member (accepts.apart u c kind on s)
  refine ⟨accepts.kept s, distinct, takers, accepts.alone s, fun t c member => ⟨accepts.served s t c member, ?_⟩,
    accepts.closed s, fun c waits u isWon => ?_, fun io' may taken => ?_⟩
  · intro u isWon
    have both := winner c u (arrived t c member) isWon
    exact congrArg Prod.fst (List.inj_on_of_nodup_map items both member rfl)
  · have inBooks : c ∈ (io.sock s).dropped ++ (io.sock s).pending := List.mem_append.mpr waits
    have member : c ∈ (io.sock s).arrived := by
      rw [show (io.sock s).arrived = _ from all]
      exact List.mem_append_right _ inBooks
    have isFirst : c ∈ (io.sock s).handed.map Prod.snd := List.mem_map.mpr ⟨(u, c), winner c u member isWon, rfl⟩
    exact disjoint c isFirst c inBooks rfl
  · obtain rfl := step_call taken
    exact implSockClose_spec sane.books (Bool.and_eq_true_iff.mp (Bool.and_eq_true_iff.mp may).1).1

/-- Three connections come to a listener: an accept waits for the first and takes the second. -/
def threeArrive : List Label :=
  [.user (.tcpListen 0), .user (.tcpAccept 0), .user .step, .loop (.connection 0 0 .taken),
    .loop (.connection 0 0 .taken), .loop (.connection 0 0 .taken), .turnEnd, .user (.tcpAccept 0),
    .user (.taskResult 0)]

/-- The instance after that. -/
def threeArrived : Io := Machine.drive step Io.new threeArrive

/-- The listener's books then, and what a close makes of the third connection. -/
theorem connections_kept_threeArrived :
    (threeArrived.sock 0).handed = [(0, 1), (1, 2)] ∧ (threeArrived.sock 0).pending = [3] ∧
      (threeArrived.handover 0).Kept ∧ ((threeArrived.call (.sockClose 0)).sock 3).closing = true := by
  have run : Runs Io.new threeArrived :=
    .of_legal allowed (fun _ _ => id) threeArrive (.refl _) (by decide +kernel)
  have parked : 3 ∈ (threeArrived.sock 0).pending := by decide +kernel
  have idle : threeArrived.user = .idle := by decide +kernel
  obtain ⟨kept, _, _, _, _, _, _, closes⟩ := connections_kept run 0
  exact ⟨by decide +kernel, by decide +kernel, kept,
    (closes _ (by decide +kernel) (by rw [step, if_pos idle])).2.2.1 3 parked⟩

end Myio.Uv.Io
