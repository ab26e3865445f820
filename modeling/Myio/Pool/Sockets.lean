import Myio.Pool.Counted
import Myio.Pool.Lives

/-! The list of sockets, and the caller's claims to them. -/

namespace Myio.Core

open Function (update)

/-- The list of sockets: no repetitions, nothing not yet made, nothing freed. -/
structure Linked (c : Core) : Prop where
  nodup : c.socks.Nodup
  bound : ∀ s, s ∈ c.socks → s < c.nsock
  unfreed : ∀ s, s ∈ c.socks → (c.sock s).frees = 0

/-- The sockets the caller has been given, or will be by a task it holds. -/
structure Claims (c : Core) : Prop where
  claimed_bound : ∀ s, c.claimed s = true → s < c.nsock
  claimed_live : ∀ s, c.claimed s = true → (c.sock s).closing = false → c.gone = false → s ∈ c.socks
  ptr_bound : ∀ t s, t < c.ntask → (c.task t).res.ptr = some s → s < c.nsock
  ptr_inj : ∀ t u s, t < c.ntask → u < c.ntask → (c.task t).res.ptr = some s →
    (c.task u).res.ptr = some s → t = u
  ptr_live : ∀ t s, c.held t = true → (c.task t).res.ptr = some s → (c.sock s).closing = false →
    c.gone = false → s ∈ c.socks

/-- What is on the list of sockets after one is unlinked. -/
theorem Linked.mem_unlink {c : Core} (linked : c.Linked) (s u : SockId) :
    u ∈ (c.sockUnlink s).socks ↔ u ≠ s ∧ u ∈ c.socks :=
  linked.nodup.mem_erase_iff

/-- Closing the left-over sockets touches no other. -/
theorem closeSocks_sock (l : List SockId) : ∀ (c : Core) (s : SockId), s ∉ l →
    (Pool.closeSocks c l).sock s = c.sock s := by
  induction l with
  | nil => intro c s _; rfl
  | cons u rest ih =>
    intro c s outside
    obtain ⟨other, below⟩ := List.ne_and_not_mem_of_not_mem_cons outside
    rw [Pool.closeSocks, ih _ _ below]
    simp [sockFree, modSock, closeDesc, modDesc, other]

/-- No descriptor is ever reopened. -/
theorem closeSocks_closes (l : List SockId) : ∀ (c : Core) (fd : Fd),
    (c.desc fd).closes ≤ ((Pool.closeSocks c l).desc fd).closes := by
  induction l with
  | nil => intro c fd; exact Nat.le_refl _
  | cons u rest ih =>
    intro c fd
    refine Nat.le_trans ?_ (ih _ fd)
    simp only [sockFree, modSock, closeDesc, modDesc, Function.update_apply]
    split
    · rename_i same; subst same; exact Nat.le_succ _
    · exact Nat.le_refl _

section Linked

variable {o : OpKind → Result → Prop} {c c' : Core} {x x' : TaskId → Bool}
  {h h' : SockId → Bool}

/-- A change that leaves the list of sockets and what was freed alone. -/
theorem Linked.same (linked : c.Linked) (socks : c'.socks = c.socks) (nsock : c'.nsock = c.nsock)
    (sock : ∀ s, (c'.sock s).frees = (c.sock s).frees) : c'.Linked := by
  constructor
  · rw [socks]; exact linked.nodup
  · rw [socks, nsock]; exact linked.bound
  · rw [socks]; intro s inside; rw [sock]; exact linked.unfreed s inside

theorem Linked.sockUnlink (linked : c.Linked) (s : SockId) : (c.sockUnlink s).Linked := by
  refine ⟨linked.nodup.erase s, fun u inside => ?_, fun u inside => ?_⟩
  · exact linked.bound u (List.mem_of_mem_erase inside)
  · exact linked.unfreed u (List.mem_of_mem_erase inside)

/-- A socket that is not on the list may be freed. -/
theorem Linked.sockFree (linked : c.Linked) {s : SockId} (outside : s ∉ c.socks) :
    (c.sockFree s).Linked := by
  refine ⟨linked.nodup, linked.bound, fun u inside => ?_⟩
  have other : u ≠ s := fun same => outside (same ▸ inside)
  simp only [Core.sockFree, modSock, Function.update_of_ne other]
  exact linked.unfreed u inside

theorem Linked.sockLink (linked : c.Linked) (fd : Fd) : (c.sockLink fd).Linked := by
  have fresh : c.nsock ∉ c.socks := fun inside => Nat.lt_irrefl _ (linked.bound _ inside)
  refine ⟨List.nodup_cons.mpr ⟨fresh, linked.nodup⟩, fun u inside => ?_, fun u inside => ?_⟩
  · rcases List.mem_cons.mp inside with rfl | below
    · exact Nat.lt_succ_self _
    · exact Nat.lt_succ_of_lt (linked.bound u below)
  · simp only [Core.sockLink, Function.update_apply]
    rcases List.mem_cons.mp inside with rfl | below
    · simp
    · have other : u ≠ c.nsock := fun same => fresh (same ▸ below)
      simp only [other, if_false]
      exact linked.unfreed u below

/-- Every move keeps the list of sockets sound. -/
theorem Linked.move (move : Move o ⟨c, x, h⟩ ⟨c', x', h'⟩) (linked : c.Linked)
    (released : ∀ w t s fd, c.At w t (.release fd) → (c.task t).sock = some s → s ∉ c.socks) :
    c'.Linked := by
  cases move with
  | stir stirred => rw [stirred.rest]; exact linked.same rfl rfl fun _ => rfl
  | exit pending unstarted =>
    rw [leaveSock_rest, queueRemove_rest]
    exact linked.same rfl rfl fun s => by rw [leaveSock_sock]
  | exitRun at_ pending =>
    rw [leaveSock_rest]
    exact linked.same rfl rfl fun s => by rw [leaveSock_sock]; rfl
  | fail live bare usable wq =>
    rw [failHead_eq]
    refine linked.same rfl rfl fun s => ?_
    simp only [modTask, modSock, Function.update_apply]; grind
  | createClose live open_ mine =>
    refine linked.same rfl rfl fun s => ?_
    simp only [taskNew, modSock, Function.update_apply]; grind
  | enqueue submitted open_ unstarted out kind live onSock =>
    refine linked.same ?_ ?_ fun s => ?_ <;> split <;> try rfl
    simp only [queuePush, inflightInc, modSock, Function.update_apply]; grind
  | park submitted open_ unstarted out kind sock live usable =>
    refine linked.same rfl rfl fun s => ?_
    simp only [inflightInc, modSock, Function.update_apply]; grind
  | link loose => exact linked.sockLink _
  | discard unused =>
    rename_i s
    have closed : ((c.sockUnlink s).closeDesc (c.sock s).fd).Linked :=
      (linked.sockUnlink s).same rfl rfl fun _ => rfl
    exact closed.sockFree fun inside => ((linked.mem_unlink s s).mp inside).1 rfl
  | unlink at_ sock unused => exact (linked.sockUnlink _).same rfl rfl fun _ => rfl
  | freeSock at_ sock =>
    exact (linked.sockFree (released _ _ _ _ at_ sock)).same rfl rfl fun _ => rfl
  | sweep idle =>
    exact ⟨List.nodup_nil, fun _ inside => (List.not_mem_nil inside).elim,
      fun _ inside => (List.not_mem_nil inside).elim⟩
  | _ => exact linked.same rfl rfl fun _ => rfl

end Linked

section Claims

variable {o : OpKind → Result → Prop} {c c' : Core} {x x' : TaskId → Bool}
  {h h' : SockId → Bool}

/-- A change of what the caller's claims do not depend on. -/
theorem Claims.congr (claims : c.Claims) (claimed : ∀ s, c'.claimed s = true → c.claimed s = true)
    (held : ∀ t, c'.held t = true → c.held t = true)
    (ntask : c'.ntask = c.ntask) (nsock : c'.nsock = c.nsock)
    (gone : c'.gone = false → c.gone = false)
    (ptr : ∀ t s, (c'.task t).res.ptr = some s → (c.task t).res.ptr = some s)
    (closing : ∀ s, (c'.sock s).closing = false → (c.sock s).closing = false)
    (live : ∀ s, s ∈ c.socks → (c'.sock s).closing = false → c'.gone = false →
      (c'.claimed s = true ∨ ∃ t, c'.held t = true ∧ (c.task t).res.ptr = some s) → s ∈ c'.socks) :
    c'.Claims := by
  obtain ⟨claimedBound, claimedLive, ptrBound, ptrInj, ptrLive⟩ := claims
  constructor
  case claimed_bound => rw [nsock]; exact fun s claim => claimedBound s (claimed s claim)
  case claimed_live =>
    intro s claim usable alive
    exact live s (claimedLive s (claimed s claim) (closing s usable) (gone alive)) usable alive
      (.inl claim)
  case ptr_bound =>
    rw [ntask, nsock]
    exact fun t s inside won => ptrBound t s inside (ptr t s won)
  case ptr_inj =>
    rw [ntask]
    exact fun t u s insideT insideU wonT wonU =>
      ptrInj t u s insideT insideU (ptr t s wonT) (ptr u s wonU)
  case ptr_live =>
    intro t s mine won usable alive
    replace won := ptr t s won
    exact live s (ptrLive t s (held t mine) won (closing s usable) (gone alive)) usable alive
      (.inr ⟨t, mine, won⟩)

/-- A change of what the caller's claims do not depend on at all. -/
theorem Claims.same (claims : c.Claims) (claimed : c'.claimed = c.claimed) (held : c'.held = c.held)
    (ntask : c'.ntask = c.ntask) (nsock : c'.nsock = c.nsock) (gone : c'.gone = c.gone)
    (ptr : ∀ t, (c'.task t).res.ptr = (c.task t).res.ptr)
    (closing : ∀ s, (c'.sock s).closing = (c.sock s).closing) (socks : c'.socks = c.socks) :
    c'.Claims := by
  refine claims.congr ?_ ?_ ntask nsock ?_ ?_ ?_ ?_
  · simp [claimed]
  · simp [held]
  · simp [gone]
  · simp [ptr]
  · simp [closing]
  · intro s inside _ _ _; rw [socks]; exact inside

/-- A task's record changes without its result. -/
theorem Claims.modTask (claims : c.Claims) (t : TaskId) (f : Task → Task)
    (res : (f (c.task t)).res.ptr = (c.task t).res.ptr) : (c.modTask t f).Claims := by
  refine claims.same rfl rfl rfl rfl rfl (fun u => ?_) (fun _ => rfl) rfl
  simp only [Core.modTask, Function.update_apply]
  grind

/-- A socket nobody has a claim to may go. -/
theorem Claims.sockUnlink (claims : c.Claims) (linked : c.Linked) (s : SockId)
    (unclaimed : (c.sock s).closing = true ∨
      (c.claimed s = false ∧ ∀ t, c.held t = true → (c.task t).res.ptr ≠ some s)) :
    (c.sockUnlink s).Claims := by
  refine claims.congr (fun _ there => there) (fun _ there => there) rfl rfl (fun there => there)
    (fun _ _ won => won) (fun _ there => there) ?_
  intro u inside usable _ claim
  refine (linked.mem_unlink s u).mpr ⟨?_, inside⟩
  rintro rfl
  rcases unclaimed with isClosing | ⟨nobody, noTask⟩
  · change (c.sock u).closing = false at usable
    simp [isClosing] at usable
  · rcases claim with claim | ⟨t, mine, won⟩
    · change c.claimed u = true at claim
      simp [nobody] at claim
    · exact noTask t mine won

/-- Discarding a socket nobody has a claim to. -/
theorem Claims.sockDiscard (claims : c.Claims) (linked : c.Linked) (s : SockId)
    (unclaimed : (c.sock s).closing = true ∨
      (c.claimed s = false ∧ ∀ t, c.held t = true → (c.task t).res.ptr ≠ some s)) :
    (c.sockDiscard s).Claims := by
  refine (claims.sockUnlink linked s unclaimed).same rfl rfl rfl rfl rfl (fun _ => rfl)
    (fun u => ?_) rfl
  simp only [Core.sockDiscard, Core.sockFree, modSock, closeDesc, modDesc, Core.sockUnlink,
    Function.update_apply]
  grind

/-- A new socket is claimed by nobody yet. -/
theorem Claims.sockLink (claims : c.Claims) (fd : Fd) : (c.sockLink fd).Claims := by
  obtain ⟨claimedBound, claimedLive, ptrBound, ptrInj, ptrLive⟩ := claims
  constructor
  case claimed_bound => exact fun s claim => Nat.lt_succ_of_lt (claimedBound s claim)
  case claimed_live =>
    intro s claim usable alive
    have other : s ≠ c.nsock := Nat.ne_of_lt (claimedBound s claim)
    simp only [Core.sockLink, Function.update_of_ne other] at usable
    exact List.mem_cons_of_mem _ (claimedLive s claim usable alive)
  case ptr_bound => exact fun t s inside won => Nat.lt_succ_of_lt (ptrBound t s inside won)
  case ptr_inj => exact ptrInj
  case ptr_live =>
    intro t s mine won usable alive
    by_cases other : s = c.nsock
    · exact List.mem_cons.mpr (.inl other)
    · simp only [Core.sockLink, Function.update_of_ne other] at usable
      exact List.mem_cons_of_mem _ (ptrLive t s mine won usable alive)

/-- A new task has won nothing yet. -/
theorem Claims.taskNew (claims : c.Claims) {k : Task} (bare : k.res.ptr = none) :
    (c.taskNew k).Claims := by
  have old : ∀ t s, ((c.taskNew k).task t).res.ptr = some s →
      t ≠ c.ntask ∧ (c.task t).res.ptr = some s := by
    intro t s won
    by_cases new : t = c.ntask
    · subst new; simp [Core.taskNew, bare] at won
    · simp only [Core.taskNew, Function.update_of_ne new] at won; exact ⟨new, won⟩
  have below : ∀ t, t < c.ntask + 1 → t ≠ c.ntask → t < c.ntask := fun t inside other =>
    Nat.lt_of_le_of_ne (Nat.le_of_lt_succ inside) other
  obtain ⟨claimedBound, claimedLive, ptrBound, ptrInj, ptrLive⟩ := claims
  constructor
  case claimed_bound => exact claimedBound
  case claimed_live => exact claimedLive
  case ptr_bound =>
    intro t s inside won
    obtain ⟨other, won⟩ := old t s won
    exact ptrBound t s (below t inside other) won
  case ptr_inj =>
    intro t u s insideT insideU wonT wonU
    obtain ⟨otherT, wonT⟩ := old t s wonT
    obtain ⟨otherU, wonU⟩ := old u s wonU
    exact ptrInj t u s (below t insideT otherT) (below u insideU otherU) wonT wonU
  case ptr_live =>
    intro t s mine won usable alive
    obtain ⟨other, won⟩ := old t s won
    simp only [Core.taskNew, Function.update_of_ne other] at mine
    exact ptrLive t s mine won usable alive

/-- A task ends; a socket its result carries is a new one. -/
theorem Claims.settle (claims : c.Claims) (lives : c.Lives) {t : TaskId} {res : Result}
    (settles : c.Settles t res) (open_ : (c.task t).done = false) : (c.settle t res).Claims := by
  have ptr : ∀ u, ((c.settle t res).task u).res.ptr =
      if u = t then res.ptr else (c.task u).res.ptr := by
    intro u; simp only [Core.settle, Core.modTask, Function.update_apply, settled]; grind
  have new := settles.ptr
  obtain ⟨claimedBound, claimedLive, ptrBound, ptrInj, ptrLive⟩ := claims
  constructor
  case claimed_bound => exact claimedBound
  case claimed_live => exact claimedLive
  case ptr_bound =>
    intro u s inside won
    change s < c.nsock
    change u < c.ntask at inside
    grind
  case ptr_inj =>
    intro u v s insideU insideV wonU wonV
    change u < c.ntask at insideU
    change v < c.ntask at insideV
    grind
  case ptr_live =>
    intro u s mine won usable alive
    change c.held u = true at mine
    change (c.sock s).closing = false at usable
    change s ∈ c.socks
    rw [ptr] at won
    split at won
    · rename_i same
      subst same
      refine (new s won).2.2.2.2 ?_
      have := (lives.each u (lives.bound u mine)).owned open_
      simpa [mine] using this
    · exact ptrLive u s mine won usable alive

/-- Every move keeps the caller's claims sound. -/
theorem Claims.move (move : Move o ⟨c, x, h⟩ ⟨c', x', h'⟩) (claims : c.Claims) (lives : c.Lives)
    (linked : c.Linked)
    (closing : ∀ w t s, c.At w t .drain → (c.task t).sock = some s → (c.sock s).closing = true) :
    c'.Claims := by
  cases move with
  | stir stirred =>
    rw [stirred.rest]; exact claims.same rfl rfl rfl rfl rfl (fun _ => rfl) (fun _ => rfl) rfl
  | exit pending unstarted =>
    rw [leaveSock_rest, queueRemove_rest]
    exact claims.same rfl rfl rfl rfl rfl (fun _ => rfl) (fun s => by rw [leaveSock_sock]) rfl
  | exitRun at_ pending =>
    rw [leaveSock_rest]
    exact claims.same rfl rfl rfl rfl rfl (fun _ => rfl) (fun s => by rw [leaveSock_sock]; rfl) rfl
  | settle submitted open_ out settles allowed => exact claims.settle lives settles open_
  | fail live bare usable wq =>
    rw [failHead_eq]
    refine claims.congr (fun _ there => there) (fun _ there => there) rfl rfl (fun there => there)
      (fun u s won => ?_) (fun u usable => ?_) (fun _ inside _ _ _ => inside)
    · simp only [Core.modTask, modSock, Function.update_apply, settled] at won
      grind [rErr_ptr]
    · simp only [Core.modTask, modSock, Function.update_apply] at usable
      grind
  | create fresh => exact claims.taskNew (by rw [fresh.res]; rfl)
  | createClose live open_ mine =>
    refine (claims.taskNew (k := { kind := .opSockClose, sock := some _ }) rfl).congr
      (fun _ there => there) (fun _ there => there) rfl rfl (fun there => there) (fun _ _ won => won)
      (fun u usable => ?_) (fun _ inside _ _ _ => inside)
    simp only [modSock, Function.update_apply] at usable
    grind
  | enqueue submitted open_ unstarted out kind live onSock =>
    split
    · refine claims.same rfl rfl rfl rfl rfl (fun _ => rfl) (fun u => ?_) rfl
      simp only [queuePush, inflightInc, modSock, Function.update_apply]; grind
    · exact claims.same rfl rfl rfl rfl rfl (fun _ => rfl) (fun _ => rfl) rfl
  | park submitted open_ unstarted out kind sock live usable =>
    refine claims.same rfl rfl rfl rfl rfl (fun _ => rfl) (fun u => ?_) rfl
    simp only [inflightInc, modSock, Function.update_apply]; grind
  | take queue inside free =>
    rename_i w t rest
    exact (claims.modTask t (fun k => { k with started := true, worker := some w }) rfl).same
      rfl rfl rfl rfl rfl (fun _ => rfl) (fun _ => rfl) rfl
  | flag => exact claims.modTask _ _ rfl
  | send at_ fits =>
    rename_i w t off n
    exact (claims.modTask t (fun k => { k with sent := off + n }) rfl).same
      rfl rfl rfl rfl rfl (fun _ => rfl) (fun _ => rfl) rfl
  | link loose => exact claims.sockLink _
  | discard unused => exact claims.sockDiscard linked _ unused.handles
  | unlink at_ sock unused =>
    exact (claims.sockUnlink linked _ (.inl (closing _ _ _ at_ sock))).same
      rfl rfl rfl rfl rfl (fun _ => rfl) (fun _ => rfl) rfl
  | freeSock at_ sock =>
    refine claims.same rfl rfl rfl rfl rfl (fun _ => rfl) (fun u => ?_) rfl
    simp only [setPc, modWorker, Core.sockFree, modSock, Function.update_apply]
    grind
  | detach open_ held =>
    rename_i t
    refine (claims.modTask t ({ · with detached := true }) rfl).congr (fun _ there => there) ?_
      rfl rfl (fun there => there) (fun _ _ won => won) (fun _ there => there) (fun _ inside _ _ _ => inside)
    intro u mine
    simp only [Function.update_apply] at mine
    split at mine
    · cases mine
    · exact mine
  | free done held =>
    rename_i t
    refine (claims.modTask t (fun k => { k with frees := k.frees + 1 }) rfl).congr
      (fun _ there => there) ?_ rfl rfl (fun there => there) (fun _ _ won => won)
      (fun _ there => there) (fun _ inside _ _ _ => inside)
    intro u mine
    simp only [Function.update_apply] at mine
    split at mine
    · cases mine
    · exact mine
  | claim bound live =>
    rename_i s
    refine ⟨fun u claim => ?_, fun u claim usable alive => ?_, claims.ptr_bound, claims.ptr_inj,
      claims.ptr_live⟩ <;> simp only [Function.update_apply] at claim <;> split at claim
    · rename_i same; subst same; exact bound
    · exact claims.claimed_bound u claim
    · rename_i same; subst same; exact live usable alive
    · exact claims.claimed_live u claim usable alive
  | unclaim usable =>
    rename_i s
    refine claims.congr (fun u claim => ?_) (fun _ there => there) rfl rfl (fun there => there)
      (fun _ _ won => won) (fun _ there => there) (fun _ inside _ _ _ => inside)
    simp only [Function.update_apply] at claim
    split at claim
    · cases claim
    · exact claim
  | sweep idle =>
    rw [closeSocks_rest]
    obtain ⟨claimedBound, claimedLive, ptrBound, ptrInj, ptrLive⟩ := claims
    refine ⟨claimedBound, ?_, ptrBound, ptrInj, ?_⟩
    · intro _ _ _ alive; cases alive
    · intro _ _ _ _ _ alive; cases alive
  | _ => exact claims.same rfl rfl rfl rfl rfl (fun _ => rfl) (fun _ => rfl) rfl

end Claims

end Myio.Core
