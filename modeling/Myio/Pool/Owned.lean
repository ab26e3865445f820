import Myio.Pool.Moves

/-! Who holds a descriptor: a socket, a worker about to commit, or a listener being made. -/

namespace Myio.Core

open Function (update)

/-- Somebody is about to make a socket of a descriptor. -/
def Taken (c : Core) (fd : Fd) : Prop :=
  (∃ w t res, c.At w t (.commit res (some fd))) ∨ c.wrapping = some fd

/-- No descriptor has two holders, and one that is not a socket yet is as the kernel gave it out. -/
structure Owned (c : Core) : Prop where
  sock_bound : ∀ s, s < c.nsock → (c.sock s).fd < c.ndesc
  sock_inj : ∀ s u, s < c.nsock → u < c.nsock → (c.sock s).fd = (c.sock u).fd → s = u
  won : ∀ w t res fd, c.At w t (.commit res (some fd)) → fd < c.ndesc ∧ c.desc fd = {} ∧
    c.wrapping ≠ some fd ∧ ∀ s, s < c.nsock → (c.sock s).fd ≠ fd
  won_inj : ∀ w w' t t' res res' fd, c.At w t (.commit res (some fd)) →
    c.At w' t' (.commit res' (some fd)) → w = w'
  wrapped : ∀ fd, c.wrapping = some fd → fd < c.ndesc ∧ c.desc fd = {} ∧
    ∀ s, s < c.nsock → (c.sock s).fd ≠ fd

variable {o : OpKind → Result → Prop} {c c' : Core} {x x' : TaskId → Bool}
  {h h' : SockId → Bool}

/-- No descriptor changes hands, except that one may be given up. -/
theorem Owned.congr (owned : c.Owned) (nsock : c'.nsock = c.nsock) (ndesc : c'.ndesc = c.ndesc)
    (sock : ∀ s, (c'.sock s).fd = (c.sock s).fd)
    (wrapping : ∀ fd, c'.wrapping = some fd → c.wrapping = some fd)
    (desc : ∀ fd, c.Taken fd → (∀ s, s < c.nsock → (c.sock s).fd ≠ fd) → c.desc fd = {} →
      c'.desc fd = {})
    (won : ∀ w t res fd, c'.At w t (.commit res (some fd)) → c.At w t (.commit res (some fd))) :
    c'.Owned := by
  constructor
  case sock_bound => rw [nsock, ndesc]; intro s; rw [sock]; exact owned.sock_bound s
  case sock_inj => rw [nsock]; intro s u; rw [sock, sock]; exact owned.sock_inj s u
  case won =>
    intro w t res fd at_
    obtain ⟨bound, silent, notWrapping, other⟩ := owned.won w t res fd (won w t res fd at_)
    rw [ndesc, nsock]
    refine ⟨bound, desc fd (.inl ⟨w, t, res, won w t res fd at_⟩) other silent,
      fun wraps => notWrapping (wrapping fd wraps), ?_⟩
    intro s; rw [sock]; exact other s
  case won_inj =>
    intro w w' t t' res res' fd at_ at_'
    exact owned.won_inj w w' t t' res res' fd (won _ _ _ _ at_) (won _ _ _ _ at_')
  case wrapped =>
    intro fd wraps
    obtain ⟨bound, silent, other⟩ := owned.wrapped fd (wrapping fd wraps)
    rw [ndesc, nsock]
    refine ⟨bound, desc fd (.inr (wrapping fd wraps)) other silent, ?_⟩
    intro s; rw [sock]; exact other s

/-- A change of what the invariant does not read. -/
theorem Owned.same (owned : c.Owned) (nsock : c'.nsock = c.nsock) (ndesc : c'.ndesc = c.ndesc)
    (sock : ∀ s, (c'.sock s).fd = (c.sock s).fd) (wrapping : c'.wrapping = c.wrapping)
    (desc : ∀ fd, (∀ s, s < c.nsock → (c.sock s).fd ≠ fd) → c'.desc fd = c.desc fd)
    (nworker : c'.nworker = c.nworker)
    (worker : ∀ w, (c'.worker w).pc = (c.worker w).pc) : c'.Owned := by
  refine owned.congr nsock ndesc sock (fun _ => by simp [wrapping]) ?_ ?_
  · intro fd _ other fresh; rw [desc fd other]; exact fresh
  · intro w t res fd; simp [At, nworker, worker]

/-- A worker moves on without winning a descriptor. -/
theorem Owned.setPc (owned : c.Owned) (w : WorkerId) (pc : Pc)
    (bare : ∀ t res fd, pc ≠ .running t (.commit res (some fd))) : (c.setPc w pc).Owned := by
  refine owned.congr rfl rfl (fun _ => rfl) (fun _ => id) (fun _ _ _ => id) ?_
  intro v t res fd at_
  rw [setPc_at] at at_
  split at at_
  · exact absurd at_.2 (bare t res fd)
  · exact at_

/-- A descriptor is in nobody's hands once its worker has given it up. -/
theorem Owned.loose_won (owned : c.Owned) {w : WorkerId} {t : TaskId} {res : Result} {fd : Fd}
    (at_ : c.At w t (.commit res (some fd))) {pc : Pc}
    (bare : ∀ t res, pc ≠ .running t (.commit res (some fd))) : (c.setPc w pc).Loose fd := by
  obtain ⟨bound, silent, notWrapping, other⟩ := owned.won w t res fd at_
  refine ⟨bound, other, ?_, notWrapping, silent⟩
  rintro v u res' newfd at_' rfl
  rw [setPc_at] at at_'
  split at at_'
  · exact bare u res' at_'.2
  · rename_i differs
    exact differs (owned.won_inj v w u t res' res fd at_' at_)

/-- A descriptor is in nobody's hands once the listener being made has given it up. -/
theorem Owned.loose_wrapped (owned : c.Owned) {fd : Fd} (wraps : c.wrapping = some fd) :
    Loose { c with wrapping := none } fd := by
  obtain ⟨bound, silent, other⟩ := owned.wrapped fd wraps
  refine ⟨bound, other, ?_, by simp, silent⟩
  rintro w t res newfd at_ rfl
  exact (owned.won w t res fd at_).2.2.1 wraps

/-- The kernel hands out a descriptor to a worker. -/
theorem Owned.win (owned : c.Owned) (w : WorkerId) (t : TaskId) (res : Result) :
    (c.newDesc.setPc w (.running t (.commit res (some c.ndesc)))).Owned := by
  have bound : ∀ fd, fd < c.ndesc → fd < c.ndesc + 1 := fun _ less => Nat.lt_succ_of_lt less
  have old : ∀ fd, fd < c.ndesc → c.newDesc.desc fd = c.desc fd := fun fd less => by
    simp [newDesc, Function.update_of_ne (Nat.ne_of_lt less)]
  have at_ : ∀ v u res' fd,
      (c.newDesc.setPc w (.running t (.commit res (some c.ndesc)))).At v u (.commit res' (some fd)) →
      (v = w ∧ fd = c.ndesc) ∨ (v ≠ w ∧ c.At v u (.commit res' (some fd))) := by
    intro v u res' fd there
    rw [setPc_at] at there
    split at there
    · rename_i same
      have := there.2
      simp only [Pc.running.injEq, Phase.commit.injEq, Option.some.injEq] at this
      exact .inl ⟨same, this.2.2.symm⟩
    · rename_i differs; exact .inr ⟨differs, there⟩
  constructor
  case sock_bound => exact fun s made => bound _ (owned.sock_bound s made)
  case sock_inj => exact owned.sock_inj
  case won =>
    intro v u res' fd there
    rcases at_ v u res' fd there with ⟨rfl, rfl⟩ | ⟨_, before⟩
    · refine ⟨Nat.lt_succ_self _, by simp [Core.setPc, modWorker, newDesc], fun wraps => ?_, ?_⟩
      · exact Nat.lt_irrefl _ (owned.wrapped _ wraps).1
      · exact fun s made => Nat.ne_of_lt (owned.sock_bound s made)
    · obtain ⟨less, silent, rest⟩ := owned.won v u res' fd before
      refine ⟨bound _ less, ?_, rest⟩
      change c.newDesc.desc fd = {}
      rw [old fd less]
      exact silent
  case won_inj =>
    intro v v' u u' res' res'' fd there there'
    rcases at_ v u res' fd there with ⟨rfl, rfl⟩ | ⟨_, before⟩ <;>
      rcases at_ v' u' res'' _ there' with ⟨rfl, isNew⟩ | ⟨_, before'⟩
    · rfl
    · exact absurd (owned.won _ _ _ _ before').1 (Nat.lt_irrefl _)
    · subst isNew; exact absurd (owned.won _ _ _ _ before).1 (Nat.lt_irrefl _)
    · exact owned.won_inj _ _ _ _ _ _ _ before before'
  case wrapped =>
    intro fd wraps
    obtain ⟨less, silent, other⟩ := owned.wrapped fd wraps
    refine ⟨bound _ less, ?_, other⟩
    change c.newDesc.desc fd = {}
    rw [old fd less]
    exact silent

/-- The kernel hands out a descriptor to a listener being made. -/
theorem Owned.wrap (owned : c.Owned) :
    Owned { c.newDesc with wrapping := some c.ndesc } := by
  have bound : ∀ fd, fd < c.ndesc → fd < c.ndesc + 1 := fun _ less => Nat.lt_succ_of_lt less
  constructor
  case sock_bound => exact fun s made => bound _ (owned.sock_bound s made)
  case sock_inj => exact owned.sock_inj
  case won =>
    intro w t res fd at_
    obtain ⟨less, silent, _, other⟩ := owned.won w t res fd at_
    refine ⟨bound _ less, ?_, ?_, other⟩
    · simp [newDesc, Function.update_of_ne (Nat.ne_of_lt less), silent]
    · simpa using (Nat.ne_of_lt less).symm
  case won_inj => exact owned.won_inj
  case wrapped =>
    rintro fd wraps
    obtain rfl := Option.some.inj wraps
    exact ⟨Nat.lt_succ_self _, by simp [newDesc], fun s made => Nat.ne_of_lt (owned.sock_bound s made)⟩

/-- A descriptor in nobody's hands becomes a socket. -/
theorem Owned.sockLink (owned : c.Owned) {fd : Fd} (loose : c.Loose fd) : (c.sockLink fd).Owned := by
  have sock : ∀ s, s < c.nsock + 1 → ((c.sockLink fd).sock s).fd = fd ∧ s = c.nsock ∨
      ((c.sockLink fd).sock s).fd = (c.sock s).fd ∧ s < c.nsock := by
    intro s made
    by_cases new : s = c.nsock
    · subst new; exact .inl ⟨by simp [Core.sockLink], rfl⟩
    · refine .inr ⟨by simp [Core.sockLink, Function.update_of_ne new], ?_⟩
      exact Nat.lt_of_le_of_ne (Nat.le_of_lt_succ made) new
  constructor
  case sock_bound =>
    intro s made
    rcases sock s made with ⟨same, _⟩ | ⟨same, before⟩
    · rw [same]; exact loose.bound
    · rw [same]; exact owned.sock_bound s before
  case sock_inj =>
    intro s u madeS madeU same
    rcases sock s madeS with ⟨fdS, rfl⟩ | ⟨fdS, beforeS⟩ <;>
      rcases sock u madeU with ⟨fdU, rfl⟩ | ⟨fdU, beforeU⟩
    · rfl
    · exact absurd (fdU.symm.trans (same.symm.trans fdS)) (loose.sock u beforeU)
    · exact absurd (fdS.symm.trans (same.trans fdU)) (loose.sock s beforeS)
    · exact owned.sock_inj s u beforeS beforeU (fdS.symm.trans (same.trans fdU))
  case won =>
    intro w t res newfd at_
    obtain ⟨less, silent, notWrapping, other⟩ := owned.won w t res newfd at_
    refine ⟨less, silent, notWrapping, fun s made same => ?_⟩
    rcases sock s made with ⟨isFd, _⟩ | ⟨isFd, before⟩
    · exact loose.worker w t res _ at_ (by rw [← same, isFd])
    · exact other s before (isFd.symm.trans same)
  case won_inj => exact owned.won_inj
  case wrapped =>
    intro newfd wraps
    obtain ⟨less, silent, other⟩ := owned.wrapped newfd wraps
    refine ⟨less, silent, fun s made same => ?_⟩
    rcases sock s made with ⟨isFd, _⟩ | ⟨isFd, before⟩
    · exact loose.wrapping (wraps.trans (by rw [← same, isFd]))
    · exact other s before (isFd.symm.trans same)

/-- Every move keeps every descriptor in one pair of hands. -/
theorem Owned.move (move : Move o ⟨c, x, h⟩ ⟨c', x', h'⟩) (owned : c.Owned)
    (sends : ∀ w t off, c.At w t (.sending off) →
      ∃ s, s < c.nsock ∧ (c.task t).fd = some (c.sock s).fd)
    (bound : ∀ s, s ∈ c.socks → s < c.nsock)
    (leaving : ∀ w t fd, c.At w t (.closeFd fd) → ∃ s, s < c.nsock ∧ (c.sock s).fd = fd) :
    c'.Owned := by
  cases move with
  | stir stirred =>
    have pcs := stirred.pcs
    rw [stirred.rest] at pcs ⊢
    exact owned.congr rfl rfl (fun _ => rfl) (fun _ => id) (fun _ _ _ => id)
      fun w t res fd => (pcs w t _).mp
  | exit pending unstarted =>
    rw [leaveSock_rest, queueRemove_rest]
    exact owned.same rfl rfl (fun s => by rw [leaveSock_sock]) rfl (fun _ _ => rfl) rfl fun _ => rfl
  | exitRun at_ pending =>
    rw [leaveSock_rest]
    exact (owned.setPc _ .ready (by simp)).same rfl rfl (fun s => by rw [leaveSock_sock])
      rfl (fun _ _ => rfl) rfl fun _ => rfl
  | fail live bare usable wq =>
    rw [failHead_eq]
    refine owned.same rfl rfl (fun s => ?_) rfl (fun _ _ => rfl) rfl fun _ => rfl
    simp only [modTask, modSock, Function.update_apply]; grind
  | createClose live open_ mine =>
    refine owned.same rfl rfl (fun s => ?_) rfl (fun _ _ => rfl) rfl fun _ => rfl
    simp only [taskNew, modSock, Function.update_apply]; grind
  | enqueue submitted open_ unstarted out kind live onSock =>
    split
    · refine owned.same rfl rfl (fun s => ?_) rfl (fun _ _ => rfl) rfl fun _ => rfl
      simp only [queuePush, inflightInc, modSock, Function.update_apply]; grind
    · exact owned.same rfl rfl (fun _ => rfl) rfl (fun _ _ => rfl) rfl fun _ => rfl
  | park submitted open_ unstarted out kind sock live usable =>
    refine owned.same rfl rfl (fun s => ?_) rfl (fun _ _ => rfl) rfl fun _ => rfl
    simp only [inflightInc, modSock, Function.update_apply]; grind
  | take queue inside free =>
    rename_i w t rest
    exact (owned.setPc w (.running t .entry) (by simp)).same rfl rfl (fun _ => rfl) rfl
      (fun _ _ => rfl) rfl fun _ => rfl
  | phase at_ plain plain' kept =>
    refine owned.setPc _ _ ?_
    rintro t res fd same
    simp only [Pc.running.injEq] at same
    simp [same.2, Phase.plain] at plain'
  | kicks =>
    refine owned.same rfl rfl (fun _ => rfl) rfl (fun _ _ => rfl) rfl fun v => ?_
    simp only [modWorker, Function.update_apply]; grind
  | win at_ plain kept => exact owned.win _ _ _
  | send at_ fits =>
    rename_i w t off n
    obtain ⟨s, made, fd⟩ := sends w t off at_
    refine (owned.setPc w (.running t (.sending (off + n))) (by simp)).congr rfl rfl
      (fun _ => rfl) (fun _ => id) (fun u _ other fresh => ?_) fun _ _ _ _ => id
    have differs : u ≠ (c.sock s).fd := fun same => other s made same.symm
    simp only [Pool.sendBytes, Core.setPc, modWorker, modTask, modDesc, fd, Option.getD_some,
      Function.update_of_ne differs]
    exact fresh
  | link loose => exact owned.sockLink loose
  | close loose =>
    rename_i fd
    -- Whoever holds a descriptor holds another one.
    refine owned.congr rfl rfl (fun _ => rfl) (fun _ => id) (fun u taken _ fresh => ?_)
      fun _ _ _ _ => id
    have other : u ≠ fd := by
      rintro rfl
      rcases taken with ⟨w, t, res, at_⟩ | wraps
      · exact loose.worker w t res _ at_ rfl
      · exact loose.wrapping wraps
    simp [closeDesc, modDesc, other, fresh]
  | discard unused =>
    rename_i s
    refine owned.same rfl rfl (fun u => ?_) rfl (fun u other => ?_) rfl fun _ => rfl
    · simp only [sockDiscard, sockFree, modSock, closeDesc, modDesc, sockUnlink,
        Function.update_apply]
      grind
    · have differs : u ≠ (c.sock s).fd := (other s (bound s unused.live)).symm
      simp [sockDiscard, sockFree, modSock, closeDesc, modDesc, sockUnlink, differs]
  | unlink at_ sock unused =>
    rename_i w t s
    exact (owned.setPc w (.running t (.release (c.sock s).fd)) (by simp)).same rfl rfl
      (fun _ => rfl) rfl (fun _ _ => rfl) rfl fun _ => rfl
  | freeSock at_ sock =>
    rename_i w t s fd
    refine (owned.setPc w (.running t (.closeFd fd)) (by simp)).same rfl rfl (fun u => ?_) rfl
      (fun _ _ => rfl) rfl fun _ => rfl
    simp only [Core.setPc, modWorker, sockFree, modSock, Function.update_apply]; grind
  | closeFd at_ =>
    rename_i w t fd
    obtain ⟨s, made, isFd⟩ := leaving w t fd at_
    refine (owned.setPc w (.running t .commitClose) (by simp)).same rfl rfl (fun _ => rfl) rfl
      (fun u other => ?_) rfl fun _ => rfl
    have differs : u ≠ fd := by rw [← isFd]; exact (other s made).symm
    simp [Core.setPc, modWorker, closeDesc, modDesc, differs]
  | wrap free => exact owned.wrap
  | unwrap => exact owned.congr rfl rfl (fun _ => rfl) (by simp) (fun _ _ _ => id) fun _ _ _ _ => id
  | sweep idle =>
    rw [closeSocks_rest]
    exact owned.same rfl rfl (closeSocks_fd _ _) rfl
      (fun fd other => closeSocks_desc _ fun s live => other s (bound s live)) rfl fun _ => rfl
  | _ => exact owned.same rfl rfl (fun _ => rfl) rfl (fun _ _ => rfl) rfl fun _ => rfl

end Myio.Core
