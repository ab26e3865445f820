import Myio.Lib.Stream
import Myio.Loop.Built

/-! What was sent on a socket, and by which writes. -/

namespace Myio.Loop.Core

open Function (update)
open Machine

/-- The part of its buffer a task has sent on a socket. -/
def sentOn (c : Core) (s : SockId) (t : TaskId) : List UInt8 :=
  if (c.task t).kind = .taskSockWrite ∧ (c.task t).on = some s
  then (c.task t).buf.take (c.task t).off else []

/-- What the writes on a socket have sent, in the order they were submitted. -/
def transcript (c : Core) (s : SockId) : List UInt8 := stream (c.sentOn s) c.ntask

/-- Every socket's bytes are those of its writes, in order, and writes take turns. -/
structure Wired (c : Core) (x : TaskId → Bool) : Prop where
  claimed : ∀ t s, t < c.ntask → c.WriteOn s t → c.claimed s = true
  fd : ∀ t s, t < c.ntask → c.WriteOn s t → (c.task t).fd = (c.sock s).fd
  fits : ∀ t, t < c.ntask → (c.task t).off ≤ (c.task t).buf.length
  turn : ∀ t u s, t < u → u < c.ntask → c.WriteOn s t → c.WriteOn s u → c.Pending x t →
    (c.task u).off = 0
  wire : ∀ s fd, s < c.nsock → (c.sock s).fd = some fd → (c.desc fd).wire = c.transcript s
  whole : ∀ t, t < c.ntask → (c.task t).kind = .taskSockWrite → (c.task t).done = true →
    (c.task t).res.status = .ok →
    (c.task t).off = (c.task t).buf.length ∧ (c.task t).res.value = (c.task t).buf.length
  ordered : ∀ t u s, t < u → u < c.ntask → c.WriteOn s t → c.WriteOn s u →
    (c.task u).done = true → (c.task u).res.status = .ok → ¬ c.Pending x t

variable {r : Rules} {c c' : Core} {x x' : TaskId → Bool}
  {h h' : SockId → Bool}

/-- A task's arguments and progress as a write are as they were. -/
def SameWrite (k k' : Task) : Prop :=
  k'.kind = k.kind ∧ k'.on = k.on ∧ k'.buf = k.buf ∧ k'.off = k.off ∧ k'.fd = k.fd

/-- What has been sent is the same when the tasks' arguments and progress are. -/
theorem transcript_congr (ntask : c'.ntask = c.ntask) (s : SockId)
    (task : ∀ t, t < c.ntask → SameWrite (c.task t) (c'.task t)) :
    c'.transcript s = c.transcript s := by
  unfold transcript
  rw [ntask]
  refine stream_congr fun t inside => ?_
  obtain ⟨kind, on, buf, off, _⟩ := task t inside
  simp only [sentOn, kind, on, buf, off]

/-- Nothing is sent, no write but the last is put on a FIFO, and none succeeds. -/
theorem Wired.congr (wired : c.Wired x) (ntask : c'.ntask = c.ntask) (nsock : c'.nsock = c.nsock)
    (task : ∀ t, t < c.ntask → SameWrite (c.task t) (c'.task t))
    (ended : ∀ t, t < c.ntask → (c.task t).kind = .taskSockWrite → (c'.task t).done = true →
      (c'.task t).res.status = .ok → ((c.task t).done = true ∧ (c'.task t).res = (c.task t).res) ∨
        ((c.task t).off = (c.task t).buf.length ∧ (c'.task t).res.value = (c.task t).buf.length ∧
          ∀ s u, c.WriteOn s t → c.WriteOn s u → u < t → ¬ c.Pending x u))
    (pending : ∀ t s, t + 1 < c.ntask → c.WriteOn s t → c'.Pending x' t → c.Pending x t)
    (claimed : ∀ s, c.claimed s = true → c'.claimed s = true)
    (sock : ∀ s, s < c.nsock → (c'.sock s).fd = (c.sock s).fd)
    (wire : ∀ s fd, s < c.nsock → (c.sock s).fd = some fd →
      (c'.desc fd).wire = (c.desc fd).wire) (built : c.Built) : c'.Wired x' := by
  have written : ∀ t s, t < c.ntask → (c'.WriteOn s t ↔ c.WriteOn s t) := by
    intro t s inside
    obtain ⟨kind, on, _⟩ := task t inside
    simp only [WriteOn, kind, on]
  constructor
  case claimed =>
    rw [ntask]
    intro t s inside isWrite
    exact claimed s (wired.claimed t s inside ((written t s inside).mp isWrite))
  case fd =>
    rw [ntask]
    intro t s inside isWrite
    have before := (written t s inside).mp isWrite
    have made := built.claimed s (wired.claimed t s inside before)
    obtain ⟨_, _, _, _, fd⟩ := task t inside
    rw [fd, sock s made]
    exact wired.fd t s inside before
  case fits =>
    rw [ntask]
    intro t inside
    obtain ⟨_, _, buf, off, _⟩ := task t inside
    rw [buf, off]
    exact wired.fits t inside
  case turn =>
    rw [ntask]
    intro t u s less inside writeT writeU isPending
    have insideT := Nat.lt_trans less inside
    rw [written t s insideT] at writeT
    rw [written u s inside] at writeU
    obtain ⟨_, _, _, off, _⟩ := task u inside
    rw [off]
    exact wired.turn t u s less inside writeT writeU
      (pending t s (Nat.lt_of_le_of_lt less inside) writeT isPending)
  case wire =>
    rw [nsock]
    intro s fd made isFd
    rw [sock s made] at isFd
    rw [wire s fd made isFd, wired.wire s fd made isFd]
    exact (transcript_congr ntask s task).symm
  case whole =>
    rw [ntask]
    intro t inside isWrite done okay
    obtain ⟨kind, _, buf, off, _⟩ := task t inside
    rw [kind] at isWrite
    rw [buf, off]
    rcases ended t inside isWrite done okay with ⟨before, res⟩ | ⟨sent, value, _⟩
    · rw [res] at okay ⊢
      exact wired.whole t inside isWrite before okay
    · exact ⟨sent, value⟩
  case ordered =>
    rw [ntask]
    intro t u s less inside writeT writeU done okay isPending
    have insideT := Nat.lt_trans less inside
    rw [written t s insideT] at writeT
    rw [written u s inside] at writeU
    have before := pending t s (Nat.lt_of_le_of_lt less inside) writeT isPending
    rcases ended u inside writeU.1 done okay with ⟨doneU, res⟩ | ⟨_, _, first⟩
    · rw [res] at okay
      exact wired.ordered t u s less inside writeT writeU doneU okay before
    · exact first s t writeU writeT less before

/-- A change of what the transcripts do not depend on. -/
theorem Wired.same (wired : c.Wired x) (built : c.Built) (ntask : c'.ntask = c.ntask)
    (nsock : c'.nsock = c.nsock) (task : c'.task = c.task) (claimed : c'.claimed = c.claimed)
    (sock : ∀ s, (c'.sock s).fd = (c.sock s).fd)
    (wire : ∀ s fd, s < c.nsock → (c.sock s).fd = some fd →
      (c'.desc fd).wire = (c.desc fd).wire)
    (pending : ∀ t s, t + 1 < c.ntask → c.WriteOn s t → c'.Pending x' t → c.Pending x t) :
    c'.Wired x' := by
  refine wired.congr ntask nsock (fun t _ => ?_) (fun t _ _ done _ => ?_) pending
    (fun s => by rw [claimed]; exact id) (fun s _ => sock s) wire built
  · rw [task]; exact ⟨rfl, rfl, rfl, rfl, rfl⟩
  · rw [task] at done ⊢; exact .inl ⟨done, rfl⟩

/-- A change inside one task's record that leaves its progress and its end alone. -/
theorem Wired.modTask (wired : c.Wired x) (built : c.Built) (t : TaskId) (f : Task → Task)
    (write : SameWrite (c.task t) (f (c.task t))) (done : (f (c.task t)).done = (c.task t).done)
    (res : (f (c.task t)).res = (c.task t).res) : (c.modTask t f).Wired x := by
  have fields : ∀ u, (c.modTask t f).task u = if u = t then f (c.task t) else c.task u := by
    intro u; simp only [Core.modTask, Function.update_apply]
  refine wired.congr rfl rfl (fun u _ => ?_) (fun u _ _ ended _ => ?_) (fun u _ _ _ there => ?_)
    (fun _ => id) (fun _ _ => rfl) (fun _ _ _ _ => rfl) built
  · rw [fields]
    split
    · rename_i same; subst same; exact write
    · exact ⟨rfl, rfl, rfl, rfl, rfl⟩
  · rw [fields] at ended ⊢; grind
  · refine ⟨there.1, ?_, there.2.2⟩
    have isOpen := there.2.1
    rw [fields] at isOpen
    grind

/-- A new task has sent nothing, and comes after all others. -/
theorem Wired.taskNew (wired : c.Wired x) {k : Task} (fresh : c.Fresh k) :
    (c.taskNew k).Wired (update x c.ntask true) := by
  have old : ∀ u, u < c.ntask → (c.taskNew k).task u = c.task u := by
    intro u inside; simp [Core.taskNew, Function.update_of_ne (Nat.ne_of_lt inside)]
  have new : (c.taskNew k).task c.ntask = k := by simp [Core.taskNew]
  have split : ∀ u, u < c.ntask + 1 → u = c.ntask ∨ u < c.ntask := fun u inside => by omega
  have written : ∀ u s, u < c.ntask → ((c.taskNew k).WriteOn s u ↔ c.WriteOn s u) := by
    intro u s inside; simp only [WriteOn, old u inside]
  have mine : ∀ s, (c.taskNew k).WriteOn s c.ntask →
      c.claimed s = true ∧ k.fd = (c.sock s).fd := by
    intro s isWrite
    unfold WriteOn at isWrite
    rw [new] at isWrite
    obtain ⟨u, sock, on, fd⟩ := fresh.write isWrite.1
    obtain rfl : u = s := Option.some.inj (on.symm.trans isWrite.2)
    exact ⟨(fresh.sock u sock).2, fd⟩
  have before : ∀ t, t < c.ntask → (c.taskNew k).Pending (update x c.ntask true) t →
      c.Pending x t := by
    intro t inside there
    have other := Nat.ne_of_lt inside
    simpa [Pending, Core.taskNew, other, inside] using there.2
  constructor
  case claimed =>
    intro u s inside isWrite
    rcases split u inside with rfl | less
    · exact (mine s isWrite).1
    · exact wired.claimed u s less ((written u s less).mp isWrite)
  case fd =>
    intro u s inside isWrite
    rcases split u inside with rfl | less
    · rw [new]; exact (mine s isWrite).2
    · rw [old u less]; exact wired.fd u s less ((written u s less).mp isWrite)
  case fits =>
    intro u inside
    rcases split u inside with rfl | less
    · rw [new, fresh.off]; exact Nat.zero_le _
    · rw [old u less]; exact wired.fits u less
  case turn =>
    intro t u s less inside writeT writeU isPending
    rcases split u inside with rfl | lessU
    · rw [new]; exact fresh.off
    · have lessT := Nat.lt_trans less lessU
      rw [old u lessU]
      exact wired.turn t u s less lessU ((written t s lessT).mp writeT)
        ((written u s lessU).mp writeU) (before t lessT isPending)
  case wire =>
    intro s fd made isFd
    have last : (c.taskNew k).sentOn s c.ntask = [] := by simp [sentOn, new, fresh.off]
    refine (wired.wire s fd made isFd).trans ?_
    unfold transcript
    change _ = stream _ (c.ntask + 1)
    rw [stream_succ, last, List.append_nil]
    refine (stream_congr fun t inside => ?_).symm
    simp only [sentOn, old t inside]
  case whole =>
    intro u inside isWrite done
    rcases split u inside with rfl | less
    · rw [new, fresh.done] at done; cases done
    · rw [old u less] at *; exact wired.whole u less isWrite done
  case ordered =>
    intro t u s less inside writeT writeU done okay isPending
    rcases split u inside with rfl | lessU
    · rw [new, fresh.done] at done; cases done
    · have lessT := Nat.lt_trans less lessU
      rw [old u lessU] at done okay
      exact wired.ordered t u s less lessU ((written t s lessT).mp writeT)
        ((written u s lessU).mp writeU) done okay (before t lessT isPending)

/-- A socket nobody has been given has sent nothing. -/
theorem Wired.silent (wired : c.Wired x) {s : SockId} (mine : c.claimed s = false) :
    c.transcript s = [] := by
  refine stream_nil fun t inside => ?_
  have elsewhere : ¬ c.WriteOn s t := fun isWrite => by
    have := wired.claimed t s inside isWrite
    simp [mine] at this
  exact if_neg elsewhere

/-- A socket nobody has been given gets a silent descriptor, be it new or made in advance. -/
theorem Wired.setFd (wired : c.Wired x) {s : SockId} (mine : c.claimed s = false)
    (ntask : c'.ntask = c.ntask) (task : c'.task = c.task) (claimed : c'.claimed = c.claimed)
    (desc : c'.desc = c.desc) (others : ∀ u, u ≠ s → c'.sock u = c.sock u)
    (nsock : ∀ u, u < c'.nsock → u ≠ s → u < c.nsock)
    (fd : ∀ d, (c'.sock s).fd = some d → c.desc d = {}) : c'.Wired x := by
  have written : ∀ u v, c'.WriteOn u v ↔ c.WriteOn u v := by
    intro u v; simp only [WriteOn, task]
  have pending : ∀ t, c'.Pending x t ↔ c.Pending x t := by
    intro t; simp only [Pending, ntask, task]
  have same : ∀ u, c'.transcript u = c.transcript u := fun u =>
    transcript_congr ntask u fun t _ => by rw [task]; exact ⟨rfl, rfl, rfl, rfl, rfl⟩
  constructor
  case claimed =>
    rw [ntask, claimed]
    intro t u inside isWrite
    exact wired.claimed t u inside ((written u t).mp isWrite)
  case fd =>
    rw [ntask]
    intro t u inside isWrite
    have before := (written u t).mp isWrite
    have other : u ≠ s := by
      rintro rfl
      have := wired.claimed t u inside before
      simp [mine] at this
    rw [task, others u other]
    exact wired.fd t u inside before
  case fits => rw [ntask, task]; exact wired.fits
  case turn =>
    rw [ntask]
    intro t u v less inside writeT writeU there
    rw [task]
    exact wired.turn t u v less inside ((written v t).mp writeT) ((written v u).mp writeU)
      ((pending t).mp there)
  case wire =>
    intro u d made isFd
    rw [desc, same]
    by_cases other : u = s
    · subst other
      rw [fd d isFd, wired.silent mine]
    · rw [others u other] at isFd
      exact wired.wire u d (nsock u made other) isFd
  case whole => rw [ntask, task]; exact wired.whole
  case ordered =>
    rw [ntask]
    intro t u v less inside writeT writeU done okay there
    rw [task] at done okay
    exact wired.ordered t u v less inside ((written v t).mp writeT) ((written v u).mp writeU)
      done okay ((pending t).mp there)

/-- The first write of a socket sends, and its bytes come after all that were sent before. -/
theorem Wired.send (wired : c.Wired x) (linked : c.Linked) (built : c.Built) {t : TaskId}
    {s : SockId} {n : Nat} (pending : c.Pending x t) (on : c.WriteOn s t)
    (fits : (c.task t).off + n ≤ (c.task t).buf.length)
    (first : ∀ u, u < t → c.WriteOn s u → ¬ c.Pending x u) : (c.sendBytes t n).Wired x := by
  have made := built.claimed s (wired.claimed t s pending.1 on)
  have isFd := wired.fd t s pending.1 on
  have fields : ∀ u, (c.sendBytes t n).task u =
      if u = t then { c.task t with off := (c.task t).off + n } else c.task u := by
    intro u; simp only [sendBytes, Function.update_apply]
  have desc : ∀ d, (c.sendBytes t n).desc d = if (c.task t).fd = some d then { c.desc d with
      wire := (c.desc d).wire ++ ((c.task t).buf.drop (c.task t).off).take n } else c.desc d := by
    intro d; exact wireAppend_apply _ _ _ _
  have rest : (c.sendBytes t n).ntask = c.ntask ∧ (c.sendBytes t n).sock = c.sock ∧
      (c.sendBytes t n).nsock = c.nsock ∧ (c.sendBytes t n).claimed = c.claimed := by
    exact ⟨rfl, rfl, rfl, rfl⟩
  obtain ⟨ntask, sock, nsock, claimed⟩ := rest
  have written : ∀ u v, (c.sendBytes t n).WriteOn v u ↔ c.WriteOn v u := by
    intro u v; simp only [WriteOn, fields]; grind
  have pends : ∀ u, (c.sendBytes t n).Pending x u ↔ c.Pending x u := by
    intro u; simp only [Pending, fields, ntask]; grind
  constructor
  case claimed =>
    rw [ntask, claimed]
    intro u v inside isWrite
    exact wired.claimed u v inside ((written u v).mp isWrite)
  case fd =>
    rw [ntask, sock]
    intro u v inside isWrite
    have := wired.fd u v inside ((written u v).mp isWrite)
    rw [fields]
    grind
  case fits => rw [ntask]; intro u inside; have := wired.fits u inside; rw [fields]; grind
  case turn =>
    rw [ntask]
    intro u v s' less inside writeU writeV there
    rw [written] at writeU writeV
    rw [pends] at there
    have before := wired.turn u v s' less inside writeU writeV there
    rw [fields]
    split
    · -- Only the first write sends, so nothing before it is pending.
      rename_i isT
      subst isT
      obtain rfl : s = s' := Option.some.inj (on.2.symm.trans writeV.2)
      exact absurd there (first u less writeU)
    · exact before
  case wire =>
    rw [nsock, sock]
    intro u d madeU isFdU
    unfold transcript
    rw [desc, ntask]
    split
    · rename_i same
      obtain rfl : u = s := linked.fd_inj u s d madeU made isFdU (isFd.symm.trans same)
      rw [wired.wire u d madeU isFdU]
      refine (stream_grow (k := t) pending.1 (fun v _ other => ?_) (fun v less inside => ?_) ?_).symm
      · simp only [sentOn, fields, other, if_false]
      · -- A later write waits for this one, and so has sent nothing.
        unfold sentOn
        split
        · rename_i writeV
          simp [wired.turn t v u less inside on writeV pending]
        · rfl
      · obtain ⟨kind, isOn⟩ := on
        simp only [sentOn, fields, if_true, kind, isOn, and_self]
        exact List.take_add
    · rename_i differs
      rw [wired.wire u d madeU isFdU]
      refine (stream_congr fun v _ => ?_).symm
      have elsewhere : u ≠ s := by rintro rfl; exact differs (isFd.trans isFdU)
      have := on.2
      simp only [sentOn, fields]
      grind
  case whole =>
    rw [ntask]
    intro u inside
    rw [fields]
    have := wired.whole u inside
    have := pending.2.1
    grind
  case ordered =>
    rw [ntask]
    intro u v s' less inside writeU writeV done okay there
    rw [written] at writeU writeV
    rw [pends] at there
    rw [fields] at done okay
    have := wired.ordered u v s' less inside writeU writeV
    have := pending.2.1
    grind

/-- Every move keeps the sockets' transcripts right. -/
theorem Wired.move (move : Move r ⟨c, x, h⟩ ⟨c', x', h'⟩) (bounds : r.bounded) (wired : c.Wired x)
    (linked : c.Linked) (built : c.Built) : c'.Wired x' := by
  cases move with
  | make fresh allowed => exact wired.taskNew fresh
  | aim => exact wired.modTask built _ _ ⟨rfl, rfl, rfl, rfl, rfl⟩ rfl rfl
  | build => exact wired.modTask built _ _ ⟨rfl, rfl, rfl, rfl, rfl⟩ rfl rfl
  | buildNew => exact wired.modTask built _ _ ⟨rfl, rfl, rfl, rfl, rfl⟩ rfl rfl
  | drop => exact wired.modTask built _ _ ⟨rfl, rfl, rfl, rfl, rfl⟩ rfl rfl
  | note notes same =>
    refine wired.modTask built _ _ ⟨?_, ?_, ?_, ?_, ?_⟩ ?_ ?_ <;> rw [same]
  | enter submitted isOpen out kind fits live read accept =>
    rename_i t
    have slot := setSlot_other (c.arm t) t
    rw [setSlot_rest]
    refine wired.same built rfl rfl rfl rfl (fun s => (slot s).2.1) (fun _ _ _ _ => rfl) ?_
    intro u s _ isWrite there
    have other : u ≠ t := fun same => kind (same ▸ isWrite.1)
    exact ⟨there.1, there.2.1, by simpa [other] using there.2.2⟩
  | park submitted isOpen out kind sock newsock fits live =>
    rename_i t s
    refine wired.same built rfl rfl rfl rfl (fun u => ?_) (fun _ _ _ _ => rfl) ?_
    · simp only [modSock, Function.update_apply]; grind
    · -- Nothing has been submitted after the new write yet.
      intro u v less _ there
      have other : u ≠ t := by rintro rfl; exact Nat.ne_of_lt less submitted
      exact ⟨there.1, there.2.1, by simpa [other] using there.2.2⟩
  | exit pending =>
    rename_i t
    have left := leaveSock_other (c.disarm t) t
    rw [leaveSock_rest]
    refine wired.same built rfl rfl rfl rfl (fun s => (left s).1) (fun _ _ _ _ => rfl) ?_
    intro u _ _ _ there
    simp only [Pending, Function.update_apply, Core.disarm] at there ⊢
    grind
  | sever armed kind fits =>
    rename_i t
    have left := leaveSock_other c t
    rw [leaveSock_rest]
    exact (wired.modTask built t ({ · with sock := none }) ⟨rfl, rfl, rfl, rfl, rfl⟩ rfl rfl).same
      (built.modTask t ({ · with sock := none }) rfl rfl rfl (.inl rfl) (.inr rfl))
      rfl rfl rfl rfl (fun s => (left s).1) (fun _ _ _ _ => rfl) fun _ _ _ _ => id
  | settle submitted isOpen out settles allowed =>
    rename_i t res
    have fields : ∀ u, (c.settle t res).task u =
        if u = t then settled res (c.task t) else c.task u := by
      intro u; simp only [Core.settle, Core.modTask, Function.update_apply]
    refine wired.congr rfl rfl (fun u _ => ?_) (fun u inside isWrite done okay => ?_) ?_
      (fun _ => id) (fun _ _ => rfl) (fun _ _ _ _ => rfl) built
    · rw [fields]
      split
      · rename_i same; subst same; exact ⟨rfl, rfl, rfl, rfl, rfl⟩
      · exact ⟨rfl, rfl, rfl, rfl, rfl⟩
    · rw [fields] at done okay ⊢
      split at okay
      · rename_i same
        subst same
        simp only [if_true]
        exact .inr (settles.write bounds isWrite okay)
      · rename_i other
        rw [if_neg other] at done ⊢
        exact .inl ⟨done, rfl⟩
    · intro u _ _ _ there
      have isOpen' := there.2.1
      rw [fields] at isOpen'
      have other : u ≠ t := by rintro rfl; simp [settled] at isOpen'
      have notOut := there.2.2
      rw [Function.update_of_ne other] at notOut
      exact ⟨there.1, by simpa [other] using isOpen', notOut⟩
  | send pending on fits first => exact wired.send linked built pending on (fits bounds) first
  | newDesc =>
    refine wired.same built rfl rfl rfl rfl (fun _ => rfl) (fun s fd made isFd => ?_)
      fun _ _ _ _ => id
    have other := Nat.ne_of_lt (linked.fd_bound s fd made isFd)
    simp [Core.newDesc, other]
  | closeDesc loose =>
    refine wired.same built rfl rfl rfl rfl (fun _ => rfl) (fun s fd made isFd => ?_)
      fun _ _ _ _ => id
    simp only [Core.closeDesc, modDesc, Function.update_apply]
    grind
  | sockNew loose early =>
    have mine : c.claimed c.nsock = false := by
      cases given : c.claimed c.nsock with
      | false => rfl
      | true => exact absurd (built.claimed _ given) (Nat.lt_irrefl _)
    refine wired.setFd mine rfl rfl rfl rfl (fun u other => ?_) (fun u made other => ?_)
      fun d isFd => ?_
    · simp [Core.sockNew, other]
    · exact Nat.lt_of_le_of_ne (Nat.le_of_lt_succ made) other
    · simp only [Core.sockNew, Function.update_self] at isFd
      exact (loose d isFd).fresh
  | setFd live mine without loose =>
    refine wired.setFd mine rfl rfl rfl rfl (fun u other => ?_) (fun _ made _ => made)
      fun d isFd => ?_
    · simp [modSock, other]
    · simp only [modSock, Function.update_self, Option.some.injEq] at isFd
      subst isFd
      exact loose.fresh
  | release unused =>
    unfold Core.sockRelease
    refine wired.same built rfl rfl rfl rfl (fun u => ?_) (fun s fd _ _ => ?_) fun _ _ _ _ => id
    · simp only [Function.update_apply]; grind
    · change (closeFd _ _ fd).wire = _
      rw [closeFd_apply]
      split <;> rfl
  | detach isOpen held gives =>
    rename_i t
    exact (wired.modTask built t ({ · with detached := true }) ⟨rfl, rfl, rfl, rfl, rfl⟩ rfl rfl).same
      (built.modTask t ({ · with detached := true }) rfl rfl rfl (.inr rfl) (.inr rfl))
      rfl rfl rfl rfl (fun _ => rfl) (fun _ _ _ _ => rfl) fun _ _ _ _ => id
  | free done held gives =>
    rename_i t
    exact (wired.modTask built t (fun k => { k with frees := k.frees + 1 })
      ⟨rfl, rfl, rfl, rfl, rfl⟩ rfl rfl).same
      (built.modTask t (fun k => { k with frees := k.frees + 1 }) rfl rfl rfl (.inr rfl) (.inr rfl))
      rfl rfl rfl rfl (fun _ => rfl) (fun _ _ _ _ => rfl) fun _ _ _ _ => id
  | claim made won =>
    refine wired.congr rfl rfl (fun _ _ => ⟨rfl, rfl, rfl, rfl, rfl⟩)
      (fun _ _ _ done _ => .inl ⟨done, rfl⟩) (fun _ _ _ _ => id) (fun u mine => ?_)
      (fun _ _ => rfl) (fun _ _ _ _ => rfl) built
    simp only [Function.update_apply]
    split
    · rfl
    · exact mine
  | _ =>
    exact wired.same built rfl rfl rfl rfl (fun _ => rfl) (fun _ _ _ _ => rfl) fun _ _ _ _ => id

end Myio.Loop.Core
