import Mathlib.Data.List.Basic

/-! An open file with one position, and transfers at an offset of their own in between. -/

namespace Machine

/-- One transfer, as an open file saw it. -/
structure Transfer where
  /-- The offset it was asked for, unless it is for the current position. -/
  offset : Option Int
  /-- Where the file stood when it began. -/
  pos : Int
  n : Int
  /-- Where it left the file. -/
  left : Int
  deriving DecidableEq, Repr

/-- An open file: its position, and its transfers so far, newest first. -/
structure OpenFile where
  pos : Int := 0
  moved : List Transfer := []
  deriving DecidableEq, Repr

namespace OpenFile

variable {f : OpenFile} {offset n left : Int}

/-- Move the position. -/
def seek (f : OpenFile) (pos : Int) : OpenFile := { f with pos }

/-- Transfer where the file stands, with any outcome. -/
def transfer (f : OpenFile) (offset : Option Int) (n left : Int) : OpenFile :=
  { pos := left, moved := { offset, pos := f.pos, n, left } :: f.moved }

/-- The transfers at the current position. -/
def currents (f : OpenFile) : List Transfer := f.moved.filter (·.offset.isNone)

/-- A file on which these transfers alone have run, with the outcomes they had. -/
def replay : List Transfer → OpenFile
  | [] => {}
  | last :: older => (replay older).transfer none last.n last.left

/-- The file as it would be had only its current-position transfers run. -/
def alone (f : OpenFile) : OpenFile := replay f.currents

/-- Every transfer has run where it should have, the others notwithstanding. -/
structure Undisturbed (f : OpenFile) : Prop where
  /-- One with an offset ran at its offset. -/
  own : ∀ m ∈ f.moved, ∀ offset, m.offset = some offset → m.pos = offset
  /-- One at the current position saw the position it would have seen without those. -/
  seen : f.currents = f.alone.moved

/-- The file also stands where it would stand without them. -/
structure Settled (f : OpenFile) : Prop extends Undisturbed f where
  stands : f.pos = f.alone.pos

theorem Settled.new : Settled {} := ⟨⟨by simp, rfl⟩, rfl⟩

@[simp] theorem seek_moved (pos : Int) : (f.seek pos).moved = f.moved := rfl

@[simp] theorem seek_alone (pos : Int) : (f.seek pos).alone = f.alone := rfl

/-- Moving the position back and forth is no transfer. -/
theorem Undisturbed.seek (undisturbed : Undisturbed f) (pos : Int) : Undisturbed (f.seek pos) :=
  ⟨undisturbed.own, undisturbed.seen⟩

@[simp] theorem transfer_offset_alone : (f.transfer (some offset) n left).alone = f.alone := by
  simp [alone, currents, transfer]

@[simp] theorem transfer_current_alone :
    (f.transfer none n left).alone = f.alone.transfer none n left := by
  simp [alone, currents, transfer, replay]

/-- A transfer with an offset, from that offset. -/
theorem Undisturbed.positional (undisturbed : Undisturbed f) (there : f.pos = offset) :
    Undisturbed (f.transfer (some offset) n left) := by
  refine ⟨fun m inside o asked => ?_, ?_⟩
  · rcases List.mem_cons.mp inside with rfl | old
    · exact there.trans (Option.some.inj asked)
    · exact undisturbed.own m old o asked
  · rw [transfer_offset_alone, ← undisturbed.seen]
    simp [currents, transfer]

/-- A transfer where the file stands. -/
theorem Settled.current (settled : Settled f) : Settled (f.transfer none n left) := by
  refine ⟨⟨fun m inside o asked => ?_, ?_⟩, ?_⟩
  · rcases List.mem_cons.mp inside with rfl | old
    · cases asked
    · exact settled.own m old o asked
  · -- It begins where the replayed file stands, so both histories gain the same entry.
    have grown : (f.transfer none n left).currents =
        { offset := none, pos := f.pos, n, left } :: f.currents := by
      simp [currents, transfer]
    rw [grown, settled.seen, settled.stands, transfer_current_alone]
    rfl
  · rw [transfer_current_alone]
    rfl

/-- Seek, transfer and seek back leave a settled file settled. -/
theorem Settled.positional (settled : Settled f) :
    Settled (((f.seek offset).transfer (some offset) n left).seek f.pos) := by
  refine ⟨((settled.toUndisturbed.seek offset).positional rfl).seek _, ?_⟩
  rw [seek_alone, transfer_offset_alone, seek_alone]
  exact settled.stands

end OpenFile

end Machine
