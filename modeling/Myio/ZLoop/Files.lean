import Myio.ZLoop.Pending

/-! The files of the Zephyr event loop: what positional reads and writes leave of them. -/

namespace Myio.Loop

open Machine

namespace ZIo

variable {z z' : ZIo} {mem : Bool} {fd : Int} {offset : Option Int} {ans : FileAns} {label : Label}

/-! ### Calls that touch no file -/

/-- Whether a positional `file_rw` comes to a transfer on the file in a slot. -/
def reaches (z : ZIo) (fd : Int) (ans : FileAns) (slot : Nat) : Bool :=
  z.usedSlot fd = some slot && ans.tell.isNone && ans.seek.isNone

/-- What one step does to a file. -/
inductive Touched (f : OpenFile) : OpenFile → Prop
  | not : Touched f f
  | opened : Touched f {}
  | current (n left : Int) : Touched f (f.transfer none n left)
  | positional (offset n left : Int) :
      Touched f (((f.seek offset).transfer (some offset) n left).seek f.pos)

theorem Touched.same {f g : OpenFile} (same : g = f) : Touched f g := same ▸ .not

theorem Touched.settled {f g : OpenFile} (touched : Touched f g) (settled : f.Settled) : g.Settled := by
  cases touched with
  | not => exact settled
  | opened => exact .new
  | current n left => exact settled.current
  | positional offset n left => exact settled.positional

end ZIo

end Myio.Loop
