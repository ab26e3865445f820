import Myio.ZLoop.Code

/-! What a submission on the Zephyr event loop has done when there is no memory for its handle. -/

namespace Myio.Loop

open Function (update)

/-- The transfers on an open file that carried bytes. -/
def File.carried (f : File) : List Machine.Transfer := f.moved.filter (0 < ·.n)

namespace ZIo

variable {z z₁ z' : ZIo} {mem : Bool} {label : Label}

/-- Nothing has happened between two states that a caller could tell. -/
structure Untouched (z z' : ZIo) : Prop where
  /-- No task, no socket and no descriptor is different. -/
  core : z'.toCore = z.toCore
  /-- No function was started, nor queued to be. -/
  workq : z'.workq = z.workq
  handler : z'.handler = z.handler
  /-- No slot of the file table was opened or closed. -/
  used : ∀ i, (z'.file i).used = (z.file i).used
  pos : ∀ i, (z'.file i).pos = (z.file i).pos
  carried : ∀ i, (z'.file i).carried = (z.file i).carried

/-- `impl_open` and the others on files, up to the allocation of their handle. -/
def before (z : ZIo) : Label → ZIo
  | .open _ rc =>
    match z.freeSlot with
    | none => z
    | some slot => if rc = 0 then z.modFile slot fun _ => { used := true } else z
  | .close _ fd rc =>
    match z.usedSlot fd with
    | none => z
    | some slot => if rc = 0 then z.modFile slot fun f => { f with used := false } else z
  | .fileRw _ fd offset ans =>
    match z.usedSlot fd with
    | none => z
    | some slot =>
      match offset with
      | none => z.modFile slot (·.moveBytes none ans.n ans.left)
      | some offset =>
        let saved := (z.file slot).pos
        match ans.tell, ans.seek with
        | some _, _ => z
        | none, some _ => z
        | none, none =>
          let z := z.modFile slot fun f => (f.seekTo offset).moveBytes (some offset) ans.n ans.left
          if ans.restore.isNone then z.modFile slot (·.seekTo saved) else z
  | _ => z

/-- A call that asks for its handle in the given state. -/
structure Asks (z₁ : ZIo) (mem : Bool) (z' : ZIo) : Prop where
  room : z₁.hasTask mem = true → ∃ t, z'.ret = some (.submitted (some t))
  full : z₁.hasTask mem = false → z' = z₁.give (.submitted none)

end ZIo

end Myio.Loop
