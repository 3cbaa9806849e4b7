import Tabular.Byte
import Tabular.Error

/-!
A byte output that may run out of room or fail to be flushed. What fits is written before a
write fails.
-/
namespace Tabular

structure Output where
  written : Array UInt8 := #[]
  /-- How many more bytes there is room for, if that is limited. -/
  room : Option Nat := none
  /-- The text of the failure of a write that finds no room. -/
  fullDetail : String := "disk full"
  /-- The text of the failure of a flush, if flushes fail. -/
  flushFailure : Option String := none
  deriving Repr, Inhabited

namespace Output

def bytes (o : Output) : Bytes := o.written.toList

def write (o : Output) (bytes : Bytes) : Except Error Unit × Output :=
  match o.room with
  | none => (.ok (), { o with written := o.written.appendList bytes })
  | some room =>
    let length := bytes.length
    if length ≤ room then
      (.ok (), { o with written := o.written.appendList bytes, room := some (room - length) })
    else
      (.error (.io o.fullDetail),
        { o with written := o.written.appendList (bytes.take room), room := some 0 })

def flush (o : Output) : Except Error Unit :=
  match o.flushFailure with
  | some detail => .error (.io detail)
  | none => .ok ()

theorem write_bytes (o : Output) (text : Bytes) :
    ∃ added, added <+: text ∧ (o.write text).2.bytes = o.bytes ++ added ∧
      ((o.write text).1 = .ok () → added = text) := by
  unfold write bytes
  split
  · exact ⟨text, List.prefix_rfl, by simp, fun _ => rfl⟩
  · dsimp only
    split
    · exact ⟨text, List.prefix_rfl, by simp, fun _ => rfl⟩
    · rename_i room _ _
      exact ⟨text.take room, List.take_prefix _ _, by simp, fun failed => by simp at failed⟩

end Output

end Tabular
