import Mathlib.Algebra.Group.Int.Defs
import Mathlib.Algebra.GroupWithZero.Nat
import Mathlib.Data.List.Basic
import Mathlib.Data.List.TakeDrop

/-!
# Byte buffers

The fixed buffers that the jobs read into. A system call stores a block of bytes at an
offset and leaves the rest of the buffer as it was.
-/

namespace TinySox

/-- A byte sequence: a string, a piece of a stream, or the contents of a buffer. -/
abbrev Bytes := List UInt8

/-- Overwrite the buffer with the block, starting at the offset. -/
def storeAt (buff : Bytes) (offset : ℕ) (block : Bytes) : Bytes :=
  buff.take offset ++ block ++ buff.drop (offset + block.length)

/-- Storing nothing changes nothing. -/
@[simp] theorem storeAt_nil (buff : Bytes) (offset : ℕ) : storeAt buff offset [] = buff := by
  simp only [storeAt, List.append_nil, List.length_nil, Nat.add_zero, List.take_append_drop]

/-- A block that fits keeps the size of the buffer. -/
theorem length_storeAt (buff : Bytes) (offset : ℕ) (block : Bytes)
    (hfit : offset + block.length ≤ buff.length) :
    (storeAt buff offset block).length = buff.length := by
  simp only [storeAt, List.length_append, List.length_take, List.length_drop]
  omega

/-- Up to its end, the buffer holds what stood before the block, and then the block. -/
theorem take_storeAt (buff : Bytes) (offset : ℕ) (block : Bytes) (hoffset : offset ≤ buff.length) :
    (storeAt buff offset block).take (offset + block.length) = buff.take offset ++ block := by
  have hlen : (buff.take offset ++ block).length = offset + block.length := by
    rw [List.length_append, List.length_take, Nat.min_eq_left hoffset]
  rw [storeAt, ← hlen, List.take_left]

/-- Taking a further piece continues where the previous one ended. -/
theorem take_append_take_drop (buff : Bytes) (i j : ℕ) :
    buff.take i ++ (buff.drop i).take j = buff.take (i + j) := List.take_add.symm

end TinySox
