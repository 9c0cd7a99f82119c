import FileServer.Bytes

/-!
# Buffers and windows

A buffer is a stretch of memory of fixed size of which a first part is in use. Emptying it only
moves the end of the used part back to the start: the memory keeps what was last written there, and
nothing but `used` says what is valid. A window names a stretch of a buffer by position, so that
parts of a request can be pointed at without being copied.
-/

namespace FileServer

/-- The positions from `start` up to, and without, `stop`. -/
structure Window where
  /-- the first position -/
  start : Nat := 0
  /-- the position after the last -/
  stop : Nat := 0
  deriving DecidableEq, Repr, Inhabited

/-- The window moved up by `offset` positions. -/
def Window.shift (w : Window) (offset : Nat) : Window := ⟨offset + w.start, offset + w.stop⟩

/-- Memory of fixed size, of which the first `used` bytes are valid. -/
structure Buffer where
  /-- all bytes, the stale ones included -/
  memory : Bytes
  /-- how many of them are in use -/
  used : Nat := 0
  deriving DecidableEq, Repr, Inhabited

namespace Buffer

/-- An empty buffer over cleared memory. -/
def blank (capacity : Nat) : Buffer := ⟨List.replicate capacity 0, 0⟩

/-- How many bytes the buffer can hold. -/
def capacity (b : Buffer) : Nat := b.memory.length

/-- How many more bytes fit. -/
def room (b : Buffer) : Nat := b.capacity - b.used

/-- The bytes in use. -/
def content (b : Buffer) : Bytes := b.memory.take b.used

/-- The bytes under a window. -/
def slice (b : Buffer) (w : Window) : Bytes := (b.memory.drop w.start).take (w.stop - w.start)

/-- The byte at a position. -/
def byteAt (b : Buffer) (pos : Nat) : UInt8 := b.memory.getD pos 0

/-- Empties the buffer; the memory stays as it is. -/
def clear (b : Buffer) : Buffer := { b with used := 0 }

/-- Writes over the memory from a position on. -/
def overwrite (b : Buffer) (pos : Nat) (bytes : Bytes) : Buffer :=
  { b with memory := b.memory.take pos ++ bytes ++ b.memory.drop (pos + bytes.length) }

/-- Adds bytes behind those in use. -/
def append (b : Buffer) (bytes : Bytes) : Buffer :=
  { b.overwrite b.used bytes with used := b.used + bytes.length }

/-- Adds bytes behind those in use, if they fit. -/
def append? (b : Buffer) (bytes : Bytes) : Option Buffer :=
  if bytes.length ≤ b.room then some (b.append bytes) else none

@[simp] theorem used_clear (b : Buffer) : b.clear.used = 0 := rfl

@[simp] theorem used_overwrite (b : Buffer) (pos : Nat) (bytes : Bytes) :
    (b.overwrite pos bytes).used = b.used := rfl

@[simp] theorem used_append (b : Buffer) (bytes : Bytes) :
    (b.append bytes).used = b.used + bytes.length := rfl

/-- Adding something to a buffer that is not full leaves less room. -/
theorem room_append_lt {b : Buffer} {bytes : Bytes} (notFull : b.used < b.capacity)
    (notEmpty : bytes ≠ []) : (b.append bytes).room < b.room := by
  have := List.length_pos_iff.2 notEmpty
  simp only [room, capacity, append, overwrite, List.length_append, List.length_take,
    List.length_drop] at *
  omega

theorem length_slice_le (b : Buffer) (w : Window) : (b.slice w).length ≤ w.stop - w.start := by
  simp only [slice, List.length_take]
  omega

end Buffer

end FileServer
