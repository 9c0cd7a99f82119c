import FileServer.Buffer
import Mathlib.Data.List.GetD

/-!
# What a buffer holds

A buffer is written behind its used part only, so what has been put into it stays where it is: the
content grows at its end, and a window of the used part shows the same bytes whatever comes behind
it.
-/

namespace FileServer.Buffer

variable {b b' : Buffer} {x y : Bytes}

/-! ## Content

The bytes in use are the first ones of the memory. Adding bytes puts them behind what is in use,
over memory that nobody has looked at. -/

/-- The used part lies within the memory. -/
def Fits (b : Buffer) : Prop := b.used ≤ b.capacity

theorem fits_clear (b : Buffer) : b.clear.Fits := Nat.zero_le _

@[simp] theorem content_clear (b : Buffer) : b.clear.content = [] := rfl

@[simp] theorem capacity_clear (b : Buffer) : b.clear.capacity = b.capacity := rfl

/-- What appending does to the memory, in three parts: the content, then the new bytes, then what
had stood behind them. Every other lemma on appending reads its answer off this list. -/
theorem memory_append (b : Buffer) (x : Bytes) :
    (b.append x).memory = b.content ++ x ++ b.memory.drop (b.used + x.length) := rfl

/-- The content is as long as the mark of the used part says. Without `Fits` the mark may lie behind
the end of the memory, and then the content is shorter. -/
theorem Fits.length_content (hb : b.Fits) : b.content.length = b.used := by
  rw [content, List.length_take]
  exact Nat.min_eq_left hb

/-- The content grows at its end only. Together with `Fits.slice_append` this is why a request can
be read piece by piece: what has been found in the buffer is still there when more arrives. -/
theorem Fits.content_append (hb : b.Fits) (x : Bytes) : (b.append x).content = b.content ++ x := by
  rw [content, memory_append, used_append, ← hb.length_content, ← List.length_append]
  exact List.take_left

/-- Bytes that fit leave the memory as long as it is: they are written over what stood behind the
used part. -/
theorem capacity_append (hx : b.used + x.length ≤ b.capacity) :
    (b.append x).capacity = b.capacity := by
  simp only [capacity, append, overwrite, List.length_append, List.length_take,
    List.length_drop] at *
  omega

theorem fits_append (hx : b.used + x.length ≤ b.capacity) : (b.append x).Fits := by
  rw [Fits, capacity_append hx]
  exact hx

/-- A checked append succeeds exactly where there is room, and does then what the plain one does. -/
theorem append?_eq_some : b.append? x = some b' ↔ x.length ≤ b.room ∧ b' = b.append x := by
  simp only [append?]
  split
  · rename_i h
    simp [h, eq_comm]
  · rename_i h
    simp [h]

/-- Bytes are added only where they fit. -/
theorem Fits.append? (hb : b.Fits) (h : b.append? x = some b') :
    b'.Fits ∧ b'.capacity = b.capacity := by
  obtain ⟨hroom, rfl⟩ := append?_eq_some.mp h
  have hx : b.used + x.length ≤ b.capacity := by
    rw [room] at hroom
    rw [Fits] at hb
    omega
  exact ⟨fits_append hx, capacity_append hx⟩

/-- To append nothing changes nothing, the mark of the used part included. -/
@[simp] theorem Fits.append_nil (hb : b.Fits) : b.append [] = b := by
  have hmem : (b.append []).memory = b.memory := by
    rw [memory_append, content, List.append_nil]
    exact List.take_append_drop ..
  cases b
  exact congrArg (Buffer.mk · _) hmem

/-- Appending twice is appending once. How the bytes of a client are cut into reads makes therefore
no difference to the buffer that they end up in. -/
theorem Fits.append_append (hb : b.Fits) (x y : Bytes) :
    (b.append x).append y = b.append (x ++ y) := by
  have hlen : (b.content ++ x).length = b.used + x.length := by
    rw [List.length_append, hb.length_content]
  have hmem : ((b.append x).append y).memory = (b.append (x ++ y)).memory := by
    rw [memory_append, hb.content_append, memory_append, memory_append, used_append, ← hlen,
      List.drop_length_add_append, List.drop_drop, hlen, List.length_append]
    simp only [List.append_assoc, Nat.add_assoc]
  have hused : ((b.append x).append y).used = (b.append (x ++ y)).used := by
    rw [used_append, used_append, used_append, List.length_append, Nat.add_assoc]
  cases hl : (b.append x).append y
  cases hr : b.append (x ++ y)
  rw [hl, hr] at hmem hused
  exact congrArg₂ Buffer.mk hmem hused

/-! ## Windows

A window that ends within the bytes in use shows the same after bytes have been added. -/

/-- The used bytes from a position on. -/
theorem slice_used (b : Buffer) (i : Nat) : b.slice ⟨i, b.used⟩ = b.content.drop i := by
  rw [slice, content, List.drop_take]

/-- A window that ends in the used part shows used bytes only. -/
theorem slice_eq_content {w : Window} (hw : w.stop ≤ b.used) :
    b.slice w = (b.content.drop w.start).take (w.stop - w.start) := by
  rw [slice, content, List.drop_take, List.take_take, Nat.min_eq_left (by omega)]

/-- A window shows nothing but what stands before its end. The two buffers may differ in everything
behind it, in what is marked as used as well. -/
theorem slice_congr {n : Nat} (h : b'.memory.take n = b.memory.take n) {w : Window}
    (hw : w.stop ≤ n) : b'.slice w = b.slice w := by
  have hwithin : ∀ memory : Bytes, (memory.drop w.start).take (w.stop - w.start) =
      ((memory.take n).drop w.start).take (w.stop - w.start) := fun memory => by
    rw [List.drop_take, List.take_take, Nat.min_eq_left (by omega)]
  rw [slice, hwithin, h, ← hwithin, slice]

/-- A window of the used part shows the same bytes after more have been appended. Windows are kept
as bare positions in a request that is being read, so this is what keeps their texts fixed. -/
theorem Fits.slice_append (hb : b.Fits) {w : Window} (hw : w.stop ≤ b.used) (x : Bytes) :
    (b.append x).slice w = b.slice w := by
  have hw' : w.stop ≤ (b.append x).used := Nat.le_trans hw (Nat.le_add_right ..)
  rw [slice_eq_content hw', slice_eq_content hw, hb.content_append]
  rcases Nat.le_total w.start b.content.length with h | h
  · rw [List.drop_append_of_le_length h, List.take_append_of_le_length]
    rw [List.length_drop, hb.length_content]
    omega
  · rw [hb.length_content] at h
    rw [Nat.sub_eq_zero_of_le (by omega), List.take_zero, List.take_zero]

theorem byteAt_eq_content {pos : Nat} (hpos : pos < b.used) :
    b.byteAt pos = b.content.getD pos 0 := by
  simp [byteAt, content, List.getD, hpos]

theorem Fits.byteAt_append (hb : b.Fits) {pos : Nat} (hpos : pos < b.used) (x : Bytes) :
    (b.append x).byteAt pos = b.byteAt pos := by
  have hpos' : pos < (b.append x).used := Nat.lt_of_lt_of_le hpos (Nat.le_add_right ..)
  rw [byteAt_eq_content hpos', byteAt_eq_content hpos, hb.content_append,
    List.getD_append _ _ _ _ (hb.length_content.symm ▸ hpos)]

/-! ## Writing over used bytes

The end of a line is overwritten in place. That changes nothing in front of it, and it can be done
before or after more bytes are added. -/

theorem capacity_overwrite {pos : Nat} (h : pos + x.length ≤ b.capacity) :
    (b.overwrite pos x).capacity = b.capacity := by
  simp only [capacity, overwrite, List.length_append, List.length_take, List.length_drop] at *
  omega

/-- What has been written over shows. -/
theorem byteAt_overwrite {pos i : Nat} (hpos : pos ≤ b.capacity) (hi : i < x.length) :
    (b.overwrite pos x).byteAt (pos + i) = x[i] := by
  have hlength : (b.memory.take pos).length = pos := List.length_take_of_le hpos
  have hin : pos + i - (b.memory.take pos).length = i := by omega
  rw [byteAt, overwrite, List.append_assoc, List.getD_eq_getElem?_getD,
    List.getElem?_append_right (by omega), hin, List.getElem?_append_left hi,
    List.getElem?_eq_getElem hi, Option.getD_some]

/-- What stands before the bytes that are written over stays. The lines of a request in front of the
one that is being ended are such bytes. -/
theorem take_overwrite {n pos : Nat} (hpos : pos ≤ b.capacity) (hn : n ≤ pos) (x : Bytes) :
    (b.overwrite pos x).memory.take n = b.memory.take n := by
  have hlength : n ≤ (b.memory.take pos).length := by
    rw [List.length_take_of_le hpos]
    exact hn
  rw [overwrite, List.append_assoc, List.take_append_of_le_length hlength, List.take_take,
    Nat.min_eq_left hn]

theorem Fits.overwrite (hb : b.Fits) {pos : Nat} (h : pos + x.length ≤ b.used) :
    (b.overwrite pos x).Fits := by
  rw [Fits, capacity_overwrite (Nat.le_trans h hb)]
  exact hb

/-- It does not matter whether used bytes are written over before or after others are added. A line
end may thus be found and replaced while the rest of the request is still on its way. -/
theorem Fits.overwrite_append (hb : b.Fits) {pos : Nat} (h : pos + x.length ≤ b.used) (y : Bytes) :
    (b.append y).overwrite pos x = (b.overwrite pos x).append y := by
  have hb' := hb
  rw [Fits, capacity] at hb'
  have hmem : ((b.append y).overwrite pos x).memory = ((b.overwrite pos x).append y).memory := by
    apply List.ext_getElem?
    intro i
    simp only [Buffer.append, Buffer.overwrite, List.getElem?_append, List.getElem?_take,
      List.getElem?_drop, List.length_append, List.length_take, List.length_drop]
    grind
  exact congrArg₂ Buffer.mk hmem rfl

/-! ## What lies behind the used bytes

A buffer that is used again has old bytes behind those in use. `Buffer.backed` puts any bytes there,
and what is read from a buffer does not depend on them. -/

/-- The same content with other memory behind it. What a connection that has been used before has in
its buffer is told apart from a new one by this memory alone. -/
def backed (b : Buffer) (rest : Bytes) : Buffer := ⟨b.content ++ rest, b.used⟩

theorem Fits.content_backed (hb : b.Fits) (rest : Bytes) :
    (b.backed rest).content = b.content := by
  rw [backed, content, ← hb.length_content]
  exact List.take_left

theorem Fits.slice_backed (hb : b.Fits) {w : Window} (hw : w.stop ≤ b.used) (rest : Bytes) :
    (b.backed rest).slice w = b.slice w := by
  rw [slice_eq_content hw, slice_eq_content (b := b.backed rest) hw, hb.content_backed]

theorem Fits.byteAt_backed (hb : b.Fits) {pos : Nat} (hpos : pos < b.used) (rest : Bytes) :
    (b.backed rest).byteAt pos = b.byteAt pos := by
  rw [byteAt_eq_content hpos, byteAt_eq_content (b := b.backed rest) hpos, hb.content_backed]

/-- To write over used bytes does not touch what stands behind them, so the memory behind may be
exchanged before or after it. -/
theorem Fits.overwrite_backed (hb : b.Fits) {pos : Nat} (h : pos + x.length ≤ b.used)
    (rest : Bytes) : (b.backed rest).overwrite pos x = (b.overwrite pos x).backed rest := by
  have hb' := hb
  rw [Fits, capacity] at hb'
  have hmem : ((b.backed rest).overwrite pos x).memory =
      ((b.overwrite pos x).backed rest).memory := by
    apply List.ext_getElem?
    intro i
    simp only [Buffer.backed, Buffer.overwrite, Buffer.content, List.getElem?_append,
      List.getElem?_take, List.getElem?_drop, List.length_append, List.length_take,
      List.length_drop]
    grind
  exact congrArg₂ Buffer.mk hmem rfl

end FileServer.Buffer
