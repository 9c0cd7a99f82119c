import FileServer.Kernel.Wire
import Mathlib.Data.List.Basic

/-!
# What goes through a wire

A write hands the kernel some pieces, and whatever the script says, the kernel takes a first part of
their concatenation or nothing (`Wire.write_taken`); a read takes a first part of what waits in the
stream or nothing (`Wire.read_given`). A script only ever loses entries at its front, so what is
true of all its entries stays true. Under scripts that are merely short, interrupted or blocked a
call never fails (`Wire.write_gentle`, `Wire.read_gentle`), as long as the client stays.
-/

namespace FileServer

/-! ## Scripts

Scripts of which only certain faults are asked, and that using one up keeps it so. -/

/-- All faults of a script are of a kind. -/
def Script.Only (p : Fault → Prop) (script : Script) : Prop :=
  ∀ fault, some fault ∈ script → p fault

/-- A script is used up from the front, so what is true of all its entries stays true. -/
theorem Script.Only.suffix {p : Fault → Prop} {script rest : Script} (h : script.Only p)
    (hs : rest <:+ script) : rest.Only p :=
  fun fault hf => h fault (hs.subset hf)

theorem Script.Only.head {p : Fault → Prop} {fault : Fault} {rest : Script}
    (h : Script.Only p (some fault :: rest)) : p fault :=
  h fault List.mem_cons_self

/-- The call moves fewer bytes than it could, but some, or it is interrupted. -/
def Fault.isShort : Fault → Prop
  | .limit n => 0 < n
  | .fail reason => reason = .interrupted

/-- A read is short, interrupted or blocked. To read nothing is to be told that the stream has
ended, which is none of these. -/
def Fault.isGentleRead : Fault → Prop
  | .limit n => 0 < n
  | .fail reason => reason = .interrupted ∨ reason = .wouldBlock

/-- A write is short, interrupted or blocked. -/
def Fault.isGentleWrite : Fault → Prop
  | .limit _ => True
  | .fail reason => reason = .interrupted ∨ reason = .wouldBlock

/-- The call does not fail. -/
def Fault.succeeds : Fault → Prop
  | .limit _ => True
  | .fail _ => False

theorem Fault.isShort.isGentleRead : ∀ {fault : Fault}, fault.isShort → fault.isGentleRead
  | .limit _, h => h
  | .fail _, h => .inl h

/-! ## Streams

What the server does to a stream: bytes are taken off its front and put behind its end. -/

namespace Stream

/-- The stream after the server has written bytes to it. -/
def wrote (s : Stream) (bytes : Bytes) : Stream := { s with outbound := s.outbound ++ bytes }

/-- The stream after the server has read a number of bytes from it. -/
def took (s : Stream) (n : Nat) : Stream := { s with inbound := s.inbound.drop n }

/-- The client is there, and may send more. -/
def IsLively (s : Stream) : Prop := s.ended = false ∧ s.abandoned = false ∧ s.broken = false

@[simp] theorem wrote_nil (s : Stream) : s.wrote [] = s := by
  rw [wrote, List.append_nil]

@[simp] theorem took_zero (s : Stream) : s.took 0 = s := rfl

theorem took_took (s : Stream) (m n : Nat) : (s.took m).took n = s.took (m + n) := by
  simp only [took, List.drop_drop]

/-- What has been taken is what is no longer there. -/
theorem took_take (s : Stream) (room : Nat) :
    s.took (s.inbound.take room).length = { s with inbound := s.inbound.drop room } := by
  rw [took, List.length_take]
  rcases Nat.le_total room s.inbound.length with h | h
  · rw [Nat.min_eq_left h]
  · rw [Nat.min_eq_right h, List.drop_eq_nil_of_le h, List.drop_length]

/-- What a read finds as long as the client is there: all that waits, up to the room there is, or
nothing yet. That a read finds the end of the stream is ruled out, which would be data of no
bytes. -/
theorem read_lively {s : Stream} (hs : s.IsLively) {room : Nat} (hroom : 0 < room) :
    s.read room =
      if s.inbound = [] then (.wouldBlock, s)
      else (.data (s.inbound.take room), s.took (s.inbound.take room).length) := by
  obtain ⟨hended, habandoned, hbroken⟩ := hs
  cases hin : s.inbound with
  | nil => simp [read, hin, hended, habandoned, hbroken, Nat.ne_of_gt hroom]
  | cons b bytes =>
    rw [← hin, took_take]
    simp [read, hin, Nat.ne_of_gt hroom]

end Stream

namespace Wire

/-- All that has been written to the stream behind a wire. -/
def outbound (w : Wire) : Bytes := (w.stream.map Stream.outbound).getD []

/-! ## Writing

What a write accepts is a first part of what is offered. An interrupted write is made again. -/

/-- What a write makes of the stream: a first part of the bytes is added to it, or nothing. -/
def Taken (bytes : Bytes) (before after : Option Stream) : WriteResult → Prop
  | .accepted n =>
    n ≤ bytes.length ∧ (before = none → n = 0) ∧ after = before.map (·.wrote (bytes.take n))
  | _ => after = before

/-- A first part of some bytes is a first part of any that begin with them. By this the several
pieces of a write, of which the kernel may only be shown the first ones, can be taken for their
concatenation. -/
theorem Taken.longer {bytes longer : Bytes} {before after : Option Stream} {result : WriteResult}
    (h : Taken bytes before after result) (hp : bytes <+: longer) :
    Taken longer before after result := by
  cases result with
  | accepted n =>
    obtain ⟨hn, hnone, hafter⟩ := h
    refine ⟨Nat.le_trans hn hp.length_le, hnone, ?_⟩
    obtain ⟨rest, rfl⟩ := hp
    rw [List.take_append_of_le_length hn]
    exact hafter
  | wouldBlock => exact h
  | failed reason => exact h

/-- A write that no fault meets takes all of the bytes, or fails because the client is gone. -/
theorem plainWrite_taken (w : Wire) (bytes : Bytes) :
    Taken bytes w.stream (w.plainWrite bytes).2.stream (w.plainWrite bytes).1 := by
  rcases hs : w.stream with _ | s
  · simp [plainWrite, hs, Taken]
  · rcases ha : s.abandoned with _ | _
    · simp [plainWrite, hs, Stream.write, ha, Taken, Stream.wrote]
    · simp [plainWrite, hs, Stream.write, ha, Taken]

/-- A write that no fault meets uses up no entry of a script. -/
theorem plainWrite_scripts (w : Wire) (bytes : Bytes) :
    (w.plainWrite bytes).2.reads = w.reads ∧ (w.plainWrite bytes).2.writes = w.writes := by
  simp only [plainWrite]
  split <;> exact ⟨rfl, rfl⟩

/-- **Whatever the script says** the kernel takes a first part of the bytes or nothing: by induction
on the script, as an interrupted call is made again under the rest of it. -/
theorem writeUnder_taken (w : Wire) (bytes : Bytes) (script : Script) :
    Taken bytes w.stream (w.writeUnder bytes script).2.stream (w.writeUnder bytes script).1 := by
  fun_induction writeUnder w bytes script with
  | case1 => exact plainWrite_taken _ _
  | case2 rest => exact plainWrite_taken { w with writes := rest } _
  | case3 rest => simp [Taken]
  | case4 n rest =>
    exact (plainWrite_taken { w with writes := rest } _).longer (List.take_prefix ..)
  | case5 rest ih => exact ih
  | case6 => rfl
  | case7 => rfl

/-- What is left of the script is its end, and the script of the reads is not touched. -/
theorem writeUnder_scripts (w : Wire) (bytes : Bytes) (script : Script) :
    (w.writeUnder bytes script).2.reads = w.reads ∧
      (w.writeUnder bytes script).2.writes <:+ script := by
  fun_induction writeUnder w bytes script with
  | case1 =>
    obtain ⟨hr, hw⟩ := plainWrite_scripts { w with writes := [] } bytes
    exact ⟨hr, hw ▸ List.suffix_refl _⟩
  | case2 rest =>
    obtain ⟨hr, hw⟩ := plainWrite_scripts { w with writes := rest } bytes
    exact ⟨hr, hw ▸ List.suffix_cons ..⟩
  | case3 rest => exact ⟨rfl, List.suffix_cons ..⟩
  | case4 n rest =>
    obtain ⟨hr, hw⟩ := plainWrite_scripts { w with writes := rest } (bytes.take (n + 1))
    exact ⟨hr, hw ▸ List.suffix_cons ..⟩
  | case5 rest ih => exact ⟨ih.1, ih.2.trans (List.suffix_cons ..)⟩
  | case6 => exact ⟨rfl, List.suffix_cons ..⟩
  | case7 => exact ⟨rfl, List.suffix_cons ..⟩

/-- The pieces that the kernel is shown, which are those that are not empty and no more than it
takes at once, begin the concatenation of all. -/
theorem flatten_offered (pieces : List Bytes) :
    ((pieces.filter (!·.isEmpty)).take maxPieces).flatten <+: pieces.flatten := by
  rw [← List.flatten_filter_not_isEmpty (L := pieces)]
  obtain ⟨rest, hrest⟩ := List.take_prefix maxPieces (pieces.filter (!·.isEmpty))
  exact ⟨rest.flatten, by rw [← List.flatten_append, hrest]⟩

/-- **A write takes a first part** of the concatenation of the pieces, or nothing. -/
theorem write_taken (w : Wire) (pieces : List Bytes) :
    Taken pieces.flatten w.stream (w.write pieces).2.stream (w.write pieces).1 := by
  unfold write
  dsimp only
  split
  · simp [Taken]
  · exact (writeUnder_taken _ _ _).longer (flatten_offered pieces)

/-- What is known of a write that is accepted. -/
theorem write_accepted {w w' : Wire} {pieces : List Bytes} {n : Nat}
    (h : w.write pieces = (.accepted n, w')) :
    n ≤ pieces.flatten.length ∧ (w.stream = none → n = 0) ∧
      w'.stream = w.stream.map (·.wrote (pieces.flatten.take n)) := by
  have htaken := w.write_taken pieces
  rw [h] at htaken
  exact htaken

/-- A write that accepts nothing leaves the stream as it is. -/
theorem write_nothing {w w' : Wire} {pieces : List Bytes}
    (h : w.write pieces = (.accepted 0, w') ∨ w.write pieces = (.wouldBlock, w')) :
    w'.stream = w.stream := by
  have htaken := w.write_taken pieces
  rcases h with h | h
  · rw [h] at htaken
    obtain ⟨-, -, hstream⟩ := htaken
    simpa using hstream
  · rw [h] at htaken
    exact htaken

/-- A write that fails leaves the stream as it is. -/
theorem write_failed {w w' : Wire} {pieces : List Bytes} {reason : Errno}
    (h : w.write pieces = (.failed reason, w')) : w'.stream = w.stream := by
  have htaken := w.write_taken pieces
  rw [h] at htaken
  exact htaken

/-- A write uses up entries of the script for writes and none of that for reads. -/
theorem write_scripts (w : Wire) (pieces : List Bytes) :
    (w.write pieces).2.reads = w.reads ∧ (w.write pieces).2.writes <:+ w.writes := by
  unfold write
  dsimp only
  split
  · exact ⟨rfl, List.suffix_refl _⟩
  · exact writeUnder_scripts _ _ _

/-- If there is anything to be written, there is a call. -/
theorem isEmpty_offered {pieces : List Bytes} (h : pieces.flatten ≠ []) :
    ((pieces.filter (!·.isEmpty)).take maxPieces).isEmpty = false := by
  rw [List.isEmpty_eq_false_iff]
  intro hnil
  rcases List.take_eq_nil_iff.mp hnil with h0 | hnil
  · cases h0
  · exact h (by rw [← List.flatten_filter_not_isEmpty, hnil, List.flatten_nil])

/-- An interrupted write is made again. -/
theorem write_interrupted (w : Wire) {pieces : List Bytes} (h : pieces.flatten ≠ []) :
    { w with writes := some (.fail .interrupted) :: w.writes }.write pieces = w.write pieces := by
  have hoffered := isEmpty_offered h
  have hcongr : ∀ (bytes : Bytes) (writes script : Script),
      { w with writes }.writeUnder bytes script = w.writeUnder bytes script := by
    intro bytes writes script
    induction script with
    | nil => rfl
    | cons entry rest ih =>
      rcases entry with _ | ⟨_ | n⟩ | reason
      · rfl
      · rfl
      · rfl
      · rw [writeUnder, writeUnder, ih]
  simp only [write, hoffered, Bool.false_eq_true, if_false]
  rw [writeUnder, if_pos rfl, hcongr]

/-- Under a script of gentle faults no write fails, unless the client has left. A fault that is
gentle makes a write shorter, has it made again or lets it wait; and a stream whose client is there
takes bytes. -/
theorem write_gentle {w : Wire} {s : Stream} (hs : w.stream = some s) (hl : s.abandoned = false)
    (hw : w.writes.Only Fault.isGentleWrite) (pieces : List Bytes) (reason : Errno) :
    (w.write pieces).1 ≠ .failed reason := by
  have hplain : ∀ (v : Wire) (bytes : Bytes), v.stream = some s →
      (v.plainWrite bytes).1 ≠ .failed reason := by
    intro v bytes hv
    simp [plainWrite, hv, Stream.write, hl]
  have hunder : ∀ (bytes : Bytes) (script : Script), script.Only Fault.isGentleWrite →
      (w.writeUnder bytes script).1 ≠ .failed reason := by
    intro bytes script hscript
    fun_induction writeUnder w bytes script with
    | case1 => exact hplain _ _ hs
    | case2 rest => exact hplain _ _ hs
    | case3 rest => simp
    | case4 n rest => exact hplain _ _ hs
    | case5 rest ih => exact ih (hscript.suffix (List.suffix_cons ..))
    | case6 => simp
    | case7 failure rest hi hb => exact absurd hscript.head (by simp [Fault.isGentleWrite, hi, hb])
  unfold write
  dsimp only
  split
  · simp
  · exact hunder _ _ hw

/-! ## Reading

What a read gives is a first part of what waits, and never more than there is room for. -/

/-- What a read makes of the stream: a first part of what waits there is taken off it, or
nothing. -/
def Given (room : Nat) (before after : Option Stream) : ReadResult → Prop
  | .data bytes =>
    bytes.length ≤ room ∧ bytes <+: (before.map Stream.inbound).getD [] ∧
      after = before.map (·.took bytes.length)
  | .wouldBlock => after = before
  | .failed _ => after = before ∨ after = before.map ({ · with broken := false })

/-- More room admits whatever less room does. -/
theorem Given.of_le {room more : Nat} {before after : Option Stream} {result : ReadResult}
    (h : Given room before after result) (hr : room ≤ more) : Given more before after result := by
  cases result with
  | data bytes => exact ⟨Nat.le_trans h.1 hr, h.2⟩
  | wouldBlock => exact h
  | failed reason => exact h

theorem given_nothing (room : Nat) (stream : Option Stream) :
    Given room stream stream (.data []) := by
  refine ⟨Nat.zero_le _, List.nil_prefix, ?_⟩
  simp

/-- A read that no fault meets gives what waits in the stream, up to the room there is. If the
stream is broken the read fails once, and the stream is as if it had ended from then on. -/
theorem plainRead_given (w : Wire) (room : Nat) :
    Given room w.stream (w.plainRead room).2.stream (w.plainRead room).1 := by
  rcases hs : w.stream with _ | s
  · simp [plainRead, hs, Given]
  · simp only [plainRead, hs, Stream.read]
    split
    · exact given_nothing room (some s)
    · split
      · refine ⟨List.length_take_le .., List.take_prefix .., ?_⟩
        rw [Option.map_some, Stream.took_take]
      · split
        · exact .inr rfl
        · split
          · exact given_nothing room (some s)
          · rfl

theorem plainRead_scripts (w : Wire) (room : Nat) :
    (w.plainRead room).2.reads = w.reads ∧ (w.plainRead room).2.writes = w.writes := by
  simp only [plainRead]
  split <;> exact ⟨rfl, rfl⟩

/-- **A read takes a first part** of what waits in the stream, or nothing. -/
theorem read_given (w : Wire) (room : Nat) :
    Given room w.stream (w.read room).2.stream (w.read room).1 := by
  have hunder : ∀ script : Script,
      Given room w.stream (w.readUnder room script).2.stream (w.readUnder room script).1 := by
    intro script
    fun_induction readUnder w room script with
    | case1 => exact plainRead_given _ _
    | case2 rest => exact plainRead_given { w with reads := rest } _
    | case3 rest => exact given_nothing ..
    | case4 n rest =>
      exact (plainRead_given { w with reads := rest } _).of_le (Nat.min_le_left ..)
    | case5 rest ih => exact ih
    | case6 => rfl
    | case7 => exact .inl rfl
  exact hunder w.reads

/-- A read uses up entries of the script for reads and none of that for writes. -/
theorem read_scripts (w : Wire) (room : Nat) :
    (w.read room).2.reads <:+ w.reads ∧ (w.read room).2.writes = w.writes := by
  have hunder : ∀ script : Script, (w.readUnder room script).2.reads <:+ script ∧
      (w.readUnder room script).2.writes = w.writes := by
    intro script
    fun_induction readUnder w room script with
    | case1 =>
      obtain ⟨hr, hw⟩ := plainRead_scripts { w with reads := [] } room
      exact ⟨hr ▸ List.suffix_refl _, hw⟩
    | case2 rest =>
      obtain ⟨hr, hw⟩ := plainRead_scripts { w with reads := rest } room
      exact ⟨hr ▸ List.suffix_cons .., hw⟩
    | case3 rest => exact ⟨List.suffix_cons .., rfl⟩
    | case4 n rest =>
      obtain ⟨hr, hw⟩ := plainRead_scripts { w with reads := rest } (min room (n + 1))
      exact ⟨hr ▸ List.suffix_cons .., hw⟩
    | case5 rest ih => exact ⟨ih.1.trans (List.suffix_cons ..), ih.2⟩
    | case6 => exact ⟨List.suffix_cons .., rfl⟩
    | case7 => exact ⟨List.suffix_cons .., rfl⟩
  exact hunder w.reads

/-- Under a script of gentle faults a read of a lively stream gives some bytes, or has to wait. It
never says that the stream has ended, which a connection would take for its end. -/
theorem read_gentle {w : Wire} {s : Stream} {room : Nat} (hs : w.stream = some s)
    (hl : s.IsLively) (hroom : 0 < room) (hw : w.reads.Only Fault.isGentleRead) :
    (w.read room).1 = .wouldBlock ∨ ∃ b bytes, (w.read room).1 = .data (b :: bytes) := by
  have hplain : ∀ (v : Wire) (n : Nat), v.stream = some s → 0 < n →
      (v.plainRead n).1 = .wouldBlock ∨
        ∃ b bytes, (v.plainRead n).1 = .data (b :: bytes) := by
    intro v n hv hn
    obtain ⟨m, rfl⟩ := Nat.exists_eq_succ_of_ne_zero (Nat.ne_of_gt hn)
    simp only [plainRead, hv, Stream.read_lively hl hn]
    cases hin : s.inbound with
    | nil => exact .inl rfl
    | cons b bytes => exact .inr ⟨b, bytes.take m, rfl⟩
  have hunder : ∀ script : Script, script.Only Fault.isGentleRead →
      (w.readUnder room script).1 = .wouldBlock ∨
        ∃ b bytes, (w.readUnder room script).1 = .data (b :: bytes) := by
    intro script hscript
    fun_induction readUnder w room script with
    | case1 => exact hplain _ _ hs hroom
    | case2 rest => exact hplain _ _ hs hroom
    | case3 rest => exact absurd hscript.head (Nat.lt_irrefl 0)
    | case4 n rest => exact hplain _ _ hs (Nat.lt_min.mpr ⟨hroom, Nat.succ_pos n⟩)
    | case5 rest ih => exact ih (hscript.suffix (List.suffix_cons ..))
    | case6 => exact .inl rfl
    | case7 failure rest hi hb => exact absurd hscript.head (by simp [Fault.isGentleRead, hi, hb])
  exact hunder _ hw

/-- Under a script of short faults a read has to wait only where nothing is there. -/
theorem read_short {w : Wire} {s : Stream} {room : Nat} (hs : w.stream = some s)
    (hl : s.IsLively) (hroom : 0 < room) (hw : w.reads.Only Fault.isShort)
    (hblock : (w.read room).1 = .wouldBlock) : s.inbound = [] := by
  have hplain : ∀ (v : Wire) (n : Nat), v.stream = some s → 0 < n →
      (v.plainRead n).1 = .wouldBlock → s.inbound = [] := by
    intro v n hv hn h
    by_contra hne
    simp [plainRead, hv, Stream.read_lively hl hn, hne] at h
  have hunder : ∀ script : Script, script.Only Fault.isShort →
      (w.readUnder room script).1 = .wouldBlock → s.inbound = [] := by
    intro script hscript h
    fun_induction readUnder w room script with
    | case1 => exact hplain { w with reads := [] } _ hs hroom h
    | case2 rest => exact hplain { w with reads := rest } _ hs hroom h
    | case3 rest => simp at h
    | case4 n rest =>
      exact hplain { w with reads := rest } _ hs (Nat.lt_min.mpr ⟨hroom, Nat.succ_pos n⟩) h
    | case5 rest ih => exact ih (hscript.suffix (List.suffix_cons ..)) h
    | case6 rest hi => exact absurd hscript.head hi
    | case7 failure rest hi => exact absurd hscript.head hi
  exact hunder _ hw hblock

end Wire

end FileServer
