import FileServer.Response
import FileServer.Proofs.Request.Bounds
import Mathlib.Data.List.TakeWhile

/-!
# The lines of a request

A reader cuts what has arrived into lines. Here the cut is described by the bytes alone: a line ends
at the next carriage return that a line feed follows, and neither of the two may stand alone
(`Ending`). The reader makes that cut from wherever its search has come to
(`Reader.Searching.scanLine_eq`), and once it has acted on a line it goes on with the bytes behind
that line (`Reader.Searching.pass`).

What it acts on is not always the whole line. The end of a line is overwritten with zeros, and the
line is read up to the first zero; so if the client has sent one, what stands behind it is lost
(`visible`).

The lemmas follow one line through a call of the reader. `Reader.pending` is all that stands from
the start of the line on, and what can be made of it is one of the cases of `Ending`: there is no
end yet, there is one, or one of the two bytes stands alone. `Reader.GoesOnAs` then puts calls
together, so that a run over several lines is taken apart line by line.
-/

namespace FileServer

/-- What stands before and behind bytes that are written over stays. -/
theorem Buffer.Fits.content_overwrite {b : Buffer} (hb : b.Fits) (pos : Nat) (x : Bytes)
    (h : pos + x.length ≤ b.used) :
    (b.overwrite pos x).content = b.content.take pos ++ x ++ b.content.drop (pos + x.length) := by
  have hlength : (b.memory.take pos ++ x).length = pos + x.length := by
    rw [Buffer.Fits, capacity] at hb
    rw [List.length_append, List.length_take]
    omega
  rw [content, Buffer.overwrite]
  dsimp only
  rw [List.take_append, hlength, List.take_of_length_le (by omega), content, List.take_take,
    Nat.min_eq_left (by omega), List.drop_take]

namespace Request

open Response (lineEnd)

/-! ## Lines and what ends them

The cut, described by the bytes alone. Any bytes are some complete lines, and behind them what is
not a line yet or breaks the rule. -/

/-- Bytes among which no line ends. -/
def Unbroken (bytes : Bytes) : Prop := ∀ b ∈ bytes, isLineEnd b = false

instance (bytes : Bytes) : Decidable (Unbroken bytes) :=
  List.decidableBAll (fun b => isLineEnd b = false) bytes

/-- What a reader sees of a line: the bytes before the first zero. -/
def visible (line : Bytes) : Bytes := line.takeWhile (· != 0)

/-- Bytes from a place on at which a line may end, with what is made of it. -/
inductive Ending : Bytes → LineStatus → Prop
  /-- nothing has arrived yet -/
  | nothing : Ending [] .incomplete
  /-- the second byte has not arrived yet -/
  | cut : Ending [carriageReturn] .incomplete
  /-- the line is complete -/
  | both {rest : Bytes} : Ending (lineEnd ++ rest) .complete
  /-- a carriage return that no line feed follows -/
  | loneReturn {b : UInt8} {rest : Bytes} : b ≠ lineFeed →
    Ending (carriageReturn :: b :: rest) .malformed
  /-- a line feed that no carriage return precedes -/
  | loneFeed {rest : Bytes} : Ending (lineFeed :: rest) .malformed

/-- Bytes cut into lines, each with its end, and what follows the last of them. -/
structure Lines (bytes : Bytes) (lines : List Bytes) (tail : Bytes) : Prop where
  eq : bytes = lines.flatMap (· ++ lineEnd) ++ tail
  unbroken : ∀ line ∈ lines, Unbroken line

variable {line tail rest bytes : Bytes} {status : LineStatus}

/-- A line is seen whole exactly if no zero has been sent in it. -/
theorem visible_eq_self : visible line = line ↔ 0 ∉ line := by
  rw [visible, List.takeWhile_eq_self_iff]
  constructor
  · intro h hzero
    exact absurd (h 0 hzero) (by decide)
  · intro h b hb
    exact bne_iff_ne.mpr fun hb' => h (hb' ▸ hb)

/-- A line is taken for an empty one if it is empty, and also if it starts with a zero. -/
theorem visible_eq_nil : visible line = [] ↔ line = [] ∨ line.head? = some 0 := by
  cases line with
  | nil => simp [visible]
  | cons b rest =>
    by_cases hb : b = 0 <;> simp [visible, hb]

/-- Where the first zero stands in a line whose end has been overwritten. -/
theorem idxOf_zero (line bytes : Bytes) : (line ++ 0 :: bytes).idxOf 0 = (visible line).length := by
  induction line with
  | nil => rfl
  | cons b line ih =>
    by_cases hb : b = 0
    · subst hb
      rfl
    · have hkeep : visible (b :: line) = b :: visible line :=
        List.takeWhile_cons_of_pos (bne_iff_ne.mpr hb)
      rw [hkeep, List.cons_append, List.idxOf_cons_ne _ hb, ih]
      rfl

theorem prefix_visible (line : Bytes) : visible line <+: line := List.takeWhile_prefix _

theorem unbroken_nil : Unbroken [] := fun _ h => nomatch h

theorem Unbroken.subset (h : Unbroken bytes) (hline : line ⊆ bytes) : Unbroken line :=
  fun b hb => h b (hline hb)

theorem Unbroken.findIdx?_eq_none (h : Unbroken bytes) : bytes.findIdx? isLineEnd = none :=
  List.findIdx?_eq_none_iff.mpr h

/-- Every stretch of bytes is the start of a line, and what may end it. -/
theorem exists_ending (bytes : Bytes) :
    ∃ line tail status, bytes = line ++ tail ∧ Unbroken line ∧ Ending tail status := by
  induction bytes with
  | nil => exact ⟨[], [], .incomplete, rfl, unbroken_nil, .nothing⟩
  | cons b rest ih =>
    by_cases hb : isLineEnd b = true
    · have hends : b = carriageReturn ∨ b = lineFeed := by
        simpa [isLineEnd] using hb
      rcases hends with rfl | rfl
      · cases rest with
        | nil => exact ⟨[], _, .incomplete, rfl, unbroken_nil, .cut⟩
        | cons b' rest =>
          by_cases hb' : b' = lineFeed
          · subst hb'
            exact ⟨[], _, .complete, rfl, unbroken_nil, .both⟩
          · exact ⟨[], _, .malformed, rfl, unbroken_nil, .loneReturn hb'⟩
      · exact ⟨[], _, .malformed, rfl, unbroken_nil, .loneFeed⟩
    · obtain ⟨line, tail, status, rfl, hline, htail⟩ := ih
      refine ⟨b :: line, tail, status, rfl, ?_, htail⟩
      intro x hx
      rcases List.mem_cons.mp hx with rfl | hx
      · exact Bool.eq_false_iff.mpr hb
      · exact hline x hx

/-- What may end a line starts with one of the two bytes. -/
theorem Ending.isLineEnd_head {b : UInt8} (h : Ending (b :: rest) status) : isLineEnd b = true := by
  cases h <;> decide

/-- The first place at which a line may end. -/
theorem Ending.findIdx? (htail : Ending tail status) (hline : Unbroken line) :
    (line ++ tail).findIdx? isLineEnd = tail.head?.map fun _ => line.length := by
  rw [List.findIdx?_append, hline.findIdx?_eq_none, Option.none_or]
  cases tail with
  | nil => rfl
  | cons b rest =>
    rw [List.findIdx?_cons, htail.isLineEnd_head]
    exact congrArg some (Nat.zero_add _)

/-- What is searched in vain is part of the line. -/
theorem Ending.le_length (htail : Ending tail status) {n : Nat} (hn : n ≤ (line ++ tail).length)
    (hsearched : Unbroken ((line ++ tail).take n)) : n ≤ line.length := by
  rcases Nat.lt_or_ge line.length n with hlt | hge
  · exfalso
    cases tail with
    | nil =>
      rw [List.append_nil] at hn
      omega
    | cons b rest =>
      -- the byte behind the line ends it, and is among those searched
      have hmem : b ∈ (line ++ b :: rest).take n := by
        obtain ⟨m, hm⟩ : ∃ m, n - line.length = m + 1 := ⟨n - line.length - 1, by omega⟩
        rw [List.take_append, hm, List.take_succ_cons]
        exact List.mem_append_right _ List.mem_cons_self
      have hends := htail.isLineEnd_head
      rw [hsearched b hmem] at hends
      cases hends
  · exact hge

namespace Reader

variable {r r' : Reader} {x : Bytes}

/-! ## Where the current line stands

What is pending are the bytes in use from the start of the current line on; what stands before it
has been taken. -/

/-- The bytes from the start of the current line on. -/
def pending (r : Reader) : Bytes := r.input.content.drop r.lineStart

/-- No line ends between the start of the current one and the place up to which has been searched.
So it is with the reader of a connection, whatever has been done to that
(`Connection.searching_after`). -/
structure Searching (r : Reader) : Prop extends r.Bounded where
  unbroken : Unbroken (r.pending.take (r.scanned - r.lineStart))

/-- What is pending reaches up to the end of the bytes in use. -/
theorem Bounded.length_pending (hr : r.Bounded) :
    r.lineStart + r.pending.length = r.input.used := by
  have hline := Nat.le_trans hr.lineStart_le hr.scanned_le
  rw [pending, List.length_drop, hr.fits.length_content]
  omega

theorem Bounded.length_before (hr : r.Bounded) :
    (r.input.content.take r.lineStart).length = r.lineStart := by
  rw [List.length_take, hr.fits.length_content]
  exact Nat.min_eq_left (Nat.le_trans hr.lineStart_le hr.scanned_le)

/-- The bytes behind the current line, or behind what has arrived of it. -/
theorem Bounded.byteAt_pending (hr : r.Bounded) (hpending : r.pending = line ++ tail) {i : Nat}
    (hi : i < tail.length) : r.input.byteAt (r.lineStart + line.length + i) = tail[i] := by
  have hused := hr.length_pending
  rw [hpending, List.length_append] at hused
  have hat : r.pending[line.length + i]? = tail[i]? := by
    rw [hpending, List.getElem?_append_right (Nat.le_add_right ..), Nat.add_sub_cancel_left]
  rw [pending, List.getElem?_drop, ← Nat.add_assoc, List.getElem?_eq_getElem hi] at hat
  rw [Buffer.byteAt_eq_content (by omega), List.getD_eq_getElem?_getD, hat, Option.getD_some]

theorem Searching.reset (h : r.input.capacity = inputCapacity) : r.reset.Searching :=
  ⟨.reset h, unbroken_nil⟩

theorem pending_reset (r : Reader) : r.reset.pending = [] := rfl

/-- Bytes that arrive are pending behind those that are. -/
theorem Bounded.pending_feed (hr : r.Bounded) (x : Bytes) :
    (r.feed x).pending = r.pending ++ x := by
  have hline := Nat.le_trans hr.lineStart_le hr.scanned_le
  have hcontent : (r.feed x).input.content = r.input.content ++ x := hr.fits.content_append x
  rw [pending, hcontent]
  refine List.drop_append_of_le_length ?_
  rw [hr.fits.length_content]
  exact hline

/-- What has been searched stays searched when more arrives. -/
theorem Searching.feed (hr : r.Searching) (hx : r.input.used + x.length ≤ r.input.capacity) :
    (r.feed x).Searching := by
  refine ⟨hr.toBounded.feed hx, ?_⟩
  have hused := hr.length_pending
  have hscanned := hr.scanned_le
  have hsame : (r.pending ++ x).take (r.scanned - r.lineStart) =
      r.pending.take (r.scanned - r.lineStart) :=
    List.take_append_of_le_length (by omega)
  rw [hr.pending_feed]
  exact hsame ▸ hr.unbroken

/-! ## Looking for the end of the current line

A search that is taken up somewhere within the line finds its end as one from the start of the line
would. -/

/-- The reader that has found the end of the current line, which has `n` bytes. -/
def completed (r : Reader) (n : Nat) : Reader :=
  { r with input := r.input.overwrite (r.lineStart + n) [0, 0], scanned := r.lineStart + n + 2 }

/-- The reader that has looked in vain for the end of the current line, of which `n` bytes have
arrived. -/
def stopped (r : Reader) (n : Nat) : Reader := { r with scanned := r.lineStart + n }

/-- The search finds the end of the current line, wherever it stands in it. -/
theorem Searching.lineEnd?_eq (hr : r.Searching) (hpending : r.pending = line ++ tail)
    (hline : Unbroken line) (htail : Ending tail status) :
    r.lineEnd? = tail.head?.map fun _ => r.lineStart + line.length := by
  have hstart := hr.lineStart_le
  have hscanned := hr.scanned_le
  have hused := hr.length_pending
  have hle : r.scanned - r.lineStart ≤ line.length := by
    refine htail.le_length (n := r.scanned - r.lineStart) ?_ ?_
    · rw [← hpending]
      omega
    · rw [← hpending]
      exact hr.unbroken
  have hdrop : r.input.content.drop r.scanned = line.drop (r.scanned - r.lineStart) ++ tail := by
    rw [← List.drop_append_of_le_length hle, ← hpending, pending, List.drop_drop,
      Nat.add_sub_cancel' hstart]
  rw [lineEnd?, hdrop, htail.findIdx? (hline.subset (List.drop_subset ..)), List.length_drop]
  cases tail with
  | nil => rfl
  | cons b rest =>
    refine congrArg some ?_
    dsimp only
    omega

/-- What comes of looking for the end of the current line. -/
theorem Searching.scanLine_eq (hr : r.Searching) (hpending : r.pending = line ++ tail)
    (hline : Unbroken line) (htail : Ending tail status) :
    r.scanLine =
      (status, if status = .complete then r.completed line.length else r.stopped line.length) := by
  have hend := hr.lineEnd?_eq hpending hline htail
  have hbyte := fun i => hr.byteAt_pending hpending (i := i)
  have hused := hr.length_pending
  rw [hpending, List.length_append] at hused
  rw [Reader.scanLine_eq]
  cases htail with
  | nothing =>
    rw [hend]
    have hall : r.input.used = r.lineStart + line.length := by simpa using hused.symm
    rw [List.head?_nil, Option.map_none]
    dsimp only
    rw [hall]
    rfl
  | cut =>
    rw [hend]
    have hlast : r.lineStart + line.length + 1 = r.input.used := by
      simpa [Nat.add_assoc] using hused
    have hcr : r.input.byteAt (r.lineStart + line.length) = carriageReturn := hbyte 0 (by decide)
    rw [List.head?_cons, Option.map_some]
    dsimp only
    rw [judge, if_pos hcr, if_pos hlast]
    rfl
  | both =>
    rw [hend]
    have hcr : r.input.byteAt (r.lineStart + line.length) = carriageReturn :=
      hbyte 0 (Nat.zero_lt_succ _)
    have hlf : r.input.byteAt (r.lineStart + line.length + 1) = lineFeed :=
      hbyte 1 (Nat.succ_lt_succ (Nat.zero_lt_succ _))
    have hmore : r.lineStart + line.length + 1 ≠ r.input.used := by
      simp only [lineEnd, List.length_append, List.length_cons, List.length_nil] at hused
      omega
    rw [lineEnd, List.cons_append, List.head?_cons, Option.map_some]
    dsimp only
    rw [judge, if_pos hcr, if_neg hmore, if_pos hlf]
    rfl
  | @loneReturn b rest hb =>
    rw [hend]
    have hcr : r.input.byteAt (r.lineStart + line.length) = carriageReturn :=
      hbyte 0 (Nat.zero_lt_succ _)
    have hnext : r.input.byteAt (r.lineStart + line.length + 1) = b :=
      hbyte 1 (Nat.succ_lt_succ (Nat.zero_lt_succ _))
    have hmore : r.lineStart + line.length + 1 ≠ r.input.used := by
      simp only [List.length_cons] at hused
      omega
    rw [List.head?_cons, Option.map_some]
    dsimp only
    rw [judge, if_pos hcr, if_neg hmore, hnext, if_neg hb]
    rfl
  | loneFeed =>
    have hlf : r.input.byteAt (r.lineStart + line.length) = lineFeed := hbyte 0 (Nat.zero_lt_succ _)
    rw [List.head?_cons, Option.map_some] at hend
    -- a carriage return that has been searched already is never left behind
    have hbefore : ¬ (0 < r.lineStart + line.length ∧
        r.input.byteAt (r.lineStart + line.length - 1) = carriageReturn) :=
      fun h => hr.before_end hend h.1 h.2
    rw [hend]
    dsimp only
    rw [judge, hlf, if_neg (by decide), if_neg hbefore]
    rfl

/-- A search in vain has searched the line as far as it has arrived. A carriage return that comes
last is left out, as it may be the first half of an end. -/
theorem Searching.stopped (hr : r.Searching) (hpending : r.pending = line ++ tail)
    (hline : Unbroken line) (htail : Ending tail status) (hstatus : status ≠ .complete) :
    (r.stopped line.length).Searching := by
  have hscan := hr.scanLine_eq hpending hline htail
  rw [if_neg hstatus] at hscan
  have hbounded := hr.scanLine.1
  rw [hscan] at hbounded
  refine ⟨hbounded, ?_⟩
  have hsame : (r.stopped line.length).pending = r.pending := rfl
  have hn : (r.stopped line.length).scanned - (r.stopped line.length).lineStart = line.length :=
    Nat.add_sub_cancel_left ..
  rw [hsame, hn, hpending, List.take_left]
  exact hline

/-! ## Acting on the current line

The line is overwritten at its end, read, and left behind; the reader then stands at the bytes
behind it, and goes on in the same call. -/

/-- The reader that turns to the line behind the current one, which has `n` bytes and is
complete. -/
def onward (r : Reader) (n : Nat) : Reader :=
  { r.completed n with lineStart := r.lineStart + n + 2 }

/-- Acts on the current line, which has `n` bytes and is complete. -/
def pass (r : Reader) (n : Nat) : Outcome × Reader := (r.completed n).takeLine

/-- An empty line says nothing. -/
theorem fields_endHeaders (r : Reader) : r.endHeaders.2.fields = r.fields := by
  rw [endHeaders]
  split
  · rfl
  · dsimp only
    split <;> rfl

/-- The empty line moves no line, as the one behind it has been turned to before. -/
theorem lineStart_endHeaders (r : Reader) : r.endHeaders.2.lineStart = r.lineStart := by
  rw [endHeaders]
  split
  · rfl
  · dsimp only
    split <;> rfl

/-- A line is the request line or a header line. -/
theorem takeLine_eq (r : Reader) :
    r.takeLine =
      let text := r.input.slice r.currentLine
      let r' := { r with lineStart := r.scanned }
      if r.phase = .requestLine then
        (Line.parse? text).elim (.malformed, r') fun parts =>
          (.incomplete, r'.takeRequestLine r.currentLine.start parts)
      else if text.isEmpty then r'.endHeaders
      else
        (r'.takeHeader? r.currentLine.start (.parse text)).elim (.malformed, r') fun r'' =>
          (.incomplete, r'') := by
  unfold takeLine
  dsimp only
  split
  · next hphase =>
    rw [if_pos hphase]
    cases Line.parse? (r.input.slice r.currentLine) <;> rfl
  · next hphase =>
    have hphase' : r.phase ≠ .requestLine := hphase
    rw [if_neg hphase']
    split
    · rfl
    · split <;> (next htake => rw [htake]; rfl)

/-- Whatever is made of a line, the next one starts behind it. -/
theorem lineStart_takeLine (r : Reader) : r.takeLine.2.lineStart = r.scanned := by
  rw [takeLine_eq]
  dsimp only
  by_cases hphase : r.phase = .requestLine
  · rw [if_pos hphase]
    cases Line.parse? (r.input.slice r.currentLine) <;> rfl
  rw [if_neg hphase]
  by_cases hempty : (r.input.slice r.currentLine).isEmpty = true
  · rw [if_pos hempty, lineStart_endHeaders]
  · rw [if_neg hempty]
    cases htake : takeHeader? { r with lineStart := r.scanned } r.currentLine.start
        (.parse (r.input.slice r.currentLine)) with
    | none => rfl
    | some r' => exact (takeHeader?_lineStart htake).1

/-- In the same call a reader goes on as `q`, with `rest` before it. -/
structure GoesOnAs (r q : Reader) (rest : Bytes) : Prop where
  searching : q.Searching
  pending : q.pending = rest
  used : q.input.used = r.input.used
  advance : r.advance = q.advance

section Complete

variable (hr : r.Searching) (hpending : r.pending = line ++ (lineEnd ++ rest))
  (hline : Unbroken line)

include hr hpending

/-- The end of the current line lies within the bytes in use. -/
theorem Searching.end_le : r.lineStart + line.length + 2 + rest.length = r.input.used := by
  have hused := hr.length_pending
  rw [hpending, List.length_append, List.length_append] at hused
  have htwo : lineEnd.length = 2 := rfl
  omega

/-- What the buffer holds once the end of the current line has been overwritten. -/
theorem Searching.content_completed :
    (r.completed line.length).input.content =
      r.input.content.take r.lineStart ++ (line ++ ([0, 0] ++ rest)) := by
  have hend := hr.end_le hpending
  have hsplit : r.input.content =
      r.input.content.take r.lineStart ++ (line ++ (lineEnd ++ rest)) := by
    rw [← hpending, pending, List.take_append_drop]
  have htake : r.input.content.take (r.lineStart + line.length) =
      r.input.content.take r.lineStart ++ line := by
    nth_rewrite 1 [hsplit]
    rw [← List.append_assoc, List.take_left' (by rw [List.length_append, hr.length_before])]
  have hdrop : r.input.content.drop (r.lineStart + line.length + 2) = rest := by
    rw [hsplit, ← List.append_assoc, ← List.append_assoc]
    refine List.drop_left' ?_
    rw [List.length_append, List.length_append, hr.length_before]
    rfl
  have hover := hr.fits.content_overwrite (r.lineStart + line.length) [0, 0]
    (by rw [List.length_cons, List.length_singleton]; omega)
  rw [completed]
  dsimp only
  rw [hover, htake, List.length_cons, List.length_singleton, hdrop]
  simp only [List.append_assoc]

/-- Behind the current line and its end comes the rest. -/
theorem Searching.pending_onward : (r.onward line.length).pending = rest := by
  have hcontent : (r.onward line.length).input.content = _ := hr.content_completed hpending
  rw [pending, hcontent, ← List.append_assoc, ← List.append_assoc]
  refine List.drop_left' ?_
  rw [List.length_append, List.length_append, hr.length_before]
  rfl

/-- A window of the current line shows what it shows of the line, with zeros in place of the
end. -/
theorem Searching.slice_completed {w : Window} (hw : w.stop ≤ line.length + 2) :
    (r.completed line.length).input.slice (w.shift r.lineStart) =
      ((line ++ [0, 0]).drop w.start).take (w.stop - w.start) := by
  have hend := hr.end_le hpending
  have hused : r.lineStart + w.stop ≤ (r.completed line.length).input.used := by
    have hsame : (r.completed line.length).input.used = r.input.used := rfl
    omega
  have hlength : w.stop ≤ (line ++ [0, 0]).length := by
    rw [List.length_append]
    exact hw
  rw [Window.shift, Buffer.slice_eq_content hused, hr.content_completed hpending]
  dsimp only
  rw [← List.drop_drop, List.drop_left' hr.length_before, Nat.add_sub_add_left, ← List.append_assoc]
  rcases Nat.le_total w.start w.stop with hle | hge
  · rw [List.drop_append_of_le_length (Nat.le_trans hle hlength), List.take_append_of_le_length]
    rw [List.length_drop]
    exact Nat.sub_le_sub_right hlength _
  · rw [Nat.sub_eq_zero_of_le hge, List.take_zero, List.take_zero]

/-- A window of a part of the current line shows that part. -/
theorem Searching.slice_part {before part after : Bytes}
    (hparts : before ++ (part ++ after) = line) :
    (r.completed line.length).input.slice
      (Window.shift ⟨before.length, before.length + part.length⟩ r.lineStart) = part := by
  have hle : before.length + part.length ≤ line.length := by
    rw [← hparts, List.length_append, List.length_append]
    omega
  rw [hr.slice_completed hpending (Nat.le_trans hle (Nat.le_add_right _ 2)), ← hparts,
    List.append_assoc]
  dsimp only
  rw [List.drop_left, Nat.add_sub_cancel_left, List.append_assoc, List.take_left]

/-- The current line is taken from where it starts up to its first zero. If the client has sent
none, that is the first of those that overwrite its end. -/
theorem Searching.currentLine_completed :
    (r.completed line.length).currentLine = ⟨r.lineStart, r.lineStart + (visible line).length⟩ ∧
      (r.completed line.length).input.slice
        (r.completed line.length).currentLine = visible line := by
  -- the window from the start of the line on shows the line and then zeros
  have hslice : ∀ n ≤ line.length + 2,
      (r.completed line.length).input.slice ⟨r.lineStart, r.lineStart + n⟩ =
        (line ++ [0, 0]).take n := by
    intro n hn
    exact hr.slice_completed hpending (w := ⟨0, n⟩) hn
  have hwindow : (r.completed line.length).currentLine =
      ⟨r.lineStart, r.lineStart + (visible line).length⟩ := by
    have hall := hslice (line.length + 2) (Nat.le_refl _)
    rw [List.take_of_length_le (by rw [List.length_append]; exact Nat.le_refl _)] at hall
    have hcursors : (r.completed line.length).currentLine =
        ⟨r.lineStart, r.lineStart + ((r.completed line.length).input.slice
          ⟨r.lineStart, r.lineStart + (line.length + 2)⟩).idxOf 0⟩ := rfl
    rw [hcursors, hall, idxOf_zero]
  have hle := (prefix_visible line).length_le
  refine ⟨hwindow, ?_⟩
  rw [hwindow, hslice _ (by omega), List.take_append_of_le_length hle]
  exact (List.prefix_iff_eq_take.mp (prefix_visible line)).symm

/-- What is made of a line depends on what is seen of it. -/
theorem Searching.pass_eq :
    r.pass line.length =
      if r.phase = .requestLine then
        (Line.parse? (visible line)).elim (.malformed, r.onward line.length) fun parts =>
          (.incomplete, (r.onward line.length).takeRequestLine r.lineStart parts)
      else if visible line = [] then (r.onward line.length).endHeaders
      else
        ((r.onward line.length).takeHeader? r.lineStart (.parse (visible line))).elim
          (.malformed, r.onward line.length) fun r' => (.incomplete, r') := by
  obtain ⟨hwindow, htext⟩ := hr.currentLine_completed hpending
  have hstart : (r.completed line.length).currentLine.start = r.lineStart := by rw [hwindow]
  rw [pass, takeLine_eq, htext, hstart]
  simp only [List.isEmpty_iff]
  rfl

include hline

theorem Searching.scanLine_completed :
    r.scanLine = (.complete, r.completed line.length) := by
  rw [hr.scanLine_eq hpending hline .both, if_pos rfl]

/-- A call acts on the current line, and goes on unless that ends it. -/
theorem Searching.advance_pass (hphase : r.phase ≠ .body) :
    r.advance =
      if (r.pass line.length).1 = .incomplete then (r.pass line.length).2.advance
      else r.pass line.length := by
  rw [advance_scan hphase, hr.scanLine_completed hpending hline]
  rfl

/-- The reader that has turned to the next line has everything in place, and what stands before is
kept. -/
theorem Searching.onward :
    (r.onward line.length).Searching ∧ Kept r (r.onward line.length) := by
  obtain ⟨hbounded, hkept⟩ := hr.scanLine
  rw [hr.scanLine_completed hpending hline] at hbounded hkept
  have hstart : r.lineStart ≤ r.lineStart + line.length + 2 := by omega
  refine ⟨⟨{ hbounded with
    lineStart_le := Nat.le_refl _
    target := hbounded.target.mono hstart
    version := hbounded.version.mono hstart
    host := hbounded.host.mono hstart }, ?_⟩, ⟨hstart, hkept.memory⟩⟩
  have hnone : (r.onward line.length).scanned - (r.onward line.length).lineStart = 0 :=
    Nat.sub_self _
  rw [hnone, List.take_zero]
  exact unbroken_nil

/-- Once the current line has been acted on, reading goes on with what stands behind it, whether
the line was accepted or not. -/
theorem Searching.pass (hphase : r.phase ≠ .body) :
    (r.pass line.length).2.Searching ∧ Kept r (r.pass line.length).2 ∧
      (r.pass line.length).2.pending = rest := by
  obtain ⟨hbounded, hkept⟩ := hr.scanLine
  rw [hr.scanLine_completed hpending hline] at hbounded hkept
  obtain ⟨hbounded', hkept'⟩ := hbounded.takeLine hphase
  obtain ⟨hinput, hscanned⟩ := takeLine_cursor (r.completed line.length)
  have hstart := lineStart_takeLine (r.completed line.length)
  refine ⟨⟨hbounded', ?_⟩, hkept.trans hkept', ?_⟩
  · have hnone : (r.pass line.length).2.scanned - (r.pass line.length).2.lineStart = 0 := by
      rw [Reader.pass, hscanned, hstart, Nat.sub_self]
    rw [hnone, List.take_zero]
    exact unbroken_nil
  · rw [← hr.pending_onward hpending, pending, Reader.pass, hinput, hstart]
    rfl

/-- A reader that reading goes on with behind the current line. -/
theorem Searching.goesOnAs {q : Reader} (hphase : r.phase ≠ .body)
    (hpass : r.pass line.length = (.incomplete, q)) : r.GoesOnAs q rest := by
  obtain ⟨hsearching, -, hrest⟩ := hr.pass hpending hline hphase
  have hadvance := hr.advance_pass hpending hline hphase
  have hused : (r.pass line.length).2.input.used = r.input.used := by
    rw [Reader.pass, (takeLine_cursor _).1]
    rfl
  rw [hpass] at hsearching hrest hadvance hused
  exact ⟨hsearching, hrest, hused, hadvance⟩

end Complete

theorem GoesOnAs.trans {q q' : Reader} {rest' : Bytes} (h : r.GoesOnAs q rest)
    (h' : q.GoesOnAs q' rest') : r.GoesOnAs q' rest' :=
  ⟨h'.searching, h'.pending, h'.used.trans h.used, h.advance.trans h'.advance⟩

end Reader

end Request

end FileServer
