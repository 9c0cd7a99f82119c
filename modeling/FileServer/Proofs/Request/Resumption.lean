import FileServer.Request.Reader
import FileServer.Proofs.Buffer
import Mathlib.Data.Option.Basic

/-!
# Resuming a request

A reader that has stopped for want of bytes goes on, once more have been added, exactly as it would
have gone had they been there from the start; and a reader that has come to its final outcome comes
to the same one with more bytes behind (`Reader.advance_feed`).

The search for the end of a line depends on its cursor only through what it finds from there on.
That is why it may be taken up at any point before which there is none: at the end of the bytes
searched, or at a carriage return whose line feed has not arrived. Everything else that a reader
looks at lies below the cursors (`Reader.InOrder`), where adding bytes changes nothing.

The proof goes from the search for one line to the whole. `Reader.scanLine` is taken apart into the
search for a byte that may end a line (`Reader.lineEnd?`) and what is made of it (`Reader.judge`);
the first is taken up where it stopped (`Reader.InOrder.scanLine_resume`), and the second is the
same once it has come to anything (`Reader.InOrder.judge_feed`). A line that has been completed is
taken from bytes that no longer change (`Reader.InOrder.takeLine_feed`), and from there on the
induction is that of `Reader.advance` itself.
-/

namespace FileServer.Request

/-! ## The texts of a line -/

/-- What the parser of request lines checks, and in what order. -/
theorem Line.parse?_eq_some {line : Bytes} {parts : Line} :
    Line.parse? line = some parts ↔
      let start := line.dropBlanks
      let target := start.afterWord.dropBlanks
      let version := target.afterWord.dropBlanks
      start.firstWord.sameLetters Method.get.name ∧ (target.firstWord ≠ [] ∧ version ≠ []) ∧
        version.sameLetters Request.version ∧
        ∃ offset, pathOffset? target.firstWord = some offset ∧
          (target.firstWord.drop offset).head? = some slash ∧
          { target := ⟨line.length - target.length + offset,
              line.length - target.length + target.firstWord.length⟩
            version := ⟨line.length - version.length, line.length⟩ } = parts := by
  simp [Line.parse?, Option.bind_eq_some_iff, Option.guard_eq_some', and_assoc]

/-- What a request line is taken apart into ends where the line does, or before. -/
theorem Line.parse?_within {line : Bytes} {parts : Line} (h : Line.parse? line = some parts) :
    parts.target.stop ≤ line.length ∧ parts.version.stop ≤ line.length := by
  obtain ⟨-, -, -, offset, -, -, rfl⟩ := Line.parse?_eq_some.mp h
  have hsuffix : line.dropBlanks.afterWord.dropBlanks.length ≤ line.length :=
    ((List.dropWhile_suffix _).trans ((List.dropWhile_suffix _).trans
      (List.dropWhile_suffix _))).length_le
  have hword : line.dropBlanks.afterWord.dropBlanks.firstWord.length ≤
      line.dropBlanks.afterWord.dropBlanks.length := (List.takeWhile_prefix _).length_le
  refine ⟨?_, Nat.le_refl _⟩
  dsimp only
  omega

/-- The value of a `Host` line goes to the end of the line. -/
theorem Header.parse_eq_host {line : Bytes} {value : Window} (h : Header.parse line = .host value) :
    ∃ n, value = ⟨line.length - n, line.length⟩ := by
  rw [Header.parse] at h
  split at h
  · dsimp only at h
    split at h
    · cases h
    · split at h
      · cases h
      · split at h
        · cases h
          exact ⟨_, rfl⟩
        · cases h
  · cases h

namespace Reader

variable {r r' : Reader} {o : Outcome} {x : Bytes}

/-- The reader with more bytes in its buffer. -/
def feed (r : Reader) (x : Bytes) : Reader := { r with input := r.input.append x }

/-- The line being read starts before the place up to which it has been searched, and all of it is
in use. -/
structure InOrder (r : Reader) : Prop where
  lineStart_le : r.lineStart ≤ r.scanned
  scanned_le : r.scanned ≤ r.input.used
  fits : r.input.Fits

/-- Nothing has been added to the buffer, and its size is the same. -/
structure SameRoom (r r' : Reader) : Prop where
  used : r'.input.used = r.input.used
  capacity : r'.input.capacity = r.input.capacity

theorem SameRoom.refl (r : Reader) : SameRoom r r := ⟨rfl, rfl⟩

theorem SameRoom.trans {r r' r'' : Reader} (h : SameRoom r r') (h' : SameRoom r' r'') :
    SameRoom r r'' := ⟨h'.used.trans h.used, h'.capacity.trans h.capacity⟩

theorem InOrder.feed_feed (hr : r.InOrder) (x y : Bytes) : (r.feed x).feed y = r.feed (x ++ y) := by
  rw [feed, feed, feed, hr.fits.append_append]

theorem InOrder.feed_nil (hr : r.InOrder) : r.feed [] = r := by
  rw [feed, hr.fits.append_nil]

theorem inOrder_reset (r : Reader) : r.reset.InOrder :=
  ⟨Nat.le_refl _, Nat.zero_le _, Buffer.fits_clear _⟩

/-! ## Finding the end of a line

The search and what is made of its result, taken apart. The search does not look at what lies before
its cursor, and what is made of a byte depends on its neighbours alone. -/

/-- Where the first byte stands, from the cursor on, that may end a line. -/
def lineEnd? (r : Reader) : Option Nat :=
  ((r.input.content.drop r.scanned).findIdx? isLineEnd).map (r.scanned + ·)

/-- What is made of a byte that may end a line, which is the part of `scanLine` that does not
search. -/
def judge (r : Reader) (pos : Nat) : LineStatus × Reader :=
  if r.input.byteAt pos = carriageReturn then
    if pos + 1 = r.input.used then (.incomplete, { r with scanned := pos })
    else if r.input.byteAt (pos + 1) = lineFeed then
      (.complete, { r with input := r.input.overwrite pos [0, 0], scanned := pos + 2 })
    else (.malformed, { r with scanned := pos })
  else if 0 < pos ∧ r.input.byteAt (pos - 1) = carriageReturn then
    (.complete, { r with input := r.input.overwrite (pos - 1) [0, 0], scanned := pos + 1 })
  else (.malformed, { r with scanned := pos })

/-- The search finds a byte and judges it; where it stood before does not matter any more. -/
theorem scanLine_eq (r : Reader) :
    r.scanLine = match r.lineEnd? with
      | none => (.incomplete, { r with scanned := r.input.used })
      | some pos => r.judge pos := by
  simp only [scanLine, lineEnd?]
  rw [Buffer.slice_used]
  cases (r.input.content.drop r.scanned).findIdx? isLineEnd with
  | none => rfl
  | some offset => rfl

/-- What is found stands among the bytes in use, at the cursor or behind it. -/
theorem lineEnd?_eq_some {pos : Nat} (h : r.lineEnd? = some pos) :
    r.scanned ≤ pos ∧ pos < r.input.used := by
  obtain ⟨offset, hfound, rfl⟩ := Option.map_eq_some_iff.mp h
  have hlt := (List.findIdx?_eq_some_iff_getElem.mp hfound).1
  rw [List.length_drop, Buffer.content, List.length_take] at hlt
  omega

/-- A search that starts at the place it has found before finds it again. -/
theorem lineEnd?_again {pos : Nat} (h : r.lineEnd? = some pos) :
    Reader.lineEnd? { r with scanned := pos } = some pos := by
  obtain ⟨offset, hfound, rfl⟩ := Option.map_eq_some_iff.mp h
  obtain ⟨hlt, hends, -⟩ := List.findIdx?_eq_some_iff_getElem.mp hfound
  have hdrop : r.input.content.drop (r.scanned + offset) =
      (r.input.content.drop r.scanned)[offset] ::
        (r.input.content.drop r.scanned).drop (offset + 1) := by
    rw [← List.drop_drop, List.drop_eq_getElem_cons hlt]
  rw [lineEnd?]
  dsimp only
  rw [hdrop, List.findIdx?_cons, if_pos hends]
  rfl

/-- With more bytes behind, an end that has been found stays the first one, and otherwise the first
one is the first among the new bytes. -/
theorem InOrder.lineEnd?_feed (hr : r.InOrder) (x : Bytes) :
    (r.feed x).lineEnd? = r.lineEnd?.or ((x.findIdx? isLineEnd).map (r.input.used + ·)) := by
  have hle := hr.scanned_le
  have hcontent : (r.feed x).input.content.drop r.scanned =
      r.input.content.drop r.scanned ++ x := by
    rw [feed, hr.fits.content_append, List.drop_append_of_le_length]
    rwa [hr.fits.length_content]
  have hlength : (r.input.content.drop r.scanned).length = r.input.used - r.scanned := by
    rw [List.length_drop, hr.fits.length_content]
  have hscanned : (r.feed x).scanned = r.scanned := rfl
  rw [lineEnd?, hscanned, hcontent, List.findIdx?_append, hlength, lineEnd?]
  cases (r.input.content.drop r.scanned).findIdx? isLineEnd with
  | some offset => rfl
  | none =>
    cases x.findIdx? isLineEnd with
    | none => rfl
    | some offset =>
      simp only [Option.map_none, Option.none_or, Option.map_some, Option.some.injEq]
      omega

/-- A byte that has been judged for good is judged the same with more bytes behind. Only a
carriage return that is the last byte is not judged for good: what it is depends on the next
one. -/
theorem InOrder.judge_feed (hr : r.InOrder) {pos : Nat} (hpos : pos < r.input.used) (x : Bytes)
    (hdone : (r.judge pos).1 ≠ .incomplete) :
    (r.feed x).judge pos = ((r.judge pos).1, (r.judge pos).2.feed x) := by
  have hbyte : ∀ i ≤ pos, (r.input.append x).byteAt i = r.input.byteAt i :=
    fun i hi => hr.fits.byteAt_append (Nat.lt_of_le_of_lt hi hpos) x
  have hcr : (r.feed x).input.byteAt pos = r.input.byteAt pos := hbyte pos (Nat.le_refl _)
  have hprev : (r.feed x).input.byteAt (pos - 1) = r.input.byteAt (pos - 1) :=
    hbyte (pos - 1) (Nat.sub_le ..)
  by_cases h₁ : r.input.byteAt pos = carriageReturn
  -- an outcome was reached, so the byte behind the carriage return had already arrived
  · have hnext : pos + 1 ≠ r.input.used := by
      intro hlast
      simp [judge, h₁, hlast] at hdone
    have hnext' : pos + 1 ≠ (r.feed x).input.used := by
      rw [feed, Buffer.used_append]
      omega
    have hlf : (r.feed x).input.byteAt (pos + 1) = r.input.byteAt (pos + 1) :=
      hr.fits.byteAt_append (by omega) x
    by_cases h₂ : r.input.byteAt (pos + 1) = lineFeed
    · have hover : (r.input.append x).overwrite pos [0, 0] =
          (r.input.overwrite pos [0, 0]).append x :=
        hr.fits.overwrite_append (by rw [List.length_cons, List.length_singleton]; omega) x
      simp only [judge, hcr, h₁, hnext, hnext', hlf, h₂, if_true, if_false]
      rw [feed, hover]
      rfl
    · simp only [judge, hcr, h₁, hnext, hnext', hlf, h₂, if_true, if_false]
      rfl
  · by_cases h₂ : 0 < pos ∧ r.input.byteAt (pos - 1) = carriageReturn
    · have hover : (r.input.append x).overwrite (pos - 1) [0, 0] =
          (r.input.overwrite (pos - 1) [0, 0]).append x :=
        hr.fits.overwrite_append (by rw [List.length_cons, List.length_singleton]; omega) x
      simp only [judge, hcr, h₁, hprev, h₂, if_true, if_false, and_self]
      rw [feed, hover]
      rfl
    · simp only [judge, hcr, h₁, hprev, h₂, if_false]
      rfl

/-- To look for the end of a line says nothing about the request. -/
theorem judge_says_nothing (r : Reader) (pos : Nat) :
    (r.judge pos).2.phase = r.phase ∧ (r.judge pos).2.fields = r.fields := by
  simp only [judge]
  split
  · split
    · exact ⟨rfl, rfl⟩
    · split <;> exact ⟨rfl, rfl⟩
  · split <;> exact ⟨rfl, rfl⟩

/-- What the judgement of a byte makes of the reader: it moves the cursor on, to a place in use. -/
theorem InOrder.judge (hr : r.InOrder) {pos : Nat} (hscanned : r.scanned ≤ pos)
    (hpos : pos < r.input.used) :
    (r.judge pos).2.InOrder ∧ SameRoom r (r.judge pos).2 := by
  have hline := hr.lineStart_le
  have hover : ∀ i, i + 2 ≤ r.input.used → (r.input.overwrite i [0, 0]).Fits ∧
      (r.input.overwrite i [0, 0]).capacity = r.input.capacity :=
    fun i hi => ⟨hr.fits.overwrite hi, Buffer.capacity_overwrite (Nat.le_trans hi hr.fits)⟩
  have hstay : ({ r with scanned := pos } : Reader).InOrder :=
    ⟨Nat.le_trans hline hscanned, Nat.le_of_lt hpos, hr.fits⟩
  simp only [Reader.judge]
  split
  · split
    · exact ⟨hstay, ⟨rfl, rfl⟩⟩
    · split
      · obtain ⟨hfits, hcap⟩ := hover pos (by omega)
        exact ⟨⟨by dsimp only; omega, by dsimp only [Buffer.used_overwrite]; omega, hfits⟩,
          ⟨rfl, hcap⟩⟩
      · exact ⟨hstay, ⟨rfl, rfl⟩⟩
  · split
    · obtain ⟨hfits, hcap⟩ := hover (pos - 1) (by omega)
      exact ⟨⟨by dsimp only; omega, by dsimp only [Buffer.used_overwrite]; omega, hfits⟩,
        ⟨rfl, hcap⟩⟩
    · exact ⟨hstay, ⟨rfl, rfl⟩⟩

/-! ## Scanning

The two put together again: a scan that has come to something comes to the same with more bytes, and
one that waits can be taken up again. -/

/-- A search leaves everything in order, and adds nothing. -/
theorem InOrder.scanLine (hr : r.InOrder) :
    r.scanLine.2.InOrder ∧ SameRoom r r.scanLine.2 := by
  rw [scanLine_eq]
  cases hend : r.lineEnd? with
  | none =>
    exact ⟨⟨Nat.le_trans hr.lineStart_le hr.scanned_le, Nat.le_refl _, hr.fits⟩, ⟨rfl, rfl⟩⟩
  | some pos =>
    obtain ⟨hscanned, hpos⟩ := lineEnd?_eq_some hend
    exact hr.judge hscanned hpos

/-- The search for the end of a line says nothing about the request. -/
theorem scanLine_says_nothing (r : Reader) :
    r.scanLine.2.phase = r.phase ∧ r.scanLine.2.fields = r.fields := by
  rw [scanLine_eq]
  cases r.lineEnd? with
  | none => exact ⟨rfl, rfl⟩
  | some pos => exact judge_says_nothing r pos

/-- A search that has come to a result comes to the same one with more bytes behind. -/
theorem InOrder.scanLine_feed (hr : r.InOrder) (x : Bytes) (hdone : r.scanLine.1 ≠ .incomplete) :
    (r.feed x).scanLine = (r.scanLine.1, r.scanLine.2.feed x) := by
  rw [scanLine_eq] at hdone
  rw [scanLine_eq, scanLine_eq, hr.lineEnd?_feed]
  cases hend : r.lineEnd? with
  | none =>
    rw [hend] at hdone
    exact absurd rfl hdone
  | some pos =>
    rw [hend] at hdone
    exact hr.judge_feed (lineEnd?_eq_some hend).2 x hdone

/-- A search that has to wait goes on, with more bytes behind, as if it started again. It has left
its cursor where nothing that could end a line has been passed. -/
theorem InOrder.scanLine_resume (hr : r.InOrder) (x : Bytes) (hwait : r.scanLine.1 = .incomplete) :
    (r.scanLine.2.feed x).scanLine = (r.feed x).scanLine := by
  have hwaiting := hr.scanLine.1
  rw [scanLine_eq] at hwait hwaiting ⊢
  rw [scanLine_eq, scanLine_eq, hr.lineEnd?_feed]
  cases hend : r.lineEnd? with
  | none =>
    -- nothing was found, so the search goes on behind all that was there
    rw [hend] at hwaiting
    have hnone : Reader.lineEnd? { r with scanned := r.input.used } = none := by
      rw [lineEnd?]
      dsimp only
      rw [List.drop_eq_nil_of_le (Nat.le_of_eq hr.fits.length_content)]
      rfl
    dsimp only at hwaiting ⊢
    rw [hwaiting.lineEnd?_feed, hnone]
    cases x.findIdx? isLineEnd with
    | none => rfl
    | some offset => rfl
  | some pos =>
    obtain ⟨hscanned, hpos⟩ := lineEnd?_eq_some hend
    rw [hend] at hwait hwaiting
    dsimp only at hwait hwaiting ⊢
    -- only a carriage return at the very end makes the search wait
    have hjudge : r.judge pos = (.incomplete, { r with scanned := pos }) := by
      simp only [Reader.judge] at hwait ⊢
      split at hwait
      · split at hwait
        · rename_i h₁ h₂
          rw [if_pos h₁, if_pos h₂]
        · split at hwait
          · cases hwait
          · cases hwait
      · split at hwait
        · cases hwait
        · cases hwait
    rw [hjudge] at hwaiting ⊢
    have hsame : Reader.lineEnd? { r with scanned := pos } = some pos := lineEnd?_again hend
    dsimp only at hwaiting ⊢
    rw [hwaiting.lineEnd?_feed, hsame]
    rfl

/-! ## Acting on a line

A line that is complete lies among the bytes in use, with its end, so what is read there is the same
whatever is added behind. -/

/-- The texts found so far stand among the bytes in use. -/
structure Framed (r : Reader) : Prop extends r.InOrder where
  target_le : r.fields.target.stop ≤ r.input.used
  version_le : r.fields.version.stop ≤ r.input.used
  host_le : r.fields.host.stop ≤ r.input.used

theorem framed_reset (r : Reader) : r.reset.Framed :=
  ⟨inOrder_reset r, Nat.le_refl _, Nat.le_refl _, Nat.le_refl _⟩

/-- The texts found so far stay where they are when bytes are put behind them. -/
theorem Framed.feed (hr : r.Framed) (hx : r.input.used + x.length ≤ r.input.capacity) :
    (r.feed x).Framed := by
  have hmore : ∀ {n : Nat}, n ≤ r.input.used → n ≤ (r.feed x).input.used :=
    fun h => Nat.le_trans h (Nat.le_add_right ..)
  exact ⟨⟨hr.lineStart_le, hmore hr.scanned_le, Buffer.fits_append hx⟩, hmore hr.target_le,
    hmore hr.version_le, hmore hr.host_le⟩

/-- The texts found so far stay where they are when the end of the next line is overwritten. -/
theorem Framed.scanLine (hr : r.Framed) : r.scanLine.2.Framed := by
  obtain ⟨horder, hroom⟩ := hr.toInOrder.scanLine
  obtain ⟨-, hfields⟩ := scanLine_says_nothing r
  refine ⟨horder, ?_, ?_, ?_⟩
  · rw [hfields, hroom.used]
    exact hr.target_le
  · rw [hfields, hroom.used]
    exact hr.version_le
  · rw [hfields, hroom.used]
    exact hr.host_le

/-- The texts that have been found do not change when more bytes come. -/
theorem Framed.texts_feed (hr : r.Framed) (x : Bytes) :
    (r.feed x).target = r.target ∧ (r.feed x).version = r.version ∧ (r.feed x).host = r.host := by
  have htext : ∀ w : Window, w.stop ≤ r.input.used → (r.feed x).textAt w = r.textAt w := by
    intro w hw
    rw [textAt, textAt]
    exact congrArg (fun bytes => (Bytes.text? bytes).getD "") (hr.fits.slice_append hw x)
  exact ⟨htext _ hr.target_le, htext _ hr.version_le, htext _ hr.host_le⟩

/-- The line just completed lies before the place up to which has been searched. -/
theorem InOrder.currentLine_le (hr : r.InOrder) :
    r.currentLine.start = r.lineStart ∧ r.currentLine.stop ≤ r.scanned := by
  refine ⟨rfl, ?_⟩
  have hzero := List.idxOf_le_length (a := 0) (l := r.input.slice ⟨r.lineStart, r.scanned⟩)
  have hslice := r.input.length_slice_le ⟨r.lineStart, r.scanned⟩
  have hle := hr.lineStart_le
  rw [currentLine]
  dsimp only at hslice ⊢
  omega

/-- The texts of a completed line stand among the bytes in use. -/
theorem InOrder.windows_le (hr : r.InOrder) {n : Nat}
    (hn : n ≤ (r.input.slice r.currentLine).length) : r.currentLine.start + n ≤ r.input.used := by
  obtain ⟨hstart, hstop⟩ := hr.currentLine_le
  have hline := hr.lineStart_le
  have hscanned := hr.scanned_le
  have hslice := r.input.length_slice_le r.currentLine
  omega

theorem takeLine_sameRoom (r : Reader) : SameRoom r r.takeLine.2 := by
  have hinput := (takeLine_cursor r).1
  exact ⟨congrArg Buffer.used hinput, congrArg Buffer.capacity hinput⟩

/-- Acting on a line leaves everything in order. -/
theorem Framed.takeLine (hr : r.Framed) : r.takeLine.2.Framed := by
  have hwindows := fun n => hr.windows_le (n := n)
  have hin : ({ r with lineStart := r.scanned } : Reader).InOrder :=
    ⟨Nat.le_refl _, hr.scanned_le, hr.fits⟩
  -- taking the line moves the cursor; the windows may change with what the line says
  have hstay : ({ r with lineStart := r.scanned } : Reader).Framed :=
    ⟨hin, hr.target_le, hr.version_le, hr.host_le⟩
  rw [Reader.takeLine]
  dsimp only
  split
  · split
    · exact hstay
    · rename_i parts hparts
      obtain ⟨htarget, hversion⟩ := Line.parse?_within hparts
      exact ⟨⟨hin.1, hin.2, hin.3⟩, hwindows _ htarget, hwindows _ hversion, hr.host_le⟩
  · split
    · rw [endHeaders]
      split
      · exact hstay
      · dsimp only
        split
        · exact ⟨⟨hin.1, hin.2, hin.3⟩, hr.target_le, hr.version_le, hr.host_le⟩
        · exact ⟨⟨hin.1, hin.2, hin.3⟩, hr.target_le, hr.version_le, hr.host_le⟩
    · cases hheader : Header.parse (r.input.slice r.currentLine) with
      | connection keep =>
        exact ⟨⟨hin.1, hin.2, hin.3⟩, hr.target_le, hr.version_le, hr.host_le⟩
      | contentLength value =>
        cases value with
        | none => exact hstay
        | some n =>
          rw [takeHeader?]
          dsimp only
          by_cases hn : n ≤ inputCapacity
          · rw [if_pos hn]
            exact ⟨⟨hin.1, hin.2, hin.3⟩, hr.target_le, hr.version_le, hr.host_le⟩
          · rw [if_neg hn]
            exact hstay
      | host value =>
        obtain ⟨_, rfl⟩ := Header.parse_eq_host hheader
        exact ⟨⟨hin.1, hin.2, hin.3⟩, hr.target_le, hr.version_le, hwindows _ (Nat.le_refl _)⟩
      | other => exact hstay

/-- The reader over another buffer. -/
def withInput (r : Reader) (b : Buffer) : Reader := { r with input := b }

/-- What an empty line comes to is decided by where it stands and by the length that has been
announced, not by what is in the buffer. -/
theorem endHeaders_withInput (r : Reader) (b : Buffer) :
    (r.withInput b).endHeaders = (r.endHeaders.1, r.endHeaders.2.withInput b) := by
  unfold endHeaders withInput
  dsimp only
  by_cases hnone : r.fields.contentLength = 0
  · rw [if_pos hnone, if_pos hnone]
  · rw [if_neg hnone, if_neg hnone]
    by_cases hfits : r.scanned + r.fields.contentLength ≤ inputCapacity
    · rw [if_pos hfits, if_pos hfits]
    · rw [if_neg hfits, if_neg hfits]

/-- Taking in a header line does not look into the buffer at all; that has been done by the
parser. -/
theorem takeHeader?_withInput (r : Reader) (start : Nat) (header : Header) (b : Buffer) :
    (r.withInput b).takeHeader? start header = (r.takeHeader? start header).map
      (·.withInput b) := by
  cases header with
  | connection keep => rfl
  | contentLength value =>
    cases value with
    | none => rfl
    | some n =>
      by_cases hn : n ≤ inputCapacity
      · simp only [takeHeader?, if_pos hn]
        rfl
      · simp only [takeHeader?, if_neg hn]
        rfl
  | host value => rfl
  | other => rfl

/-- What is made of a line depends on nothing but the bytes in use. -/
theorem InOrder.takeLine_withInput (hr : r.InOrder) {b : Buffer}
    (hb : ∀ w : Window, w.stop ≤ r.input.used → b.slice w = r.input.slice w) :
    (r.withInput b).takeLine = (r.takeLine.1, r.takeLine.2.withInput b) := by
  have hline : (r.withInput b).currentLine = r.currentLine := by
    have hslice : b.slice ⟨r.lineStart, r.scanned⟩ = r.input.slice ⟨r.lineStart, r.scanned⟩ :=
      hb _ hr.scanned_le
    simp only [currentLine]
    rw [← hslice]
    rfl
  have htext : (r.withInput b).input.slice r.currentLine = r.input.slice r.currentLine :=
    hb _ (Nat.le_trans hr.currentLine_le.2 hr.scanned_le)
  have hphase : (r.withInput b).phase = r.phase := rfl
  unfold Reader.takeLine
  dsimp only
  rw [hline, htext, hphase]
  split
  · cases Line.parse? (r.input.slice r.currentLine) with
    | none => rfl
    | some parts => rfl
  · split
    · exact endHeaders_withInput { r with lineStart := r.scanned } b
    · have hheader := takeHeader?_withInput { r with lineStart := r.scanned } r.currentLine.start
        (Header.parse (r.input.slice r.currentLine)) b
      rw [Reader.withInput] at hheader ⊢
      dsimp only at hheader ⊢
      rw [hheader]
      cases takeHeader? { r with lineStart := r.scanned } r.currentLine.start
          (Header.parse (r.input.slice r.currentLine)) with
      | none => rfl
      | some r' => rfl

/-- What is made of a line does not depend on the bytes behind it. -/
theorem InOrder.takeLine_feed (hr : r.InOrder) (x : Bytes) :
    (r.feed x).takeLine = (r.takeLine.1, r.takeLine.2.feed x) := by
  have hfeed : r.takeLine.2.feed x = r.takeLine.2.withInput (r.input.append x) := by
    rw [feed, withInput, (takeLine_cursor r).1]
  rw [hfeed]
  exact hr.takeLine_withInput fun _ hw => hr.fits.slice_append hw x

/-! ## Reading on

By induction along the recursion of `advance`, with one case for each way in which a round may
end. -/

/-- One round of `advance`: a body is waited for, and otherwise a line is looked for and acted
on. -/
theorem advance_eq (r : Reader) :
    r.advance =
      if r.phase = .body then
        (if r.bodyStart + r.fields.contentLength ≤ r.input.used then .complete else .incomplete, r)
      else
        match r.scanLine with
        | (.malformed, r') => (.malformed, r')
        | (.incomplete, r') => (.incomplete, r')
        | (.complete, r') =>
          if r'.takeLine.1 = .incomplete then r'.takeLine.2.advance else r'.takeLine := by
  rw [advance]
  split
  · rfl
  · split
    · rename_i h
      rw [h]
    · rename_i h
      rw [h]
    · rename_i h
      rw [h]
      dsimp only
      split
      · rename_i h'
        rw [h']
        rfl
      · rename_i hne h'
        rw [h', if_neg hne]

/-- A round that looks for a line goes by what `scanLine` finds. -/
theorem advance_scan (h : r.phase ≠ .body) :
    r.advance = match r.scanLine with
      | (.malformed, r') => (.malformed, r')
      | (.incomplete, r') => (.incomplete, r')
      | (.complete, r') =>
        if r'.takeLine.1 = .incomplete then r'.takeLine.2.advance else r'.takeLine := by
  rw [advance_eq, if_neg h]

/-- Reading on leaves everything in order, and adds nothing. -/
theorem Framed.advance (hr : r.Framed) : r.advance.2.Framed ∧ SameRoom r r.advance.2 := by
  induction r using Reader.advance.induct with
  | case1 r hbody =>
    rw [advance_eq, if_pos hbody]
    exact ⟨hr, SameRoom.refl r⟩
  | case2 r hline r' hmal =>
    have hr' := hr.scanLine
    have hroom := hr.toInOrder.scanLine.2
    rw [hmal] at hr' hroom
    rw [advance_scan hline, hmal]
    exact ⟨hr', hroom⟩
  | case3 r hline r' hwait =>
    have hr' := hr.scanLine
    have hroom := hr.toInOrder.scanLine.2
    rw [hwait] at hr' hroom
    rw [advance_scan hline, hwait]
    exact ⟨hr', hroom⟩
  | case4 r hline r' hdone r'' hmore ih =>
    have hr' := hr.scanLine
    have hroom := hr.toInOrder.scanLine.2
    rw [hdone] at hr' hroom
    have hr'' := hr'.takeLine
    have hroom' := takeLine_sameRoom r'
    rw [hmore] at hr'' hroom'
    rw [advance_scan hline, hdone]
    dsimp only at hroom ⊢
    rw [if_pos (by rw [hmore]), hmore]
    obtain ⟨hframed, hroom''⟩ := ih hr''
    exact ⟨hframed, hroom.trans (hroom'.trans hroom'')⟩
  | case5 r hline r' hdone o r'' hne hstop =>
    have hr' := hr.scanLine
    have hroom := hr.toInOrder.scanLine.2
    rw [hdone] at hr' hroom
    have hr'' := hr'.takeLine
    have hroom' := takeLine_sameRoom r'
    rw [hstop] at hr'' hroom'
    rw [advance_scan hline, hdone]
    dsimp only at hroom ⊢
    rw [if_neg (by rw [hstop]; exact hne), hstop]
    exact ⟨hr'', hroom.trans hroom'⟩

/-- **Reading can be resumed.** A reader that waits goes on, with more bytes behind, as if they
had been there from the start, and one that has come to an outcome comes to the same one. The
induction follows the loop of `advance`; a round that stops is resumed by the lemmas on a search
and on a line, and any other is the same with more bytes behind. -/
theorem Framed.advance_feed (hr : r.Framed) (x : Bytes) :
    (r.feed x).advance =
      if r.advance.1 = .incomplete then (r.advance.2.feed x).advance
      else (r.advance.1, r.advance.2.feed x) := by
  induction r using advance.induct with
  -- a body is waited for: all that counts is how much there is
  | case1 r hbody =>
    have hbody' : (r.feed x).phase = .body := hbody
    rw [advance_eq r, if_pos hbody]
    by_cases hall : r.bodyStart + r.fields.contentLength ≤ r.input.used
    · have hall' : (r.feed x).bodyStart + (r.feed x).fields.contentLength ≤ (r.feed x).input.used :=
        Nat.le_trans hall (Nat.le_add_right ..)
      rw [advance_eq, if_pos hbody', if_pos hall', if_pos hall]
      rfl
    · rw [if_neg hall]
      rfl
  -- one of the two bytes of a line end stands alone, which more bytes do not mend
  | case2 r hline r' hmal =>
    have hmal' := hr.toInOrder.scanLine_feed x (by rw [hmal]; exact LineStatus.noConfusion)
    rw [hmal] at hmal'
    rw [advance_scan hline, advance_scan (show (r.feed x).phase ≠ .body from hline), hmal, hmal']
    rfl
  -- the search waits for more and is taken up where it stopped
  | case3 r hline r' hwait =>
    have hphase : r'.phase ≠ .body := by
      have hsame := (scanLine_says_nothing r).1
      rw [hwait] at hsame
      rw [hsame]
      exact hline
    have hresume := hr.toInOrder.scanLine_resume x (by rw [hwait])
    rw [hwait] at hresume
    have hwaits : r.advance = (.incomplete, r') := by
      rw [advance_scan hline, hwait]
    rw [hwaits, advance_scan (show (r.feed x).phase ≠ .body from hline),
      advance_scan (show (r'.feed x).phase ≠ .body from hphase), hresume]
    rfl
  -- the line is taken and the reading goes on behind it
  | case4 r hline r' hdone r'' hmore ih =>
    have hdone' := hr.toInOrder.scanLine_feed x (by rw [hdone]; exact LineStatus.noConfusion)
    have hr' := hr.scanLine
    rw [hdone] at hdone' hr'
    have hmore' := hr'.toInOrder.takeLine_feed x
    have hr'' := hr'.takeLine
    rw [hmore] at hmore' hr''
    have hgoes : r.advance = r''.advance := by
      rw [advance_scan hline, hdone]
      dsimp only
      rw [if_pos (by rw [hmore]), hmore]
    have hgoes' : (r.feed x).advance = (r''.feed x).advance := by
      rw [advance_scan (show (r.feed x).phase ≠ .body from hline), hdone']
      dsimp only
      rw [if_pos (by rw [hmore']), hmore']
    rw [hgoes, hgoes']
    exact ih hr''
  -- the line settles the outcome
  | case5 r hline r' hdone o r'' hne hstop =>
    have hdone' := hr.toInOrder.scanLine_feed x (by rw [hdone]; exact LineStatus.noConfusion)
    have hr' := hr.scanLine
    rw [hdone] at hdone' hr'
    have hstop' := hr'.toInOrder.takeLine_feed x
    rw [hstop] at hstop'
    have hstops : r.advance = (o, r'') := by
      rw [advance_scan hline, hdone]
      dsimp only
      rw [if_neg (by rw [hstop]; exact hne), hstop]
    rw [hstops, if_neg hne, advance_scan (show (r.feed x).phase ≠ .body from hline), hdone']
    dsimp only
    rw [if_neg (by rw [hstop']; exact hne), hstop']

end Reader

end FileServer.Request
