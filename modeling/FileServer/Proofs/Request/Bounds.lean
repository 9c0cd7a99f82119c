import FileServer.Proofs.Reading

/-!
# Where a reader's cursors stand

The current line starts before the place up to which has been searched, that is among the bytes in
use, these fit the buffer, and the texts that have been found end before the current line
(`Reader.Bounded`). Filling the buffer and reading on keep it so, also when the reader has come to
an outcome before, and write nowhere before the current line: what has been found stays as it is
(`Reader.Kept`).

For the latter it matters that the byte before the place up to which has been searched is never a
carriage return. A search that finds a line feed could otherwise write over that byte, which belongs
to a line that has been taken (`Bounded.before_end`).
-/

namespace FileServer

/-- The window is one, and ends at `n` or before: what it shows can be cut out of any text of `n`
bytes. -/
structure Window.Within (w : Window) (n : Nat) : Prop where
  start_le : w.start ≤ w.stop
  stop_le : w.stop ≤ n

theorem Window.Within.mono {w : Window} {m n : Nat} (h : w.Within m) (hle : m ≤ n) : w.Within n :=
  ⟨h.start_le, Nat.le_trans h.stop_le hle⟩

/-- A window of a line, moved to where the line stands. -/
theorem Window.Within.shift {w : Window} {m n offset : Nat} (h : w.Within m)
    (hle : offset + m ≤ n) : (w.shift offset).Within n :=
  ⟨Nat.add_le_add_left h.start_le _, Nat.le_trans (Nat.add_le_add_left h.stop_le _) hle⟩

namespace Request

/-! ## The windows of a line

The parts of a line are found by their distance from its end, so they lie within it. -/

/-- What a request line is taken apart into are windows of the line. -/
theorem Line.parse?_windows {line : Bytes} {parts : Line} (h : Line.parse? line = some parts) :
    parts.target.Within line.length ∧ parts.version.Within line.length := by
  obtain ⟨htarget, hversion⟩ := Line.parse?_within h
  obtain ⟨-, -, -, offset, -, hslash, rfl⟩ := Line.parse?_eq_some.mp h
  refine ⟨⟨?_, htarget⟩, ⟨Nat.sub_le .., hversion⟩⟩
  -- the path starts with a slash, so it is not empty
  rcases Nat.lt_or_ge offset line.dropBlanks.afterWord.dropBlanks.firstWord.length with hlt | hge
  · exact Nat.add_le_add_left (Nat.le_of_lt hlt) _
  · rw [List.drop_eq_nil_of_le hge] at hslash
    cases hslash

/-- The value of a `Host` line is a window of the line. The other header lines show none. -/
theorem Header.parse_window {line : Bytes} {value : Window} (h : Header.parse line = .host value) :
    value.Within line.length := by
  obtain ⟨n, rfl⟩ := Header.parse_eq_host h
  exact ⟨Nat.sub_le .., Nat.le_refl _⟩

namespace Reader

variable {r r' : Reader} {x : Bytes}

/-! ## Bounds

The cursors of a reader in the order in which they stand, each with the next one as its bound. -/

/-- Where the cursors of a reader stand. The order is that of the bytes in the buffer: what has
been found, the line that is being read, what has been searched, what is in use, and the
capacity. -/
structure Bounded (r : Reader) : Prop where
  capacity : r.input.capacity = inputCapacity
  lineStart_le : r.lineStart ≤ r.scanned
  scanned_le : r.scanned ≤ r.input.used
  used_le : r.input.used ≤ inputCapacity
  target : r.fields.target.Within r.lineStart
  version : r.fields.version.Within r.lineStart
  host : r.fields.host.Within r.lineStart
  /-- a body that is waited for fits -/
  body : r.phase = .body → r.bodyStart + r.fields.contentLength ≤ inputCapacity
  /-- the byte before the place up to which has been searched is no carriage return -/
  passed : 0 < r.scanned → r.input.byteAt (r.scanned - 1) ≠ carriageReturn

/-- What stands before the current line stays as it is, and the current line only moves on. All
windows end before the current line, so they go on to show what they have shown. -/
structure Kept (r r' : Reader) : Prop where
  lineStart_le : r.lineStart ≤ r'.lineStart
  memory : r'.input.memory.take r.lineStart = r.input.memory.take r.lineStart

theorem Kept.refl (r : Reader) : Kept r r := ⟨Nat.le_refl _, rfl⟩

/-- Steps one after the other keep what the first of them kept, as the line only moves on. -/
theorem Kept.trans {r'' : Reader} (h : Kept r r') (h' : Kept r' r'') : Kept r r'' := by
  refine ⟨Nat.le_trans h.lineStart_le h'.lineStart_le, ?_⟩
  have hless := congrArg (List.take r.lineStart) h'.memory
  rw [List.take_take, List.take_take, Nat.min_eq_left h.lineStart_le] at hless
  exact hless.trans h.memory

/-- A window that ends before the current line shows the same bytes. -/
theorem Kept.slice (h : Kept r r') {w : Window} (hw : w.stop ≤ r.lineStart) :
    r'.input.slice w = r.input.slice w :=
  Buffer.slice_congr h.memory hw

namespace Bounded

theorem fits (hr : r.Bounded) : r.input.Fits := by
  rw [Buffer.Fits, hr.capacity]
  exact hr.used_le

theorem inOrder (hr : r.Bounded) : r.InOrder := ⟨hr.lineStart_le, hr.scanned_le, hr.fits⟩

/-- A reader that has just been made stands at the start of an empty buffer. -/
theorem new : ({} : Reader).Bounded where
  capacity := List.length_replicate
  lineStart_le := Nat.le_refl _
  scanned_le := Nat.le_refl _
  used_le := Nat.zero_le _
  target := ⟨Nat.le_refl _, Nat.le_refl _⟩
  version := ⟨Nat.le_refl _, Nat.le_refl _⟩
  host := ⟨Nat.le_refl _, Nat.le_refl _⟩
  body := Phase.noConfusion
  passed := fun h => absurd h (Nat.lt_irrefl 0)

/-- A reader that has been reset stands at the start of an empty buffer, whatever it had read
before. -/
theorem reset (h : r.input.capacity = inputCapacity) : r.reset.Bounded where
  capacity := h
  lineStart_le := Nat.le_refl _
  scanned_le := Nat.le_refl _
  used_le := Nat.zero_le _
  target := ⟨Nat.le_refl _, Nat.le_refl _⟩
  version := ⟨Nat.le_refl _, Nat.le_refl _⟩
  host := ⟨Nat.le_refl _, Nat.le_refl _⟩
  body := Phase.noConfusion
  passed := fun h => absurd h (Nat.lt_irrefl 0)

/-! ## Filling the buffer -/

/-- Bytes that arrive stand behind all cursors. -/
theorem feed (hr : r.Bounded) (hx : r.input.used + x.length ≤ r.input.capacity) :
    (r.feed x).Bounded := by
  have hcapacity : (r.feed x).input.capacity = r.input.capacity := Buffer.capacity_append hx
  refine { hr with
    capacity := hcapacity.trans hr.capacity
    scanned_le := Nat.le_trans hr.scanned_le (Nat.le_add_right ..)
    used_le := hr.capacity ▸ hx
    passed := fun hpos => ?_ }
  have hlt : r.scanned - 1 < r.input.used :=
    Nat.lt_of_lt_of_le (Nat.sub_one_lt (Nat.ne_of_gt hpos)) hr.scanned_le
  exact hr.fits.byteAt_append hlt x ▸ hr.passed hpos

/-- Bytes that arrive are put behind all that is in use, and so behind all that has been found. -/
theorem kept_feed (hr : r.Bounded) (x : Bytes) : Kept r (r.feed x) := by
  refine ⟨Nat.le_refl _, ?_⟩
  have hle : r.lineStart ≤ r.input.content.length := by
    rw [hr.fits.length_content]
    exact Nat.le_trans hr.lineStart_le hr.scanned_le
  have hbefore : r.input.memory.take r.lineStart = r.input.content.take r.lineStart := by
    rw [Buffer.content, List.take_take,
      Nat.min_eq_left (Nat.le_trans hr.lineStart_le hr.scanned_le)]
  rw [hbefore, Reader.feed, Buffer.memory_append, List.append_assoc,
    List.take_append_of_le_length hle]

/-- What reads put into the buffer is no more than there is room for. The induction follows the
loop. -/
theorem fill (hr : r.Bounded) (w : Wire) : (r.fill w).2.1.Bounded ∧ Kept r (r.fill w).2.1 := by
  fun_induction Reader.fill r w with
  | case1 => exact ⟨hr, .refl _⟩
  | case2 => exact ⟨hr, .refl _⟩
  | case3 r w hroom b bytes w' hread ih =>
    have hgiven := w.read_given r.input.room
    rw [hread] at hgiven
    have hfits : r.input.used + (b :: bytes).length ≤ r.input.capacity := by
      have hlength := hgiven.1
      rw [Buffer.room] at hlength
      omega
    obtain ⟨hbounded, hkept⟩ := ih (hr.feed hfits)
    exact ⟨hbounded, (hr.kept_feed _).trans hkept⟩
  | case4 => exact ⟨hr, .refl _⟩
  | case5 => exact ⟨hr, .refl _⟩

end Bounded

/-! ## Looking for the end of a line

What a search finds, by cases: nothing, a line end, half of one at the end of the bytes, or one of
the two bytes alone. -/

/-- What comes of looking for the end of a line. Only where a line has ended is anything written,
and a carriage return that comes last is looked at again once there is more. -/
inductive Scan (r : Reader) : LineStatus → Reader → Prop
  /-- there is none among the bytes that have arrived -/
  | nothing : r.lineEnd? = none → Scan r .incomplete { r with scanned := r.input.used }
  /-- a carriage return is the last byte -/
  | cut {pos : Nat} : r.lineEnd? = some pos → pos + 1 = r.input.used →
    Scan r .incomplete { r with scanned := pos }
  /-- a carriage return and a line feed are overwritten -/
  | ended {pos : Nat} : r.lineEnd? = some pos → pos + 1 < r.input.used →
    Scan r .complete { r with input := r.input.overwrite pos [0, 0], scanned := pos + 2 }
  /-- one of the two stands alone -/
  | broken {pos : Nat} : r.lineEnd? = some pos → Scan r .malformed { r with scanned := pos }

/-- The bytes that a search looks at. -/
theorem getElem_ahead (r : Reader) {i : Nat} (hi : i < (r.input.content.drop r.scanned).length) :
    (r.input.content.drop r.scanned)[i] = r.input.byteAt (r.scanned + i) := by
  have hlt : r.scanned + i < r.input.used := by
    rw [List.length_drop, Buffer.content, List.length_take] at hi
    omega
  rw [List.getElem_drop, Buffer.byteAt_eq_content hlt, List.getD_eq_getElem?_getD,
    List.getElem?_eq_getElem, Option.getD_some]

/-- A search that finds nothing has looked at all bytes that have arrived. -/
theorem lineEnd?_eq_none (hr : r.InOrder) (h : r.lineEnd? = none) {i : Nat}
    (hscanned : r.scanned ≤ i)
    (hused : i < r.input.used) : isLineEnd (r.input.byteAt i) = false := by
  have hnone := List.findIdx?_eq_none_iff.mp (Option.map_eq_none_iff.mp h)
  have hlt : i - r.scanned < (r.input.content.drop r.scanned).length := by
    rw [List.length_drop, hr.fits.length_content]
    omega
  have hbyte := hnone _ (List.getElem_mem hlt)
  rwa [getElem_ahead, Nat.add_sub_cancel' hscanned] at hbyte

/-- A search finds the first byte that may end a line. -/
theorem lineEnd?_first {pos : Nat} (h : r.lineEnd? = some pos) :
    isLineEnd (r.input.byteAt pos) = true ∧
      ∀ i, r.scanned ≤ i → i < pos → isLineEnd (r.input.byteAt i) = false := by
  obtain ⟨offset, hfound, rfl⟩ := Option.map_eq_some_iff.mp h
  obtain ⟨hlt, hends, hfirst⟩ := List.findIdx?_eq_some_iff_getElem.mp hfound
  rw [getElem_ahead] at hends
  refine ⟨hends, fun i hscanned hi => ?_⟩
  have hbefore := hfirst (i - r.scanned) (by omega)
  rwa [getElem_ahead, Nat.add_sub_cancel' hscanned, Bool.not_eq_true] at hbefore

/-- Where there is no end of a line up to a place, there is no carriage return before it. -/
theorem Bounded.before {n : Nat} (hr : r.Bounded) (hscanned : r.scanned ≤ n)
    (hnone : ∀ i, r.scanned ≤ i → i < n → isLineEnd (r.input.byteAt i) = false) (hpos : 0 < n) :
    r.input.byteAt (n - 1) ≠ carriageReturn := by
  rcases Nat.eq_or_lt_of_le hscanned with rfl | hlt
  · exact hr.passed hpos
  · intro hcr
    have hends := hnone (n - 1) (by omega) (by omega)
    rw [hcr] at hends
    cases hends

/-- There is no carriage return before the first byte that may end a line. -/
theorem Bounded.before_end {pos : Nat} (hr : r.Bounded) (h : r.lineEnd? = some pos)
    (hpos : 0 < pos) : r.input.byteAt (pos - 1) ≠ carriageReturn :=
  hr.before (lineEnd?_eq_some h).1 (lineEnd?_first h).2 hpos

/-- **What a search can come to.** The definition is opened here, and what a search keeps is read
off the cases. -/
theorem Bounded.scan (hr : r.Bounded) : Scan r r.scanLine.1 r.scanLine.2 := by
  rw [scanLine_eq]
  cases hend : r.lineEnd? with
  | none => exact .nothing hend
  | some pos =>
    have hused := (lineEnd?_eq_some hend).2
    simp only [judge]
    split
    · split
      · next hlast => exact .cut hend hlast
      · next hlast =>
        split
        · exact .ended hend (by omega)
        · exact .broken hend
    · split
      · next hbefore => exact absurd hbefore.2 (hr.before_end hend hbefore.1)
      · exact .broken hend

/-- To look for the end of a line moves the cursor on and writes nowhere before it. -/
theorem Scan.bounded {status : LineStatus} (h : Scan r status r') (hr : r.Bounded) :
    r'.Bounded ∧ Kept r r' := by
  cases h with
  | nothing hnone =>
    -- nothing was found up to the end of the bytes, and the cursor is moved there
    refine ⟨{ hr with
      lineStart_le := Nat.le_trans hr.lineStart_le hr.scanned_le
      scanned_le := Nat.le_refl _
      passed := fun hpos => ?_ }, ⟨Nat.le_refl _, rfl⟩⟩
    exact hr.before hr.scanned_le (fun i => lineEnd?_eq_none hr.inOrder hnone) hpos
  | cut hend _ | broken hend =>
    obtain ⟨hscanned, hused⟩ := lineEnd?_eq_some hend
    exact ⟨{ hr with
      lineStart_le := Nat.le_trans hr.lineStart_le hscanned
      scanned_le := Nat.le_of_lt hused
      passed := hr.before_end hend }, ⟨Nat.le_refl _, rfl⟩⟩
  | @ended pos hend hnext =>
    obtain ⟨hscanned, hused⟩ := lineEnd?_eq_some hend
    have hline := hr.lineStart_le
    have hfits := hr.fits
    rw [Buffer.Fits] at hfits
    have hroom : pos + ([0, 0] : Bytes).length ≤ r.input.capacity := by
      rw [List.length_cons, List.length_singleton]
      omega
    have hin : pos ≤ r.input.capacity := by omega
    refine ⟨{ hr with
      capacity := (Buffer.capacity_overwrite hroom).trans hr.capacity
      lineStart_le := by dsimp only; omega
      scanned_le := hnext
      passed := fun _ => ?_ }, ⟨Nat.le_refl _, ?_⟩⟩
    · -- the byte before the cursor has just been overwritten
      have hbyte : (r.input.overwrite pos [0, 0]).byteAt (pos + 1) = 0 :=
        Buffer.byteAt_overwrite hin (Nat.lt_succ_self 1)
      rw [show pos + 2 - 1 = pos + 1 from rfl, hbyte]
      decide
    · exact Buffer.take_overwrite hin (Nat.le_trans hline hscanned) _

theorem Bounded.scanLine (hr : r.Bounded) : r.scanLine.2.Bounded ∧ Kept r r.scanLine.2 :=
  hr.scan.bounded hr

/-! ## Acting on a line

A line that is taken lies behind all that was found before, so what it adds is in order. -/

/-- A part of the line just completed, moved to where the line stands, ends before the cursor. A
line is completed only with the two bytes that end it, so the line itself ends before that. -/
theorem Bounded.within {w : Window} (hr : r.Bounded)
    (hw : w.Within (r.input.slice r.currentLine).length) :
    (w.shift r.currentLine.start).Within r.scanned := by
  obtain ⟨hstart, hstop⟩ := hr.inOrder.currentLine_le
  have hle := hr.lineStart_le
  have hlength := r.input.length_slice_le r.currentLine
  exact hw.shift (by omega)

/-- Taking in a header line moves no cursor and leaves the phase as it is. -/
theorem takeHeader?_lineStart {header : Header} {start : Nat}
    (h : r.takeHeader? start header = some r') :
    r'.lineStart = r.lineStart ∧ r'.phase = r.phase := by
  cases header with
  | connection keep | host value | other =>
    obtain rfl := Option.some.inj h
    exact ⟨rfl, rfl⟩
  | contentLength value =>
    cases value with
    | none => cases h
    | some n =>
      simp only [takeHeader?] at h
      split at h
      · obtain rfl := Option.some.inj h
        exact ⟨rfl, rfl⟩
      · cases h

/-- What a header line says is taken in. -/
theorem Bounded.takeHeader? (hr : r.Bounded) (hphase : r.phase ≠ .body) {header : Header}
    {start : Nat}
    (hhost : ∀ value, header = .host value → (value.shift start).Within r.lineStart)
    (h : r.takeHeader? start header = some r') : r'.Bounded := by
  cases header with
  | connection keep | other =>
    obtain rfl := Option.some.inj h
    exact { hr with }
  | host value =>
    obtain rfl := Option.some.inj h
    exact { hr with host := hhost value rfl }
  | contentLength value =>
    cases value with
    | none => cases h
    | some n =>
      simp only [Reader.takeHeader?] at h
      split at h
      · obtain rfl := Option.some.inj h
        exact { hr with body := fun hbody => absurd hbody hphase }
      · cases h

/-- The header lines are over. A body is waited for only if it fits behind them, as the field for
it says. -/
theorem Bounded.endHeaders (hr : r.Bounded) (hphase : r.phase ≠ .body) :
    r.endHeaders.2.Bounded ∧ r.endHeaders.2.lineStart = r.lineStart := by
  rw [Reader.endHeaders]
  split
  · exact ⟨hr, rfl⟩
  · dsimp only
    split
    · next hfits => exact ⟨{ hr with body := fun _ => hfits }, rfl⟩
    · exact ⟨{ hr with body := fun hbody => absurd hbody hphase }, rfl⟩

/-- **Acting on a line keeps the bounds.** The current line moves up to the cursor first, so that
what the line has shown ends before it; then the cases are those of the phase. -/
theorem Bounded.takeLine (hr : r.Bounded) (hphase : r.phase ≠ .body) :
    r.takeLine.2.Bounded ∧ Kept r r.takeLine.2 := by
  -- what has been found stays where it is when the next line starts
  have hnext : ({ r with lineStart := r.scanned } : Reader).Bounded := { hr with
    lineStart_le := Nat.le_refl _
    target := hr.target.mono hr.lineStart_le
    version := hr.version.mono hr.lineStart_le
    host := hr.host.mono hr.lineStart_le }
  have hkept : ∀ {r' : Reader}, r'.lineStart = r.scanned → r'.input = r.input → Kept r r' :=
    fun hline hinput => ⟨hline ▸ hr.lineStart_le, hinput ▸ rfl⟩
  rw [Reader.takeLine]
  dsimp only
  split
  · split
    · exact ⟨hnext, hkept rfl rfl⟩
    · next parts hparts =>
      obtain ⟨htarget, hversion⟩ := Line.parse?_windows hparts
      exact ⟨{ hnext with
        target := hr.within htarget
        version := hr.within hversion
        body := Phase.noConfusion }, hkept rfl rfl⟩
  · split
    · obtain ⟨hbounded, hline⟩ := hnext.endHeaders hphase
      exact ⟨hbounded, hkept hline (endHeaders_cursor _).1⟩
    · split
      · exact ⟨hnext, hkept rfl rfl⟩
      · next r' htaken =>
        have hbounded := hnext.takeHeader? hphase
          (fun value hvalue => hr.within (Header.parse_window hvalue)) htaken
        exact ⟨hbounded, hkept (takeHeader?_lineStart htaken).1 (takeHeader?_cursor htaken).1⟩

/-! ## Reading on -/

/-- **Reading on keeps the cursors within their bounds**, also after an outcome, and writes
nowhere before the current line. The induction follows the loop of the reader: a line is looked
for, and each one that is found is acted on. -/
theorem Bounded.advance (hr : r.Bounded) : r.advance.2.Bounded ∧ Kept r r.advance.2 := by
  induction r using Reader.advance.induct with
  | case1 r hbody =>
    rw [advance_eq, if_pos hbody]
    exact ⟨hr, .refl r⟩
  | case2 r hline r' hmal =>
    have hr' := hr.scanLine
    rw [hmal] at hr'
    rw [advance_scan hline, hmal]
    exact hr'
  | case3 r hline r' hwait =>
    have hr' := hr.scanLine
    rw [hwait] at hr'
    rw [advance_scan hline, hwait]
    exact hr'
  -- the next line starts behind this one, within the same bounds
  | case4 r hline r' hdone r'' hmore ih =>
    obtain ⟨hr', hkept⟩ := hr.scanLine
    have hphase := (scanLine_says_nothing r).1
    rw [hdone] at hr' hkept hphase
    obtain ⟨hr'', hkept'⟩ := hr'.takeLine (hphase ▸ hline)
    rw [hmore] at hr'' hkept'
    rw [advance_scan hline, hdone]
    dsimp only
    rw [if_pos (by rw [hmore]), hmore]
    obtain ⟨hbounded, hkept''⟩ := ih hr''
    exact ⟨hbounded, hkept.trans (hkept'.trans hkept'')⟩
  | case5 r hline r' hdone o r'' hne hstop =>
    obtain ⟨hr', hkept⟩ := hr.scanLine
    have hphase := (scanLine_says_nothing r).1
    rw [hdone] at hr' hkept hphase
    obtain ⟨hr'', hkept'⟩ := hr'.takeLine (hphase ▸ hline)
    rw [hstop] at hr'' hkept'
    rw [advance_scan hline, hdone]
    dsimp only
    rw [if_neg (by rw [hstop]; exact hne), hstop]
    exact ⟨hr'', hkept.trans hkept'⟩

end Reader

end Request

end FileServer
