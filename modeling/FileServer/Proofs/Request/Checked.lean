import FileServer.Proofs.Request.Bounds

/-!
# No read outside of the buffer

Here the reader is written out once more, at the grain of single accesses to its buffer: each byte
that is looked at, each stretch that is taken, each pair of bytes that is written over and each
difference of two positions is checked, and an access that is out of bounds has no result. A line is
read by moving a cursor over it rather than by cutting texts off.

While the cursors stand where they should (`Reader.Bounded`), no check fails, and what comes out is
what `Reader.advance` says (`Reader.Bounded.advanceWithin?_eq`). A round of reading that does not
come to an outcome moves the search on, so there are never more rounds than bytes that have not been
searched.

The lemmas come in pairs: what a checked access says when it is within bounds (`Buffer.slice?_eq`,
`Buffer.byte?_eq`), and what a part of the reader makes of it. A cursor that moves over a window is
compared with the text under that window by how much of the text is left (`Buffer.Skips`,
`Buffer.Finds`), so that the two ways of reading a line go along with each other word by word.
-/

namespace FileServer

/-- The difference of two numbers, unless it is negative. -/
def minus? (m n : Nat) : Option Nat := if n ≤ m then some (m - n) else none

theorem minus?_eq {m n : Nat} (h : n ≤ m) : minus? m n = some (m - n) := if_pos h

namespace Buffer

variable {b : Buffer} {w : Window} {x : Bytes}

/-! ## Checked access

An access that is out of bounds has no result, and neither has anything that is built on it. -/

/-- The bytes under a window that lies within the buffer. -/
def slice? (b : Buffer) (w : Window) : Option Bytes :=
  if w.start ≤ w.stop ∧ w.stop ≤ b.capacity then some (b.slice w) else none

/-- The byte at a position within the buffer. -/
def byte? (b : Buffer) (pos : Nat) : Option UInt8 :=
  if pos < b.capacity then some (b.byteAt pos) else none

/-- Writes over memory within the buffer. -/
def overwrite? (b : Buffer) (pos : Nat) (bytes : Bytes) : Option Buffer :=
  if pos + bytes.length ≤ b.capacity then some (b.overwrite pos bytes) else none

/-- A stretch that lies within the buffer can be taken. This lemma and the two behind it are all
that the proofs below know of the checks. -/
theorem slice?_eq (h : w.Within b.capacity) : b.slice? w = some (b.slice w) :=
  if_pos ⟨h.start_le, h.stop_le⟩

theorem byte?_eq {pos : Nat} (h : pos < b.capacity) : b.byte? pos = some (b.byteAt pos) := if_pos h

theorem overwrite?_eq {pos : Nat} (h : pos + x.length ≤ b.capacity) :
    b.overwrite? pos x = some (b.overwrite pos x) := if_pos h

/-- Moves a cursor on as long as it stands at a byte that `p` holds of, and before `stop`. -/
def skip? (b : Buffer) (p : UInt8 → Bool) (stop cursor : Nat) : Option Nat :=
  if cursor < stop then do
    let byte ← b.byte? cursor
    if p byte then b.skip? p stop (cursor + 1) else some cursor
  else some cursor
termination_by stop - cursor

/-- Skips blanks, and then the word behind them. The results are the word and where it ends. -/
def word? (b : Buffer) (stop cursor : Nat) : Option (Window × Nat) := do
  let start ← b.skip? isBlank stop cursor
  let stop ← b.skip? (!isBlank ·) stop start
  return (⟨start, stop⟩, stop)

/-! ## Cursors over a line

Blanks and words are passed over by moving a cursor. It stops at the end of the line at the latest,
so no byte behind that is looked at. -/

/-- What is left of a window behind its first bytes. -/
theorem slice_drop (b : Buffer) (start stop n : Nat) :
    b.slice ⟨start + n, stop⟩ = (b.slice ⟨start, stop⟩).drop n := by
  rw [slice, slice, List.drop_take, List.drop_drop, Nat.sub_add_eq]

/-- The first bytes of a window. -/
theorem slice_take {start stop n : Nat} (h : start + n ≤ stop) :
    b.slice ⟨start, start + n⟩ = (b.slice ⟨start, stop⟩).take n := by
  have hle : n ≤ stop - start := by omega
  rw [slice, slice, List.take_take, Nat.add_sub_cancel_left, Nat.min_eq_left hle]

/-- A window within the buffer shows as many bytes as it is long. -/
theorem length_slice (h : w.Within b.capacity) : (b.slice w).length = w.stop - w.start := by
  have hle := h.stop_le
  rw [capacity] at hle
  rw [slice, List.length_take, List.length_drop]
  omega

/-- A window shows no bytes only if it has none. -/
theorem slice_isEmpty (h : w.Within b.capacity) :
    (b.slice w).isEmpty = !decide (w.start < w.stop) := by
  rw [Bool.eq_iff_iff, List.isEmpty_iff, ← List.length_eq_zero_iff, length_slice h]
  simp only [Bool.not_eq_true', decide_eq_false_iff_not]
  omega

/-- A window that is not empty shows the byte at its start, and then what the window behind it
shows. -/
theorem slice_cons {start stop : Nat} (hlt : start < stop) (hstop : stop ≤ b.capacity) :
    b.slice ⟨start, stop⟩ = b.byteAt start :: b.slice ⟨start + 1, stop⟩ := by
  have hin : start < b.memory.length := Nat.lt_of_lt_of_le hlt hstop
  have hmore : stop - start = stop - (start + 1) + 1 := by omega
  rw [slice, slice, byteAt]
  dsimp only
  rw [List.drop_eq_getElem_cons hin, hmore, List.take_succ_cons, List.getD_eq_getElem?_getD,
    List.getElem?_eq_getElem hin, Option.getD_some]

/-- A cursor that is moved on stops behind the bytes that it skips. The induction is on the
distance to where the cursor has to stop. -/
theorem skip?_eq (p : UInt8 → Bool) {stop : Nat} (hstop : stop ≤ b.capacity) (cursor : Nat)
    (hcursor : cursor ≤ stop) :
    b.skip? p stop cursor = some (cursor + ((b.slice ⟨cursor, stop⟩).takeWhile p).length) := by
  -- the induction follows the cursor, so it is on what is left before the stop
  induction hleft : stop - cursor generalizing cursor with
  | zero =>
    obtain rfl : cursor = stop := by omega
    have hnone : b.slice ⟨cursor, cursor⟩ = [] := by
      rw [slice, Nat.sub_self, List.take_zero]
    rw [skip?, if_neg (Nat.lt_irrefl _), hnone]
    rfl
  | succ left ih =>
    have hlt : cursor < stop := by omega
    have hnext := ih (cursor + 1) hlt (by omega)
    rw [skip?, if_pos hlt, byte?_eq (Nat.lt_of_lt_of_le hlt hstop), slice_cons hlt hstop]
    simp only [Option.bind_eq_bind, Option.bind_some, List.takeWhile_cons]
    split
    · rw [hnext, List.length_cons, Nat.add_right_comm, Nat.add_assoc]
    · rfl

/-- A cursor moves over a window as long as `p` holds. -/
structure Skips (b : Buffer) (p : UInt8 → Bool) (stop cursor next : Nat) : Prop where
  result : b.skip? p stop cursor = some next
  le : cursor ≤ next
  le_stop : next ≤ stop
  skipped : b.slice ⟨cursor, next⟩ = (b.slice ⟨cursor, stop⟩).takeWhile p
  rest : b.slice ⟨next, stop⟩ = (b.slice ⟨cursor, stop⟩).dropWhile p

/-- Moving a cursor over a window always comes to an end, and within the window. -/
theorem exists_skips (p : UInt8 → Bool) {stop cursor : Nat} (hstop : stop ≤ b.capacity)
    (hcursor : cursor ≤ stop) : ∃ next, b.Skips p stop cursor next := by
  have hlength : (b.slice ⟨cursor, stop⟩).length = stop - cursor := length_slice ⟨hcursor, hstop⟩
  have hprefix := List.takeWhile_prefix p (l := b.slice ⟨cursor, stop⟩)
  have hle : cursor + ((b.slice ⟨cursor, stop⟩).takeWhile p).length ≤ stop := by
    have hlength_le := hprefix.length_le
    omega
  refine ⟨_, skip?_eq p hstop cursor hcursor, Nat.le_add_right .., hle, ?_, ?_⟩
  · rw [slice_take hle]
    exact (List.prefix_iff_eq_take.mp hprefix).symm
  · have hsplit : (b.slice ⟨cursor, stop⟩).takeWhile p ++ (b.slice ⟨cursor, stop⟩).dropWhile p =
        b.slice ⟨cursor, stop⟩ := List.takeWhile_append_dropWhile
    rw [slice_drop]
    nth_rewrite 2 [← hsplit]
    exact List.drop_left

/-- What is found of a word: `word` is where it stands. -/
structure Finds (b : Buffer) (stop cursor : Nat) (word : Window) : Prop where
  result : b.word? stop cursor = some (word, word.stop)
  within : word.Within stop
  le : cursor ≤ word.start
  text : b.slice word = (b.slice ⟨cursor, stop⟩).dropBlanks.firstWord
  rest : b.slice ⟨word.stop, stop⟩ = (b.slice ⟨cursor, stop⟩).dropBlanks.afterWord
  left : b.slice ⟨word.start, stop⟩ = (b.slice ⟨cursor, stop⟩).dropBlanks

/-- Looking for a word always comes to an end within the window, and what is found is the word
that the text itself starts with, apart from blanks. -/
theorem exists_finds {stop cursor : Nat} (hstop : stop ≤ b.capacity) (hcursor : cursor ≤ stop) :
    ∃ word, b.Finds stop cursor word := by
  obtain ⟨start, hblanks⟩ := exists_skips isBlank hstop hcursor
  obtain ⟨next, hword⟩ := exists_skips (!isBlank ·) hstop hblanks.le_stop
  refine ⟨⟨start, next⟩, ?_, ⟨hword.le, hword.le_stop⟩, hblanks.le, ?_, ?_, hblanks.rest⟩
  · simp only [word?, hblanks.result, hword.result, Option.bind_eq_bind, Option.bind_some]
    rfl
  · rw [hword.skipped, hblanks.rest]
    rfl
  · rw [hword.rest, hblanks.rest]
    rfl

end Buffer

namespace Request

variable {b : Buffer} {line : Window}

/-! ## The request line

The three words of a request line, and the slash at which its path begins. -/

/-- Where the path of a target starts that may have scheme and authority in front, if there is
one. -/
def pathStart? (b : Buffer) (target : Window) : List Bytes → Option (Option Nat)
  | [] => some (some target.start)
  | scheme :: schemes => do
    let text ← b.slice? target
    if scheme.length ≤ text.length ∧ Bytes.sameLetters (text.take scheme.length) scheme then
      let rest ← b.slice? ⟨target.start + scheme.length, target.stop⟩
      some (if slash ∈ rest then some (target.start + scheme.length + rest.idxOf slash) else none)
    else pathStart? b target schemes

/-- Reads the request line that stands at a window. The outer result is whether all that was looked
at lies in the buffer. -/
def Line.parseAt? (b : Buffer) (line : Window) : Option (Option Line) := do
  let (method, cursor) ← b.word? line.stop line.start
  let name ← b.slice? method
  if name.sameLetters Method.get.name then
    let (target, cursor) ← b.word? line.stop cursor
    let cursor ← b.skip? isBlank line.stop cursor
    if target.start < target.stop ∧ cursor < line.stop then
      let versionText ← b.slice? ⟨cursor, line.stop⟩
      if versionText.sameLetters Request.version then
        let path ← pathStart? b target schemes
        match path with
        | none => some none
        | some start =>
          if b.byte? start = some slash then
            some (some { target := ⟨start, target.stop⟩, version := ⟨cursor, line.stop⟩ })
          else some none
      else some none
    else some none
  else some none

/-- The parts of a line that stands behind `offset` bytes. -/
def Line.shift (parts : Line) (offset : Nat) : Line :=
  ⟨parts.target.shift offset, parts.version.shift offset⟩

/-- The schemes are tried in turn, each with checked access to the start of the target; the place
that is found is the one found in the text. -/
theorem pathStart?_eq {target : Window} (h : target.Within b.capacity) :
    pathStart? b target schemes =
      some ((pathOffset? (b.slice target)).map (target.start + ·)) := by
  -- the schemes are tried in turn, and the first that the target begins with decides
  have hlist : ∀ l : List Bytes, pathStart? b target l =
      some ((l.find? fun scheme =>
          Bytes.sameLetters ((b.slice target).take scheme.length) scheme).elim (some target.start)
        fun scheme =>
          if slash ∈ (b.slice target).drop scheme.length then
            some (target.start + scheme.length + ((b.slice target).drop scheme.length).idxOf slash)
          else none) := by
    intro l
    induction l with
    | nil => rfl
    | cons scheme l ih =>
      rw [pathStart?, Buffer.slice?_eq h, List.find?_cons]
      simp only [Option.bind_eq_bind, Option.bind_some]
      by_cases hscheme : Bytes.sameLetters ((b.slice target).take scheme.length) scheme = true
      · have hlength := Bytes.sameLetters_length hscheme
        rw [List.length_take] at hlength
        have hle : scheme.length ≤ (b.slice target).length := by omega
        have hrest : target.start + scheme.length ≤ target.stop := by
          rw [Buffer.length_slice h] at hle
          have hwin := h.start_le
          omega
        have hslice : b.slice? ⟨target.start + scheme.length, target.stop⟩ =
            some ((b.slice target).drop scheme.length) := by
          rw [Buffer.slice?, if_pos ⟨hrest, h.stop_le⟩, Buffer.slice_drop]
        rw [if_pos ⟨hle, hscheme⟩, hslice, hscheme]
        rfl
      · rw [if_neg fun hboth => hscheme hboth.2, ih]
        rw [Bool.eq_false_iff.mpr hscheme]
  rw [hlist, pathOffset?]
  cases schemes.find? fun scheme =>
      Bytes.sameLetters ((b.slice target).take scheme.length) scheme with
  | none => rfl
  | some scheme =>
    dsimp only [Option.elim]
    split
    · rw [Option.map_some, Nat.add_assoc]
    · rfl

/-- A path starts within its target. -/
theorem pathOffset?_lt {target : Bytes} {offset : Nat} (h : pathOffset? target = some offset)
    (hne : target ≠ []) : offset < target.length := by
  rw [pathOffset?] at h
  split at h
  · obtain rfl := Option.some.inj h
    exact List.length_pos_iff.mpr hne
  · next scheme _ =>
    dsimp only at h
    split at h
    · next hslash =>
      obtain rfl := Option.some.inj h
      have hlt := List.idxOf_lt_length_of_mem hslash
      rw [List.length_drop] at hlt
      omega
    · cases h

/-- What a reader insists on decides whether it goes on. -/
theorem guard_bind {α : Type} (p : Prop) [Decidable p] (f : Unit → Option α) :
    (guard p >>= f) = if p then f () else none := by
  unfold guard
  split <;> rfl

/-- **A request line is read from the buffer as from its text.** The cursor goes over method,
target and version in turn, and for each of them the place that the text says is the one where it
stands. -/
theorem Line.parseAt?_eq (h : line.Within b.capacity) :
    Line.parseAt? b line = some ((Line.parse? (b.slice line)).map (·.shift line.start)) := by
  have hlength := Buffer.length_slice h
  obtain ⟨method, hmethod⟩ := Buffer.exists_finds h.stop_le h.start_le
  obtain ⟨target, htarget⟩ := Buffer.exists_finds h.stop_le hmethod.within.stop_le
  obtain ⟨cursor, hblanks⟩ := Buffer.exists_skips isBlank h.stop_le htarget.within.stop_le
  have hin : ∀ {w : Window}, w.Within line.stop → w.Within b.capacity := fun hw => hw.mono h.stop_le
  have hname := Buffer.slice?_eq (hin hmethod.within)
  have hversion : b.slice? ⟨cursor, line.stop⟩ = some (b.slice ⟨cursor, line.stop⟩) :=
    Buffer.slice?_eq ⟨hblanks.le_stop, h.stop_le⟩
  have hpath := pathStart?_eq (hin htarget.within)
  rw [Line.parseAt?, Line.parse?]
  simp only [hmethod.result, hname, htarget.result, hblanks.result, hversion, hpath, ↓guard_bind,
    Option.bind_eq_bind, Option.bind_some]
  -- the texts of the line are windows of the buffer
  have hleft : b.slice ⟨cursor, line.stop⟩ = (b.slice ⟨target.stop, line.stop⟩).dropBlanks :=
    hblanks.rest
  rw [← hmethod.text, ← hmethod.rest, ← htarget.text, ← htarget.rest, ← htarget.left, ← hleft]
  have htargetLength : (b.slice ⟨target.start, line.stop⟩).length = line.stop - target.start :=
    Buffer.length_slice ⟨Nat.le_trans htarget.within.start_le htarget.within.stop_le, h.stop_le⟩
  have hversionLength : (b.slice ⟨cursor, line.stop⟩).length = line.stop - cursor :=
    Buffer.length_slice ⟨hblanks.le_stop, h.stop_le⟩
  rw [Buffer.slice_isEmpty (hin htarget.within),
    Buffer.slice_isEmpty (w := ⟨cursor, line.stop⟩) ⟨hblanks.le_stop, h.stop_le⟩]
  simp only [Bool.not_not, Bool.and_eq_true, decide_eq_true_eq, hlength, htargetLength,
    hversionLength, Buffer.length_slice (hin htarget.within)]
  split
  · split
    · next hnonempty =>
      split
      · cases hoffset : pathOffset? (b.slice target) with
        | none => rfl
        | some offset =>
          have hlength' := Buffer.length_slice (hin htarget.within)
          have hne : b.slice target ≠ [] := by
            rw [← List.length_pos_iff, hlength']
            omega
          have hoffset_lt := pathOffset?_lt hoffset hne
          rw [hlength'] at hoffset_lt
          -- the path starts within the target, so the byte there is looked at in both
          have hbefore : target.start + offset < target.stop := by omega
          have hstop := (hin htarget.within).stop_le
          have hhead : (List.drop offset (b.slice target)).head? =
              some (b.byteAt (target.start + offset)) := by
            rw [← Buffer.slice_drop, Buffer.slice_cons hbefore hstop, List.head?_cons]
          have hbyte := Buffer.byte?_eq (Nat.lt_of_lt_of_le hbefore hstop)
          simp only [Option.map_some, Option.bind_some, hhead, hbyte, beq_iff_eq]
          split
          · have hfirst := hmethod.le
            have hmethod_le := hmethod.within.start_le
            have hsecond := htarget.le
            have htarget_le := htarget.within.start_le
            have hthird := hblanks.le
            have hfourth := hblanks.le_stop
            refine congrArg (fun parts => some (some parts)) ?_
            simp only [Line.shift, Window.shift, Line.mk.injEq, Window.mk.injEq]
            omega
          · rfl
      · rfl
    · rfl
  · rfl

/-! ## Header lines

The colon, the blanks behind it, and the value up to the end of the line. -/

/-- The first bytes without the blanks at their end. -/
def trimEnd? (bytes : Bytes) : (stop : Nat) → Option Bytes
  | 0 => some []
  | stop + 1 => do
    let byte ← bytes[stop]?
    if isBlank byte then trimEnd? bytes stop else some (bytes.take (stop + 1))

/-- Reads the header line that stands at a window. -/
def Header.parseAt? (b : Buffer) (line : Window) : Option Header := do
  let text ← b.slice? line
  if colon ∈ text then
    let nameStop := line.start + text.idxOf colon
    let name ← b.slice? ⟨line.start, nameStop⟩
    let start ← b.skip? isBlank line.stop (nameStop + 1)
    if name.sameLetters (.ofText "Connection") then
      let value ← b.slice? ⟨start, line.stop⟩
      let value ← trimEnd? value value.length
      some (.connection (value.sameLetters (.ofText "keep-alive")))
    else if name.sameLetters (.ofText "Content-Length") then
      let value ← b.slice? ⟨start, line.stop⟩
      let value ← trimEnd? value value.length
      some (.contentLength (Decimal.word? value))
    else if name.sameLetters (.ofText "Host") then some (.host ⟨start, line.stop⟩)
    else some .other
  else some .other

/-- What a header line says that stands behind `offset` bytes. -/
def Header.shift (offset : Nat) : Header → Header
  | .host value => .host (value.shift offset)
  | header => header

/-- The blanks at the end are dropped one by one from behind, without going beyond the first
byte. -/
theorem trimEnd?_eq (bytes : Bytes) {stop : Nat} (h : stop ≤ bytes.length) :
    trimEnd? bytes stop = some (Bytes.dropTrailingBlanks (bytes.take stop)) := by
  induction stop with
  | zero => rfl
  | succ stop ih =>
    rw [trimEnd?, List.getElem?_eq_getElem h, List.take_add_one, List.getElem?_eq_getElem h]
    simp only [Option.bind_eq_bind, Option.bind_some, Option.toList_some, Bytes.dropTrailingBlanks,
      List.reverse_append, List.reverse_singleton, List.singleton_append, List.dropWhile_cons]
    split
    · exact ih (Nat.le_of_succ_le h)
    · rw [List.reverse_cons, List.reverse_reverse]

/-- **A header line is read from the buffer as from its text.** The names are tried in turn; where
one fits, its value is cut out at the places that the text says. -/
theorem Header.parseAt?_eq (h : line.Within b.capacity) :
    Header.parseAt? b line = some ((Header.parse (b.slice line)).shift line.start) := by
  have hlength := Buffer.length_slice h
  rw [Header.parseAt?, Header.parse, Buffer.slice?_eq h]
  simp only [Option.bind_eq_bind, Option.bind_some]
  split
  · next hcolon =>
    have hidx := List.idxOf_lt_length_of_mem hcolon
    rw [hlength] at hidx
    have hstop := h.stop_le
    have hbehind : line.start + (b.slice line).idxOf colon + 1 ≤ line.stop := by omega
    have hname : b.slice? ⟨line.start, line.start + (b.slice line).idxOf colon⟩ =
        some ((b.slice line).take ((b.slice line).idxOf colon)) := by
      rw [Buffer.slice?, if_pos ⟨Nat.le_add_right .., by dsimp only; omega⟩]
      exact congrArg some (Buffer.slice_take (by omega))
    -- the value begins behind the blanks, and ends before those that trail it
    obtain ⟨start, hblanks⟩ := Buffer.exists_skips isBlank hstop hbehind
    have hrest : b.slice ⟨start, line.stop⟩ =
        Bytes.dropBlanks ((b.slice line).drop ((b.slice line).idxOf colon + 1)) := by
      rw [hblanks.rest, Nat.add_assoc, Buffer.slice_drop]
      rfl
    have hvalue := Buffer.slice?_eq (w := ⟨start, line.stop⟩) ⟨hblanks.le_stop, hstop⟩
    have hlengthValue := Buffer.length_slice (w := ⟨start, line.stop⟩) ⟨hblanks.le_stop, hstop⟩
    have htrim := trimEnd?_eq (b.slice ⟨start, line.stop⟩) (Nat.le_refl _)
    rw [List.take_length] at htrim
    simp only [hname, hblanks.result, hvalue, htrim, Option.bind_some]
    rw [← hrest]
    have hshift : Header.shift line.start
        (.host
          ⟨(b.slice line).length - (b.slice ⟨start, line.stop⟩).length, (b.slice line).length⟩) =
        .host ⟨start, line.stop⟩ := by
      have hle := hblanks.le
      have hle_stop := hblanks.le_stop
      rw [hlength, hlengthValue]
      simp only [Header.shift, Window.shift, Header.host.injEq, Window.mk.injEq]
      omega
    split
    · rfl
    · split
      · rfl
      · split
        · exact congrArg some hshift.symm
        · rfl
  · rfl

namespace Reader

variable {r : Reader}

/-! ## The reader

The calls of a reader made of checked accesses, and that none of them is missing a result. -/

/-- Looks for the end of the current line. -/
def scanLine? (r : Reader) : Option (LineStatus × Reader) := do
  let ahead ← r.input.slice? ⟨r.scanned, r.input.used⟩
  match ahead.findIdx? isLineEnd with
  | none => some (.incomplete, { r with scanned := r.input.used })
  | some offset =>
    let pos := r.scanned + offset
    let byte ← r.input.byte? pos
    if byte = carriageReturn then
      if pos + 1 = r.input.used then some (.incomplete, { r with scanned := pos })
      else
        let next ← r.input.byte? (pos + 1)
        if next = lineFeed then
          let input ← r.input.overwrite? pos [0, 0]
          some (.complete, { r with input, scanned := pos + 2 })
        else some (.malformed, { r with scanned := pos })
    else if 0 < pos then
      let before ← minus? pos 1
      let byte ← r.input.byte? before
      if byte = carriageReturn then
        let input ← r.input.overwrite? before [0, 0]
        some (.complete, { r with input, scanned := pos + 1 })
      else some (.malformed, { r with scanned := pos })
    else some (.malformed, { r with scanned := pos })

/-- Where the line just completed stands. -/
def currentLine? (r : Reader) : Option Window := do
  let text ← r.input.slice? ⟨r.lineStart, r.scanned⟩
  some ⟨r.lineStart, if 0 ∈ text then r.lineStart + text.idxOf 0 else r.scanned⟩

/-- Acts on the line just completed. There is none while a body is waited for. -/
def takeLine? (r : Reader) : Option (Outcome × Reader) := do
  let line ← r.currentLine?
  let r := { r with lineStart := r.scanned }
  match r.phase with
  | .requestLine =>
    let parts ← Line.parseAt? r.input line
    match parts with
    | none => some (.malformed, r)
    | some parts => some (.incomplete, r.takeRequestLine 0 parts)
  | .headers =>
    if line.stop ≤ line.start then some r.endHeaders
    else
      let header ← Header.parseAt? r.input line
      match r.takeHeader? 0 header with
      | none => some (.malformed, r)
      | some r => some (.incomplete, r)
  | .body => none

/-- Reads on for a number of rounds. There is no result if that is not enough. -/
def advanceWithin? : (rounds : Nat) → Reader → Option (Outcome × Reader)
  | 0, _ => none
  | rounds + 1, r =>
    if r.phase = .body then
      some
        (if r.bodyStart + r.fields.contentLength ≤ r.input.used then .complete else .incomplete,
          r)
    else do
      let (status, r) ← r.scanLine?
      match status with
      | .malformed => some (.malformed, r)
      | .incomplete => some (.incomplete, r)
      | .complete =>
        let (outcome, r) ← r.takeLine?
        if outcome = .incomplete then advanceWithin? rounds r else some (outcome, r)

theorem takeRequestLine_shift (r : Reader) (start : Nat) (parts : Line) :
    r.takeRequestLine 0 (parts.shift start) = r.takeRequestLine start parts := by
  simp only [takeRequestLine, Line.shift, Window.shift, Nat.zero_add]

/-- The windows of a header line may be moved before the line is taken in, or while it is. -/
theorem takeHeader?_shift (r : Reader) (start : Nat) (header : Header) :
    r.takeHeader? 0 (header.shift start) = r.takeHeader? start header := by
  cases header with
  | host value => simp only [takeHeader?, Header.shift, Window.shift, Nat.zero_add]
  | contentLength value => cases value <;> rfl
  | connection keep => rfl
  | other => rfl

namespace Bounded

/-- No check fails when the end of a line is looked for. The byte behind a carriage return is
looked at only if it has arrived, and the two bytes that are overwritten lie among those in
use. -/
theorem scanLine?_eq (hr : r.Bounded) : r.scanLine? = some r.scanLine := by
  have hused : r.input.used ≤ r.input.capacity := hr.fits
  have hahead := Buffer.slice?_eq (w := ⟨r.scanned, r.input.used⟩) ⟨hr.scanned_le, hused⟩
  rw [scanLine?, Reader.scanLine, hahead]
  simp only [Option.bind_eq_bind, Option.bind_some]
  cases hfound : (r.input.slice ⟨r.scanned, r.input.used⟩).findIdx? isLineEnd with
  | none => rfl
  | some offset =>
    have hpos : r.scanned + offset < r.input.used := by
      have hlt := (List.findIdx?_eq_some_iff_getElem.mp hfound).1
      have hlength := r.input.length_slice_le ⟨r.scanned, r.input.used⟩
      dsimp only at hlength
      omega
    have hbyte := Buffer.byte?_eq (Nat.lt_of_lt_of_le hpos hused)
    -- both bytes of a line end lie within what is read, so writing them cannot fail
    have hoverwrite : ∀ i, i + 2 ≤ r.input.used →
        r.input.overwrite? i [0, 0] = some (r.input.overwrite i [0, 0]) :=
      fun i hi => Buffer.overwrite?_eq (Nat.le_trans hi hused)
    simp only [hbyte, Option.bind_some]
    split
    · split
      · rfl
      · next hlast =>
        have hnext : r.input.byte? (r.scanned + offset + 1) = _ := Buffer.byte?_eq (by omega)
        have hover := hoverwrite (r.scanned + offset) (by omega)
        simp only [hnext, hover, Option.bind_some]
        split <;> rfl
    · by_cases hzero : 0 < r.scanned + offset
      · have hbefore : r.input.byte? (r.scanned + offset - 1) = _ := Buffer.byte?_eq (by omega)
        have hover := hoverwrite (r.scanned + offset - 1) (by omega)
        rw [if_pos hzero, minus?_eq hzero]
        simp only [hbefore, hover, Option.bind_some]
        by_cases hcr : r.input.byteAt (r.scanned + offset - 1) = carriageReturn
        · rw [if_pos hcr, if_pos ⟨hzero, hcr⟩]
        · rw [if_neg hcr, if_neg fun hboth => hcr hboth.2]
      · rw [if_neg hzero, if_neg fun hboth => hzero hboth.1]

/-- The stretch that has been searched can be taken, and so the line within it can. -/
theorem currentLine?_eq (hr : r.Bounded) : r.currentLine? = some r.currentLine := by
  have hscanned : r.scanned ≤ r.input.capacity := Nat.le_trans hr.scanned_le hr.fits
  have hin : Window.Within ⟨r.lineStart, r.scanned⟩ r.input.capacity := ⟨hr.lineStart_le, hscanned⟩
  have hlength := Buffer.length_slice hin
  rw [currentLine?, Reader.currentLine, Buffer.slice?_eq hin]
  simp only [Option.bind_eq_bind, Option.bind_some]
  split
  · rfl
  · next hzero =>
    rw [List.idxOf_eq_length hzero, hlength, Nat.add_sub_cancel' hr.lineStart_le]

/-- No check fails when a line is acted on, as the line lies within the buffer. -/
theorem takeLine?_eq (hr : r.Bounded) (hphase : r.phase ≠ .body) :
    r.takeLine? = some r.takeLine := by
  have hin : r.currentLine.Within r.input.capacity :=
    ⟨Nat.le_add_right ..,
      Nat.le_trans hr.inOrder.currentLine_le.2 (Nat.le_trans hr.scanned_le hr.fits)⟩
  rw [takeLine?, Reader.takeLine, hr.currentLine?_eq]
  simp only [Option.bind_eq_bind, Option.bind_some, Line.parseAt?_eq hin, Header.parseAt?_eq hin]
  cases hcurrent : r.phase with
  | requestLine =>
    cases Line.parse? (r.input.slice r.currentLine) with
    | none => rfl
    | some parts =>
      exact congrArg (fun r => some (Outcome.incomplete, r)) (takeRequestLine_shift ..)
  | headers =>
    dsimp only
    rw [Buffer.slice_isEmpty hin]
    by_cases hempty : r.currentLine.stop ≤ r.currentLine.start
    · rw [if_pos hempty, if_pos (by simpa using hempty)]
    · rw [if_neg hempty, if_neg (by simpa using hempty), takeHeader?_shift]
      generalize Reader.takeHeader? _ r.currentLine.start _ = taken
      cases taken with
      | none => rfl
      | some r' => rfl
  | body => exact absurd hcurrent hphase

/-- **No access is out of bounds, and reading comes to an end**: there is at most one round more
than there are bytes that have not been searched. The induction is on the rounds, with the reader
general, since each round but the last moves the search on. -/
theorem advanceWithin?_eq (hr : r.Bounded) {rounds : Nat} (h : r.input.used - r.scanned < rounds) :
    advanceWithin? rounds r = some r.advance := by
  induction rounds generalizing r with
  | zero => exact absurd h (Nat.not_lt_zero _)
  | succ rounds ih =>
    rw [advanceWithin?, advance_eq]
    split
    · rfl
    · next hphase =>
      obtain ⟨hr', -⟩ := hr.scanLine
      have hsame := (scanLine_says_nothing r).1
      rw [hr.scanLine?_eq]
      simp only [Option.bind_eq_bind, Option.bind_some]
      cases hscan : r.scanLine with
      | mk status r' =>
        rw [hscan] at hr' hsame
        cases status with
        | malformed => rfl
        | incomplete => rfl
        | complete =>
          -- a completed line takes the search further
          obtain ⟨hused, hfurther, hbefore⟩ := scanLine_complete hscan
          obtain ⟨hinput, hscanned⟩ := takeLine_cursor r'
          have hline : r'.phase ≠ .body := hsame ▸ hphase
          have hfewer : r'.takeLine.2.input.used - r'.takeLine.2.scanned < rounds := by
            rw [hinput, hscanned, hused]
            omega
          simp only [hr'.takeLine?_eq hline, Option.bind_some]
          split
          · exact ih (hr'.takeLine hline).1 hfewer
          · rfl

end Bounded

end Reader

end Request

end FileServer
