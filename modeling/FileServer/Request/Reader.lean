import FileServer.Request.Line
import FileServer.Request.Header

/-!
# Reading a request as it arrives

A reader holds the bytes that have arrived, how far it has looked for the end of a line, where the
current line starts, and what the lines so far have said. `Reader.advance` goes on from there over
all that is buffered: it stops when a request is complete, when a rule is broken, or when it has to
wait. As the reader resumes from its own cursors, it does not matter how the bytes were cut when
they came.

The end of a line is overwritten with zeros once it has been found, so a completed line reaches to
the first zero byte behind its start.
-/

namespace FileServer.Request

/-- Which part of a request is being read. -/
inductive Phase
  | requestLine
  | headers
  | body
  deriving DecidableEq, Repr, Inhabited

/-- What has been read of a request. Texts are windows of the input buffer. -/
structure Fields where
  /-- what is to be done -/
  method : Method := .get
  /-- the path asked for -/
  target : Window := {}
  /-- the version as written -/
  version : Window := {}
  /-- the value of the last `Host` line -/
  host : Window := {}
  /-- the value of the last `Content-Length` line -/
  contentLength : Nat := 0
  /-- whether some `Connection` line asked to keep the connection -/
  keepAlive : Bool := false
  deriving DecidableEq, Repr, Inhabited

/-- How far a reader got. -/
inductive Outcome
  /-- more bytes have to arrive -/
  | incomplete
  /-- the bytes break a rule -/
  | malformed
  /-- a whole request is there -/
  | complete
  deriving DecidableEq, Repr, Inhabited

/-- How the search for the end of a line ended. -/
inductive LineStatus
  /-- the line is complete -/
  | complete
  /-- one of the two bytes that end a line stands alone -/
  | malformed
  /-- the end has not arrived -/
  | incomplete
  deriving DecidableEq, Repr

/-- The size of the input buffer. -/
def inputCapacity : Nat := 2048

/-- The state of reading requests from one connection. -/
structure Reader where
  /-- the bytes that have arrived -/
  input : Buffer := .blank inputCapacity
  /-- up to where the end of the current line has been looked for -/
  scanned : Nat := 0
  /-- where the current line starts -/
  lineStart : Nat := 0
  /-- which part of the request is due -/
  phase : Phase := .requestLine
  /-- what has been read -/
  fields : Fields := {}
  /-- where the body starts -/
  bodyStart : Nat := 0
  deriving DecidableEq, Repr, Inhabited

namespace Reader

/-- Starts on a new request. The memory of the buffer is not cleared. -/
def reset (r : Reader) : Reader := { input := r.input.clear }

/-- The text under a window, empty unless it is UTF-8. -/
def textAt (r : Reader) (w : Window) : String := (r.input.slice w).text?.getD ""

/-- The path asked for. -/
def target (r : Reader) : String := r.textAt r.fields.target

/-- The version as written. -/
def version (r : Reader) : String := r.textAt r.fields.version

/-- The host as written. -/
def host (r : Reader) : String := r.textAt r.fields.host

/-! ## Lines -/

/-- Looks for the end of the current line among the bytes not looked at yet. A carriage return that
is the last byte so far is looked at again next time. Of a complete line the two ending bytes are
overwritten with zeros, and the search goes on behind them. -/
def scanLine (r : Reader) : LineStatus × Reader :=
  match (r.input.slice ⟨r.scanned, r.input.used⟩).findIdx? isLineEnd with
  | none => (.incomplete, { r with scanned := r.input.used })
  | some offset =>
    let pos := r.scanned + offset
    if r.input.byteAt pos = carriageReturn then
      if pos + 1 = r.input.used then (.incomplete, { r with scanned := pos })
      else if r.input.byteAt (pos + 1) = lineFeed then
        (.complete, { r with input := r.input.overwrite pos [0, 0], scanned := pos + 2 })
      else (.malformed, { r with scanned := pos })
    else if 0 < pos ∧ r.input.byteAt (pos - 1) = carriageReturn then
      (.complete, { r with input := r.input.overwrite (pos - 1) [0, 0], scanned := pos + 1 })
    else (.malformed, { r with scanned := pos })

/-- Where the line just completed stands: up to the first zero byte behind its start. -/
def currentLine (r : Reader) : Window :=
  ⟨r.lineStart, r.lineStart + (r.input.slice ⟨r.lineStart, r.scanned⟩).idxOf 0⟩

/-- Takes in what a request line says, which stands at `start`. -/
def takeRequestLine (r : Reader) (start : Nat) (line : Line) : Reader :=
  { r with
    phase := .headers
    fields := { r.fields with
      method := .get
      target := line.target.shift start
      version := line.version.shift start } }

/-- Takes in what a header line says, which stands at `start`. A length that is no number, or that
could never fit the buffer, breaks a rule. -/
def takeHeader? (r : Reader) (start : Nat) : Header → Option Reader
  | .connection keep =>
    some { r with fields := { r.fields with keepAlive := r.fields.keepAlive || keep } }
  | .contentLength none => none
  | .contentLength (some n) =>
    if n ≤ inputCapacity then some { r with fields := { r.fields with contentLength := n } }
    else none
  | .host value => some { r with fields := { r.fields with host := value.shift start } }
  | .other => some r

/-- Closes the header lines. Without a body the request is complete; a body that could never fit the
buffer breaks a rule; else the body is due. -/
def endHeaders (r : Reader) : Outcome × Reader :=
  if r.fields.contentLength = 0 then (.complete, r)
  else
    let r := { r with bodyStart := r.scanned }
    if r.bodyStart + r.fields.contentLength ≤ inputCapacity then
      (.incomplete, { r with phase := .body })
    else (.malformed, r)

/-- Acts on the line just completed. The outcome is `incomplete` if reading goes on. -/
def takeLine (r : Reader) : Outcome × Reader :=
  let line := r.currentLine
  let text := r.input.slice line
  let r := { r with lineStart := r.scanned }
  match r.phase with
  | .requestLine =>
    match Line.parse? text with
    | none => (.malformed, r)
    | some parts => (.incomplete, r.takeRequestLine line.start parts)
  | _ =>
    if text.isEmpty then r.endHeaders
    else
      match r.takeHeader? line.start (Header.parse text) with
      | none => (.malformed, r)
      | some r => (.incomplete, r)

/-! ## Progress -/

theorem scanLine_complete {r r' : Reader} (h : r.scanLine = (.complete, r')) :
    r'.input.used = r.input.used ∧ r.scanned < r'.scanned ∧ r.scanned < r.input.used := by
  rw [scanLine] at h
  split at h
  · simp at h
  · rename_i offset found
    have bound := (List.findIdx?_eq_some_iff_getElem.1 found).1
    have := r.input.length_slice_le ⟨r.scanned, r.input.used⟩
    simp only at this
    dsimp only at h
    split at h
    · split at h
      · simp at h
      · split at h
        · obtain rfl := (Prod.mk.inj h).2
          exact ⟨rfl, by dsimp only; omega, by omega⟩
        · simp at h
    · split at h
      · obtain rfl := (Prod.mk.inj h).2
        exact ⟨rfl, by dsimp only; omega, by omega⟩
      · simp at h

@[simp]
theorem takeRequestLine_cursor (r : Reader) (start : Nat) (line : Line) :
    (r.takeRequestLine start line).input = r.input ∧
      (r.takeRequestLine start line).scanned = r.scanned := ⟨rfl, rfl⟩

theorem takeHeader?_cursor {r r' : Reader} {start : Nat} {header : Header}
    (h : r.takeHeader? start header = some r') : r'.input = r.input ∧ r'.scanned = r.scanned := by
  simp only [takeHeader?] at h
  split at h
  · obtain rfl := Option.some.inj h
    exact ⟨rfl, rfl⟩
  · simp at h
  · split at h
    · obtain rfl := Option.some.inj h
      exact ⟨rfl, rfl⟩
    · simp at h
  · obtain rfl := Option.some.inj h
    exact ⟨rfl, rfl⟩
  · obtain rfl := Option.some.inj h
    exact ⟨rfl, rfl⟩

theorem endHeaders_cursor (r : Reader) :
    r.endHeaders.2.input = r.input ∧ r.endHeaders.2.scanned = r.scanned := by
  rw [endHeaders]
  split
  · exact ⟨rfl, rfl⟩
  · dsimp only
    split <;> exact ⟨rfl, rfl⟩

/-- Acting on a line moves neither the bytes nor the search. -/
theorem takeLine_cursor (r : Reader) :
    r.takeLine.2.input = r.input ∧ r.takeLine.2.scanned = r.scanned := by
  rw [takeLine]
  dsimp only
  split
  · split <;> exact ⟨rfl, rfl⟩
  · split
    · exact endHeaders_cursor _
    · split
      · exact ⟨rfl, rfl⟩
      · rename_i r' taken
        have := takeHeader?_cursor taken
        exact this

/-! ## The whole reader -/

/-- Reads on over everything buffered. Every completed line takes the search further, so this
ends. -/
def advance (r : Reader) : Outcome × Reader :=
  if r.phase = .body then
    (if r.bodyStart + r.fields.contentLength ≤ r.input.used then .complete else .incomplete, r)
  else
    match _scan : r.scanLine with
    | (.malformed, r') => (.malformed, r')
    | (.incomplete, r') => (.incomplete, r')
    | (.complete, r') =>
      match _line : r'.takeLine with
      | (.incomplete, r'') => advance r''
      | (outcome, r'') => (outcome, r'')
termination_by r.input.used - r.scanned
decreasing_by
  have scan := scanLine_complete _scan
  have line := takeLine_cursor r'
  simp only [_line] at line
  rw [line.1, line.2]
  omega

end Reader

end FileServer.Request
