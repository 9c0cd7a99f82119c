import FileServer.Proofs.Decimal
import FileServer.Proofs.Request.Lines

/-!
# What header lines mean

Three names matter. A line gives a value to a name if that name, in any case, stands before its
first colon (`Header.valueOf?`); a line that gives none to any of the three has no effect. Of all
the values that are given to a name, one may suffice, as for `Connection`, or the last one counts
(`Header.latest`). A reader that comes to the end of the header lines has been told just that
(`Reader.Told`).

What becomes of the request then depends on the length of the body and on where the header lines end
(`Reader.Searching.judges_headers`).

What a line says is stated without the parser, by the values that it gives (`Header.Says`), and the
parser is shown to say just that (`Header.says_parse`). Over several lines the values of each name
are collected in order (`Header.values`), and the induction on the lines shows that what the reader
keeps is what is asked of those values (`Reader.Told`). A length that does not fit stops the reading
at its line, whatever comes behind it.
-/

namespace FileServer

/-- The bytes without the blanks in front and at the end. -/
def Bytes.trimmed (bytes : Bytes) : Bytes := bytes.dropBlanks.dropTrailingBlanks

namespace Request

open Response (lineEnd)

/-! ## Names and values

Names are compared in any case, and a name ends at the first colon of its line. The parser tries the
three that matter in turn; the cases of `Says` do not depend on that order. -/

namespace Header

variable {name name' line value text : Bytes}

/-- The name of the header that may ask to keep the connection. -/
abbrev connectionName : Bytes := .ofText "Connection"

/-- The name of the header that announces a body. -/
abbrev contentLengthName : Bytes := .ofText "Content-Length"

/-- The name of the header that says which host is meant. -/
abbrev hostName : Bytes := .ofText "Host"

/-- What asks to keep the connection. -/
abbrev keepAliveText : Bytes := .ofText "keep-alive"

/-- The value that a line gives to a name: all that follows the first colon, if the name stands
before it. -/
def valueOf? (name line : Bytes) : Option Bytes :=
  if colon ∈ line ∧ Bytes.sameLetters (line.take (line.idxOf colon)) name then
    some (line.drop (line.idxOf colon + 1))
  else none

/-- Where a line is cut into name and value: at its first colon, so that a value may hold
others. -/
theorem valueOf?_eq_some :
    valueOf? name line = some value ↔
      ∃ written, line = written ++ colon :: value ∧ colon ∉ written ∧
        Bytes.sameLetters written name := by
  rw [valueOf?]
  constructor
  · intro h
    split at h
    · next hname =>
      obtain ⟨hcolon, hname⟩ := hname
      obtain rfl := Option.some.inj h
      have hlt := List.idxOf_lt_length_of_mem hcolon
      -- what stands before the first colon holds none
      refine ⟨line.take (line.idxOf colon), ?_, ?_, hname⟩
      · calc
          line = line.take (line.idxOf colon) ++ line.drop (line.idxOf colon) :=
            (List.take_append_drop ..).symm
          _ = line.take (line.idxOf colon) ++ colon :: line.drop (line.idxOf colon + 1) := by
            rw [List.drop_eq_getElem_cons hlt, List.getElem_idxOf hlt]
      · intro hbefore
        exact absurd ((List.mem_take_iff_idxOf_lt hcolon).mp hbefore) (Nat.lt_irrefl _)
    · cases h
  · rintro ⟨written, rfl, hfirst, hname⟩
    have hindex : (written ++ colon :: value).idxOf colon = written.length := by
      rw [List.idxOf_append_of_notMem hfirst, List.idxOf_cons_self, Nat.add_zero]
    rw [hindex, List.take_left, ← List.drop_drop, List.drop_left]
    exact if_pos ⟨List.mem_append_right _ List.mem_cons_self, hname⟩

/-- A line does not give values to two names that differ by more than case. -/
theorem valueOf?_eq_none (h : valueOf? name line = some value)
    (hapart : name.map lowerCase ≠ name'.map lowerCase) : valueOf? name' line = none := by
  rw [valueOf?] at h ⊢
  split at h
  · next hname =>
    refine if_neg ?_
    rintro ⟨-, hname'⟩
    exact hapart ((eq_of_beq hname.2).symm.trans (eq_of_beq hname'))
  · cases h

/-- What a header line says, by the values that it gives. The cases exclude each other, so that a
line says one thing, and for each name the value is read in its own way. -/
inductive Says (line : Bytes) : Header → Prop
  | connection {value : Bytes} : valueOf? connectionName line = some value →
    valueOf? contentLengthName line = none → valueOf? hostName line = none →
    Says line (.connection (value.trimmed.sameLetters keepAliveText))
  | contentLength {value : Bytes} : valueOf? connectionName line = none →
    valueOf? contentLengthName line = some value → valueOf? hostName line = none →
    Says line (.contentLength (Decimal.word? value.trimmed))
  | host {value : Bytes} : valueOf? connectionName line = none →
    valueOf? contentLengthName line = none → valueOf? hostName line = some value →
    Says line (.host ⟨line.length - value.dropBlanks.length, line.length⟩)
  | other : valueOf? connectionName line = none → valueOf? contentLengthName line = none →
    valueOf? hostName line = none → Says line .other

/-- **The parser says what the line says.** It looks for the three names in turn, and of the three
at most one can be the name of the line. -/
theorem says_parse (line : Bytes) : Says line (.parse line) := by
  rw [Header.parse]
  by_cases hcolon : colon ∈ line
  · have hnone : ∀ {name : Bytes}, ¬ Bytes.sameLetters (line.take (line.idxOf colon)) name →
        valueOf? name line = none := by
      intro name hname
      exact if_neg fun h => hname h.2
    have hsome : ∀ {name : Bytes}, Bytes.sameLetters (line.take (line.idxOf colon)) name →
        valueOf? name line = some (line.drop (line.idxOf colon + 1)) :=
      fun hname => if_pos ⟨hcolon, hname⟩
    rw [if_pos hcolon]
    dsimp only
    -- the names are tried one after the other, and the line can bear only one of them
    by_cases hconnection : Bytes.sameLetters (line.take (line.idxOf colon)) connectionName
    · have hvalue := hsome hconnection
      rw [if_pos hconnection]
      exact .connection hvalue (valueOf?_eq_none hvalue (by decide))
        (valueOf?_eq_none hvalue (by decide))
    rw [if_neg hconnection]
    by_cases hlength : Bytes.sameLetters (line.take (line.idxOf colon)) contentLengthName
    · have hvalue := hsome hlength
      rw [if_pos hlength]
      exact .contentLength (hnone hconnection) hvalue (valueOf?_eq_none hvalue (by decide))
    rw [if_neg hlength]
    by_cases hhost : Bytes.sameLetters (line.take (line.idxOf colon)) hostName
    · rw [if_pos hhost]
      exact .host (hnone hconnection) (hnone hlength) (hsome hhost)
    · rw [if_neg hhost]
      exact .other (hnone hconnection) (hnone hlength) (hnone hhost)
  · have hnone : ∀ name, valueOf? name line = none := fun name => if_neg fun h => hcolon h.1
    rw [if_neg hcolon]
    exact .other (hnone _) (hnone _) (hnone _)

/-- What may announce a body: digits, at least one, of a number that does not go beyond the
buffer. -/
structure IsLength (text : Bytes) : Prop where
  ne_nil : text ≠ []
  digits : ∀ b ∈ text, isDigit b = true
  value_le : Decimal.value text ≤ inputCapacity

/-- What may announce a body is what is read as a number and does not go beyond the buffer. -/
theorem isLength_iff : IsLength text ↔ ∃ n, Decimal.word? text = some n ∧ n ≤ inputCapacity := by
  constructor
  · intro h
    have hfits : Decimal.value text < Decimal.wordLimit := Nat.lt_of_le_of_lt h.value_le (by decide)
    exact ⟨_, Decimal.word?_eq_some.mpr ⟨h.ne_nil, h.digits, rfl, hfits⟩, h.value_le⟩
  · rintro ⟨n, hn, hle⟩
    obtain ⟨hne, hdigits, rfl, -⟩ := Decimal.word?_eq_some.mp hn
    exact ⟨hne, hdigits, hle⟩

/-- All the values that some lines give to a name, in their order. -/
def values (name : Bytes) (lines : List Bytes) : List Bytes := lines.filterMap (valueOf? name)

/-- What the last of some values says, or what was known before there were any. -/
def latest {α : Type} (say : Bytes → α) (before : α) (values : List Bytes) : α :=
  (values.getLast?.map say).getD before

theorem values_of_some (h : valueOf? name line = some value) : values name [line] = [value] :=
  List.filterMap_cons_some h

theorem values_of_none (h : valueOf? name line = none) : values name [line] = [] :=
  List.filterMap_cons_none h

theorem values_append (name : Bytes) (lines lines' : List Bytes) :
    values name (lines ++ lines') = values name lines ++ values name lines' := List.filterMap_append

/-- Of two lots of values the second counts, if it is not empty. -/
theorem latest_append {α : Type} (say : Bytes → α) (before : α) (vs vs' : List Bytes) :
    latest say before (vs ++ vs') = latest say (latest say before vs) vs' := by
  rw [latest, latest, List.getLast?_append]
  cases vs'.getLast? <;> rfl

end Header

/-! ## Line by line

A header line that is accepted tells the reader what it says; one that announces a length which is
none is refused, and then nothing behind it is read. -/

namespace Reader

open Header

variable {r q q' : Reader} {line rest : Bytes} {lines lines' : List Bytes}

/-- What some header lines have told a reader, which was `r` before them and is `q` behind them.
Keeping the connection is asked for by any of them; length and host are as the last one says that
says anything of them, or as before. -/
structure Told (r : Reader) (lines : List Bytes) (q : Reader) : Prop where
  keepAlive : q.fields.keepAlive =
    (r.fields.keepAlive || (values connectionName lines).any (·.trimmed.sameLetters keepAliveText))
  contentLength : q.fields.contentLength =
    latest (fun value => Decimal.value value.trimmed) r.fields.contentLength
      (values contentLengthName lines)
  host : q.input.slice q.fields.host =
    latest Bytes.dropBlanks (r.input.slice r.fields.host) (values hostName lines)

theorem Told.append (h : Told r lines q) (h' : Told q lines' q') : Told r (lines ++ lines') q' where
  keepAlive := by rw [h'.keepAlive, h.keepAlive, values_append, List.any_append, Bool.or_assoc]
  contentLength := by rw [h'.contentLength, h.contentLength, values_append, latest_append]
  host := by rw [h'.host, h.host, values_append, latest_append]

/-- The length of a body, where a line announces one, is one that a body may have. -/
def Sound (lines : List Bytes) : Prop :=
  ∀ value ∈ values contentLengthName lines, IsLength value.trimmed

section

variable (hr : r.Searching) (hpending : r.pending = line ++ (lineEnd ++ rest))
  (hline : Unbroken line)

include hr hpending hline

/-- What is taken in of a header line is what it gives a value to. -/
theorem Searching.told_takeHeader? {header : Header} (hmeans : Says line header)
    (hsound : Sound [line]) :
    ∃ q, (r.onward line.length).takeHeader? r.lineStart header = some q ∧ r.Told [line] q := by
  obtain ⟨-, hkept⟩ := hr.onward hpending hline
  -- a name to which no value is given
  have hconnection : valueOf? connectionName line = none → r.fields.keepAlive =
      (r.fields.keepAlive ||
        (values connectionName [line]).any (·.trimmed.sameLetters keepAliveText)) := by
    intro hnone
    rw [values_of_none hnone, List.any_nil, Bool.or_false]
  have hlength : valueOf? contentLengthName line = none → r.fields.contentLength =
      latest (fun value => Decimal.value value.trimmed) r.fields.contentLength
        (values contentLengthName [line]) := by
    intro hnone
    rw [values_of_none hnone]
    rfl
  have hhost : valueOf? hostName line = none → (r.onward line.length).input.slice r.fields.host =
      latest Bytes.dropBlanks (r.input.slice r.fields.host) (values hostName [line]) := by
    intro hnone
    rw [values_of_none hnone]
    exact hkept.slice hr.host.stop_le
  cases hmeans with
  | connection hvalue hlength' hhost' =>
    refine ⟨_, rfl, ?_, hlength hlength', hhost hhost'⟩
    rw [values_of_some hvalue, List.any_cons, List.any_nil, Bool.or_false]
    rfl
  | contentLength hconnection' hvalue hhost' =>
    have hsound' := hsound _ (values_of_some hvalue ▸ List.mem_singleton_self _)
    obtain ⟨n, hword, hfits⟩ := isLength_iff.mp hsound'
    obtain rfl := Decimal.value_of_word? hword
    rw [hword, takeHeader?, if_pos hfits]
    refine ⟨_, rfl, hconnection hconnection', ?_, hhost hhost'⟩
    rw [values_of_some hvalue]
    rfl
  | @host value hconnection' hlength' hvalue =>
    refine ⟨_, rfl, hconnection hconnection', hlength hlength', ?_⟩
    rw [values_of_some hvalue]
    -- the host takes all of the line from its first byte on
    obtain ⟨written, rfl, -, -⟩ := valueOf?_eq_some.mp hvalue
    obtain ⟨gap, hgap⟩ : value.dropBlanks <:+ value := List.dropWhile_suffix _
    have hparts : written ++ colon :: gap ++ (value.dropBlanks ++ []) =
        written ++ colon :: value := by
      rw [List.append_nil, List.append_assoc, List.cons_append, hgap]
    have hend : (written ++ colon :: value).length =
        (written ++ colon :: gap).length + value.dropBlanks.length := by
      rw [← hparts, List.append_nil, List.length_append]
    have hstart : (written ++ colon :: value).length - value.dropBlanks.length =
        (written ++ colon :: gap).length := by
      rw [hend, Nat.add_sub_cancel]
    have hpart := hr.slice_part hpending hparts
    rw [← hend, ← hstart] at hpart
    exact hpart
  | other hconnection' hlength' hhost' =>
    exact ⟨_, rfl, hconnection hconnection', hlength hlength', hhost hhost'⟩

/-- A header line that may stand where it does is taken in, and reading goes on behind it. -/
theorem Searching.takes_header (hphase : r.phase = .headers) (hne : line ≠ []) (hzero : 0 ∉ line)
    (hsound : Sound [line]) : ∃ q, r.GoesOnAs q rest ∧ q.phase = .headers ∧ r.Told [line] q := by
  have hnot_body : r.phase ≠ .body := by simp [hphase]
  obtain ⟨q, htake, htold⟩ := hr.told_takeHeader? hpending hline (says_parse line) hsound
  have hpass := hr.pass_eq hpending
  rw [hphase, if_neg Phase.noConfusion, visible_eq_self.mpr hzero, if_neg hne, htake,
    Option.elim_some] at hpass
  have hgoes := hr.goesOnAs hpending hline hnot_body hpass
  exact ⟨q, hgoes, (takeHeader?_lineStart htake).2.trans hphase, htold⟩

/-- A line that announces a body that cannot be ends the reading. -/
theorem Searching.refuses_header (hphase : r.phase = .headers) (hne : line ≠ []) (hzero : 0 ∉ line)
    (hbad : ¬ Sound [line]) : r.advance.1 = .malformed := by
  have hnot_body : r.phase ≠ .body := by simp [hphase]
  have htake : (r.onward line.length).takeHeader? r.lineStart (.parse line) = none := by
    have hmeans := says_parse line
    generalize Header.parse line = header at hmeans
    -- a line that announces no body is sound
    have hsilent : valueOf? contentLengthName line ≠ none := by
      intro hnone
      refine hbad fun value hvalue => ?_
      rw [values_of_none hnone] at hvalue
      cases hvalue
    cases hmeans with
    | connection _ hnone => exact absurd hnone hsilent
    | @contentLength value _ hvalue =>
      cases hword : Decimal.word? value.trimmed with
      | none => rfl
      | some n =>
        refine if_neg fun hfits => hbad fun value' hvalue' => ?_
        rw [values_of_some hvalue] at hvalue'
        obtain rfl := List.mem_singleton.mp hvalue'
        exact isLength_iff.mpr ⟨n, hword, hfits⟩
    | host _ hnone => exact absurd hnone hsilent
    | other _ hnone => exact absurd hnone hsilent
  have hpass := hr.pass_eq hpending
  rw [hphase, if_neg Phase.noConfusion, visible_eq_self.mpr hzero, if_neg hne, htake,
    Option.elim_none] at hpass
  rw [hr.advance_pass hpending hline hnot_body, hpass]
  rfl

end

/-! ## The whole of the header lines

By induction on the lines, and then over the empty line that ends them. What becomes of the request
there is decided by the length of the body and by where it starts. -/

/-- Bytes that a client may send as a header line. -/
structure IsHeaderLine (line : Bytes) : Prop where
  ne_nil : line ≠ []
  no_zero : 0 ∉ line
  unbroken : Unbroken line

theorem sound_append (lines lines' : List Bytes) :
    Sound (lines ++ lines') ↔ Sound lines ∧ Sound lines' := by
  rw [Sound, values_append]
  exact List.forall_mem_append

instance (line : Bytes) : Decidable (IsHeaderLine line) :=
  decidable_of_iff (line ≠ [] ∧ 0 ∉ line ∧ Unbroken line)
    ⟨fun h => ⟨h.1, h.2.1, h.2.2⟩, fun h => ⟨h.ne_nil, h.no_zero, h.unbroken⟩⟩

/-- Reading goes on behind any number of header lines. The induction is on the lines, and each
step is the lemma on a single one. -/
theorem Searching.takes_headers (hr : r.Searching) (hphase : r.phase = .headers)
    (hlines : ∀ line ∈ lines, IsHeaderLine line) (hsound : Sound lines)
    (hpending : r.pending = lines.flatMap (· ++ lineEnd) ++ rest) :
    ∃ q, r.GoesOnAs q rest ∧ q.phase = .headers ∧ r.Told lines q := by
  induction lines generalizing r with
  | nil =>
    refine ⟨r, ⟨hr, hpending, rfl, rfl⟩, hphase, ⟨?_, rfl, rfl⟩⟩
    exact (Bool.or_false _).symm
  | cons line lines ih =>
    obtain ⟨hfirst, hrest⟩ := List.forall_mem_cons.mp hlines
    -- what the first line has told comes before what the others tell
    obtain ⟨hsound_first, hsound_rest⟩ := (sound_append [line] lines).mp hsound
    rw [List.flatMap_cons, List.append_assoc, List.append_assoc] at hpending
    obtain ⟨q, hgoes, hheaders, htold⟩ :=
      hr.takes_header hpending hfirst.unbroken hphase hfirst.ne_nil hfirst.no_zero hsound_first
    obtain ⟨q', hgoes', hheaders', htold'⟩ :=
      ih hgoes.searching hheaders hrest hsound_rest hgoes.pending
    exact ⟨q', hgoes.trans hgoes', hheaders', htold.append htold'⟩

/-- The first line that announces a body that cannot be ends the reading. The lines before it are
taken as above, and those behind it are never read. -/
theorem Searching.refuses_headers (hr : r.Searching) (hphase : r.phase = .headers)
    (hlines : ∀ line ∈ lines, IsHeaderLine line) (hbad : ¬ Sound lines)
    (hpending : r.pending = lines.flatMap (· ++ lineEnd) ++ rest) : r.advance.1 = .malformed := by
  induction lines generalizing r with
  | nil => exact absurd (List.forall_mem_nil _) hbad
  | cons line lines ih =>
    obtain ⟨hfirst, hrest⟩ := List.forall_mem_cons.mp hlines
    rw [List.flatMap_cons, List.append_assoc, List.append_assoc] at hpending
    by_cases hsound : Sound [line]
    · obtain ⟨q, hgoes, hheaders, -⟩ :=
        hr.takes_header hpending hfirst.unbroken hphase hfirst.ne_nil hfirst.no_zero hsound
      have hbad' : ¬ Sound lines := fun h => hbad ((sound_append [line] lines).mpr ⟨hsound, h⟩)
      rw [hgoes.advance]
      exact ih hgoes.searching hheaders hrest hbad' hgoes.pending
    · exact hr.refuses_header hpending hfirst.unbroken hphase hfirst.ne_nil hfirst.no_zero hsound

/-- What becomes of a request, of which `used` bytes have arrived, if its header lines end at `b`
and a body of `length` bytes is to follow. -/
def verdict (length b used : Nat) : Outcome :=
  if length = 0 then .complete
  else if inputCapacity < b + length then .malformed
  else if b + length ≤ used then .complete
  else .incomplete

/-- The empty line ends the header lines. -/
theorem Searching.ends_headers (hr : r.Searching) (hphase : r.phase = .headers)
    (hpending : r.pending = lineEnd ++ rest) :
    r.advance.1 = verdict r.fields.contentLength (r.lineStart + 2) r.input.used ∧
      r.advance.2.fields = r.fields := by
  have hnot_body : r.phase ≠ .body := by simp [hphase]
  have hempty : r.pending = [] ++ (lineEnd ++ rest) := hpending
  have hpass := hr.pass_eq hempty
  have hadvance := hr.advance_pass hempty unbroken_nil hnot_body
  rw [hphase, if_neg Phase.noConfusion, if_pos (visible_eq_nil.mpr (.inl rfl))] at hpass
  rw [hadvance, hpass, verdict, endHeaders]
  have hfields : (r.onward ([] : Bytes).length).fields = r.fields := rfl
  have hscanned : (r.onward ([] : Bytes).length).scanned = r.lineStart + 2 := rfl
  by_cases hnone : r.fields.contentLength = 0
  · rw [hfields, if_pos hnone, if_pos hnone]
    exact ⟨rfl, rfl⟩
  rw [hfields, hscanned, if_neg hnone, if_neg hnone]
  dsimp only
  -- a body is due, and the same call looks whether all of it is there
  by_cases hfits : r.lineStart + 2 + r.fields.contentLength ≤ inputCapacity
  · rw [if_pos hfits, if_neg (Nat.not_lt.mpr hfits), if_pos rfl, Reader.advance_eq, if_pos rfl]
    exact ⟨rfl, rfl⟩
  · rw [if_neg hfits, if_pos (Nat.lt_of_not_le hfits), if_neg Outcome.noConfusion]
    exact ⟨rfl, rfl⟩

/-- The length that the last of some header lines to announce a body announces. -/
def announced (lines : List Bytes) : Nat :=
  latest (fun value => Decimal.value value.trimmed) 0 (values contentLengthName lines)

/-- What a reader makes of a request with some header lines, which end at `b`. Lines that give a
value to none of the three names do not matter. -/
structure JudgesHeaders (r : Reader) (lines : List Bytes) (b : Nat) : Prop where
  /-- a rule is broken exactly if a line announces a body that cannot be, or the last one to
  announce a body announces one that does not fit behind the header lines -/
  malformed_iff : r.advance.1 = .malformed ↔
    (∃ value ∈ values contentLengthName lines, ¬ IsLength value.trimmed) ∨
      (0 < announced lines ∧ inputCapacity < b + announced lines)
  /-- one line suffices to keep the connection -/
  keepAlive_iff : r.advance.1 ≠ .malformed → (r.advance.2.fields.keepAlive = true ↔
    ∃ value ∈ values connectionName lines, value.trimmed.sameLetters keepAliveText)
  contentLength : r.advance.1 ≠ .malformed → r.advance.2.fields.contentLength = announced lines
  /-- the host is the last one, and keeps the blanks at its end -/
  host : r.advance.1 ≠ .malformed → r.advance.2.input.slice r.advance.2.fields.host =
    latest Bytes.dropBlanks [] (values hostName lines)
  /-- the request is complete exactly if all of its body has arrived -/
  complete_iff : r.advance.1 ≠ .malformed →
    (r.advance.1 = .complete ↔ announced lines = 0 ∨ b + announced lines ≤ r.input.used)

/-- A request line and some header lines, with all that ends them. -/
def block (requestLine : Bytes) (lines : List Bytes) : Bytes :=
  requestLine ++ (lineEnd ++ (lines.flatMap (· ++ lineEnd) ++ lineEnd))

theorem block_append (requestLine : Bytes) (lines : List Bytes) (rest : Bytes) :
    block requestLine lines ++ rest =
      requestLine ++ (lineEnd ++ (lines.flatMap (· ++ lineEnd) ++ (lineEnd ++ rest))) := by
  rw [block]
  simp only [List.append_assoc]

/-- A rule is broken behind the header lines just if there is a body and it does not fit. -/
theorem verdict_eq_malformed {length b used : Nat} :
    verdict length b used = .malformed ↔ 0 < length ∧ inputCapacity < b + length := by
  rw [verdict]
  by_cases hnone : length = 0
  · simp [hnone]
  by_cases hlong : inputCapacity < b + length
  · simp [hnone, hlong, Nat.pos_of_ne_zero hnone]
  · rw [if_neg hnone, if_neg hlong]
    refine iff_of_false ?_ fun h => hlong h.2
    split <;> exact Outcome.noConfusion

/-- Otherwise the request is complete just if all of its body is there, as it is when it has
none. -/
theorem verdict_eq_complete {length b used : Nat} (h : verdict length b used ≠ .malformed) :
    verdict length b used = .complete ↔ length = 0 ∨ b + length ≤ used := by
  have hfits := fun hpos hlong => h (verdict_eq_malformed.mpr ⟨hpos, hlong⟩)
  rw [verdict]
  by_cases hnone : length = 0
  · simp [hnone]
  rw [if_neg hnone, if_neg (hfits (Nat.pos_of_ne_zero hnone))]
  split <;> simp_all

section

variable {requestLine : Bytes} (hr : r.Searching) (hphase : r.phase = .requestLine)
  (hrequest : Unbroken requestLine) (haccepted : (Line.parse? (visible requestLine)).isSome)

include hr hphase hrequest haccepted

/-- Behind a request line that is accepted the header lines start, and nothing has been told yet. -/
theorem Searching.takes_request_line (hpending : r.pending = requestLine ++ (lineEnd ++ rest)) :
    ∃ q, r.GoesOnAs q rest ∧ q.phase = .headers ∧ r.Told [] q := by
  have hnot_body : r.phase ≠ .body := by simp [hphase]
  obtain ⟨parts, hparts⟩ := Option.isSome_iff_exists.mp haccepted
  have hpass := hr.pass_eq hpending
  rw [if_pos hphase, hparts, Option.elim_some] at hpass
  have hgoes := hr.goesOnAs hpending hrequest hnot_body hpass
  obtain ⟨-, hkept⟩ := hr.onward hpending hrequest
  refine ⟨_, hgoes, rfl, ⟨?_, rfl, ?_⟩⟩
  · exact (Bool.or_false _).symm
  · exact hkept.slice hr.host.stop_le

/-- What a reader makes of header lines that announce no body that cannot be. -/
theorem Searching.judges_sound (hfields : r.fields = {})
    (hlines : ∀ line ∈ lines, IsHeaderLine line)
    (hsound : Sound lines) (hpending : r.pending = block requestLine lines ++ rest) :
    r.JudgesHeaders lines (r.lineStart + (block requestLine lines).length) := by
  obtain ⟨q, hgoes, hheaders, htold⟩ :=
    hr.takes_request_line hphase hrequest haccepted (hpending.trans (block_append ..))
  obtain ⟨q', hgoes', hheaders', htold'⟩ :=
    hgoes.searching.takes_headers hheaders hlines hsound hgoes.pending
  have hgoes'' := hgoes.trans hgoes'
  have htold'' := htold.append htold'
  obtain ⟨houtcome, hsaid⟩ := hgoes'.searching.ends_headers hheaders' hgoes'.pending
  -- the empty line ends where the block does
  have hend : q'.lineStart + 2 = r.lineStart + (block requestLine lines).length := by
    have hused := hr.length_pending
    have hused' := hgoes'.searching.length_pending
    have htwo : lineEnd.length = 2 := rfl
    rw [hgoes'.pending, hgoes''.used, List.length_append, htwo] at hused'
    rw [hpending, List.length_append] at hused
    omega
  have hlength : q'.fields.contentLength = announced lines := by
    rw [htold''.contentLength, hfields]
    rfl
  rw [hlength, hend, hgoes''.used, ← hgoes''.advance] at houtcome
  rw [← hgoes''.advance] at hsaid
  obtain ⟨-, hkept⟩ := hgoes'.searching.toBounded.advance
  -- nothing that has been told changes any more
  refine ⟨?_, fun _ => ?_, fun _ => ?_, fun _ => ?_, fun hgood => ?_⟩
  · rw [houtcome, verdict_eq_malformed]
    refine ⟨.inr, fun h => h.resolve_left ?_⟩
    rintro ⟨value, hvalue, hbad⟩
    exact hbad (hsound value hvalue)
  · rw [hsaid, htold''.keepAlive, hfields, Bool.false_or, List.any_eq_true]
    rfl
  · rw [hsaid, hlength]
  · rw [hsaid, hgoes''.advance, hkept.slice hgoes'.searching.host.stop_le, htold''.host, hfields]
    rfl
  · rw [houtcome] at hgood ⊢
    exact verdict_eq_complete hgood

end

end Reader

end Request

end FileServer
