import FileServer.Proofs.Request.Lines

/-!
# How a call goes over the lines

A call of the reader goes over what is buffered line by line (`Reader.GoesOver`). The lines that it
takes (`Reader.taken`) are those into which the bytes are cut, each as far as it is seen, and
nothing between them is left out (`Reader.GoesOver.lines`).

It stops for one of a few reasons (`Reader.Stops`): a line is refused; a line is empty, as far as is
seen, and the header lines are over; the next line has not arrived; or one of the two bytes that end
a line stands alone.
-/

namespace FileServer.Request

open Response (lineEnd)

variable {line tail rest : Bytes}

/-- What is seen of a line that is taken for a part of the request. -/
def seen (line : Phase × Bytes) : Phase × Bytes := (line.1, visible line.2)

/-- Whether a header line may stand where it does: the length of a body has to be a number, and one
that can fit. -/
def Header.IsSound : Header → Prop
  | .contentLength none => False
  | .contentLength (some n) => n ≤ inputCapacity
  | _ => True

/-- Whether reading goes on with the next line behind one of which this is seen. -/
def Accepts (line : Phase × Bytes) : Prop :=
  if line.1 = .requestLine then (Line.parse? line.2).isSome = true
  else line.2 ≠ [] ∧ (Header.parse line.2).IsSound

namespace Reader

variable {r r' : Reader}

/-! ## The lines of a call -/

/-- The lines that a reader takes as it goes on over what is buffered, each with the part of the
request that it is taken for. It repeats the loop of `advance` and keeps the lines, which the
reader itself forgets. -/
def taken (r : Reader) : List (Phase × Bytes) :=
  if r.phase = .body then []
  else
    match _scan : r.scanLine with
    | (.complete, r') =>
      (r'.phase, r'.input.slice r'.currentLine) ::
        match _line : r'.takeLine with
        | (.incomplete, r'') => taken r''
        | _ => []
    | _ => []
termination_by r.input.used - r.scanned
decreasing_by
  have scan := scanLine_complete _scan
  have line := takeLine_cursor r'
  simp only [_line] at line
  rw [line.1, line.2]
  omega

/-- One round of `taken`, next to one of `advance`. -/
theorem taken_scan (h : r.phase ≠ .body) :
    r.taken = match r.scanLine with
      | (.complete, r') =>
        (r'.phase, r'.input.slice r'.currentLine) ::
          if r'.takeLine.1 = .incomplete then r'.takeLine.2.taken else []
      | _ => [] := by
  rw [taken, if_neg h]
  split
  · next hscan =>
    rw [hscan]
    dsimp only
    split
    · next hline => rw [hline, if_pos rfl]
    · next hne => rw [if_neg fun hline => hne _ (Prod.ext hline rfl)]
  · next hne =>
    split
    · next hscan => exact absurd hscan (hne _)
    · rfl

/-- How a reader goes over what is buffered: the lines that it comes by, each with the part of the
request for which it is taken, the outcome, and where it stands then. -/
inductive GoesOver : Reader → List (Phase × Bytes) → Outcome → Reader → Prop
  /-- a body is due, and no line is looked for -/
  | body {r : Reader} : r.phase = .body →
    GoesOver r []
      (if r.bodyStart + r.fields.contentLength ≤ r.input.used then .complete else .incomplete) r
  /-- the end of the current line has not arrived -/
  | waits {r : Reader} {line tail : Bytes} : r.phase ≠ .body → r.pending = line ++ tail →
    Unbroken line → Ending tail .incomplete → GoesOver r [] .incomplete (r.stopped line.length)
  /-- one of the two bytes that end a line stands alone -/
  | broken {r : Reader} {line tail : Bytes} : r.phase ≠ .body → r.pending = line ++ tail →
    Unbroken line → Ending tail .malformed → GoesOver r [] .malformed (r.stopped line.length)
  /-- a line ends the reading -/
  | last {r : Reader} {line rest : Bytes} : r.phase ≠ .body →
    r.pending = line ++ (lineEnd ++ rest) →
    Unbroken line → (r.pass line.length).1 ≠ .incomplete →
    GoesOver r [(r.phase, line)] (r.pass line.length).1 (r.pass line.length).2
  /-- reading goes on behind a line -/
  | onward {r r' : Reader} {line rest : Bytes} {more : List (Phase × Bytes)} {outcome : Outcome} :
    r.phase ≠ .body → r.pending = line ++ (lineEnd ++ rest) → Unbroken line →
    (r.pass line.length).1 = .incomplete → GoesOver (r.pass line.length).2 more outcome r' →
    GoesOver r ((r.phase, line) :: more) outcome r'

/-- The calls go over what is buffered line by line, and of each line they take what is to be
seen. From here on the loop is an inductive relation, and what holds of it is proved by induction
on that. -/
theorem Searching.goesOver (hr : r.Searching) :
    ∃ whole, GoesOver r whole r.advance.1 r.advance.2 ∧
      r.taken = whole.map seen := by
  -- every line that is taken leaves fewer bytes
  induction hn : r.pending.length using Nat.strong_induction_on generalizing r with
  | _ n ih =>
    by_cases hphase : r.phase = .body
    · refine ⟨[], ?_, by rw [taken, if_pos hphase]; rfl⟩
      rw [advance_eq, if_pos hphase]
      exact .body hphase
    obtain ⟨line, tail, status, hpending, hline, htail⟩ := exists_ending r.pending
    have hscan := hr.scanLine_eq hpending hline htail
    rw [advance_scan hphase, taken_scan hphase, hscan]
    cases status with
    | incomplete => exact ⟨[], .waits hphase hpending hline htail, rfl⟩
    | malformed => exact ⟨[], .broken hphase hpending hline htail, rfl⟩
    | complete =>
      obtain ⟨rest⟩ := htail
      obtain ⟨hnext, -, hrest⟩ := hr.pass hpending hline hphase
      obtain ⟨-, htext⟩ := hr.currentLine_completed hpending
      have hsame : (r.completed line.length).phase = r.phase := rfl
      rw [if_pos rfl]
      dsimp only
      rw [htext, hsame]
      by_cases hmore : (r.pass line.length).1 = .incomplete
      · have hless : (r.pass line.length).2.pending.length < n := by
          have htwo : lineEnd.length = 2 := rfl
          rw [hrest, ← hn, hpending, List.length_append, List.length_append]
          omega
        obtain ⟨more, hgoes, htaken⟩ := ih _ hless hnext rfl
        rw [Reader.pass] at hmore hgoes htaken
        rw [if_pos hmore, if_pos hmore, htaken]
        exact ⟨_, .onward hphase hpending hline hmore hgoes, rfl⟩
      · have hstop := hmore
        rw [Reader.pass] at hmore
        rw [if_neg hmore, if_neg hmore]
        exact ⟨_, .last hphase hpending hline hstop, rfl⟩

/-- A call cuts the bytes from the start of the current line on into lines, and what is left over
is what is pending afterwards. -/
theorem GoesOver.lines {whole : List (Phase × Bytes)} {outcome : Outcome} (hr : r.Searching)
    (h : GoesOver r whole outcome r') :
    r'.Searching ∧ Kept r r' ∧ Lines r.pending (whole.map Prod.snd) r'.pending := by
  have hnone : ∀ bytes : Bytes, Lines bytes [] bytes := fun bytes => ⟨rfl, fun _ h => nomatch h⟩
  induction h with
  | body => exact ⟨hr, .refl _, hnone _⟩
  | waits hphase hpending hline htail =>
    exact ⟨hr.stopped hpending hline htail LineStatus.noConfusion, ⟨Nat.le_refl _, rfl⟩, hnone _⟩
  | broken hphase hpending hline htail =>
    exact ⟨hr.stopped hpending hline htail LineStatus.noConfusion, ⟨Nat.le_refl _, rfl⟩, hnone _⟩
  | last hphase hpending hline _ =>
    obtain ⟨hnext, hkept, hrest⟩ := hr.pass hpending hline hphase
    refine ⟨hnext, hkept, ⟨?_, ?_⟩⟩
    · rw [hpending, hrest]
      simp
    · simpa using hline
  | onward hphase hpending hline _ _ ih =>
    obtain ⟨hnext, hkept, hrest⟩ := hr.pass hpending hline hphase
    obtain ⟨hsearching, hkept', hlines⟩ := ih hnext
    refine ⟨hsearching, hkept.trans hkept', ⟨?_, ?_⟩⟩
    · rw [hpending, ← hrest, hlines.eq]
      simp
    · simpa using ⟨hline, by simpa using hlines.unbroken⟩

/-! ## Where a call stops -/

/-- A header line is refused for what it says of the length of the body, and for nothing else. -/
theorem takeHeader?_isSome (r : Reader) (start : Nat) (header : Header) :
    (r.takeHeader? start header).isSome ↔ header.IsSound := by
  cases header with
  | contentLength value =>
    cases value with
    | none => simp [takeHeader?, Header.IsSound]
    | some n => by_cases hn : n ≤ inputCapacity <;> simp [takeHeader?, Header.IsSound, hn]
  | connection keep | host value | other => exact iff_of_true rfl trivial

/-- An empty line has ended the header lines. -/
inductive HeadersOver (r : Reader) : Outcome → Prop
  /-- there is no body -/
  | request : r.phase ≠ .body → r.fields.contentLength = 0 → HeadersOver r .complete
  /-- there is a body, and it is due -/
  | body {outcome : Outcome} : r.phase = .body → outcome ≠ .malformed → HeadersOver r outcome
  /-- there is a body that cannot fit -/
  | tooLong : r.phase ≠ .body → inputCapacity < r.lineStart + r.fields.contentLength →
    HeadersOver r .malformed

/-- What comes of one line. -/
inductive Judged (r : Reader) (line : Bytes) : Outcome × Reader → Prop
  /-- reading goes on -/
  | accepted {r' : Reader} : Accepts (r.phase, visible line) → r'.phase ≠ .body →
    Judged r line (.incomplete, r')
  /-- it is no request line, or a header line that may not stand there -/
  | refused {r' : Reader} : ¬ Accepts (r.phase, visible line) →
    (r.phase, visible line) ≠ (.headers, []) → r'.phase ≠ .body → Judged r line (.malformed, r')
  /-- it is empty, as far as is seen -/
  | finished {r' : Reader} {outcome : Outcome} : (r.phase, visible line) = (.headers, []) →
    HeadersOver r' outcome → Judged r line (outcome, r')

theorem HeadersOver.phase_of_incomplete (h : HeadersOver r .incomplete) : r.phase = .body := by
  cases h
  assumption

/-- What an empty line comes to: there is no body, or it is due, or it cannot fit. -/
theorem headersOver_endHeaders (hphase : r.phase ≠ .body) (hstart : r.lineStart = r.scanned) :
    HeadersOver r.endHeaders.2 r.endHeaders.1 := by
  rw [endHeaders]
  by_cases hnone : r.fields.contentLength = 0
  · rw [if_pos hnone]
    exact .request hphase hnone
  rw [if_neg hnone]
  dsimp only
  rw [← hstart]
  by_cases hfits : r.lineStart + r.fields.contentLength ≤ inputCapacity
  · rw [if_pos hfits]
    exact .body rfl Outcome.noConfusion
  · rw [if_neg hfits]
    exact .tooLong hphase (Nat.lt_of_not_le hfits)

/-- **What comes of one line** is said by what is seen of it and by the part of the request that
it is taken for; what the reader has read before plays no part but through these. -/
theorem Searching.judged (hr : r.Searching) (hphase : r.phase ≠ .body)
    (hpending : r.pending = line ++ (lineEnd ++ rest)) : Judged r line (r.pass line.length) := by
  rw [hr.pass_eq hpending]
  -- the first line is the request line
  by_cases hrequest : r.phase = .requestLine
  · have haccepts : Accepts (r.phase, visible line) ↔ (Line.parse? (visible line)).isSome := by
      rw [Accepts, if_pos hrequest]
    rw [if_pos hrequest]
    cases hparse : Line.parse? (visible line) with
    | none =>
      rw [hparse] at haccepts
      refine .refused (fun h => nomatch haccepts.mp h) ?_ hphase
      rw [hrequest]
      exact fun h => nomatch h
    | some parts =>
      rw [hparse] at haccepts
      exact .accepted (haccepts.mpr rfl) Phase.noConfusion
  rw [if_neg hrequest]
  -- behind it come headers, until a line with nothing visible in it
  by_cases hempty : visible line = []
  · have hline : (r.phase, visible line) = (.headers, []) := by
      cases h : r.phase with
      | requestLine => exact absurd h hrequest
      | headers => rw [hempty]
      | body => exact absurd h hphase
    rw [if_pos hempty]
    exact .finished hline (headersOver_endHeaders hphase rfl)
  · have haccepts : Accepts (r.phase, visible line) ↔ (Header.parse (visible line)).IsSound := by
      rw [Accepts, if_neg hrequest]
      exact and_iff_right hempty
    have hsound := takeHeader?_isSome (r.onward line.length) r.lineStart (.parse (visible line))
    rw [if_neg hempty]
    cases htake : (r.onward line.length).takeHeader? r.lineStart (.parse (visible line)) with
    | none =>
      rw [htake] at hsound
      refine .refused (fun h => nomatch hsound.mpr (haccepts.mp h)) ?_ hphase
      exact fun h => hempty (Prod.mk.inj h).2
    | some r' =>
      rw [htake] at hsound
      refine .accepted (haccepts.mpr (hsound.mp rfl)) ?_
      rw [(takeHeader?_lineStart htake).2]
      exact hphase

/-- Why a call stops that has taken some lines, and with what outcome. -/
inductive Stops (r r' : Reader) : List (Phase × Bytes) → Outcome → Prop
  /-- a body was due before, so no line is taken -/
  | body {outcome : Outcome} :
    r.phase = .body → r' = r → outcome ≠ .malformed → Stops r r' [] outcome
  /-- the end of the next line has not arrived -/
  | waits {lines : List (Phase × Bytes)} {line tail : Bytes} : (∀ l ∈ lines, Accepts l) →
    r'.phase ≠ .body → r'.pending = line ++ tail → Unbroken line → Ending tail .incomplete →
    Stops r r' lines .incomplete
  /-- one of the two bytes that end a line stands alone behind the next line -/
  | broken {lines : List (Phase × Bytes)} {line tail : Bytes} : (∀ l ∈ lines, Accepts l) →
    r'.phase ≠ .body → r'.pending = line ++ tail → Unbroken line → Ending tail .malformed →
    Stops r r' lines .malformed
  /-- the last line is refused -/
  | refused {lines : List (Phase × Bytes)} {last : Phase × Bytes} : (∀ l ∈ lines, Accepts l) →
    ¬ Accepts last → last ≠ (.headers, []) → r'.phase ≠ .body →
    Stops r r' (lines ++ [last]) .malformed
  /-- the last line is empty, as far as is seen, and has ended the header lines -/
  | finished {lines : List (Phase × Bytes)} {outcome : Outcome} : (∀ l ∈ lines, Accepts l) →
    HeadersOver r' outcome → Stops r r' (lines ++ [(.headers, [])]) outcome

/-- A call that has taken one line goes on as the next one would, so the reason for which it stops
is that of the rest of its lines. -/
theorem Stops.cons {q : Reader} {first : Phase × Bytes} {lines : List (Phase × Bytes)}
    {outcome : Outcome} (h : Stops q r' lines outcome) (hq : q.phase ≠ .body)
    (hfirst : Accepts first) : Stops r r' (first :: lines) outcome := by
  have hcons : ∀ {lines : List (Phase × Bytes)}, (∀ l ∈ lines, Accepts l) →
      ∀ l ∈ first :: lines, Accepts l :=
    fun hlines => List.forall_mem_cons.mpr ⟨hfirst, hlines⟩
  cases h with
  | body hphase => exact absurd hphase hq
  | waits hlines hphase hpending hline htail =>
    exact .waits (hcons hlines) hphase hpending hline htail
  | broken hlines hphase hpending hline htail =>
    exact .broken (hcons hlines) hphase hpending hline htail
  | refused hlines hlast hne hphase => exact .refused (hcons hlines) hlast hne hphase
  | finished hlines hover => exact .finished (hcons hlines) hover

/-- **Where a call stops.** It goes on behind every line but the last, and stops there because the
line is empty or refused; or it goes on behind every line, and stops because the next one has not
arrived or is not ended as it should. -/
theorem GoesOver.stops {whole : List (Phase × Bytes)} {outcome : Outcome} (hr : r.Searching)
    (h : GoesOver r whole outcome r') : Stops r r' (whole.map seen) outcome := by
  have hnone : ∀ l ∈ ([] : List (Phase × Bytes)), Accepts l := fun _ h => nomatch h
  induction h with
  | body hphase =>
    refine .body hphase rfl ?_
    split <;> exact Outcome.noConfusion
  | waits hphase hpending hline htail => exact .waits hnone hphase hpending hline htail
  | broken hphase hpending hline htail => exact .broken hnone hphase hpending hline htail
  | @last r line rest hphase hpending hline hstop =>
    have hjudged := hr.judged hphase hpending
    generalize r.pass line.length = result at hjudged hstop
    cases hjudged with
    | accepted => exact absurd rfl hstop
    | refused hlast hne hphase' => exact .refused hnone hlast hne hphase'
    | finished hlast hover =>
      rw [List.map_singleton, seen, hlast]
      exact .finished hnone hover
  | @onward r r' line rest more outcome hphase hpending hline hmore hgoes ih =>
    have hjudged := hr.judged hphase hpending
    obtain ⟨hnext, -, -⟩ := hr.pass hpending hline hphase
    have hrest := ih hnext
    generalize r.pass line.length = result at hjudged hmore hgoes hrest
    cases hjudged with
    | accepted haccepts hphase' => exact hrest.cons hphase' haccepts
    | refused => cases hmore
    | finished hlast hover =>
      obtain rfl := hmore
      have hphase' := hover.phase_of_incomplete
      -- nothing is taken for a line once a body is due
      cases hgoes with
      | body =>
        rw [List.map_singleton, seen, hlast]
        refine .finished hnone (.body hphase' ?_)
        split <;> exact Outcome.noConfusion
      | waits hne | broken hne | last hne | onward hne => exact absurd hphase' hne

end Reader

end FileServer.Request
