import FileServer.Proofs.Request.Lines

/-!
# The grammar of request lines

A request line is a method, a target and a version with blanks between them. The blanks in front may
be missing, and none may follow, for the version takes all the rest of the line. A target is a path,
or a scheme, an authority and a path, of which only the path is kept (`Spelling`).

The parser accepts just the lines that are spelled so, and what it finds are their parts
(`Line.parse?_eq_some_iff`). What a reader makes of such a line, and of any other, follows from that
(`Reader.Searching.judges_request_line`).
-/

namespace FileServer

/-! ## Blanks and words

A text that starts with blanks and then has a word is taken apart in one way only. -/

namespace Bytes

variable {gap word rest a b bytes : Bytes}

/-- All of the bytes are blanks. Whether there has to be one is said where a gap is asked for. -/
def IsGap (bytes : Bytes) : Prop := ∀ b ∈ bytes, isBlank b = true

/-- None of the bytes is a blank. -/
def IsWord (bytes : Bytes) : Prop := ∀ b ∈ bytes, isBlank b = false

instance (bytes : Bytes) : Decidable bytes.IsGap :=
  List.decidableBAll (fun b => isBlank b = true) bytes

instance (bytes : Bytes) : Decidable bytes.IsWord :=
  List.decidableBAll (fun b => isBlank b = false) bytes

theorem isBlank_lowerCase (b : UInt8) : isBlank (lowerCase b) = isBlank b := by
  grind [isBlank, lowerCase]

/-- What is the same as a word but for case is a word. -/
theorem IsWord.of_sameLetters (h : a.sameLetters b) (hb : b.IsWord) : a.IsWord := by
  intro x hx
  have hmem : lowerCase x ∈ b.map lowerCase := eq_of_beq h ▸ List.mem_map_of_mem hx
  obtain ⟨y, hy, hsame⟩ := List.mem_map.mp hmem
  rw [← isBlank_lowerCase x, ← hsame, isBlank_lowerCase]
  exact hb y hy

theorem ne_nil_of_sameLetters (h : a.sameLetters b) (hb : b ≠ []) : a ≠ [] := by
  rintro rfl
  exact hb (List.eq_nil_of_length_eq_zero (sameLetters_length h).symm)

theorem IsWord.head? (h : word.IsWord) (hword : word ≠ []) (b : UInt8)
    (hb : b ∈ (word ++ rest).head?) : isBlank b = false := by
  obtain ⟨first, more, rfl⟩ := List.exists_cons_of_ne_nil hword
  obtain rfl := Option.some.inj hb
  exact h _ List.mem_cons_self

theorem IsGap.head? (h : gap.IsGap) (hgap : gap ≠ []) (b : UInt8) (hb : b ∈ (gap ++ rest).head?) :
    isBlank b = true := by
  obtain ⟨first, more, rfl⟩ := List.exists_cons_of_ne_nil hgap
  obtain rfl := Option.some.inj hb
  exact h _ List.mem_cons_self

/-- A gap is dropped whole, if what follows it starts with no blank. -/
theorem dropBlanks_append (hgap : gap.IsGap) (hrest : ∀ b ∈ rest.head?, isBlank b = false) :
    dropBlanks (gap ++ rest) = rest := by
  rw [dropBlanks, List.dropWhile_append_of_pos hgap]
  cases rest with
  | nil => rfl
  | cons b rest => exact List.dropWhile_cons_of_neg (Bool.eq_false_iff.mp (hrest b rfl))

/-- A word is found whole, if what follows it starts with a blank or is empty. -/
theorem word_append (hword : word.IsWord) (rest : Bytes)
    (hrest : ∀ b ∈ rest.head?, isBlank b = true) :
    firstWord (word ++ rest) = word ∧ afterWord (word ++ rest) = rest := by
  have hall : ∀ b ∈ word, (!isBlank b) = true := by
    intro b hb
    rw [hword b hb]
    rfl
  rw [firstWord, afterWord, List.takeWhile_append_of_pos hall, List.dropWhile_append_of_pos hall]
  cases rest with
  | nil => exact ⟨List.append_nil _, rfl⟩
  | cons b rest =>
    have hb := hrest b rfl
    simp [hb]

/-- Blanks are dropped up to the first byte that is none. -/
theorem exists_gap (bytes : Bytes) : ∃ gap, IsGap gap ∧ bytes = gap ++ bytes.dropBlanks :=
  ⟨bytes.takeWhile isBlank, fun _ h => List.mem_takeWhile_imp h,
    List.takeWhile_append_dropWhile.symm⟩

/-- A word ends where a blank stands, if anything follows it but blanks. -/
theorem exists_gap_afterWord (h : bytes.afterWord.dropBlanks ≠ []) :
    ∃ gap, IsGap gap ∧ gap ≠ [] ∧ bytes.afterWord = gap ++ bytes.afterWord.dropBlanks := by
  obtain ⟨gap, hgap, hsplit⟩ := exists_gap bytes.afterWord
  refine ⟨gap, hgap, ?_, hsplit⟩
  rintro rfl
  have hword := List.head?_dropWhile_not (!isBlank ·) bytes
  have hrest := List.head?_dropWhile_not isBlank bytes.afterWord
  obtain ⟨b, rest, hb⟩ := List.exists_cons_of_ne_nil h
  rw [List.nil_append, hb] at hsplit
  -- the byte behind the word would be a blank, and the first that is none
  rw [← afterWord, hsplit] at hword
  rw [← dropBlanks, hb] at hrest
  dsimp only [List.head?_cons] at hword hrest
  rw [hrest] at hword
  cases hword

theorem isWord_firstWord (bytes : Bytes) : bytes.firstWord.IsWord := by
  intro b hb
  simpa using List.mem_takeWhile_imp hb

end Bytes

namespace Request

open Bytes (IsGap IsWord)
open Response (lineEnd)

/-! ## How a request line is spelled

The grammar as a structure: the pieces of a line, in order, and what each of them has to be. -/

/-- What may stand in front of the path of a target: nothing, or a scheme in any case and an
authority, which may be empty. -/
inductive Origin : Bytes → Prop
  | none : Origin []
  | absolute {scheme name authority : Bytes} : scheme ∈ schemes → name.sameLetters scheme →
    slash ∉ authority → Origin (name ++ authority)

/-- A request line, part by part. -/
structure Spelling where
  /-- what stands before the method -/
  lead : Bytes
  method : Bytes
  /-- what stands between method and target -/
  gap : Bytes
  /-- what stands in front of the path -/
  origin : Bytes
  path : Bytes
  /-- what stands between target and version -/
  space : Bytes
  version : Bytes

namespace Spelling

/-- What is asked for, as it is written. -/
def target (s : Spelling) : Bytes := s.origin ++ s.path

/-- The whole line. -/
def line (s : Spelling) : Bytes :=
  s.lead ++ (s.method ++ (s.gap ++ (s.target ++ (s.space ++ s.version))))

/-- The parts obey the grammar. -/
structure IsValid (s : Spelling) : Prop where
  lead : s.lead.IsGap
  method : s.method.sameLetters Method.get.name
  gap : s.gap.IsGap ∧ s.gap ≠ []
  target : s.target.IsWord
  origin : Origin s.origin
  path : s.path.head? = some slash
  space : s.space.IsGap ∧ s.space ≠ []
  version : s.version.sameLetters Request.version

/-- Where in the line the path and the version stand. -/
def parts (s : Spelling) : Line :=
  let beforePath := (s.lead ++ s.method ++ s.gap ++ s.origin).length
  let beforeVersion := (s.lead ++ s.method ++ s.gap ++ s.target ++ s.space).length
  { target := ⟨beforePath, beforePath + s.path.length⟩
    version := ⟨beforeVersion, beforeVersion + s.version.length⟩ }

end Spelling

/-! ## What the parser accepts

Every line that is spelled so is accepted, and every line that is accepted is spelled so. -/

section

variable {target line : Bytes} {offset : Nat} {parts : Line}

/-- No two schemes are the start of one text. -/
theorem scheme_unique {s s' : Bytes} (hs : s ∈ schemes) (hs' : s' ∈ schemes)
    (h : Bytes.sameLetters (target.take s.length) s)
    (h' : Bytes.sameLetters (target.take s'.length) s') : s = s' := by
  have hbegins : ∀ {s : Bytes}, Bytes.sameLetters (target.take s.length) s →
      s.map lowerCase <+: target.map lowerCase := by
    intro s h
    rw [← eq_of_beq h, List.map_take]
    exact List.take_prefix _ _
  have hapart : ∀ s ∈ schemes, ∀ s' ∈ schemes, s.map lowerCase <+: s'.map lowerCase → s = s' := by
    decide
  rcases List.prefix_or_prefix_of_prefix (hbegins h) (hbegins h') with h | h
  · exact hapart s hs s' hs' h
  · exact (hapart s' hs' s hs h).symm

/-- A path starts with no scheme. -/
theorem scheme_ne_path (h : target.head? = some slash) {s : Bytes} (hs : s ∈ schemes) :
    ¬ Bytes.sameLetters (target.take s.length) s := by
  intro hsame
  have hfirst : ∀ s ∈ schemes, s ≠ [] ∧ (s.map lowerCase).head? ≠ some (lowerCase slash) := by
    decide
  obtain ⟨hne, hhead⟩ := hfirst s hs
  refine hhead ?_
  obtain ⟨rest, rfl⟩ := List.head?_eq_some_iff.mp h
  rw [← eq_of_beq hsame, List.head?_map, List.head?_take, if_neg (by simpa using hne)]
  rfl

/-- The scheme that a target starts with is found. -/
theorem find?_scheme {scheme : Bytes} (hscheme : scheme ∈ schemes)
    (h : Bytes.sameLetters (target.take scheme.length) scheme) :
    schemes.find? (fun s => Bytes.sameLetters (target.take s.length) s) = some scheme := by
  cases hfound : schemes.find? (fun s => Bytes.sameLetters (target.take s.length) s) with
  | none => exact absurd h (List.find?_eq_none.mp hfound scheme hscheme)
  | some s =>
    have hother := List.find?_some hfound
    exact congrArg some (scheme_unique (List.mem_of_find?_eq_some hfound) hscheme hother h)

/-- What stands in front of the path of a target is found. -/
theorem pathOffset?_origin {origin path : Bytes} (horigin : Origin origin)
    (hpath : path.head? = some slash) : pathOffset? (origin ++ path) = some origin.length := by
  cases horigin with
  | none =>
    have hnone : schemes.find? (fun s => Bytes.sameLetters (path.take s.length) s) = none :=
      List.find?_eq_none.mpr fun s hs => scheme_ne_path hpath hs
    rw [List.nil_append, pathOffset?, hnone]
    rfl
  | @absolute scheme name authority hscheme hname hauthority =>
    obtain ⟨rest, rfl⟩ := List.head?_eq_some_iff.mp hpath
    have hlength : name.length = scheme.length := Bytes.sameLetters_length hname
    have hstarts :
        Bytes.sameLetters ((name ++ (authority ++ slash :: rest)).take scheme.length) scheme := by
      rw [← hlength, List.take_left]
      exact hname
    have hmem : slash ∈ authority ++ slash :: rest := List.mem_append_right _ List.mem_cons_self
    rw [List.append_assoc, pathOffset?, find?_scheme hscheme hstarts]
    dsimp only
    rw [← hlength, List.drop_left, if_pos hmem, List.idxOf_append_of_notMem hauthority,
      List.idxOf_cons_self, List.length_append, Nat.add_zero]

/-- A target of which a path is found is that path behind what may stand in front of it: nothing
if the target starts with a slash, else one of the schemes and an authority up to the first
slash. -/
theorem exists_origin (hoffset : pathOffset? target = some offset)
    (hslash : (target.drop offset).head? = some slash) :
    ∃ origin path, Origin origin ∧ path.head? = some slash ∧ target = origin ++ path := by
  rw [pathOffset?] at hoffset
  split at hoffset
  · obtain rfl := Option.some.inj hoffset
    exact ⟨[], target, .none, hslash, rfl⟩
  · next scheme hfind =>
    have hsame := List.find?_some hfind
    dsimp only at hoffset
    split at hoffset
    · next hmem =>
      obtain rfl := Option.some.inj hoffset
      refine ⟨target.take scheme.length ++
        (target.drop scheme.length).take ((target.drop scheme.length).idxOf slash), _, ?_,
        hslash, ?_⟩
      · refine .absolute (List.mem_of_find?_eq_some hfind) hsame ?_
        -- the authority ends before the first slash
        intro hbefore
        exact absurd ((List.mem_take_iff_idxOf_lt hmem).mp hbefore) (Nat.lt_irrefl _)
      · rw [List.append_assoc, ← List.drop_drop, List.take_append_drop, List.take_append_drop]
    · cases hoffset

/-- A target is never empty, as its path is not. -/
theorem Spelling.IsValid.target_ne {s : Spelling} (h : s.IsValid) : s.target ≠ [] := by
  intro hnil
  have hpath := h.path
  rw [(List.append_eq_nil_iff.mp hnil).2] at hpath
  cases hpath

/-- What stands between the parts of a line that obeys the grammar is found piece by piece. The
gaps set the words apart, and since the version takes the rest of the line, nothing may follow
it. -/
theorem Spelling.IsValid.words {s : Spelling} (h : s.IsValid) :
    s.line.dropBlanks.firstWord = s.method ∧
      s.line.dropBlanks.afterWord.dropBlanks = s.target ++ (s.space ++ s.version) ∧
      Bytes.firstWord (s.target ++ (s.space ++ s.version)) = s.target ∧
      (Bytes.afterWord (s.target ++ (s.space ++ s.version))).dropBlanks = s.version := by
  have hmethod : s.method.IsWord := .of_sameLetters h.method (by decide)
  have hversion : s.version.IsWord := .of_sameLetters h.version (by decide)
  have hmethod_ne : s.method ≠ [] := Bytes.ne_nil_of_sameLetters h.method (by decide)
  have hversion_ne : s.version ≠ [] := Bytes.ne_nil_of_sameLetters h.version (by decide)
  have hstart : s.line.dropBlanks = s.method ++ (s.gap ++ (s.target ++ (s.space ++ s.version))) :=
    Bytes.dropBlanks_append h.lead (hmethod.head? hmethod_ne)
  obtain ⟨hfirst, hafter⟩ := Bytes.word_append hmethod
    (s.gap ++ (s.target ++ (s.space ++ s.version))) (h.gap.1.head? h.gap.2)
  obtain ⟨hfirst', hafter'⟩ := Bytes.word_append h.target (s.space ++ s.version)
    (h.space.1.head? h.space.2)
  refine ⟨?_, ?_, hfirst', ?_⟩
  · rw [hstart]
    exact hfirst
  · rw [hstart, hafter]
    exact Bytes.dropBlanks_append h.gap.1 (h.target.head? h.target_ne)
  · rw [hafter']
    refine Bytes.dropBlanks_append h.space.1 ?_
    have hhead : ∀ b ∈ (s.version ++ []).head?, isBlank b = false := hversion.head? hversion_ne
    rw [List.append_nil] at hhead
    exact hhead

/-- A line that is spelled as a request line is accepted. -/
theorem Spelling.IsValid.parse? {s : Spelling} (h : s.IsValid) :
    Line.parse? s.line = some s.parts := by
  obtain ⟨hmethod, htarget, hword, hversion⟩ := h.words
  have hversion_ne : s.version ≠ [] := Bytes.ne_nil_of_sameLetters h.version (by decide)
  rw [Line.parse?_eq_some]
  dsimp only
  rw [hmethod, htarget, hword, hversion]
  refine ⟨h.method, ⟨h.target_ne, hversion_ne⟩, h.version, s.origin.length, ?_, ?_, ?_⟩
  · exact pathOffset?_origin h.origin h.path
  · rw [Spelling.target, List.drop_left]
    exact h.path
  · simp only [Spelling.parts, Spelling.line, Spelling.target, List.length_append, Line.mk.injEq,
      Window.mk.injEq]
    omega

/-- Only such a line is accepted: from what the parser has cut off in front, from what it found
and from what it skipped in between, the spelling is put together again. -/
theorem exists_spelling (h : Line.parse? line = some parts) :
    ∃ s : Spelling, s.IsValid ∧ s.line = line := by
  obtain ⟨hmethod, ⟨htarget, -⟩, hversion, offset, hoffset, hslash, -⟩ := Line.parse?_eq_some.mp h
  obtain ⟨origin, path, horigin, hpath, hsplit⟩ := exists_origin hoffset hslash
  have hsomething : line.dropBlanks.afterWord.dropBlanks ≠ [] := by
    intro hnil
    rw [hnil] at htarget
    exact htarget rfl
  -- the blanks and words of the line, one behind the other
  obtain ⟨lead, hlead, hline⟩ := Bytes.exists_gap line
  obtain ⟨gap, hgap, hgap_ne, hafter⟩ := Bytes.exists_gap_afterWord hsomething
  obtain ⟨space, hspace, hspace_ne, hafter'⟩ :=
    Bytes.exists_gap_afterWord (Bytes.ne_nil_of_sameLetters hversion (by decide))
  refine ⟨⟨lead, line.dropBlanks.firstWord, gap, origin, path, space,
    line.dropBlanks.afterWord.dropBlanks.afterWord.dropBlanks⟩, ?_, ?_⟩
  · exact {
      lead := hlead
      method := hmethod
      gap := ⟨hgap, hgap_ne⟩
      target := by
        rw [Spelling.target, ← hsplit]
        exact Bytes.isWord_firstWord _
      origin := horigin
      path := hpath
      space := ⟨hspace, hspace_ne⟩
      version := hversion }
  · rw [Spelling.line, Spelling.target, ← hsplit, ← hafter',
      Bytes.firstWord_append_afterWord, ← hafter, Bytes.firstWord_append_afterWord, ← hline]

/-- **The grammar.** The parser accepts exactly the lines that are spelled as request lines are, and
finds their parts. -/
theorem Line.parse?_eq_some_iff :
    Line.parse? line = some parts ↔
      ∃ s : Spelling, s.IsValid ∧ s.line = line ∧ s.parts = parts := by
  constructor
  · intro h
    obtain ⟨s, hs, rfl⟩ := exists_spelling h
    exact ⟨s, hs, rfl, Option.some.inj (hs.parse?.symm.trans h)⟩
  · rintro ⟨s, hs, rfl, rfl⟩
    exact hs.parse?

end

/-! ## What a reader makes of a request line

From the parser of a line to the reader: where the line stands in the buffer, what the windows show,
and that nothing behind the line changes it. -/

namespace Reader

variable {r r' r'' : Reader} {line rest : Bytes}

/-- The request line lies behind, and what it has said stays. For the windows this means that they
are not moved; that they show the same bytes is said by `Kept`. -/
structure Past (r r' : Reader) : Prop where
  phase : r'.phase ≠ .requestLine
  target : r'.fields.target = r.fields.target
  version : r'.fields.version = r.fields.version

theorem Past.trans (h : Past r r') (h' : Past r' r'') : Past r r'' :=
  ⟨h'.phase, h'.target.trans h.target, h'.version.trans h.version⟩

/-- A header line says nothing of target and version. -/
theorem past_takeHeader? {start : Nat} {header : Header} (hphase : r.phase ≠ .requestLine)
    (h : r.takeHeader? start header = some r') : Past r r' := by
  have hsame := (takeHeader?_lineStart h).2
  refine ⟨hsame ▸ hphase, ?_, ?_⟩
  all_goals
    cases header with
    | connection keep | host value | other =>
      obtain rfl := Option.some.inj h
      rfl
    | contentLength value =>
      cases value with
      | none => cases h
      | some n =>
        rw [takeHeader?] at h
        split at h
        · obtain rfl := Option.some.inj h
          rfl
        · cases h

/-- The empty line says nothing of target and version. -/
theorem past_endHeaders (hphase : r.phase ≠ .requestLine) : Past r r.endHeaders.2 := by
  have hfields := r.fields_endHeaders
  refine ⟨?_, congrArg Fields.target hfields, congrArg Fields.version hfields⟩
  rw [endHeaders]
  split
  · exact hphase
  · dsimp only
    split
    · exact Phase.noConfusion
    · exact hphase

/-- No line behind the request line is taken for one. -/
theorem past_takeLine (hphase : r.phase ≠ .requestLine) : Past r r.takeLine.2 := by
  have hstay : Past r { r with lineStart := r.scanned } := ⟨hphase, rfl, rfl⟩
  rw [takeLine_eq]
  dsimp only
  rw [if_neg hphase]
  split
  · exact hstay.trans (past_endHeaders hphase)
  · cases htake : takeHeader? { r with lineStart := r.scanned } r.currentLine.start
        (.parse (r.input.slice r.currentLine)) with
    | none => exact hstay
    | some r' => exact hstay.trans (past_takeHeader? hphase htake)

theorem past_scanLine (hphase : r.phase ≠ .requestLine) : Past r r.scanLine.2 := by
  obtain ⟨hsame, hfields⟩ := scanLine_says_nothing r
  exact ⟨hsame ▸ hphase, congrArg Fields.target hfields, congrArg Fields.version hfields⟩

/-- No later line changes what the request line has said. -/
theorem past_advance (hphase : r.phase ≠ .requestLine) : Past r r.advance.2 := by
  induction r using advance.induct with
  | case1 r hbody =>
    rw [advance_eq, if_pos hbody]
    exact ⟨hphase, rfl, rfl⟩
  -- the scan alone says nothing about the request
  | case2 r hline r' hscan | case3 r hline r' hscan =>
    have hpast := past_scanLine hphase
    rw [advance_scan hline]
    rw [hscan] at hpast ⊢
    exact hpast
  | case4 r hline r' hscan r'' hmore ih =>
    have hpast := past_scanLine hphase
    rw [hscan] at hpast
    have hpast' := past_takeLine hpast.phase
    rw [hmore] at hpast'
    rw [advance_scan hline, hscan]
    dsimp only
    rw [hmore, if_pos rfl]
    exact hpast.trans (hpast'.trans (ih hpast'.phase))
  | case5 r hline r' hscan o r'' hne hstop =>
    have hpast := past_scanLine hphase
    rw [hscan] at hpast
    have hpast' := past_takeLine hpast.phase
    rw [hstop] at hpast'
    rw [advance_scan hline, hscan]
    dsimp only
    rw [hstop, if_neg hne]
    exact hpast.trans hpast'

/-- The windows of a reader show the path and the version of a request line. -/
def Shows (r : Reader) (s : Spelling) : Prop :=
  r.input.slice r.fields.target = s.path ∧ r.input.slice r.fields.version = s.version

/-- A reader has accepted a request line that is spelled so, and has become `r'`: it goes on with
the header lines, and from then on shows the path and the version. -/
structure AcceptsLine (r : Reader) (s : Spelling) (rest : Bytes) (r' : Reader) : Prop
    extends r.GoesOnAs r' rest where
  phase : r'.phase = .headers
  fields : r'.fields = { r.fields with
    method := .get
    target := s.parts.target.shift r.lineStart
    version := s.parts.version.shift r.lineStart }
  shows : r'.Shows s
  shown : r.advance.2.Shows s

/-- A reader has refused a request line: a rule is broken, and nothing has changed that can be asked
for. -/
structure RefusesLine (r : Reader) : Prop where
  outcome : r.advance.1 = .malformed
  phase : r.advance.2.phase = .requestLine
  fields : r.advance.2.fields = r.fields
  target : r.advance.2.target = r.target
  version : r.advance.2.version = r.version

/-- What a reader makes of a request line. -/
structure JudgesRequestLine (r : Reader) (line rest : Bytes) : Prop where
  /-- it has been accepted exactly if it obeys the grammar -/
  accepted_iff : r.advance.2.phase ≠ .requestLine ↔ ∃ s : Spelling, s.IsValid ∧ s.line = line
  accepted : ∀ s : Spelling, s.IsValid → s.line = line → ∃ r', r.AcceptsLine s rest r'
  refused : (¬ ∃ s : Spelling, s.IsValid ∧ s.line = line) → r.RefusesLine

section

variable (hr : r.Searching) (hphase : r.phase = .requestLine) (hzero : 0 ∉ line)
  (hpending : r.pending = line ++ (lineEnd ++ rest)) (hline : Unbroken line)

include hr hphase hzero hpending hline

/-- A line that obeys the grammar is accepted. The parser finds its parts, and these are moved to
where the line stands in the buffer; what comes behind neither moves them nor writes over them. -/
theorem Searching.accepts {s : Spelling} (hs : s.IsValid) (hspelled : s.line = line) :
    ∃ r', r.AcceptsLine s rest r' := by
  have hnot_body : r.phase ≠ .body := by simp [hphase]
  have hpass := hr.pass_eq hpending
  rw [if_pos hphase, visible_eq_self.mpr hzero, ← hspelled, hs.parse?, hspelled,
    Option.elim_some] at hpass
  have hgoes := hr.goesOnAs hpending hline hnot_body hpass
  have hshows : ((r.onward line.length).takeRequestLine r.lineStart s.parts).Shows s := by
    have hpath : s.lead ++ s.method ++ s.gap ++ s.origin ++ (s.path ++ (s.space ++ s.version)) =
        line := by
      rw [← hspelled, Spelling.line, Spelling.target]
      simp only [List.append_assoc]
    have hversion : s.lead ++ s.method ++ s.gap ++ s.target ++ s.space ++ (s.version ++ []) =
        line := by
      rw [← hspelled, Spelling.line]
      simp only [List.append_assoc, List.append_nil]
    exact ⟨hr.slice_part hpending hpath, hr.slice_part hpending hversion⟩
  refine ⟨_, hgoes, rfl, rfl, hshows, ?_⟩
  -- nothing is written before the current line any more
  obtain ⟨-, hkept⟩ := hgoes.searching.toBounded.advance
  have hpast := past_advance (r := (r.onward line.length).takeRequestLine r.lineStart s.parts)
    Phase.noConfusion
  rw [hgoes.advance, Shows, hpast.target, hpast.version, hkept.slice hgoes.searching.target.stop_le,
    hkept.slice hgoes.searching.version.stop_le]
  exact hshows

/-- Any other line is refused, and then the reader has been told nothing by it. -/
theorem Searching.refuses (hnone : ¬ ∃ s : Spelling, s.IsValid ∧ s.line = line) :
    r.RefusesLine := by
  have hnot_body : r.phase ≠ .body := by simp [hphase]
  have hparse : Line.parse? line = none := by
    cases h : Line.parse? line with
    | none => rfl
    | some parts => exact absurd (exists_spelling h) hnone
  have hpass := hr.pass_eq hpending
  rw [if_pos hphase, visible_eq_self.mpr hzero, hparse, Option.elim_none] at hpass
  have hadvance := hr.advance_pass hpending hline hnot_body
  rw [hpass, if_neg Outcome.noConfusion] at hadvance
  obtain ⟨-, hkept⟩ := hr.onward hpending hline
  have htext : ∀ {w : Window},
      w.stop ≤ r.lineStart → (r.onward line.length).textAt w = r.textAt w :=
    fun hw => congrArg (fun bytes => (Bytes.text? bytes).getD "") (hkept.slice hw)
  constructor <;> rw [hadvance]
  · exact hphase
  · rfl
  · exact htext hr.target.stop_le
  · exact htext hr.version.stop_le

/-- **Request lines.** A request line without zeros is accepted exactly if it obeys the grammar. -/
theorem Searching.judges_request_line : r.JudgesRequestLine line rest := by
  have haccepts := fun s => hr.accepts hphase hzero hpending hline (s := s)
  have hrefuses := hr.refuses hphase hzero hpending hline
  refine ⟨⟨?_, ?_⟩, haccepts, hrefuses⟩
  · intro hpast
    by_contra hnone
    exact hpast (hrefuses hnone).phase
  · rintro ⟨s, hs, hspelled⟩
    obtain ⟨r', htakes⟩ := haccepts s hs hspelled
    rw [htakes.advance]
    refine (past_advance ?_).phase
    rw [htakes.phase]
    exact Phase.noConfusion

end

/-- A target with a scheme and an authority, and letters in another case. -/
theorem judges_request_line_absolute :
    let line := Bytes.ofText "\tget  HTTPS://host/page Http/1.1"
    (({} : Reader).feed (line ++ lineEnd)).JudgesRequestLine line [] := by
  have hstart : ({} : Reader).Searching := .reset (r := {}) List.length_replicate
  refine (hstart.feed ?_).judges_request_line rfl ?_ ?_ ?_ <;> decide +kernel

end Reader

end Request

end FileServer
