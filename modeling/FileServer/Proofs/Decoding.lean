import FileServer.Text.Cut
import FileServer.Proofs.Response
import FileServer.Proofs.Server.Slots

/-!
# Responses can be told apart

A client that is sent several responses on one connection sees a single stream of bytes. It reads up
to the first empty line, takes from the head how long the body is, reads that many bytes, and what
is left starts with the next response. `Client.decode` does so, and `Client.decode_layAll` says that
it gets back exactly the responses that were laid out: their status codes, what they say of the
connection, and their bodies, whatever bytes these consist of.

All that is said of a body in its head is its length, so two things have to fit: the head must not
hold an empty line before its end (`Client.readHead_head`), and the length that is announced has to
be that of what follows (`Client.readReply_laidOut`).
-/

namespace FileServer

open Response (lineEnd)

/-! ## Texts as bytes

A head consists of printable characters of ASCII, so that its bytes are its characters, one by one,
and none of them ends a line. -/

/-- A text of the printable characters of ASCII. -/
def Text.IsPlain (text : String) : Prop := ∀ c ∈ text.toList, 32 ≤ c.toNat ∧ c.toNat < 127

instance (text : String) : Decidable (Text.IsPlain text) :=
  List.decidableBAll (fun c : Char => 32 ≤ c.toNat ∧ c.toNat < 127) text.toList

theorem Text.IsPlain.append {s t : String} (hs : IsPlain s) (ht : IsPlain t) :
    IsPlain (s ++ t) := by
  intro c hc
  rw [String.toList_append, List.mem_append] at hc
  exact hc.elim (hs c) (ht c)

theorem Text.toNat_of_isDigit {c : Char} (h : c.isDigit) : 48 ≤ c.toNat ∧ c.toNat ≤ 57 := by
  simpa [Char.isDigit, UInt32.le_iff_toNat_le] using h

theorem Text.isDigit_of_mem_toString {n : Nat} {c : Char} (h : c ∈ (toString n).toList) :
    c.isDigit := by
  rw [Nat.toString_eq_repr, Nat.toList_repr] at h
  exact Nat.isDigit_of_mem_toDigits (by decide) (by decide) h

theorem Text.isPlain_toString (n : Nat) : IsPlain (toString n) := by
  intro c hc
  have := Text.toNat_of_isDigit (isDigit_of_mem_toString hc)
  omega

theorem Bytes.ofText_append (s t : String) : ofText (s ++ t) = ofText s ++ ofText t := by
  simp [ofText]

/-- A text is read back from its bytes. -/
theorem Bytes.text?_ofText (s : String) : (ofText s).text? = some s := by
  have hbytes : (ofText s).toByteArray = s.toByteArray := by
    rw [ofText]
    ext1
    simp
  rw [text?, String.fromUTF8?, hbytes, dif_pos s.isValidUTF8]
  rfl

/-- Each character of a plain text is one byte. -/
theorem Text.IsPlain.ofText_eq {s : String} (hs : IsPlain s) :
    Bytes.ofText s = s.toList.map (·.toNat.toUInt8) := by
  have hencode : ∀ l : List Char, (∀ c ∈ l, c.toNat < 127) →
      l.utf8Encode.data.toList = l.map (·.toNat.toUInt8) := by
    intro l hl
    induction l with
    | nil => rfl
    | cons c rest ih =>
      have hc := hl c (List.mem_cons_self ..)
      have hsize : c.utf8Size = 1 := by
        rw [Char.utf8Size, if_pos]
        rw [UInt32.le_iff_toNat_le]
        exact Nat.le_of_lt hc
      have hrest := ih fun c hmem => hl c (List.mem_cons_of_mem _ hmem)
      rw [List.utf8Encode_cons, List.utf8Encode_singleton, String.utf8EncodeChar_eq_singleton hsize]
      simp only [ByteArray.data_append, Array.toList_append, hrest, List.data_toByteArray]
      rfl
  rw [Bytes.ofText, ← String.utf8Encode_toList]
  exact hencode _ fun c hc => (hs c hc).2

/-- A plain text has no line feed among its bytes. That is all that is needed of the lines of a head
for a client to find the end of it. -/
theorem Text.IsPlain.ne_lineFeed {s : String} (hs : IsPlain s) {b : UInt8}
    (hb : b ∈ Bytes.ofText s) : b ≠ lineFeed := by
  rw [hs.ofText_eq, List.mem_map] at hb
  obtain ⟨c, hc, rfl⟩ := hb
  have hrange := hs c hc
  intro hfeed
  have hvalue := congrArg UInt8.toNat hfeed
  simp [lineFeed] at hvalue
  omega

/-! ## Digits -/

/-- Digits have no white space around them. -/
theorem Text.trim_of_isDigit {text : List Char} (h : ∀ c ∈ text, c.isDigit) :
    trim (.ofList text) = .ofList text := by
  have hkeep : ∀ l : List Char, (∀ c ∈ l, c.isDigit) → l.dropWhile isWhiteSpace = l := by
    intro l hl
    cases l with
    | nil => rfl
    | cons c rest =>
      have := toNat_of_isDigit (hl c (List.mem_cons_self ..))
      refine List.dropWhile_cons_of_neg ?_
      simp [isWhiteSpace, whiteSpaceRanges]
      omega
  rw [trim, String.toList_ofList, trimStart, hkeep _ h, trimEnd,
    hkeep _ fun c hc => h c (List.mem_reverse.mp hc), List.reverse_reverse]

/-- Digits are taken in as they are, as long as the number stays below the limit. -/
theorem Decimal.appendDigits_of_isDigit {limit n : Nat} {text : List Char}
    (h : ∀ c ∈ text, c.isDigit)
    (hlimit : Nat.ofDigitChars 10 text n < limit) :
    appendDigits limit n text = .ok (Nat.ofDigitChars 10 text n) := by
  induction text generalizing n with
  | nil => rfl
  | cons c text ih =>
    have hc := h c (List.mem_cons_self ..)
    have hrest : ∀ c ∈ text, c.isDigit := fun c hmem => h c (List.mem_cons_of_mem _ hmem)
    rw [Nat.ofDigitChars_cons] at hlimit
    have hle : 10 * n + (c.toNat - '0'.toNat) < limit := by
      refine Nat.lt_of_le_of_lt ?_ hlimit
      rw [Nat.ofDigitChars_eq_ofDigitChars_zero]
      exact Nat.le_add_right_of_le (Nat.le_mul_of_pos_left _ (Nat.pow_pos (by decide)))
    rw [appendDigits, hc, Nat.ofDigitChars_cons, ← ih hrest hlimit]
    have hcomm : n * 10 = 10 * n := Nat.mul_comm ..
    have hzero : '0'.toNat = 48 := rfl
    simp only [Bool.not_true, Bool.false_eq_true, if_false, hcomm]
    rw [hzero] at hle ⊢
    rw [if_pos hle]

/-- A text of digits has no sign. -/
theorem Decimal.unsigned_of_isDigit {limit : Nat} {text : List Char} (h : ∀ c ∈ text, c.isDigit)
    (hne : text ≠ []) :
    unsigned limit (.ofList text) = appendDigits limit 0 text := by
  rw [unsigned, String.toList_ofList]
  split
  · exact absurd rfl hne
  · exact absurd (h '+' (List.mem_cons_self ..)) (by decide)
  · exact absurd (h '+' (List.mem_cons_self ..)) (by decide)
  · rfl

/-! ## Reading a stream of responses

The client, written without a look at how responses are laid out: it knows only where a head ends
and in which field the length of the body stands. -/

open Text (IsPlain isDigit_of_mem_toString toNat_of_isDigit isPlain_toString)

/-- What a client learns of a response. -/
structure Reply where
  /-- the status code -/
  status : Nat
  /-- what is said of the connection -/
  connection : String
  /-- what follows the head -/
  body : Bytes
  deriving DecidableEq, Repr

/-- What is to be learned of the response to a request. -/
def Reply.of (r : Resolution) (keepAlive : Bool) : Reply where
  status := r.status
  connection := if keepAlive then "keep-alive" else "close"
  body := r.body

namespace Client

/-- What ends a head: the end of its last line, and an empty line. -/
def headEnd : Bytes := lineEnd ++ lineEnd

/-- Reads byte by byte behind what has been read of a head, `seen`, up to where the head ends;
`none` if the stream ends before. -/
def readHead (seen : Bytes) : (stream : Bytes) → Option (Bytes × Bytes)
  | [] => if headEnd.isSuffixOf seen then some (seen, []) else none
  | b :: rest =>
    if headEnd.isSuffixOf seen then some (seen, b :: rest) else readHead (seen ++ [b]) rest

/-- A line without the carriage return at its end. -/
def dropReturn (line : List Char) : List Char :=
  if line.getLast? = some '\r' then line.dropLast else line

/-- The lines of a text, the first of which has begun with `line`. -/
def linesFrom (line : List Char) : List Char → List (List Char)
  | [] => if line.isEmpty then [] else [line]
  | c :: rest =>
    if c = '\n' then dropReturn line :: linesFrom [] rest else linesFrom (line ++ [c]) rest

/-- The value of a field: what follows its name in the first line that starts with it. -/
def field? (lines : List (List Char)) (name : String) : Option (List Char) :=
  lines.findSome? (name.toList.isPrefixOf? ·)

/-- A number that fits a machine word, with white space around it or without. -/
def number? (text : List Char) : Option Nat :=
  (Decimal.unsigned Decimal.wordLimit (Text.trim (.ofList text))).toOption

/-- What a head says of a response. -/
structure Heading where
  /-- the status code -/
  status : Nat
  /-- what is said of the connection -/
  connection : String
  /-- how many bytes follow -/
  length : Nat

/-- What the lines of a head say. The status code follows the name of the protocol. -/
def heading? (lines : List (List Char)) : Option Heading := do
  let first ← lines.head?
  let status ← number? ((← field? [first] "HTTP/1.1 ").takeWhile (· ≠ ' '))
  let connection ← field? lines "Connection: "
  let length ← number? (← field? lines "Content-Length: ")
  return { status, connection := .ofList connection, length }

/-- Reads one response, and leaves what follows it. -/
def readReply (stream : Bytes) : Option (Reply × Bytes) := do
  let (head, rest) ← readHead [] stream
  let text ← head.text?
  let h ← heading? (linesFrom [] text.toList)
  if rest.length < h.length then none
  else return (⟨h.status, h.connection, rest.take h.length⟩, rest.drop h.length)

/-- What is read is a head and what is left, and together they are what was there. It makes the
reading of several responses come to an end (`readReply_length`). -/
theorem readHead_length {seen stream head rest : Bytes}
    (h : readHead seen stream = some (head, rest)) :
    headEnd <:+ head ∧ head ++ rest = seen ++ stream := by
  induction stream generalizing seen with
  | nil =>
    rw [readHead] at h
    split at h
    · next hend => cases h; exact ⟨List.isSuffixOf_iff_suffix.mp hend, rfl⟩
    · cases h
  | cons b stream ih =>
    rw [readHead] at h
    split at h
    · next hend => cases h; exact ⟨List.isSuffixOf_iff_suffix.mp hend, rfl⟩
    · obtain ⟨hend, hall⟩ := ih h
      exact ⟨hend, by rw [hall, List.append_assoc]; rfl⟩

/-- A response takes up some of the stream. -/
theorem readReply_length {stream rest : Bytes} {reply : Reply}
    (h : readReply stream = some (reply, rest)) : rest.length < stream.length := by
  simp only [readReply, Option.bind_eq_bind, Option.bind_eq_some_iff] at h
  obtain ⟨⟨head, after⟩, hread, text, _, heading, _, hreply⟩ := h
  obtain ⟨hend, hall⟩ := readHead_length hread
  have hhead := hend.length_le
  have hlength := congrArg List.length hall
  dsimp only at hreply
  split at hreply
  · cases hreply
  · cases hreply
    have hfour : headEnd.length = 4 := rfl
    simp only [List.length_append, List.length_drop, List.nil_append] at *
    omega

/-- Reads one response after the other to the end of the stream; `none` if it is not made up of
responses. -/
def decode (stream : Bytes) : Option (List Reply) :=
  if stream.isEmpty then some []
  else
    match _h : readReply stream with
    | none => none
    | some (reply, rest) => (decode rest).map (reply :: ·)
termination_by stream.length
decreasing_by exact readReply_length _h

/-! ## Where a head ends

The end of a head cannot show up before its end: none of its lines is empty, and the bytes that end
a line are in none of them. -/

section Head

variable {seen line : Bytes} {b : UInt8}

theorem eq_lineFeed_of_headEnd (h : headEnd <:+ seen ++ [b]) : b = lineFeed := by
  obtain ⟨front, hfront⟩ := h
  have hlast := congrArg List.getLast? hfront
  simpa [headEnd, lineEnd, eq_comm] using hlast

/-- A head does not end in a line that is not empty. -/
theorem not_headEnd_lineEnd (seen : Bytes) (hb : b ≠ lineFeed) :
    ¬ headEnd <:+ seen ++ [b] ++ lineEnd := by
  rintro ⟨front, hfront⟩
  rw [headEnd, ← List.append_assoc] at hfront
  have hline := congrArg List.getLast? (List.append_cancel_right hfront)
  exact hb (by simpa [lineEnd, eq_comm] using hline)

/-- Reading goes on as long as the head has not ended. -/
theorem readHead_cons (rest : Bytes) (hseen : ¬ headEnd <:+ seen) :
    readHead seen (b :: rest) = readHead (seen ++ [b]) rest := by
  rw [readHead, if_neg (by rwa [List.isSuffixOf_iff_suffix])]

/-- Reading stops as soon as the head has ended, and leaves the rest alone: bytes of a body that
look like the end of a head are never looked at. -/
theorem readHead_of_headEnd (rest : Bytes) (hseen : headEnd <:+ seen) :
    readHead seen rest = some (seen, rest) := by
  have hend := List.isSuffixOf_iff_suffix.mpr hseen
  cases rest <;> rw [readHead, if_pos hend]

/-- Bytes that end no line are read past. -/
theorem readHead_append (rest : Bytes) (hseen : ¬ headEnd <:+ seen)
    (hline : ∀ b ∈ line, b ≠ lineFeed) :
    readHead seen (line ++ rest) = readHead (seen ++ line) rest ∧ ¬ headEnd <:+ seen ++ line := by
  induction line generalizing seen with
  | nil => exact ⟨by rw [List.nil_append, List.append_nil], by rwa [List.append_nil]⟩
  | cons b line ih =>
    have hnext : ¬ headEnd <:+ seen ++ [b] := fun h =>
      hline b (List.mem_cons_self ..) (eq_lineFeed_of_headEnd h)
    have := ih hnext fun b hb => hline b (List.mem_cons_of_mem _ hb)
    rw [List.append_assoc, List.singleton_append] at this
    rwa [List.cons_append, readHead_cons _ hseen]

/-- A line that is not empty is read past together with its end. -/
theorem readHead_line (rest : Bytes) (hseen : ¬ headEnd <:+ seen) (hne : line ≠ [])
    (hline : ∀ b ∈ line, b ≠ lineFeed) :
    readHead seen ((line ++ lineEnd) ++ rest) = readHead (seen ++ (line ++ lineEnd)) rest ∧
      ¬ headEnd <:+ seen ++ (line ++ lineEnd) := by
  have hreturn : ∀ b ∈ line ++ [carriageReturn], b ≠ lineFeed := by
    intro b hb
    rcases List.mem_append.mp hb with hb | hb
    · exact hline b hb
    · rw [List.mem_singleton.mp hb]
      decide
  obtain ⟨hread, hnot⟩ := readHead_append (lineFeed :: rest) hseen hreturn
  have hsplit : seen ++ (line ++ [carriageReturn]) ++ [lineFeed] = seen ++ (line ++ lineEnd) := by
    simp [lineEnd]
  refine ⟨?_, ?_⟩
  · rw [readHead_cons _ hnot, hsplit] at hread
    rw [← hread]
    simp [lineEnd]
  · -- ahead of the line end stands the last byte of the line, which is no line feed
    have hlast := not_headEnd_lineEnd (seen ++ line.dropLast)
      (hline _ (List.getLast_mem hne))
    rwa [List.append_assoc seen, List.dropLast_append_getLast, List.append_assoc] at hlast

/-- Lines none of which is empty are read past, by induction on the lines. -/
theorem readHead_lines {lines : List Bytes} (rest : Bytes) (hseen : ¬ headEnd <:+ seen)
    (hlines : ∀ line ∈ lines, line ≠ [] ∧ ∀ b ∈ line, b ≠ lineFeed) :
    readHead seen (lines.flatMap (· ++ lineEnd) ++ rest) =
        readHead (seen ++ lines.flatMap (· ++ lineEnd)) rest ∧
      ¬ headEnd <:+ seen ++ lines.flatMap (· ++ lineEnd) := by
  induction lines generalizing seen with
  | nil => exact ⟨by simp, by simpa using hseen⟩
  | cons line lines ih =>
    obtain ⟨hne, hline⟩ := hlines line (List.mem_cons_self ..)
    obtain ⟨hread, hnot⟩ :=
      readHead_line (lines.flatMap (· ++ lineEnd) ++ rest) hseen hne hline
    have := ih hnot fun line hmem => hlines line (List.mem_cons_of_mem _ hmem)
    rw [List.append_assoc] at this
    rwa [List.flatMap_cons, List.append_assoc, hread]

/-- The empty line ends the head. -/
theorem readHead_empty (rest : Bytes) (hseen : ¬ headEnd <:+ seen ++ lineEnd) :
    readHead (seen ++ lineEnd) (lineEnd ++ rest) = some (seen ++ lineEnd ++ lineEnd, rest) := by
  have hreturn : ¬ headEnd <:+ seen ++ lineEnd ++ [carriageReturn] := fun h =>
    absurd (eq_lineFeed_of_headEnd h) (by decide)
  have hend : headEnd <:+ seen ++ lineEnd ++ [carriageReturn] ++ [lineFeed] :=
    ⟨seen, by simp [headEnd, lineEnd]⟩
  have hsplit : lineEnd ++ rest = carriageReturn :: lineFeed :: rest := rfl
  rw [hsplit, readHead_cons _ hseen, readHead_cons _ hreturn, readHead_of_headEnd _ hend]
  simp [lineEnd]

end Head

/-! ## The text of a head

What a client takes from the lines of a head is what was put into them. -/

/-- The lines of the head of a response, as texts. -/
def headTexts (r : Resolution) (keepAlive : Bool) : List String :=
  ["HTTP/1.1 " ++ toString r.status ++ " " ++ r.title,
    "Content-Length: " ++ toString r.body.length,
    "Content-Type: text/html",
    "Connection: " ++ (Reply.of r keepAlive).connection]

/-- The head that is sent is made of these texts. -/
theorem headLines_eq (r : Resolution) (keepAlive : Bool) :
    Response.headLines r keepAlive = (headTexts r keepAlive).map Bytes.ofText := by
  simp only [Response.headLines, headTexts, List.map_cons, List.map_nil, Bytes.ofText_append,
    Response.statusLine, Response.decimal, Response.connectionValue, Reply.of]

/-- Each of them is plain, and none is empty: numbers, the few titles there are, and fixed words. -/
theorem isPlain_headTexts {r : Resolution} {keepAlive : Bool} {text : String}
    (h : text ∈ headTexts r keepAlive) : IsPlain text ∧ Bytes.ofText text ≠ [] := by
  have htitle : IsPlain r.title := by cases r <;> simp only [Resolution.title] <;> decide
  have hvalue : IsPlain (Reply.of r keepAlive).connection := by
    cases keepAlive <;> simp only [Reply.of] <;> decide
  have hstatus : IsPlain ("HTTP/1.1 " ++ toString r.status ++ " " ++ r.title) :=
    (((by decide : IsPlain "HTTP/1.1 ").append (isPlain_toString _)).append
      (by decide : IsPlain " ")).append htitle
  have hlength : IsPlain ("Content-Length: " ++ toString r.body.length) :=
    (by decide : IsPlain "Content-Length: ").append (isPlain_toString _)
  simp only [headTexts, List.mem_cons, List.not_mem_nil, or_false] at h
  rcases h with rfl | rfl | rfl | rfl
  · exact ⟨hstatus, by rw [hstatus.ofText_eq]; simp⟩
  · exact ⟨hlength, by rw [hlength.ofText_eq]; simp⟩
  · exact ⟨by decide, by decide +kernel⟩
  · have hconnection := (by decide : IsPlain "Connection: ").append hvalue
    exact ⟨hconnection, by rw [hconnection.ofText_eq]; simp⟩

/-- **Where a head ends.** A client reads exactly the head, whatever follows it. -/
theorem readHead_head (r : Resolution) (keepAlive : Bool) (rest : Bytes) :
    readHead [] (Response.head r keepAlive ++ rest) = some (Response.head r keepAlive, rest) := by
  have hlines : ∀ line ∈ Response.headLines r keepAlive, line ≠ [] ∧ ∀ b ∈ line, b ≠ lineFeed := by
    intro line hline
    rw [headLines_eq, List.mem_map] at hline
    obtain ⟨text, htext, rfl⟩ := hline
    obtain ⟨hplain, hne⟩ := isPlain_headTexts htext
    exact ⟨hne, fun b hb => hplain.ne_lineFeed hb⟩
  have hnone : ¬ headEnd <:+ ([] : Bytes) := by decide
  obtain ⟨hread, hnot⟩ := readHead_lines (lineEnd ++ rest) hnone hlines
  rw [List.nil_append] at hread hnot
  -- the end of the last line is the first half of what ends the head
  obtain ⟨front, hfront⟩ : lineEnd <:+ (Response.headLines r keepAlive).flatMap (· ++ lineEnd) :=
    ⟨_, by
      simp only [Response.headLines, List.flatMap_cons, List.flatMap_nil, List.append_nil,
        ← List.append_assoc]
      rfl⟩
  rw [← hfront] at hread hnot
  rw [Response.head, List.append_assoc, ← hfront, hread, readHead_empty _ hnot]

/-- Lines of text with their ends, as bytes. -/
theorem ofText_lines (texts : List String) :
    Bytes.ofText (.ofList (texts.flatMap (·.toList ++ ['\r', '\n']))) =
      (texts.map Bytes.ofText).flatMap (· ++ lineEnd) := by
  have hend : Bytes.ofText (.ofList ['\r', '\n']) = lineEnd := by decide +kernel
  induction texts with
  | nil => rfl
  | cons text texts ih =>
    rw [List.flatMap_cons, String.ofList_append, String.ofList_append, String.ofList_toList,
      Bytes.ofText_append, Bytes.ofText_append, ih, hend]
    rfl

/-- A head is a text: its lines, each with its end, and an empty line. -/
theorem text?_head (r : Resolution) (keepAlive : Bool) :
    (Response.head r keepAlive).text? = some (.ofList
      ((headTexts r keepAlive ++ [""]).flatMap (·.toList ++ ['\r', '\n']))) := by
  rw [← Bytes.text?_ofText, ofText_lines, List.map_append, List.flatMap_append, ← headLines_eq,
    Response.head]
  rfl

/-- Characters that end no line are put behind what has begun of it. -/
theorem linesFrom_append {line l : List Char} (hl : '\n' ∉ l) (rest : List Char) :
    linesFrom line (l ++ rest) = linesFrom (line ++ l) rest := by
  induction l generalizing line with
  | nil => simp
  | cons c l ih =>
    rw [List.mem_cons, not_or] at hl
    rw [List.cons_append, linesFrom, if_neg (Ne.symm hl.1), ih hl.2, List.append_assoc]
    rfl

/-- A line and its end are taken off the text. -/
theorem linesFrom_line {l : List Char} (hl : '\n' ∉ l) (rest : List Char) :
    linesFrom [] (l ++ '\r' :: '\n' :: rest) = l :: linesFrom [] rest := by
  have hreturn : '\n' ∉ l ++ ['\r'] := by simpa using hl
  have hsplit : l ++ '\r' :: '\n' :: rest = (l ++ ['\r']) ++ '\n' :: rest := by simp
  rw [hsplit, linesFrom_append hreturn, linesFrom, if_pos rfl, dropReturn]
  simp

/-- The lines of a text are those that it is made of. -/
theorem linesFrom_lines {texts : List String} (htexts : ∀ text ∈ texts, IsPlain text) :
    linesFrom [] (texts.flatMap (·.toList ++ ['\r', '\n'])) = texts.map String.toList := by
  induction texts with
  | nil => rfl
  | cons text texts ih =>
    have hplain : '\n' ∉ text.toList := fun hmem =>
      absurd (htexts text (List.mem_cons_self ..) _ hmem) (by decide)
    have hrest := ih fun text hmem => htexts text (List.mem_cons_of_mem _ hmem)
    rw [List.flatMap_cons, List.append_assoc, List.cons_append, List.cons_append, List.nil_append,
      linesFrom_line hplain, hrest]
    rfl

/-- A number that has been written in digits is read back. -/
theorem number?_toString {n : Nat} (hn : n < Decimal.wordLimit) :
    number? (toString n).toList = some n := by
  have hdigits : ∀ c ∈ (toString n).toList, c.isDigit := fun c => isDigit_of_mem_toString
  have hvalue : Nat.ofDigitChars 10 (toString n).toList 0 = n := by
    rw [Nat.toString_eq_repr, Nat.toList_repr, Nat.ofDigitChars_ten_toDigits]
  have hread := Decimal.appendDigits_of_isDigit hdigits (by rwa [hvalue])
  rw [number?, Text.trim_of_isDigit hdigits, Decimal.unsigned_of_isDigit hdigits, hread, hvalue]
  · rfl
  · rw [Nat.toString_eq_repr, Nat.toList_repr]
    exact Nat.toDigits_ne_nil

/-! ## Reading a response -/

/-- What the lines of a head say. -/
theorem heading?_headTexts {r : Resolution} (keepAlive : Bool)
    (hr : r.body.length < Decimal.wordLimit) (more : List (List Char)) :
    heading? ((headTexts r keepAlive).map String.toList ++ more) =
      some ⟨r.status, (Reply.of r keepAlive).connection, r.body.length⟩ := by
  have hstatus : r.status < Decimal.wordLimit := by
    cases r <;> simp only [Resolution.status] <;> decide
  have hcode : ((toString r.status).toList ++ ' ' :: r.title.toList).takeWhile (· ≠ ' ') =
      (toString r.status).toList := by
    rw [List.takeWhile_append_of_pos, List.takeWhile_cons_of_neg (by simp), List.append_nil]
    intro c hc
    have := toNat_of_isDigit (isDigit_of_mem_toString hc)
    have hne : c ≠ ' ' := by
      rintro rfl
      revert this
      decide
    exact decide_eq_true hne
  have hfirst : field? [("HTTP/1.1 " ++ toString r.status ++ " " ++ r.title).toList] "HTTP/1.1 " =
      some ((toString r.status).toList ++ ' ' :: r.title.toList) := by
    simp [field?, List.isPrefixOf?]
  have hconnection : field? ((headTexts r keepAlive).map String.toList ++ more) "Connection: " =
      some (Reply.of r keepAlive).connection.toList := by
    simp [field?, headTexts, List.isPrefixOf?]
  have hlength : field? ((headTexts r keepAlive).map String.toList ++ more) "Content-Length: " =
      some (toString r.body.length).toList := by
    simp [field?, headTexts, List.isPrefixOf?]
  rw [heading?, hconnection, hlength]
  simp only [headTexts, List.map_cons, List.cons_append, List.head?_cons, Option.bind_eq_bind,
    Option.bind_some, hfirst, hcode, number?_toString hstatus, number?_toString hr,
    String.ofList_toList]
  rfl

/-- A client reads one response, whatever follows it. -/
theorem readReply_laidOut {r : Resolution} (keepAlive : Bool)
    (hr : r.body.length < Decimal.wordLimit) (rest : Bytes) :
    readReply (Response.head r keepAlive ++ r.body ++ rest) = some (.of r keepAlive, rest) := by
  have hplain : ∀ text ∈ headTexts r keepAlive ++ [""], IsPlain text := by
    intro text htext
    rcases List.mem_append.mp htext with h | h
    · exact (isPlain_headTexts h).1
    · rw [List.mem_singleton.mp h]
      decide
  have hlines := linesFrom_lines hplain
  rw [List.map_append] at hlines
  rw [List.append_assoc, readReply, readHead_head]
  simp only [Option.bind_eq_bind, Option.bind_some, text?_head, String.toList_ofList, hlines,
    heading?_headTexts keepAlive hr]
  rw [if_neg (by simp), List.take_left, List.drop_left]
  rfl

end Client

/-! ## Whole streams

By induction on the responses, each of which leaves exactly those behind it to be read. -/

namespace Delivery

/-- Lays out responses in one buffer, each after the one before has been delivered. The result is
what is offered to be sent; there is none if one of them does not fit. -/
def layAll? (d : Delivery) : List (Resolution × Bool) → Option Bytes
  | [] => some []
  | (r, keepAlive) :: more => do
    let d ← d.lay? r keepAlive
    let bytes ← d.reset.layAll? more
    return d.offered.flatten ++ bytes

end Delivery

namespace Client

/-- The first response of a stream is read, and then what follows it. -/
theorem decode_laidOut {r : Resolution} (keepAlive : Bool) (hr : r.body.length < Decimal.wordLimit)
    (rest : Bytes) :
    decode (Response.head r keepAlive ++ r.body ++ rest) =
      (decode rest).map (.of r keepAlive :: ·) := by
  have hread := readReply_laidOut keepAlive hr rest
  rw [decode, if_neg]
  · split
    · next h => rw [hread] at h; cases h
    · next h => rw [hread] at h; cases h; rfl
  · intro hempty
    rw [List.isEmpty_iff.mp hempty] at hread
    exact absurd (readReply_length hread) (Nat.not_lt_zero _)

/-- **Responses can be told apart.** Whatever requests end in, whatever files are sent for them, of
any length that a machine word holds, and whether the connection is kept or not, every response
fits, and a client reads back from the stream of all of them exactly what they are. -/
theorem decode_layAll {d : Delivery} (hd : d.head.capacity = headCapacity)
    {responses : List (Resolution × Bool)}
    (hfiles : ∀ p ∈ responses, ∀ content, p.1 = .found content →
      content.length < Decimal.wordLimit) :
    ∃ stream, d.layAll? responses = some stream ∧
      decode stream = some (responses.map fun (r, keepAlive) => .of r keepAlive) := by
  induction responses generalizing d with
  | nil => exact ⟨[], rfl, by rw [decode]; rfl⟩
  | cons p responses ih =>
    obtain ⟨r, keepAlive⟩ := p
    have hr : r.body.length < Decimal.wordLimit :=
      Resolution.length_body (hfiles _ (List.mem_cons_self ..))
    obtain ⟨d', hlay⟩ := Delivery.lay?_isSome hd keepAlive hr
    have hd' : d'.reset.head.capacity = headCapacity := (Delivery.fits_lay? hlay).2.trans hd
    obtain ⟨stream, hstream, hdecode⟩ := ih hd' fun p hp => hfiles p (List.mem_cons_of_mem _ hp)
    refine ⟨d'.offered.flatten ++ stream, ?_, ?_⟩
    · simp only [Delivery.layAll?, hlay, hstream, Option.bind_eq_bind, Option.bind_some]
      rfl
    · rw [Delivery.offered_of_lay? hlay, decode_laidOut keepAlive hr, hdecode]
      rfl

/-- Files that look like the end of a head, or like a whole response, and an empty one. -/
def misleading : List (Resolution × Bool) :=
  [(.found headEnd, true), (.found (Response.head .notFound true), true), (.found [], true),
    (.forbidden, false)]

/-- What a file looks like does not matter. -/
theorem decode_misleading :
    (∀ p ∈ misleading, ∀ content, p.1 = .found content → content.length < Decimal.wordLimit) ∧
      ∃ stream, ({} : Delivery).layAll? misleading = some stream ∧
        decode stream = some (misleading.map fun (r, keepAlive) => .of r keepAlive) := by
  have hhead : (Response.head .notFound true).length < Decimal.wordLimit := by decide +kernel
  have hfiles : ∀ p ∈ misleading, ∀ content, p.1 = .found content →
      content.length < Decimal.wordLimit := by
    intro p hp content hcontent
    simp only [misleading, List.mem_cons, List.not_mem_nil, or_false] at hp
    rcases hp with rfl | rfl | rfl | rfl <;> cases hcontent
    · decide
    · exact hhead
    · decide
  exact ⟨hfiles, decode_layAll (d := {}) List.length_replicate hfiles⟩

end Client

end FileServer
