import FileServer.Proofs.Bounds
import FileServer.Proofs.Phases
import FileServer.Proofs.Response
import FileServer.Proofs.Request.Lines

/-!
# Requests that break a rule

A request that breaks a rule is answered with the page for bad requests. The violation itself does
not end the connection: what does is that the request had not asked to keep it. Whether it had is
decided by the header lines accepted before the violation (`Request.Reader.keepAlive_advance`), and
from there everything follows (`Connection.violation_answered`): the response says what they asked
for, and once all of it has been accepted, at once or after any number of attempts, the connection
is closed or starts afresh accordingly. A connection that is not to be kept never asks for more to
read.

So a client that asked to keep the connection, and then broke a rule, is told that it is kept, and
what it sends next is taken for a new request (`Connection.violation_kept`).
-/

namespace FileServer

/-! ## What the accepted lines ask for

The flag that keeps a connection is set by the first accepted line that asks for it, and never
cleared before the connection starts afresh. -/

namespace Request.Reader

variable {r r' : Reader}

/-- The header that the line just completed holds, if it is a header line. The request line is
none, and neither is the empty line. -/
def header? (r : Reader) : Option Header :=
  let text := r.input.slice r.currentLine
  if r.phase = .requestLine ∨ text.isEmpty then none else some (.parse text)

/-- The header lines that are accepted as a reader goes on over what is buffered. -/
def accepted (r : Reader) : List Header :=
  if r.phase = .body then []
  else
    match _scan : r.scanLine with
    | (.complete, r') =>
      match _line : r'.takeLine with
      | (.incomplete, r'') => r'.header?.toList ++ accepted r''
      | _ => []
    | _ => []
termination_by r.input.used - r.scanned
decreasing_by
  have scan := scanLine_complete _scan
  have line := takeLine_cursor r'
  simp only [_line] at line
  rw [line.1, line.2]
  omega

/-- A header line that is accepted can ask to keep the connection; none can take that back. -/
theorem keepAlive_takeHeader? {start : Nat} {header : Header}
    (h : r.takeHeader? start header = some r') :
    r'.fields.keepAlive = (r.fields.keepAlive || [header].contains (.connection true)) := by
  cases header with
  | connection keep =>
    obtain rfl := Option.some.inj h
    cases keep <;> rfl
  | contentLength value =>
    cases value with
    | none => cases h
    | some n =>
      simp only [takeHeader?] at h
      split at h
      · obtain rfl := Option.some.inj h
        exact (Bool.or_false _).symm
      · cases h
  | host value =>
    obtain rfl := Option.some.inj h
    exact (Bool.or_false _).symm
  | other =>
    obtain rfl := Option.some.inj h
    exact (Bool.or_false _).symm

/-- A line that reading goes on behind has been accepted; one that ends the reading asks for
nothing. -/
theorem keepAlive_takeLine (r : Reader) :
    r.takeLine.2.fields.keepAlive = (r.fields.keepAlive ||
      (r.takeLine.1 == .incomplete && r.header?.toList.contains (.connection true))) := by
  rw [takeLine_eq, header?]
  dsimp only
  by_cases hphase : r.phase = .requestLine
  · rw [if_pos hphase, if_pos (.inl hphase)]
    cases Line.parse? (r.input.slice r.currentLine) <;> simp [takeRequestLine]
  rw [if_neg hphase]
  by_cases hempty : (r.input.slice r.currentLine).isEmpty = true
  · rw [if_pos hempty, if_pos (.inr hempty), fields_endHeaders]
    simp
  · rw [if_neg hempty, if_neg (not_or.mpr ⟨hphase, hempty⟩)]
    cases htake : takeHeader? { r with lineStart := r.scanned } r.currentLine.start
        (.parse (r.input.slice r.currentLine)) with
    | none => simp
    | some r' =>
      have hheader := keepAlive_takeHeader? htake
      exact hheader

/-- One round of `accepted`, next to one of `advance`. -/
theorem accepted_scan (h : r.phase ≠ .body) :
    r.accepted = match r.scanLine with
      | (.complete, r') =>
        if r'.takeLine.1 = .incomplete then r'.header?.toList ++ r'.takeLine.2.accepted else []
      | _ => [] := by
  rw [accepted, if_neg h]
  split
  · next hscan =>
    rw [hscan]
    dsimp only
    split
    · next hline => rw [hline, if_pos rfl]
    · next hne => rw [if_neg fun hline => hne _ (Prod.ext hline rfl)]
  · next hne =>
    split
    · next hscan => exact absurd hscan (hne _)
    · rfl

/-- **Whether a connection is to be kept** is decided by the header lines that have been accepted.
The induction follows the loop of the reader; a line that ends the reading adds nothing. -/
theorem keepAlive_advance (r : Reader) :
    r.advance.2.fields.keepAlive =
      (r.fields.keepAlive || r.accepted.contains (.connection true)) := by
  have hnothing : ∀ b : Bool, b = (b || ([] : List Header).contains (.connection true)) := by simp
  induction r using advance.induct with
  | case1 r hbody =>
    rw [advance_eq, if_pos hbody, accepted, if_pos hbody]
    exact hnothing _
  | case2 r hline r' hscan =>
    have hsame := (scanLine_says_nothing r).2
    rw [hscan] at hsame
    rw [advance_scan hline, accepted_scan hline, hscan, ← hsame]
    exact hnothing _
  | case3 r hline r' hscan =>
    have hsame := (scanLine_says_nothing r).2
    rw [hscan] at hsame
    rw [advance_scan hline, accepted_scan hline, hscan, ← hsame]
    exact hnothing _
  -- the line asks for it, or one behind it does
  | case4 r hline r' hscan r'' hmore ih =>
    have hsame := (scanLine_says_nothing r).2
    have htaken := keepAlive_takeLine r'
    rw [hscan] at hsame
    rw [hmore] at htaken
    rw [advance_scan hline, accepted_scan hline, hscan]
    dsimp only
    rw [hmore, if_pos rfl, if_pos rfl, ih, htaken, ← hsame]
    simp [Bool.or_assoc]
  | case5 r hline r' hscan o r'' hne hstop =>
    have hsame := (scanLine_says_nothing r).2
    have htaken := keepAlive_takeLine r'
    rw [hscan] at hsame
    rw [hstop] at htaken
    rw [advance_scan hline, accepted_scan hline, hscan]
    dsimp only
    rw [hstop, if_neg hne, if_neg hne, htaken, ← hsame, beq_false_of_ne hne, Bool.false_and]
    simp

end Request.Reader

/-! ## The answer

A request that breaks a rule is answered, and what becomes of the connection afterwards goes by that
flag. -/

namespace Connection

variable {c c' c₁ : Connection} {d : Delivery} {w w₀ : Wire} {p : Progress}

/-- A response that is not over after a call was not over before it, and the call did not end
it. -/
theorem Progress.after_ne_complete {result : Except ServerError Sent}
    (h : p.after result ≠ .complete) :
    p ≠ .complete ∧ ∀ keep, result ≠ .ok (.complete keep) := by
  refine ⟨?_, ?_⟩
  · rintro rfl
    rcases result with e | keep | _ <;> exact h rfl
  · rintro keep rfl
    exact h (by cases p <;> rfl)

/-- A call that reports the end of a response reports as well whether the connection is to be
kept. -/
theorem keepAlive_of_complete {keep : Bool} (h : (c.send w).1 = .ok (.complete keep)) :
    c.keepAlive = keep := by
  obtain ⟨d, w₁, -, ⟨-, hsend⟩ | ⟨-, w', -, hsend⟩ | ⟨-, w', reason, -, hsend⟩⟩ := c.send_cases w
  all_goals
    rw [hsend] at h
    cases h
  rfl

/-- What has been read of a request stays as it is while the response is being delivered, and also
after that if the connection is not to be kept. -/
theorem Moment.reader_eq {c₀ : Connection} (hm : Moment c₀ w₀ p c w)
    (h : c₀.keepAlive = false ∨ p ≠ .complete) : c.reader = c₀.reader := by
  -- a first attempt and a resumed one are the same call
  have hcall : ∀ {p : Progress} {c : Connection} {w : Wire},
      (c₀.keepAlive = false ∨ p ≠ .complete → c.reader = c₀.reader) →
      c₀.keepAlive = false ∨ p.after (c.send w).1 ≠ .complete →
        (c.send w).2.1.reader = c₀.reader := by
    intro p c w ih h
    rcases h with hclose | hp
    · have hsame := ih (.inl hclose)
      refine (c.reader_send w fun hkept => ?_).trans hsame
      have hkeep := keepAlive_of_complete hkept
      rw [keepAlive, hsame] at hkeep
      cases hclose.symm.trans hkeep
    · obtain ⟨hp, hresult⟩ := Progress.after_ne_complete hp
      exact (c.reader_send w (hresult true)).trans (ih (.inr hp))
  induction hm with
  | laidOut => rfl
  | meanwhile _ _ ih => exact ih h
  | wrote _ _ _ ih => exact ih h
  | sent _ ih => exact hcall ih h
  | resumed _ ih => exact hcall ih h

/-- What is said to a client that has broken a rule, and what becomes of it: the connection `c`
has just read the request, and `d` is the response. Nothing in it depends on which rule was
broken. -/
structure Refuses (c : Connection) (d : Delivery) : Prop where
  /-- the response says whether the connection is kept -/
  said : d.offered.flatten = Response.head .badRequest c.keepAlive ++ Resolution.badRequest.body
  /-- once all of it has been accepted, what it says is what is done -/
  ended : ∀ {w₀ p c₁ w₁ keep}, Moment { c with delivery := d } w₀ p c₁ w₁ → p ≠ .complete →
    (c₁.send w₁).1 = .ok (.complete keep) →
      (c₁.resume w₁).2.2.outbound = w₀.outbound ++ d.offered.flatten ∧
        (c₁.resume w₁).1 = (if c.keepAlive then .read else .close) ∧
        (c₁.resume w₁).2.1.reader = (if c.keepAlive then c.reader.reset else c.reader)
  /-- a connection that is not kept never asks for more to read -/
  deaf : c.keepAlive = false → ∀ {w₀ p c₁ w₁}, Moment { c with delivery := d } w₀ p c₁ w₁ →
    (c₁.resume w₁).1 ≠ .read

/-- **What is said is what is done.** The response has been laid out with what the accepted lines
ask for, and what becomes of the connection at its end is decided by the same flag, which nothing
changes in between. -/
theorem refuses (hlay : c.delivery.lay? .badRequest c.keepAlive = some d) : c.Refuses d := by
  have hsaid := Delivery.offered_of_lay? hlay
  refine ⟨hsaid, ?_, ?_⟩
  · intro w₀ p c₁ w₁ keep hm hp hsend
    have hreader : c₁.reader = c.reader := hm.reader_eq (.inr hp)
    have hkeep : c₁.keepAlive = c.keepAlive := congrArg (·.fields.keepAlive) hreader
    -- an attempt is complete only once everything laid out has been accepted
    have hall := (hm.exact_delivery hlay).complete_iff.mp ⟨keep, hsend⟩
    obtain ⟨d₁, w₂, -, hcases⟩ := c₁.send_cases w₁
    rcases hcases with ⟨-, hresult⟩ | ⟨-, w', -, hresult⟩ | ⟨-, w', reason, -, hresult⟩
    · refine ⟨hall.trans (by rw [hsaid]), ?_, ?_⟩
      · rw [resume, hresult, hkeep]
        cases c.keepAlive <;> rfl
      · rw [resume, hresult, hkeep]
        cases c.keepAlive
        · exact hreader
        · exact congrArg Request.Reader.reset hreader
    · rw [hresult] at hsend
      cases hsend
    · rw [hresult] at hsend
      cases hsend
  · intro hclose w₀ p c₁ w₁ hm hread
    have hreader : c₁.reader = c.reader := hm.reader_eq (.inl hclose)
    have hkeep : c₁.keepAlive = false := (congrArg (·.fields.keepAlive) hreader).trans hclose
    obtain ⟨d₁, w₂, -, hcases⟩ := c₁.send_cases w₁
    rcases hcases with ⟨-, hresult⟩ | ⟨-, w', -, hresult⟩ | ⟨-, w', reason, -, hresult⟩
    all_goals
      rw [resume, hresult] at hread
      first
      | cases hread
      | (rw [hkeep] at hread; cases hread)

/-- **A request that breaks a rule** is answered with the page for bad requests, and the connection
is kept exactly if an accepted line of the request asked for it. -/
theorem violation_answered (hhead : c.delivery.head.capacity = headCapacity)
    (hparse : c.parse = (.malformed, c')) :
    c'.keepAlive = (c.keepAlive || c.reader.accepted.contains (.connection true)) ∧
      ∃ d, (∀ root k, Hub.process root c k =
          Hub.onWire (fun c => { c with delivery := d }.resume) c' k) ∧ c'.Refuses d := by
  have hreader : c.reader.advance.2 = c'.reader := congrArg (·.2.reader) hparse
  have hkeep := c.reader.keepAlive_advance
  rw [hreader] at hkeep
  refine ⟨hkeep, ?_⟩
  have hhead' : c'.delivery.head.capacity = headCapacity := by
    rw [← hhead, ← c.delivery_parse, hparse]
  obtain ⟨d, hlay⟩ := Delivery.lay?_isSome hhead' c'.keepAlive
    (Resolution.length_body (r := .badRequest) fun _ h => nomatch h)
  refine ⟨d, fun root k => ?_, refuses hlay⟩
  have hrespond : ∀ w, c'.respond .badRequest w = { c' with delivery := d }.resume w := by
    intro w
    rw [respond, hlay]
  rw [Hub.process, hparse]
  dsimp only
  rw [Hub.answer, if_neg (by decide)]
  dsimp only [Hub.resolve]
  rw [Hub.onWire_eq, Hub.onWire_eq]
  simp only [hrespond]

/-- A connection with the descriptor 7 to which a request has come. -/
def given (request : Bytes) : Connection where
  descriptor := 7
  reader := ({} : Request.Reader).feed request

/-- A request of a method that is not served. -/
def postRequest : Bytes := .ofText "POST / HTTP/1.1\r\n\r\n"

/-- A request that breaks a rule only behind two header lines that are accepted. Neither of them
asks to keep the connection. -/
def unkeptRequest : Bytes :=
  .ofText "GET / HTTP/1.1\r\nHost: a\r\nConnection: close\r\nContent-Length: x\r\n\r\n"

/-- The rule can be broken in the request line, or by a header line behind others. -/
theorem violation_answered_post :
    ((given postRequest).parse.1 = .malformed ∧ (given postRequest).parse.2.keepAlive = false ∧
      ∃ d, (∀ root k, Hub.process root (given postRequest) k =
          Hub.onWire (fun c => { c with delivery := d }.resume) (given postRequest).parse.2 k) ∧
        (given postRequest).parse.2.Refuses d) ∧
    (given unkeptRequest).reader.accepted = [.host ⟨6, 7⟩, .connection false] ∧
    (given unkeptRequest).parse.1 = .malformed ∧ (given unkeptRequest).parse.2.keepAlive = false ∧
      ∃ d, (∀ root k, Hub.process root (given unkeptRequest) k =
          Hub.onWire (fun c => { c with delivery := d }.resume) (given unkeptRequest).parse.2 k) ∧
        (given unkeptRequest).parse.2.Refuses d := by
  have hpost : (given postRequest).parse.1 = .malformed := by decide +kernel
  have hunkept : (given unkeptRequest).parse.1 = .malformed := by decide +kernel
  have haccepted : (given unkeptRequest).reader.accepted = [.host ⟨6, 7⟩, .connection false] := by
    decide +kernel
  obtain ⟨-, hanswer⟩ := violation_answered (c := given postRequest) List.length_replicate
    (Prod.ext hpost rfl)
  obtain ⟨hkeep, hanswer'⟩ := violation_answered (c := given unkeptRequest) List.length_replicate
    (Prod.ext hunkept rfl)
  -- what the lines ask for decides that the connection is not kept
  rw [haccepted] at hkeep
  exact ⟨⟨hpost, by decide +kernel, hanswer⟩, haccepted, hunkept, hkeep, hanswer'⟩

/-- A request that asks to keep the connection, and then breaks a rule. -/
def keptRequest : Bytes :=
  .ofText "GET / HTTP/1.1\r\nConnection: keep-alive\r\nContent-Length: x\r\n\r\n"

/-- A kernel with a stream behind the descriptor 7. -/
def oneStream : Kernel where
  descriptors := .set {} 7 (.stream 0)
  streams := [{}]

/-- **A violation does not end the connection** where an accepted line has asked to keep it. The
client is told so, all of the response has been accepted, and what comes next is taken for a new
request. -/
theorem violation_kept :
    let (next, c, k) := Hub.process "/srv" (given keptRequest) oneStream
    (given keptRequest).parse.1 = .malformed ∧ next = .read ∧
      (k.wire 7).outbound = Response.head .badRequest true ++ Resolution.badRequest.body ∧
      (c.reader.feed (.ofText "GET /next HTTP/1.1\r\n\r\n")).advance.1 = .complete := by
  decide +kernel

end Connection

end FileServer
