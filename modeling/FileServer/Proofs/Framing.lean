import FileServer.Proofs.Bounds
import FileServer.Proofs.Request.Calls

/-!
# Framing

Whatever is done to a connection since it has started afresh, and in whatever pieces the bytes have
come, the lines that have been taken for parts of requests are those into which the bytes are cut,
one after the other and without a gap (`Connection.lines_framed`): each starts where the one before
has ended, and ends before the next carriage return that a line feed follows. The next call goes on
from there, and stops for a reason that the bytes give.

Of each line, though, only what stands before its first zero is seen. So a header line that starts
with a zero is taken for the empty line behind the headers, though it is not empty
(`Connection.zero_ends_headers`).

The invariant is `Connection.Follows`. A read adds what it gives to the bytes that have arrived
(`Connection.Operation.arrived`), and a parse takes some lines off their front
(`Connection.Operation.taken`); neither does both. What stands between the two is what the reader
has pending.
-/

namespace FileServer

open Request

/-! ## What comes in

Whatever reads a reader makes, what it has got is a first part of what the client has sent, in
order. -/

/-- What the client has sent and the server has not read. -/
def Wire.inbound (w : Wire) : Bytes := (w.stream.map Stream.inbound).getD []

/-- The bytes that a read gives. -/
def ReadResult.bytes : ReadResult → Bytes
  | .data bytes => bytes
  | _ => []

/-- What a read gives was the first part of what the client has sent. -/
theorem Wire.inbound_read (w : Wire) (room : Nat) :
    w.inbound = (w.read room).1.bytes ++ (w.read room).2.inbound := by
  have hgiven := w.read_given room
  rw [inbound, inbound]
  generalize w.read room = x at hgiven ⊢
  obtain ⟨result, w'⟩ := x
  cases result with
  | data bytes =>
    obtain ⟨-, ⟨rest, hrest⟩, hstream⟩ := hgiven
    dsimp only at hstream
    rw [← hrest, hstream]
    cases hs : w.stream with
    | none =>
      rw [hs] at hrest
      obtain ⟨rfl, rfl⟩ := List.append_eq_nil_iff.mp hrest
      rfl
    | some s =>
      rw [hs] at hrest
      have htook : (s.took bytes.length).inbound = rest := by
        rw [Stream.took, ← show bytes ++ rest = s.inbound from hrest, List.drop_left]
      exact congrArg (bytes ++ ·) htook.symm
  | wouldBlock => exact congrArg (fun stream => (stream.map Stream.inbound).getD []) hgiven.symm
  | failed reason =>
    rcases hgiven with hstream | hstream
    · exact congrArg (fun stream => (stream.map Stream.inbound).getD []) hstream.symm
    · dsimp only at hstream ⊢
      rw [hstream]
      cases w.stream <;> rfl

/-- To fill the buffer is to put bytes into it that the client has sent, in their order. -/
theorem Request.Reader.fill_feed {r : Reader} (hr : r.InOrder) (w : Wire) :
    ∃ x, (r.fill w).2.1 = r.feed x ∧ r.input.used + x.length ≤ r.input.capacity ∧
      w.inbound = x ++ (r.fill w).2.2.inbound := by
  fun_induction Reader.fill r w with
  | case1 => exact ⟨[], hr.feed_nil.symm, hr.fits, rfl⟩
  | case2 r w hroom w' hread =>
    have hinbound := w.inbound_read r.input.room
    rw [hread] at hinbound
    exact ⟨[], hr.feed_nil.symm, hr.fits, hinbound⟩
  -- every read adds its bytes behind those before, as one feed of all of them would
  | case3 r w hroom b bytes w' hread ih =>
    have hgiven := w.read_given r.input.room
    have hinbound := w.inbound_read r.input.room
    rw [hread] at hgiven hinbound
    have hfits : r.input.used + (b :: bytes).length ≤ r.input.capacity := by
      have hlength := hgiven.1
      rw [Buffer.room] at hlength
      omega
    have horder : (r.feed (b :: bytes)).InOrder :=
      ⟨hr.lineStart_le, Nat.le_trans hr.scanned_le (Nat.le_add_right ..), Buffer.fits_append hfits⟩
    obtain ⟨more, hfeed, hmore, hrest⟩ := ih horder
    refine ⟨b :: bytes ++ more, ?_, ?_, ?_⟩
    · exact hfeed.trans (hr.feed_feed _ _)
    · have hcapacity : (r.input.append (b :: bytes)).capacity = r.input.capacity :=
        Buffer.capacity_append hfits
      rw [hcapacity, Buffer.used_append] at hmore
      rw [List.length_append]
      omega
    · rw [List.append_assoc, ← hrest]
      exact hinbound
  | case4 r w hroom w' hread =>
    have hinbound := w.inbound_read r.input.room
    rw [hread] at hinbound
    exact ⟨[], hr.feed_nil.symm, hr.fits, hinbound⟩
  | case5 r w hroom reason w' hread =>
    have hinbound := w.inbound_read r.input.room
    rw [hread] at hinbound
    exact ⟨[], hr.feed_nil.symm, hr.fits, hinbound⟩

namespace Request

variable {bytes tail tail' : Bytes} {lines more : List Bytes}

/-- What follows the last line may be cut into lines in turn. -/
theorem Lines.append (h : Lines bytes lines tail) (h' : Lines tail more tail') :
    Lines bytes (lines ++ more) tail' where
  eq := by rw [h.eq, h'.eq, List.flatMap_append, List.append_assoc]
  unbroken := by
    intro line hline
    exact (List.mem_append.mp hline).elim (h.unbroken line) (h'.unbroken line)

/-- More bytes follow the last line. -/
theorem Lines.feed (h : Lines bytes lines tail) (x : Bytes) :
    Lines (bytes ++ x) lines (tail ++ x) where
  eq := by rw [h.eq, List.append_assoc]
  unbroken := h.unbroken

end Request

namespace Connection

variable {c : Connection} {k : Kernel} {op : Operation}

/-! ## Since a connection has started afresh

To start afresh is the only thing that throws bytes away. In between, bytes arrive and lines are
taken, and what is pending is the difference. -/

/-- The bytes that an operation takes off the stream. -/
def Operation.arrived (c : Connection) (k : Kernel) : Operation → Bytes
  | readAll =>
    let w := k.wire c.descriptor
    w.inbound.take (w.inbound.length - (c.readAll w).2.2.inbound.length)
  | _ => []

/-- The lines that an operation takes for parts of a request. -/
def Operation.taken (c : Connection) : Operation → List (Phase × Bytes)
  | parse => c.reader.taken
  | process _ => c.reader.taken
  | _ => []

/-- The bytes that some operations take off the stream. -/
def arrived (c : Connection) (k : Kernel) : List Operation → Bytes
  | [] => []
  | op :: rest => op.arrived c k ++ arrived (op.perform c k).2.1 (op.perform c k).2.2 rest

/-- The lines that some operations take for parts of requests. -/
def taken (c : Connection) (k : Kernel) : List Operation → List (Phase × Bytes)
  | [] => []
  | op :: rest => op.taken c ++ taken (op.perform c k).2.1 (op.perform c k).2.2 rest

/-- Sending starts the connection afresh when the response is complete and the connection is
kept. -/
theorem reader_send_complete {w : Wire} (h : (c.send w).1 = .ok (.complete true)) :
    (c.send w).2.1.reader = c.reader.reset := by
  rw [send] at h ⊢
  generalize c.delivery.send w = x at h ⊢
  obtain ⟨status, delivery, w'⟩ := x
  cases status with
  | complete =>
    dsimp only at h ⊢
    split at h
    · next hkeep =>
      rw [if_pos hkeep]
      rfl
    · cases h
  | pending => cases h
  | failed reason => cases h

/-- Resuming a response asks for more to be read only once the response is complete and the
connection is kept; the reader is at its start then. -/
theorem reader_resume_read {w : Wire} (h : (c.resume w).1 = .read) :
    (c.resume w).2.1.reader = c.reader.reset := by
  refine c.reader_send_complete ?_
  have hafter : afterSend (c.send w).1 = .read := h
  generalize (c.send w).1 = result at hafter ⊢
  rcases result with _ | ⟨_ | _⟩ | _
  · cases hafter
  · cases hafter
  · rfl
  · cases hafter

/-- Answering a request asks for more to be read only once the response is complete and the
connection is kept; the reader is at its start then. -/
theorem reader_respond_read {r : Resolution} {w : Wire} (h : (c.respond r w).1 = .read) :
    (c.respond r w).2.1.reader = c.reader.reset := by
  rw [respond_eq] at h ⊢
  split at h
  · next hfits => rw [if_pos hfits, reader_resume_read h, reader_layOut]
  · cases h

theorem reader_answer_read {root : String} {outcome : Outcome} (hdone : outcome ≠ .incomplete)
    (h : (Hub.answer root outcome c k).1 = .read) :
    (Hub.answer root outcome c k).2.1.reader = c.reader.reset := by
  rw [Hub.answer, if_neg hdone] at h ⊢
  simp only [Hub.onWire_eq] at h ⊢
  exact reader_respond_read h

/-- An operation that takes the connection back to the start of a request forgets all that it has
read. -/
theorem Bounded.reader_afresh (hc : c.Bounded) (h : op.StartsAfresh c k) :
    ∃ r : Reader, r.input.capacity = inputCapacity ∧ (op.perform c k).2.1.reader = r.reset := by
  cases op with
  | start descriptor peer => exact ⟨c.reader, hc.reader.capacity, rfl⟩
  | reset => exact ⟨c.reader, hc.reader.capacity, rfl⟩
  | send =>
    refine ⟨c.reader, hc.reader.capacity, ?_⟩
    simp only [Operation.perform, Hub.onWire_eq]
    exact reader_send_complete h
  | resume =>
    refine ⟨c.reader, hc.reader.capacity, ?_⟩
    simp only [Operation.perform, Hub.onWire_eq]
    exact reader_resume_read h
  | process root =>
    obtain ⟨hdone, hread⟩ := h
    exact ⟨c.parse.2.reader, hc.parse.reader.capacity, reader_answer_read hdone hread⟩
  | readAll | parse | layOut | close | meanwhile => exact absurd h id

/-- What an operation reads is added behind what has come before. -/
theorem Bounded.readAll_feed (hc : c.Bounded) (k : Kernel) :
    (c.readAll (k.wire c.descriptor)).2.1.reader =
        c.reader.feed (Operation.readAll.arrived c k) ∧
      c.reader.input.used + (Operation.readAll.arrived c k).length ≤ c.reader.input.capacity := by
  have harrived : ∀ {w : Wire} {x : Bytes}, w.inbound = x ++ (c.readAll w).2.2.inbound →
      w.inbound.take (w.inbound.length - (c.readAll w).2.2.inbound.length) = x := by
    intro w x hx
    have hlength : w.inbound.length - (c.readAll w).2.2.inbound.length = x.length := by
      have hall := congrArg List.length hx
      rw [List.length_append] at hall
      omega
    rw [hlength, hx, List.take_left]
  simp only [Operation.arrived]
  generalize k.wire c.descriptor = w
  rcases Nat.lt_or_ge c.reader.input.used c.reader.input.capacity with hroom | hfull
  · obtain ⟨x, hfill, hfits, hinbound⟩ := Reader.fill_feed hc.reader.inOrder w
    have hread := readAll_of_room hroom w
    rw [harrived (x := x) (by rw [hread]; exact hinbound), hread]
    exact ⟨hfill, hfits⟩
  · have hread := readAll_of_full hfull w
    rw [harrived (x := []) (by rw [hread]; rfl), hread]
    exact ⟨hc.reader.inOrder.feed_nil.symm, hc.reader.fits⟩

/-- The lines that a connection has taken are those of the bytes that have arrived. -/
structure Follows (c : Connection) (arrived : Bytes) (taken : List (Phase × Bytes)) : Prop where
  bounded : c.Bounded
  searching : c.reader.Searching
  lines : ∃ whole : List (Phase × Bytes),
    Lines arrived (whole.map Prod.snd) c.reader.pending ∧ taken = whole.map seen

/-- From there on nothing has arrived yet, and nothing has been taken. -/
theorem Bounded.follows_afresh (hc : c.Bounded) (h : op.StartsAfresh c k) :
    (op.perform c k).2.1.Follows [] [] := by
  obtain ⟨r, hcapacity, hreader⟩ := hc.reader_afresh h
  refine ⟨hc.perform k op, ?_, [], ?_, rfl⟩
  · rw [hreader]
    exact .reset hcapacity
  · rw [hreader, Reader.pending_reset]
    exact ⟨rfl, fun _ h => nomatch h⟩

/-- One operation. It adds bytes behind those that have arrived, or takes lines off what has, or
does neither. What has arrived is cut anew in neither case: the lines already taken stay, and the
rest of what there is becomes their continuation. -/
theorem Follows.perform {arrived : Bytes} {taken : List (Phase × Bytes)}
    (h : c.Follows arrived taken)
    (k : Kernel) (hop : ¬ op.StartsAfresh c k) :
    (op.perform c k).2.1.Follows (arrived ++ op.arrived c k) (taken ++ op.taken c) := by
  obtain ⟨whole, hlines, htaken⟩ := h.lines
  have hbounded := h.bounded.perform k op
  have hreader := reader_perform k hop
  -- reading on takes the next lines
  have hadvance : ∀ c' : Connection, c'.Bounded → c'.reader = c.reader.advance.2 →
      c'.Follows (arrived ++ []) (taken ++ c.reader.taken) := by
    intro c' hc' hsame
    obtain ⟨more, hgoes, hmore⟩ := h.searching.goesOver
    obtain ⟨hsearching, -, hlines'⟩ := hgoes.lines h.searching
    refine ⟨hc', hsame ▸ hsearching, whole ++ more, ?_, ?_⟩
    · rw [List.append_nil, List.map_append, hsame]
      exact hlines.append hlines'
    · rw [List.map_append, ← htaken, ← hmore]
  -- everything else leaves the reader alone
  have hstay : ∀ c' : Connection, c'.Bounded → c'.reader = c.reader →
      c'.Follows (arrived ++ []) (taken ++ []) := by
    intro c' hc' hsame
    rw [List.append_nil, List.append_nil]
    exact ⟨hc', hsame ▸ h.searching, whole, hsame ▸ hlines, htaken⟩
  cases op with
  | readAll =>
    obtain ⟨hfeed, hfits⟩ := h.bounded.readAll_feed k
    have hsame := hreader.trans hfeed
    refine ⟨hbounded, ?_, whole, ?_, ?_⟩
    · rw [hsame]
      exact h.searching.feed hfits
    · rw [hsame, h.bounded.reader.pending_feed]
      exact hlines.feed _
    · exact (List.append_nil _).trans htaken
  | parse => exact hadvance _ hbounded hreader
  | process root => exact hadvance _ hbounded hreader
  | start | reset | layOut | send | resume | close | meanwhile => exact hstay _ hbounded hreader

/-- Any number of operations, by induction; the lists of bytes and of lines grow together. -/
theorem Follows.after {arrived : Bytes} {taken : List (Phase × Bytes)} (h : c.Follows arrived taken)
    (k : Kernel) {operations : List Operation} (hgoes : c.GoesOn k operations) :
    (c.after k operations).1.Follows (arrived ++ c.arrived k operations)
      (taken ++ c.taken k operations) := by
  induction operations generalizing c k arrived taken with
  | nil =>
    rw [Connection.arrived, Connection.taken, List.append_nil, List.append_nil]
    exact h
  | cons op rest ih =>
    have hrest := ih (h.perform k hgoes.1) _ hgoes.2
    rw [List.append_assoc, List.append_assoc] at hrest
    exact hrest

/-- Whatever has been done to a connection, its reader is in the midst of a line that has not
ended. -/
theorem searching_after (k : Kernel) (history : List Operation) :
    (({} : Connection).after k history).1.reader.Searching := by
  have hstart : ({} : Connection).Follows [] [] := by
    refine ⟨.new, .reset (r := {}) List.length_replicate, [], ?_, rfl⟩
    exact ⟨rfl, fun _ h => nomatch h⟩
  -- an operation that starts afresh forgets, any other adds to what has come before
  have hafter : ∀ (history : List Operation) (c : Connection) (k : Kernel),
      (∃ arrived taken, c.Follows arrived taken) →
        ∃ arrived taken, (c.after k history).1.Follows arrived taken := by
    intro history
    induction history with
    | nil => exact fun c k h => h
    | cons op rest ih =>
      rintro c k ⟨arrived, taken, h⟩
      refine ih _ _ ?_
      by_cases hop : op.StartsAfresh c k
      · exact ⟨_, _, h.bounded.follows_afresh hop⟩
      · exact ⟨_, _, h.perform k hop⟩
  obtain ⟨arrived, taken, h⟩ := hafter history _ k ⟨_, _, hstart⟩
  exact h.searching

/-! ## Where lines start and end

From the invariant to the statement about all bytes that have arrived. -/

/-- How a connection has cut into lines what has arrived since it started afresh, and how it goes
on. -/
structure CutsLines (c : Connection) (arrived : Bytes) (taken : List (Phase × Bytes)) : Prop where
  /-- what has arrived is one line after the other, each with its end, and the bytes of the current
  line; as far as they are seen, just these lines have been taken -/
  so_far : ∃ whole : List (Phase × Bytes),
    Lines arrived (whole.map Prod.snd) c.reader.pending ∧ taken = whole.map seen
  /-- the next call takes lines from there on -/
  next : ∃ whole : List (Phase × Bytes),
    Lines c.reader.pending (whole.map Prod.snd) c.parse.2.reader.pending ∧
      c.reader.taken = whole.map seen
  /-- and stops for a reason that the bytes give -/
  stops : c.reader.Stops c.parse.2.reader c.reader.taken c.parse.1
  /-- nothing but a line that is empty, as far as is seen, ends the header lines -/
  ended : c.reader.phase ≠ .body → c.parse.1 = .complete ∨ c.parse.2.reader.phase = .body →
    c.reader.taken.getLast? = some (.headers, [])
  /-- where a byte that ends a line stands alone, the request breaks a rule as soon as it is
  reached -/
  broken : c.parse.2.reader.phase ≠ .body → (∀ line ∈ c.reader.taken, Accepts line) →
    ∀ line tail, c.parse.2.reader.pending = line ++ tail → Unbroken line → Ending tail .malformed →
      c.parse.1 = .malformed
  /-- a line is seen whole exactly if there is no zero in it -/
  seen_iff : ∀ line : Phase × Bytes, seen line = line ↔ 0 ∉ line.2
  /-- a line is seen as empty exactly if it is empty or starts with a zero -/
  empty_iff : ∀ line : Phase × Bytes, (seen line).2 = [] ↔ line.2 = [] ∨ line.2.head? = some 0

theorem seen_eq_self (line : Phase × Bytes) : seen line = line ↔ 0 ∉ line.2 := by
  rw [← visible_eq_self, seen, Prod.ext_iff]
  exact and_iff_right rfl

/-- What is known of a connection in the midst of its lines, as it is told from outside. The next
call takes lines from where the last one has stopped (`Searching.goesOver`), and `Stops` says why it
stops. -/
theorem Follows.cutsLines {arrived : Bytes} {taken : List (Phase × Bytes)}
    (h : c.Follows arrived taken) : c.CutsLines arrived taken := by
  obtain ⟨whole, hgoes, htaken⟩ := h.searching.goesOver
  obtain ⟨hnext, -, hlines⟩ := hgoes.lines h.searching
  have hstops := hgoes.stops h.searching
  rw [← htaken] at hstops
  -- behind an empty line no header line is read
  have hempty : ¬ Accepts (.headers, []) := fun h => h.1 rfl
  refine ⟨h.lines, ⟨whole, hlines, htaken⟩, hstops, ?_, ?_, seen_eq_self, fun _ => visible_eq_nil⟩
  · intro hphase hover
    have hstops' : c.reader.Stops c.parse.2.reader c.reader.taken c.parse.1 := hstops
    generalize c.parse.1 = outcome, c.reader.taken = lines, c.parse.2.reader = r'
      at hstops' hover ⊢
    cases hstops' with
    | body hbody => exact absurd hbody hphase
    | finished => exact List.getLast?_concat
    | waits _ hne | broken _ hne | refused _ _ _ hne =>
      rcases hover with hcomplete | hbody
      · cases hcomplete
      · exact absurd hbody hne
  · intro hphase hall line tail hpending hline htail
    have hscan := hnext.scanLine_eq hpending hline htail
    have hstops' : c.reader.Stops c.parse.2.reader c.reader.taken c.parse.1 := hstops
    have hpassed := fun {line tail : Bytes} {status : LineStatus}
      (hp : c.parse.2.reader.pending = line ++ tail) (hl : Unbroken line)
      (ht : Ending tail status) =>
      congrArg Prod.fst ((hnext.scanLine_eq hp hl ht).symm.trans hscan)
    generalize c.parse.1 = outcome, c.reader.taken = lines, c.parse.2.reader = r'
      at hstops' hphase hall hpassed ⊢
    cases hstops' with
    | body hbody hsame => exact absurd (hsame ▸ hbody) hphase
    | waits _ _ hp hl ht =>
      -- the next line cannot be both unfinished and broken
      cases hpassed hp hl ht
    | broken => rfl
    | refused _ hlast => exact absurd (hall _ (by simp)) hlast
    | finished => exact absurd (hall _ (by simp)) hempty

/-- **Lines are cut where they end.** Whatever has been done to a connection since it started
afresh, the lines that it has taken are those into which the bytes that have arrived are cut, each
up to its first zero, and it goes on with the next one. -/
theorem lines_framed {k : Kernel} {history operations : List Operation} {op : Operation} :
    let (c, k) := ({} : Connection).after k history
    let (c', k') := (op.perform c k).2
    op.StartsAfresh c k → c'.GoesOn k' operations →
      (c'.after k' operations).1.CutsLines (c'.arrived k' operations) (c'.taken k' operations) := by
  intro hafresh hgoes
  have hbounded := Bounded.new.after k history
  exact ((hbounded.follows_afresh hafresh).after _ hgoes).cutsLines

/-- A kernel with a stream behind the descriptor 7, on which a client has sent some bytes. -/
def sending (bytes : Bytes) : Kernel where
  descriptors := .set {} 7 (.stream 0)
  streams := [{ inbound := bytes }]

/-- The bytes come in two pieces, the first of which ends within a line. -/
def twoPieces : List Operation :=
  [.readAll, .parse, .meanwhile fun _ => sending (.ofText "TP/1.1\r\nHost: a\r\n\r\n"),
    .readAll, .parse]

/-- The connection with the descriptor 7, which has just been opened. -/
def opened : Connection := (Operation.start 7 none |>.perform {} {}).2.1

/-- The request line is cut off only when its end has come, and the header line behind it in the
same call. -/
theorem lines_framed_two_pieces :
    let k := sending (.ofText "GET / HT")
    opened.arrived k twoPieces = .ofText "GET / HTTP/1.1\r\nHost: a\r\n\r\n" ∧
      opened.taken k twoPieces =
        [(.requestLine, Bytes.ofText "GET / HTTP/1.1"), (.headers, Bytes.ofText "Host: a"),
        (.headers, [])] ∧
      (opened.after k twoPieces).1.CutsLines (opened.arrived k twoPieces)
        (opened.taken k twoPieces) := by
  refine ⟨by decide +kernel, by decide +kernel, ?_⟩
  exact @lines_framed (sending (.ofText "GET / HT")) [] twoPieces (.start 7 none) trivial
    ⟨id, id, id, id, id, trivial⟩

/-- **A zero ends the header lines.** The client has sent a request line and a header line that is a
single zero, each with its end, and nothing more: the bytes are cut into two lines, none of them
empty. Yet the second is taken for an empty line, and the request for a complete one. -/
theorem zero_ends_headers :
    let bytes := Bytes.ofText "GET / HTTP/1.1\r\n" ++ [0] ++ Response.lineEnd
    let r := ({} : Reader).feed bytes
    Lines bytes [Bytes.ofText "GET / HTTP/1.1", [0]] [] ∧ r.pending = bytes ∧
      r.taken = [(.requestLine, Bytes.ofText "GET / HTTP/1.1"), (.headers, [])] ∧
      r.advance.1 = .complete := by
  refine ⟨⟨by decide, by decide⟩, ?_, ?_, ?_⟩ <;> decide +kernel

end Connection

end FileServer
