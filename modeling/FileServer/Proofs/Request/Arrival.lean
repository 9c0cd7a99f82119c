import FileServer.Proofs.Reading

/-!
# Arrivals

The bytes of a client arrive in pieces, and with each piece the server reads what it can and then
parses what it has read. How the bytes were cut makes no difference (`Connection.receive_cut`): two
runs over the same bytes end with the same outcome, have understood the same request, and leave what
they have not read waiting in the stream.

After any number of arrivals the reader stands where a single reading of all that it has taken so
far would have left it (`Run.Reached`). Two runs take two first parts of the same bytes, of which
the shorter one has either ended the reading or filled the buffer.
-/

namespace FileServer

open Request (Reader Outcome)

/-- A piece of what a client sends, with what the kernel does when it is read. -/
structure Arrival where
  bytes : Bytes
  reads : Script := []

/-- What the pieces hold together. -/
def Arrival.data (arrivals : List Arrival) : Bytes := arrivals.flatMap Arrival.bytes

/-- Reads may be short or interrupted. -/
def Arrival.IsOrdinary (a : Arrival) : Prop := a.reads.Only Fault.isShort

/-- A piece arrives. -/
def Wire.deliver (w : Wire) (a : Arrival) : Wire :=
  { w with reads := a.reads, stream := w.stream.map fun s => (s.send a.bytes).2 }

/-- How far a run over arrivals got. -/
structure Run where
  outcome : Outcome := .incomplete
  connection : Connection
  wire : Wire
  /-- the pieces that have not arrived when the run ends -/
  due : List Arrival

/-- Reads and parses with every arrival, until there is an outcome or nothing more can be read.
This is what the workers do with a connection between them, with nothing of the server around
it. -/
def Connection.receive (c : Connection) (w : Wire) : List Arrival → Run
  | [] => { connection := c, wire := w, due := [] }
  | a :: rest =>
    match c.readAll (w.deliver a) with
    | (false, c, w) => { connection := c, wire := w, due := rest }
    | (true, c, w) =>
      match c.parse with
      | (.incomplete, c) => c.receive w rest
      | (outcome, c) => { outcome, connection := c, wire := w, due := rest }

/-- The bytes that a run has not read: those that wait in the stream, and those yet to come. -/
def Run.unread (e : Run) : Bytes :=
  (e.wire.stream.map Stream.inbound).getD [] ++ Arrival.data e.due

/-! ## Between two arrivals

What a reader has made of the bytes so far is what it would make of them in one go, stopped where it
stopped. -/

/-- All that a run has taken off a stream has been parsed, without an outcome, and nothing waits
there that fits the buffer. It is what holds when a run turns to its next arrival. -/
structure Between (r : Reader) (taken : Bytes) (c : Connection) (w : Wire) (s : Stream) : Prop where
  advance_eq : (r.feed taken).advance = (.incomplete, c.reader)
  fits : r.input.used + taken.length ≤ r.input.capacity
  stream : w.stream = some s
  lively : s.IsLively
  held : s.dropped = false
  drained : s.inbound = [] ∨ r.input.used + taken.length = r.input.capacity

/-- A reader that has just been set up has nothing to wait for. -/
theorem Request.Reader.advance_reset (r : Reader) : r.reset.advance = (.incomplete, r.reset) := by
  have hnone : r.reset.lineEnd? = none := by
    rw [Request.Reader.lineEnd?]
    rfl
  have hline : r.reset.phase ≠ .body := by rintro ⟨⟩
  rw [Request.Reader.advance_scan hline, Request.Reader.scanLine_eq, hnone]
  rfl

/-- A connection that has just been set up is between two arrivals, of which the first is yet to
come. -/
theorem between_start (c : Connection) (descriptor : Int) (peer : Option SocketAddress) :
    Between c.reader.reset [] (c.start descriptor peer) { stream := some {} } {} := by
  refine ⟨?_, Nat.zero_le _, rfl, ⟨rfl, rfl, rfl⟩, rfl, .inl rfl⟩
  rw [(Request.Reader.inOrder_reset c.reader).feed_nil, Request.Reader.advance_reset]
  rfl

namespace Between

variable {r : Reader} {taken : Bytes} {c : Connection} {w : Wire} {s : Stream}

/-- The reader has room for what the one it started from has not taken. -/
theorem room (h : Between r taken c w s) (hr : r.Framed) :
    c.reader.Framed ∧ c.reader.input.used = r.input.used + taken.length ∧
      c.reader.input.capacity = r.input.capacity := by
  obtain ⟨hframed, hroom⟩ := (hr.feed h.fits).advance
  rw [h.advance_eq] at hframed hroom
  exact ⟨hframed, hroom.used, hroom.capacity.trans (Buffer.capacity_append h.fits)⟩

/-- The stream after the next piece has arrived. -/
theorem deliver (h : Between r taken c w s) (a : Arrival) :
    (w.deliver a).stream = some { s with inbound := s.inbound ++ a.bytes } := by
  obtain ⟨hended, habandoned, -⟩ := h.lively
  simp [Wire.deliver, h.stream, Stream.send, h.held, hended, habandoned]

/-- A reading after which the request is still incomplete has taken everything that has arrived, or
has filled the buffer. -/
theorem onward (h : Between r taken c w s) (hr : r.Framed) {more arrived : Bytes} {reader : Reader}
    {w' : Wire} (hadvance : (r.feed (taken ++ more)).advance = (.incomplete, reader))
    (hfits : r.input.used + (taken ++ more).length ≤ r.input.capacity)
    (hstream : w'.stream = some (Stream.took { s with inbound := arrived } more.length))
    (hmore : more = arrived.take c.reader.input.room) :
    Between r (taken ++ more) { c with reader } w'
      (Stream.took { s with inbound := arrived } more.length) := by
  refine ⟨hadvance, hfits, hstream, h.lively, h.held, ?_⟩
  rcases Nat.le_total arrived.length c.reader.input.room with hle | hle
  · left
    rw [hmore, Stream.took, List.take_of_length_le hle, List.drop_length]
  · right
    obtain ⟨-, hused, hcap⟩ := h.room hr
    have hlen : more.length = c.reader.input.room := by
      rw [hmore, List.length_take, Nat.min_eq_left hle]
    rw [Buffer.room] at hlen
    have hbefore := h.fits
    rw [List.length_append]
    omega

end Between

/-! ## Runs

A run reads and parses with every piece that arrives, up to the first outcome that is not to wait
for more, or to the end of the pieces. -/

/-- A run that started at a reader has taken the first bytes of its data, and has understood them
as a single reading would have. It went on as long as there was no outcome and room for more:
without an outcome, it has taken all that fits. -/
structure Run.Reached (r : Reader) (data taken : Bytes) (e : Run) : Prop where
  advance_eq : (r.feed taken).advance = (e.outcome, e.connection.reader)
  fits : r.input.used + taken.length ≤ r.input.capacity
  split : taken ++ e.unread = data
  waits : e.outcome = .incomplete → taken = data.take (r.input.capacity - r.input.used)

/-- A run that stops between two arrivals stops because nothing is due or because the buffer is
full. -/
theorem Between.reached {r : Reader} {taken data : Bytes} {c : Connection} {w : Wire} {s : Stream}
    {due : List Arrival} (h : Between r taken c w s)
    (hdata : taken ++ (s.inbound ++ Arrival.data due) = data)
    (hend : due = [] ∨ r.input.used + taken.length = r.input.capacity) :
    Run.Reached r data taken { connection := c, wire := w, due } := by
  have hunread : Run.unread { connection := c, wire := w, due } =
      s.inbound ++ Arrival.data due := by
    rw [Run.unread, h.stream]
    rfl
  have hfits := h.fits
  refine ⟨h.advance_eq, hfits, hunread ▸ hdata, fun _ => ?_⟩
  have hfull : r.input.used + taken.length = r.input.capacity →
      taken = data.take (r.input.capacity - r.input.used) := by
    intro hfull
    rw [← hdata, ← hfull, Nat.add_sub_cancel_left, List.take_left]
  rcases hend with rfl | hend
  · rcases h.drained with hnone | hend
    · have hall : taken = data := by
        rw [← hdata, hnone]
        simp [Arrival.data]
      rw [← hall, List.take_of_length_le (by omega)]
    · exact hfull hend
  · exact hfull hend

/-- **A run reads as if in one go.** Wherever it stops, it has taken some first part of its data
and stands where a single reading of that part ends. The induction is on the arrivals; in each
step what the single reading has taken grows by what the arrival adds to it. -/
theorem Between.receive {r : Reader} {data : Bytes} (hr : r.Framed) (arrivals : List Arrival)
    (hord : ∀ a ∈ arrivals, a.IsOrdinary) {taken : Bytes} {c : Connection} {w : Wire} {s : Stream}
    (h : Between r taken c w s) (hdata : taken ++ (s.inbound ++ Arrival.data arrivals) = data) :
    ∃ taken', (c.receive w arrivals).Reached r data taken' := by
  induction arrivals generalizing taken c w s with
  | nil => exact ⟨taken, h.reached hdata (.inl rfl)⟩
  | cons a rest ih =>
    obtain ⟨hframed, hused, hcap⟩ := h.room hr
    have hstream := h.deliver a
    have hdata' : taken ++ ((s.inbound ++ a.bytes) ++ Arrival.data rest) = data := by
      rw [← hdata, Arrival.data, Arrival.data, List.flatMap_cons, List.append_assoc]
    rcases Nat.lt_or_ge c.reader.input.used c.reader.input.capacity with hroom | hroom
    · have hshort : (w.deliver a).reads.Only Fault.isShort := hord a List.mem_cons_self
      obtain ⟨more, w', hfilled, hall⟩ := Reader.fill_spec hframed.toInOrder hstream h.lively
        fun fault hf => (hshort fault hf).isGentleRead
      have hmore := hall hshort
      -- the reading goes on as if it had started with all that has been taken by now
      have hadvance : (c.reader.feed more).advance = (r.feed (taken ++ more)).advance := by
        have hfeed := (hr.feed h.fits).advance_feed more
        rw [hr.toInOrder.feed_feed, h.advance_eq, if_pos rfl] at hfeed
        exact hfeed.symm
      have hfits : r.input.used + (taken ++ more).length ≤ r.input.capacity := by
        have := hfilled.fits
        rw [List.length_append]
        omega
      have hleft : more ++ (s.inbound ++ a.bytes).drop more.length = s.inbound ++ a.bytes := by
        obtain ⟨left, hleft⟩ := hfilled.first
        dsimp only at hleft
        rw [← hleft, List.drop_left]
      have hdata'' : taken ++ more ++
          ((s.inbound ++ a.bytes).drop more.length ++ Arrival.data rest) = data := by
        rw [← hdata', ← List.append_assoc, List.append_assoc taken, hleft, List.append_assoc]
      rw [Connection.receive, Connection.readAll_of_room hroom, hfilled.fill_eq]
      dsimp only
      cases hparse : (c.reader.feed more).advance with
      | mk outcome reader =>
        have hgone : (r.feed (taken ++ more)).advance = (outcome, reader) := hadvance ▸ hparse
        have hstop : outcome ≠ .incomplete → Run.Reached r data (taken ++ more)
            { outcome, connection := { c with reader }, wire := w', due := rest } := by
          intro hne
          refine ⟨hgone, hfits, ?_, fun h => absurd h hne⟩
          rw [Run.unread, hfilled.stream]
          exact hdata''
        cases outcome with
        | incomplete =>
          have hnext := h.onward hr hgone hfits hfilled.stream hmore
          have hrun := ih (fun b hb => hord b (List.mem_cons_of_mem _ hb)) hnext hdata''
          simpa only [Connection.parse, hparse] using hrun
        | malformed =>
          exact ⟨taken ++ more, by simpa only [Connection.parse, hparse] using hstop (by rintro ⟨⟩)⟩
        | complete =>
          exact ⟨taken ++ more, by simpa only [Connection.parse, hparse] using hstop (by rintro ⟨⟩)⟩
    · have hfull : r.input.used + taken.length = r.input.capacity := by
        have := h.fits
        omega
      have hnext : Between r taken c (w.deliver a) { s with inbound := s.inbound ++ a.bytes } :=
        { h with stream := hstream, drained := .inr hfull }
      rw [Connection.receive, Connection.readAll_of_full hroom]
      exact ⟨taken, hnext.reached hdata' (.inr hfull)⟩

/-! ## Two runs over the same bytes

Two runs over the same bytes, cut differently, are both compared with one that has all bytes at
once. -/

/-- Two readers have understood the same: the same parts of a request stand in the same places and
say the same, and reading would go on at the same place. -/
structure SameRequest (r r' : Reader) : Prop where
  phase : r'.phase = r.phase
  fields : r'.fields = r.fields
  bodyStart : r'.bodyStart = r.bodyStart
  scanned : r'.scanned = r.scanned
  lineStart : r'.lineStart = r.lineStart
  target : r'.target = r.target
  version : r'.version = r.version
  host : r'.host = r.host

theorem SameRequest.refl (r : Reader) : SameRequest r r := ⟨rfl, rfl, rfl, rfl, rfl, rfl, rfl, rfl⟩

theorem SameRequest.symm {r r' : Reader} (h : SameRequest r r') : SameRequest r' r :=
  ⟨h.phase.symm, h.fields.symm, h.bodyStart.symm, h.scanned.symm, h.lineStart.symm, h.target.symm,
    h.version.symm, h.host.symm⟩

/-- Bytes that have been read and not looked at yet have not been understood: they change
nothing. -/
theorem sameRequest_feed {r : Reader} (hr : r.Framed) (x : Bytes) : SameRequest r (r.feed x) := by
  obtain ⟨htarget, hversion, hhost⟩ := hr.texts_feed x
  exact ⟨rfl, rfl, rfl, rfl, rfl, htarget, hversion, hhost⟩

/-- A run that has taken more than another one has come to the same result. If the shorter one
came to an outcome, reading on stops there as well; if it did not, it had no room for more. -/
theorem Run.Reached.agree {r : Reader} {data taken more : Bytes} {e e' : Run} (hr : r.Framed)
    (h : e.Reached r data taken) (h' : e'.Reached r data (taken ++ more)) :
    e'.outcome = e.outcome ∧ SameRequest e.connection.reader e'.connection.reader := by
  obtain ⟨hframed, -⟩ := (hr.feed h.fits).advance
  have hfeed := (hr.feed h.fits).advance_feed more
  rw [hr.toInOrder.feed_feed, h'.advance_eq, h.advance_eq] at hfeed
  rw [h.advance_eq] at hframed
  by_cases hwait : e.outcome = .incomplete
  · -- the shorter run has taken all that fits, so the other one has taken no more
    have hnone : more = [] := by
      have hlong := h'.fits
      have hsplit := congrArg List.length h'.split
      have hall := congrArg List.length (h.waits hwait)
      rw [List.length_append, List.length_append] at hsplit
      rw [List.length_append] at hlong
      rw [List.length_take] at hall
      exact List.length_eq_zero_iff.mp (by omega)
    subst hnone
    have hsame := h'.advance_eq
    rw [List.append_nil, h.advance_eq] at hsame
    obtain ⟨houtcome, hreader⟩ := Prod.mk.inj hsame
    rw [houtcome, hreader]
    exact ⟨rfl, SameRequest.refl _⟩
  · rw [if_neg hwait] at hfeed
    obtain ⟨houtcome, hreader⟩ := Prod.mk.inj hfeed
    rw [houtcome, hreader]
    exact ⟨rfl, sameRequest_feed hframed more⟩

/-- What a run has not read is what comes after the bytes in its buffer. -/
theorem Run.Reached.unread_eq {r : Reader} {data taken : Bytes} {e : Run} (hr : r.Framed)
    (hempty : r.input.used = 0) (h : e.Reached r data taken) :
    e.unread = data.drop e.connection.reader.input.used := by
  obtain ⟨-, hroom⟩ := (hr.feed h.fits).advance
  rw [h.advance_eq] at hroom
  have hused : e.connection.reader.input.used = taken.length := by
    rw [hroom.used, Request.Reader.feed, Buffer.used_append, hempty, Nat.zero_add]
  rw [hused, ← h.split, List.drop_left]

/-- Two runs over the same data agree, whichever of them has taken more. -/
theorem Run.Reached.agree_any {r : Reader} {data taken taken' : Bytes} {e e' : Run} (hr : r.Framed)
    (h : e.Reached r data taken) (h' : e'.Reached r data taken') :
    e.outcome = e'.outcome ∧ SameRequest e.connection.reader e'.connection.reader := by
  have hp : taken <+: data := ⟨e.unread, h.split⟩
  have hp' : taken' <+: data := ⟨e'.unread, h'.split⟩
  rcases List.prefix_or_prefix_of_prefix hp hp' with ⟨more, hmore⟩ | ⟨more, hmore⟩
  · obtain ⟨houtcome, hrequest⟩ := h.agree hr (hmore.symm ▸ h')
    exact ⟨houtcome.symm, hrequest⟩
  · obtain ⟨houtcome, hrequest⟩ := h'.agree hr (hmore.symm ▸ h)
    exact ⟨houtcome, hrequest.symm⟩

/-- The run of a connection that has just been set up, on a stream on which nothing has arrived. -/
def Connection.receiveFresh (c : Connection) (descriptor : Int) (peer : Option SocketAddress)
    (arrivals : List Arrival) : Run :=
  (c.start descriptor peer).receive { stream := some {} } arrivals

/-- **Cutting makes no difference.** Two runs of a connection that has just been set up, over the
same bytes in pieces of any sizes, end with the same outcome and the same request, and leave all
that they have not read in order. -/
theorem Connection.receive_cut (c : Connection) (descriptor : Int) (peer : Option SocketAddress)
    {xs ys : List Arrival} {data : Bytes} (hxs : ∀ a ∈ xs, a.IsOrdinary)
    (hys : ∀ a ∈ ys, a.IsOrdinary) (hdata : Arrival.data xs = data)
    (hdata' : Arrival.data ys = data) :
    let e := c.receiveFresh descriptor peer xs
    let e' := c.receiveFresh descriptor peer ys
    e.outcome = e'.outcome ∧ SameRequest e.connection.reader e'.connection.reader ∧
      e.unread = data.drop e.connection.reader.input.used ∧
      e'.unread = data.drop e'.connection.reader.input.used := by
  have hr := Request.Reader.framed_reset c.reader
  have hstart := between_start c descriptor peer
  obtain ⟨taken, h⟩ := hstart.receive hr xs hxs hdata
  obtain ⟨taken', h'⟩ := hstart.receive hr ys hys hdata'
  obtain ⟨houtcome, hrequest⟩ := h.agree_any hr h'
  exact ⟨houtcome, hrequest, h.unread_eq hr rfl, h'.unread_eq hr rfl⟩

/-- A request, cut between the two bytes that end a line, in its target, and not at all. The reads
of the second piece are interrupted once and then short. -/
def cutRequest : List Arrival :=
  [{ bytes := .ofText "GET /in" },
    { bytes := .ofText "dex HTTP/1.1\r", reads := [some (.fail .interrupted), some (.limit 3)] },
    { bytes := .ofText "\n\r\nGET" }]

/-- The same request in one piece. -/
def wholeRequest : List Arrival := [{ bytes := .ofText "GET /index HTTP/1.1\r\n\r\nGET" }]

/-- The two runs over these pieces complete the same request, and leave the first three bytes of
the next one where they are. -/
theorem receive_cut_request :
    (∀ a ∈ cutRequest, a.IsOrdinary) ∧ (∀ a ∈ wholeRequest, a.IsOrdinary) ∧
      (Connection.receiveFresh {} 5 none wholeRequest).outcome = .complete ∧
      (Connection.receiveFresh {} 5 none cutRequest).outcome =
        (Connection.receiveFresh {} 5 none wholeRequest).outcome ∧
      (Connection.receiveFresh {} 5 none cutRequest).unread =
        (Arrival.data wholeRequest).drop
          (Connection.receiveFresh {} 5 none cutRequest).connection.reader.input.used := by
  have hcut : ∀ a ∈ cutRequest, a.IsOrdinary := by
    simp [cutRequest, Arrival.IsOrdinary, Script.Only, Fault.isShort]
  have hwhole : ∀ a ∈ wholeRequest, a.IsOrdinary := by
    simp [wholeRequest, Arrival.IsOrdinary, Script.Only]
  have hdata : Arrival.data cutRequest = Arrival.data wholeRequest := by decide +kernel
  obtain ⟨houtcome, -, hunread, -⟩ := Connection.receive_cut {} 5 none hcut hwhole hdata rfl
  exact ⟨hcut, hwhole, by decide +kernel, houtcome, hunread⟩

end FileServer
