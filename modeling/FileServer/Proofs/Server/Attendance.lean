import FileServer.Proofs.Exchange
import FileServer.Proofs.Kernel.Gentle
import FileServer.Proofs.Server.Outside

/-!
# How a client is attended to

From the moment a client connects, its stream is in one place: it waits at the listener, has been
accepted, belongs to a connection that takes part in an exchange with the client, or to one that has
sent its last response and is about to be closed, or has been closed (`Server.Attended`). Each step
of the server leaves it there, or carries the exchange on in the way in which a sequential server
would (`Server.Attended.step`); nothing that happens to other connections has a part in this, as
they own other streams.

There is one lemma for each state of an exchange: listening for a request
(`Server.Attended.of_listening`), having heard some of it (`of_heard`), answering it
(`of_answering`), and sending the response (`of_sending`). Each goes through the ways in which a
connection may be passed on (`Server.Passage`) from the place where it is; most of them are excluded
by that place, and the others lead to a state of the exchange that is listed.
-/

namespace FileServer

open Request (Heard read inputCapacity)
open Reference (answerTo keeps reply transcript MaySend)

/-! ## Turns

Where a client is in its requests, by the bytes alone. -/

/-- Of its requests a client has had some answered; of the first of those that are due it has sent
a part. All of those that were answered have asked to keep the connection. -/
structure Turn (requests : List Bytes) (sent : Bytes) (done due : List Bytes) (part : Bytes) :
    Prop where
  split : requests = done ++ due
  keep : ∀ p ∈ done, keeps p = true
  sent_eq : sent = done.flatten ++ part
  part_le : part <+: due.headD []

namespace Turn

variable {requests done due : List Bytes} {sent part u inbound : Bytes}

theorem due_eq (hhead : due.head? = some part) : ∃ rest, due = part :: rest := by
  cases due with
  | nil => cases hhead
  | cons q rest => exact ⟨rest, by rw [Option.some.inj hhead]⟩

/-- What has been heard is a first part of the request that is due, or nothing. -/
theorem heard (ht : Turn requests sent done due part) (hpart : u ++ inbound = part) :
    u = [] ∨ ∃ q ∈ requests, due.head? = some q ∧ u <+: q := by
  have hu : u <+: due.headD [] := List.IsPrefix.trans ⟨inbound, hpart⟩ ht.part_le
  cases hdue : due with
  | nil =>
    rw [hdue] at hu
    exact .inl (List.prefix_nil.mp hu)
  | cons q rest =>
    rw [hdue] at hu
    refine .inr ⟨q, ?_, rfl, hu⟩
    rw [ht.split, hdue]
    exact List.mem_append_right _ List.mem_cons_self

/-- As long as a request is incomplete there is room for more of it. -/
theorem room (ht : Turn requests sent done due part) (hwhole : ∀ q ∈ requests, Request.IsWhole q)
    (hpart : u ++ inbound = part) (hwait : (read u).1 = .incomplete) :
    u.length < inputCapacity := by
  rcases ht.heard hpart with rfl | ⟨q, hq, -, hu⟩
  · decide
  · have hcomplete := (hwhole q hq).complete
    have hlt : u.length < q.length := by
      refine Nat.lt_of_le_of_ne hu.length_le fun heq => ?_
      rw [hu.eq_of_length heq, hcomplete] at hwait
      cases hwait
    exact Nat.lt_of_lt_of_le hlt (hwhole q hq).length_le

/-- What has been heard is incomplete, or all of the request that is due, and then nothing waits. -/
theorem outcome (ht : Turn requests sent done due part) (hwhole : ∀ q ∈ requests, Request.IsWhole q)
    (hpart : u ++ inbound = part) :
    (read u).1 = .incomplete ∨
      (read u).1 = .complete ∧ due.head? = some part ∧ u = part ∧ inbound = [] := by
  rcases ht.heard hpart with rfl | ⟨q, hq, hhead, hu⟩
  · exact .inl Request.read_nil
  · rcases (hwhole q hq).part hu with rfl | hwait
    · right
      obtain ⟨rest, hdue⟩ := due_eq hhead
      have hle := ht.part_le
      rw [hdue, List.headD_cons] at hle
      have hlength := hle.length_le
      rw [← hpart, List.length_append] at hlength
      have hnone : inbound = [] := List.eq_nil_of_length_eq_zero (by omega)
      rw [hnone, List.append_nil] at hpart
      exact ⟨(hwhole u hq).complete, hpart ▸ hhead, hpart, hnone⟩
    · exact .inl hwait

/-- The response has been sent, and the next request is due. -/
theorem next (ht : Turn requests sent done due part) {rest : List Bytes} (hdue : due = part :: rest)
    (hkeep : keeps part = true) : Turn requests sent (done ++ [part]) rest [] := by
  refine ⟨?_, fun p hp => ?_, ?_, List.nil_prefix⟩
  · rw [ht.split, hdue, List.append_assoc, List.singleton_append]
  · rcases List.mem_append.mp hp with hp | hp
    · exact ht.keep p hp
    · rw [List.mem_singleton.mp hp]
      exact hkeep
  · rw [ht.sent_eq]
    simp

end Turn

/-- All that a client is ever sent has been sent: the last response answers the first request that
did not ask to keep the connection. -/
def Reference.Last (site : Site) (root : String) (requests : List Bytes) (outbound : Bytes) :
    Prop :=
  ∃ done q rest, requests = done ++ q :: rest ∧ (∀ p ∈ done, keeps p = true) ∧ keeps q = false ∧
    outbound = transcript site root (done ++ [q])

/-- A client that has had the last response has been sent all there is. -/
theorem Reference.Last.whole {site : Site} {root : String} {requests : List Bytes}
    {outbound : Bytes}
    (hlast : Reference.Last site root requests outbound) :
    outbound = transcript site root requests := by
  obtain ⟨done, q, rest, rfl, hkeep, hq, rfl⟩ := hlast
  rw [Reference.transcript_snoc hkeep, Reference.transcript_end hkeep hq]

/-- The response to a request that does not ask to keep the connection is the last one. -/
theorem Turn.last {site : Site} {root : String} {requests done due : List Bytes}
    {sent part outbound : Bytes} (ht : Turn requests sent done due part)
    (hhead : due.head? = some part) (hkeep : keeps part = false)
    (hout : outbound = transcript site root done ++ reply site root part) :
    Reference.Last site root requests outbound := by
  obtain ⟨rest, hdue⟩ := due_eq hhead
  exact ⟨done, part, rest, hdue ▸ ht.split, ht.keep, hkeep,
    hout.trans (Reference.transcript_snoc ht.keep part).symm⟩

namespace Server

variable {s t : Server} {a : Action} {n : Nat} {h : Handle} {τ τ' : Holder} {c c' : Connection}
  {st st' : Stream} {site : Site} {root : String} {requests done due : List Bytes}
    {sent part : Bytes}

/-! ## The connection of a client

The stream belongs to one connection, and what happens to that connection through its wire happens
to that stream. -/

/-- A connection has the stream of a client, and nothing else has it. -/
structure Serves (s : Server) (n : Nat) (h : Handle) (τ : Holder) (c : Connection) (st : Stream) :
    Prop where
  standing : s.Standing h τ c
  owns : s.hub.kernel.Owns h.descriptor n
  stream : s.hub.kernel.streams[n]? = some st

namespace Serves

theorem streamOf? (hs : s.Serves n h τ c st) : s.hub.kernel.streamOf? h.descriptor = some n :=
  hs.owns.streamOf? hs.standing.stream

theorem wire_stream (hs : s.Serves n h τ c st) :
    (s.hub.kernel.wire h.descriptor).stream = some st :=
  Kernel.wire_stream hs.streamOf? hs.stream

theorem keep (hs : s.Serves n h τ c st) (hk : s.hub.kernel.Keeps t.hub.kernel h.descriptor)
    (hstanding : t.Standing h τ' c') : t.Serves n h τ' c' st := by
  obtain ⟨howns, hstream⟩ := hk.owned n hs.owns
  exact ⟨hstanding, howns, hstream.trans hs.stream⟩

/-- What is done to the stream by others is what the client itself does. -/
theorem touch (hs : s.Serves n h τ c st)
    (hk : Kernel.Untouched a s.hub.kernel t.hub.kernel h.descriptor)
    (hstanding : t.Standing h τ' c') : t.Serves n h τ' c' (a.upon n st) := by
  obtain ⟨howns, hstream⟩ := hk.owned n hs.owns
  refine ⟨hstanding, howns, ?_⟩
  rw [hstream, hs.stream]
  rfl

/-- Something has been done through the descriptor, after a change that does not concern it. -/
theorem put (hs : s.Serves n h τ c st) {k : Kernel} (hk : s.hub.kernel.Keeps k h.descriptor)
    {w : Wire}
    (hput : t.hub.kernel = k.putWire h.descriptor w) (hw : w.stream = some st')
    (hstanding : t.Standing h τ' c') : t.Serves n h τ' c' st' := by
  obtain ⟨howns, -⟩ := hk.owned n hs.owns
  obtain ⟨howns', hstream⟩ :=
    howns.putWire ((Kernel.streamOf?_congr hk.descriptor).trans hs.streamOf?) hw
  exact ⟨hstanding, hput ▸ howns', hput ▸ hstream⟩

end Serves

/-! ## Where a client is

The five places, in the order in which a client comes to them. -/

/-- A client who has been answered nothing, and whose bytes nobody has read. -/
structure Fresh (requests : List Bytes) (sent : Bytes) (st : Stream) : Prop where
  present : st.Present
  outbound : st.outbound = []
  inbound : st.inbound = sent
  part_le : sent <+: requests.headD []

/-- A client waits at the listener. Nobody has looked at its stream, and no other descriptor has
it. -/
structure Waits (s : Server) (n : Nat) (requests : List Bytes) (sent : Bytes) : Prop where
  awaits : ∃ l, s.hub.kernel.descriptors.get? s.listener = some (.listener l)
  owns : s.hub.kernel.Owns s.listener n
  fresh : ∃ st, s.hub.kernel.streams[n]? = some st ∧ Fresh requests sent st

/-- A client has been accepted, and is not in the table yet. -/
structure Admits (s : Server) (n : Nat) (requests : List Bytes) (sent : Bytes) : Prop where
  place : ∃ rest d peer, (s.stage = .batch rest (.consider d peer) ∨
    s.stage = .batch rest (.enter d peer)) ∧ s.hub.kernel.Owns d n
  fresh : ∃ st, s.hub.kernel.streams[n]? = some st ∧ Fresh requests sent st

/-- Where a client is who has sent so much of its requests. The five places are taken in turn; a
client never goes back, except that one whose connection is kept has its next request heard. -/
inductive Attended (site : Site) (root : String) (requests : List Bytes) (s : Server) (n : Nat)
    (sent : Bytes) : Prop
  | waiting : s.Waits n requests sent → Attended site root requests s n sent
  | accepted : s.Admits n requests sent → Attended site root requests s n sent
  /-- the client has a connection -/
  | served {h : Handle} {τ : Holder} {c : Connection} {st : Stream} {done due : List Bytes}
    {part : Bytes} : s.Serves n h τ c st → st.Present → Turn requests sent done due part →
    Exchange site root done due part h τ c st → Attended site root requests s n sent
  /-- the last response has been sent, and the connection is about to be closed -/
  | finished {h : Handle} {c : Connection} {st : Stream} : s.Serves n h (.worker (.close h)) c st →
    Reference.Last site root requests st.outbound → Attended site root requests s n sent
  /-- the connection has been closed -/
  | gone {st : Stream} : s.hub.kernel.Loose n → s.hub.kernel.streams[n]? = some st →
    st.dropped = true → Reference.Last site root requests st.outbound →
    Attended site root requests s n sent

/-! ## What a server counts on

The conditions under which a server is compared with a sequential one: room wherever room is needed,
and a kernel that is merely slow. -/

/-- Whether the limits on connections, on slots and on what is queued leave room for what the loop
is about to do. Without room a client is turned away or a connection closed, and then no
sequential server would be followed. -/
def hasRoom (s : Server) : Bool :=
  match s.stage with
  | .batch _ (.consider _ _) => !s.hub.isFull
  | .batch _ (.enter d _) => s.hub.hasSlot d
  | .batch _ (.submit _) => s.pool.queue.length < s.pool.capacity
  | _ => true

/-- The server publishes a site, nothing that it asks of the kernel fails, and its buffers have
their sizes. -/
structure Works (site : Site) (root : String) (s : Server) : Prop where
  site : s.hub.kernel.site = site
  root : s.hub.root = root
  gentle : s.hub.kernel.Gentle
  sized : s.Sized

/-! ## What becomes of an attempt to send -/

/-- After an attempt to send, the response is on its way, the next request is awaited, or the
connection is about to be closed. -/
theorem Attended.of_attempt {front file : Bytes} {next : Next} {w' : Wire}
    (hserves : t.Serves n h τ' c' st') (hsized : t.Sized) (hp : st'.Present)
    (hin : st'.inbound = [])
    (ht : Turn requests sent done due part) (hhead : due.head? = some part)
    (hkeep : c.keepAlive = keeps part) (hreply : front ++ file = reply site root part)
    (hw' : w'.stream = some st')
    (hattempt : c.Attempt front file (transcript site root done) st' next c' w')
    (hwrite : next = .write → τ'.Sends h) (hread : next = .read → τ'.Listens h)
    (hclose : next = .close → τ' = .worker (.close h)) : Attended site root requests t n sent := by
  obtain ⟨rest, hdue⟩ := Turn.due_eq hhead
  cases hattempt with
  | pending hcourse hincomplete hreader =>
    have hkeep' : c'.keepAlive = keeps part := by
      rw [← hkeep, Connection.keepAlive, Connection.keepAlive, hreader]
    refine .served hserves hp ht (.sending (hwrite rfl) hhead hin hkeep' hreply (hcourse.congr ?_)
      hincomplete)
    rw [Wire.outbound, Wire.outbound, hw']
  | kept hkeep' hout hreader =>
    have hcapacity := (hsized.connection hserves.standing.connection).input
    rw [hreader] at hcapacity
    have hheard : Heard c'.reader [] := hreader ▸ Request.Heard.reset c.reader hcapacity
    refine .served hserves hp (ht.next hdue (hkeep ▸ hkeep'))
      (.listening (hread rfl) hheard Request.read_nil ?_ ?_)
    · rw [hin, List.append_nil]
    · rw [hout, hreply, Reference.transcript_snoc ht.keep]
  | last hkeep' hout =>
    obtain rfl := hclose rfl
    exact .finished hserves (ht.last hhead (hkeep ▸ hkeep') (hreply ▸ hout))

/-! ## Steps of a connection in an exchange

One lemma for each state of an exchange, each by the ways in which its connection may be passed
on. -/

/-- What an event of the kind that a connection is armed for calls for. -/
def interestTask (h : Handle) : Interest → Task
  | .read => .read h
  | .write => .resume h

/-- A client who is there causes no event that would have the connection closed. -/
theorem eventTask_report {k : Kernel} {interest : Interest} (hd : k.streamOf? h.descriptor = some n)
    (hs : k.streams[n]? = some st) (hp : st.Present)
    (hany : (interest.report (k.readiness h.descriptor)).any = true) :
    eventTask h (interest.report (k.readiness h.descriptor)) = interestTask h interest := by
  obtain ⟨hended, habandoned, hbroken⟩ := hp.lively
  have hready : k.readiness h.descriptor = Kernel.streamReadiness st := by
    rw [Kernel.readiness, Kernel.get?_of_streamOf? hd]
    dsimp only
    rw [hs]
  rw [hready] at hany ⊢
  cases interest with
  | read =>
    have hin : st.inbound.isEmpty = false := by
      cases hempty : st.inbound.isEmpty with
      | false => rfl
      | true =>
        simp [Kernel.streamReadiness, Interest.report, Readiness.any, hended, habandoned, hbroken,
          hempty] at hany
    simp [eventTask, interestTask, Kernel.streamReadiness, Interest.report, Readiness.isOver,
      hended, habandoned, hbroken, hin]
  | write =>
    simp [eventTask, interestTask, Kernel.streamReadiness, Interest.report, Readiness.isOver,
      hended, habandoned, hbroken]

/-- A connection that is up in the loop is that of the task at hand. -/
theorem Standing.stage_task {task : Task} (hs : s.Standing h (.loop task) c) :
    ∃ rest, s.stage = .batch rest task := by
  have htask : s.stage.task?.filter (fun task => task.handle? = some h) = some task :=
    congrArg Places.task hs.places
  obtain ⟨hstage, -⟩ := Option.filter_eq_some_iff.mp htask
  cases hcase : s.stage with
  | batch rest task' =>
    rw [hcase] at hstage
    exact ⟨rest, by rw [Option.some.inj hstage]⟩
  | _ => rw [hcase] at hstage; cases hstage

/-- A connection that listens goes on to listen, or hears. As the client is there and its request
is incomplete, an event can only be that more of it has come. -/
theorem Attended.of_listening {u : Bytes} (hworks : s.Works site root)
    (hwhole : ∀ q ∈ requests, Request.IsWhole q) (hserves : s.Serves n h τ c st) (hp : st.Present)
    (ht : Turn requests sent done due part) (hτ : τ.Listens h) (hheard : Heard c.reader u)
    (hwait : (read u).1 = .incomplete) (hpart : u ++ st.inbound = part)
    (hout : st.outbound = transcript site root done) (ha : a.upon n = id)
    (hpassage : Passage a s t h τ c) : Attended site root requests t n sent := by
  -- wherever else the connection is put, it has heard the same bytes
  have hlisten : ∀ {τ' : Holder}, τ'.Listens h → s.hub.kernel.Keeps t.hub.kernel h.descriptor →
      t.Standing h τ' c → Attended site root requests t n sent := fun hτ' hkeeps hstanding =>
    .served (hserves.keep hkeeps hstanding) hp ht (.listening hτ' hheard hwait hpart hout)
  cases hpassage with
  | stay hstanding huntouched =>
    have hserves' := hserves.touch huntouched hstanding
    rw [ha] at hserves'
    exact .served hserves' hp ht (.listening hτ hheard hwait hpart hout)
  | armed harms hstanding hkeeps =>
    cases harms with
    | register => exact hlisten .armed hkeeps hstanding
    | loop interest =>
      cases hτ
      exact hlisten .armed hkeeps hstanding
    | worker interest =>
      cases hτ
      exact hlisten .armed hkeeps hstanding
  | unarmed _ hfails => exact absurd hfails hworks.gentle.not_controlFails
  | fetched hany hstanding hkeeps =>
    cases hτ
    have hevent := eventTask_report hserves.streamOf? hserves.stream hp hany
    exact hlisten (.event hevent) hkeeps hstanding
  | looked hstanding hkeeps =>
    cases hτ with
    | event hevent => exact hlisten .read hkeeps (hevent ▸ hstanding)
  -- everything that has arrived is read, since the request has room in the buffer
  | @read _ c' w more hread hstanding hput =>
    have hroom := ht.room hwhole hpart hwait
    obtain ⟨x, w', hreadAll, hx, hfits, hstream⟩ :=
      Connection.readAll_gentle hheard hroom hserves.wire_stream hp.lively
        (hworks.gentle.wire_reads h.descriptor)
    rw [hreadAll] at hread
    obtain ⟨hmore, hread⟩ := Prod.mk.inj hread
    obtain ⟨rfl, rfl⟩ := Prod.mk.inj hread
    rw [← hmore] at hstanding
    refine .served (hserves.put (.refl ..) hput hstream hstanding) (hp.took x.length) ht
      (.heard .submit (hheard.feed hfits) ?_ hout)
    obtain ⟨left, hleft⟩ := hx
    rw [Stream.took, ← hleft, List.drop_left, List.append_assoc, hleft]
    exact hpart
  | released hstanding hkeeps =>
    cases hτ
    exact hlisten .parsed hkeeps hstanding
  -- the parse found the request incomplete, so the answer is to read on
  | answered hanswer hstanding =>
    cases hτ
    rw [Hub.answer, if_pos rfl] at hanswer
    obtain ⟨hnext, hanswer⟩ := Prod.mk.inj hanswer
    obtain ⟨rfl, hkernel⟩ := Prod.mk.inj hanswer
    rw [← hnext] at hstanding
    exact hlisten .worker (hkernel ▸ .refl ..) hstanding
  | closed hcloses => cases hcloses <;> cases hτ
  | _ => cases hτ

/-- What a connection has heard is parsed: it is a whole request, or the connection listens again.
A whole request is all that the client has sent, since it does not send the next before it is
answered. -/
theorem Attended.of_heard {u : Bytes} (hroom : s.hasRoom = true)
    (hwhole : ∀ q ∈ requests, Request.IsWhole q) (hserves : s.Serves n h τ c st) (hp : st.Present)
    (ht : Turn requests sent done due part) (hτ : τ.Hears h) (hheard : Heard c.reader u)
    (hpart : u ++ st.inbound = part) (hout : st.outbound = transcript site root done)
    (ha : a.upon n = id) (hpassage : Passage a s t h τ c) :
    Attended site root requests t n sent := by
  have hhear : ∀ {τ' : Holder}, τ'.Hears h → s.hub.kernel.Keeps t.hub.kernel h.descriptor →
      t.Standing h τ' c → Attended site root requests t n sent := fun hτ' hkeeps hstanding =>
    .served (hserves.keep hkeeps hstanding) hp ht (.heard hτ' hheard hpart hout)
  cases hpassage with
  | stay hstanding huntouched =>
    have hserves' := hserves.touch huntouched hstanding
    rw [ha] at hserves'
    exact .served hserves' hp ht (.heard hτ hheard hpart hout)
  | armed harms => cases harms <;> cases hτ
  | unarmed harms => cases harms <;> cases hτ
  | looked => cases hτ
  | submitted hstanding hkeeps => exact hhear .queue hkeeps hstanding
  -- the queue has room, as the statement asks
  | turnedAway hfull =>
    obtain ⟨rest, hstage⟩ := hserves.standing.stage_task
    rw [hasRoom, hstage] at hroom
    exact absurd hfull (Nat.not_le_of_lt (of_decide_eq_true hroom))
  | taken hstanding hkeeps => exact hhear .parse hkeeps hstanding
  | @parsed _ c' outcome awaited hparse hstanding hkeeps =>
    have hu : u.length ≤ inputCapacity := by
      have hfits := hheard.framed.fits
      rw [Buffer.Fits, hheard.used, hheard.capacity] at hfits
      exact hfits
    obtain ⟨houtcome, hreader⟩ := Prod.mk.inj hparse
    have hagree := hheard.parse hu
    have hserves' := hserves.keep hkeeps hstanding
    subst houtcome hreader
    rcases ht.outcome hwhole hpart with hwait | ⟨hcomplete, hhead, rfl, hin⟩
    · have hwait' := hagree.outcome.trans hwait
      refine .served hserves' hp ht (.listening ?_ (hheard.advance hwait') hwait hpart hout)
      rw [hwait']
      exact .parsed
    · have hcomplete' := hagree.outcome.trans hcomplete
      rw [hcomplete'] at hserves'
      exact .served hserves' hp ht (.answering hhead hin hagree.target
        (congrArg Request.Fields.keepAlive hagree.fields) hout)
  | closed hcloses => cases hcloses <;> cases hτ
  | _ => cases hτ

/-- **A request that has been parsed is answered as a sequential server would answer it.** The
path is looked up as if nobody else had looked one up, the response is laid out whole, and the
first attempt to send it is as any other. -/
theorem Attended.of_answering {awaited : Option (List String)} (hs : s.Orderly)
    (hworks : s.Works site root) (hsite : site.Addressable) (hsized : t.Sized)
    (hserves : s.Serves n h (.worker (.answer h .complete awaited)) c st) (hp : st.Present)
    (ht : Turn requests sent done due part) (hhead : due.head? = some part) (hin : st.inbound = [])
    (htarget : c.reader.target = (read part).2.target) (hkeep : c.keepAlive = keeps part)
    (hout : st.outbound = transcript site root done) (ha : a.upon n = id)
    (hpassage : Passage a s t h (.worker (.answer h .complete awaited)) c) :
    Attended site root requests t n sent := by
  cases hpassage with
  | stay hstanding huntouched =>
    have hserves' := hserves.touch huntouched hstanding
    rw [ha] at hserves'
    exact .served hserves' hp ht (.answering hhead hin htarget hkeep hout)
  | armed harms => cases harms
  | unarmed harms => cases harms
  | released hstanding hkeeps =>
    exact .served (hserves.keep hkeeps hstanding) hp ht (.answering hhead hin htarget hkeep hout)
  | @answered _ c' next _ hanswer hstanding =>
    have hdescriptor := (Hub.connection?_eq_some.mp hserves.standing.connection).2.2.2
    have hfree := hs.tidy.unregistered s.hub.kernel.nextDescriptor_free
    obtain ⟨hev, hleaves⟩ := Kernel.locate_spec hfree s.hub.root c.reader.target
    have hlocate := hworks.gentle.locate s.hub.root c.reader.target
    rcases hfound : s.hub.kernel.locate s.hub.root c.reader.target with ⟨r, k⟩
    rw [hfound] at hev hleaves hlocate
    -- the answer is that of the sequential server
    have hr : r = answerTo site root part := by
      rw [answerTo, ← htarget, ← hworks.site, ← hworks.root]
      exact hlocate
    have hlength : r.body.length < Decimal.wordLimit := by
      rw [hr]
      exact DocumentRoot.length_locate hsite root _
    have hkeeps := (hleaves h.descriptor).toKeeps
    have hwire : (k.wire h.descriptor).stream = some st :=
      Kernel.wire_stream ((Kernel.streamOf?_congr hkeeps.descriptor).trans hserves.streamOf?)
        ((hkeeps.owned n hserves.owns).2.trans hserves.stream)
    obtain ⟨next', c'', w', bytes, hrespond, hstream, hattempt⟩ :=
      (hworks.sized.connection hserves.standing.connection).respond_gentle hlength hwire
        hp.lively.2.1 ((hworks.gentle.evolves hev).wire_writes h.descriptor)
    rw [Hub.answer, if_neg (by rintro ⟨⟩), Hub.resolve, hfound] at hanswer
    dsimp only at hanswer
    rw [Hub.onWire_eq, hdescriptor, hrespond] at hanswer
    obtain ⟨hnext, hanswer⟩ := Prod.mk.inj hanswer
    obtain ⟨hc', hkernel⟩ := Prod.mk.inj hanswer
    subst hnext hc'
    have hserves' := hserves.put hkeeps hkernel.symm hstream hstanding
    have hreply : (Response.head r c.keepAlive ++ Bytes.ofText r.page) ++ r.file?.getD [] =
        reply site root part := by
      rw [reply, Resolution.body, ← hr, hkeep, List.append_assoc]
    rw [hout] at hattempt
    exact .of_attempt hserves' hsized (hp.wrote bytes) hin ht hhead hkeep hreply hstream hattempt
      (fun hwrite => by rw [hwrite]; exact .worker) (fun hread => by rw [hread]; exact .worker)
      (fun hclose => by rw [hclose]; rfl)
  | closed hcloses => cases hcloses

/-- A response that is on its way goes on until all of it has been accepted. -/
theorem Attended.of_sending {front file : Bytes} (hworks : s.Works site root) (hsized : t.Sized)
    (hserves : s.Serves n h τ c st) (hp : st.Present) (ht : Turn requests sent done due part)
    (hτ : τ.Sends h) (hhead : due.head? = some part) (hin : st.inbound = [])
    (hkeep : c.keepAlive = keeps part) (hreply : front ++ file = reply site root part)
    (hcourse : c.OnCourse front file (transcript site root done) .underway { stream := some st })
    (hincomplete : ¬ c.delivery.plan.isComplete) (ha : a.upon n = id)
    (hpassage : Passage a s t h τ c) : Attended site root requests t n sent := by
  -- wherever else the connection is put, what it still has to send stays the same
  have hsend : ∀ {τ' : Holder}, τ'.Sends h → s.hub.kernel.Keeps t.hub.kernel h.descriptor →
      t.Standing h τ' c → Attended site root requests t n sent := fun hτ' hkeeps hstanding =>
    .served (hserves.keep hkeeps hstanding) hp ht
      (.sending hτ' hhead hin hkeep hreply hcourse hincomplete)
  have hwire := hserves.wire_stream
  have hcourse' : c.OnCourse front file (transcript site root done) .underway
      (s.hub.kernel.wire h.descriptor) := by
    refine hcourse.congr ?_
    rw [Wire.outbound, hwire]
    rfl
  obtain ⟨next', c'', w', bytes, hresume', hstream, hattempt⟩ :=
    hcourse'.resume_gentle hwire hp.lively.2.1 (hworks.gentle.wire_writes h.descriptor)
  cases hpassage with
  | stay hstanding huntouched =>
    have hserves' := hserves.touch huntouched hstanding
    rw [ha] at hserves'
    exact .served hserves' hp ht (.sending hτ hhead hin hkeep hreply hcourse hincomplete)
  -- it waits for room in the socket, so it is not a newcomer being registered
  | armed harms hstanding hkeeps =>
    cases harms with
    | register => cases hτ
    | loop interest =>
      cases hτ
      exact hsend .armed hkeeps hstanding
    | worker interest =>
      cases hτ
      exact hsend .armed hkeeps hstanding
  | unarmed _ hfails => exact absurd hfails hworks.gentle.not_controlFails
  | fetched hany hstanding hkeeps =>
    cases hτ
    have hevent := eventTask_report hserves.streamOf? hserves.stream hp hany
    exact hsend (.event hevent) hkeeps hstanding
  | looked hstanding hkeeps =>
    cases hτ with
    | event hevent => exact hsend .resume hkeeps (hevent ▸ hstanding)
  -- some of the rest has gone out, and the loop arms it for what the attempt asks for
  | @resumed _ c' w next interest hresume hinterest hstanding hput =>
    rw [hresume'] at hresume
    obtain ⟨hnext, hresume⟩ := Prod.mk.inj hresume
    obtain ⟨hc', hw⟩ := Prod.mk.inj hresume
    subst hnext hc' hw
    have hserves' := hserves.put (.refl ..) hput hstream hstanding
    refine .of_attempt hserves' hsized (hp.wrote bytes) hin ht hhead hkeep hreply hstream hattempt
      (fun hwrite => ?_) (fun hread => ?_) (fun hclose => ?_)
    · rw [hwrite] at hinterest
      obtain rfl := Option.some.inj hinterest
      exact .loop
    · rw [hread] at hinterest
      obtain rfl := Option.some.inj hinterest
      exact .loop
    · rw [hclose] at hinterest
      cases hinterest
  -- the last of it has gone out, and the client did not ask to keep the connection
  | @ended _ c' w hresume hvacant hdiscard =>
    rw [hresume'] at hresume
    obtain ⟨hnext, hresume⟩ := Prod.mk.inj hresume
    obtain ⟨hc', hw⟩ := Prod.mk.inj hresume
    subst hnext hc' hw
    obtain ⟨howns, hput⟩ := hserves.owns.putWire hserves.streamOf? hstream
    have hstream' : (s.hub.kernel.putWire h.descriptor w').streamOf? h.descriptor = some n := by
      rw [(Kernel.putWire_spec ..).1.streamOf?]
      exact hserves.streamOf?
    obtain ⟨hloose, hdropped⟩ := howns.discard hstream' hput
    rw [← hdiscard] at hloose hdropped
    cases hattempt with
    | last hkeep' hout =>
      exact .gone hloose hdropped rfl (ht.last hhead (hkeep ▸ hkeep') (hreply ▸ hout))
  | closed hcloses => cases hcloses <;> cases hτ
  | _ => cases hτ

/-- A connection that has sent its last response is closed, and then its stream belongs to
nobody. -/
theorem Attended.of_finished (hserves : s.Serves n h (.worker (.close h)) c st)
    (hlast : Reference.Last site root requests st.outbound) (ha : a.upon n = id)
    (hpassage : Passage a s t h (.worker (.close h)) c) : Attended site root requests t n sent := by
  cases hpassage with
  | stay hstanding huntouched =>
    have hserves' := hserves.touch huntouched hstanding
    rw [ha] at hserves'
    exact .finished hserves' hlast
  | armed harms => cases harms
  | unarmed harms => cases harms
  | closed _ _ hdiscard =>
    obtain ⟨hloose, hdropped⟩ := hserves.owns.discard hserves.streamOf? hserves.stream
    rw [← hdiscard] at hloose hdropped
    exact .gone hloose hdropped rfl hlast

end Server

end FileServer
