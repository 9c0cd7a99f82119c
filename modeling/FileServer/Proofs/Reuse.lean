import FileServer.Proofs.Request.Hearing
import FileServer.Proofs.Server.Slots

/-!
# Reuse leaks nothing

A connection that starts afresh keeps the memory of its buffers, and so does a slot that is given to
the next client. What was read and sent before is still there, but no operation ever sees it: from
then on the connection does, answers and shows exactly what a new one would
(`Connection.reuse_leaks_nothing`).

Two connections are `Connection.Alike` if they differ only in memory that nobody looks at. For the
input that is what lies behind the bytes in use; for the head of a response it is what lies behind
both the bytes in use and the end of the plan, as a plan may outlive the head that it was made for.
Each operation takes connections that are alike to connections that are alike, with the same result
and the same effect on the kernel (`Lockstep`), and by induction so does every sequence of them.

The relation is built up as the connection is: of the buffers, of the reader, of a delivery, and of
the connection itself, with one lemma for each function at each level. Readers need one thing more,
that the texts found so far are among the bytes in use (`Reader.Framed`), as otherwise a text could
be one that the two do not share; every operation keeps that, too (`Connection.Sized`).
-/

namespace FileServer

/-- Two outcomes of one operation: the same result, related states, and the same surroundings.
Whoever looks at the result, or at what happened to the kernel, cannot tell which of the two it
was. -/
structure Lockstep {α β κ : Type} (R : β → β → Prop) (x y : α × β × κ) : Prop where
  result : y.1 = x.1
  state : R x.2.1 y.2.1
  around : y.2.2 = x.2.2

/-! ## Buffers

Two buffers that agree on what may be looked at. -/

namespace Buffer

variable {b b' : Buffer} {m n : Nat} {x : Bytes}

/-- Buffers of one size with as many bytes in use, whose first `n` bytes are the same. -/
structure Alike (b : Buffer) (n : Nat) (b' : Buffer) : Prop where
  used : b'.used = b.used
  capacity : b'.capacity = b.capacity
  memory : b'.memory.take n = b.memory.take n

namespace Alike

theorem mono (h : b.Alike n b') (hm : m ≤ n) : b.Alike m b' := by
  refine ⟨h.used, h.capacity, ?_⟩
  have hmem := congrArg (List.take m) h.memory
  rwa [List.take_take, List.take_take, Nat.min_eq_left hm] at hmem

theorem room (h : b.Alike n b') : b'.room = b.room := by
  rw [Buffer.room, h.capacity, h.used, Buffer.room]

/-- A window that ends in the common part shows the same bytes. -/
theorem slice (h : b.Alike n b') {w : Window} (hw : w.stop ≤ n) : b'.slice w = b.slice w :=
  slice_congr h.memory hw

theorem content (h : b.Alike n b') (hn : b.used ≤ n) : b'.content = b.content := by
  rw [Buffer.content, h.used, (h.mono hn).memory, Buffer.content]

theorem clear (h : b.Alike n b') : b.clear.Alike 0 b'.clear := ⟨rfl, h.capacity, rfl⟩

/-- What is added to both is common to both. -/
theorem append (h : b.Alike b.used b') (hx : b.used + x.length ≤ b.capacity) :
    (b.append x).Alike (b.append x).used (b'.append x) := by
  have hx' : b'.used + x.length ≤ b'.capacity := by rw [h.used, h.capacity]; exact hx
  refine ⟨?_, ?_, ?_⟩
  · rw [used_append, used_append, h.used]
  · rw [capacity_append hx, capacity_append hx', h.capacity]
  · have hfits : b.Fits := Nat.le_trans (Nat.le_add_right ..) hx
    have hfits' : b'.Fits := Nat.le_trans (Nat.le_add_right ..) hx'
    have hcontent := hfits'.content_append x
    rw [h.content (Nat.le_refl _), ← hfits.content_append, Buffer.content, used_append,
      h.used] at hcontent
    exact hcontent

/-- There is room for some bytes in both, or in neither. -/
theorem append? (h : b.Alike b.used b') (hb : b.Fits) (x : Bytes) :
    Option.Rel (fun b b' => b.Fits ∧ b.Alike b.used b') (b.append? x) (b'.append? x) := by
  rw [Buffer.append?, Buffer.append?, h.room]
  split
  · next hroom =>
    have hx : b.used + x.length ≤ b.capacity := by
      rw [Buffer.room] at hroom
      rw [Fits] at hb
      omega
    exact .some ⟨fits_append hx, h.append hx⟩
  · exact .none

/-- One buffer is the other with other memory behind the bytes in use. -/
theorem eq_backed (h : b.Alike b.used b') : b' = b.backed (b'.memory.drop b.used) := by
  have hmem : b'.memory = b.content ++ b'.memory.drop b.used := by
    rw [Buffer.content, ← h.memory, List.take_append_drop]
  exact congrArg₂ Buffer.mk hmem h.used

end Alike

theorem Fits.capacity_backed (hb : b.Fits) (rest : Bytes) :
    (b.backed rest).capacity = b.used + rest.length := by
  rw [capacity, backed, List.length_append, hb.length_content]

theorem Fits.alike_backed (hb : b.Fits) {rest : Bytes} (h : (b.backed rest).capacity = b.capacity) :
    b.Alike b.used (b.backed rest) := ⟨rfl, h, hb.content_backed rest⟩

end Buffer

/-! ## Readers

A reader looks at the bytes in use, and its texts are among them. -/

namespace Request.Reader

variable {r r' : Reader} {x : Bytes}

/-- The readers differ only in the memory behind the bytes in use. -/
structure Alike (r r' : Reader) : Prop where
  same : r' = r.withInput r'.input
  input : r.input.Alike r.input.used r'.input

namespace Alike

/-- One reader is the other with other memory behind the bytes in use, which is how the lemmas on
single readers apply to two of them. -/
theorem eq_backed (h : r.Alike r') : ∃ rest, r' = r.backed rest :=
  ⟨_, h.same.trans (congrArg r.withInput h.input.eq_backed)⟩

/-- Readers that start afresh are alike whatever they have read, if their buffers have the same
size. -/
theorem reset (h : r'.input.capacity = r.input.capacity) : r.reset.Alike r'.reset :=
  ⟨rfl, rfl, h, rfl⟩

theorem feed (h : r.Alike r') (hx : r.input.used + x.length ≤ r.input.capacity) :
    (r.feed x).Alike (r'.feed x) := by
  refine ⟨?_, h.input.append hx⟩
  rw [h.same]
  rfl

theorem textAt (h : r.Alike r') {w : Window} (hw : w.stop ≤ r.input.used) :
    r'.textAt w = r.textAt w := by
  rw [Reader.textAt, h.input.slice hw, Reader.textAt]

theorem fields (h : r.Alike r') : r'.fields = r.fields := by
  rw [h.same]
  rfl

theorem phase (h : r.Alike r') : r'.phase = r.phase := by
  rw [h.same]
  rfl

/-- The texts that have been found are the same. -/
theorem texts (h : r.Alike r') (hr : r.Framed) :
    r'.target = r.target ∧ r'.version = r.version ∧ r'.host = r.host := by
  rw [target, version, host, h.fields]
  exact ⟨h.textAt hr.target_le, h.textAt hr.version_le, h.textAt hr.host_le⟩

/-- Two readers that are alike fill up alike: a read is told how much room there is, and nothing
else. The induction follows the loop of reads. -/
theorem fill (h : r.Alike r') (hr : r.Framed) (w : Wire) :
    Lockstep Alike (r.fill w) (r'.fill w) := by
  -- both buffers hold as much, so both are full or neither
  have hroom' : ∀ {r r' : Reader}, r.Alike r' → ¬ r.input.capacity ≤ r.input.used →
      ¬ r'.input.capacity ≤ r'.input.used := fun h hroom => by
    rw [h.input.capacity, h.input.used]
    exact hroom
  fun_induction Reader.fill r w generalizing r' with
  | case1 r w hfull =>
    have hfull' : r'.input.capacity ≤ r'.input.used := by
      rw [h.input.capacity, h.input.used]
      exact hfull
    rw [Reader.fill, dif_pos hfull']
    exact ⟨rfl, h, rfl⟩
  | case2 r w hroom w' hread =>
    rw [Reader.fill, dif_neg (hroom' h hroom), h.input.room, hread]
    exact ⟨rfl, h, rfl⟩
  | case3 r w hroom b bytes w' hread ih =>
    have hgiven := w.read_given r.input.room
    rw [hread] at hgiven
    have hfits : r.input.used + (b :: bytes).length ≤ r.input.capacity := by
      have hlength := hgiven.1
      rw [Buffer.room] at hlength
      omega
    rw [Reader.fill.eq_def r', dif_neg (hroom' h hroom), h.input.room, hread]
    exact ih (h.feed hfits) (hr.feed hfits)
  | case4 r w hroom w' hread =>
    rw [Reader.fill, dif_neg (hroom' h hroom), h.input.room, hread]
    exact ⟨rfl, h, rfl⟩
  | case5 r w hroom reason w' hread =>
    rw [Reader.fill, dif_neg (hroom' h hroom), h.input.room, hread]
    exact ⟨rfl, h, rfl⟩

/-- Two readers that are alike read on alike, as neither looks behind the bytes in use. -/
theorem advance (h : r.Alike r') (hr : r.Framed) :
    r'.advance.1 = r.advance.1 ∧ r.advance.2.Alike r'.advance.2 := by
  obtain ⟨rest, rfl⟩ := h.eq_backed
  obtain ⟨hframed, hroom⟩ := hr.advance
  have hcapacity : (r.input.backed rest).capacity = r.input.capacity := h.input.capacity
  rw [hr.advance_backed]
  refine ⟨rfl, rfl, hframed.fits.alike_backed ?_⟩
  rw [hframed.fits.capacity_backed, hroom.used, ← hr.fits.capacity_backed, hcapacity,
    hroom.capacity]

end Alike

end Request.Reader

/-! ## Deliveries

A delivery looks at what its plan says is in the head, and at the file that it holds. -/

namespace Delivery

variable {d d' : Delivery} {n : Nat}

/-- The deliveries differ only in memory that neither the bytes in use nor the plan reach. -/
structure Alike (d d' : Delivery) : Prop where
  plan : d'.plan = d.plan
  file : d'.file = d.file
  head : d.head.Alike (max d.head.used d.plan.headStop) d'.head

namespace Alike

/-- The part of the head that is left is the same, as the plan reaches no further than they
agree. -/
theorem headRest (h : d.Alike d') : d'.headRest = d.headRest := by
  rw [Delivery.headRest, h.plan, h.head.slice (Nat.le_max_right ..), Delivery.headRest]

theorem fileRest (h : d.Alike d') : d'.fileRest = d.fileRest := by
  rw [Delivery.fileRest, h.plan, h.file, Delivery.fileRest]

theorem content (h : d.Alike d') : d'.head.content = d.head.content :=
  h.head.content (Nat.le_max_left ..)

theorem reset (h : d'.head.capacity = d.head.capacity) : d.reset.Alike d'.reset :=
  ⟨rfl, rfl, rfl, h, rfl⟩

theorem release (h : d.Alike d') : d.release.Alike d'.release := ⟨h.plan, rfl, h.head⟩

/-- Deliveries count the same bytes as sent, and their plans reach no further than before. -/
theorem advance (h : d.Alike d') (n : Nat) : (d.advance n).Alike (d'.advance n) := by
  have hstop : (d.plan.advance n).headStop = d.plan.headStop := by
    simp only [Plan.advance]
    split <;> rfl
  refine ⟨congrArg (Plan.advance · n) h.plan, h.file, ?_⟩
  have hhead := h.head
  rw [← hstop] at hhead
  exact hhead

/-- The head goes, and the plan stays. -/
theorem clear (h : d.Alike d') :
    Alike { d with head := d.head.clear } { d' with head := d'.head.clear } :=
  ⟨h.plan, h.file, rfl, h.head.capacity, (h.head.mono (by
    rw [Buffer.used_clear, Nat.zero_max]
    exact Nat.le_max_right ..)).memory⟩

/-- Two deliveries that are alike are sent alike: a write is offered the same bytes, so it accepts
as many of them. The induction follows the loop of writes. -/
theorem send (h : d.Alike d') (w : Wire) : Lockstep Alike (d.send w) (d'.send w) := by
  fun_induction Delivery.send d w generalizing d' with
  | case1 d w hc =>
    rw [Delivery.send, dif_pos (by rw [h.plan]; exact hc)]
    exact ⟨rfl, h.release, rfl⟩
  | case2 d w hc w' hw =>
    rw [Delivery.send, dif_neg (by rw [h.plan]; exact hc), h.headRest, h.fileRest, hw]
    exact ⟨rfl, h, rfl⟩
  | case3 d w hc n w' hw ih =>
    rw [Delivery.send.eq_def d', dif_neg (by rw [h.plan]; exact hc), h.headRest, h.fileRest, hw]
    exact ih (h.advance (n + 1))
  | case4 d w hc w' hw =>
    rw [Delivery.send, dif_neg (by rw [h.plan]; exact hc), h.headRest, h.fileRest, hw]
    exact ⟨rfl, h, rfl⟩
  | case5 d w hc reason w' hw =>
    rw [Delivery.send, dif_neg (by rw [h.plan]; exact hc), h.headRest, h.fileRest, hw]
    exact ⟨rfl, h.release, rfl⟩

/-- A response is laid out alike, or in neither. -/
theorem lay? (h : d.Alike d') (r : Resolution) (keepAlive : Bool) :
    Option.Rel Alike (d.lay? r keepAlive) (d'.lay? r keepAlive) := by
  have hfirst := h.head.clear.append? (Buffer.fits_clear _) (Response.head r keepAlive)
  rw [Delivery.lay?, Delivery.lay?]
  generalize d.head.clear.append? _ = o at hfirst ⊢
  generalize d'.head.clear.append? _ = o' at hfirst ⊢
  cases hfirst with
  | none => exact .none
  | @some b b' hboth =>
    obtain ⟨hfits, hb⟩ := hboth
    have hsecond := hb.append? hfits (.ofText r.page)
    simp only [Option.bind_eq_bind, Option.bind_some]
    generalize b.append? _ = o at hsecond ⊢
    generalize b'.append? _ = o' at hsecond ⊢
    cases hsecond with
    | none => exact .none
    | @some e e' hboth =>
      obtain ⟨-, he⟩ := hboth
      refine .some ⟨?_, rfl, ?_⟩
      · dsimp only
        rw [he.used]
      · dsimp only [Plan.ofLengths]
        rw [Nat.max_self]
        exact he

end Alike

end Delivery

/-! ## Connections

From readers and deliveries to connections, and from there to what the hub does with them. -/

namespace Connection

variable {c c' : Connection}

/-- The connections differ only in memory that nobody looks at. Everything else, the descriptor
among it, is the same. -/
structure Alike (c c' : Connection) : Prop where
  descriptor : c'.descriptor = c.descriptor
  peer : c'.peer = c.peer
  reader : c.reader.Alike c'.reader
  delivery : c.delivery.Alike c'.delivery

/-- Lays out a response, and does not send it yet. The result is `false` if its head does not
fit. -/
def layOut (c : Connection) (r : Resolution) : Bool × Connection :=
  match c.delivery.lay? r c.keepAlive with
  | none => (false, { c with delivery :=
    { c.delivery with head := c.delivery.head.clear }.release })
  | some delivery => (true, { c with delivery })

/-- To respond is to lay out a response and to make a first attempt to send it. -/
theorem respond_eq (c : Connection) (r : Resolution) (w : Wire) :
    c.respond r w =
      if (c.layOut r).1 then (c.layOut r).2.resume w else (.close, (c.layOut r).2, w) := by
  rw [respond, layOut]
  cases c.delivery.lay? r c.keepAlive with
  | none => rfl
  | some d => rfl

namespace Alike

theorem keepAlive (h : c.Alike c') : c'.keepAlive = c.keepAlive := by
  rw [Connection.keepAlive, h.reader.fields, Connection.keepAlive]

theorem isOpen (h : c.Alike c') : c'.isOpen = c.isOpen := by
  rw [Connection.isOpen, h.descriptor, Connection.isOpen]

/-- With buffers of the same sizes, all that differs after a fresh start is memory. -/
theorem start (hinput : c'.reader.input.capacity = c.reader.input.capacity)
    (hhead : c'.delivery.head.capacity = c.delivery.head.capacity) (descriptor : Int)
    (peer : Option SocketAddress) : (c.start descriptor peer).Alike (c'.start descriptor peer) :=
  ⟨rfl, rfl, .reset hinput, .reset hhead⟩

/-- A reset takes connections that are alike to connections that are alike, and forgets what was
read. -/
theorem reset (h : c.Alike c') : c.reset.Alike c'.reset :=
  ⟨h.descriptor, h.peer, .reset h.reader.input.capacity, .reset h.delivery.head.capacity⟩

theorem release (h : c.Alike c') : c.release.Alike c'.release :=
  ⟨rfl, rfl, h.reader, h.delivery.release⟩

theorem deliver (h : c.Alike c') {d d' : Delivery} (hd : d.Alike d') :
    ({ c with delivery := d } : Connection).Alike { c' with delivery := d' } :=
  ⟨h.descriptor, h.peer, h.reader, hd⟩

/-- Connections read alike: the same bytes come from the kernel, and as many of them. -/
theorem readAll (h : c.Alike c') (hc : c.Sized) (w : Wire) :
    Lockstep Alike (c.readAll w) (c'.readAll w) := by
  have hfill := h.reader.fill hc.framed w
  rw [Connection.readAll, Connection.readAll, h.reader.input.capacity, h.reader.input.used]
  split
  · exact ⟨rfl, h, rfl⟩
  · exact ⟨hfill.result, ⟨h.descriptor, h.peer, hfill.state, h.delivery⟩, hfill.around⟩

theorem parse (h : c.Alike c') (hc : c.Sized) :
    c'.parse.1 = c.parse.1 ∧ c.parse.2.Alike c'.parse.2 := by
  obtain ⟨houtcome, hreader⟩ := h.reader.advance hc.framed
  exact ⟨houtcome, h.descriptor, h.peer, hreader, h.delivery⟩

/-- A response is laid out in both connections, or fits in neither. -/
theorem layOut (h : c.Alike c') (r : Resolution) :
    (c'.layOut r).1 = (c.layOut r).1 ∧ (c.layOut r).2.Alike (c'.layOut r).2 := by
  have hlay := h.delivery.lay? r c.keepAlive
  rw [Connection.layOut, Connection.layOut, h.keepAlive]
  generalize c.delivery.lay? r c.keepAlive = o at hlay ⊢
  generalize c'.delivery.lay? r c.keepAlive = o' at hlay ⊢
  cases hlay with
  | none => exact ⟨rfl, h.deliver h.delivery.clear.release⟩
  | some hd => exact ⟨rfl, h.deliver hd⟩

/-- Two connections that are alike send alike, and what becomes of them then is decided by the
same result. -/
theorem send (h : c.Alike c') (w : Wire) : Lockstep Alike (c.send w) (c'.send w) := by
  have hsend := h.delivery.send w
  rw [Connection.send, Connection.send]
  generalize c.delivery.send w = x at hsend ⊢
  generalize c'.delivery.send w = x' at hsend ⊢
  obtain ⟨status, d, w₁⟩ := x
  obtain ⟨status', d', w₁'⟩ := x'
  obtain ⟨hstatus, hd, hw⟩ := hsend
  dsimp only at hstatus hd hw
  subst hstatus hw
  have hsent := h.deliver hd
  cases status' with
  | complete =>
    dsimp only
    rw [hsent.keepAlive]
    split
    · exact ⟨rfl, hsent.reset, rfl⟩
    · exact ⟨rfl, hsent, rfl⟩
  | pending => exact ⟨rfl, hsent, rfl⟩
  | failed reason => exact ⟨rfl, hsent, rfl⟩

theorem resume (h : c.Alike c') (w : Wire) : Lockstep Alike (c.resume w) (c'.resume w) := by
  obtain ⟨hresult, hstate, haround⟩ := h.send w
  exact ⟨congrArg afterSend hresult, hstate, haround⟩

/-- Responding is laying out and resuming, and each of the two is done alike. -/
theorem respond (h : c.Alike c') (r : Resolution) (w : Wire) :
    Lockstep Alike (c.respond r w) (c'.respond r w) := by
  obtain ⟨hlaid, hstate⟩ := h.layOut r
  rw [respond_eq, respond_eq, hlaid]
  split
  · exact hstate.resume w
  · exact ⟨rfl, hstate, rfl⟩

end Alike

end Connection

namespace Hub

variable {α : Type} {c c' : Connection}

/-- What is done alike on every wire is done alike through the descriptor. -/
theorem lockstep_onWire {f : Connection → Wire → α × Connection × Wire} (h : c.Alike c')
    (k : Kernel)
    (hf : ∀ w, Lockstep Connection.Alike (f c w) (f c' w)) :
    Lockstep Connection.Alike (onWire f c k) (onWire f c' k) := by
  obtain ⟨hresult, hstate, haround⟩ := hf (k.wire c.descriptor)
  rw [onWire_eq, onWire_eq, h.descriptor]
  exact ⟨hresult, hstate, congrArg (k.putWire c.descriptor) haround⟩

/-- Two connections that are alike are answered alike: the same path is looked up, with the same
effect on the kernel. -/
theorem lockstep_answer (h : c.Alike c') (hc : c.Sized) (root : String) (outcome : Request.Outcome)
    (k : Kernel) :
    Lockstep Connection.Alike (answer root outcome c k) (answer root outcome c' k) := by
  have hresolve : resolve root outcome c' k = resolve root outcome c k := by
    cases outcome with
    | complete => rw [resolve, resolve, (h.reader.texts hc.framed).1]
    | incomplete => rfl
    | malformed => rfl
  rw [answer, answer, hresolve]
  split
  · exact ⟨rfl, h, rfl⟩
  · exact lockstep_onWire h _ fun w => h.respond _ w

/-- **An event is handled alike**: the connection is read, parsed and answered. -/
theorem lockstep_process (h : c.Alike c') (hc : c.Sized) (root : String) (k : Kernel) :
    Lockstep Connection.Alike (process root c k) (process root c' k) := by
  obtain ⟨houtcome, hstate⟩ := h.parse hc
  rw [process, process]
  dsimp only
  rw [houtcome]
  exact lockstep_answer hstate hc.parse root _ k

end Hub

/-! ## Sequences of operations

What a sequence of operations returns, what can be seen of the connection after each of them, and
what it does to the kernel are compared as a whole. -/

namespace Connection

/-- Something that is done to a connection, or meanwhile to the kernel: by clients, to the scripts,
to the site. -/
inductive Operation
  | start (descriptor : Int) (peer : Option SocketAddress)
  | reset
  | readAll
  | parse
  | layOut (r : Resolution)
  | send
  | resume
  | process (root : String)
  | close
  | meanwhile (change : Kernel → Kernel)

/-- What an operation returns. -/
inductive Report
  | done
  | read (more : Bool)
  | parsed (outcome : Request.Outcome)
  | laidOut (fits : Bool)
  | sent (result : Except ServerError Sent)
  | next (next : Next)

/-- All that can be asked of a connection. -/
structure View where
  descriptor : Int
  isOpen : Bool
  peer : Option SocketAddress
  phase : Request.Phase
  method : Request.Method
  target : String
  version : String
  host : String
  contentLength : Nat
  keepAlive : Bool
  /-- the head of the response, as far as it has been laid out -/
  head : Bytes
  /-- whether there is a file to be sent -/
  hasFile : Bool
  plan : Plan

/-- What can be seen of a connection. -/
def view (c : Connection) : View where
  descriptor := c.descriptor
  isOpen := c.isOpen
  peer := c.peer
  phase := c.reader.phase
  method := c.reader.fields.method
  target := c.reader.target
  version := c.reader.version
  host := c.reader.host
  contentLength := c.reader.fields.contentLength
  keepAlive := c.keepAlive
  head := c.delivery.head.content
  hasFile := c.delivery.file.isSome
  plan := c.delivery.plan

/-- Does one operation. -/
def Operation.perform (c : Connection) (k : Kernel) : Operation → Report × Connection × Kernel
  | start descriptor peer => (.done, c.start descriptor peer, k)
  | reset => (.done, c.reset, k)
  | readAll =>
    let (more, c, k) := Hub.onWire Connection.readAll c k
    (.read more, c, k)
  | parse =>
    let (outcome, c) := c.parse
    (.parsed outcome, c, k)
  | layOut r =>
    let (fits, c) := c.layOut r
    (.laidOut fits, c, k)
  | send =>
    let (result, c, k) := Hub.onWire Connection.send c k
    (.sent result, c, k)
  | resume =>
    let (next, c, k) := Hub.onWire Connection.resume c k
    (.next next, c, k)
  | process root =>
    let (next, c, k) := Hub.process root c k
    (.next next, c, k)
  | close => if c.isOpen then (.done, c.release, k.discard c.descriptor) else (.done, c, k)
  | meanwhile change => (.done, c, change k)

/-- The connection and the kernel after some operations. -/
def after (c : Connection) (k : Kernel) (operations : List Operation) : Connection × Kernel :=
  operations.foldl (fun s op => (op.perform s.1 s.2).2) (c, k)

/-- All that some operations let see: after each of them what it has returned, what can be seen of
the connection, and the kernel, with all that has been written to every client. -/
def record (c : Connection) (k : Kernel) : List Operation → List (Report × View × Kernel)
  | [] => []
  | op :: rest =>
    let (report, c, k) := op.perform c k
    (report, c.view, k) :: record c k rest

/-- Connections that look the same, and go on looking the same whatever is done to them. -/
structure Indistinguishable (c c' : Connection) : Prop where
  view : c'.view = c.view
  record : ∀ k operations, c'.record k operations = c.record k operations

variable {c c' : Connection}

/-- What can be seen of connections that are alike is the same. -/
theorem Alike.view (h : c.Alike c') (hc : c.Sized) : c'.view = c.view := by
  obtain ⟨htarget, hversion, hhost⟩ := h.reader.texts hc.framed
  simp only [Connection.view, h.isOpen, h.descriptor, h.peer, h.reader.phase,
    h.reader.fields, htarget,
    hversion, hhost, h.keepAlive, h.delivery.content, h.delivery.file, h.delivery.plan]

/-- **One operation does the same to connections that are alike**: it returns the same, leaves them
alike, and has the same effect on the kernel. -/
theorem Alike.perform (h : c.Alike c') (hc : c.Sized) (k : Kernel) (op : Operation) :
    Lockstep Alike (op.perform c k) (op.perform c' k) := by
  cases op with
  | start descriptor peer =>
    exact ⟨rfl, .start h.reader.input.capacity h.delivery.head.capacity descriptor peer, rfl⟩
  | reset => exact ⟨rfl, h.reset, rfl⟩
  | readAll =>
    obtain ⟨hresult, hstate, haround⟩ := Hub.lockstep_onWire h k (h.readAll hc)
    exact ⟨congrArg Report.read hresult, hstate, haround⟩
  | parse =>
    obtain ⟨houtcome, hstate⟩ := h.parse hc
    exact ⟨congrArg Report.parsed houtcome, hstate, rfl⟩
  | layOut r =>
    obtain ⟨hfits, hstate⟩ := h.layOut r
    exact ⟨congrArg Report.laidOut hfits, hstate, rfl⟩
  | send =>
    obtain ⟨hresult, hstate, haround⟩ := Hub.lockstep_onWire h k h.send
    exact ⟨congrArg Report.sent hresult, hstate, haround⟩
  | resume =>
    obtain ⟨hresult, hstate, haround⟩ := Hub.lockstep_onWire h k h.resume
    exact ⟨congrArg Report.next hresult, hstate, haround⟩
  | process root =>
    obtain ⟨hresult, hstate, haround⟩ := Hub.lockstep_process h hc root k
    exact ⟨congrArg Report.next hresult, hstate, haround⟩
  | close =>
    simp only [Operation.perform, h.isOpen, h.descriptor]
    by_cases hopen : c.isOpen = true
    · rw [if_pos hopen, if_pos hopen]
      exact ⟨rfl, h.release, rfl⟩
    · rw [if_neg hopen, if_neg hopen]
      exact ⟨rfl, h, rfl⟩
  | meanwhile change => exact ⟨rfl, h, rfl⟩

/-- Laying out a response changes no buffer's size. -/
theorem Sized.layOut (hc : c.Sized) (r : Resolution) : (c.layOut r).2.Sized := by
  rw [Connection.layOut]
  split
  · exact hc.deliver rfl
  · next d hlay => exact hc.deliver ((Delivery.fits_lay? hlay).2)

/-- Every operation keeps the sizes of the buffers. -/
theorem Sized.perform (hc : c.Sized) (k : Kernel) (op : Operation) :
    (op.perform c k).2.1.Sized := by
  cases op with
  | start descriptor peer => exact hc.start descriptor peer
  | reset => exact hc.reset
  | readAll => exact hc.readAll _
  | parse => exact hc.parse
  | layOut r => exact hc.layOut r
  | send => exact hc.resume _
  | resume => exact hc.resume _
  | process root => exact Hub.sized_answer root _ _ k hc.parse
  | close =>
    simp only [Operation.perform]
    split
    · exact hc.release
    · exact hc
  | meanwhile change => exact hc

/-- Any number of operations keep the sizes of the buffers, by induction on them. -/
theorem Sized.after (hc : c.Sized) (k : Kernel) (operations : List Operation) :
    (c.after k operations).1.Sized := by
  induction operations generalizing c k with
  | nil => exact hc
  | cons op rest ih => exact ih (hc.perform k op) _

/-- What cannot be seen now is never seen. The induction is on the operations that are to come. -/
theorem Alike.indistinguishable (h : c.Alike c') (hc : c.Sized) : c.Indistinguishable c' := by
  refine ⟨h.view hc, fun k operations => ?_⟩
  induction operations generalizing c c' k with
  | nil => rfl
  | cons op rest ih =>
    obtain ⟨hresult, hstate, haround⟩ := h.perform hc k op
    have hc₁ := hc.perform k op
    rw [record, record]
    dsimp only
    rw [hresult, hstate.view hc₁, haround, ih hstate hc₁]

/-- A used connection that starts afresh cannot be told from a new one. -/
theorem Sized.start_indistinguishable (hc : c.Sized) (descriptor : Int)
    (peer : Option SocketAddress) :
    Indistinguishable (({} : Connection).start descriptor peer) (c.start descriptor peer) :=
  (Alike.start (hc.input.trans sized_new.input.symm) (hc.head.trans sized_new.head.symm)
    descriptor peer).indistinguishable (sized_new.start descriptor peer)

/-- **Reuse leaks nothing**: whatever has been done to a connection, once it starts afresh, on the
same descriptor or on another, it cannot be told from a new one. -/
theorem reuse_leaks_nothing (k : Kernel) (history : List Operation) :
    Indistinguishable (({} : Connection).start (({} : Connection).after k history).1.descriptor
        (({} : Connection).after k history).1.peer) (({} : Connection).after k history).1.reset ∧
      ∀ descriptor peer, Indistinguishable (({} : Connection).start descriptor peer)
        ((({} : Connection).after k history).1.start descriptor peer) := by
  have hused := sized_new.after k history
  exact ⟨hused.start_indistinguishable _ _, hused.start_indistinguishable⟩

/-- What was read is still there. -/
example : ((({} : Connection).after
    { descriptors := .set {} 7 (.stream 0), streams := [{ inbound := [65] }] }
    [.start 7 none, .readAll]).1.reset.reader.input.memory)[0]? = some 65 := by
  decide +kernel

end Connection

/-- The client that is given a slot meets a connection that cannot be told from a new one, whoever
had the slot before. -/
theorem Server.slot_indistinguishable {k : Kernel} {listener : Int} {config : Config}
    {start s : Server} (hstart : ofListener k listener config = .ok start) (hs : Reachable start s)
    (descriptor : Int) (peer : Option SocketAddress) :
    Connection.Indistinguishable (({} : Connection).start descriptor peer)
      (((s.hub.slots.get? descriptor).getD {}).start descriptor peer) :=
  ((sized_reachable (sized_ofListener hstart) hs).slot descriptor).start_indistinguishable _ _

end FileServer
