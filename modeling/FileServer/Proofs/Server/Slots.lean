import FileServer.Proofs.Server.Table

/-!
# The buffers of a slot

A slot keeps its buffers from one connection to the next. Whatever is done to the connections of a
server, the buffers keep their sizes, and a reader's cursors stay where there are bytes
(`Server.sized_reachable`).

What a visit does is enough for this: that it keeps a connection sized is one lemma for each of
reading, parsing, answering and resuming, and besides visiting a step can only open, close, or leave
the slots alone (`Server.TableStep`).
-/

namespace FileServer

/-! ## Readers -/

theorem Request.Reader.framed_new : ({} : Request.Reader).Framed :=
  ⟨⟨Nat.le_refl _, Nat.le_refl _, Nat.zero_le _⟩, Nat.le_refl _, Nat.le_refl _, Nat.le_refl _⟩

/-- Filling the buffer writes behind the bytes in use, and not over its end. -/
theorem Request.Reader.Framed.fill {r : Reader} (hr : r.Framed) (w : Wire) :
    (r.fill w).2.1.Framed ∧ (r.fill w).2.1.input.capacity = r.input.capacity := by
  fun_induction Reader.fill r w with
  | case1 => exact ⟨hr, rfl⟩
  | case2 => exact ⟨hr, rfl⟩
  | case3 r w hroom b bytes w' hread ih =>
    have hgiven := w.read_given r.input.room
    rw [hread] at hgiven
    have hfits : r.input.used + (b :: bytes).length ≤ r.input.capacity := by
      have hlength := hgiven.1
      rw [Buffer.room] at hlength
      omega
    obtain ⟨hframed, hcapacity⟩ := ih (hr.feed hfits)
    exact ⟨hframed, hcapacity.trans (Buffer.capacity_append hfits)⟩
  | case4 => exact ⟨hr, rfl⟩
  | case5 => exact ⟨hr, rfl⟩

/-! ## Deliveries -/

/-- Sending does not touch the buffer. -/
theorem Delivery.head_send (d : Delivery) (w : Wire) : (d.send w).2.1.head = d.head := by
  fun_induction Delivery.send d w with
  | case1 => rfl
  | case2 => rfl
  | case3 d w hc n w' hw ih => exact ih
  | case4 => rfl
  | case5 => rfl

/-- A response is laid out in the buffer that there is, and fits it. -/
theorem Delivery.fits_lay? {d d' : Delivery} {r : Resolution} {keepAlive : Bool}
    (h : d.lay? r keepAlive = some d') :
    d'.head.Fits ∧ d'.head.capacity = d.head.capacity := by
  simp only [lay?, Option.bind_eq_bind, Option.bind_eq_some_iff] at h
  obtain ⟨b₁, hhead, b₂, hpage, hd'⟩ := h
  obtain rfl := Option.some.inj hd'
  obtain ⟨hfits, hcapacity⟩ := (Buffer.fits_clear d.head).append? hhead
  obtain ⟨hfits', hcapacity'⟩ := hfits.append? hpage
  exact ⟨hfits', hcapacity'.trans hcapacity⟩

/-! ## Connections -/

namespace Connection

variable {c : Connection}

/-- The buffers have the sizes that they were made with, and the reader's cursors lie within. The
panics that a wrong size could cause are ruled out by it. -/
structure Sized (c : Connection) : Prop where
  framed : c.reader.Framed
  input : c.reader.input.capacity = Request.inputCapacity
  head : c.delivery.head.capacity = headCapacity

theorem sized_new : ({} : Connection).Sized :=
  ⟨Request.Reader.framed_new, List.length_replicate, List.length_replicate⟩

namespace Sized

theorem reset (hc : c.Sized) : c.reset.Sized :=
  ⟨Request.Reader.framed_reset c.reader, hc.input, hc.head⟩

theorem start (hc : c.Sized) (descriptor : Int) (peer : Option SocketAddress) :
    (c.start descriptor peer).Sized :=
  ⟨Request.Reader.framed_reset c.reader, hc.input, hc.head⟩

theorem release (hc : c.Sized) : c.release.Sized := ⟨hc.framed, hc.input, hc.head⟩

/-- Reading fills the buffer, and does not make it larger. -/
theorem readAll (hc : c.Sized) (w : Wire) : (c.readAll w).2.1.Sized := by
  simp only [Connection.readAll]
  split
  · exact hc
  · obtain ⟨hframed, hcapacity⟩ := hc.framed.fill w
    exact ⟨hframed, hcapacity.trans hc.input, hc.head⟩

theorem parse (hc : c.Sized) : c.parse.2.Sized := by
  obtain ⟨hframed, hroom⟩ := hc.framed.advance
  exact ⟨hframed, hroom.capacity.trans hc.input, hc.head⟩

/-- Another delivery in the same buffer. -/
theorem deliver (hc : c.Sized) {d : Delivery} (hd : d.head.capacity = c.delivery.head.capacity) :
    ({ c with delivery := d } : Connection).Sized :=
  ⟨hc.framed, hc.input, hd.trans hc.head⟩

/-- Resuming a response sends from the buffer; if the response is complete the connection starts
afresh. -/
theorem resume (hc : c.Sized) (w : Wire) : (c.resume w).2.1.Sized := by
  have hsent : ({ c with delivery := (c.delivery.send w).2.1 } : Connection).Sized :=
    hc.deliver (congrArg Buffer.capacity (c.delivery.head_send w))
  simp only [Connection.resume, send]
  split
  · rename_i h
    rw [h] at hsent
    split
    · exact hsent.reset
    · exact hsent
  · rename_i h
    rw [h] at hsent
    exact hsent
  · rename_i h
    rw [h] at hsent
    exact hsent

/-- A response is laid out in the buffer that there is, or not at all. -/
theorem respond (hc : c.Sized) (r : Resolution) (w : Wire) : (c.respond r w).2.1.Sized := by
  simp only [Connection.respond]
  split
  · exact hc.deliver rfl
  · rename_i d hlay
    exact (hc.deliver ((Delivery.fits_lay? hlay).2)).resume w

end Sized

end Connection

/-! ## Slots -/

namespace Hub

variable {hub : Hub} {h : Handle}

/-- All slots are sized. -/
def Sized (hub : Hub) : Prop := ∀ d c, hub.slots.get? d = some c → c.Sized

theorem Sized.congr {hub' : Hub} (hs : hub.Sized) (hslots : hub'.slots = hub.slots) :
    hub'.Sized := by
  intro d c hc
  rw [hslots] at hc
  exact hs d c hc

/-- Where one slot gets another connection that is sized, all slots are. -/
theorem Sized.set (hs : hub.Sized) {hub' : Hub} {e : Int} {c : Connection}
    (hslots : hub'.slots = hub.slots.set e c) (hc : c.Sized) : hub'.Sized := by
  intro d c' hc'
  rw [hslots] at hc'
  by_cases hd : d = e
  · rw [hd, DescriptorMap.get?_set_self] at hc'
    exact Option.some.inj hc' ▸ hc
  · rw [DescriptorMap.get?_set_ne _ _ hd] at hc'
    exact hs d c' hc'

theorem Sized.connection (hs : hub.Sized) {c : Connection} (hc : hub.connection? h = some c) :
    c.Sized :=
  hs _ c (connection?_eq_some.mp hc).2.1

/-- The slot in which a connection is opened has been used before, or it is new. -/
theorem Sized.slot (hs : hub.Sized) (d : Int) : ((hub.slots.get? d).getD {}).Sized := by
  cases hslot : hub.slots.get? d with
  | none => exact Connection.sized_new
  | some c => exact hs d c hslot

/-- A client is given a slot's connection, started afresh. -/
theorem Sized.enter (hs : hub.Sized) (d : Int) (peer : Option SocketAddress) :
    (hub.enter d peer).2.Sized := by
  simp only [Hub.enter]
  split
  · exact hs.set rfl ((hs.slot d).start d peer)
  · exact hs

/-- Closing puts back the same connection, released. -/
theorem Sized.close (hs : hub.Sized) (h : Handle) : (hub.close h).Sized := by
  cases hc : hub.connection? h with
  | none =>
    rw [close_of_none hc]
    exact hs
  | some c =>
    rw [close_of_some hc]
    exact hs.set rfl (hs.connection hc).release

/-- A visit puts back what is done to the connection. -/
theorem Sized.visit (hs : hub.Sized) (h : Handle)
    {f : Connection → Kernel → α × Connection × Kernel}
    (hf : ∀ c k, c.Sized → (f c k).2.1.Sized) : (hub.visit h f).2.Sized := by
  cases hc : hub.connection? h with
  | none =>
    simp only [Hub.visit, hc]
    exact hs
  | some c =>
    rw [visit_of_some hc]
    exact hs.set rfl (hf c hub.kernel (hs.connection hc))

/-- A step is a visit, and closes the connection perhaps. -/
theorem Sized.runStep (hs : hub.Sized) (h : Handle)
    {f : Connection → Kernel → Next × Connection × Kernel}
    (hf : ∀ c k, c.Sized → (f c k).2.1.Sized) : (hub.runStep h f).2.Sized := by
  have hvisit := hs.visit h hf
  simp only [Hub.runStep]
  split
  · rename_i heq
    rw [heq] at hvisit
    exact hvisit.close h
  · exact hvisit

/-- An answer is a response, or it is left to wait. -/
theorem sized_answer (root : String) (outcome : Request.Outcome) (c : Connection) (k : Kernel)
    (hc : c.Sized) : (answer root outcome c k).2.1.Sized := by
  simp only [answer]
  split
  · exact hc
  · exact hc.respond ..

end Hub

/-! ## Servers

What holds of a connection in a slot holds of those in all slots, after every step. -/

namespace Server

variable {s t start : Server}

/-- All slots of a server are sized. -/
def Sized (s : Server) : Prop := s.hub.Sized

/-- Whatever a step does to the table, no buffer changes its size. -/
theorem Sized.tableStep (hs : s.Sized) {a : Action} (hstep : TableStep a s t.hub) : t.Sized := by
  have hsame : ∀ {hub : Hub}, hub.Sized → t.hub.table = hub.table → t.Sized :=
    fun hhub htable => hhub.congr (congrArg Table.slots htable)
  cases hstep with
  | rest htable => exact hsame hs htable
  | read h htable =>
    exact hsame (Hub.Sized.visit hs h fun c k hc => hc.readAll (k.wire c.descriptor)) htable
  | parse h hf htable =>
    refine hsame (Hub.Sized.visit hs h fun c k hc => ?_) htable
    rw [hf]
    exact hc.parse
  | answer h outcome htable =>
    exact hsame (Hub.Sized.visit hs h (Hub.sized_answer s.hub.root outcome)) htable
  | resume h htable =>
    exact hsame (Hub.Sized.runStep hs h fun c k hc => hc.resume (k.wire c.descriptor)) htable
  | close h htable => exact hsame (Hub.Sized.close hs h) htable
  | enter ha hstage htable => exact hsame (Hub.Sized.enter hs _ _) htable

/-- No action changes the size of a buffer. -/
theorem Sized.perform (hs : s.Sized) {a : Action} (hstep : s.perform? a = some t) : t.Sized :=
  hs.tableStep (tableStep_perform hstep)

/-- A server that has been set up has used no slot. -/
theorem sized_ofListener {k : Kernel} {listener : Int} {config : Config}
    (hstart : ofListener k listener config = .ok start) : start.Sized := by
  simp only [ofListener] at hstart
  split at hstart
  · cases hstart
  · split at hstart
    · cases hstart
    · obtain rfl := Except.ok.inj hstart
      intro d c hc
      cases (show DescriptorMap.get? {} d = none from rfl).symm.trans hc

/-- **Buffers keep their sizes**, whatever happens to a server. -/
theorem sized_reachable (hstart : start.Sized) (hs : Reachable start s) : s.Sized := by
  induction hs with
  | refl => exact hstart
  | step _ hstep ih => exact ih.perform hstep

end Server

end FileServer
