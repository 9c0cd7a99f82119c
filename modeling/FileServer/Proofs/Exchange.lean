import FileServer.Proofs.Reading
import FileServer.Proofs.Reference
import FileServer.Proofs.Server.Life
import FileServer.Proofs.Server.Slots

/-!
# An exchange with a client

A connection takes part in an exchange: some requests have been answered, others are due, and of the
one that is due next some bytes have come, in the buffer or in the stream, or it has come whole and
is being answered, or the response is on its way. `Exchange` says so of a connection, its stream,
and the place where the connection is held.

Two lemmas carry the exchange on, for a client who is there and a kernel that is merely slow:
reading takes a first part of what waits (`Connection.readAll_gentle`), and an attempt to send ends
with the response on its way or with all of it accepted (`Connection.OnCourse.resume_gentle`).

What is said of the requests does not depend on the connection and stands apart: some have been
answered, some are due, and of the first of these a part has been sent (`Turn` in
`Server/Attendance`). What is said here of the connection goes by the place where it is held: only
certain holders listen, hear or send.
-/

namespace FileServer

open Request (Heard read inputCapacity)
open Reference (keeps reply transcript MaySend)

/-! ## Clients who are there

A client that stays sends more and receives what there is, and can still be sent to. -/

/-- The client is there, may send more, and has received no more than what was written. -/
structure Stream.Present (s : Stream) : Prop where
  lively : s.IsLively
  kept : s.dropped = false
  received_le : s.received ≤ s.outbound.length

namespace Stream.Present

variable {s : Stream}

theorem send (h : s.Present) (bytes : Bytes) :
    (s.send bytes).2 = { s with inbound := s.inbound ++ bytes } := by
  obtain ⟨hended, habandoned, -⟩ := h.lively
  simp [Stream.send, h.kept, hended, habandoned]

theorem sent (h : s.Present) (bytes : Bytes) : (s.send bytes).2.Present := by
  rw [h.send]
  exact ⟨h.lively, h.kept, h.received_le⟩

theorem receive (h : s.Present) : s.receive.2.Present := ⟨h.lively, h.kept, Nat.le_refl _⟩

theorem took (h : s.Present) (n : Nat) : (s.took n).Present := ⟨h.lively, h.kept, h.received_le⟩

theorem wrote (h : s.Present) (bytes : Bytes) : (s.wrote bytes).Present := by
  refine ⟨h.lively, h.kept, Nat.le_trans h.received_le ?_⟩
  rw [Stream.wrote, List.length_append]
  exact Nat.le_add_right ..

end Stream.Present

theorem Stream.wrote_wrote (s : Stream) (x y : Bytes) : (s.wrote x).wrote y = s.wrote (x ++ y) := by
  simp only [wrote, List.append_assoc]

/-! ## Reading from a client who is there

Under a kernel that is merely slow, a read takes what has arrived, or some of it, and never
fails. -/

/-- With room in the buffer some first part of what waits is read, and the connection goes on. -/
theorem Connection.readAll_gentle {c : Connection} {w : Wire} {s : Stream} {u : Bytes}
    (hheard : Heard c.reader u) (hroom : u.length < inputCapacity) (hs : w.stream = some s)
    (hl : s.IsLively) (hw : w.reads.Only Fault.isGentleRead) :
    ∃ x w', c.readAll w = (true, { c with reader := c.reader.feed x }, w') ∧ x <+: s.inbound ∧
      (u ++ x).length ≤ inputCapacity ∧ w'.stream = some (s.took x.length) := by
  have hused : c.reader.input.used < c.reader.input.capacity := by
    rw [hheard.used, hheard.capacity]
    exact hroom
  obtain ⟨x, w', hfilled, -⟩ :=
    Request.Reader.fill_spec hheard.framed.toInOrder hs hl hw
  refine ⟨x, w', ?_, hfilled.first, ?_, hfilled.stream⟩
  · rw [readAll_of_room hused, hfilled.fill_eq]
  · have hfits := hfilled.fits
    rw [hheard.used, hheard.capacity] at hfits
    rw [List.length_append]
    exact hfits

/-! ## Sending to a client who is there

An attempt to send that is merely slowed down does not fail: the response is on its way then, or
it is complete, and the connection is kept or closed as the request has asked. -/

/-- The writes of an attempt that are accepted follow the scripts, and all they do to the stream is
to write to it. -/
theorem Delivery.Writes.gentle {d d' : Delivery} {w w' : Wire} {s : Stream}
    (h : d.Writes w d' w') (hs : w.stream = some s) (hw : w.writes.Only Fault.isGentleWrite) :
    (∃ bytes, w'.stream = some (s.wrote bytes)) ∧ w'.writes.Only Fault.isGentleWrite := by
  induction h generalizing s with
  | none => exact ⟨⟨[], by rw [hs, Stream.wrote_nil]⟩, hw⟩
  | @more d d' w w₁ w' n hc hwrite _ ih =>
    have htaken := w.write_taken d.offered
    have hscripts := w.write_scripts d.offered
    rw [hwrite] at htaken hscripts
    obtain ⟨-, -, hstream⟩ := htaken
    rw [hs] at hstream
    obtain ⟨⟨bytes, hbytes⟩, hgentle⟩ := ih hstream (hw.suffix hscripts.2)
    exact ⟨⟨_, by rw [hbytes, Stream.wrote_wrote]⟩, hgentle⟩

namespace Connection

variable {front file before : Bytes} {c c' : Connection} {w w' : Wire} {s : Stream}

/-- How an attempt to send ends that does not fail. -/
inductive Attempt (front file before : Bytes) (c : Connection) (s' : Stream) :
    Next → Connection → Wire → Prop
  /-- the client has to take some first -/
  | pending {c' : Connection} {w' : Wire} : OnCourse front file before .underway c' w' →
    ¬ c'.delivery.plan.isComplete → c'.reader = c.reader →
    Attempt front file before c s' .write c' w'
  /-- everything has been accepted, and the connection starts afresh -/
  | kept {c' : Connection} {w' : Wire} : c.keepAlive = true →
    s'.outbound = before ++ (front ++ file) → c'.reader = c.reader.reset →
    Attempt front file before c s' .read c' w'
  /-- everything has been accepted, and the connection is to be closed -/
  | last {c' : Connection} {w' : Wire} : c.keepAlive = false →
    s'.outbound = before ++ (front ++ file) → Attempt front file before c s' .close c' w'

/-- **An attempt to send** to a client who is there, through a wire that is merely slow. -/
theorem OnCourse.resume_gentle (h : OnCourse front file before .underway c w)
    (hs : w.stream = some s) (hl : s.abandoned = false) (hw : w.writes.Only Fault.isGentleWrite) :
    ∃ next c' w' bytes, c.resume w = (next, c', w') ∧ w'.stream = some (s.wrote bytes) ∧
      Attempt front file before c (s.wrote bytes) next c' w' := by
  have hcourse := h.send
  obtain ⟨d, w₁, hwrites, hcases⟩ := c.send_cases w
  obtain ⟨⟨bytes, hstream⟩, hgentle⟩ := hwrites.gentle hs hw
  rcases hcases with ⟨hc, hsend⟩ | ⟨hc, w', hwrite, hsend⟩ | ⟨hc, w', reason, hwrite, hsend⟩
  · -- all has been accepted
    rw [hsend] at hcourse
    have hout : (s.wrote bytes).outbound = before ++ (front ++ file) := by
      cases hcourse with
      | done _ hout =>
        rw [Wire.outbound, hstream] at hout
        exact hout
      | going hp => exact absurd rfl hp
    cases hk : c.keepAlive with
    | true => exact ⟨.read, _, _, bytes, by rw [resume, hsend, hk]; rfl, hstream, .kept hk hout rfl⟩
    | false => exact ⟨.close, _, _, bytes, by rw [resume, hsend, hk]; rfl, hstream, .last hk hout⟩
  · rw [hsend] at hcourse
    exact ⟨.write, _, _, bytes, by rw [resume, hsend]; rfl,
      (Wire.write_nothing hwrite).trans hstream, .pending hcourse hc rfl⟩
  · have hsure := Wire.write_gentle hstream hl hgentle d.offered reason
    rw [hwrite] at hsure
    exact absurd rfl hsure

/-- To answer is to lay out the response, which fits, and to make a first attempt. -/
theorem Sized.respond_gentle (hc : c.Sized) {r : Resolution}
    (hr : r.body.length < Decimal.wordLimit) (hs : w.stream = some s) (hl : s.abandoned = false)
    (hw : w.writes.Only Fault.isGentleWrite) :
    ∃ next c' w' bytes, c.respond r w = (next, c', w') ∧ w'.stream = some (s.wrote bytes) ∧
      Attempt (Response.head r c.keepAlive ++ .ofText r.page) (r.file?.getD []) s.outbound c
        (s.wrote bytes) next c' w' := by
  obtain ⟨d, hlay⟩ := Delivery.lay?_isSome hc.head c.keepAlive hr
  have hcourse := OnCourse.laidOut hlay w
  have hbefore : w.outbound = s.outbound := by
    rw [Wire.outbound, hs]
    rfl
  rw [hbefore] at hcourse
  obtain ⟨next, c', w', bytes, hresume, hstream, hattempt⟩ := hcourse.resume_gentle hs hl hw
  refine ⟨next, c', w', bytes, ?_, hstream, ?_⟩
  · simp only [Connection.respond, hlay]
    exact hresume
  · cases hattempt with
    | pending hcourse' hincomplete hreader => exact .pending hcourse' hincomplete hreader
    | kept hkeep hout hreader => exact .kept hkeep hout hreader
    | last hkeep hout => exact .last hkeep hout

end Connection

/-! ## Places in an exchange

A connection in an exchange is held where its state has it: `Exchange` has one case for each state,
with the holders that go with it. -/

/-- Where a connection is held that waits for more of a request. -/
inductive Holder.Listens (h : Handle) : Holder → Prop
  | register : Listens h (.loop (.register h))
  | armed : Listens h (.poll .read)
  | event {r : Readiness} : Server.eventTask h r = .read h → Listens h (.event r)
  | read : Listens h (.loop (.read h))
  | parsed {awaited : Option (List String)} : Listens h (.worker (.answer h .incomplete awaited))
  | loop : Listens h (.loop (.rearm h .read))
  | worker : Listens h (.worker (.rearm h .read))

/-- Where a connection is held whose bytes have been read and are to be parsed. -/
inductive Holder.Hears (h : Handle) : Holder → Prop
  | submit : Hears h (.loop (.submit h))
  | queue : Hears h .queue
  | parse : Hears h (.worker (.parse h))

/-- Where a connection is held whose response is on its way. -/
inductive Holder.Sends (h : Handle) : Holder → Prop
  | armed : Sends h (.poll .write)
  | event {r : Readiness} : Server.eventTask h r = .resume h → Sends h (.event r)
  | resume : Sends h (.loop (.resume h))
  | loop : Sends h (.loop (.rearm h .write))
  | worker : Sends h (.worker (.rearm h .write))

/-- Where an exchange stands with a client who has sent `part` of the request that is due next,
while the requests `done` have been answered. -/
inductive Exchange (site : Site) (root : String) (done due : List Bytes) (part : Bytes)
    (h : Handle) : Holder → Connection → Stream → Prop
  /-- the bytes `u` have been parsed, and more are waited for -/
  | listening {τ : Holder} {c : Connection} {s : Stream} {u : Bytes} : τ.Listens h →
    Heard c.reader u → (read u).1 = .incomplete → u ++ s.inbound = part →
    s.outbound = transcript site root done → Exchange site root done due part h τ c s
  /-- the bytes `u` are in the buffer -/
  | heard {τ : Holder} {c : Connection} {s : Stream} {u : Bytes} : τ.Hears h →
    Heard c.reader u → u ++ s.inbound = part → s.outbound = transcript site root done →
    Exchange site root done due part h τ c s
  /-- the whole request has been parsed -/
  | answering {c : Connection} {s : Stream} {awaited : Option (List String)} :
    due.head? = some part → s.inbound = [] → c.reader.target = (read part).2.target →
    c.keepAlive = keeps part → s.outbound = transcript site root done →
    Exchange site root done due part h (.worker (.answer h .complete awaited)) c s
  /-- some of the response has been sent, and not all of it -/
  | sending {τ : Holder} {c : Connection} {s : Stream} {front file : Bytes} : τ.Sends h →
    due.head? = some part → s.inbound = [] → c.keepAlive = keeps part →
    front ++ file = reply site root part →
    c.OnCourse front file (transcript site root done) .underway { stream := some s } →
    ¬ c.delivery.plan.isComplete → Exchange site root done due part h τ c s

namespace Exchange

variable {site : Site} {root : String} {done due : List Bytes} {part bytes : Bytes} {h : Handle}
  {τ : Holder} {c : Connection} {s : Stream}

/-- What has been written is shorter than it will be with the response that is due. -/
theorem short (hx : Exchange site root done due part h τ c s)
    (hkeep : ∀ p ∈ done, keeps p = true) (q : Bytes) (rest : List Bytes) (hdue : due = q :: rest) :
    s.outbound.length < (transcript site root (done ++ [q])).length := by
  have hpos := Reference.reply_length_pos site root q
  rw [Reference.transcript_snoc hkeep, List.length_append]
  cases hx with
  | listening _ _ _ _ hout =>
    rw [hout]
    omega
  | heard _ _ _ hout =>
    rw [hout]
    omega
  | answering _ _ _ _ hout =>
    rw [hout]
    omega
  -- some of the reply may be out, but not all of it, as its plan is incomplete
  | @sending _ _ _ front file _ hhead _ _ hreply hcourse hincomplete =>
    have hq : q = part := by
      rw [hdue] at hhead
      exact Option.some.inj hhead
    rw [hq, ← hreply]
    cases hcourse with
    | going _ hd hs _ =>
      have hsent : s.outbound =
          transcript site root done ++ (front ++ file).take c.delivery.plan.sent :=
        hs
      have hle := hd.sent_le_total
      have hne : c.delivery.plan.sent ≠ (front ++ file).length :=
        fun heq => hincomplete (hd.isComplete_iff.mpr heq)
      rw [hd.total] at hle
      rw [hsent, List.length_append, List.length_take]
      omega

/-- Whatever happens, a first part of the responses has been written. -/
theorem written (hx : Exchange site root done due part h τ c s)
    (hkeep : ∀ p ∈ done, keeps p = true) : s.outbound <+: transcript site root (done ++ due) := by
  cases hx with
  | listening _ _ _ _ hout => exact hout ▸ Reference.transcript_first ..
  | heard _ _ _ hout => exact hout ▸ Reference.transcript_first ..
  | answering _ _ _ _ hout => exact hout ▸ Reference.transcript_first ..
  | @sending _ _ _ front file _ hhead _ _ hreply hcourse hincomplete =>
    obtain ⟨rest, rfl⟩ : ∃ rest, due = part :: rest := by
      cases due with
      | nil => cases hhead
      | cons q rest => exact ⟨rest, by rw [Option.some.inj hhead]⟩
    cases hcourse with
    | going _ hd hs _ =>
      have hsent : s.outbound =
          transcript site root done ++ (front ++ file).take c.delivery.plan.sent :=
        hs
      have hsnoc := Reference.transcript_first site root (done ++ [part]) rest
      rw [Reference.transcript_snoc hkeep, List.append_assoc, List.singleton_append,
        ← hreply] at hsnoc
      rw [hsent]
      exact ((List.prefix_append_right_inj _).mpr (List.take_prefix ..)).trans hsnoc

/-! ### What the client does -/

/-- The client sends more of the request. -/
theorem send (hx : Exchange site root done due part h τ c s) (hs : s.Present)
    (hmore : part ++ bytes <+: due.headD []) :
    Exchange site root done due (part ++ bytes) h τ c (s.send bytes).2 := by
  have hnone : due.head? = some part → bytes = [] := by
    intro hhead
    cases due with
    | nil => cases hhead
    | cons q rest =>
      obtain rfl := Option.some.inj hhead
      have hlength := hmore.length_le
      rw [List.length_append, List.headD_cons] at hlength
      exact List.eq_nil_of_length_eq_zero (by omega)
  rw [hs.send]
  cases hx with
  | listening hτ hheard hwait hpart hout =>
    exact .listening hτ hheard hwait (by rw [← hpart, List.append_assoc]) hout
  | heard hτ hheard hpart hout => exact .heard hτ hheard (by rw [← hpart, List.append_assoc]) hout
  | answering hhead hin htarget hkeep hout =>
    obtain rfl := hnone hhead
    rw [List.append_nil, List.append_nil]
    exact .answering hhead hin htarget hkeep hout
  | sending hτ hhead hin hkeep hreply hcourse hincomplete =>
    obtain rfl := hnone hhead
    rw [List.append_nil, List.append_nil]
    exact .sending hτ hhead hin hkeep hreply hcourse hincomplete

/-- The client receives what has been written. -/
theorem receive (hx : Exchange site root done due part h τ c s) :
    Exchange site root done due part h τ c s.receive.2 := by
  cases hx with
  | listening hτ hheard hwait hpart hout => exact .listening hτ hheard hwait hpart hout
  | heard hτ hheard hpart hout => exact .heard hτ hheard hpart hout
  | answering hhead hin htarget hkeep hout => exact .answering hhead hin htarget hkeep hout
  | sending hτ hhead hin hkeep hreply hcourse hincomplete =>
    exact .sending hτ hhead hin hkeep hreply (hcourse.congr rfl) hincomplete

end Exchange

end FileServer
