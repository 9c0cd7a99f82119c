import FileServer.Proofs.Hub

/-!
# The two phases of a connection

A connection is either in the phase of a request, in which nothing of a response is about
(`Delivery.Idle`), or in the phase of a response, in which some of it is still to be sent and at
hand (`Delivery.Sending`). An attempt to send leaves a delivery in the phase that its result calls
for, and tells the truth about it (`Delivery.Attempted`): if the response is to be resumed it is the
same one, with no less of it sent, and if there is none any more all that was left of it has been
accepted.

What carries this through the writes of an attempt is that each takes what it accepts off what is
left and adds it to the stream, so that both together stay the same (`Delivery.Writes.conserves`).
-/

namespace FileServer

namespace Delivery

/-- There is no response: nothing is planned and no file is held. -/
structure Idle (d : Delivery) : Prop where
  plan : d.plan = {}
  file : d.file = none

/-- Some of a response is still to be sent, and it is all at hand: the file that the response was
laid out with is the one that is held. -/
def Sending (d : Delivery) : Prop :=
  ∃ front file, d.Underway front file ∧ d.file.getD [] = file ∧ ¬ d.plan.isComplete

/-- What the plan leaves to be sent is there, and is not nothing. This is what a maintainer would
look for in a connection that is registered for output: a promise it can keep, of at least one
byte. -/
structure Due (d : Delivery) : Prop where
  incomplete : d.plan.sent < d.plan.total
  left : d.headRest.length + d.fileRest.length = d.plan.total - d.plan.sent

/-- The same response, and no less of it sent. A connection that is taken up again in the phase of
a response goes on from where it was. -/
structure Continues (d d' : Delivery) : Prop where
  head : d'.head = d.head
  file : d'.file = d.file
  total : d'.plan.total = d.plan.total
  sent_le : d.plan.sent ≤ d'.plan.sent

/-- A delivery for a connection that waits for input, waits for output, or is about to be closed.
In the last case nothing is asked, as nobody is going to look at it any more. -/
def InPhase (d : Delivery) : Option Interest → Prop
  | some .read => d.Idle
  | some .write => d.Sending
  | none => True

variable {d d' : Delivery} {front file : Bytes} {w w' : Wire} {n : Nat}

theorem idle_reset (d : Delivery) : d.reset.Idle := ⟨rfl, rfl⟩

theorem Idle.sent_eq_total (hd : d.Idle) : d.plan.sent = d.plan.total := by rw [hd.plan]

theorem not_isComplete_iff (d : Delivery) : ¬ d.plan.isComplete ↔ d.plan.sent < d.plan.total := by
  rw [Plan.isComplete, decide_eq_true_eq, Nat.not_le]

/-- **In the phase of a response, what is due is there.** What is left of the head and of the file
has just the length that the plan leaves, since both have been laid out together. -/
theorem Sending.due (hd : d.Sending) : d.Due := by
  obtain ⟨front, file, hunderway, hheld, hc⟩ := hd
  refine ⟨d.not_isComplete_iff.mp hc, ?_⟩
  have hleft := congrArg List.length (hunderway.flatten_offered_eq hheld)
  rw [flatten_offered, List.length_append, List.length_drop, ← hunderway.total] at hleft
  exact hleft

namespace Continues

theorem refl (d : Delivery) : d.Continues d := ⟨rfl, rfl, rfl, Nat.le_refl _⟩

theorem advance (d : Delivery) (n : Nat) : d.Continues (d.advance n) :=
  ⟨rfl, rfl, Plan.total_advance .., by
    rw [show (d.advance n).plan.sent = d.plan.sent + n from Plan.sent_advance ..]
    exact Nat.le_add_right ..⟩

theorem trans {d'' : Delivery} (h : d.Continues d') (h' : d'.Continues d'') : d.Continues d'' :=
  ⟨h'.head.trans h.head, h'.file.trans h.file, h'.total.trans h.total,
    Nat.le_trans h.sent_le h'.sent_le⟩

end Continues

/-! ## What the accepted writes of an attempt leave -/

theorem Writes.continues (h : Writes d w d' w') : d.Continues d' := by
  induction h with
  | none => exact .refl _
  | more _ _ _ ih => exact (Continues.advance _ _).trans ih

theorem Writes.underway (h : Writes d w d' w') (hd : d.Underway front file) :
    d'.Underway front file := by
  induction h with
  | none => exact hd
  | more _ hwrite _ ih => exact ih (hd.advance (Wire.write_accepted hwrite).1)

/-- A write takes what it accepts off what is left, and adds it to the stream. -/
theorem Underway.conserves_write (hd : d.Underway front file) (hheld : d.file.getD [] = file)
    (hwrite : w.write d.offered = (.accepted n, w')) :
    w'.outbound ++ (d.advance n).offered.flatten = w.outbound ++ d.offered.flatten := by
  obtain ⟨hn, hnone, hstream⟩ := Wire.write_accepted hwrite
  have hleft : (d.advance n).offered.flatten = d.offered.flatten.drop n := by
    have hsent : (d.advance n).plan.sent = d.plan.sent + n := Plan.sent_advance ..
    rw [(hd.advance hn).flatten_offered_eq hheld, hd.flatten_offered_eq hheld, hsent,
      List.drop_drop]
  have hout : w'.outbound = w.outbound ++ d.offered.flatten.take n := by
    rw [Wire.outbound, Wire.outbound, hstream]
    cases hs : w.stream with
    | none => simp [hnone hs]
    | some s => rfl
  rw [hleft, hout, List.append_assoc, List.take_append_drop]

/-- What is left and what has been written make up the same bytes all through an attempt. -/
theorem Writes.conserves (h : Writes d w d' w') (hd : d.Underway front file)
    (hheld : d.file.getD [] = file) :
    w'.outbound ++ d'.offered.flatten = w.outbound ++ d.offered.flatten := by
  induction h with
  | none => rfl
  | more _ hwrite _ ih =>
    have hd' := hd.advance (Wire.write_accepted hwrite).1
    exact (ih hd' hheld).trans (hd.conserves_write hheld hwrite)

/-- There is a stream behind the wire all through an attempt, or there never is. -/
theorem Writes.isSome_stream (h : Writes d w d' w') : w'.stream.isSome = w.stream.isSome := by
  induction h with
  | none => rfl
  | more _ hwrite _ ih => rw [ih, (Wire.write_accepted hwrite).2.2, Option.isSome_map]

/-- When all has been accepted, nothing is left: then what an attempt offers is empty, and the
conservation above says that the stream has got it all. -/
theorem Underway.nothing_left (hd : d.Underway front file) (hheld : d.file.getD [] = file)
    (hc : d.plan.isComplete) : d.offered.flatten = [] := by
  rw [hd.flatten_offered_eq hheld, hd.isComplete_iff.mp hc, List.drop_length]

end Delivery

/-! ## Attempts -/

/-- What an attempt to send a delivery `d` on the wire `w` calls for, and what it leaves. -/
inductive Delivery.Attempted (d : Delivery) (w : Wire) : Next → Delivery → Wire → Prop
  /-- it is to be resumed, and no less of the response has been sent -/
  | partly {d' : Delivery} {w' : Wire} : d'.Sending → d.Continues d' → Attempted d w .write d' w'
  /-- all that was left of the response has been accepted, and there is none any more -/
  | wholly {d' : Delivery} {w' : Wire} : d'.Idle → w'.stream.isSome = w.stream.isSome →
    w'.outbound = w.outbound ++ (d.headRest ++ d.fileRest) → Attempted d w .read d' w'
  /-- the connection is to be closed -/
  | ends {d' : Delivery} {w' : Wire} : Attempted d w .close d' w'

/-- What an attempt calls for is what the delivery it leaves is fit for. -/
theorem Delivery.Attempted.inPhase {d d' : Delivery} {w w' : Wire} {next : Next}
    (h : d.Attempted w next d' w') : d'.InPhase next.interest? := by
  cases h with
  | partly hsending => exact hsending
  | wholly hidle => exact hidle
  | ends => trivial

namespace Connection

variable {c c' : Connection} {w w' : Wire} {front file : Bytes} {next : Next}

/-- **An attempt to send tells the truth about what it leaves.** The ways in which the loop of
writes ends are taken in turn: all has been sent, after which the connection is kept or closed;
the wire blocks; or a write fails. -/
theorem resume_attempted (hd : c.delivery.Underway front file)
    (hheld : c.delivery.file.getD [] = file) (hresume : c.resume w = (next, c', w')) :
    c.delivery.Attempted w next c'.delivery w' := by
  obtain ⟨d, w₁, hwrites, hcases⟩ := c.send_cases w
  have hunderway := hwrites.underway hd
  have hheld' : d.file.getD [] = file := by rw [hwrites.file_eq]; exact hheld
  rcases hcases with ⟨hc, hsend⟩ | ⟨hc, w₂, -, hsend⟩ | ⟨hc, w₂, reason, -, hsend⟩
  · rw [resume, hsend] at hresume
    cases hk : c.keepAlive with
    | true =>
      rw [hk] at hresume
      obtain ⟨rfl, rfl, rfl⟩ := hresume
      have hall := hwrites.conserves hd hheld
      rw [hunderway.nothing_left hheld' hc, List.append_nil, Delivery.flatten_offered] at hall
      exact .wholly (Delivery.idle_reset _) hwrites.isSome_stream hall
    | false =>
      rw [hk] at hresume
      obtain ⟨rfl, -⟩ := hresume
      exact .ends
  · rw [resume, hsend] at hresume
    obtain ⟨rfl, rfl, -⟩ := hresume
    exact .partly ⟨front, file, hunderway, hheld', hc⟩ hwrites.continues
  · rw [resume, hsend] at hresume
    obtain ⟨rfl, -⟩ := hresume
    exact .ends

/-- A response is attempted as it has been laid out, or the connection is to be closed. -/
theorem respond_attempted {r : Resolution} (hrespond : c.respond r w = (next, c', w')) :
    next = .close ∨
      ∃ d, c.delivery.lay? r c.keepAlive = some d ∧ d.Attempted w next c'.delivery w' := by
  rw [respond] at hrespond
  cases hlay : c.delivery.lay? r c.keepAlive with
  | none =>
    rw [hlay] at hrespond
    obtain ⟨rfl, -⟩ := hrespond
    exact .inl rfl
  | some d =>
    rw [hlay] at hrespond
    obtain ⟨hd, -, hfile⟩ := Delivery.lay?_eq_some hlay
    exact .inr ⟨d, rfl, resume_attempted hd (congrArg (·.getD []) hfile) hrespond⟩

theorem delivery_readAll (c : Connection) (w : Wire) : (c.readAll w).2.1.delivery = c.delivery := by
  rw [readAll]
  split <;> rfl

theorem delivery_parse (c : Connection) : c.parse.2.delivery = c.delivery := rfl

end Connection

namespace Hub

variable {root : String} {outcome : Request.Outcome} {c c' : Connection} {k k' : Kernel}
  {next : Next}

/-- To find out how a request is answered does nothing to a stream. A file is opened and closed on
the way, and it gets a number at which no connection is registered. -/
theorem stream_resolve (root : String) (outcome : Request.Outcome) (c : Connection) (k : Kernel)
    (hfree : k.poll.registrations.get? k.nextDescriptor = none) (d : Int) :
    ((resolve root outcome c k).2.wire d).stream = (k.wire d).stream := by
  cases outcome with
  | complete =>
    have hlocate := Kernel.locate_spec hfree root c.reader.target
    have hstreams := k.streams_locate root c.reader.target
    have hsame := Kernel.streamOf?_congr (hlocate.2 d).descriptor
    simp only [resolve, Kernel.wire, hstreams, hsame]
  | incomplete => rfl
  | malformed => rfl

/-- The answer to a request that is not left to wait is a response as it has been laid out. -/
theorem answer_attempted (houtcome : outcome ≠ .incomplete)
    (hanswer : answer root outcome c k = (next, c', k')) :
    c'.descriptor = c.descriptor ∧ ∃ w, k' = (resolve root outcome c k).2.putWire c.descriptor w ∧
      (next = .close ∨ ∃ d, c.delivery.lay? (resolve root outcome c k).1 c.keepAlive = some d ∧
        d.Attempted ((resolve root outcome c k).2.wire c.descriptor) next c'.delivery w) := by
  rw [answer, if_neg houtcome] at hanswer
  dsimp only at hanswer
  rw [onWire_eq] at hanswer
  obtain ⟨rfl, rfl, rfl⟩ := hanswer
  exact ⟨(Connection.stays_respond _ _ _).1, _, rfl, Connection.respond_attempted rfl⟩

/-- **An answer leaves a connection in the phase that it calls for**, if there was no response
before: it is laid out afresh, and attempted at once. -/
theorem answer_inPhase (hc : c.delivery.Idle) (hanswer : answer root outcome c k = (next, c', k')) :
    c'.delivery.InPhase next.interest? := by
  by_cases houtcome : outcome = .incomplete
  · rw [answer, if_pos houtcome] at hanswer
    obtain ⟨rfl, rfl, -⟩ := hanswer
    exact hc
  · obtain ⟨-, w, -, rfl | ⟨d, -, hattempted⟩⟩ := answer_attempted houtcome hanswer
    · trivial
    · exact hattempted.inPhase

end Hub

end FileServer
