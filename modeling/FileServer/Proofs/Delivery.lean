import FileServer.Connection
import FileServer.Proofs.Buffer
import FileServer.Proofs.Wire

/-!
# Exact delivery of a response

What a client is sent is head and file of its response, one after the other, however the writes are
cut: at every moment of a delivery the bytes accepted so far are the first `sent` bytes of the whole
(`Moment.exact_delivery`).

The five counters of a plan are tied together by `Delivery.Underway`: of the bytes sent, `headStart`
are of the head and `fileStart` of the file, and none are of the file before all of the head is. The
two pieces offered to a write are then what is left of the whole, and a write that takes a first
part of them keeps the counters in step (`Delivery.Underway.advance`).
-/

namespace FileServer

/-! ## The plan and what is left

All that a plan says can be read off how many bytes have been sent, as long as the file has not been
given up. `Underway` ties the counters to that number. -/

namespace Delivery

/-- The pieces that a write is offered. The second one is offered even while bytes of the first are
left, so that a single call of the kernel can take the end of the head and the start of the file. -/
def offered (d : Delivery) : List Bytes := [d.headRest, d.fileRest]

/-- The delivery of the bytes in the buffer, `front`, and behind them those of a file. A delivery
that has failed has let go of the file. -/
structure Underway (d : Delivery) (front file : Bytes) : Prop where
  content : d.head.content = front
  used : d.head.used = front.length
  headStop : d.plan.headStop = front.length
  headStart_le : d.plan.headStart ≤ front.length
  fileStart_le : d.plan.fileStart ≤ file.length
  total : d.plan.total = (front ++ file).length
  sent : d.plan.sent = d.plan.headStart + d.plan.fileStart
  order : d.plan.headStart = front.length ∨ d.plan.fileStart = 0
  kept : d.file.getD [] = file ∨ d.file = none

variable {d d' : Delivery} {front file : Bytes} {w w' : Wire} {n : Nat}

/-- One behind the other they are what is left of the head and what is left of the file. -/
theorem flatten_offered (d : Delivery) : d.offered.flatten = d.headRest ++ d.fileRest := by
  simp [offered]

theorem fileRest_of_released (h : d.file = none) : d.fileRest = [] := by
  rw [fileRest, h, Option.getD_none, List.drop_nil]

namespace Underway

/-- What is left of the head is what the counter of the head says. The window that is offered ends
at the end of the head's text, not at that of its buffer. -/
theorem headRest_eq (hd : d.Underway front file) : d.headRest = front.drop d.plan.headStart := by
  rw [headRest, hd.headStop, ← hd.used, Buffer.slice_used, hd.content]

/-- The one counter of all bytes sent agrees with the two of the parts: to drop the bytes sent from
the whole is to drop each part's from each part. Here it matters that no byte of the file is sent
before the last of the head. -/
theorem drop_sent (hd : d.Underway front file) :
    (front ++ file).drop d.plan.sent =
      front.drop d.plan.headStart ++ file.drop d.plan.fileStart := by
  rcases hd.order with h | h
  · rw [hd.sent, h, List.drop_length_add_append, List.drop_length, List.nil_append]
  · rw [hd.sent, h, Nat.add_zero, List.drop_append_of_le_length hd.headStart_le, List.drop_zero]

/-- As long as the file is held, exactly what has not been sent is offered. This is the half of the
invariant that makes a write add the right bytes. -/
theorem flatten_offered_eq (hd : d.Underway front file) (hk : d.file.getD [] = file) :
    d.offered.flatten = (front ++ file).drop d.plan.sent := by
  rw [flatten_offered, hd.drop_sent, hd.headRest_eq, fileRest, hk]

/-- Even after a failure nothing is offered out of turn. -/
theorem flatten_offered_prefix (hd : d.Underway front file) :
    d.offered.flatten <+: (front ++ file).drop d.plan.sent := by
  rcases hd.kept with hk | hk
  · exact hd.flatten_offered_eq hk ▸ List.prefix_rfl
  · rw [flatten_offered, fileRest_of_released hk, List.append_nil, hd.drop_sent, hd.headRest_eq]
    exact List.prefix_append ..

/-- No more is counted than there is. -/
theorem sent_le_total (hd : d.Underway front file) : d.plan.sent ≤ d.plan.total := by
  rw [hd.total, hd.sent, List.length_append]
  have := hd.headStart_le
  have := hd.fileStart_le
  omega

/-- A plan is complete exactly if as many bytes are counted as the whole has. -/
theorem isComplete_iff (hd : d.Underway front file) :
    d.plan.isComplete ↔ d.plan.sent = (front ++ file).length := by
  have := hd.sent_le_total
  rw [Plan.isComplete, decide_eq_true_eq, ← hd.total]
  omega

/-- A write that takes a first part of what it was offered leaves the counters in step. Either it
ends within the head, and the file's counter stays zero, or it takes all that is left of the head
and some of the file; the two cases are the two of `order`. -/
theorem advance (hd : d.Underway front file) (hn : n ≤ d.offered.flatten.length) :
    (d.advance n).Underway front file := by
  have hn' : n ≤ (front.length - d.plan.headStart) + (file.length - d.plan.fileStart) := by
    have := Nat.le_trans hn hd.flatten_offered_prefix.length_le
    rwa [hd.drop_sent, List.length_append, List.length_drop, List.length_drop] at this
  obtain ⟨hcontent, hused, hstop, hstart, hfile, htotal, hsent, horder, hkept⟩ := hd
  have hleft : d.plan.headStop - d.plan.headStart = front.length - d.plan.headStart := by
    rw [hstop]
  by_cases hlt : n < d.plan.headStop - d.plan.headStart
  · have hplan : (d.advance n).plan =
        { d.plan with sent := d.plan.sent + n, headStart := d.plan.headStart + n } := by
      simp [Delivery.advance, Plan.advance, hlt]
    -- the write ended inside the head, so nothing of the file had been sent
    have hnone : d.plan.fileStart = 0 := by
      rcases horder with h | h
      · omega
      · exact h
    refine ⟨hcontent, hused, ?_, ?_, ?_, ?_, ?_, ?_, hkept⟩ <;> rw [hplan] <;> dsimp only
    · exact hstop
    · omega
    · exact hfile
    · exact htotal
    · omega
    · exact .inr hnone
  · have hplan : (d.advance n).plan =
        { d.plan with
          sent := d.plan.sent + n
          headStart := d.plan.headStop
          fileStart := d.plan.fileStart + (n - (d.plan.headStop - d.plan.headStart)) } := by
      simp [Delivery.advance, Plan.advance, hlt]
    refine ⟨hcontent, hused, ?_, ?_, ?_, ?_, ?_, ?_, hkept⟩ <;> rw [hplan] <;> dsimp only
    · exact hstop
    · omega
    · omega
    · exact htotal
    · omega
    · exact .inl hstop

theorem release (hd : d.Underway front file) : d.release.Underway front file :=
  ⟨hd.content, hd.used, hd.headStop, hd.headStart_le, hd.fileStart_le, hd.total, hd.sent, hd.order,
    .inr rfl⟩

end Underway

/-- A response that has been laid out is on its way, with its head and page in the buffer. -/
theorem lay?_eq_some {r : Resolution} {keepAlive : Bool} (h : d.lay? r keepAlive = some d') :
    d'.Underway (Response.head r keepAlive ++ .ofText r.page) (r.file?.getD []) ∧
      d'.plan.sent = 0 ∧ d'.file = r.file? := by
  simp only [lay?, Option.bind_eq_bind, Option.bind_eq_some_iff, Buffer.append?_eq_some] at h
  obtain ⟨b₁, ⟨hroom₁, rfl⟩, b₂, ⟨hroom₂, rfl⟩, hd'⟩ := h
  obtain rfl := Option.some.inj hd'
  have hfits₁ : (d.head.clear.append (Response.head r keepAlive)).Fits := by
    refine Buffer.fits_append ?_
    have := hroom₁
    rw [Buffer.room] at this
    simp only [Buffer.used_clear] at *
    omega
  have hcontent : ((d.head.clear.append (Response.head r keepAlive)).append
    (.ofText r.page)).content =
      Response.head r keepAlive ++ .ofText r.page := by
    rw [hfits₁.content_append, (Buffer.fits_clear _).content_append, Buffer.content_clear,
      List.nil_append]
  have hused : ((d.head.clear.append (Response.head r keepAlive)).append (.ofText r.page)).used =
      (Response.head r keepAlive ++ Bytes.ofText r.page).length := by
    simp
  refine ⟨⟨hcontent, hused, hused, Nat.zero_le _, Nat.zero_le _, ?_, rfl, .inr rfl, .inl rfl⟩, rfl,
    rfl⟩
  simp only [Plan.ofLengths, hused, List.length_append]

/-- What is offered of a response that has been laid out is its head and its body. -/
theorem offered_of_lay? {r : Resolution} {keepAlive : Bool}
    (h : d.lay? r keepAlive = some d') :
    d'.offered.flatten = Response.head r keepAlive ++ r.body := by
  obtain ⟨hd, hsent, hfile⟩ := lay?_eq_some h
  rw [hd.flatten_offered_eq (by rw [hfile]), hsent, List.drop_zero, Resolution.body,
    List.append_assoc]

/-! ## One attempt to send

The loop of writes is described from the outside: a number of writes that are accepted (`Writes`),
and how it ends (`Ends`). Proofs about sending go by these two and do not open the loop. -/

/-- The writes of an attempt to send that are accepted: each adds a first part of what was
offered. -/
inductive Writes : Delivery → Wire → Delivery → Wire → Prop
  | none {d : Delivery} {w : Wire} : Writes d w d w
  | more {d d' : Delivery} {w w₁ w' : Wire} {n : Nat} :
    ¬ d.plan.isComplete → w.write d.offered = (.accepted (n + 1), w₁) →
    Writes (d.advance (n + 1)) w₁ d' w' → Writes d w d' w'

/-- How an attempt to send ends, after the writes that were accepted. -/
inductive Ends (d : Delivery) (w : Wire) : SendStatus → Delivery → Wire → Prop
  | complete : d.plan.isComplete → Ends d w .complete d.release w
  | pending {w' : Wire} : ¬ d.plan.isComplete →
    w.write d.offered = (.accepted 0, w') ∨ w.write d.offered = (.wouldBlock, w') →
    Ends d w .pending d w'
  | failed {w' : Wire} {reason : Errno} : ¬ d.plan.isComplete →
    w.write d.offered = (.failed reason, w') → Ends d w (.failed reason) d.release w'

/-- **What an attempt to send does**: some writes that are accepted, and one look or write that ends
it. -/
theorem send_spec (d : Delivery) (w : Wire) :
    ∃ d₁ w₁, Writes d w d₁ w₁ ∧ Ends d₁ w₁ (d.send w).1 (d.send w).2.1 (d.send w).2.2 := by
  fun_induction send d w with
  | case1 d w hc => exact ⟨d, w, .none, .complete hc⟩
  | case2 d w hc w' hw => exact ⟨d, w, .none, .pending hc (.inl hw)⟩
  | case3 d w hc n w' hw ih =>
    obtain ⟨d₁, w₁, hwrites, hends⟩ := ih
    exact ⟨d₁, w₁, .more hc hw hwrites, hends⟩
  | case4 d w hc w' hw => exact ⟨d, w, .none, .pending hc (.inr hw)⟩
  | case5 d w hc reason w' hw => exact ⟨d, w, .none, .failed hc hw⟩

/-- A write that accepts nothing ends the attempt at once. -/
theorem send_of_nothing (hc : ¬ d.plan.isComplete)
    (hw : w.write d.offered = (.accepted 0, w') ∨ w.write d.offered = (.wouldBlock, w')) :
    d.send w = (.pending, d, w') := by
  rw [offered] at hw
  rw [send, dif_neg hc]
  rcases hw with hw | hw
  · rw [hw]
  · rw [hw]

/-- What an attempt does depends on what its first write does. -/
theorem send_congr (hc : ¬ d.plan.isComplete) (hw : w.write d.offered = w'.write d.offered) :
    d.send w = d.send w' := by
  rw [send.eq_def d w, send.eq_def d w', dif_neg hc, dif_neg hc]
  rw [offered] at hw
  rw [hw]

/-- The bytes accepted so far, behind those of `before`, are the first `sent` of the whole. -/
def InStep (d : Delivery) (before full : Bytes) (w : Wire) : Prop :=
  w.outbound = before ++ full.take d.plan.sent

theorem InStep.congr {before full : Bytes} (hs : d.InStep before full w)
    (hw : w'.stream = w.stream) : d.InStep before full w' := by
  rw [InStep, Wire.outbound, hw]
  exact hs

theorem InStep.complete {before : Bytes} (hs : d.InStep before (front ++ file) w)
    (hd : d.Underway front file) (hc : d.plan.isComplete) :
    w.outbound = before ++ (front ++ file) := by
  rw [hs, hd.isComplete_iff.mp hc, List.take_length]

/-- In step and not complete, something is missing. With `InStep.complete` this makes the report of
the end an equivalence and not only an implication. -/
theorem InStep.incomplete {before : Bytes} (hs : d.InStep before (front ++ file) w)
    (hd : d.Underway front file) (hc : ¬ d.plan.isComplete) :
    w.outbound ≠ before ++ (front ++ file) := by
  intro h
  rw [hs] at h
  have hlen := congrArg List.length (List.append_cancel_left h)
  rw [List.length_take, ← hd.total] at hlen
  have := hd.sent_le_total
  exact hc (hd.isComplete_iff.mpr (by rw [← hd.total]; omega))

/-- A write of what is offered keeps the bytes accepted in step with the counters. What the kernel
takes is a first part of the pieces (`Wire.write_accepted`), and the pieces are a first part of what
is left. -/
theorem InStep.advance {before : Bytes} (hs : d.InStep before (front ++ file) w)
    (hd : d.Underway front file) (hw : w.write d.offered = (.accepted n, w')) :
    (d.advance n).Underway front file ∧ (d.advance n).InStep before (front ++ file) w' := by
  have htaken := w.write_taken d.offered
  rw [hw] at htaken
  obtain ⟨hn, hnone, hstream⟩ := htaken
  refine ⟨hd.advance hn, ?_⟩
  have hnew : d.offered.flatten.take n = ((front ++ file).drop d.plan.sent).take n := by
    obtain ⟨rest, hrest⟩ := hd.flatten_offered_prefix
    rw [← hrest, List.take_append_of_le_length hn]
  have hout : w'.outbound = w.outbound ++ d.offered.flatten.take n := by
    rcases hstream' : w.stream with _ | s
    · rw [hnone hstream', List.take_zero, List.append_nil, Wire.outbound, hstream, Wire.outbound,
        hstream']
      rfl
    · rw [Wire.outbound, hstream, Wire.outbound, hstream']
      rfl
  have hsent : (d.advance n).plan.sent = d.plan.sent + n := Plan.sent_advance ..
  rw [InStep, hout, hnew, hs, hsent, List.take_add, List.append_assoc]

theorem Writes.file_eq (h : Writes d w d' w') : d'.file = d.file := by
  induction h with
  | none => rfl
  | more _ _ _ ih => exact ih

/-- The accepted writes of an attempt keep all in step: the induction is on the writes, with
`InStep.advance` for each. -/
theorem Writes.inStep {before : Bytes} (h : Writes d w d' w') (hd : d.Underway front file)
    (hs : d.InStep before (front ++ file) w) :
    d'.Underway front file ∧ d'.InStep before (front ++ file) w' := by
  induction h with
  | none => exact ⟨hd, hs⟩
  | more _ hwrite _ ih =>
    obtain ⟨hd₁, hs₁⟩ := hs.advance hd hwrite
    exact ih hd₁ hs₁

end Delivery

/-! ## Calls

From one attempt to any sequence of calls, of `send` or `resume`, in which each sees the connection
and the wire that the last one has left. -/

namespace Connection

/-- What comes of a call that sends: after some writes that are accepted, everything has been
accepted, or a write accepts nothing, or a write fails. -/
theorem send_cases (c : Connection) (w : Wire) :
    ∃ d w₁, c.delivery.Writes w d w₁ ∧
      ((d.plan.isComplete ∧ c.send w =
          (.ok (.complete c.keepAlive),
            if c.keepAlive then { c with delivery := d.release }.reset
            else { c with delivery := d.release }, w₁)) ∨
        (¬ d.plan.isComplete ∧ ∃ w',
          (w₁.write d.offered = (.accepted 0, w') ∨ w₁.write d.offered = (.wouldBlock, w')) ∧
            c.send w = (.ok .pending, { c with delivery := d }, w')) ∨
        (¬ d.plan.isComplete ∧ ∃ w' reason, w₁.write d.offered = (.failed reason, w') ∧
          c.send w = (.error (.system reason), { c with delivery := d.release }, w'))) := by
  obtain ⟨d, w₁, hwrites, hends⟩ := c.delivery.send_spec w
  refine ⟨d, w₁, hwrites, ?_⟩
  obtain ⟨status, d', w', hsend⟩ : ∃ status d' w', c.delivery.send w = (status, d', w') :=
    ⟨_, _, _, rfl⟩
  rw [hsend] at hends
  cases hends with
  | complete hc =>
    refine .inl ⟨hc, ?_⟩
    rcases hk : c.keepAlive with _ | _ <;> simp only [keepAlive] at hk <;>
      simp [send, hsend, keepAlive, hk, Delivery.release]
  | pending hc hw => exact .inr (.inl ⟨hc, w', hw, by simp [send, hsend]⟩)
  | failed hc hw => exact .inr (.inr ⟨hc, w', _, hw, by simp [send, hsend, Delivery.release]⟩)

/-- How far the calls have come with a response. -/
inductive Progress
  /-- more is to be sent -/
  | underway
  /-- a write has failed -/
  | failed
  /-- a call has reported that everything has been accepted -/
  | complete
  deriving DecidableEq, Repr

/-- The progress after one more call. -/
def Progress.after : Progress → Except ServerError Sent → Progress
  | _, .ok (.complete _) => .complete
  | .complete, _ => .complete
  | _, .error _ => .failed
  | p, .ok .pending => p

/-- The moments of a delivery that starts with the connection `c₀` on the wire `w₀`. Calls follow
upon each other in any number and order; between any two system calls the scripts and the client's
end of the stream may change in any way, so that any write may come out in any way. -/
inductive Moment (c₀ : Connection) (w₀ : Wire) : Progress → Connection → Wire → Prop
  | laidOut : Moment c₀ w₀ .underway c₀ w₀
  /-- something happens elsewhere -/
  | meanwhile {p : Progress} {c : Connection} {w w' : Wire} :
    Moment c₀ w₀ p c w → w'.outbound = w.outbound → Moment c₀ w₀ p c w'
  /-- within a call, a write is accepted and the call goes on -/
  | wrote {p : Progress} {c : Connection} {w w' : Wire} {n : Nat} :
    Moment c₀ w₀ p c w → ¬ c.delivery.plan.isComplete →
    w.write c.delivery.offered = (.accepted (n + 1), w') →
    Moment c₀ w₀ p { c with delivery := c.delivery.advance (n + 1) } w'
  /-- a call of `send` returns -/
  | sent {p : Progress} {c : Connection} {w : Wire} :
    Moment c₀ w₀ p c w → Moment c₀ w₀ (p.after (c.send w).1) (c.send w).2.1 (c.send w).2.2
  /-- a call of `resume` returns -/
  | resumed {p : Progress} {c : Connection} {w : Wire} :
    Moment c₀ w₀ p c w → Moment c₀ w₀ (p.after (c.send w).1) (c.resume w).2.1 (c.resume w).2.2

/-- What holds at a moment of the delivery of the bytes `full` to a client that had been sent
`before`: nothing is lost, repeated or out of order. -/
structure Faithful (full before : Bytes) (p : Progress) (c : Connection) (w : Wire) : Prop where
  /-- the bytes accepted so far are the first `sent` of the whole -/
  accepted : p ≠ .complete → w.outbound = before ++ full.take c.delivery.plan.sent
  /-- a delivery reported complete is complete, and stays so -/
  finished : p = .complete → w.outbound = before ++ full
  /-- no counter goes beyond the length of the whole -/
  counters : p ≠ .complete → c.delivery.plan.total = full.length ∧
    c.delivery.plan.sent ≤ c.delivery.plan.total ∧
    c.delivery.plan.headStart ≤ c.delivery.plan.headStop ∧
    c.delivery.plan.headStop ≤ c.delivery.plan.total ∧
    c.delivery.plan.fileStart ≤ c.delivery.plan.total
  /-- the two pieces offered hold together what has not been sent -/
  offered : p = .underway → c.delivery.headRest.length + c.delivery.fileRest.length =
    c.delivery.plan.total - c.delivery.plan.sent
  /-- so they are never both empty before the end -/
  notEmpty : p = .underway → ¬ c.delivery.plan.isComplete →
    ¬ (c.delivery.headRest = [] ∧ c.delivery.fileRest = [])
  /-- a write that accepts nothing changes nothing of the connection, and the call says so -/
  blocked : ¬ c.delivery.plan.isComplete → ∀ w',
    w.write c.delivery.offered = (.accepted 0, w') ∨
      w.write c.delivery.offered = (.wouldBlock, w') →
    c.send w = (.ok .pending, c, w') ∧ c.resume w = (.write, c, w')
  /-- an interrupted write is made again -/
  interrupted : p = .underway → ¬ c.delivery.plan.isComplete →
    c.send { w with writes := some (.fail .interrupted) :: w.writes } = c.send w
  /-- a call reports the end exactly when all of head and file has been accepted -/
  complete_iff : (∃ keep, (c.send w).1 = .ok (.complete keep)) ↔
    (c.send w).2.2.outbound = before ++ full

/-- The invariant of a delivery: until a call has reported the end, counters and bytes accepted are
in step, and the file is held unless a write has failed. -/
inductive OnCourse (front file before : Bytes) : Progress → Connection → Wire → Prop
  | done {c : Connection} {w : Wire} :
    c.delivery.plan.isComplete → w.outbound = before ++ (front ++ file) →
    OnCourse front file before .complete c w
  | going {p : Progress} {c : Connection} {w : Wire} :
    p ≠ .complete → c.delivery.Underway front file → c.delivery.InStep before (front ++ file) w →
    (p = .underway → c.delivery.file.getD [] = file) → OnCourse front file before p c w

variable {front file before : Bytes} {p : Progress} {c : Connection} {w w' : Wire}

/-- A call that leaves something to send does not change how far the calls have come. -/
theorem Progress.after_pending (hp : p ≠ .complete) : p.after (.ok .pending) = p := by
  cases p with
  | underway => rfl
  | failed => rfl
  | complete => exact absurd rfl hp

/-- A call that fails before the end makes the delivery a failed one. -/
theorem Progress.after_error (hp : p ≠ .complete) (e : ServerError) :
    p.after (.error e) = .failed := by
  cases p with
  | underway => rfl
  | failed => rfl
  | complete => exact absurd rfl hp

/-- With nothing left to send a call reports the end and leaves the wire alone. -/
theorem send_of_isComplete (hc : c.delivery.plan.isComplete) :
    (c.send w).1 = .ok (.complete c.keepAlive) ∧ (c.send w).2.1.delivery.plan.isComplete ∧
      (c.send w).2.2 = w := by
  have hsend : c.delivery.send w = (.complete, c.delivery.release, w) := by
    rw [Delivery.send, dif_pos hc]
  have hkeep : { c with delivery := c.delivery.release }.keepAlive = c.keepAlive := rfl
  simp only [send, hsend, hkeep]
  split
  · rename_i hk
    exact ⟨by rw [hk], rfl, rfl⟩
  · rename_i hk
    exact ⟨by rw [Bool.eq_false_iff.mpr hk], hc, rfl⟩

/-- What is known of a delivery depends on the bytes accepted and not on the rest of the wire, so
whatever happens elsewhere between two calls keeps it. -/
theorem OnCourse.congr (h : OnCourse front file before p c w) (hw : w'.outbound = w.outbound) :
    OnCourse front file before p c w' := by
  cases h with
  | done hc hout => exact .done hc (hw.trans hout)
  | going hp hd hs hkept => exact .going hp hd (hw.trans hs) hkept

/-- **A call keeps the delivery on its course.** Its writes are taken through the invariant by
`Writes.inStep`; what is left are the three ways in which an attempt ends. After a failure the
counters stay in step, although the file is gone. -/
theorem OnCourse.send (h : OnCourse front file before p c w) :
    OnCourse front file before (p.after (c.send w).1) (c.send w).2.1 (c.send w).2.2 := by
  cases h with
  | done hc hout =>
    obtain ⟨hresult, hc', hw⟩ := send_of_isComplete (w := w) hc
    rw [hresult, hw]
    exact .done hc' hout
  | going hp hd hs hkept =>
    obtain ⟨d, w₁, hwrites, hcases⟩ := c.send_cases w
    obtain ⟨hd₁, hs₁⟩ := hwrites.inStep hd hs
    rcases hcases with ⟨hc, hsend⟩ | ⟨hc, w', hw, hsend⟩ | ⟨hc, w', reason, hw, hsend⟩
    · obtain ⟨hresult, hw⟩ : (c.send w).1 = .ok (.complete c.keepAlive) ∧ (c.send w).2.2 = w₁ := by
        rw [hsend]
        exact ⟨rfl, rfl⟩
      rw [hresult, hw]
      refine .done ?_ (hs₁.complete hd₁ hc)
      rw [hsend]
      dsimp only
      split
      · rfl
      · exact hc
    · rw [hsend]
      dsimp only
      rw [Progress.after_pending hp]
      refine .going hp hd₁ (hs₁.congr (Wire.write_nothing hw)) ?_
      intro hpu
      rw [hwrites.file_eq]
      exact hkept hpu
    · rw [hsend]
      dsimp only
      rw [Progress.after_error hp]
      refine .going (by decide) hd₁.release (hs₁.congr (Wire.write_failed hw)) ?_
      intro hpu
      cases hpu

/-- A call that does not report the end has left something out. -/
theorem OnCourse.complete_iff (h : OnCourse front file before p c w) :
    (∃ keep, (c.send w).1 = .ok (.complete keep)) ↔
      (c.send w).2.2.outbound = before ++ (front ++ file) := by
  cases h with
  | done hc hout =>
    obtain ⟨hresult, -, hw⟩ := send_of_isComplete (w := w) hc
    rw [hresult, hw]
    exact ⟨fun _ => hout, fun _ => ⟨_, rfl⟩⟩
  | going hp hd hs hkept =>
    obtain ⟨d, w₁, hwrites, hcases⟩ := c.send_cases w
    obtain ⟨hd₁, hs₁⟩ := hwrites.inStep hd hs
    rcases hcases with ⟨hc, hsend⟩ | ⟨hc, w', hw, hsend⟩ | ⟨hc, w', reason, hw, hsend⟩
    · rw [hsend]
      exact ⟨fun _ => hs₁.complete hd₁ hc, fun _ => ⟨_, rfl⟩⟩
    · rw [hsend]
      refine ⟨fun ⟨keep, hk⟩ => ?_, fun hout => ?_⟩
      · cases hk
      · exact absurd hout ((hs₁.congr (Wire.write_nothing hw)).incomplete hd₁ hc)
    · rw [hsend]
      refine ⟨fun ⟨keep, hk⟩ => ?_, fun hout => ?_⟩
      · cases hk
      · exact absurd hout ((hs₁.congr (Wire.write_failed hw)).incomplete hd₁ hc)

/-- The invariant holds at every moment, by induction on how the moment is reached. Calls of `send`
and of `resume` are the same here, since the latter sends and then only says what is to be waited
for. -/
theorem Moment.onCourse {c₀ : Connection} {w₀ : Wire}
    (h₀ : OnCourse front file before .underway c₀ w₀) (hm : Moment c₀ w₀ p c w) :
    OnCourse front file before p c w := by
  induction hm with
  | laidOut => exact h₀
  | meanwhile _ hw ih => exact ih.congr hw
  | wrote _ hc hwrite ih =>
    cases ih with
    | done hc' _ => exact absurd hc' hc
    | going hp hd hs hkept =>
      obtain ⟨hd', hs'⟩ := hs.advance hd hwrite
      exact .going hp hd' hs' hkept
  | sent _ ih => exact ih.send
  | resumed _ ih => exact ih.send

/-- What the invariant says in terms of what can be observed: what has been accepted, what the
counters are, what the two pieces are and how long, and when the end is reported. -/
theorem OnCourse.faithful (h : OnCourse front file before p c w) :
    Faithful (front ++ file) before p c w := by
  have hblocked : ¬ c.delivery.plan.isComplete → ∀ w',
      w.write c.delivery.offered = (.accepted 0, w') ∨
        w.write c.delivery.offered = (.wouldBlock, w') →
      c.send w = (.ok .pending, c, w') ∧ c.resume w = (.write, c, w') := by
    intro hc w' hw
    have hsend : c.send w = (.ok .pending, c, w') := by
      rw [Connection.send, Delivery.send_of_nothing hc hw]
    exact ⟨hsend, by rw [resume, hsend]; rfl⟩
  have hiff := h.complete_iff
  cases h with
  | done hc hout =>
    exact
      { accepted := fun hp => absurd rfl hp
        finished := fun _ => hout
        counters := fun hp => absurd rfl hp
        offered := fun hp => by cases hp
        notEmpty := fun hp => by cases hp
        blocked := hblocked
        interrupted := fun hp => by cases hp
        complete_iff := hiff }
  | going hp hd hs hkept =>
    -- while it is under way, what is offered is what is not counted as sent
    have hlen : p = .underway → c.delivery.headRest.length + c.delivery.fileRest.length =
        c.delivery.plan.total - c.delivery.plan.sent := by
      intro hpu
      rw [← List.length_append, ← Delivery.flatten_offered, hd.flatten_offered_eq (hkept hpu),
        List.length_drop, hd.total]
    have hleft : p = .underway → ¬ c.delivery.plan.isComplete →
        ¬ (c.delivery.headRest = [] ∧ c.delivery.fileRest = []) := by
      rintro hpu hc ⟨hhead, hfile⟩
      have hzero := hlen hpu
      rw [hhead, hfile, List.length_nil] at hzero
      have := hd.sent_le_total
      exact hc (decide_eq_true (by omega))
    refine
      { accepted := fun _ => hs
        finished := fun hp' => absurd hp' hp
        counters := fun _ => ⟨hd.total, hd.sent_le_total, ?_, ?_, ?_⟩
        offered := hlen
        notEmpty := hleft
        blocked := hblocked
        interrupted := ?_
        complete_iff := hiff }
    · exact hd.headStop ▸ hd.headStart_le
    · rw [hd.headStop, hd.total, List.length_append]
      omega
    · rw [hd.total, List.length_append]
      have := hd.fileStart_le
      omega
    · intro hpu hc
      have hne : c.delivery.offered.flatten ≠ [] := by
        rw [Delivery.flatten_offered]
        intro hnil
        exact hleft hpu hc (List.append_eq_nil_iff.mp hnil)
      simp only [Connection.send]
      rw [Delivery.send_congr hc (Wire.write_interrupted w hne)]

/-- A response that has just been laid out is on its way. -/
theorem OnCourse.laidOut {c₀ : Connection} {r : Resolution} {d : Delivery}
    (hlay : c₀.delivery.lay? r c₀.keepAlive = some d) (w₀ : Wire) :
    OnCourse (Response.head r c₀.keepAlive ++ .ofText r.page)
      (r.file?.getD []) w₀.outbound .underway
      { c₀ with delivery := d } w₀ := by
  obtain ⟨hd, hsent, hfile⟩ := Delivery.lay?_eq_some hlay
  refine .going (by decide) hd ?_ fun _ => by rw [hfile]
  rw [Delivery.InStep, hsent, List.take_zero, List.append_nil]

/-- **Exact delivery.** Whatever response has been laid out, and however the writes of the calls
that follow come out, the client has at every moment been sent the first `sent` bytes of head and
file, and the end is reported exactly when it has been sent all of them. -/
theorem Moment.exact_delivery {c₀ : Connection} {r : Resolution} {d : Delivery} {w₀ : Wire}
    (hlay : c₀.delivery.lay? r c₀.keepAlive = some d)
    (hm : Moment { c₀ with delivery := d } w₀ p c w) :
    Faithful (Response.head r c₀.keepAlive ++ r.body) w₀.outbound p c w := by
  rw [Resolution.body, ← List.append_assoc]
  exact (hm.onCourse (.laidOut hlay w₀)).faithful

/-- A wire on which the first attempt to send is interrupted once and ends after 83 bytes. -/
def cutWire : Wire where
  writes := [some (.limit 5), some (.fail .interrupted), some (.limit 78), some (.fail .wouldBlock)]
  stream := some {}

/-- A response of 82 bytes of head and three bytes of file. -/
def cutDelivery : Delivery := ((({} : Connection).delivery.lay? (.found [1, 2, 3]) false).getD {})

/-- The first attempt ends inside the file, one byte of which has been accepted. -/
theorem exact_delivery_cut :
    ({} : Connection).delivery.lay? (.found [1, 2, 3]) false = some cutDelivery ∧
      (({ delivery := cutDelivery } : Connection).send cutWire).2.1.delivery.plan.fileStart = 1 ∧
      Faithful (Response.head (.found [1, 2, 3]) false ++ (Resolution.found [1, 2, 3]).body)
        cutWire.outbound .underway (({ delivery := cutDelivery } : Connection).send cutWire).2.1
        (({ delivery := cutDelivery } : Connection).send cutWire).2.2 := by
  have hlay : ({} : Connection).delivery.lay? (.found [1, 2, 3]) ({} : Connection).keepAlive =
      some cutDelivery := by decide +kernel
  have hpending : Progress.after .underway
      (({ delivery := cutDelivery } : Connection).send cutWire).1 = .underway := by decide +kernel
  have hm : Moment { ({} : Connection) with delivery := cutDelivery } cutWire
      (Progress.after .underway (({ delivery := cutDelivery } : Connection).send cutWire).1)
      (({ delivery := cutDelivery } : Connection).send cutWire).2.1
      (({ delivery := cutDelivery } : Connection).send cutWire).2.2 := .sent .laidOut
  rw [hpending] at hm
  have hfaithful := Moment.exact_delivery hlay hm
  exact ⟨hlay, by decide +kernel, hfaithful⟩

end Connection

end FileServer
