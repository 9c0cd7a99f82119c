import FileServer.Proofs.Request.Resumption

/-!
# A used reader is as good as a new one

The buffer of a connection that starts afresh still holds what was read before. None of it is looked
at again: a reader sees no more than the bytes in use (`Framed.advance_backed`), so whatever its
memory holds, it understands a request as a new reader would that is given the whole of it
(`Heard.agrees`).

`Heard` is what is kept from one arrival to the next: of the request that is being read, these bytes
have come. It holds of a reader that starts afresh, with no bytes; it goes on when bytes are put
into the buffer and when these have been parsed without an outcome.
-/

namespace FileServer.Request

namespace Reader

variable {r : Reader} {u x : Bytes}

/-! ## Memory behind the bytes in use

Whatever stood in the buffer before, reading goes by the bytes in use. -/

/-- The reader with other memory behind the bytes in use. -/
def backed (r : Reader) (rest : Bytes) : Reader := r.withInput (r.input.backed rest)

/-- A byte that may end a line is judged by itself and by the one behind it, if that has
arrived. -/
theorem InOrder.judge_backed (hr : r.InOrder) {pos : Nat} (hpos : pos < r.input.used)
    (rest : Bytes) : (r.backed rest).judge pos =
      ((r.judge pos).1, (r.judge pos).2.backed rest) := by
  have hbyte : ∀ i < r.input.used, (r.backed rest).input.byteAt i = r.input.byteAt i :=
    fun i hi => hr.fits.byteAt_backed hi rest
  have hover : ∀ i, i + 2 ≤ r.input.used → (r.backed rest).input.overwrite i [0, 0] =
      (r.input.overwrite i [0, 0]).backed rest := fun i hi => hr.fits.overwrite_backed hi rest
  have hused : (r.backed rest).input.used = r.input.used := rfl
  have hcr := hbyte pos hpos
  have hprev := hbyte (pos - 1) (by omega)
  by_cases h₁ : r.input.byteAt pos = carriageReturn
  · by_cases hlast : pos + 1 = r.input.used
    · simp only [Reader.judge, hcr, h₁, hused, hlast, if_true]
      rfl
    · have hnext := hbyte (pos + 1) (by omega)
      by_cases h₂ : r.input.byteAt (pos + 1) = lineFeed
      · simp only [Reader.judge, hcr, h₁, hused, hlast, hnext, h₂, hover pos (by omega), if_true,
          if_false]
        rfl
      · simp only [Reader.judge, hcr, h₁, hused, hlast, hnext, h₂, if_true, if_false]
        rfl
  · by_cases h₂ : 0 < pos ∧ r.input.byteAt (pos - 1) = carriageReturn
    · simp only [Reader.judge, hcr, h₁, hprev, h₂, hover (pos - 1) (by omega), if_true, if_false,
        and_self]
      rfl
    · simp only [Reader.judge, hcr, h₁, hprev, h₂, if_false]
      rfl

/-- A search stays within the bytes in use, and so does what it writes over. -/
theorem InOrder.scanLine_backed (hr : r.InOrder) (rest : Bytes) :
    (r.backed rest).scanLine = (r.scanLine.1, r.scanLine.2.backed rest) := by
  have hend : (r.backed rest).lineEnd? = r.lineEnd? := by
    have hcontent : (r.backed rest).input.content = r.input.content := hr.fits.content_backed rest
    rw [lineEnd?, hcontent, lineEnd?]
    rfl
  rw [scanLine_eq, scanLine_eq, hend]
  cases hpos : r.lineEnd? with
  | none => rfl
  | some pos => exact hr.judge_backed (lineEnd?_eq_some hpos).2 rest

/-- The line that is acted on lies before the cursor, hence within the bytes in use. -/
theorem InOrder.takeLine_backed (hr : r.InOrder) (rest : Bytes) :
    (r.backed rest).takeLine = (r.takeLine.1, r.takeLine.2.backed rest) := by
  have hbacked : r.takeLine.2.backed rest = r.takeLine.2.withInput (r.input.backed rest) := by
    rw [backed, (takeLine_cursor r).1]
  rw [hbacked]
  exact hr.takeLine_withInput fun _ hw => hr.fits.slice_backed hw rest

/-- **Reading does not look behind the bytes in use.** Another memory behind them is carried
along, and comes out at the end as it went in. -/
theorem Framed.advance_backed (hr : r.Framed) (rest : Bytes) :
    (r.backed rest).advance = (r.advance.1, r.advance.2.backed rest) := by
  induction r using advance.induct with
  | case1 r hbody =>
    have hbody' : (r.backed rest).phase = .body := hbody
    rw [advance_eq r, if_pos hbody, advance_eq, if_pos hbody']
    rfl
  | case2 r hline r' hmal =>
    have hmal' := hr.toInOrder.scanLine_backed rest
    rw [hmal] at hmal'
    rw [advance_scan hline, advance_scan (show (r.backed rest).phase ≠ .body from hline),
      hmal, hmal']
  -- the search stops at the end of what is read, so what lies behind it is not seen
  | case3 r hline r' hwait =>
    have hwait' := hr.toInOrder.scanLine_backed rest
    rw [hwait] at hwait'
    rw [advance_scan hline, advance_scan (show (r.backed rest).phase ≠ .body from hline), hwait,
      hwait']
  -- the lines are the same, and the reading goes on behind them
  | case4 r hline r' hdone r'' hmore ih =>
    have hdone' := hr.toInOrder.scanLine_backed rest
    have hr' := hr.scanLine
    rw [hdone] at hdone' hr'
    have hmore' := hr'.toInOrder.takeLine_backed rest
    have hr'' := hr'.takeLine
    rw [hmore] at hmore' hr''
    have hgoes : r.advance = r''.advance := by
      rw [advance_scan hline, hdone]
      dsimp only
      rw [if_pos (by rw [hmore]), hmore]
    have hgoes' : (r.backed rest).advance = (r''.backed rest).advance := by
      rw [advance_scan (show (r.backed rest).phase ≠ .body from hline), hdone']
      dsimp only
      rw [if_pos (by rw [hmore']), hmore']
    rw [hgoes, hgoes']
    exact ih hr''
  | case5 r hline r' hdone o r'' hne hstop =>
    have hdone' := hr.toInOrder.scanLine_backed rest
    have hr' := hr.scanLine
    rw [hdone] at hdone' hr'
    have hstop' := hr'.toInOrder.takeLine_backed rest
    rw [hstop] at hstop'
    rw [advance_scan hline, hdone,
      advance_scan (show (r.backed rest).phase ≠ .body from hline), hdone']
    dsimp only
    rw [if_neg (by rw [hstop']; exact hne), hstop', if_neg (by rw [hstop]; exact hne), hstop]

/-- A reader that starts afresh differs from a new one in what lies behind the bytes in use, and in
nothing else. -/
theorem feed_reset_backed (r : Reader) (x : Bytes) :
    (r.reset.feed x).backed (List.replicate (inputCapacity - x.length) 0) =
      ({} : Reader).feed x := by
  have hcontent : (r.reset.feed x).input.content = x :=
    (Buffer.fits_clear r.input).content_append x
  have hblank : (({} : Reader).feed x).input.memory =
      x ++ List.replicate (inputCapacity - x.length) 0 := by
    have hmemory := Buffer.memory_append (Buffer.blank inputCapacity) x
    rw [Buffer.blank, List.drop_replicate, Nat.zero_add] at hmemory
    exact hmemory
  rw [backed, Buffer.backed, hcontent, withInput, feed]
  congr 1
  exact congrArg₂ Buffer.mk hblank.symm rfl

end Reader

/-! ## What has been heard of a request

A connection has heard some bytes of a request if its reader is one that has been given just those,
with any old memory behind them. -/

/-- What a new reader makes of bytes that are all there. -/
def read (q : Bytes) : Outcome × Reader := (({} : Reader).feed q).advance

/-- Two readings come to the same outcome, and have understood the same. -/
structure Agree (a b : Outcome × Reader) : Prop where
  outcome : a.1 = b.1
  fields : a.2.fields = b.2.fields
  target : a.2.target = b.2.target

/-- Of the request that is being read the bytes `u` have come: whatever comes behind them, this
reader makes of it what a new one makes of the whole. -/
structure Heard (r : Reader) (u : Bytes) : Prop where
  framed : r.Framed
  capacity : r.input.capacity = inputCapacity
  used : r.input.used = u.length
  agrees : ∀ x, (u ++ x).length ≤ inputCapacity → Agree (r.feed x).advance (read (u ++ x))

namespace Heard

variable {r : Reader} {u x : Bytes}

/-- A reader that starts afresh has heard nothing. -/
theorem reset (r : Reader) (hcapacity : r.input.capacity = inputCapacity) : Heard r.reset [] := by
  refine ⟨Reader.framed_reset r, hcapacity, rfl, fun x hx => ?_⟩
  have hfits : r.reset.input.used + x.length ≤ r.reset.input.capacity := by
    have hroom : r.reset.input.capacity = inputCapacity := hcapacity
    have hnone : r.reset.input.used = 0 := rfl
    rw [hroom, hnone, Nat.zero_add]
    exact hx
  have hframed := (Reader.framed_reset r).feed hfits
  have hbacked := hframed.advance_backed (List.replicate (inputCapacity - x.length) 0)
  rw [Reader.feed_reset_backed] at hbacked
  have hread : read ([] ++ x) = (((r.reset.feed x).advance).1,
      ((r.reset.feed x).advance).2.backed (List.replicate (inputCapacity - x.length) 0)) := hbacked
  obtain ⟨hafter, -⟩ := hframed.advance
  rw [hread]
  refine ⟨rfl, rfl, ?_⟩
  rw [Reader.target, Reader.target, Reader.textAt, Reader.textAt]
  exact congrArg (fun bytes => (Bytes.text? bytes).getD "")
    (hafter.fits.slice_backed hafter.target_le _).symm

/-- More bytes have come. -/
theorem feed (h : Heard r u) (hx : (u ++ x).length ≤ inputCapacity) :
    Heard (r.feed x) (u ++ x) := by
  have hfits : r.input.used + x.length ≤ r.input.capacity := by
    rw [h.used, h.capacity, ← List.length_append]
    exact hx
  refine ⟨h.framed.feed hfits, (Buffer.capacity_append hfits).trans h.capacity, ?_, fun y hy => ?_⟩
  · rw [Reader.feed, Buffer.used_append, h.used, List.length_append]
  · rw [h.framed.feed_feed, List.append_assoc]
    rw [List.append_assoc] at hy
    exact h.agrees (x ++ y) hy

/-- What has come has been parsed, and is no whole request. -/
theorem advance (h : Heard r u) (hwait : r.advance.1 = .incomplete) : Heard r.advance.2 u := by
  obtain ⟨hframed, hroom⟩ := h.framed.advance
  refine ⟨hframed, hroom.capacity.trans h.capacity, hroom.used.trans h.used, fun x hx => ?_⟩
  have hfeed := h.framed.advance_feed x
  rw [if_pos hwait] at hfeed
  rw [← hfeed]
  exact h.agrees x hx

/-- To parse what has come is to read it in one go: that is `agrees` with nothing more to come. -/
theorem parse (h : Heard r u) (hu : u.length ≤ inputCapacity) : Agree r.advance (read u) := by
  have hnone := h.agrees [] (by rw [List.append_nil]; exact hu)
  rw [h.framed.feed_nil, List.append_nil] at hnone
  exact hnone

end Heard

end FileServer.Request
