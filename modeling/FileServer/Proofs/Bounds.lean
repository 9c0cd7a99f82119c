import FileServer.Proofs.Request.Checked
import FileServer.Proofs.Reuse

/-!
# Within bounds

Whatever is done to a connection, and whatever the reads and writes on its descriptor return, its
cursors stay where they should (`Connection.Bounded`): those of the reader
(`Request.Reader.Bounded`), and those of the delivery, where no more is counted as sent than there
is to send (`Delivery.Bounded`). So every operation can be done with all accesses checked, and comes
to the same (`Connection.within_bounds`).

A write accepts at most what it is offered. What is offered is what is left of the head and of the
file, and that is never more than what is left of the whole: it is less once a write has failed, as
the file is given up then.

For each operation there is a checked one (`Connection.perform?` and what it is made of), which has
no result where an access would be out of bounds. The bounds are kept by the plain operations
(`Connection.Bounded`), and where they hold the checked operation comes to the same as the plain
one. Both are shown for each part of a connection and then for its operations one by one.
-/

namespace FileServer

/-! ## Deliveries

A delivery has three cursors, two in its head and one in its file. What is accepted of a write moves
them, and a write is offered no more than they leave. -/

namespace Delivery

variable {d d' : Delivery}

/-- How many bytes are left of head and file. -/
def left (d : Delivery) : Nat :=
  (d.plan.headStop - d.plan.headStart) + ((d.file.getD []).length - d.plan.fileStart)

/-- Where the cursors of a delivery stand. -/
structure Bounded (d : Delivery) : Prop where
  capacity : d.head.capacity = headCapacity
  used_le : d.head.used ≤ headCapacity
  headStart_le : d.plan.headStart ≤ d.plan.headStop
  headStop_le : d.plan.headStop ≤ headCapacity
  fileStart_le : ∀ file, d.file = some file → d.plan.fileStart ≤ file.length
  /-- what is left has not been sent yet -/
  left_le : d.plan.sent + d.left ≤ d.plan.total

namespace Bounded

/-- No more is counted as sent than there is. -/
theorem sent_le (hd : d.Bounded) : d.plan.sent ≤ d.plan.total :=
  Nat.le_trans (Nat.le_add_right ..) hd.left_le

/-- A delivery that has not begun has nothing left and nothing to send. -/
theorem new : ({} : Delivery).Bounded where
  capacity := List.length_replicate
  used_le := Nat.zero_le _
  headStart_le := Nat.le_refl _
  headStop_le := Nat.zero_le _
  fileStart_le := fun _ h => nomatch h
  left_le := Nat.le_refl _

/-- To start afresh needs nothing of what was before, except that the buffer for heads is of its
size. -/
theorem reset (h : d.head.capacity = headCapacity) : d.reset.Bounded where
  capacity := h
  used_le := Nat.zero_le _
  headStart_le := Nat.le_refl _
  headStop_le := Nat.zero_le _
  fileStart_le := fun _ h => nomatch h
  left_le := Nat.le_refl _

/-- To let go of the file leaves less to offer and the counters where they are. From here on
`left_le` is no equation: what is missing is what will never be offered any more. -/
theorem release (hd : d.Bounded) : d.release.Bounded := by
  have hless : d.release.left ≤ d.left := by
    have hnone : (d.release.file.getD []).length = 0 := rfl
    rw [left, left, hnone, Nat.zero_sub]
    exact Nat.add_le_add_left (Nat.zero_le _) _
  exact { hd with
    fileStart_le := fun _ h => nomatch h
    left_le := Nat.le_trans (Nat.add_le_add_left hless _) hd.left_le }

/-- The head goes, and the plan stays. -/
theorem clear (hd : d.Bounded) : Bounded { d with head := d.head.clear } :=
  { hd with used_le := Nat.zero_le _ }

/-- What one write is offered is what is left. -/
theorem length_offered (hd : d.Bounded) : d.headRest.length + d.fileRest.length = d.left := by
  have hin : Window.Within ⟨d.plan.headStart, d.plan.headStop⟩ d.head.capacity :=
    ⟨hd.headStart_le, hd.capacity ▸ hd.headStop_le⟩
  rw [headRest, fileRest, Buffer.length_slice hin, List.length_drop, left]

/-- A write accepts no more than what is left. -/
theorem accepted_le (hd : d.Bounded) {w w' : Wire} {n : Nat}
    (h : w.write [d.headRest, d.fileRest] = (.accepted n, w')) : n ≤ d.left := by
  have hle := (Wire.write_accepted h).1
  rw [← hd.length_offered]
  simpa using hle

/-- **The counters move within bounds.** What is accepted is first taken off the head and then off
the file, so both cursors stay before their ends, and what is left shrinks by just as much as what
is sent grows. -/
theorem advance (hd : d.Bounded) {n : Nat} (hn : n ≤ d.left) : (d.advance n).Bounded := by
  have hhead := hd.headStart_le
  have hleft := hd.left_le
  have hsame : (d.advance n).plan.headStop = d.plan.headStop := by
    simp only [Delivery.advance, Plan.advance]
    split <;> rfl
  refine { hd with
    headStart_le := ?_, headStop_le := ?_, fileStart_le := fun file hfile => ?_, left_le := ?_ }
  · simp only [Delivery.advance, Plan.advance]
    split
    · dsimp only
      omega
    · exact Nat.le_refl _
  · rw [hsame]
    exact hd.headStop_le
  · have hfile' := hd.fileStart_le file hfile
    have hlength : (d.file.getD []).length = file.length :=
      congrArg (fun f => (f.getD []).length) hfile
    rw [left, hlength] at hn
    simp only [Delivery.advance, Plan.advance]
    split
    · exact hfile'
    · dsimp only
      omega
  · simp only [left, Delivery.advance, Plan.advance] at hn hleft ⊢
    split
    · dsimp only
      omega
    · dsimp only
      omega

/-- An attempt to send keeps the bounds, by induction along its writes. -/
theorem send (hd : d.Bounded) (w : Wire) : (d.send w).2.1.Bounded := by
  fun_induction Delivery.send d w with
  | case1 => exact hd.release
  | case2 => exact hd
  | case3 d w hc n w' hw ih => exact ih (hd.advance (hd.accepted_le hw))
  | case4 => exact hd
  | case5 => exact hd.release

/-- A response that has been laid out starts within the bounds: no cursor has moved yet, and head
and file together are what is to be sent. -/
theorem lay? (hd : d.Bounded) {r : Resolution} {keepAlive : Bool}
    (h : d.lay? r keepAlive = some d') :
    d'.Bounded := by
  obtain ⟨hfits, hcapacity⟩ := fits_lay? h
  obtain ⟨-, -, hfile⟩ := lay?_eq_some h
  have hused : d'.head.used ≤ headCapacity := (hcapacity.trans hd.capacity) ▸ hfits
  have hplan : d'.plan = .ofLengths d'.head.used (r.file?.getD []).length := by
    simp only [Delivery.lay?, Option.bind_eq_bind, Option.bind_eq_some_iff] at h
    obtain ⟨b₁, -, b₂, -, hd'⟩ := h
    obtain rfl := Option.some.inj hd'
    rfl
  refine ⟨hcapacity.trans hd.capacity, hused, ?_, ?_, fun _ _ => ?_, ?_⟩
  · rw [hplan]
    exact Nat.zero_le _
  · rw [hplan]
    exact hused
  · rw [hplan]
    exact Nat.zero_le _
  · rw [left, hplan, hfile]
    exact Nat.le_of_eq (Nat.zero_add _)

end Bounded

end Delivery

/-! ## Checked reading and sending

The two loops of a connection, of reads and of writes, are written out with every access checked and
with a bound on the rounds. The bound is met, as every read takes up room and every write that is
accepted leaves less to send. -/

/-- Fills the buffer with a number of reads at most. There is no result if more are made. -/
def Request.Reader.fillWithin? : (reads : Nat) → Request.Reader → Wire →
    Option (Bool × Request.Reader × Wire)
  | 0, _, _ => none
  | reads + 1, r, w =>
    if r.input.capacity ≤ r.input.used then some (true, r, w)
    else do
      let room ← minus? r.input.capacity r.input.used
      match w.read room with
      | (.data [], w) => some (false, r, w)
      | (.data (b :: bytes), w) =>
        let input ← r.input.overwrite? r.input.used (b :: bytes)
        fillWithin? reads
          { r with input := { input with used := input.used + (b :: bytes).length } } w
      | (.wouldBlock, w) => some (true, r, w)
      | (.failed _, w) => some (false, r, w)

/-- Filling the buffer stays within it, and comes to an end. -/
theorem Request.Reader.fillWithin?_eq {reads : Nat} {r : Request.Reader} (hr : r.input.Fits)
    (h : r.input.room < reads) (w : Wire) : fillWithin? reads r w = some (r.fill w) := by
  induction reads generalizing r w with
  | zero => exact absurd h (Nat.not_lt_zero _)
  | succ reads ih =>
    rw [fillWithin?, Reader.fill.eq_def]
    by_cases hfull : r.input.capacity ≤ r.input.used
    · rw [if_pos hfull, dif_pos hfull]
    · rw [if_neg hfull, dif_neg hfull, minus?_eq hr]
      simp only [Option.bind_eq_bind, Option.bind_some]
      have hgiven := w.read_given r.input.room
      rw [Buffer.room] at hgiven ⊢
      generalize w.read (r.input.capacity - r.input.used) = x at hgiven ⊢
      obtain ⟨result, w'⟩ := x
      cases result with
      | wouldBlock => rfl
      | failed reason => rfl
      | data bytes =>
        cases bytes with
        | nil => rfl
        | cons b bytes =>
          have hfits : r.input.used + (b :: bytes).length ≤ r.input.capacity := by
            have hlength := hgiven.1
            omega
          have hroom := Buffer.room_append_lt (Nat.lt_of_not_le hfull) (List.cons_ne_nil b bytes)
          simp only [Buffer.overwrite?_eq hfits, Option.bind_some]
          exact ih (Buffer.fits_append hfits) (Nat.lt_of_lt_of_le hroom (Nat.le_of_lt_succ h)) w'

/-- Accounts for `n` more bytes. -/
def Plan.advance? (p : Plan) (n : Nat) : Option Plan := do
  let headLeft ← minus? p.headStop p.headStart
  if n < headLeft then some { p with sent := p.sent + n, headStart := p.headStart + n }
  else
    let excess ← minus? n headLeft
    some { p with sent := p.sent + n, headStart := p.headStop, fileStart := p.fileStart + excess }

/-- The two differences that accounting takes do not go below zero, as long as the head's cursor
stands before its end. -/
theorem Plan.advance?_eq {p : Plan} (h : p.headStart ≤ p.headStop) (n : Nat) :
    p.advance? n = some (p.advance n) := by
  rw [advance?, advance, minus?_eq h]
  simp only [Option.bind_eq_bind, Option.bind_some]
  split
  · rfl
  · next hge =>
    rw [minus?_eq (Nat.le_of_not_lt hge)]
    rfl

/-- What is left of the file. -/
def Delivery.fileRest? (d : Delivery) : Option Bytes :=
  match d.file with
  | none => some []
  | some file => if d.plan.fileStart ≤ file.length then some (file.drop d.plan.fileStart) else none

/-- Sends with a number of writes at most. There is no result if more are made. -/
def Delivery.sendWithin? : (writes : Nat) → Delivery → Wire → Option (SendStatus × Delivery × Wire)
  | 0, _, _ => none
  | writes + 1, d, w =>
    if d.plan.isComplete then some (.complete, d.release, w)
    else do
      let head ← d.head.slice? ⟨d.plan.headStart, d.plan.headStop⟩
      let file ← d.fileRest?
      match w.write [head, file] with
      | (.accepted 0, w) => some (.pending, d, w)
      | (.accepted (n + 1), w) =>
        let plan ← d.plan.advance? (n + 1)
        sendWithin? writes { d with plan } w
      | (.wouldBlock, w) => some (.pending, d, w)
      | (.failed reason, w) => some (.failed reason, d.release, w)

/-- The cursor of the file stands within it. -/
theorem Delivery.Bounded.fileRest?_eq {d : Delivery} (hd : d.Bounded) :
    d.fileRest? = some d.fileRest := by
  rw [fileRest?, fileRest]
  cases hfile : d.file with
  | none => exact congrArg some List.drop_nil.symm
  | some file => exact if_pos (hd.fileStart_le file hfile)

/-- Sending stays within the head and the file, and comes to an end. -/
theorem Delivery.Bounded.sendWithin?_eq {writes : Nat} {d : Delivery} (hd : d.Bounded)
    (h : d.plan.total - d.plan.sent < writes) (w : Wire) :
    sendWithin? writes d w = some (d.send w) := by
  induction writes generalizing d w with
  | zero => exact absurd h (Nat.not_lt_zero _)
  | succ writes ih =>
    rw [sendWithin?, Delivery.send.eq_def]
    by_cases hcomplete : d.plan.isComplete = true
    · rw [if_pos hcomplete, dif_pos hcomplete]
    · have hslice : d.head.slice? ⟨d.plan.headStart, d.plan.headStop⟩ = some d.headRest :=
        Buffer.slice?_eq ⟨hd.headStart_le, hd.capacity ▸ hd.headStop_le⟩
      rw [if_neg hcomplete, dif_neg hcomplete, hslice, hd.fileRest?_eq]
      simp only [Option.bind_eq_bind, Option.bind_some, Plan.advance?_eq hd.headStart_le]
      cases hwrite : w.write [d.headRest, d.fileRest] with
      | mk result w' =>
        cases result with
        | wouldBlock => rfl
        | failed reason => rfl
        | accepted n =>
          cases n with
          | zero => rfl
          | succ n =>
            have hnext := hd.advance (hd.accepted_le hwrite)
            refine ih hnext ?_ w'
            rw [Plan.isComplete, decide_eq_true_eq] at hcomplete
            simp only [Delivery.advance, Plan.total_advance, Plan.sent_advance]
            omega

/-! ## Connections

The bounds of a connection are those of its reader and of its delivery. Each operation has one lemma
that it keeps them, and one that its checked form comes to the same. -/

namespace Connection

open Request (Reader Outcome inputCapacity)

variable {c : Connection} {k : Kernel}

/-- Where the cursors of a connection stand. -/
structure Bounded (c : Connection) : Prop where
  reader : c.reader.Bounded
  delivery : c.delivery.Bounded

/-! ### Checked operations -/

/-- Reads all there is. -/
def readAll? (c : Connection) (w : Wire) : Option (Bool × Connection × Wire) :=
  if c.reader.input.capacity ≤ c.reader.input.used then some (false, c, w)
  else do
    let (more, reader, w) ← Reader.fillWithin? (c.reader.input.room + 1) c.reader w
    some (more, { c with reader }, w)

/-- Reads the request as far as it has arrived. -/
def parse? (c : Connection) : Option (Outcome × Connection) := do
  let (outcome, reader) ← Reader.advanceWithin? (inputCapacity + 1) c.reader
  some (outcome, { c with reader })

/-- Sends what is left of the response. -/
def send? (c : Connection) (w : Wire) : Option (Except ServerError Sent × Connection × Wire) := do
  let (status, delivery, w) ←
    Delivery.sendWithin? (c.delivery.plan.total - c.delivery.plan.sent + 1) c.delivery w
  let c := { c with delivery }
  match status with
  | .complete =>
    some (if c.keepAlive then (.ok (.complete true), c.reset, w) else (.ok (.complete false), c, w))
  | .pending => some (.ok .pending, c, w)
  | .failed reason => some (.error (.system reason), c, w)

/-- Resumes the response. -/
def resume? (c : Connection) (w : Wire) : Option (Next × Connection × Wire) := do
  let (sent, c, w) ← c.send? w
  some (afterSend sent, c, w)

/-- Lays out the response and makes the first attempt to send it. -/
def respond? (c : Connection) (r : Resolution) (w : Wire) : Option (Next × Connection × Wire) :=
  if (c.layOut r).1 then (c.layOut r).2.resume? w else some (.close, (c.layOut r).2, w)

/-- The text under a window. -/
def textAt? (c : Connection) (w : Window) : Option String := do
  let bytes ← c.reader.input.slice? w
  some (bytes.text?.getD "")

/-- Something that a connection does through its descriptor. -/
def onWire? {α : Type} (f : Connection → Wire → Option (α × Connection × Wire)) (c : Connection)
    (k : Kernel) : Option (α × Connection × Kernel) := do
  let (result, c', w) ← f c (k.wire c.descriptor)
  some (result, c', k.putWire c.descriptor w)

/-- Reads what has arrived of a request, and answers it if it is all there. -/
def process? (root : String) (c : Connection) (k : Kernel) :
    Option (Next × Connection × Kernel) := do
  let (outcome, c) ← c.parse?
  match outcome with
  | .incomplete => some (.read, c, k)
  | .malformed => onWire? (·.respond? .badRequest) c k
  | .complete =>
    let target ← c.textAt? c.reader.fields.target
    let (r, k) := k.locate root target
    onWire? (·.respond? r) c k

/-- Does one operation. -/
def Operation.perform? (c : Connection) (k : Kernel) :
    Operation → Option (Report × Connection × Kernel)
  | readAll => (onWire? Connection.readAll? c k).map fun (more, c, k) => (.read more, c, k)
  | parse => c.parse?.map fun (outcome, c) => (.parsed outcome, c, k)
  | send => (onWire? Connection.send? c k).map fun (result, c, k) => (.sent result, c, k)
  | resume => (onWire? Connection.resume? c k).map fun (next, c, k) => (.next next, c, k)
  | process root => (process? root c k).map fun (next, c, k) => (.next next, c, k)
  | op => some (op.perform c k)

/-- What can be seen of a connection. -/
def view? (c : Connection) : Option View := do
  let target ← c.textAt? c.reader.fields.target
  let version ← c.textAt? c.reader.fields.version
  let host ← c.textAt? c.reader.fields.host
  let head ← c.delivery.head.slice? ⟨0, c.delivery.head.used⟩
  some { c.view with target, version, host, head }

/-! ### No operation leaves the bounds -/

namespace Bounded

theorem new : ({} : Connection).Bounded := ⟨.new, .new⟩

theorem reset (hc : c.Bounded) : c.reset.Bounded :=
  ⟨.reset hc.reader.capacity, .reset hc.delivery.capacity⟩

theorem start (hc : c.Bounded) (descriptor : Int) (peer : Option SocketAddress) :
    (c.start descriptor peer).Bounded :=
  ⟨.reset hc.reader.capacity, .reset hc.delivery.capacity⟩

theorem release (hc : c.Bounded) : c.release.Bounded := ⟨hc.reader, hc.delivery.release⟩

/-- Reading moves the reader's cursors only. -/
theorem readAll (hc : c.Bounded) (w : Wire) : (c.readAll w).2.1.Bounded := by
  rw [Connection.readAll]
  split
  · exact hc
  · exact ⟨(hc.reader.fill w).1, hc.delivery⟩

theorem parse (hc : c.Bounded) : c.parse.2.Bounded := ⟨hc.reader.advance.1, hc.delivery⟩

/-- Laying out a response moves the delivery's cursors only. A response that does not fit leaves an
empty head and no file. -/
theorem layOut (hc : c.Bounded) (r : Resolution) : (c.layOut r).2.Bounded := by
  rw [Connection.layOut]
  split
  · exact ⟨hc.reader, hc.delivery.clear.release⟩
  · next hlay => exact ⟨hc.reader, hc.delivery.lay? hlay⟩

/-- An attempt to send moves the delivery's cursors, and may take the whole connection back to its
start. -/
theorem send (hc : c.Bounded) (w : Wire) : (c.send w).2.1.Bounded := by
  have hsent : ({ c with delivery := (c.delivery.send w).2.1 } : Connection).Bounded :=
    ⟨hc.reader, hc.delivery.send w⟩
  rw [Connection.send]
  split
  · next h =>
    rw [h] at hsent
    dsimp only
    split
    · exact hsent.reset
    · exact hsent
  · next h =>
    rw [h] at hsent
    exact hsent
  · next h =>
    rw [h] at hsent
    exact hsent

theorem resume (hc : c.Bounded) (w : Wire) : (c.resume w).2.1.Bounded := hc.send w

/-- To respond is to lay out and to send. -/
theorem respond (hc : c.Bounded) (r : Resolution) (w : Wire) : (c.respond r w).2.1.Bounded := by
  rw [respond_eq]
  split
  · exact (hc.layOut r).resume w
  · exact hc.layOut r

/-- To answer a request is to find out how, and to respond. -/
theorem answer (hc : c.Bounded) (root : String) (outcome : Outcome) (k : Kernel) :
    (Hub.answer root outcome c k).2.1.Bounded := by
  rw [Hub.answer]
  split
  · exact hc
  · dsimp only
    rw [Hub.onWire_eq]
    exact hc.respond _ _

/-- **One operation keeps the bounds**: one case for each operation, by the lemma for it. -/
theorem perform (hc : c.Bounded) (k : Kernel) (op : Operation) : (op.perform c k).2.1.Bounded := by
  cases op with
  | start descriptor peer => exact hc.start descriptor peer
  | reset => exact hc.reset
  | readAll => exact hc.readAll _
  | parse => exact hc.parse
  | layOut r => exact hc.layOut r
  | send => exact hc.send _
  | resume => exact hc.resume _
  | process root => exact hc.parse.answer root _ k
  | close =>
    simp only [Operation.perform]
    split
    · exact hc.release
    · exact hc
  | meanwhile change => exact hc

theorem after (hc : c.Bounded) (k : Kernel) (operations : List Operation) :
    (c.after k operations).1.Bounded := by
  induction operations generalizing c k with
  | nil => exact hc
  | cons op rest ih => exact ih (hc.perform k op) _

/-! ### All accesses are within bounds -/

/-- Reading makes at most one read more than there is room for bytes, since each one but the last
fills some of it. -/
theorem readAll?_eq (hc : c.Bounded) (w : Wire) : c.readAll? w = some (c.readAll w) := by
  rw [readAll?, Connection.readAll]
  split
  · rfl
  · rw [Reader.fillWithin?_eq hc.reader.fits (Nat.lt_succ_self _)]
    rfl

/-- Reading on takes at most one round more than the buffer has bytes. -/
theorem parse?_eq (hc : c.Bounded) : c.parse? = some c.parse := by
  have hrounds : c.reader.input.used - c.reader.scanned < inputCapacity + 1 :=
    Nat.lt_succ_of_le (Nat.le_trans (Nat.sub_le ..) hc.reader.used_le)
  rw [parse?, Connection.parse, hc.reader.advanceWithin?_eq hrounds]
  rfl

/-- Sending makes at most one write more than there are bytes to send. -/
theorem send?_eq (hc : c.Bounded) (w : Wire) : c.send? w = some (c.send w) := by
  rw [send?, Connection.send, hc.delivery.sendWithin?_eq (Nat.lt_succ_self _)]
  simp only [Option.bind_eq_bind, Option.bind_some]
  generalize c.delivery.send w = x
  obtain ⟨status, delivery, w'⟩ := x
  cases status with
  | complete => rfl
  | pending => rfl
  | failed reason => rfl

/-- To resume is to send and then to say what is to be waited for. -/
theorem resume?_eq (hc : c.Bounded) (w : Wire) : c.resume? w = some (c.resume w) := by
  rw [resume?, Connection.resume, hc.send?_eq]
  rfl

/-- The response is laid out whether accesses are checked or not; what is checked is the sending. -/
theorem respond?_eq (hc : c.Bounded) (r : Resolution) (w : Wire) :
    c.respond? r w = some (c.respond r w) := by
  rw [respond?, respond_eq]
  split
  · exact (hc.layOut r).resume?_eq w
  · rfl

/-- A text that has been found stands in the buffer. -/
theorem textAt?_eq (hc : c.Bounded) {w : Window} (hw : w.Within c.reader.lineStart) :
    c.textAt? w = some (c.reader.textAt w) := by
  have hin := hw.mono (Nat.le_trans hc.reader.lineStart_le
    (Nat.le_trans hc.reader.scanned_le hc.reader.fits))
  rw [textAt?, Buffer.slice?_eq hin]
  rfl

/-- Whatever can be seen of a connection is in its buffers: the three texts that have been found of
the request, and the head of the response. -/
theorem view?_eq (hc : c.Bounded) : c.view? = some c.view := by
  have hhead : c.delivery.head.slice? ⟨0, c.delivery.head.used⟩ = some c.delivery.head.content :=
    Buffer.slice?_eq ⟨Nat.zero_le _, hc.delivery.capacity ▸ hc.delivery.used_le⟩
  rw [view?, hc.textAt?_eq hc.reader.target, hc.textAt?_eq hc.reader.version,
    hc.textAt?_eq hc.reader.host, hhead]
  rfl

/-- What is checked of an operation may be checked of it together with the kernel. -/
theorem onWire?_eq {α : Type} {f : Connection → Wire → Option (α × Connection × Wire)}
    {g : Connection → Wire → α × Connection × Wire} (h : ∀ w, f c w = some (g c w)) (k : Kernel) :
    onWire? f c k = some (Hub.onWire g c k) := by
  rw [onWire?, h, Hub.onWire_eq]
  rfl

/-- To process a request is to read on and to respond. The target that a complete request has is
looked up, so here the text of a window counts that stands before the current line. -/
theorem process?_eq (hc : c.Bounded) (root : String) (k : Kernel) :
    process? root c k = some (Hub.process root c k) := by
  have hparsed := hc.parse
  rw [process?, Hub.process, hc.parse?_eq]
  simp only [Option.bind_eq_bind, Option.bind_some]
  generalize c.parse = x at hparsed
  obtain ⟨outcome, c'⟩ := x
  have hrespond : ∀ (r : Resolution) (k : Kernel),
      onWire? (·.respond? r) c' k = some (Hub.onWire (·.respond r) c' k) :=
    fun r k => onWire?_eq (f := (·.respond? r)) (g := (·.respond r)) (hparsed.respond?_eq r) k
  cases outcome with
  | incomplete => rfl
  | malformed =>
    dsimp only
    rw [hrespond, Hub.answer, if_neg Outcome.noConfusion]
    rfl
  | complete =>
    dsimp only
    rw [hparsed.textAt?_eq hparsed.reader.target, Option.bind_some, hrespond, Hub.answer,
      if_neg Outcome.noConfusion, Hub.resolve, Reader.target]

/-- **One operation looks at nothing out of bounds**: one case for each operation. -/
theorem perform?_eq (hc : c.Bounded) (k : Kernel) (op : Operation) :
    op.perform? c k = some (op.perform c k) := by
  cases op with
  | readAll => exact congrArg (Option.map _) (onWire?_eq hc.readAll?_eq k)
  | parse => exact congrArg (Option.map _) hc.parse?_eq
  | send => exact congrArg (Option.map _) (onWire?_eq hc.send?_eq k)
  | resume => exact congrArg (Option.map _) (onWire?_eq hc.resume?_eq k)
  | process root => exact congrArg (Option.map _) (hc.process?_eq root k)
  | _ => rfl

end Bounded

/-! ### What has been found stays -/

/-- Whether an operation takes the connection back to the start of a request. -/
def Operation.StartsAfresh (c : Connection) (k : Kernel) : Operation → Prop
  | start _ _ => True
  | reset => True
  | send => (c.send (k.wire c.descriptor)).1 = .ok (.complete true)
  | resume => (c.resume (k.wire c.descriptor)).1 = .read
  | process root => c.parse.1 ≠ .incomplete ∧ (Hub.process root c k).1 = .read
  | _ => False

/-- None of some operations takes the connection back to the start of a request. -/
def GoesOn (c : Connection) (k : Kernel) : List Operation → Prop
  | [] => True
  | op :: rest => ¬ op.StartsAfresh c k ∧ GoesOn (op.perform c k).2.1 (op.perform c k).2.2 rest

/-- An attempt to send that does not make the connection start afresh leaves the reader alone. -/
theorem reader_send (c : Connection) (w : Wire) (h : (c.send w).1 ≠ .ok (.complete true)) :
    (c.send w).2.1.reader = c.reader := by
  rw [send] at h ⊢
  generalize c.delivery.send w = x at h ⊢
  obtain ⟨status, delivery, w'⟩ := x
  cases status with
  | complete =>
    dsimp only at h ⊢
    split at h
    · exact absurd rfl h
    · next hclose =>
      rw [if_neg hclose]
  | pending => rfl
  | failed reason => rfl

theorem reader_resume (c : Connection) (w : Wire) (h : (c.resume w).1 ≠ .read) :
    (c.resume w).2.1.reader = c.reader := by
  exact c.reader_send w fun hkept => h (congrArg afterSend hkept)

theorem reader_layOut (c : Connection) (r : Resolution) : (c.layOut r).2.reader = c.reader := by
  rw [layOut]
  split <;> rfl

/-- To respond leaves it alone unless more is to be read. -/
theorem reader_respond (c : Connection) (r : Resolution) (w : Wire)
    (h : (c.respond r w).1 ≠ .read) : (c.respond r w).2.1.reader = c.reader := by
  rw [respond_eq] at h ⊢
  split at h
  · next hfits => rw [if_pos hfits, reader_resume _ w h, reader_layOut]
  · next hfits =>
    rw [if_neg hfits]
    exact c.reader_layOut r

/-- To answer leaves it alone in the same case. A request that is not complete is not answered, but
waited for, and then nothing at all has changed. -/
theorem reader_answer (c : Connection) (root : String) (outcome : Outcome) (k : Kernel)
    (h : outcome ≠ .incomplete → (Hub.answer root outcome c k).1 ≠ .read) :
    (Hub.answer root outcome c k).2.1.reader = c.reader := by
  rw [Hub.answer] at h ⊢
  by_cases hwait : outcome = .incomplete
  · rw [if_pos hwait]
  · rw [if_neg hwait] at h ⊢
    simp only [Hub.onWire_eq] at h ⊢
    exact c.reader_respond _ _ (h hwait)

/-- What becomes of the reader by an operation that does not take the connection back to the start
of a request. -/
def Operation.reader (c : Connection) (k : Kernel) : Operation → Reader
  | readAll => (c.readAll (k.wire c.descriptor)).2.1.reader
  | parse => c.reader.advance.2
  | process _ => c.reader.advance.2
  | _ => c.reader

/-- **What becomes of the reader**: it has read more or looked at more, or it is as it was. -/
theorem reader_perform (k : Kernel) {op : Operation} (h : ¬ op.StartsAfresh c k) :
    (op.perform c k).2.1.reader = op.reader c k := by
  cases op with
  | start descriptor peer => exact absurd trivial h
  | reset => exact absurd trivial h
  | readAll =>
    simp only [Operation.perform, Hub.onWire_eq]
    rfl
  | parse => rfl
  | layOut r => exact c.reader_layOut r
  | send =>
    simp only [Operation.perform, Hub.onWire_eq]
    exact c.reader_send _ h
  | resume =>
    simp only [Operation.perform, Hub.onWire_eq]
    exact c.reader_resume _ h
  | process root =>
    exact c.parse.2.reader_answer root c.parse.1 k fun hdone hread => h ⟨hdone, hread⟩
  | close =>
    simp only [Operation.perform]
    split <;> rfl
  | meanwhile change => rfl

/-- What stands before the current line stays until the connection starts afresh. -/
theorem Bounded.kept (hc : c.Bounded) (k : Kernel) {op : Operation} (h : ¬ op.StartsAfresh c k) :
    c.reader.Kept (op.perform c k).2.1.reader := by
  rw [reader_perform k h]
  cases op with
  | readAll =>
    rw [Operation.reader, Connection.readAll]
    split
    · exact .refl _
    · exact (hc.reader.fill _).2
  | parse => exact hc.reader.advance.2
  | process root => exact hc.reader.advance.2
  | _ => exact .refl _

theorem Bounded.kept_after (hc : c.Bounded) (k : Kernel) {operations : List Operation}
    (h : c.GoesOn k operations) : c.reader.Kept (c.after k operations).1.reader := by
  induction operations generalizing c k with
  | nil => exact .refl _
  | cons op rest ih => exact (hc.kept k h.1).trans (ih (hc.perform k op) _ h.2)

/-! ### All of it -/

/-- A connection, with the kernel at hand, of which no operation leaves the bounds. -/
structure WithinBounds (c : Connection) (k : Kernel) : Prop where
  /-- the cursors stand where they should -/
  bounded : c.Bounded
  /-- no more is counted as sent than there is to send -/
  sent : c.delivery.plan.sent ≤ c.delivery.plan.total
  /-- every operation makes accesses within bounds only, and ends -/
  checked : ∀ op : Operation, op.perform? c k = some (op.perform c k)
  /-- so does looking at the connection -/
  seen : c.view? = some c.view
  /-- reading on takes at most one round more than there are bytes that have not been searched -/
  parses : Reader.advanceWithin? (c.reader.input.used - c.reader.scanned + 1) c.reader =
    some c.reader.advance
  /-- the texts that have been found, and all else before the current line, stay as they are until
  the connection starts afresh -/
  stays : ∀ operations, c.GoesOn k operations → ∀ w : Window, w.stop ≤ c.reader.lineStart →
    (c.after k operations).1.reader.input.slice w = c.reader.input.slice w

/-- **No operation leaves the bounds**: whatever has been done to a connection, and whatever reads
and writes have returned, its cursors stand where they should, and whatever is done next looks at
nothing outside of its buffers and of the file, takes no difference below zero, and ends. -/
theorem within_bounds (k : Kernel) (history : List Operation) :
    (({} : Connection).after k history).1.WithinBounds (({} : Connection).after k history).2 := by
  have hc := Bounded.new.after k history
  exact {
    bounded := hc
    sent := hc.delivery.sent_le
    checked := hc.perform?_eq _
    seen := hc.view?_eq
    parses := hc.reader.advanceWithin?_eq (Nat.lt_succ_self _)
    stays := fun _ hgoes _ hw => (hc.kept_after _ hgoes).slice hw }

/-- A reader whose cursor stands beyond the bytes in use is caught. -/
example : Reader.scanLine? { scanned := 1 } = none := by
  decide +kernel

end Connection

end FileServer
