import FileServer.Proofs.Phases
import FileServer.Proofs.Reuse

/-!
# How long a file is held

A connection holds a file for as long as it sends it, and no longer. What is in hand after an
operation was in hand before it, or is the file of a response that the operation has laid out
(`Connection.perform_holding`); and whatever ends the response lets go of the file
(`Connection.Operation.Releases.file`). So by induction a file in hand is always that of the
response laid out last (`Connection.HoldsOnly.after`), of which not all has been sent yet
(`Connection.Sound.after`), and one that has been let go of does not come back
(`Connection.file_held_while_sent`).

A connection that is closed can still be made to answer what it has read. It lays out a response
then, as if it were open, and what keeps it from holding on to the file is that the first write
fails: nothing can be written through a negative number.
-/

namespace FileServer

/-! ## Numbers through which nothing can be written

A connection that is closed has a negative number, and nothing stands behind such a number. So a
write through it fails unless a script says otherwise. -/

/-- To set the script of one call leaves those of the others as they are. -/
theorem Scripts.lookup_set_ne {call other : Call} (h : other ≠ call) (scripts : Scripts)
    (script : Script) : (scripts.set call script).lookup other = scripts.lookup other := by
  rw [set, List.lookup_cons, beq_false_of_ne h, lookup_filter_ne h]

/-- Whatever is written fails. -/
def Wire.Refuses (w : Wire) : Prop :=
  ∀ pieces : List Bytes, pieces.flatten ≠ [] → ∃ reason w', w.write pieces = (.failed reason, w')

namespace Kernel

variable {k : Kernel} {d : Int}

/-- A number behind which there is no stream refuses what is written, if no script says
otherwise. -/
theorem refuses_of_unscripted (hd : k.streamOf? d = none) (hw : (k.wire d).writes = []) :
    (k.wire d).Refuses := by
  intro pieces hpieces
  have hstream : (k.wire d).stream = none := by simp [wire, hd]
  simp only [Wire.write, Wire.isEmpty_offered hpieces, hw, Wire.writeUnder,
    Wire.plainWrite, hstream]
  exact ⟨_, _, rfl⟩

/-- What is seen through a number is what is behind it, and the scripts for reading and writing. -/
theorem wire_congr {k' : Kernel} (hd : k'.descriptors.get? d = k.descriptors.get? d)
    (hstreams : k'.streams = k.streams)
    (hreads : ∀ e, k'.scripts.lookup (.read e) = k.scripts.lookup (.read e))
    (hwrites : ∀ e, k'.scripts.lookup (.write e) = k.scripts.lookup (.write e)) :
    k'.wire d = k.wire d := by
  have hscript : ∀ call : Option Int → Call,
      (∀ e, k'.scripts.lookup (call e) = k.scripts.lookup (call e)) →
      k'.scripts.of (k'.governing call d) = k.scripts.of (k.governing call d) := by
    intro call h
    rw [governing, governing, h]
    split
    · rw [Scripts.of, Scripts.of, h]
    · rw [Scripts.of, Scripts.of, h]
  rw [wire, wire, hscript _ hreads, hscript _ hwrites, streamOf?_congr hd, hstreams]

/-- While a file is looked up, nothing happens that could be seen through another number. -/
theorem wire_locate (hd : d ≠ k.nextDescriptor) (root url : String) :
    (k.locate root url).2.wire d = k.wire d := by
  simp only [locate]
  split
  · rfl
  · next content _ =>
    have hself : ((k.allocate .file).2.mapFile content).2.descriptors.get? (k.allocate .file).1 =
        some .file := DescriptorMap.get?_set_self ..
    rw [close, hself]
    apply wire_congr
    · exact (DescriptorMap.get?_erase_ne _ hd).trans (DescriptorMap.get?_set_ne _ _ hd)
    · rfl
    · exact fun e => Scripts.lookup_set_ne Call.noConfusion ..
    · exact fun e => Scripts.lookup_set_ne Call.noConfusion ..

/-- To find out how a request is answered does not change what is refused through a negative
number. -/
theorem refuses_resolve (root : String) (outcome : Request.Outcome) (c : Connection) (hd : d < 0)
    (h : (k.wire d).Refuses) : ((Hub.resolve root outcome c k).2.wire d).Refuses := by
  have hne : d ≠ k.nextDescriptor := by
    have hnext := k.nextDescriptor_nonneg
    omega
  cases outcome with
  | complete =>
    simp only [Hub.resolve]
    rw [wire_locate hne]
    exact h
  | incomplete => exact h
  | malformed => exact h

end Kernel

/-! ## One attempt

An attempt to send that does not end with the response on its way lets go of the file. -/

/-- A head is never empty, so there is always something to be written, and with it a chance to
fail. -/
theorem Response.head_ne_nil (r : Resolution) (keepAlive : Bool) : head r keepAlive ≠ [] := by
  simp [head, lineEnd]

namespace Delivery

variable {d d' : Delivery} {w w' : Wire} {r : Resolution} {content : Bytes}

/-- An attempt whose first write fails ends there. -/
theorem send_of_failed {reason : Errno} (hc : ¬ d.plan.isComplete)
    (hw : w.write d.offered = (.failed reason, w')) :
    d.send w = (.failed reason, d.release, w') := by
  rw [offered] at hw
  rw [send, dif_neg hc, hw]

/-- The plan is that of the response with a file, and not all of it has been sent. -/
structure Sends (d : Delivery) (content : Bytes) : Prop where
  incomplete : ¬ d.plan.isComplete
  underway : ∃ keepAlive, d.Underway (Response.head (.found content) keepAlive) content

/-- Of a response that has just been laid out, nothing has been sent. -/
theorem not_isComplete_of_lay? {keepAlive : Bool} (h : d.lay? r keepAlive = some d') :
    ¬ d'.plan.isComplete := by
  obtain ⟨hunderway, hsent, -⟩ := lay?_eq_some h
  intro hc
  have hlength := hunderway.isComplete_iff.mp hc
  rw [hsent, eq_comm, List.length_eq_zero_iff] at hlength
  simp [Response.head_ne_nil] at hlength

/-- What is in hand when a response has just been laid out is its file. -/
theorem sends_of_lay? {keepAlive : Bool} (h : d.lay? r keepAlive = some d')
    (hfile : d'.file = some content) : r = .found content ∧ d'.Sends content := by
  obtain ⟨hunderway, -, hheld⟩ := lay?_eq_some h
  have hr : r.file? = some content := hheld.symm.trans hfile
  have hfound : r = .found content := by
    cases r with
    | found _ => exact congrArg Resolution.found (Option.some.inj hr)
    | _ => cases hr
  refine ⟨hfound, not_isComplete_of_lay? h, keepAlive, ?_⟩
  subst hfound
  simpa [Resolution.page, Resolution.file?, Bytes.ofText] using hunderway

end Delivery

namespace Connection

variable {c : Connection} {k : Kernel} {w : Wire} {r : Resolution} {content : Bytes}
  {current : Option Resolution} {op : Operation} {operations : List Operation}

/-- A file that is in hand after an attempt to send was in hand before it, and the attempt has left
some of the response over. -/
theorem send_holding (h : (c.send w).2.1.delivery.file = some content) :
    (c.send w).1 = .ok .pending ∧ c.delivery.file = some content ∧
      (c.delivery.Sends content → (c.send w).2.1.delivery.Sends content) := by
  obtain ⟨d, w₁, hwrites, hends⟩ := c.send_cases w
  rcases hends with ⟨-, hsend⟩ | ⟨hc, w', -, hsend⟩ | ⟨-, w', reason, -, hsend⟩
  · rw [hsend] at h
    dsimp only at h
    split at h
    · cases h
    · cases h
  · rw [hsend] at h ⊢
    refine ⟨rfl, hwrites.file_eq.symm.trans h, ?_⟩
    rintro ⟨-, keepAlive, hunderway⟩
    exact ⟨hc, keepAlive, hwrites.underway hunderway⟩
  · rw [hsend] at h
    cases h

/-- A file that is in hand when a response has been laid out is that of the response. -/
theorem layOut_holding (h : (c.layOut r).2.delivery.file = some content) :
    r = .found content ∧ (c.layOut r).2.delivery.Sends content := by
  rw [layOut] at h ⊢
  cases hlay : c.delivery.lay? r c.keepAlive with
  | none =>
    rw [hlay] at h
    cases h
  | some d =>
    rw [hlay] at h
    exact Delivery.sends_of_lay? hlay h

/-- A file that is in hand after the first attempt to send a response is that of the response, and
the attempt has left some of it over. -/
theorem respond_holding (h : (c.respond r w).2.1.delivery.file = some content) :
    (c.respond r w).1 = .write ∧ r = .found content ∧
      (c.respond r w).2.1.delivery.Sends content := by
  rw [respond] at h ⊢
  cases hlay : c.delivery.lay? r c.keepAlive with
  | none =>
    rw [hlay] at h
    cases h
  | some d =>
    rw [hlay] at h
    obtain ⟨hpending, hfile, hsends⟩ := send_holding (c := { c with delivery := d }) h
    obtain ⟨hr, hlaid⟩ := Delivery.sends_of_lay? hlay hfile
    exact ⟨congrArg afterSend hpending, hr, hsends hlaid⟩

/-- Where writes fail, no file is in hand after the first attempt to send a response. This is what
protects a connection that is closed: it is answered for, but cannot hold on to the file. -/
theorem file_respond_refused (hw : w.Refuses) : (c.respond r w).2.1.delivery.file = none := by
  rw [respond]
  cases hlay : c.delivery.lay? r c.keepAlive with
  | none => rfl
  | some d =>
    have hoffered : d.offered.flatten ≠ [] := by
      rw [Delivery.offered_of_lay? hlay]
      simp [Response.head_ne_nil]
    obtain ⟨reason, w', hfails⟩ := hw d.offered hoffered
    have hsend := Delivery.send_of_failed (Delivery.not_isComplete_of_lay? hlay) hfails
    simp only [resume, send, hsend]
    rfl

/-! ## One operation

Which operations may leave a file in hand, and where that file comes from. -/

/-- The response that an operation lays out, if it gets that far. -/
def Operation.response? (c : Connection) (k : Kernel) : Operation → Option Resolution
  | layOut r => some r
  | process root =>
    if c.parse.1 = .incomplete then none else some (Hub.resolve root c.parse.1 c.parse.2 k).1
  | _ => none

/-- Whether an operation ends the response: it starts afresh, closes the connection, sends all that
is left, or fails to send. -/
def Operation.Releases (c : Connection) (k : Kernel) : Operation → Prop
  | start _ _ => True
  | reset => True
  | send => (c.send (k.wire c.descriptor)).1 ≠ .ok .pending
  | resume => (c.resume (k.wire c.descriptor)).1 ≠ .write
  | process root => c.parse.1 ≠ .incomplete ∧ (Hub.process root c k).1 ≠ .write
  | close => True
  | _ => False

/-- Where a file in hand after an operation comes from. -/
inductive Origin (c : Connection) (k : Kernel) (op : Operation) (content : Bytes) : Prop
  /-- it was in hand before, and the response is the same -/
  | before : op.response? c k = none → c.delivery.file = some content →
    (c.delivery.Sends content → (op.perform c k).2.1.delivery.Sends content) → Origin c k op content
  /-- it is that of a new response -/
  | found : op.response? c k = some (.found content) →
    (op.perform c k).2.1.delivery.Sends content → Origin c k op content

/-- **What is in hand after an operation** was in hand before, or is the file of a response that the
operation has laid out. -/
theorem perform_holding (h : (op.perform c k).2.1.delivery.file = some content) :
    Origin c k op content := by
  cases op with
  | start descriptor peer => cases h
  | reset => cases h
  | readAll =>
    have hkept := c.delivery_readAll (k.wire c.descriptor)
    simp only [Operation.perform, Hub.onWire_eq, hkept] at h
    refine .before rfl h ?_
    simp only [Operation.perform, Hub.onWire_eq, hkept]
    exact id
  | parse => exact .before rfl h id
  | layOut r =>
    obtain ⟨rfl, hsends⟩ := layOut_holding h
    exact .found rfl hsends
  | send =>
    obtain ⟨-, hfile, hsends⟩ := send_holding h
    exact .before rfl hfile hsends
  | resume =>
    obtain ⟨-, hfile, hsends⟩ := send_holding h
    exact .before rfl hfile hsends
  -- a request that is still incomplete is not answered, so no file is opened for it
  | process root =>
    simp only [Operation.perform, Hub.process, Hub.answer] at h
    by_cases hwait : c.parse.1 = .incomplete
    · rw [if_pos hwait] at h
      refine .before (if_pos hwait) h ?_
      simp only [Operation.perform, Hub.process, Hub.answer, if_pos hwait]
      exact id
    · rw [if_neg hwait] at h
      obtain ⟨-, hr, hsends⟩ := respond_holding h
      refine .found ((if_neg hwait).trans (congrArg some hr)) ?_
      simp only [Operation.perform, Hub.process, Hub.answer, if_neg hwait]
      exact hsends
  | close =>
    simp only [Operation.perform] at h
    split at h
    · cases h
    · next hclosed =>
      refine .before rfl h ?_
      simp only [Operation.perform, if_neg hclosed]
      exact id
  | meanwhile change => exact .before rfl h id

/-- What ends the response lets go of the file. -/
theorem Operation.Releases.file (h : op.Releases c k)
    (hclosed : c.isOpen = false → c.delivery.file = none) :
    (op.perform c k).2.1.delivery.file = none := by
  refine Option.eq_none_iff_forall_ne_some.mpr fun content hfile => ?_
  -- only what may end a delivery releases; the others are not of that kind
  cases op with
  | start descriptor peer => cases hfile
  | reset => cases hfile
  | readAll => cases h
  | parse => cases h
  | layOut r => cases h
  | send =>
    obtain ⟨hpending, -⟩ := send_holding hfile
    exact h hpending
  | resume =>
    obtain ⟨hpending, -⟩ := send_holding hfile
    exact h (congrArg afterSend hpending)
  | process root =>
    obtain ⟨hwait, hwrite⟩ := h
    simp only [Operation.perform, Hub.process, Hub.answer, if_neg hwait] at hfile hwrite
    obtain ⟨hpending, -⟩ := respond_holding hfile
    exact hwrite hpending
  | close =>
    simp only [Operation.perform] at hfile
    split at hfile
    · cases hfile
    · next hopen =>
      rw [hclosed (by simpa using hopen)] at hfile
      cases hfile
  | meanwhile change => cases h

/-! ## Sequences of operations

The file in hand is that of the response laid out last, and it is in hand only while that response
is on its way. -/

/-- What is written while the connection is closed is refused, all through some operations. -/
def Refused (c : Connection) (k : Kernel) : List Operation → Prop
  | [] => True
  | op :: rest =>
    (c.isOpen = false → (k.wire c.descriptor).Refuses) ∧
      Refused (op.perform c k).2.1 (op.perform c k).2.2 rest

/-- The response laid out last in the course of some operations; `current` is the one before
them. -/
def lastResponse (current : Option Resolution) (c : Connection) (k : Kernel) :
    List Operation → Option Resolution
  | [] => current
  | op :: rest =>
    lastResponse ((op.response? c k).or current) (op.perform c k).2.1 (op.perform c k).2.2 rest

/-- No file is held but that of the current response. -/
def HoldsOnly (c : Connection) (current : Option Resolution) : Prop :=
  ∀ content, c.delivery.file = some content → current = some (.found content)

/-- One operation: by `perform_holding` a file in hand is an old one or that of the response just
laid out. -/
theorem HoldsOnly.perform (hc : c.HoldsOnly current) (k : Kernel) (op : Operation) :
    (op.perform c k).2.1.HoldsOnly ((op.response? c k).or current) := by
  intro content hfile
  cases perform_holding hfile with
  | before hnone hbefore =>
    rw [hnone, Option.none_or]
    exact hc content hbefore
  | found hsome => rw [hsome, Option.some_or]

/-- A file that is held is that of the response laid out last, whatever has been done. -/
theorem HoldsOnly.after (hc : c.HoldsOnly current) (k : Kernel) (operations : List Operation) :
    (c.after k operations).1.HoldsOnly (lastResponse current c k operations) := by
  induction operations generalizing c k current with
  | nil => exact hc
  | cons op rest ih => exact ih (hc.perform k op) _

/-- A file is held only by a connection that is open, and that sends it. -/
def Sound (c : Connection) : Prop :=
  ∀ content, c.delivery.file = some content → c.isOpen = true ∧ c.delivery.Sends content

/-- A connection that is closed holds no file, as it is sending none. -/
theorem Sound.file_of_closed (hc : c.Sound) (hclosed : c.isOpen = false) :
    c.delivery.file = none := by
  refine Option.eq_none_iff_forall_ne_some.mpr fun content hfile => ?_
  have hopen := (hc content hfile).1
  rw [hclosed] at hopen
  cases hopen

/-- A connection that is closed holds no file after an operation either. -/
theorem file_perform_of_closed (hclosed : c.isOpen = false) (hfree : c.delivery.file = none)
    (hrefuses : (k.wire c.descriptor).Refuses) (hop : ∀ r, op ≠ .layOut r) :
    (op.perform c k).2.1.delivery.file = none := by
  refine Option.eq_none_iff_forall_ne_some.mpr fun content hfile => ?_
  cases perform_holding hfile with
  | before _ hbefore =>
    rw [hfree] at hbefore
    cases hbefore
  | found hsome =>
    cases op with
    | process root =>
      by_cases hwait : c.parse.1 = .incomplete
      · rw [Operation.response?, if_pos hwait] at hsome
        cases hsome
      · -- the answer is laid out as if the connection were open, and then the first write fails
        have hnegative : c.descriptor < 0 := by simpa [isOpen] using hclosed
        have hnone := file_respond_refused (c := c.parse.2)
          (r := (Hub.resolve root c.parse.1 c.parse.2 k).1)
          (Kernel.refuses_resolve root c.parse.1 c.parse.2 hnegative hrefuses)
        simp only [Operation.perform, Hub.process, Hub.answer, if_neg hwait] at hfile
        cases hnone.symm.trans hfile
    | layOut r => exact hop r rfl
    | _ => cases hsome

/-- An operation that leaves a file in hand leaves the connection on its descriptor. -/
theorem descriptor_of_holding (h : (op.perform c k).2.1.delivery.file = some content) :
    (op.perform c k).2.1.descriptor = c.descriptor := by
  cases op with
  | start descriptor peer => cases h
  | reset => rfl
  | readAll => exact (stays_readAll c _).1
  | parse => rfl
  | layOut r =>
    simp only [Operation.perform, layOut]
    split <;> rfl
  | send => exact (stays_send c _).1
  | resume => exact (stays_resume c _).1
  | process root => exact Hub.descriptor_answer root c.parse.1 c.parse.2 k
  | close =>
    simp only [Operation.perform] at h ⊢
    split at h
    · cases h
    · next hclosed => rw [if_neg hclosed]
  | meanwhile change => rfl

/-- **No operation but laying out a response leaves a file in hand that is not being sent**,
provided that a connection that is closed cannot write. -/
theorem Sound.perform (hc : c.Sound) (hrefuses : c.isOpen = false → (k.wire c.descriptor).Refuses)
    (hop : ∀ r, op ≠ .layOut r) : (op.perform c k).2.1.Sound := by
  intro content hfile
  constructor
  · cases hopen : c.isOpen with
    | true => rw [isOpen, descriptor_of_holding hfile, ← isOpen, hopen]
    | false =>
      have hnone := file_perform_of_closed hopen (hc.file_of_closed hopen) (hrefuses hopen) hop
      cases hnone.symm.trans hfile
  · cases perform_holding hfile with
    | before _ hbefore hsends => exact hsends (hc content hbefore).2
    | found _ hsends => exact hsends

/-- After any number of operations, none of which lays out a response by hand, the only file in
hand is one that is being sent. The induction is on the operations. -/
theorem Sound.after (hc : c.Sound) (hrefused : c.Refused k operations)
    (hpublic : ∀ r, Operation.layOut r ∉ operations) : (c.after k operations).1.Sound := by
  induction operations generalizing c k with
  | nil => exact hc
  | cons op rest ih =>
    obtain ⟨hrefuses, hrest⟩ := hrefused
    refine ih (hc.perform hrefuses fun r hr => ?_) hrest fun r hr => ?_
    · exact hpublic r (hr ▸ List.mem_cons_self)
    · exact hpublic r (List.mem_cons_of_mem op hr)

/-- How a connection holds files, when `current` is the response laid out last. -/
structure HoldsWhileSending (c : Connection) (k : Kernel) (current : Option Resolution) : Prop where
  /-- a file is held only while the connection is open and the plan is incomplete; it is the file of
  the current response, and the one that the plan was made for -/
  held : ∀ content, c.delivery.file = some content →
    c.isOpen = true ∧ current = some (.found content) ∧ c.delivery.Sends content
  /-- so the current response is no error page -/
  status : c.delivery.file.isSome = true → current.map Resolution.status = some 200
  /-- to have sent everything, to have failed to, to start afresh and to close let go of it -/
  released : ∀ op : Operation, op.Releases c k → (op.perform c k).2.1.delivery.file = none
  /-- a file that has been let go of does not come back: whatever is done from then on, a file that
  is held has been found for a response laid out since -/
  gone : c.delivery.file = none → ∀ operations content,
    (c.after k operations).1.delivery.file = some content →
      lastResponse none c k operations = some (.found content)

/-- **A file is held while it is sent, and no longer**: whatever has been done to a connection,
short of laying out a response by hand, and whatever reads and writes have returned, as long as
nothing could be written through the number of a connection that was closed. -/
theorem file_held_while_sent (k : Kernel) (history : List Operation)
    (hpublic : ∀ r, Operation.layOut r ∉ history) (hrefused : ({} : Connection).Refused k history) :
    (({} : Connection).after k history).1.HoldsWhileSending (({} : Connection).after k history).2
      (lastResponse none {} k history) := by
  have hfresh : ∀ content, ({} : Connection).delivery.file ≠ some content := fun _ => nofun
  have hsound : (({} : Connection).after k history).1.Sound :=
    Sound.after (fun content hfile => absurd hfile (hfresh content)) hrefused hpublic
  have honly : (({} : Connection).after k history).1.HoldsOnly (lastResponse none {} k history) :=
    HoldsOnly.after (fun content hfile => absurd hfile (hfresh content)) k history
  constructor
  · intro content hfile
    obtain ⟨hopen, hsends⟩ := hsound content hfile
    exact ⟨hopen, honly content hfile, hsends⟩
  · intro hsome
    obtain ⟨content, hfile⟩ := Option.isSome_iff_exists.mp hsome
    rw [honly content hfile]
    rfl
  · intro op hop
    exact hop.file hsound.file_of_closed
  · intro hnone operations content hfile
    refine HoldsOnly.after (fun content hheld => ?_) _ operations content hfile
    rw [hnone] at hheld
    cases hheld

/-- A client on the descriptor 7 that asks for a file, and takes seven bytes of the answer at
first. -/
def slowClient : Kernel where
  scripts := [(.write (some 7), [some (.limit 7), some (.fail .wouldBlock)])]
  site := Site.empty.put ["a"] (.file 0o644 [0x31, 0x32])
  descriptors := .set {} 7 (.stream 0)
  streams := [{ inbound := .ofText "GET /a HTTP/1.1\r\n\r\n" }]

/-- The request is answered as far as the client takes the answer. -/
def firstTaken : List Operation := [.start 7 none, .readAll, .process "."]

/-- Seven bytes have been taken, and the file is in hand: the response to the request, and not all
of it. -/
theorem file_held_while_sent_partly :
    (∀ r, .layOut r ∉ firstTaken) ∧ ({} : Connection).Refused slowClient firstTaken ∧
      (({} : Connection).after slowClient firstTaken).1.delivery.file = some [0x31, 0x32] ∧
      (({} : Connection).after slowClient firstTaken).1.delivery.plan.sent = 7 ∧
      (({} : Connection).after slowClient firstTaken).1.HoldsWhileSending
        (({} : Connection).after slowClient firstTaken).2
        (lastResponse none {} slowClient firstTaken) := by
  have hpublic : ∀ r, .layOut r ∉ firstTaken := by
    intro r hr
    simp [firstTaken] at hr
  have hrefused : ({} : Connection).Refused slowClient firstTaken := by
    refine ⟨fun _ => Kernel.refuses_of_unscripted rfl rfl, ?_, ?_, trivial⟩
    · intro hclosed
      exact absurd hclosed (by decide +kernel)
    · intro hclosed
      exact absurd hclosed (by decide +kernel)
  exact ⟨hpublic, hrefused, by decide +kernel, by decide +kernel,
    file_held_while_sent slowClient firstTaken hpublic hrefused⟩

end Connection

end FileServer
