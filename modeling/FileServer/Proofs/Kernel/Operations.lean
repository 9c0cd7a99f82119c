import FileServer.Proofs.Kernel.Change

/-!
# The kernel's operations

For each operation that the server or a client performs: that it is a change as every other
(`Kernel.Evolves`), which descriptors it leaves alone, and what it does to the one it names. A
descriptor that is closed is out of the poll set; one that is new was free before; a control call
that reports success has been done, unless the script has it lie (`Kernel.Honest`).

A change of one descriptor is described by a few predicates, so that no later proof opens an
operation again: `Kernel.Evolves` for what may happen to a kernel at all, `Kernel.Leaves` and
`Kernel.Keeps` for the descriptors that an operation does not name, `Kernel.Quiet` for one that
opens, closes and registers nothing, and one structure each for what a successful call has done
(`Kernel.Registers`, `Kernel.Accepts`, `Kernel.Connects`). An operation that can fail has a lemma
that lists what may come of it, as `Kernel.accept_cases`.
-/

namespace FileServer.Kernel

variable {k k' : Kernel} {d e : Int} {n : Nat}

/-! ## Streams

A wire is what a connection sees of its stream and the scripts. Putting it back changes that one
stream. -/

/-- Other streams are as they were. -/
theorem updateStream_ne {number : Nat} (h : n ≠ number) (f : Stream → Stream) :
    (k.updateStream number f).streams[n]? = k.streams[n]? := by
  rw [updateStream]
  exact List.getElem?_modify_ne f k.streams (Ne.symm h)

/-- The stream with the number is changed, if there is one. -/
theorem updateStream_self (k : Kernel) (n : Nat) (f : Stream → Stream) :
    (k.updateStream n f).streams[n]? = k.streams[n]?.map f := by
  rw [updateStream, List.getElem?_modify_eq]
  rfl

/-- No stream is gone or new, and no descriptor has been touched. -/
theorem same_updateStream (k : Kernel) (number : Nat) (f : Stream → Stream) :
    SameDescriptors k (k.updateStream number f) := ⟨rfl, List.length_modify ..⟩

/-- **What is put back from a wire** is a stream and two scripts. Descriptors, poll registrations,
the readiness to be reported and the site are not seen through a wire, and so are not changed
through it. -/
theorem putWire_spec (k : Kernel) (d : Int) (w : Wire) :
    SameDescriptors k (k.putWire d w) ∧ (k.putWire d w).poll = k.poll ∧
      (k.putWire d w).site = k.site := by
  unfold putWire
  dsimp only
  split
  · exact ⟨⟨rfl, List.length_modify ..⟩, rfl, rfl⟩
  · exact ⟨⟨rfl, rfl⟩, rfl, rfl⟩

/-- What is done through a descriptor is done to the stream behind it. -/
theorem putWire_self {w : Wire} {s : Stream} (hd : k.streamOf? d = some n)
    (hn : n < k.streams.length) (hw : w.stream = some s) :
    (k.putWire d w).streams[n]? = some s := by
  have hstream : ∀ scripts, Kernel.streamOf? { k with scripts } d = some n := fun _ => hd
  unfold putWire
  dsimp only
  rw [hstream, hw]
  dsimp only
  rw [updateStream_self, List.getElem?_eq_getElem hn]
  rfl

/-- The stream that a descriptor owns is the one behind it. -/
theorem Owns.streamOf? (h : k.Owns d n) (hd : ∃ m, k.streamOf? d = some m) :
    k.streamOf? d = some n := by
  obtain ⟨m, hm⟩ := hd
  have hmem := h.mem
  rw [refs_of_streamOf? hm, List.mem_singleton] at hmem
  rw [hm, hmem]

/-- What is done through a descriptor changes the stream, and not whose it is. -/
theorem Owns.putWire {w : Wire} {s : Stream} (h : k.Owns d n) (hd : k.streamOf? d = some n)
    (hw : w.stream = some s) :
    (k.putWire d w).Owns d n ∧ (k.putWire d w).streams[n]? = some s :=
  ⟨(putWire_spec k d w).1.owns h, putWire_self hd h.exists_stream hw⟩

/-- After something has been done through the descriptor of a stream, that is what is seen there. -/
theorem outbound_putWire {w : Wire} (h : w.stream.isSome = (k.wire d).stream.isSome) :
    ((k.putWire d w).wire d).outbound = w.outbound := by
  have hstream : (k.putWire d w).streamOf? d = k.streamOf? d := (putWire_spec k d w).1.streamOf? d
  have hwire : (k.wire d).stream = (k.streamOf? d).bind (k.streams[·]?) := rfl
  have hwire' : ((k.putWire d w).wire d).stream =
      (k.streamOf? d).bind ((k.putWire d w).streams[·]?) := by rw [← hstream]; rfl
  rw [Wire.outbound, Wire.outbound, hwire']
  congr 2
  cases hw : w.stream with
  | none =>
    rw [hw, hwire] at h
    have hsame : (k.putWire d w).streams = k.streams := by simp [putWire, hw]
    rw [hsame]
    exact Option.isNone_iff_eq_none.mp (by rw [← Option.not_isSome, ← h]; rfl)
  | some s =>
    rw [hw, hwire] at h
    obtain ⟨s₀, hs₀⟩ := Option.isSome_iff_exists.mp h.symm
    obtain ⟨n, hn, hget⟩ := Option.bind_eq_some_iff.mp hs₀
    rw [hn]
    exact putWire_self hn (List.getElem?_eq_some_iff.mp hget).1 hw

/-- A stream that is not behind the descriptor is as it was. -/
theorem putWire_ne {w : Wire} (h : k.streamOf? d ≠ some n) :
    (k.putWire d w).streams[n]? = k.streams[n]? := by
  have hstream : ∀ scripts, Kernel.streamOf? { k with scripts } d = k.streamOf? d := fun _ => rfl
  unfold putWire
  dsimp only
  rw [hstream]
  split
  · rename_i number s hnumber hs
    refine updateStream_ne (fun hn => h ?_) _
    rw [hn, hnumber]
  · rfl

/-- Reads and writes are governed by different scripts, also where a script is not for one
descriptor but for all: to put the one back does not undo the other. -/
theorem governing_ne (k : Kernel) (d e : Int) : k.governing .write d ≠ k.governing .read e := by
  simp only [governing]
  split <;> split <;> rintro ⟨⟩

/-- If the wire has followed its scripts so has the kernel. -/
theorem putWire_scripts {w : Wire} (h : (k.wire d).Spent w) :
    k.scripts.Spent (k.putWire d w).scripts := by
  have hset : k.scripts.Spent ((k.scripts.set (k.governing .read d) w.reads).set
      (k.governing .write d) w.writes) := by
    refine (Scripts.spent_set h.1).set ?_
    rw [Scripts.of_set_ne (governing_ne k d d)]
    exact h.2
  unfold putWire
  dsimp only
  split
  · exact hset
  · exact hset

/-- Putting a wire back is one of the changes that may happen. A stream that is behind no
descriptor is not behind this one, and is not written to. -/
theorem evolves_putWire {w : Wire} (h : (k.wire d).Spent w) : k.Evolves (k.putWire d w) := by
  obtain ⟨hsame, -, hsite⟩ := putWire_spec k d w
  refine hsame.evolves (putWire_scripts h) hsite fun n hn => .of_eq (putWire_ne fun hd => ?_)
  refine hn.not_mem d ?_
  rw [refs_of_streamOf? hd]
  exact List.mem_singleton_self n

/-- Nothing that is done through a descriptor opens or closes anything. -/
theorem through_spec {α : Type} (k : Kernel) (d : Int) (f : Wire → α × Wire) :
    SameDescriptors k (k.through d f).2 ∧ (k.through d f).2.poll = k.poll ∧
      (k.through d f).2.site = k.site :=
  putWire_spec ..

/-- What is done through one descriptor does not concern another. A stream that the other owns is
not behind this one. -/
theorem leaves_through {α : Type} (k : Kernel) (f : Wire → α × Wire) (h : e ≠ d) :
    k.Leaves (k.through d f).2 e := by
  obtain ⟨hsame, hpoll, -⟩ := through_spec k d f
  refine ⟨hsame.keeps fun n hn => putWire_ne fun hd => h (hn.only d ?_).symm, by rw [hpoll]⟩
  rw [refs_of_streamOf? hd]
  exact List.mem_singleton.mpr rfl

/-- What a client does to its stream. -/
theorem asClient_streams {α : Type} (k : Kernel) (number : Nat) (f : Stream → α × Stream) :
    (k.asClient number f).2.streams = k.streams.modify number fun s => (f s).2 := by
  simp only [asClient]
  cases hs : k.streams[number]? with
  | none =>
    rw [List.modify_eq_self]
    exact List.getElem?_eq_none_iff.mp hs
  | some s =>
    dsimp only
    rw [(quiet_notifyResource _ _).streams, updateStream]
    apply List.ext_getElem?
    intro i
    rw [List.getElem?_modify, List.getElem?_modify]
    by_cases hi : number = i
    · rw [← hi, hs]
      simp
    · simp [hi]

/-- What a client does to its stream opens and closes nothing, and the kernel's scripts and files
stay the same. -/
theorem asClient_same {α : Type} (k : Kernel) (number : Nat) (f : Stream → α × Stream) :
    SameDescriptors k (k.asClient number f).2 ∧
      (k.asClient number f).2.poll.registrations = k.poll.registrations ∧
      k.scripts.Spent (k.asClient number f).2.scripts ∧ (k.asClient number f).2.site = k.site := by
  simp only [asClient]
  split
  · exact ⟨⟨rfl, rfl⟩, rfl, .refl _, rfl⟩
  · rename_i s hs
    have hquiet := quiet_notifyResource (k.updateStream number fun _ => (f s).2) (.stream number)
    have hsame := same_updateStream k number fun _ => (f s).2
    exact ⟨⟨hquiet.descriptors, hquiet.same.length.trans hsame.length⟩, hquiet.registrations,
      hquiet.scripts, hquiet.site⟩

/-- What a client does writes nothing to any stream: outbound bytes are the server's. -/
theorem silent_asClient {α : Type} (k : Kernel) (number : Nat) {f : Stream → α × Stream}
    (hf : ∀ s : Stream, s.Silent (f s).2) (n : Nat) : k.Silent (k.asClient number f).2 n := by
  intro s hs
  by_cases hn : number = n
  · refine ⟨(f s).2, ?_, hf s⟩
    rw [asClient_streams, hn, List.getElem?_modify_eq, hs]
    rfl
  · refine ⟨s, ?_, .refl s⟩
    rw [asClient_streams, List.getElem?_modify_ne (fun s => (f s).2) _ hn, hs]

/-- What a client does to its stream is one of the changes that may happen. -/
theorem evolves_asClient {α : Type} (k : Kernel) (number : Nat) {f : Stream → α × Stream}
    (hf : ∀ s : Stream, s.Silent (f s).2) : k.Evolves (k.asClient number f).2 := by
  obtain ⟨hsame, -, hscripts, hsite⟩ := k.asClient_same number f
  exact hsame.evolves hscripts hsite fun n _ => k.silent_asClient number hf n

/-! ## Closing

What is behind a descriptor that is closed is gone with it, and so is its registration. -/

/-- To end a resource opens and closes nothing else. -/
theorem same_endResource (k : Kernel) (r : Resource) : SameDescriptors k (k.endResource r) := by
  cases r with
  | listener l =>
    unfold endResource
    dsimp only
    generalize l.backlog = backlog
    induction backlog generalizing k with
    | nil => exact ⟨rfl, rfl⟩
    | cons number rest ih =>
      obtain ⟨hdescriptors, hlength⟩ := ih (k.updateStream number .drop)
      exact ⟨hdescriptors, hlength.trans (same_updateStream ..).length⟩
  | stream number => exact same_updateStream ..
  | socket address => exact ⟨rfl, rfl⟩
  | pipeOut number => exact ⟨rfl, rfl⟩
  | pipeIn number => exact ⟨rfl, rfl⟩
  | file => exact ⟨rfl, rfl⟩
  | poll => exact ⟨rfl, rfl⟩

/-- Scripts and site do not end with a resource; the poll set only ends with its own
descriptor. -/
theorem endResource_rest (k : Kernel) (r : Resource) :
    (k.endResource r).scripts = k.scripts ∧ (k.endResource r).site = k.site ∧
      (r ≠ .poll → (k.endResource r).poll = k.poll) := by
  cases r with
  | listener l =>
    unfold endResource
    dsimp only
    generalize l.backlog = backlog
    induction backlog generalizing k with
    | nil => exact ⟨rfl, rfl, fun _ => rfl⟩
    | cons number rest ih => exact ih (k.updateStream number .drop)
  | poll => exact ⟨rfl, rfl, fun h => absurd rfl h⟩
  | stream number => exact ⟨rfl, rfl, fun _ => rfl⟩
  | socket address => exact ⟨rfl, rfl, fun _ => rfl⟩
  | pipeOut number => exact ⟨rfl, rfl, fun _ => rfl⟩
  | pipeIn number => exact ⟨rfl, rfl, fun _ => rfl⟩
  | file => exact ⟨rfl, rfl, fun _ => rfl⟩

/-- To end a resource writes nothing. -/
theorem silent_endResource (k : Kernel) (r : Resource) (n : Nat) :
    k.Silent (k.endResource r) n := by
  have hdrop : ∀ (k : Kernel) number, k.Silent (k.updateStream number .drop) n := by
    intro k number s hs
    by_cases hn : n = number
    · refine ⟨s.drop, ?_, s.silent_drop⟩
      rw [← hn, updateStream_self, hs]
      rfl
    · exact ⟨s, (updateStream_ne hn _).trans hs, .refl s⟩
  cases r with
  | listener l =>
    rw [endResource]
    generalize l.backlog = backlog
    induction backlog generalizing k with
    | nil => exact .of_eq rfl
    | cons number rest ih => exact (hdrop k number).trans (ih _)
  | stream number => exact hdrop k number
  | socket address => exact .of_eq rfl
  | pipeOut number => exact .of_eq rfl
  | pipeIn number => exact .of_eq rfl
  | file => exact .of_eq rfl
  | poll => exact .of_eq rfl

/-- Only the streams of a resource end with it. -/
theorem endResource_streams {r : Resource} (hr : k.descriptors.get? d = some r)
    (hn : n ∉ k.refs d) (k' : Kernel) : (k'.endResource r).streams[n]? = k'.streams[n]? := by
  rw [refs, hr] at hn
  cases r with
  | listener l =>
    simp only [endResource]
    dsimp only at hn ⊢
    generalize l.backlog = backlog at hn
    induction backlog generalizing k' with
    | nil => rfl
    | cons number rest ih =>
      obtain ⟨hne, hrest⟩ := List.ne_and_not_mem_of_not_mem_cons hn
      exact (ih _ hrest).trans (updateStream_ne hne _)
  | stream number => exact updateStream_ne (List.ne_of_not_mem_cons hn) _
  | socket address => rfl
  | pipeOut number => rfl
  | pipeIn number => rfl
  | file => rfl
  | poll => rfl

/-- The kernel without a descriptor. -/
def without (k : Kernel) (d : Int) : Kernel :=
  { k with descriptors := k.descriptors.erase d, poll := k.poll.remove d }

/-- To close a descriptor is to take it out of the table and of the poll set, and to end what was
behind it. -/
theorem close_of_some {r : Resource} (h : k.descriptors.get? d = some r) :
    k.close d = (k.without d).endResource r := by
  rw [close, h]
  rfl

/-- To close a number that is free does nothing. -/
theorem close_of_none (h : k.descriptors.get? d = none) : k.close d = k := by
  rw [close, h]

/-- The number of a descriptor that is taken out is free. -/
theorem without_self (k : Kernel) (d : Int) : (k.without d).descriptors.get? d = none :=
  DescriptorMap.get?_erase_self ..

/-- Taking a descriptor out leaves the others as they were. -/
theorem without_ne (k : Kernel) (h : e ≠ d) :
    (k.without d).descriptors.get? e = k.descriptors.get? e :=
  DescriptorMap.get?_erase_ne _ h

/-- Nothing is behind a descriptor that was not behind it before. -/
theorem mem_refs_without (h : n ∈ (k.without d).refs e) : n ∈ k.refs e := by
  by_cases he : e = d
  · rw [he, refs_of_none (without_self k d)] at h
    cases h
  · rw [refs_congr (without_ne k he)] at h
    exact h

/-- Taking a descriptor out leaves what is behind the others alone, and their registrations. -/
theorem leaves_without (k : Kernel) (h : e ≠ d) : k.Leaves (k.without d) e := by
  refine ⟨⟨without_ne k h, fun n hn => ⟨⟨?_, ?_, hn.exists_stream⟩, rfl⟩⟩,
    DescriptorMap.get?_erase_ne _ h⟩
  · rw [refs_congr (without_ne k h)]
    exact hn.count_eq
  · exact fun f hf => hn.only f (mem_refs_without hf)

/-- To close a descriptor is one of the changes that may happen, whatever is behind it. What waits
at a listener is dropped with it, and nobody writes to it. -/
theorem evolves_close (k : Kernel) (d : Int) : k.Evolves (k.close d) := by
  cases h : k.descriptors.get? d with
  | none => rw [close_of_none h]; exact Evolves.refl k
  | some r =>
    obtain ⟨hscripts, hsite, -⟩ := endResource_rest (k.without d) r
    have hsame := same_endResource (k.without d) r
    rw [close_of_some h]
    refine .of_refs ?_ hsite hsame.length (fun e m hm => ⟨e, ?_⟩) fun n hn =>
      .of_eq (endResource_streams h (hn.not_mem d) _)
    · rw [hscripts]
      exact Scripts.Spent.refl _
    · rw [hsame.refs] at hm
      exact mem_refs_without hm

/-- To close a descriptor writes nothing. -/
theorem silent_close (k : Kernel) (d : Int) (n : Nat) : k.Silent (k.close d) n := by
  cases h : k.descriptors.get? d with
  | none => rw [close_of_none h]; exact .of_eq rfl
  | some r => rw [close_of_some h]; exact silent_endResource (k.without d) r n

/-- To close a descriptor, other than that of the poll set, does not concern the others. -/
theorem leaves_close (h : e ≠ d) (hpoll : k.descriptors.get? d ≠ some .poll) :
    k.Leaves (k.close d) e := by
  cases hr : k.descriptors.get? d with
  | none => rw [close_of_none hr]; exact Leaves.refl k e
  | some r =>
    have hwithout := leaves_without k h
    have hsame := same_endResource (k.without d) r
    obtain ⟨-, -, hrest⟩ := endResource_rest (k.without d) r
    have hpoll' : ((k.without d).endResource r).poll = (k.without d).poll :=
      hrest fun hp => hpoll (hp ▸ hr)
    rw [close_of_some hr]
    refine ⟨⟨?_, fun n hn => ?_⟩, ?_⟩
    · rw [hsame.descriptors]
      exact hwithout.descriptor
    · obtain ⟨hn', hstream⟩ := hwithout.owned n hn
      have hnot : n ∉ k.refs d := fun hmem => h (hn.only d hmem).symm
      exact ⟨hsame.owns hn', (endResource_streams hr hnot _).trans hstream⟩
    · rw [hpoll']
      exact hwithout.registration

/-- A descriptor that has been closed is open no more, and out of the poll set. -/
theorem close_self (k : Kernel) (d : Int) (hg : k.descriptors.get? d = none →
    k.poll.registrations.get? d = none) :
    (k.close d).descriptors.get? d = none ∧ (k.close d).poll.registrations.get? d = none := by
  cases hr : k.descriptors.get? d with
  | none => rw [close_of_none hr]; exact ⟨hr, hg hr⟩
  | some r =>
    have hsame := same_endResource (k.without d) r
    obtain ⟨-, -, hrest⟩ := endResource_rest (k.without d) r
    rw [close_of_some hr]
    refine ⟨by rw [hsame.descriptors]; exact DescriptorMap.get?_erase_self .., ?_⟩
    by_cases hp : r = .poll
    · rw [hp]
      rfl
    · rw [hrest hp]
      exact DescriptorMap.get?_erase_self ..

/-- With the descriptor of a stream the stream is dropped. -/
theorem close_stream (hn : k.streamOf? d = some n) :
    (k.close d).streams[n]? = k.streams[n]?.map .drop := by
  rw [close_of_some (get?_of_streamOf? hn), endResource, updateStream_self]
  rfl

/-! ## The poll set

A control call is scripted to fail, to lie, or to do its work. A kernel is honest if it does not
lie; then a success means that the registration is in place. -/

/-- A control call that reports success has been done. -/
def Honest (k : Kernel) : Prop := (k.scripts.of .pollControl).Only (· ≠ .limit 0)

/-- A script that does not have the kernel lie cannot come to do so, since entries only go. -/
theorem Evolves.honest (h : k.Evolves k') (hk : k.Honest) : k'.Honest :=
  Script.Only.suffix hk (h.scripts _)

/-- Some control call is going to fail. -/
def ControlFails (k : Kernel) : Prop := ∃ reason, some (.fail reason) ∈ k.scripts.of .pollControl

/-- What comes of a control call: it fails and changes nothing, or it does its work. -/
theorem control_cases (hk : k.Honest) (change : Kernel → Except Errno Unit × Kernel) :
    (∃ reason k', k.control change = (.error reason, k') ∧ k.Quiet k' ∧ k'.poll = k.poll ∧
        k.ControlFails) ∨
      ∃ k', k.control change = change k' ∧ k.Quiet k' ∧ k'.poll = k.poll := by
  have hquiet := quiet_takeFault k .pollControl
  have hpoll : (k.takeFault .pollControl).2.poll = k.poll := rfl
  have hmem : ∀ fault, (k.takeFault .pollControl).1 = some fault →
      some fault ∈ k.scripts.of .pollControl := fun fault h => Scripts.mem_of_next h
  simp only [control]
  rcases htake : k.takeFault .pollControl with ⟨fault, k₁⟩
  rw [htake] at hquiet hpoll hmem
  rcases fault with _ | ⟨_ | n⟩ | reason
  · exact .inr ⟨k₁, rfl, hquiet, hpoll⟩
  · exact absurd rfl (hk _ (hmem _ rfl))
  · exact .inr ⟨k₁, rfl, hquiet, hpoll⟩
  · exact .inl ⟨reason, k₁, rfl, hquiet, hpoll, reason, hmem _ rfl⟩

/-- A registration has been put in place. -/
structure Registers (k k' : Kernel) (d : Int) (g : Registration) : Prop where
  descriptors : k'.descriptors = k.descriptors
  streams : k'.streams = k.streams
  registrations : k'.poll.registrations = k.poll.registrations.set d g
  site : k'.site = k.site
  scripts : k.scripts.Spent k'.scripts

namespace Registers

variable {g : Registration}

/-- To put a registration in place opens and closes nothing. -/
theorem same (h : Registers k k' d g) : SameDescriptors k k' :=
  ⟨h.descriptors, congrArg List.length h.streams⟩

/-- Putting a registration in place is one of the changes that may happen. -/
theorem evolves (h : Registers k k' d g) : k.Evolves k' :=
  h.same.evolves h.scripts h.site fun _ _ => .of_eq (by rw [h.streams])

/-- Putting a registration in place leaves alone what is behind every descriptor. -/
theorem keeps (h : Registers k k' d g) (e : Int) : k.Keeps k' e :=
  h.same.keeps fun _ _ => by rw [h.streams]

/-- Putting a registration in place leaves every other descriptor alone, its registration
included. -/
theorem leaves (h : Registers k k' d g) (he : e ≠ d) : k.Leaves k' e :=
  ⟨h.keeps e, by rw [h.registrations, DescriptorMap.get?_set_ne _ _ he]⟩

/-- The descriptor is registered as it was asked for. -/
theorem self (h : Registers k k' d g) : k'.poll.registrations.get? d = some g := by
  rw [h.registrations, DescriptorMap.get?_set_self]

/-- A registration put in place after a quiet change. -/
theorem after (h : k.Quiet k') (hpoll : k'.poll = k.poll) (now : Readiness) :
    Registers k { k' with poll := k'.poll.register d g now } d g := by
  refine ⟨h.descriptors, h.streams, ?_, h.site, h.scripts⟩
  have hnotify := registrations_notify
    { k'.poll with registrations := k'.poll.registrations.set d g } d now
  rw [← hpoll]
  exact hnotify

end Registers

/-- What comes of putting a registration in place, unless the one that is there forbids it. -/
theorem control_register_cases (hk : k.Honest) (d : Int) (g : Registration) (reason : Errno)
    (forbids : Option Registration → Bool) {result : Except Errno Unit × Kernel}
    (hresult : k.control (fun k =>
      if (k.descriptors.get? d).isNone then (.error .badDescriptor, k)
      else if forbids (k.poll.registrations.get? d) then (.error reason, k)
      else (.ok (), { k with poll := k.poll.register d g (k.readiness d) })) = result) :
    (∃ reason k', result = (.error reason, k') ∧ k.Quiet k' ∧
        (k.ControlFails ∨ k.descriptors.get? d = none ∨ forbids (k.poll.registrations.get? d))) ∨
      ∃ k', result = (.ok (), k') ∧ Registers k k' d g ∧ (k.descriptors.get? d).isSome := by
  subst hresult
  rcases control_cases hk _ with ⟨reason, k', heq, hquiet, -, hfails⟩ | ⟨k', heq, hquiet, hpoll⟩
  · exact .inl ⟨reason, k', heq, hquiet, .inl hfails⟩
  · rw [heq]
    split
    · rename_i h
      rw [hquiet.descriptors, Option.isNone_iff_eq_none] at h
      exact .inl ⟨_, k', rfl, hquiet, .inr (.inl h)⟩
    · rename_i hisOpen
      rw [hquiet.descriptors, Option.isNone_iff_eq_none, ← ne_eq,
        ← Option.isSome_iff_ne_none] at hisOpen
      split
      · rename_i h
        rw [hpoll] at h
        exact .inl ⟨_, k', rfl, hquiet, .inr (.inr h)⟩
      · exact .inr ⟨_, rfl, Registers.after hquiet hpoll _, hisOpen⟩

/-- A descriptor that is not open, or is registered already, cannot be added. -/
theorem pollAdd_cases (hk : k.Honest) (d : Int) (g : Registration) :
    (∃ reason k', k.pollAdd d g = (.error reason, k') ∧ k.Quiet k' ∧
        (k.ControlFails ∨ k.descriptors.get? d = none ∨ (k.poll.registrations.get? d).isSome)) ∨
      ∃ k', k.pollAdd d g = (.ok (), k') ∧ Registers k k' d g ∧ (k.descriptors.get? d).isSome :=
  control_register_cases hk d g .alreadyExists Option.isSome rfl

/-- A descriptor that is not open, or not registered, has no registration to be changed. -/
theorem pollModify_cases (hk : k.Honest) (d : Int) (g : Registration) :
    (∃ reason k', k.pollModify d g = (.error reason, k') ∧ k.Quiet k' ∧
        (k.ControlFails ∨ k.descriptors.get? d = none ∨ k.poll.registrations.get? d = none)) ∨
      ∃ k', k.pollModify d g = (.ok (), k') ∧ Registers k k' d g ∧
        (k.descriptors.get? d).isSome := by
  simp only [← Option.isNone_iff_eq_none (o := k.poll.registrations.get? d)]
  exact control_register_cases hk d g .noEntry Option.isNone rfl

/-- A control call has its effect or none. -/
theorem control_any (k : Kernel) (change : Kernel → Except Errno Unit × Kernel) :
    ∃ k', k.Quiet k' ∧ k'.poll = k.poll ∧
      ((∃ result, k.control change = (result, k')) ∨ k.control change = change k') := by
  have hquiet := quiet_takeFault k .pollControl
  have hpoll : (k.takeFault .pollControl).2.poll = k.poll := rfl
  simp only [control]
  rcases htake : k.takeFault .pollControl with ⟨fault, k₁⟩
  rw [htake] at hquiet hpoll
  rcases fault with _ | ⟨_ | n⟩ | reason
  · exact ⟨k₁, hquiet, hpoll, .inr rfl⟩
  · exact ⟨k₁, hquiet, hpoll, .inl ⟨_, rfl⟩⟩
  · exact ⟨k₁, hquiet, hpoll, .inr rfl⟩
  · exact ⟨k₁, hquiet, hpoll, .inl ⟨_, rfl⟩⟩

/-- A control call does not change the descriptors if its work does not. -/
theorem descriptors_control {change : Kernel → Except Errno Unit × Kernel}
    (h : ∀ k, (change k).2.descriptors = k.descriptors) :
    (k.control change).2.descriptors = k.descriptors := by
  obtain ⟨k', hquiet, -, ⟨result, heq⟩ | heq⟩ := control_any k change
  · rw [heq]
    exact hquiet.descriptors
  · rw [heq, h]
    exact hquiet.descriptors

/-- Adding a registration opens and closes nothing. -/
theorem descriptors_pollAdd (k : Kernel) (d : Int) (g : Registration) :
    (k.pollAdd d g).2.descriptors = k.descriptors := by
  refine descriptors_control fun k => ?_
  split
  · rfl
  · split <;> rfl

/-- Changing a registration opens and closes nothing. -/
theorem descriptors_pollModify (k : Kernel) (d : Int) (g : Registration) :
    (k.pollModify d g).2.descriptors = k.descriptors := by
  refine descriptors_control fun k => ?_
  split
  · rfl
  · split <;> rfl

/-- What taking out a descriptor does to the kernel is that of a control call. What it reports
differs, as the error that the descriptor is not registered is passed over. -/
theorem pollDelete_snd (k : Kernel) (d : Int) :
    (k.pollDelete d).2 = (k.control fun k =>
      if (k.descriptors.get? d).isNone then (.error .badDescriptor, k)
      else if (k.poll.registrations.get? d).isNone then (.error .noEntry, k)
      else (.ok (), { k with poll := k.poll.remove d })).2 := by
  simp only [pollDelete]
  split
  · rename_i h
    rw [h]
  · rfl

/-- What comes of taking a descriptor out, whatever is reported: it is out, or nothing has been
done. -/
theorem pollDelete_cases (k : Kernel) (d : Int) :
    ∃ k', k.Quiet k' ∧ k'.poll = k.poll ∧
      ((k.pollDelete d).2 = k' ∨ (k.pollDelete d).2 = { k' with poll := k'.poll.remove d }) := by
  rw [pollDelete_snd]
  obtain ⟨k', hquiet, hpoll, ⟨result, heq⟩ | heq⟩ := control_any k fun k =>
    if (k.descriptors.get? d).isNone then (.error .badDescriptor, k)
    else if (k.poll.registrations.get? d).isNone then (.error .noEntry, k)
    else (.ok (), { k with poll := k.poll.remove d })
  · exact ⟨k', hquiet, hpoll, .inl (by rw [heq])⟩
  · refine ⟨k', hquiet, hpoll, ?_⟩
    rw [heq]
    split
    · exact .inl rfl
    · split
      · exact .inl rfl
      · exact .inr rfl

/-- To take a descriptor out of the poll set, whether or not that succeeds, does not concern the
others, and opens and closes nothing. -/
theorem pollDelete_spec (k : Kernel) (d : Int) :
    (k.pollDelete d).2.descriptors = k.descriptors ∧ (k.pollDelete d).2.streams = k.streams ∧
      (k.pollDelete d).2.site = k.site ∧ k.scripts.Spent (k.pollDelete d).2.scripts ∧
      ∀ e, e ≠ d → (k.pollDelete d).2.poll.registrations.get? e = k.poll.registrations.get? e := by
  obtain ⟨k', hquiet, hpoll, heq | heq⟩ := pollDelete_cases k d
  · rw [heq]
    exact ⟨hquiet.descriptors, hquiet.streams, hquiet.site, hquiet.scripts,
      fun e _ => by rw [hpoll]⟩
  · rw [heq]
    refine ⟨hquiet.descriptors, hquiet.streams, hquiet.site, hquiet.scripts, fun e he => ?_⟩
    rw [← hpoll]
    exact DescriptorMap.get?_erase_ne _ he

/-- What is not registered is not registered after it has been taken out. -/
theorem pollDelete_unregistered (h : k.poll.registrations.get? d = none) :
    (k.pollDelete d).2.poll.registrations.get? d = none := by
  obtain ⟨k', -, hpoll, heq | heq⟩ := pollDelete_cases k d
  · rw [heq, hpoll]
    exact h
  · rw [heq]
    exact DescriptorMap.get?_erase_self ..

/-- Discarding a descriptor does not concern the others. -/
theorem leaves_discard (h : e ≠ d) (hpoll : k.descriptors.get? d ≠ some .poll) :
    k.Leaves (k.discard d) e := by
  obtain ⟨hdescriptors, hstreams, -, -, hregistrations⟩ := pollDelete_spec k d
  have hsame : SameDescriptors k (k.pollDelete d).2 :=
    ⟨hdescriptors, congrArg List.length hstreams⟩
  have hdelete : k.Leaves (k.pollDelete d).2 e :=
    ⟨hsame.keeps fun n _ => by rw [hstreams], hregistrations e h⟩
  refine hdelete.trans (leaves_close h ?_)
  rw [hdescriptors]
  exact hpoll

/-- To discard a descriptor is to take it out and to close it, and both may happen. -/
theorem evolves_discard (k : Kernel) (d : Int) : k.Evolves (k.discard d) := by
  obtain ⟨hdescriptors, hstreams, hsite, hscripts, -⟩ := pollDelete_spec k d
  have hsame : SameDescriptors k (k.pollDelete d).2 :=
    ⟨hdescriptors, congrArg List.length hstreams⟩
  have hdelete := hsame.evolves hscripts hsite fun _ _ => .of_eq (by rw [hstreams])
  exact hdelete.trans (evolves_close ..)

/-- Discarding a descriptor writes to no stream. -/
theorem silent_discard (k : Kernel) (d : Int) (n : Nat) : k.Silent (k.discard d) n := by
  obtain ⟨-, hstreams, -⟩ := pollDelete_spec k d
  exact Silent.trans (.of_eq (by rw [hstreams])) (silent_close _ d n)

/-- A descriptor that has been discarded is open no more, and out of the poll set, also if it was
not open before and could not be taken out. -/
theorem discard_gone (hg : k.descriptors.get? d = none → k.poll.registrations.get? d = none) :
    (k.discard d).descriptors.get? d = none ∧ (k.discard d).poll.registrations.get? d = none := by
  obtain ⟨hdescriptors, -⟩ := pollDelete_spec k d
  refine close_self _ d fun hnone => pollDelete_unregistered (hg ?_)
  rw [← hdescriptors]
  exact hnone

/-- A descriptor that was open is gone when it has been discarded, also if it could not be taken
out of the poll set before: it leaves the set as it is closed. -/
theorem discard_self (h : (k.descriptors.get? d).isSome) :
    (k.discard d).descriptors.get? d = none ∧ (k.discard d).poll.registrations.get? d = none := by
  refine discard_gone fun hnone => ?_
  rw [hnone] at h
  cases h

/-- The stream behind a descriptor that is discarded is dropped. -/
theorem discard_stream (hn : k.streamOf? d = some n) :
    (k.discard d).streams[n]? = k.streams[n]?.map .drop := by
  obtain ⟨hdescriptors, hstreams, -⟩ := pollDelete_spec k d
  rw [discard, close_stream, hstreams]
  rw [streamOf?_congr (congrArg (·.get? d) hdescriptors)]
  exact hn

/-- A stream whose only descriptor has been discarded is behind none, and dropped. -/
theorem Owns.discard {s : Stream} (h : k.Owns d n) (hd : k.streamOf? d = some n)
    (hs : k.streams[n]? = some s) :
    (k.discard d).Loose n ∧ (k.discard d).streams[n]? = some s.drop := by
  have hdropped : (k.discard d).streams[n]? = some s.drop := by
    rw [discard_stream hd, hs]
    rfl
  refine ⟨⟨?_, fun e he => ?_⟩, hdropped⟩
  · obtain ⟨hn, -⟩ := List.getElem?_eq_some_iff.mp hdropped
    exact hn
  · have hget := get?_of_streamOf? hd
    have hgone := (discard_self (k := k) (d := d) (by rw [hget]; rfl)).1
    by_cases hed : e = d
    · rw [hed, refs_of_none hgone] at he
      cases he
    · have hpoll : k.descriptors.get? d ≠ some .poll := by
        rw [hget]
        rintro ⟨⟩
      rw [refs_congr (leaves_discard hed hpoll).descriptor] at he
      exact hed (h.only e he)

/-! ## New descriptors

The next number is the lowest that is free, so whatever is opened changes nothing behind the numbers
in use. -/

/-- The number that the next descriptor gets. -/
def nextDescriptor (k : Kernel) : Int := k.descriptors.firstFree firstDescriptor

/-- The number that the next descriptor gets is free. -/
theorem nextDescriptor_free (k : Kernel) : k.descriptors.get? k.nextDescriptor = none :=
  k.descriptors.get?_firstFree _

/-- The number that the next descriptor gets is not negative; negative numbers stand for what has
been closed. -/
theorem nextDescriptor_nonneg (k : Kernel) : 0 ≤ k.nextDescriptor :=
  Int.le_trans (by decide) (k.descriptors.le_firstFree firstDescriptor)

/-- Opening a descriptor behind which there is no stream does not concern the others. -/
theorem leaves_allocate {r : Resource} (he : e ≠ k.nextDescriptor)
    (hr : (k.allocate r).2.refs k.nextDescriptor = []) : k.Leaves (k.allocate r).2 e := by
  have hget : ∀ f, f ≠ k.nextDescriptor →
      (k.allocate r).2.descriptors.get? f = k.descriptors.get? f :=
    fun f hf => DescriptorMap.get?_set_ne _ _ hf
  refine ⟨⟨hget e he, fun n hn => ⟨⟨?_, fun f hf => ?_, hn.exists_stream⟩, rfl⟩⟩, rfl⟩
  · rw [refs_congr (hget e he)]
    exact hn.count_eq
  · by_cases hfe : f = k.nextDescriptor
    · rw [hfe, hr] at hf
      cases hf
    · rw [refs_congr (hget f hfe)] at hf
      exact hn.only f hf

/-- To open a descriptor behind which there is no stream is one of the changes that may happen. -/
theorem evolves_allocate {r : Resource} (hr : (k.allocate r).2.refs k.nextDescriptor = []) :
    k.Evolves (k.allocate r).2 := by
  refine .of_refs (Scripts.Spent.refl _) rfl rfl (fun e m hm => ⟨e, ?_⟩) fun _ _ => .of_eq rfl
  by_cases he : e = k.nextDescriptor
  · rw [he, hr] at hm
    cases hm
  · have hget : (k.allocate r).2.descriptors.get? e = k.descriptors.get? e :=
      DescriptorMap.get?_set_ne _ _ he
    rw [refs_congr hget] at hm
    exact hm

/-- A new poll set is empty, and its number was free. -/
theorem createPoll_cases (k : Kernel) :
    (∃ reason k', k.createPoll = (.error reason, k') ∧ k.Quiet k') ∨
      ∃ k', k.createPoll = (.ok k.nextDescriptor, k') ∧ k'.poll = {} ∧ k.Evolves k' ∧
        (∀ e, e ≠ k.nextDescriptor → k.Keeps k' e) ∧ k'.streams = k.streams := by
  have hquiet := quiet_takeFault k .pollCreate
  rcases htake : k.takeFault .pollCreate with ⟨fault, k₁⟩
  rw [htake] at hquiet
  have hnext : k₁.nextDescriptor = k.nextDescriptor :=
    congrArg (DescriptorMap.firstFree · firstDescriptor) hquiet.descriptors
  -- the epoll gets a number that was free, so no other descriptor changes
  have hcreated : ∃ k', ((.ok (Kernel.allocate { k₁ with poll := {} } .poll).1,
      (Kernel.allocate { k₁ with poll := {} } .poll).2) : Except Errno Int × Kernel) =
        (.ok k.nextDescriptor, k') ∧ k'.poll = {} ∧ k.Evolves k' ∧
        (∀ e, e ≠ k.nextDescriptor → k.Keeps k' e) ∧ k'.streams = k.streams := by
    have hself : (Kernel.allocate { k₁ with poll := {} } .poll).2.descriptors.get?
        (Kernel.nextDescriptor { k₁ with poll := {} }) = some .poll :=
        DescriptorMap.get?_set_self ..
    have hrefs : (Kernel.allocate { k₁ with poll := {} } .poll).2.refs
        (Kernel.nextDescriptor { k₁ with poll := {} }) = [] := by
      rw [refs, hself]
    refine ⟨_, by rw [← hnext]; rfl, rfl,
      (hquiet.evolves.trans (evolves_poll k₁ {})).trans (evolves_allocate hrefs), fun e he => ?_,
      hquiet.streams⟩
    have hne : e ≠ k₁.nextDescriptor := fun heq => he (heq.trans hnext)
    have hallocate := leaves_allocate (k := { k₁ with poll := {} }) hne hrefs
    exact ((hquiet.leaves e).toKeeps.trans (keeps_poll k₁ {} e)).trans hallocate.toKeeps
  simp only [createPoll]
  rw [htake]
  rcases fault with _ | ⟨bytes⟩ | reason
  · exact .inr hcreated
  · exact .inr hcreated
  · exact .inl ⟨reason, k₁, rfl, hquiet⟩

/-- To make a pipe is to open two descriptors behind which there is no stream. -/
theorem evolves_createPipe (k : Kernel) : k.Evolves k.createPipe.2 := by
  have hquiet := quiet_takeFault k .createPipe
  have hends : ∀ (k : Kernel) number,
      k.Evolves ((k.allocate (.pipeOut number)).2.allocate (.pipeIn number)).2 := by
    intro k number
    have hout : (k.allocate (.pipeOut number)).2.descriptors.get? k.nextDescriptor =
        some (.pipeOut number) := DescriptorMap.get?_set_self ..
    have hinto : ∀ k : Kernel, (k.allocate (.pipeIn number)).2.descriptors.get? k.nextDescriptor =
        some (.pipeIn number) := fun k => DescriptorMap.get?_set_self ..
    exact (evolves_allocate (by rw [refs, hout])).trans (evolves_allocate (by rw [refs, hinto]))
  have hadded : ∀ k : Kernel, k.Quiet { k with pipes := k.pipes ++ [({} : Pipe)] } :=
    fun _ => ⟨rfl, rfl, rfl, rfl, .refl _⟩
  simp only [createPipe]
  split
  · rename_i h
    rw [h] at hquiet
    exact hquiet.evolves
  · rename_i k₁ _ h
    rw [h] at hquiet
    exact (hquiet.trans (hadded k₁)).evolves.trans (hends _ _)

/-- To map a file uses up entries of the script for it. -/
theorem mapContent_suffix (content : Bytes) (maps : Script) :
    (DocumentRoot.mapContent content maps).2 <:+ maps := by
  simp only [DocumentRoot.mapContent]
  split
  · exact List.suffix_refl _
  · exact List.suffix_cons ..
  · exact List.tail_suffix _

/-- Mapping a file is quiet: all that it leaves behind is in the scripts. -/
theorem quiet_mapFile (k : Kernel) (content : Bytes) : k.Quiet (k.mapFile content).2 := by
  have hspent := Scripts.spent_set (a := k.scripts)
    (mapContent_suffix content (k.scripts.of .mapFile))
  exact quiet_scripts hspent

/-- A file that is opened, mapped and closed leaves no trace. -/
theorem locate_spec (hk : k.poll.registrations.get? k.nextDescriptor = none) (root url : String) :
    k.Evolves (k.locate root url).2 ∧ ∀ d, k.Leaves (k.locate root url).2 d := by
  simp only [locate]
  split
  · exact ⟨Evolves.refl k, Leaves.refl k⟩
  · rename_i content hcontent
    have hmap := quiet_mapFile (k.allocate .file).2 content
    have hself : ((k.allocate .file).2.mapFile content).2.descriptors.get? k.nextDescriptor =
        some .file := DescriptorMap.get?_set_self ..
    have hrefs : (k.allocate .file).2.refs k.nextDescriptor = [] := by
      have hfile : (k.allocate .file).2.descriptors.get? k.nextDescriptor = some .file :=
        DescriptorMap.get?_set_self ..
      rw [refs, hfile]
    refine ⟨((evolves_allocate hrefs).trans hmap.evolves).trans (evolves_close ..), fun e => ?_⟩
    by_cases he : e = k.nextDescriptor
    · -- the number of the file was free, and is free again
      subst he
      have hfree := k.nextDescriptor_free
      obtain ⟨hclosed, hgone⟩ := close_self ((k.allocate .file).2.mapFile content).2
        k.nextDescriptor fun hnone => by rw [hnone] at hself; cases hself
      refine ⟨⟨hclosed.trans hfree.symm, fun n hn => ?_⟩, hgone.trans hk.symm⟩
      have hmem := hn.mem
      rw [refs_of_none hfree] at hmem
      cases hmem
    · refine ((leaves_allocate he hrefs).trans (hmap.leaves e)).trans
        (leaves_close he fun hpoll => ?_)
      cases hself.symm.trans hpoll

/-- A file is opened, mapped and closed without a stream being touched. -/
theorem streams_locate (k : Kernel) (root url : String) :
    (k.locate root url).2.streams = k.streams := by
  simp only [locate]
  split
  · rfl
  · next content _ =>
    have hself : ((k.allocate .file).2.mapFile content).2.descriptors.get? (k.allocate .file).1 =
        some .file := DescriptorMap.get?_set_self ..
    rw [close, hself]
    rfl

/-! ## Clients

A client that connects opens a stream that waits at the listener, and one that is accepted has its
stream moved behind a new descriptor. -/

/-- The stream that has waited longest at a listener is behind a new descriptor, whose number was
free. -/
structure Accepts (k k' : Kernel) (listener d : Int) (n : Nat) : Prop where
  free : k.descriptors.get? d = none
  nonneg : 0 ≤ d
  lt_limit : d < descriptorLimit
  waited : k.refs listener = n :: k'.refs listener
  stream : k'.streamOf? d = some n
  awaits : ∃ l, k.descriptors.get? listener = some (.listener l)
  listens : ∃ l, k'.descriptors.get? listener = some (.listener l)
  others : ∀ e, e ≠ d → e ≠ listener → k'.descriptors.get? e = k.descriptors.get? e
  registrations : k'.poll.registrations = k.poll.registrations
  streams : k'.streams = k.streams
  site : k'.site = k.site
  scripts : k.scripts.Spent k'.scripts

namespace Accepts

variable {listener : Int}

/-- Whatever is behind a descriptor now was behind it before, or waited at the listener. -/
theorem mem_refs (h : Accepts k k' listener d n) {m : Nat} (hm : m ∈ k'.refs e) :
    m ∈ k.refs e ∨ (e = d ∧ m = n) := by
  by_cases hd : e = d
  · rw [hd, refs_of_streamOf? h.stream] at hm
    exact .inr ⟨hd, List.mem_singleton.mp hm⟩
  · by_cases hl : e = listener
    · rw [hl] at hm
      rw [hl, h.waited]
      exact .inl (List.mem_cons_of_mem _ hm)
    · rw [refs_congr (h.others e hd hl)] at hm
      exact .inl hm

/-- To accept a client is one of the changes that may happen. The stream has waited at the
listener, so it was not loose before. -/
theorem evolves (h : Accepts k k' listener d n) : k.Evolves k' := by
  refine .of_refs h.scripts h.site (congrArg List.length h.streams) (fun e m hm => ?_)
    fun _ _ => .of_eq (by rw [h.streams])
  rcases h.mem_refs hm with hm | ⟨-, rfl⟩
  · exact ⟨e, hm⟩
  · refine ⟨listener, ?_⟩
    rw [h.waited]
    exact List.mem_cons_self

/-- Accepting a client leaves alone all descriptors but the listener and the new one. A stream
that one of these owns does not wait at the listener. -/
theorem leaves (h : Accepts k k' listener d n) (hd : e ≠ d) (hl : e ≠ listener) :
    k.Leaves k' e := by
  refine ⟨⟨h.others e hd hl, fun m hm => ⟨⟨?_, fun f hf => ?_, ?_⟩, ?_⟩⟩, by rw [h.registrations]⟩
  · rw [refs_congr (h.others e hd hl)]
    exact hm.count_eq
  · rcases h.mem_refs hf with hf | ⟨-, rfl⟩
    · exact hm.only f hf
    · refine absurd (hm.only listener ?_) (Ne.symm hl)
      rw [h.waited]
      exact List.mem_cons_self
  · rw [h.streams]
    exact hm.exists_stream
  · rw [h.streams]

/-- The stream accepted belongs to the new descriptor if it waited at the listener alone. -/
theorem owns (h : Accepts k k' listener d n) (hn : k.Owns listener n) : k'.Owns d n := by
  have hcount := hn.count_eq
  rw [h.waited, List.count_cons_self] at hcount
  refine ⟨by rw [refs_of_streamOf? h.stream, List.count_singleton_self], fun e he => ?_,
    h.streams ▸ hn.exists_stream⟩
  by_cases hd : e = d
  · exact hd
  · rcases h.mem_refs he with hmem | ⟨hd', -⟩
    · rw [hn.only e hmem] at he
      have hpos := List.count_pos_iff.mpr he
      omega
    · exact absurd hd' hd

/-- The other streams go on waiting. -/
theorem owns_listener (h : Accepts k k' listener d n) {m : Nat} (hm : k.Owns listener m)
    (hne : m ≠ n) : k'.Owns listener m := by
  have hcount := hm.count_eq
  rw [h.waited, List.count_cons_of_ne (Ne.symm hne)] at hcount
  refine ⟨hcount, fun e he => ?_, h.streams ▸ hm.exists_stream⟩
  rcases h.mem_refs he with he | ⟨-, heq⟩
  · exact hm.only e he
  · exact absurd heq hne

end Accepts

/-- What comes of an attempt that no script meets: the one who has waited longest is accepted, if
anybody waits and there is a number left. -/
theorem plainAccept_cases {scripts : Scripts} (hspent : k.scripts.Spent scripts) (listener : Int) :
    (∃ d peer n k', Kernel.plainAccept { k with scripts } listener = (.accepted d peer, k') ∧
        Accepts k k' listener d n) ∨
      ((∀ d peer, (Kernel.plainAccept { k with scripts } listener).1 ≠ .accepted d peer) ∧
        k.Quiet (Kernel.plainAccept { k with scripts } listener).2) := by
  have hquiet : k.Quiet { k with scripts } := quiet_scripts hspent
  rw [plainAccept]
  dsimp only
  split
  · rename_i l hl
    split
    · exact .inr ⟨by rintro d peer ⟨⟩, hquiet⟩
    · rename_i number rest hbacklog
      split
      · exact .inr ⟨by rintro d peer ⟨⟩, hquiet⟩
      · rename_i hlimit
        have hfree := k.nextDescriptor_free
        -- the listener is open, so the number given out is another
        have hne : k.descriptors.firstFree firstDescriptor ≠ listener := by
          intro heq
          rw [nextDescriptor, heq, hl] at hfree
          cases hfree
        refine .inl ⟨_, _, number, _, rfl, ?_⟩
        refine ⟨hfree, k.nextDescriptor_nonneg, Int.not_le.mp hlimit, ?_, ?_, ⟨l, hl⟩, ?_, ?_,
          rfl, rfl, rfl, hspent⟩
        · rw [refs, hl, refs]
          dsimp only
          rw [DescriptorMap.get?_set_ne _ _ (Ne.symm hne), DescriptorMap.get?_set_self]
          exact hbacklog
        · rw [streamOf?]
          dsimp only
          rw [DescriptorMap.get?_set_self]
        · refine ⟨{ l with backlog := rest }, ?_⟩
          dsimp only
          rw [DescriptorMap.get?_set_ne _ _ (Ne.symm hne), DescriptorMap.get?_set_self]
        · intro e hd he
          dsimp only
          rw [DescriptorMap.get?_set_ne _ _ hd, DescriptorMap.get?_set_ne _ _ he]
  · exact .inr ⟨by rintro d peer ⟨⟩, hquiet⟩
  · exact .inr ⟨by rintro d peer ⟨⟩, hquiet⟩
  · exact .inr ⟨by rintro d peer ⟨⟩, hquiet⟩
  · exact .inr ⟨by rintro d peer ⟨⟩, hquiet⟩

/-- What comes of an attempt to accept: a client, or nothing changes. -/
theorem accept_cases (k : Kernel) (listener : Int) :
    (∃ d peer n k', k.accept listener = (.accepted d peer, k') ∧ Accepts k k' listener d n) ∨
      ((∀ d peer, (k.accept listener).1 ≠ .accepted d peer) ∧
        k.Quiet (k.accept listener).2) := by
  have hunder : ∀ script : Script, script <:+ k.scripts.of .accept →
      (∃ d peer n k', k.acceptUnder listener script = (.accepted d peer, k') ∧
        Accepts k k' listener d n) ∨
      ((∀ d peer, (k.acceptUnder listener script).1 ≠ .accepted d peer) ∧
        k.Quiet (k.acceptUnder listener script).2) := by
    intro script hs
    fun_induction acceptUnder k listener script with
    | case1 rest ih => exact ih ((List.suffix_cons ..).trans hs)
    | case2 reason rest hi =>
      refine .inr ⟨?_, quiet_scripts (Scripts.spent_set ((List.suffix_cons ..).trans hs))⟩
      split <;> rintro d peer ⟨⟩
    | case3 script =>
      exact plainAccept_cases (Scripts.spent_set ((List.tail_suffix _).trans hs)) listener
  exact hunder _ (List.suffix_refl _)

/-- A stream that a client has opened waits at the listener, behind all that wait there already. -/
structure Connects (k k' : Kernel) (listener : Int) (n : Nat) : Prop where
  number : n = k.streams.length
  streams : k'.streams = k.streams ++ [({} : Stream)]
  awaits : ∃ l, k.descriptors.get? listener = some (.listener l)
  listens : ∃ l, k'.descriptors.get? listener = some (.listener l)
  refs : k'.refs listener = k.refs listener ++ [n]
  others : ∀ e, e ≠ listener → k'.descriptors.get? e = k.descriptors.get? e
  registrations : k'.poll.registrations = k.poll.registrations
  site : k'.site = k.site
  scripts : k.scripts.Spent k'.scripts

namespace Connects

variable {listener : Int}

/-- Whatever is behind a descriptor was behind it before, or is the new stream at the listener. -/
theorem mem_refs (h : Connects k k' listener n) {m : Nat} (hm : m ∈ k'.refs e) :
    m ∈ k.refs e ∨ (e = listener ∧ m = n) := by
  by_cases hl : e = listener
  · rw [hl, h.refs, List.mem_append, List.mem_singleton] at hm
    rcases hm with hm | hm
    · exact .inl (hl ▸ hm)
    · exact .inr ⟨hl, hm⟩
  · rw [refs_congr (h.others e hl)] at hm
    exact .inl hm

/-- There is one stream more. -/
theorem length (h : Connects k k' listener n) : k'.streams.length = k.streams.length + 1 := by
  rw [h.streams, List.length_append, List.length_singleton]

/-- To those that there were nothing is written. -/
theorem silent (h : Connects k k' listener n) {m : Nat} (hm : m < k.streams.length) :
    k.Silent k' m :=
  .of_eq (by rw [h.streams, List.getElem?_append_left hm])

/-- A client who connects is one of the changes that may happen. The new stream is in range, and
was not loose before, as it was not there. -/
theorem evolves (h : Connects k k' listener n) : k.Evolves k' := by
  refine ⟨h.scripts, h.site, fun hk e m hm => ?_, fun m hm => ⟨⟨?_, fun e he => ?_⟩, ?_⟩⟩
  · rw [h.length]
    rcases h.mem_refs hm with hm | ⟨-, rfl⟩
    · exact Nat.lt_succ_of_lt (hk e m hm)
    · exact h.number ▸ Nat.lt_succ_self _
  · rw [h.length]
    exact Nat.lt_succ_of_lt hm.exists_stream
  · rcases h.mem_refs he with he | ⟨-, heq⟩
    · exact hm.not_mem e he
    · exact absurd hm.exists_stream (Nat.not_lt.mpr (Nat.le_of_eq (heq.trans h.number).symm))
  · exact h.silent hm.exists_stream

/-- The streams that there were stay where they are. -/
theorem owns (h : Connects k k' listener n) {m : Nat} (hm : k.Owns e m) :
    k'.Owns e m ∧ k'.streams[m]? = k.streams[m]? := by
  have hne : m ≠ n := Nat.ne_of_lt (h.number ▸ hm.exists_stream)
  refine ⟨⟨?_, fun f hf => ?_, ?_⟩, ?_⟩
  · by_cases hl : e = listener
    · rw [hl, h.refs, List.count_append, List.count_singleton, if_neg (by simpa using Ne.symm hne),
        ← hl, hm.count_eq]
    · rw [refs_congr (h.others e hl)]
      exact hm.count_eq
  · rcases h.mem_refs hf with hf | ⟨-, heq⟩
    · exact hm.only f hf
    · exact absurd heq hne
  · rw [h.length]
    exact Nat.lt_succ_of_lt hm.exists_stream
  · rw [h.streams, List.getElem?_append_left hm.exists_stream]

/-- A client who connects is noticed through the listener only. -/
theorem leaves (h : Connects k k' listener n) (he : e ≠ listener) : k.Leaves k' e :=
  ⟨⟨h.others e he, fun _ hm => h.owns hm⟩, by rw [h.registrations]⟩

/-- The new stream waits at the listener alone. -/
theorem owns_new (h : Connects k k' listener n) (hk : k.InRange) : k'.Owns listener n := by
  have hnew : ∀ e, n ∉ k.refs e := fun e he => Nat.lt_irrefl _ (h.number ▸ hk e n he)
  refine ⟨?_, fun e he => ?_, ?_⟩
  · rw [h.refs, List.count_append, List.count_singleton_self,
      List.count_eq_zero_of_not_mem (hnew listener)]
  · rcases h.mem_refs he with he | ⟨he, -⟩
    · exact absurd he (hnew e)
    · exact he
  · rw [h.length, h.number]
    exact Nat.lt_succ_self _

end Connects

/-- A client who connects comes to wait, or finds nobody who listens, and then nothing has
happened. -/
theorem connect_cases (k : Kernel) (listener : Int) :
    (∃ n k', k.connect listener = (some n, k') ∧ Connects k k' listener n) ∨
      k.connect listener = (none, k) := by
  simp only [connect]
  split
  · rename_i l hl
    split
    · refine .inl ⟨_, _, rfl, ?_⟩
      have hquiet := fun k' : Kernel => quiet_notify k' listener
      refine ⟨rfl, (hquiet _).streams, ⟨l, hl⟩, ?_, ?_, ?_, (hquiet _).registrations,
        (hquiet _).site, (hquiet _).scripts⟩
      · refine ⟨{ l with backlog := l.backlog ++ [k.streams.length] }, ?_⟩
        rw [(hquiet _).descriptors]
        exact DescriptorMap.get?_set_self ..
      · rw [(hquiet _).same.refs, refs, refs, hl]
        dsimp only
        rw [DescriptorMap.get?_set_self]
      · intro e he
        rw [(hquiet _).descriptors]
        exact DescriptorMap.get?_set_ne _ _ he
    · exact .inr rfl
  · exact .inr rfl

end FileServer.Kernel
