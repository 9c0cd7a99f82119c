import FileServer.Proofs.Kernel.Operations
import Mathlib.Tactic.Tauto

/-!
# What the wake-up pipe notices

Nothing that is done for clients is noticed by a pipe: the bytes in it are the same, its ends are
open and registered as before, and where an end was to be looked at it still is. `Kernel.Bypasses`
says so, and each operation of the kernel that is not about a pipe gets one lemma. A registration
that reports every change, as that of the wake-up pipe does, does not come about by the way either.

The three that are about the pipe are to put a byte into it (`Kernel.Joined.wake`), to read from it
(`Kernel.Joined.pipeRead`), and to fetch events (`Fetched`): an event takes its descriptor off the
list of those to be looked at, and the registration of a pipe stays as it is.
-/

namespace FileServer.Kernel

variable {k k' k'' : Kernel} {d e : Int} {n : Nat}

/-! ## Changes beside the pipes

What is asked of a change is what the loop relies on: that the pipe holds as many bytes, that its
ends are open and registered, and that an end which was to be looked at still is. -/

/-- One end of a pipe is open under a number. -/
def IsPipe (k : Kernel) (d : Int) : Prop :=
  ∃ n, k.descriptors.get? d = some (.pipeOut n) ∨ k.descriptors.get? d = some (.pipeIn n)

/-- A change that no pipe notices. -/
structure Bypasses (k k' : Kernel) : Prop where
  /-- the pipes hold what they held -/
  pipes : k'.pipes = k.pipes
  /-- their ends are open under the same numbers -/
  descriptor : ∀ d, k.IsPipe d → k'.descriptors.get? d = k.descriptors.get? d
  /-- the registrations of their ends are the same -/
  registration : ∀ d, k.IsPipe d → k'.poll.registrations.get? d = k.poll.registrations.get? d
  /-- an end that was to be looked at still is -/
  pending : ∀ d, k.IsPipe d → d ∈ k.poll.pending → d ∈ k'.poll.pending
  /-- a registration that reports every change was there before -/
  standing : ∀ d g, k'.poll.registrations.get? d = some g → g.oneShot = false →
    k.poll.registrations.get? d = some g

theorem IsPipe.congr (hd : k.IsPipe d) (h : k'.descriptors.get? d = k.descriptors.get? d) :
    k'.IsPipe d := by
  obtain ⟨n, hn⟩ := hd
  exact ⟨n, by rw [h]; exact hn⟩

/-- The descriptor of a connection is no end of a pipe, so what is done to it cannot be noticed by
one. -/
theorem not_isPipe_of_streamOf? (h : k.streamOf? d = some n) : ¬ k.IsPipe d := by
  rintro ⟨m, hm | hm⟩ <;> cases (get?_of_streamOf? h).symm.trans hm

theorem not_isPipe_of_none (h : k.descriptors.get? d = none) : ¬ k.IsPipe d := by
  rintro ⟨m, hm | hm⟩ <;> cases h.symm.trans hm

theorem not_isPipe_of_listener {l : Listener} (h : k.descriptors.get? d = some (.listener l)) :
    ¬ k.IsPipe d := by
  rintro ⟨m, hm | hm⟩ <;> cases h.symm.trans hm

namespace Bypasses

theorem refl (k : Kernel) : k.Bypasses k :=
  ⟨rfl, fun _ _ => rfl, fun _ _ => rfl, fun _ _ h => h, fun _ _ h _ => h⟩

/-- Changes that no pipe notices follow upon each other. What the first one leaves as the end of a
pipe is one for the second. -/
theorem trans (h : k.Bypasses k') (h' : k'.Bypasses k'') : k.Bypasses k'' := by
  have hpipe : ∀ d, k.IsPipe d → k'.IsPipe d := fun d hd => hd.congr (h.descriptor d hd)
  refine ⟨h'.pipes.trans h.pipes, fun d hd => ?_, fun d hd => ?_, fun d hd hmem => ?_,
    fun d g hg hshot => ?_⟩
  · exact (h'.descriptor d (hpipe d hd)).trans (h.descriptor d hd)
  · exact (h'.registration d (hpipe d hd)).trans (h.registration d hd)
  · exact h'.pending d (hpipe d hd) (h.pending d hd hmem)
  · exact h.standing d g (h'.standing d g hg hshot) hshot

/-- A change that leaves the pipes, the descriptors and the poll set alone. -/
theorem of_same (hpipes : k'.pipes = k.pipes) (hdescriptors : k'.descriptors = k.descriptors)
    (hpoll : k'.poll = k.poll) : k.Bypasses k' := by
  refine ⟨hpipes, fun d _ => by rw [hdescriptors], fun d _ => by rw [hpoll], fun d _ h => ?_,
    fun d g h _ => ?_⟩
  · rw [hpoll]
    exact h
  · rw [hpoll] at h
    exact h

end Bypasses

/-! ## Looking, registering, taking out

Changes of the poll set that are about other descriptors. -/

/-- To look at a descriptor takes none off the list of those to be looked at. -/
theorem mem_pending_notify {p : Poll} {d e : Int} {now : Readiness} (h : e ∈ p.pending) :
    e ∈ (p.notify d now).pending := by
  simp only [Poll.notify]
  split
  · split
    · exact List.mem_append_left _ h
    · exact h
  · exact h

theorem bypasses_notify (k : Kernel) (d : Int) : k.Bypasses (k.notify d) :=
  ⟨rfl, fun _ _ => rfl, fun _ _ => by rw [notify, registrations_notify],
    fun _ _ h => mem_pending_notify h, fun _ _ h _ => by rwa [notify, registrations_notify] at h⟩

/-- To notify the poll set of a resource, which is to notify each of its descriptors, is not
noticed by a pipe either. -/
theorem bypasses_notifyResource (k : Kernel) (resource : Resource) :
    k.Bypasses (k.notifyResource resource) := by
  simp only [notifyResource]
  generalize k.descriptors.entries.filter (·.2 = resource) = entries
  induction entries generalizing k with
  | nil => exact .refl k
  | cons entry rest ih => exact (bypasses_notify k entry.1).trans (ih _)

/-- A descriptor that is no pipe's is registered for one event. -/
theorem bypasses_register {g : Registration} (hd : ¬ k.IsPipe d) (hg : g.oneShot = true)
    (now : Readiness) : k.Bypasses { k with poll := k.poll.register d g now } := by
  have hregistrations : (k.poll.register d g now).registrations = k.poll.registrations.set d g :=
    registrations_notify ..
  have hne : ∀ e, k.IsPipe e → e ≠ d := by
    rintro e he rfl
    exact hd he
  refine ⟨rfl, fun _ _ => rfl, fun e he => ?_, fun e _ h => mem_pending_notify h,
    fun e g' he hshot => ?_⟩
  · dsimp only
    rw [hregistrations]
    exact DescriptorMap.get?_set_ne _ _ (hne e he)
  · dsimp only at he
    rw [hregistrations] at he
    by_cases hed : e = d
    · rw [hed, DescriptorMap.get?_set_self] at he
      obtain rfl := Option.some.inj he
      rw [hg] at hshot
      cases hshot
    · rwa [DescriptorMap.get?_set_ne _ _ hed] at he

/-- A descriptor that is no pipe's is taken out of the poll set. -/
theorem bypasses_remove (hd : ¬ k.IsPipe d) : k.Bypasses { k with poll := k.poll.remove d } := by
  have hne : ∀ e, k.IsPipe e → e ≠ d := by
    rintro e he rfl
    exact hd he
  refine ⟨rfl, fun _ _ => rfl, fun e he => ?_, fun e he h => ?_, fun e g he _ => ?_⟩
  · exact DescriptorMap.get?_erase_ne _ (hne e he)
  · exact List.mem_filter.mpr ⟨h, by simpa using hne e he⟩
  · have hed : e ≠ d := by
      rintro rfl
      rw [Poll.remove, DescriptorMap.get?_erase_self] at he
      cases he
    rwa [Poll.remove, DescriptorMap.get?_erase_ne _ hed] at he

/-- A control call is noticed no more than the change it makes. -/
theorem bypasses_control {change : Kernel → Except Errno Unit × Kernel}
    (h : ∀ k' : Kernel, k'.descriptors = k.descriptors → k'.Bypasses (change k').2) :
    k.Bypasses (k.control change).2 := by
  have htake : k.Bypasses (k.takeFault .pollControl).2 := .of_same rfl rfl rfl
  have hchange := h (k.takeFault .pollControl).2 rfl
  simp only [control]
  rcases hfault : k.takeFault .pollControl with ⟨fault, k₁⟩
  rw [hfault] at htake hchange
  rcases fault with _ | ⟨_ | n⟩ | reason
  · exact htake.trans hchange
  · exact htake
  · exact htake.trans hchange
  · exact htake

/-- A descriptor that is no pipe's is added for one event. -/
theorem bypasses_pollAdd {g : Registration} (hd : ¬ k.IsPipe d) (hg : g.oneShot = true) :
    k.Bypasses (k.pollAdd d g).2 := by
  refine bypasses_control fun k' hk' => ?_
  have hd' : ¬ k'.IsPipe d := fun h => hd (h.congr (by rw [hk']))
  split
  · exact .refl k'
  · split
    · exact .refl k'
    · exact bypasses_register hd' hg _

/-- Or its registration is changed to one for one event. -/
theorem bypasses_pollModify {g : Registration} (hd : ¬ k.IsPipe d) (hg : g.oneShot = true) :
    k.Bypasses (k.pollModify d g).2 := by
  refine bypasses_control fun k' hk' => ?_
  have hd' : ¬ k'.IsPipe d := fun h => hd (h.congr (by rw [hk']))
  split
  · exact .refl k'
  · split
    · exact .refl k'
    · exact bypasses_register hd' hg _

/-- Or it is taken out. -/
theorem bypasses_pollDelete (hd : ¬ k.IsPipe d) : k.Bypasses (k.pollDelete d).2 := by
  rw [pollDelete_snd]
  refine bypasses_control fun k' hk' => ?_
  have hd' : ¬ k'.IsPipe d := fun h => hd (h.congr (by rw [hk']))
  split
  · exact .refl k'
  · split
    · exact .refl k'
    · exact bypasses_remove hd'

/-! ## Opening and closing

A number that is opened was free, and one that is closed has a stream or a file behind it, so
neither is an end of a pipe. -/

/-- To open a descriptor is to use a number that is free. -/
theorem bypasses_allocate (k : Kernel) (resource : Resource) :
    k.Bypasses (k.allocate resource).2 := by
  refine ⟨rfl, fun e he => ?_, fun _ _ => rfl, fun _ _ h => h, fun _ _ h _ => h⟩
  refine DescriptorMap.get?_set_ne _ _ ?_
  rintro rfl
  exact not_isPipe_of_none k.nextDescriptor_free he

/-- A descriptor behind which there is a stream or a file is closed. -/
theorem bypasses_close {r : Resource} (hr : k.descriptors.get? d = some r)
    (hstream : r = .file ∨ ∃ n, r = .stream n) : k.Bypasses (k.close d) := by
  have hd : ¬ k.IsPipe d := by
    rintro ⟨m, hm⟩
    rw [hr] at hm
    rcases hstream with rfl | ⟨n, rfl⟩ <;> rcases hm with hm | hm <;> cases hm
  have hremoved := bypasses_remove hd
  have hwithout : k.Bypasses (k.without d) := by
    refine { hremoved with descriptor := fun e he => ?_ }
    refine without_ne k ?_
    rintro rfl
    exact hd he
  have hended : ∀ k' : Kernel, k'.Bypasses (k'.endResource r) := by
    intro k'
    rcases hstream with rfl | ⟨n, rfl⟩
    · exact .refl k'
    · exact .of_same rfl rfl rfl
  rw [close_of_some hr]
  exact hwithout.trans (hended _)

/-- A pipe does not notice that a connection is closed. -/
theorem bypasses_close_stream (hd : k.streamOf? d = some n) : k.Bypasses (k.close d) :=
  bypasses_close (get?_of_streamOf? hd) (.inr ⟨n, rfl⟩)

/-- nor that its descriptor is discarded. -/
theorem bypasses_discard (hd : k.streamOf? d = some n) : k.Bypasses (k.discard d) := by
  obtain ⟨hdescriptors, -⟩ := pollDelete_spec k d
  have hstream : (k.pollDelete d).2.streamOf? d = some n :=
    (streamOf?_congr (by rw [hdescriptors])).trans hd
  exact (bypasses_pollDelete (not_isPipe_of_streamOf? hd)).trans (bypasses_close_stream hstream)

/-- A file is opened, mapped and closed. -/
theorem bypasses_locate (k : Kernel) (root url : String) : k.Bypasses (k.locate root url).2 := by
  simp only [locate]
  split
  · exact .refl k
  · next content _ =>
    have hmap : (k.allocate .file).2.Bypasses ((k.allocate .file).2.mapFile content).2 :=
      .of_same rfl rfl rfl
    have hself : ((k.allocate .file).2.mapFile content).2.descriptors.get? (k.allocate .file).1 =
        some .file := DescriptorMap.get?_set_self ..
    exact ((bypasses_allocate k .file).trans hmap).trans (bypasses_close hself (.inl rfl))

/-! ## Streams and clients -/

/-- Nothing that goes through the descriptor of a connection gets into a pipe. -/
theorem bypasses_putWire (k : Kernel) (d : Int) (w : Wire) : k.Bypasses (k.putWire d w) := by
  simp only [putWire]
  split
  · exact .of_same rfl rfl rfl
  · exact .of_same rfl rfl rfl

/-- Nothing that a client does does. -/
theorem bypasses_asClient {α : Type} (k : Kernel) (number : Nat) (f : Stream → α × Stream) :
    k.Bypasses (k.asClient number f).2 := by
  simp only [asClient]
  split
  · exact .refl k
  · next s _ =>
    have hupdated : k.Bypasses (k.updateStream number fun _ => (f s).2) := .of_same rfl rfl rfl
    exact hupdated.trans (bypasses_notifyResource ..)

/-- A listener's descriptor comes to have another listener behind it. -/
theorem bypasses_listener {l : Listener} (hd : k.descriptors.get? d = some (.listener l))
    (r : Resource) : k.Bypasses { k with descriptors := k.descriptors.set d r } := by
  refine ⟨rfl, fun e he => ?_, fun _ _ => rfl, fun _ _ h => h, fun _ _ h _ => h⟩
  refine DescriptorMap.get?_set_ne _ _ ?_
  rintro rfl
  exact not_isPipe_of_listener hd he

/-- A client who connects is noticed by the listener. -/
theorem bypasses_connect (k : Kernel) (listener : Int) : k.Bypasses (k.connect listener).2 := by
  simp only [connect]
  split
  · next l hl =>
    split
    · have hset :=
        bypasses_listener hl (.listener { l with backlog := l.backlog ++ [k.streams.length] })
      have hstreams : ∀ k' : Kernel, ∀ streams, k'.Bypasses { k' with streams } :=
        fun _ _ => .of_same rfl rfl rfl
      exact (hset.trans (hstreams _ _)).trans (bypasses_notify ..)
    · exact .refl k
  · exact .refl k

/-- A client who is accepted gets a number that was free, and waits at the listener no more. -/
theorem bypasses_plainAccept (k : Kernel) (listener : Int) :
    k.Bypasses (k.plainAccept listener).2 := by
  rw [plainAccept]
  split
  · next l hl =>
    split
    · exact .refl k
    · next number rest _ =>
      dsimp only
      split
      · exact .refl k
      · refine ⟨rfl, fun e he => ?_, fun _ _ => rfl, fun _ _ h => h, fun _ _ h _ => h⟩
        have hlistener : e ≠ listener := by
          rintro rfl
          exact not_isPipe_of_listener hl he
        have hfree : e ≠ k.descriptors.firstFree firstDescriptor := by
          rintro rfl
          exact not_isPipe_of_none k.nextDescriptor_free he
        exact (DescriptorMap.get?_set_ne _ _ hfree).trans (DescriptorMap.get?_set_ne _ _ hlistener)
  · exact .refl k
  · exact .refl k
  · exact .refl k
  · exact .refl k

/-- A pipe does not notice that a client is accepted, under whatever script. -/
theorem bypasses_accept (k : Kernel) (listener : Int) : k.Bypasses (k.accept listener).2 := by
  have hscripts : ∀ scripts, k.Bypasses { k with scripts } := fun _ => .of_same rfl rfl rfl
  have hunder : ∀ script : Script, k.Bypasses (k.acceptUnder listener script).2 := by
    intro script
    fun_induction acceptUnder k listener script with
    | case1 rest ih => exact ih
    | case2 reason rest hi => exact hscripts _
    | case3 script => exact (hscripts _).trans (bypasses_plainAccept ..)
  exact hunder _

/-- To begin to wait looks at nothing and reports nothing yet. -/
theorem bypasses_beginWait (k : Kernel) (max : Nat) : k.Bypasses (k.beginWait max).2 := by
  have htake : k.Bypasses (k.takeFault .pollWait).2 := .of_same rfl rfl rfl
  simp only [beginWait]
  split
  · next h =>
    rw [h] at htake
    exact htake
  · next h =>
    rw [h] at htake
    exact htake
  · next h =>
    rw [h] at htake
    exact htake

/-! ## The ends of a pipe

Two numbers are joined by a pipe for as long as both ends are open. What is written to one can be
read from the other. -/

/-- Two numbers are those of the two ends of a pipe, and both ends are open. -/
structure Joined (k : Kernel) (out into : Int) (n : Nat) (p : Pipe) : Prop where
  out : k.descriptors.get? out = some (.pipeOut n)
  into : k.descriptors.get? into = some (.pipeIn n)
  pipe : k.pipes[n]? = some p
  readable : p.readable = true
  writable : p.writable = true

variable {out into : Int} {p : Pipe}

/-- A new pipe is empty. -/
theorem joined_createPipe (h : k.createPipe = (.ok (out, into), k')) :
    ∃ n, k'.Joined out into n {} := by
  have hjoined : ∀ k : Kernel, ∀ n, k.pipes[n]? = some ({} : Pipe) →
      ((k.allocate (.pipeOut n)).2.allocate (.pipeIn n)).2.Joined (k.allocate (.pipeOut n)).1
        ((k.allocate (.pipeOut n)).2.allocate (.pipeIn n)).1 n {} := by
    intro k n hn
    have hout : (k.allocate (.pipeOut n)).2.descriptors.get? (k.allocate (.pipeOut n)).1 =
        some (.pipeOut n) := DescriptorMap.get?_set_self ..
    have hkept := (bypasses_allocate (k.allocate (.pipeOut n)).2 (.pipeIn n)).descriptor _
      ⟨n, .inl hout⟩
    exact ⟨hkept.trans hout, DescriptorMap.get?_set_self .., hn, rfl, rfl⟩
  simp only [createPipe] at h
  split at h
  · cases (Prod.mk.inj h).1
  · next k₁ _ _ =>
    obtain ⟨hends, rfl⟩ := Prod.mk.inj h
    obtain ⟨rfl, rfl⟩ := Prod.mk.inj (Except.ok.inj hends)
    refine ⟨k₁.pipes.length, hjoined { k₁ with pipes := k₁.pipes ++ [({} : Pipe)] } _ ?_⟩
    exact List.getElem?_concat_length

namespace Joined

theorem isPipe_out (hj : k.Joined out into n p) : k.IsPipe out := ⟨n, .inl hj.out⟩

theorem isPipe_into (hj : k.Joined out into n p) : k.IsPipe into := ⟨n, .inr hj.into⟩

/-- What is held behind the end that is read is what is in the pipe. -/
theorem held_eq (hj : k.Joined out into n p) : k.held out = p.held := by
  simp [held, hj.out, hj.pipe]

/-- What no pipe notices. -/
theorem bypass (hj : k.Joined out into n p) (h : k.Bypasses k') : k'.Joined out into n p :=
  ⟨(h.descriptor _ hj.isPipe_out).trans hj.out, (h.descriptor _ hj.isPipe_into).trans hj.into,
    by rw [h.pipes]; exact hj.pipe, hj.readable, hj.writable⟩

/-- Nothing but the poll set is another. -/
theorem of_poll (hj : k.Joined out into n p) (poll : Poll) :
    Kernel.Joined { k with poll } out into n p := { hj with }

/-- A poll set is made, or not. -/
theorem createPoll (hj : k.Joined out into n p) : k.createPoll.2.Joined out into n p := by
  have htake : k.Bypasses (k.takeFault .pollCreate).2 := .of_same rfl rfl rfl
  have hmade : ∀ k : Kernel, k.Joined out into n p →
      (Kernel.allocate { k with poll := {} } .poll).2.Joined out into n p := by
    intro k hk
    exact (hk.of_poll {}).bypass (bypasses_allocate ..)
  simp only [Kernel.createPoll]
  split
  · next h =>
    rw [h] at htake
    exact hj.bypass htake
  · next h =>
    rw [h] at htake
    exact hmade _ (hj.bypass htake)

/-- Whatever is added to the poll set. -/
theorem pollAdd (hj : k.Joined out into n p) (d : Int) (g : Registration) :
    (k.pollAdd d g).2.Joined out into n p := by
  have htaken : (k.takeFault .pollControl).2.Joined out into n p :=
    hj.bypass (.of_same rfl rfl rfl)
  simp only [Kernel.pollAdd, control]
  rcases hfault : k.takeFault .pollControl with ⟨fault, k₁⟩
  rw [hfault] at htaken
  have hadded : (if (k₁.descriptors.get? d).isNone then (Except.error Errno.badDescriptor, k₁)
      else if (k₁.poll.registrations.get? d).isSome then (.error .alreadyExists, k₁)
      else (.ok (), { k₁ with poll := k₁.poll.register d g (k₁.readiness d) })).2.Joined
        out into n p := by
    split
    · exact htaken
    · split
      · exact htaken
      · exact htaken.of_poll _
  rcases fault with _ | ⟨_ | m⟩ | reason
  · exact hadded
  · exact htaken
  · exact hadded
  · exact htaken

/-- The end that is read is ready when there is something in the pipe. -/
theorem readiness (hj : k.Joined out into n p) :
    k.readiness out = { input := decide (0 < p.held) } := by
  simp [Kernel.readiness, hj.out, hj.pipe, hj.writable]

/-- The end that is read is looked at. -/
theorem pending_notify {g : Registration} (hj : k.Joined out into n p) (hheld : 0 < p.held)
    (hg : k.poll.registrations.get? out = some g) (harmed : g.armed = true)
    (hinterest : g.interest = .read) : out ∈ (k.notify out).poll.pending := by
  have hany : (g.report (k.readiness out)).any = true := by
    rw [hj.readiness]
    simp [Registration.report, Readiness.any, harmed, hinterest, hheld]
  simp only [notify, Poll.notify, hg, hany, Bool.true_and]
  by_cases hmem : out ∈ k.poll.pending
  · simp [hmem]
  · simp [hmem]

/-- The end that is read is looked at when all descriptors of the pipe are. -/
theorem pending_notifyResource {g : Registration} (hj : k.Joined out into n p) (hheld : 0 < p.held)
    (hg : k.poll.registrations.get? out = some g) (harmed : g.armed = true)
    (hinterest : g.interest = .read) :
    out ∈ (k.notifyResource (.pipeOut n)).poll.pending := by
  have hmem : (out, .pipeOut n) ∈ k.descriptors.entries.filter (·.2 = .pipeOut n) := by
    refine List.mem_filter.mpr ⟨?_, by simp⟩
    obtain ⟨before, after, hentries, -⟩ := List.lookup_eq_some_iff.mp hj.out
    rw [hentries]
    exact List.mem_append_right _ List.mem_cons_self
  have hkept : ∀ (entries : List (Int × Resource)) (k : Kernel), out ∈ k.poll.pending →
      out ∈ (entries.foldl (fun k entry => k.notify entry.1) k).poll.pending := by
    intro entries
    induction entries with
    | nil => exact fun _ h => h
    | cons entry rest ih => exact fun k h => ih _ (mem_pending_notify h)
  simp only [notifyResource]
  generalize k.descriptors.entries.filter (·.2 = .pipeOut n) = entries at hmem
  -- the entries before that of the end leave the pipe and its registration alone
  induction entries generalizing k with
  | nil => cases hmem
  | cons entry rest ih =>
    rcases List.mem_cons.mp hmem with rfl | hmem
    · exact hkept rest _ (hj.pending_notify hheld hg harmed hinterest)
    · have hbypass := bypasses_notify k entry.1
      refine ih (hj.bypass hbypass) ?_ hmem
      rw [hbypass.registration out hj.isPipe_out]
      exact hg

/-- **A byte is put into a pipe**, or the pipe is full. Either way it is not empty then, and its end
that is read is to be looked at, unless it was not although the pipe was not empty. -/
theorem wake (hj : k.Joined out into n p) :
    ∃ held, p.held ≤ held ∧ 0 < held ∧ (k.wake into).Joined out into n { p with held } ∧
      ∀ g, k.poll.registrations.get? out = some g → g.armed = true → g.interest = .read →
        (0 < p.held → out ∈ k.poll.pending) → out ∈ (k.wake into).poll.pending := by
  rcases Nat.lt_or_ge p.held pipeCapacity with hroom | hfull
  · have hbytes : (k.updatePipe n fun p => { p with held := p.held + 1 }).Joined out into n
        { p with held := p.held + 1 } := by
      refine ⟨hj.out, hj.into, ?_, hj.readable, hj.writable⟩
      rw [updatePipe, List.getElem?_modify_eq, hj.pipe]
      rfl
    have hwake : k.wake into =
        (k.updatePipe n fun p => { p with held := p.held + 1 }).notifyResource (.pipeOut n) := by
      simp [Kernel.wake, hj.into, hj.pipe, hroom, hj.readable]
    refine ⟨p.held + 1, Nat.le_succ _, Nat.succ_pos _, ?_, fun g hg harmed hinterest _ => ?_⟩
    · rw [hwake]
      exact hbytes.bypass (bypasses_notifyResource ..)
    · rw [hwake]
      exact hbytes.pending_notifyResource (Nat.succ_pos _) hg harmed hinterest
  · have hpos : 0 < p.held := Nat.lt_of_lt_of_le (by decide) hfull
    have hwake : k.wake into = k := by
      simp [Kernel.wake, hj.into, hj.pipe, Nat.not_lt_of_le hfull]
    refine ⟨p.held, Nat.le_refl _, hpos, ?_, fun g _ _ _ hpending => ?_⟩
    · rw [hwake]
      exact hj
    · rw [hwake]
      exact hpending hpos

/-- A read takes what there is, up to the room there is. -/
theorem plainPipeRead (hj : k.Joined out into n p) (room : Nat) :
    ∃ held, held ≤ p.held ∧ (k.plainPipeRead out room).2.Joined out into n { p with held } := by
  simp only [Kernel.plainPipeRead, hj.out, hj.pipe]
  split
  · exact ⟨p.held, Nat.le_refl _, hj⟩
  · split
    · exact ⟨p.held, Nat.le_refl _, hj⟩
    · refine ⟨p.held - min room p.held, Nat.sub_le .., hj.out, hj.into, ?_, hj.readable,
        hj.writable⟩
      rw [updatePipe, List.getElem?_modify_eq, hj.pipe]
      rfl

/-- **To read from a pipe** is to take bytes out of it or none, and to do nothing else to it. -/
theorem pipeRead (hj : k.Joined out into n p) (room : Nat) :
    ∃ held, held ≤ p.held ∧ (k.pipeRead out room).2.Joined out into n { p with held } := by
  have hscripts : ∀ scripts, Kernel.Joined { k with scripts } out into n p := fun _ => { hj with }
  have hunder : ∀ script : Script, ∃ held, held ≤ p.held ∧
      (k.pipeReadUnder out room script).2.Joined out into n { p with held } := by
    intro script
    fun_induction pipeReadUnder k out room script with
    | case1 rest ih => exact ih
    | case2 reason rest hi => exact ⟨p.held, Nat.le_refl _, hscripts _⟩
    | case3 m rest => exact (hscripts _).plainPipeRead _
    | case4 script => exact (hscripts _).plainPipeRead _
  exact hunder _

end Joined

/-! ## Fetching events

Events come from the list of what is to be looked at, and only for descriptors that have something
to report at that moment. -/

/-- What a registration lets through of a readiness is part of it, so there is something to report
only where the descriptor is ready. -/
theorem any_of_report {g : Registration} {r : Readiness} (h : (g.report r).any = true) :
    r.any = true := by
  obtain ⟨token, interest, oneShot, armed⟩ := g
  cases armed with
  | false => simp [Registration.report, Readiness.any] at h
  | true =>
    cases interest <;> simp [Registration.report, Readiness.any] at h ⊢ <;> tauto

/-- What fetching does to the registrations that report every change, and where the events come
from. -/
structure Fetched (now : Int → Readiness) (before : DescriptorMap Registration)
    (events : List Event) (after : DescriptorMap Registration) : Prop where
  /-- a registration that reports every change stays as it is -/
  standing : ∀ d g, g.oneShot = false → (after.get? d = some g ↔ before.get? d = some g)
  /-- an event has the token of a descriptor that is ready -/
  source : ∀ e ∈ events, ∃ d g, before.get? d = some g ∧ g.token = e.token ∧ (now d).any = true

/-- One more event is fetched. Its registration is disarmed if it is for one event, and stays as
it is if it reports every change. -/
theorem Fetched.cons {now : Int → Readiness} {before after : DescriptorMap Registration}
    {events : List Event} {g : Registration} (hg : before.get? d = some g)
    (hany : (g.report (now d)).any = true)
    (h : Fetched now (before.set d { g with armed := g.armed && !g.oneShot }) events after) :
    Fetched now before ({ token := g.token, ready := g.report (now d) } :: events) after := by
  refine ⟨fun e g' hshot => ?_, fun event hevent => ?_⟩
  · rw [h.standing e g' hshot]
    by_cases hed : e = d
    · rw [hed, DescriptorMap.get?_set_self, hg]
      obtain ⟨token, interest, oneShot, armed⟩ := g
      cases oneShot with
      | false => simp
      | true =>
        -- it was no such registration before, nor is it now
        constructor
        · rintro ⟨⟩
          cases hshot
        · rintro ⟨⟩
          cases hshot
    · rw [DescriptorMap.get?_set_ne _ _ hed]
  · rcases List.mem_cons.mp hevent with rfl | hevent
    · exact ⟨d, g, hg, rfl, any_of_report hany⟩
    · obtain ⟨e, g', he, htoken, hready⟩ := h.source event hevent
      by_cases hed : e = d
      · rw [hed, DescriptorMap.get?_set_self] at he
        obtain rfl := Option.some.inj he
        exact ⟨d, g, hg, htoken, hed ▸ hready⟩
      · rw [DescriptorMap.get?_set_ne _ _ hed] at he
        exact ⟨e, g', he, htoken, hready⟩

theorem fetched_nothing (now : Int → Readiness) (registrations : DescriptorMap Registration) :
    Fetched now registrations [] registrations :=
  ⟨fun _ _ _ => Iff.rfl, fun _ he => (List.not_mem_nil he).elim⟩

/-- By induction along the list of those to be looked at: one that has nothing to report is passed
over. -/
theorem fetched_collectFrom (now : Int → Readiness) (pending : List Int) (max : Nat)
    (registrations : DescriptorMap Registration) :
    Fetched now registrations (Poll.collectFrom now pending max registrations).1
      (Poll.collectFrom now pending max registrations).2.registrations := by
  fun_induction Poll.collectFrom now pending max registrations with
  | case1 => exact fetched_nothing ..
  | case2 => exact fetched_nothing ..
  | case3 d pending max registrations hnone ih => exact ih
  | case4 d pending max registrations g hg ready hany g' events p hrest ih =>
    rw [hrest] at ih
    exact ih.cons hg hany
  | case5 d pending max registrations g hg ready hany ih => exact ih

theorem fetched_collect (k : Kernel) (max : Nat) :
    Fetched k.readiness k.poll.registrations (k.collect max).1
      (k.collect max).2.poll.registrations :=
  fetched_collectFrom ..

end FileServer.Kernel
