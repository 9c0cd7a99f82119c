import FileServer.Proofs.Hub
import FileServer.Server.Loop

/-!
# Driving a connection

`Hub.drive` has a connection take a step and then either arms it again or tears it down, and nothing
in between. It is torn down exactly if the step asks for it or it cannot be armed, for whatever
reason, and then nothing of it is left, even if it cannot be taken out of the poll set by hand:
closing its descriptor does that (`Hub.drive_rearms_or_tears_down`). The other connections are not
touched, so neither are they by any number of drives (`Hub.Reliable.driveAll`).

The event loop does the same in several tasks, between which it takes no other event
(`Server.resume_drives`).

What the step does is a parameter: of it is asked only that it leaves the connection on its
descriptor, and that what it leaves of the kernel can be relied on at that descriptor (`Hub.Fair`).
Whether it reads, parses and answers, or resumes a response, makes no difference to what follows.
-/

namespace FileServer

namespace Kernel

variable {k k' : Kernel} {d : Int} {g : Registration}

/-- What is relied on of the kernel: a control call that reports success has been done, and a
descriptor that is not open is not in the poll set. -/
structure Reliable (k : Kernel) : Prop where
  honest : k.Honest
  closed : ∀ d, k.descriptors.get? d = none → k.poll.registrations.get? d = none

namespace Reliable

/-- A change that keeps all descriptors and their registrations. -/
theorem of_same (hk : k.Reliable) (hev : k.Evolves k')
    (hd : ∀ d, k'.descriptors.get? d = k.descriptors.get? d)
    (hg : ∀ d, k'.poll.registrations.get? d = k.poll.registrations.get? d) : k'.Reliable := by
  refine ⟨hev.honest hk.honest, fun d hnone => ?_⟩
  rw [hd] at hnone
  rw [hg]
  exact hk.closed d hnone

theorem quiet (hk : k.Reliable) (h : k.Quiet k') : k'.Reliable :=
  hk.of_same h.evolves (fun _ => by rw [h.descriptors]) fun _ => by rw [h.registrations]

/-- A change that concerns one descriptor only. -/
theorem of_leaves (hk : k.Reliable) (hev : k.Evolves k') (hleaves : ∀ e, e ≠ d → k.Leaves k' e)
    (hd : k'.descriptors.get? d = none → k'.poll.registrations.get? d = none) : k'.Reliable := by
  refine ⟨hev.honest hk.honest, fun e hnone => ?_⟩
  by_cases he : e = d
  · rw [he] at hnone ⊢
    exact hd hnone
  · rw [(hleaves e he).descriptor] at hnone
    rw [(hleaves e he).registration]
    exact hk.closed e hnone

/-- A descriptor that is registered after a call that has succeeded has to be open already. -/
theorem registers (hk : k.Reliable) (h : Registers k k' d g)
    (hisOpen : (k.descriptors.get? d).isSome) : k'.Reliable := by
  refine hk.of_leaves h.evolves (fun e he => h.leaves he) fun hnone => ?_
  rw [h.descriptors] at hnone
  rw [hnone] at hisOpen
  cases hisOpen

/-- A descriptor that is discarded is not open any more and not in the poll set either: even if the
kernel refuses to take it out, to close it does. -/
theorem discard (hk : k.Reliable) (hpoll : k.descriptors.get? d ≠ some .poll) :
    (k.discard d).Reliable := by
  refine hk.of_leaves (evolves_discard k d) (fun e he => leaves_discard he hpoll) fun _ => ?_
  exact (discard_gone (hk.closed d)).2

/-- While a file is looked up a descriptor is opened for it and closed again, so in the end no
descriptor has changed. -/
theorem locate (hk : k.Reliable) (root url : String) :
    (k.locate root url).2.Reliable ∧ ∀ d, k.Leaves (k.locate root url).2 d := by
  obtain ⟨hev, hleaves⟩ := locate_spec (hk.closed _ k.nextDescriptor_free) root url
  exact ⟨hk.of_same hev (fun d => (hleaves d).descriptor) fun d =>
    (hleaves d).registration, hleaves⟩

theorem putWire {w : Wire} (hk : k.Reliable) (hw : (k.wire d).Spent w) :
    (k.putWire d w).Reliable := by
  obtain ⟨hsame, hpoll, -⟩ := putWire_spec k d w
  exact hk.of_same (evolves_putWire hw) (fun _ => by rw [hsame.descriptors]) fun _ => by rw [hpoll]

end Reliable

end Kernel

namespace Hub

variable {hub after : Hub} {h g : Handle} {c c' : Connection} {k k' : Kernel} {next : Next}
  {interest : Interest} {step : Connection → Kernel → Next × Connection × Kernel}

/-! ## The cases of a drive

A drive is one step, and then one of two endings. -/

/-- A handle that names no open connection is passed over, as a late event may be. -/
theorem drive_of_none (hc : hub.connection? h = none)
    (step : Connection → Kernel → Next × Connection × Kernel) : hub.drive h step = (none, hub) := by
  simp only [drive, runStep, visit, hc, Option.bind_none]

/-- A step that asks for the connection to be closed has it closed, and nothing is armed. -/
theorem drive_of_close (hc : hub.connection? h = some c)
    (hstep : step c hub.kernel = (.close, c', k')) :
    hub.drive h step = (some .close, (hub.put h c' k').close h) := by
  simp only [drive, runStep, visit_of_some hc, hstep]
  rfl

/-- Any other step is followed by an attempt to arm the connection. -/
theorem drive_of_interest (hc : hub.connection? h = some c)
    (hstep : step c hub.kernel = (next, c', k')) (hnext : next.interest? = some interest) :
    hub.drive h step = (some next, (hub.put h c' k').finishStep h interest) := by
  have hrun : hub.runStep h step = (some next, hub.put h c' k') := by
    rw [runStep, visit_of_some hc, hstep]
    cases next with
    | read => rfl
    | write => rfl
    | close => cases hnext
  simp only [drive, hrun, Option.bind_some, hnext]

/-- Arming a connection again either puts the registration in place, or reports that it cannot be
changed and does nothing. -/
theorem rearm_cases (hub : Hub) (hk : hub.kernel.Honest) (h : Handle) (interest : Interest) :
    (∃ reason k', hub.rearm h interest = (.error reason, { hub with kernel := k' }) ∧
        hub.kernel.Quiet k') ∨
      ∃ k', hub.rearm h interest = (.ok (), { hub with kernel := k' }) ∧
        hub.kernel.Registers k' h.descriptor (h.registration interest) ∧
        (hub.kernel.descriptors.get? h.descriptor).isSome := by
  rcases Kernel.pollModify_cases hk h.descriptor (h.registration interest) with
    ⟨reason, k', heq, hquiet, -⟩ | ⟨k', heq, hregisters, hisOpen⟩
  · exact .inl ⟨.system reason, k', by rw [rearm, heq]; rfl, hquiet⟩
  · exact .inr ⟨k', by rw [rearm, heq]; rfl, hregisters, hisOpen⟩

/-! ## How a drive ends

What is asked of the step (`Fair`), and the two endings (`Rearmed`, `TornDown`), with what becomes
of the other connections. -/

/-- What is expected of a step of the connection that a handle names, by what it leaves behind. -/
structure Fair (h : Handle) (c : Connection) (k : Kernel) : Prop where
  /-- it neither closes the connection nor starts it on another descriptor -/
  descriptor : c.descriptor = h.descriptor
  /-- a control call that reports success has been done -/
  honest : k.Honest
  /-- if the descriptor has been closed it is not in the poll set -/
  closed : k.descriptors.get? h.descriptor = none → k.poll.registrations.get? h.descriptor = none
  /-- it is not that of the poll set itself -/
  notPoll : k.descriptors.get? h.descriptor ≠ some .poll

/-- Whether a connection cannot go on after a step: it has to be closed, or it cannot be armed. -/
def GivesUp (hub : Hub) (h : Handle) (next : Next) : Prop :=
  next = .close ∨
    ∃ interest reason, next.interest? = some interest ∧ (hub.rearm h interest).1 = .error reason

/-- The connection `c` is open, and armed for one event of the kind that it asks for. -/
structure Rearmed (hub : Hub) (h : Handle) (c : Connection) (interest : Interest) (after : Hub) :
    Prop where
  isOpen : after.connection? h = some c
  armed : after.kernel.poll.registrations.get? h.descriptor = some (h.registration interest)
  live : after.live = hub.live

/-- Nothing of a connection is left. -/
structure TornDown (hub : Hub) (h : Handle) (after : Hub) : Prop where
  free : after.connection? h = none
  /-- what is in the slot is closed and holds no file -/
  slot : ∃ c, after.slots.get? h.descriptor = some c ∧ c.isOpen = false ∧ c.delivery.file = none
  deregistered : after.kernel.poll.registrations.get? h.descriptor = none
  closed : after.kernel.descriptors.get? h.descriptor = none
  /-- one connection fewer is counted -/
  live : after.live = hub.live - 1

/-- Nothing but one connection has changed, since the kernel was `k`. -/
structure Untouched (hub : Hub) (h : Handle) (k : Kernel) (after : Hub) : Prop where
  slots : ∀ d, d ≠ h.descriptor → after.slots.get? d = hub.slots.get? d
  /-- the other descriptors are as they were, and so are their registrations -/
  others : ∀ d, d ≠ h.descriptor → k.Leaves after.kernel d
  /-- nothing has been opened -/
  before : ∀ d r, after.kernel.descriptors.get? d = some r → k.descriptors.get? d = some r
  reliable : k.Reliable → after.kernel.Reliable
  settings : after.root = hub.root ∧ after.capacity = hub.capacity ∧ after.limit = hub.limit

/-- What a handle names is as it was, and so is its registration. -/
structure Spares (hub : Hub) (g : Handle) (after : Hub) : Prop where
  slot : after.slots.get? g.descriptor = hub.slots.get? g.descriptor
  kernel : hub.kernel.Leaves after.kernel g.descriptor

namespace Untouched

variable (hafter : Untouched hub h k after) (hne : g ≠ h)
include hafter hne

theorem connection?_eq : after.connection? g = hub.connection? g := by
  have hd : g.descriptor ≠ h.descriptor := fun heq => hne (congrArg Handle.mk heq)
  rw [connection?, connection?, hasSlot, hasSlot, hafter.slots _ hd, hafter.settings.2.1]

/-- If the step has left the descriptor of another connection alone, all of that connection is as
it was before the drive. -/
theorem spares (hleaves : hub.kernel.Leaves k g.descriptor) : Spares hub g after := by
  have hd : g.descriptor ≠ h.descriptor := fun heq => hne (congrArg Handle.mk heq)
  exact ⟨hafter.slots _ hd, hleaves.trans (hafter.others _ hd)⟩

end Untouched

/-- A drive whose step has returned `next`, and has left the connection `c` and the kernel `k`. -/
structure Drives (hub : Hub) (h : Handle) (next : Next) (c : Connection) (k : Kernel)
    (after : Hub) : Prop where
  /-- the connection is armed again, or torn down if it cannot go on -/
  outcome :
    (¬ GivesUp (hub.put h c k) h next ∧
      ∃ interest, next.interest? = some interest ∧ Rearmed hub h c interest after) ∨
    (GivesUp (hub.put h c k) h next ∧ TornDown hub h after)
  /-- after the step nothing else is touched -/
  untouched : Untouched hub h k after
  /-- so what the step has left alone is as it was before the drive -/
  spared : ∀ g, g ≠ h → hub.kernel.Leaves k g.descriptor → Spares hub g after

/-- A connection that is closed after its step is torn down, whatever became of an attempt to arm
it. -/
theorem tornDown_close (hc : hub.connection? h = some c) (hfair : Fair h c' k)
    (hquiet : k.Quiet k') :
    TornDown hub h ((hub.put h c' k').close h) ∧ Untouched hub h k ((hub.put h c' k').close h) := by
  obtain ⟨-, -, -, hdescriptor⟩ := connection?_eq_some.mp hc
  have hput := connection?_put_self hc (hfair.descriptor.trans hdescriptor.symm) k'
  have hunregistered : k'.descriptors.get? h.descriptor = none →
      k'.poll.registrations.get? h.descriptor = none := by
    rw [hquiet.descriptors, hquiet.registrations]
    exact hfair.closed
  have hpoll : k'.descriptors.get? h.descriptor ≠ some .poll := by
    rw [hquiet.descriptors]
    exact hfair.notPoll
  obtain ⟨hclosed, hderegistered⟩ := Kernel.discard_gone hunregistered
  have hfree := connection?_close_self (hub.put h c' k') h
  rw [close_of_some hput] at hfree ⊢
  constructor
  · exact ⟨hfree, ⟨c'.release, DescriptorMap.get?_set_self .., rfl, rfl⟩, hderegistered,
      hclosed, rfl⟩
  · have hleaves : ∀ d, d ≠ h.descriptor → k.Leaves (k'.discard h.descriptor) d :=
      fun d hd => (hquiet.leaves d).trans (Kernel.leaves_discard hd hpoll)
    refine ⟨fun d hd => ?_, hleaves, fun d r hr => ?_, fun hk => ?_, rfl, rfl, rfl⟩
    · exact (DescriptorMap.get?_set_ne _ _ hd).trans (DescriptorMap.get?_set_ne _ _ hd)
    · by_cases hd : d = h.descriptor
      · rw [hd] at hr
        cases hclosed.symm.trans hr
      · exact (hleaves d hd).descriptor.symm.trans hr
    · exact (hk.quiet hquiet).discard hpoll

/-- A connection that could be armed after its step is open, and no more has happened. -/
theorem rearmed_put (hc : hub.connection? h = some c) (hfair : Fair h c' k)
    (hregisters : k.Registers k' h.descriptor (h.registration interest))
    (hisOpen : (k.descriptors.get? h.descriptor).isSome) :
    Rearmed hub h c' interest (hub.put h c' k') ∧ Untouched hub h k (hub.put h c' k') := by
  obtain ⟨-, -, -, hdescriptor⟩ := connection?_eq_some.mp hc
  constructor
  · refine ⟨?_, hregisters.self, rfl⟩
    exact connection?_put_self hc (hfair.descriptor.trans hdescriptor.symm) k'
  · refine ⟨fun d hd => ?_, fun d hd => hregisters.leaves hd, fun d r hr => ?_,
      fun hk => ?_, rfl, rfl, rfl⟩
    · exact DescriptorMap.get?_set_ne _ _ hd
    · exact (hregisters.keeps d).descriptor.symm.trans hr
    · exact hk.registers hregisters hisOpen

/-- A drive of an open connection arms it again or tears it down. -/
theorem drives (hc : hub.connection? h = some c) (hstep : step c hub.kernel = (next, c', k'))
    (hfair : Fair h c' k') : ∃ after, hub.drive h step = (some next, after) ∧
      Drives hub h next c' k' after := by
  cases hnext : next.interest? with
  | none =>
    have hclose : next = .close := by
      cases next with
      | read => cases hnext
      | write => cases hnext
      | close => rfl
    subst hclose
    obtain ⟨htorn, huntouched⟩ := tornDown_close hc hfair (.refl k')
    exact ⟨_, drive_of_close hc hstep, .inr ⟨.inl rfl, htorn⟩, huntouched,
      fun _ => huntouched.spares⟩
  | some interest =>
    refine ⟨_, drive_of_interest hc hstep hnext, ?_⟩
    rw [finishStep]
    -- the descriptor is armed again, or what failed tears the connection down
    rcases rearm_cases (hub.put h c' k') hfair.honest h interest with
      ⟨reason, k'', heq, hquiet⟩ | ⟨k'', heq, hregisters, hisOpen⟩
    · rw [heq]
      obtain ⟨htorn, huntouched⟩ := tornDown_close hc hfair hquiet
      have hgives : GivesUp (hub.put h c' k') h next := .inr ⟨interest, reason, hnext, by rw [heq]⟩
      exact ⟨.inr ⟨hgives, htorn⟩, huntouched, fun _ => huntouched.spares⟩
    · rw [heq]
      obtain ⟨hrearmed, huntouched⟩ := rearmed_put hc hfair hregisters hisOpen
      have hgoes : ¬ GivesUp (hub.put h c' k') h next := by
        rintro (rfl | ⟨interest', reason, hinterest, hfails⟩)
        · cases hnext
        · cases hnext.symm.trans hinterest
          rw [heq] at hfails
          cases hfails
      exact ⟨.inl ⟨hgoes, interest, hnext, hrearmed⟩, huntouched, fun _ => huntouched.spares⟩

/-- **A drive arms a connection again or tears it down.** If the handle names no open connection, no
step is run and nothing changes. If it names one, then, whatever the step, afterwards the connection
is open and armed for what the step has asked for, or nothing of it is left and one connection fewer
is counted; the latter exactly if the step has asked for it or the connection could not be armed. In
no case is another slot or another registration touched. It is not assumed that a connection that is
torn down can be taken out of the poll set before its descriptor is closed. -/
theorem drive_rearms_or_tears_down (hub : Hub) (h : Handle)
    (step : Connection → Kernel → Next × Connection × Kernel) :
    (hub.connection? h = none → hub.drive h step = (none, hub)) ∧
      ∀ c next c' k', hub.connection? h = some c → step c hub.kernel = (next, c', k') →
        Fair h c' k' →
        ∃ after, hub.drive h step = (some next, after) ∧ Drives hub h next c' k' after := by
  constructor
  · intro hc
    exact drive_of_none hc step
  · intro c next c' k' hc hstep hfair
    exact drives hc hstep hfair

/-- A client on the descriptor 7, whose registration can neither be changed nor taken out. -/
def stuck : Hub where
  kernel := {
    scripts := [(.pollControl, [some (.fail ⟨12⟩), some (.fail ⟨12⟩)])]
    descriptors := .set {} 7 (.stream 0)
    streams := [{}]
    poll := { registrations := .set {} 7 ((⟨7⟩ : Handle).registration .read) } }
  root := "."
  capacity := 8
  limit := 8
  slots := .set {} 7 { descriptor := 7 }
  live := 1

/-- The kernel refuses first to change the registration and then to take it out. The connection is
torn down all the same, and its registration is gone with the descriptor. -/
theorem drive_rearms_or_tears_down_stuck :
    ∃ c k after, stuck.connection? ⟨7⟩ = some { descriptor := 7 } ∧
      process "." { descriptor := 7 } stuck.kernel = (.read, c, k) ∧ Fair ⟨7⟩ c k ∧
      ((stuck.put ⟨7⟩ c k).rearm ⟨7⟩ .read).1 = .error (.system ⟨12⟩) ∧
      (((stuck.put ⟨7⟩ c k).rearm ⟨7⟩ .read).2.kernel.pollDelete 7).1 = .error ⟨12⟩ ∧
      stuck.drive ⟨7⟩ (process ".") = (some .read, after) ∧ Drives stuck ⟨7⟩ .read c k after ∧
      TornDown stuck ⟨7⟩ after := by
  have hc : stuck.connection? ⟨7⟩ = some { descriptor := 7 } := by decide +kernel
  have hwait : ({ descriptor := 7 } : Connection).parse.1 = .incomplete := by decide +kernel
  have hstep : process "." { descriptor := 7 } stuck.kernel =
      (.read, ({ descriptor := 7 } : Connection).parse.2, stuck.kernel) := by
    simp only [process, answer, if_pos hwait]
  have hfair : Fair ⟨7⟩ ({ descriptor := 7 } : Connection).parse.2 stuck.kernel := by
    refine ⟨rfl, ?_, ?_, by decide⟩
    · rintro fault hfault rfl
      revert hfault
      decide
    · intro hnone
      cases hnone
  have hfails : ((stuck.put ⟨7⟩ ({ descriptor := 7 } : Connection).parse.2 stuck.kernel).rearm
      ⟨7⟩ .read).1 = .error (.system ⟨12⟩) := rfl
  obtain ⟨after, hdrive, hdrives⟩ :=
    (drive_rearms_or_tears_down stuck ⟨7⟩ (process ".")).2 _ _ _ _ hc hstep hfair
  refine ⟨_, _, after, hc, hstep, hfair, hfails, rfl, hdrive, hdrives, ?_⟩
  rcases hdrives.outcome with ⟨hgoes, -⟩ | ⟨-, htorn⟩
  · exact absurd (.inr ⟨.read, _, rfl, hfails⟩) hgoes
  · exact htorn

/-! ## Many drives

Steps that keep to their own connection can be driven one after the other, on any handles. -/

/-- The steps that the program has its connections take. -/
inductive OwnStep : (Connection → Kernel → Next × Connection × Kernel) → Prop
  | process (root : String) : OwnStep (process root)
  | resume : OwnStep (onWire Connection.resume)

/-- What a step leaves behind if it is noticed only through the connection's own descriptor. -/
structure Discreet (c : Connection) (k : Kernel) (c' : Connection) (k' : Kernel) : Prop where
  descriptor : c'.descriptor = c.descriptor
  reliable : k'.Reliable
  resource : k'.descriptors.get? c.descriptor = k.descriptors.get? c.descriptor
  others : ∀ d, d ≠ c.descriptor → k.Leaves k' d

/-- What is done through the connection's own wire is noticed nowhere else. -/
theorem discreet_onWire {f : Connection → Wire → α × Connection × Wire} (hf : Connection.Stays f)
    (hk : k.Reliable) : Discreet c k (onWire f c k).2.1 (onWire f c k).2.2 := by
  obtain ⟨hdescriptor, hspent⟩ := hf c (k.wire c.descriptor)
  rw [onWire_eq]
  refine ⟨hdescriptor, hk.putWire hspent, ?_, fun d hd => ?_⟩
  · rw [(Kernel.putWire_spec ..).1.descriptors]
  · exact Kernel.leaves_through k (fun w => ((), (f c w).2.2)) hd

/-- To answer looks up a file as well, which leaves all descriptors as they were. -/
theorem discreet_answer (root : String) (outcome : Request.Outcome) (c : Connection)
    (hk : k.Reliable) :
    Discreet c k (answer root outcome c k).2.1 (answer root outcome c k).2.2 := by
  rw [answer]
  split
  · exact ⟨rfl, hk, rfl, fun d _ => .refl k d⟩
  · obtain ⟨hresolved, hleaves⟩ : (resolve root outcome c k).2.Reliable ∧
        ∀ d, k.Leaves (resolve root outcome c k).2 d := by
      cases outcome with
      | complete => exact hk.locate root c.reader.target
      | incomplete => exact ⟨hk, .refl k⟩
      | malformed => exact ⟨hk, .refl k⟩
    have hsent := discreet_onWire (c := c) (Connection.stays_respond (resolve root outcome c k).1)
      hresolved
    exact ⟨hsent.descriptor, hsent.reliable, hsent.resource.trans (hleaves _).descriptor,
      fun d hd => (hleaves d).trans (hsent.others d hd)⟩

/-- Both steps of the program are discreet. -/
theorem OwnStep.discreet (hown : OwnStep step) (c : Connection) (hk : k.Reliable) :
    Discreet c k (step c k).2.1 (step c k).2.2 := by
  cases hown with
  | process root =>
    have hanswer := discreet_answer root c.parse.1 c.parse.2 hk
    exact ⟨hanswer.descriptor, hanswer.reliable, hanswer.resource, hanswer.others⟩
  | resume => exact discreet_onWire Connection.stays_resume hk

/-- The kernel can be relied on, and no connection stands on the descriptor of the poll set. -/
structure Reliable (hub : Hub) : Prop where
  kernel : hub.kernel.Reliable
  notPoll : ∀ h, (hub.connection? h).isSome → hub.kernel.descriptors.get? h.descriptor ≠ some .poll

/-- A drive with one of the program's steps keeps the hub as it should be, and spares all
connections but one. -/
theorem Reliable.drive (hhub : hub.Reliable) (hown : OwnStep step) (h : Handle) :
    (hub.drive h step).2.Reliable ∧ ∀ g, g ≠ h → Spares hub g (hub.drive h step).2 := by
  cases hc : hub.connection? h with
  | none =>
    rw [drive_of_none hc]
    exact ⟨hhub, fun g _ => ⟨rfl, .refl _ _⟩⟩
  | some c =>
    obtain ⟨-, -, -, hdescriptor⟩ := connection?_eq_some.mp hc
    rcases hstep : step c hub.kernel with ⟨next, c', k'⟩
    have hdiscreet := hown.discreet c hhub.kernel
    rw [hstep] at hdiscreet
    obtain ⟨hstays, hk, hresource, hothers⟩ := hdiscreet
    rw [hdescriptor] at hstays hresource hothers
    have hpoll := hhub.notPoll h (by rw [hc]; rfl)
    obtain ⟨after, hdrive, -, huntouched, hspared⟩ :=
      drives hc hstep ⟨hstays, hk.honest, hk.closed _, hresource ▸ hpoll⟩
    have hspares : ∀ g, g ≠ h → Spares hub g after := by
      intro g hne
      exact hspared g hne (hothers _ fun heq => hne (congrArg Handle.mk heq))
    rw [hdrive]
    refine ⟨⟨huntouched.reliable hk, fun g hg => ?_⟩, hspares⟩
    by_cases hne : g = h
    · subst hne
      intro hafter
      exact hpoll (hresource.symm.trans (huntouched.before _ _ hafter))
    · rw [huntouched.connection?_eq hne] at hg
      rw [(hspares g hne).kernel.descriptor]
      exact hhub.notPoll g hg

/-- Drives connections one after the other. -/
def driveAll (hub : Hub)
    (drives : List (Handle × (Connection → Kernel → Next × Connection × Kernel))) : Hub :=
  drives.foldl (fun hub (h, step) => (hub.drive h step).2) hub

/-- **However many connections are driven**, the others do not notice. The induction is on the
drives; the hub stays one that can be relied on, so that the next drive finds what the first one
found. -/
theorem Reliable.driveAll
    {drives : List (Handle × (Connection → Kernel → Next × Connection × Kernel))}
    (hhub : hub.Reliable) (hown : ∀ p ∈ drives, OwnStep p.2) :
    (hub.driveAll drives).Reliable ∧
      ∀ g, g ∉ drives.map (·.1) → Spares hub g (hub.driveAll drives) := by
  induction drives generalizing hub with
  | nil => exact ⟨hhub, fun g _ => ⟨rfl, .refl _ _⟩⟩
  | cons p rest ih =>
    obtain ⟨hfirst, hspares⟩ := hhub.drive (hown p List.mem_cons_self) p.1
    obtain ⟨hall, hspares'⟩ := ih hfirst fun q hq => hown q (List.mem_cons_of_mem p hq)
    refine ⟨hall, fun g hg => ?_⟩
    obtain ⟨hne, hrest⟩ := List.ne_and_not_mem_of_not_mem_cons hg
    have hbefore := hspares g hne
    have hafter := hspares' g hrest
    exact ⟨hafter.slot.trans hbefore.slot, hbefore.kernel.trans hafter.kernel⟩

end Hub

/-! ## The event loop -/

namespace Server

/-- **The loop drives a connection** in up to three tasks: it resumes the response, arms the
connection, and closes it if that fails. -/
theorem resume_drives (choice : Nat) (s : Server) (h : Handle) :
    ∃ second third s₁ s₂, s.doTask choice (.resume h) = (second, s₁) ∧
      s₁.doTask choice second = (third, s₂) ∧
      s₂.doTask choice third =
        (.next, { s with hub := (s.hub.drive h (Hub.onWire Connection.resume)).2 }) := by
  rcases hrun : s.hub.runStep h (Hub.onWire Connection.resume) with ⟨next, hub⟩
  have hresume : s.doTask choice (.resume h) = (afterResume h next, { s with hub }) := by
    rw [doTask, hrun]
  cases hinterest : next.bind (·.interest?) with
  | none =>
    have hdrive : s.hub.drive h (Hub.onWire Connection.resume) = (next, hub) := by
      simp only [Hub.drive, hrun, hinterest]
    rw [afterResume, hinterest] at hresume
    rw [hdrive]
    exact ⟨_, _, _, _, hresume, rfl, rfl⟩
  | some interest =>
    have hdrive : s.hub.drive h (Hub.onWire Connection.resume) =
        (next, hub.finishStep h interest) := by
      simp only [Hub.drive, hrun, hinterest]
    rw [afterResume, hinterest] at hresume
    rw [hdrive, Hub.finishStep]
    rcases hrearm : hub.rearm h interest with ⟨_ | _, hub'⟩
    · have harm : Server.doTask choice { s with hub } (.rearm h interest) =
          (.close h, { s with hub := hub' }) := by simp only [doTask, hrearm]
      exact ⟨_, _, _, _, hresume, harm, rfl⟩
    · have harm : Server.doTask choice { s with hub } (.rearm h interest) =
          (.next, { s with hub := hub' }) := by simp only [doTask, hrearm]
      exact ⟨_, _, _, _, hresume, harm, rfl⟩

end Server

end FileServer
