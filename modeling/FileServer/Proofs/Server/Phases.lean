import FileServer.Proofs.Phases
import FileServer.Proofs.Server.Ownership
import FileServer.Proofs.Server.Stages

/-!
# Requests and responses take turns

Which phase a connection is in can be read off the place where it is held (`Holder.phase`): one that
waits for something to read, or is with a worker, is in the phase of a request, and one that waits
to write is in that of a response. So no request is read or answered before the response to the last
one is out, and whoever is told to write finds something to send (`Server.phases_take_turns`).

Everything that happens to a connection leaves its delivery alone, starts afresh, or is an attempt
to send, which calls for the place that goes with the phase it leaves. A response in progress stays
the same response from step to step, until all that was left of it has been accepted or its
connection is closed (`Server.Carried`).

The invariant is `Server.InPhase`, and its step lemma goes by the ways in which a connection may be
passed on (`Server.Passage.inPhase`). That a response stays what it is goes by the same cases
(`Server.Passage.carried`), with the place of the connection excluding all in which a new one could
be laid out.
-/

namespace FileServer

/-! ## The phase that goes with a place

A place says what its connection waits for, and that says what its delivery has to look like. -/

/-- What a connection waits for in the end: for input in the phase of a request, for output in that
of a response, and for nothing when it is about to be closed. -/
def Holder.phase : Holder → Option Interest
  | .poll interest | .loop (.rearm _ interest) | .worker (.rearm _ interest) => some interest
  | .queue | .loop (.register _) | .loop (.read _) | .loop (.submit _) => some .read
  | .worker (.parse _) | .worker (.answer ..) => some .read
  | .loop (.resume _) => some .write
  | .event r => if r.isOver then none else if r.input then some .read else some .write
  | _ => none

theorem Holder.phase_afterAnswer (h : Handle) (next : Next) :
    (Holder.worker (Server.afterAnswer h next)).phase = next.interest? := by
  cases next <;> rfl

/-- A connection that is about to be armed is in the phase it is armed for. If it cannot be armed
it is going to be closed, and then it is in none. -/
theorem Holder.Arms.phase {h : Handle} {τ τ' : Holder} {interest : Interest}
    (harms : τ.Arms h interest τ') : τ.phase = some interest ∧ τ'.phase = none := by
  cases harms <;> exact ⟨rfl, rfl⟩

/-- A report is about what the connection was armed for, unless the client is leaving. -/
theorem Interest.phase_report {interest : Interest} {r : Readiness}
    (hany : (interest.report r).any = true) :
    (Holder.event (interest.report r)).phase = none ∨
      (Holder.event (interest.report r)).phase = some interest := by
  rw [Holder.phase]
  split
  · exact .inl rfl
  · next hover =>
    right
    cases interest with
    | read =>
      have hinput : (report .read r).input = true := by
        simp_all [Readiness.any, Readiness.isOver, report]
      rw [if_pos hinput]
    | write =>
      have hinput : (report .write r).input = false := by simp [report]
      rw [if_neg (by rw [hinput]; decide)]

/-- What an event calls for goes with the phase of the connection that has it, or is to close
it. -/
theorem Server.phase_eventTask (h : Handle) (r : Readiness) :
    (Holder.loop (eventTask h r)).phase = none ∨
      (Holder.loop (eventTask h r)).phase = (Holder.event r).phase := by
  by_cases hover : r.isOver = true
  · left
    rw [eventTask, if_pos hover]
    rfl
  · rw [eventTask, if_neg hover, Holder.phase.eq_def (.event r)]
    dsimp only
    rw [if_neg hover]
    by_cases hinput : r.input = true
    · right
      rw [if_pos hinput, if_pos hinput]
      rfl
    · rw [if_neg hinput, if_neg hinput]
      split
      · exact .inr rfl
      · exact .inl rfl

/-- An event that calls for writing is one of a connection in the phase of a response. -/
theorem Server.phase_of_eventTask {g h : Handle} {r : Readiness}
    (htask : eventTask g r = .resume h) : g = h ∧ (Holder.event r).phase = some .write := by
  have hphase := phase_eventTask g r
  rw [htask] at hphase
  refine ⟨?_, ?_⟩
  · simp only [eventTask] at htask
    split at htask
    · cases htask
    · split at htask
      · cases htask
      · split at htask
        · exact Task.resume.inj htask
        · cases htask
  · rcases hphase with hnone | hsome
    · cases hnone
    · exact hsome.symm

theorem Delivery.InPhase.none_or {d : Delivery} {phase phase' : Option Interest}
    (hd : d.InPhase phase) (h : phase' = none ∨ phase' = phase) : d.InPhase phase' := by
  rcases h with rfl | rfl
  · trivial
  · exact hd

namespace Server

variable {s t start : Server} {a : Action} {h : Handle} {τ τ' : Holder} {c c' : Connection}

/-- Every open connection is in the phase that goes with its place. -/
def InPhase (s : Server) : Prop := ∀ h τ c, s.Standing h τ c → c.delivery.InPhase τ.phase

/-- **A connection that is not closed is in the phase of its next place.** The cases are those of
how it may pass on. -/
theorem Passage.inPhase (hpassage : Passage a s t h τ c) (hc : c.delivery.InPhase τ.phase) :
    t.Vacant h ∨ ∃ τ' c', t.Standing h τ' c' ∧ c'.delivery.InPhase τ'.phase := by
  have hdelivery := c.delivery_readAll (s.hub.kernel.wire h.descriptor)
  cases hpassage with
  | stay ht => exact .inr ⟨_, _, ht, hc⟩
  | armed harms ht => exact .inr ⟨_, _, ht, by rw [harms.phase.1] at hc; exact hc⟩
  | unarmed harms _ ht => exact .inr ⟨_, _, ht, by rw [harms.phase.2]; trivial⟩
  | fetched hany ht => exact .inr ⟨_, _, ht, hc.none_or (Interest.phase_report hany)⟩
  | looked ht => exact .inr ⟨_, _, ht, hc.none_or (phase_eventTask h _)⟩
  | @read _ _ _ more hread ht _ =>
    refine .inr ⟨_, _, ht, ?_⟩
    rw [hread] at hdelivery
    -- a read that ends the connection leads to its closing, which has no phase
    by_cases hmore : more = true
    · rw [hmore, hdelivery]
      exact hc
    · rw [Bool.eq_false_iff.mpr hmore]
      trivial
  | submitted ht => exact .inr ⟨_, _, ht, hc⟩
  | turnedAway _ ht => exact .inr ⟨_, _, ht, trivial⟩
  | resumed hresume hnext ht =>
    obtain ⟨front, file, hd, hheld, -⟩ := hc
    have hphase := (Connection.resume_attempted hd hheld hresume).inPhase
    rw [hnext] at hphase
    exact .inr ⟨_, _, ht, hphase⟩
  | ended _ ht => exact .inl ht
  | taken ht => exact .inr ⟨_, _, ht, hc⟩
  | parsed hparse ht =>
    have hdelivery := c.delivery_parse
    rw [hparse] at hdelivery
    exact .inr ⟨_, _, ht, by rw [hdelivery]; exact hc⟩
  | released ht => exact .inr ⟨_, _, ht, hc⟩
  | answered hanswer ht =>
    refine .inr ⟨_, _, ht, ?_⟩
    rw [Holder.phase_afterAnswer]
    exact Hub.answer_inPhase hc hanswer
  | closed _ ht => exact .inl ht

/-- Every step leaves all connections in their phases; one that is opened starts with a
request. -/
theorem InPhase.step (hs : s.InPhase) (horderly : s.Orderly) (hstep : Step a s t) : t.InPhase := by
  intro h τ c ht
  rcases horderly.held h with hvacant | ⟨τ₀, c₀, hstanding⟩
  · rcases hstep.vacant h hvacant with hv | ⟨rest, peer, -, hopened⟩
    · exact absurd hv ht.not_vacant
    · obtain ⟨rfl, rfl⟩ := hopened.unique ht
      exact Delivery.idle_reset _
  · have hpassage := hstep.passage h τ₀ c₀ hstanding
    rcases hpassage.inPhase (hs h τ₀ c₀ hstanding) with hv | ⟨τ₁, c₁, ht₁, hc₁⟩
    · exact absurd hv ht.not_vacant
    · obtain ⟨rfl, rfl⟩ := ht₁.unique ht
      exact hc₁

/-- A server that begins to serve has accepted nobody yet. -/
theorem early_of_begins (hs : s.Coherent) (hnot : s.stage.isServing = false)
    (hstep : s.perform? a = some t) (hserving : t.stage.isServing = true) :
    t.stage.isEarly = true := by
  have hchanged : t.stage ≠ s.stage := fun heq => by rw [heq, hnot] at hserving; cases hserving
  -- only a server that is ready can begin: the stages behind serving lead to their end
  cases hs with
  | unopened hstage hs =>
    by_cases ha : a.isOutside = true
    · exact absurd (outside_spec ha hstep).1 hchanged
    cases perform?_cases hstep with
    | serve =>
      rcases serve_cases s with ⟨k, failure, heq⟩ | ⟨k, poll, heq⟩
      · rw [heq, stage_leave] at hserving
        cases hserving
      · rw [heq]
        rfl
    | drop =>
      rw [stage_leave] at hserving
      cases hserving
    | loop hloop => cases (loopStep_of_ready hstage _).symm.trans hloop
    | worker hworker => cases (workerStep_of_nil hs.workers _).symm.trans hworker
    | openPipe => exact absurd rfl hchanged
    | _ => exact absurd rfl ha
  | serving hbefore => rw [hnot] at hbefore; cases hbefore
  | closing hstage hs =>
    rename_i slots result
    rcases hs.step (by rw [hstage]; rintro ⟨⟩) hstep with ⟨choice, rfl⟩ | ⟨hsame, -⟩
    · cases loopStep_cases hstep with
      | closed => cases hserving
      | close => cases hserving
      | _ hstage' => cases hstage'.symm.trans hstage
    · exact absurd hsame hchanged
  | ended hstage hs =>
    rcases hs.step (fun hready => by rw [hready] at hstage; cases hstage) hstep with
      ⟨choice, rfl⟩ | ⟨hsame, -⟩
    · cases loopStep_cases hstep with
      | leave =>
        rw [stage_leave] at hserving
        cases hserving
      | _ hbefore =>
        rw [hbefore] at hstage
        cases hstage
    · exact absurd hsame hchanged

/-- Before a server serves nothing is open, and while it serves every step keeps to the phases. -/
theorem inPhase_reachable (hstart : start.Coherent) (hready : start.stage = .ready)
    (hs : Reachable start s) : s.stage.isServing = true → s.InPhase := by
  induction hs with
  | refl => intro hserving; rw [hready] at hserving; cases hserving
  | @step s t action hs hstep ih =>
    intro hserving
    have hcoherent := hstart.reachable hs
    cases hbefore : s.stage.isServing with
    | true =>
      obtain ⟨horderly, hearly⟩ := hcoherent.orderly hbefore
      exact (ih hbefore).step horderly (horderly.perform hbefore hearly hstep)
    | false =>
      intro h τ c ht
      have hvacant := ((hcoherent.step hstep).orderly hserving).2
        (early_of_begins hcoherent hbefore hstep hserving) h
      exact absurd hvacant ht.not_vacant

/-! ## A response in progress

From one step to the next a response is the same, and further on. -/

/-- What may become of a response in one step: its connection is closed; it goes on, with no less of
it sent; or all that was left of it has been accepted, and there is none any more. -/
inductive Carried (s t : Server) (h : Handle) (d : Delivery) : Prop
  | closed : t.hub.connection? h = none → t.hub.kernel.descriptors.get? h.descriptor = none →
    Carried s t h d
  | underway {c : Connection} : t.hub.connection? h = some c → d.Continues c.delivery →
    c.delivery.plan.sent < c.delivery.plan.total → Carried s t h d
  | finished {c : Connection} : t.hub.connection? h = some c → c.delivery.Idle →
    (t.hub.kernel.wire h.descriptor).outbound =
      (s.hub.kernel.wire h.descriptor).outbound ++ (d.headRest ++ d.fileRest) → Carried s t h d

/-- An attempt to send carries a response on, unless the connection is to be closed. -/
theorem Carried.of_attempted {d : Delivery} {k : Kernel} {w : Wire} {next : Next}
    (hattempted : d.Attempted (k.wire h.descriptor) next c'.delivery w) (hnext : next ≠ .close)
    (hconnection : t.hub.connection? h = some c')
    (hkernel : t.hub.kernel = k.putWire h.descriptor w)
    (hstream : (k.wire h.descriptor).stream = (s.hub.kernel.wire h.descriptor).stream) :
    Carried s t h d := by
  cases hattempted with
  | partly hsending hcontinues => exact .underway hconnection hcontinues hsending.due.incomplete
  | wholly hidle hsome hout =>
    refine .finished hconnection hidle ?_
    rw [hkernel, Kernel.outbound_putWire hsome, hout, Wire.outbound, Wire.outbound, hstream]
  | ends => exact absurd rfl hnext

/-- **A response in progress is carried on.** In most ways of passing on the delivery stays as it
is; an attempt to send carries it on, and who closes the connection ends it. -/
theorem Passage.carried (hpassage : Passage a s t h τ c) (hs : s.Standing h τ c)
    (hc : c.delivery.InPhase τ.phase) (hpending : c.delivery.plan.sent < c.delivery.plan.total) :
    Carried s t h c.delivery := by
  have hsame : ∀ {τ'}, t.Standing h τ' c → Carried s t h c.delivery := fun ht =>
    .underway ht.connection (.refl _) hpending
  have hbusy : ¬ c.delivery.Idle := fun hidle => absurd hidle.sent_eq_total (Nat.ne_of_lt hpending)
  obtain ⟨n, hn⟩ := hs.descriptor
  cases hpassage with
  | stay ht => exact hsame ht
  | armed _ ht => exact hsame ht
  | unarmed _ _ ht => exact hsame ht
  | fetched _ ht => exact hsame ht
  | looked ht => exact hsame ht
  -- a connection that is read, parsed or answered has nothing left to send
  | read => exact absurd hc hbusy
  | submitted ht => exact hsame ht
  | turnedAway _ ht => exact hsame ht
  | resumed hresume hnext ht hkernel =>
    obtain ⟨front, file, hd, hheld, -⟩ := hc
    refine .of_attempted (Connection.resume_attempted hd hheld hresume) ?_ ht.connection hkernel rfl
    rintro rfl
    cases hnext
  | ended _ ht hkernel =>
    refine .closed ht.connection ?_
    rw [hkernel]
    refine (Kernel.discard_self ?_).1
    rw [(Kernel.putWire_spec _ _ _).1.descriptors, hn]
    rfl
  | taken ht => exact hsame ht
  | parsed => exact absurd hc hbusy
  | released ht => exact hsame ht
  | answered => exact absurd hc hbusy
  | closed _ ht hkernel =>
    refine .closed ht.connection ?_
    rw [hkernel]
    exact (Kernel.discard_self (by rw [hn]; rfl)).1

/-! ## Who finds what

What is found by the one who takes a connection from its place: something to send, or nothing left
to send. -/

/-- What is armed is open. -/
theorem Orderly.standing_poll (hs : s.Orderly) {interest : Interest}
    (harmed : s.hub.kernel.poll.registrations.armed h = some interest) :
    ∃ c, s.Standing h (.poll interest) c := by
  have hplace : (s.places h).armed = some interest := harmed
  obtain ⟨τ, c, hstanding⟩ :=
    hs.standing (h := h) fun hnone => by rw [hnone] at hplace; cases hplace
  rw [hstanding.places] at hplace
  cases τ with
  | poll interest' =>
    obtain rfl := Option.some.inj hplace
    exact ⟨c, hstanding⟩
  | _ => cases hplace

/-- What is in the queue is open. -/
theorem Orderly.standing_queue (hs : s.Orderly) (hmem : h ∈ s.pool.queue) :
    ∃ c, s.Standing h .queue c := by
  have hplace : 0 < (s.places h).queued := List.count_pos_iff.mpr hmem
  obtain ⟨τ, c, hstanding⟩ :=
    hs.standing (h := h) fun hnone => by rw [hnone] at hplace; cases hplace
  rw [hstanding.places] at hplace
  cases τ with
  | queue => exact ⟨c, hstanding⟩
  | _ => cases hplace

/-- A handle names an open connection whose delivery is as described. -/
def Delivers (s : Server) (h : Handle) (p : Delivery → Prop) : Prop :=
  ∃ c, s.hub.connection? h = some c ∧ p c.delivery

/-- Requests and responses take turns at every connection of a server. -/
structure TakesTurns (s : Server) : Prop where
  /-- a connection armed for reading has no response in progress -/
  armed_read : ∀ h, s.hub.kernel.poll.registrations.armed h = some .read →
    s.Delivers h Delivery.Idle
  /-- nor has one that the loop is to read from -/
  reading : ∀ rest h, s.stage = .batch rest (.read h) → s.Delivers h Delivery.Idle
  /-- nor one that is about to be queued -/
  submitting : ∀ rest h, s.stage = .batch rest (.submit h) → s.Delivers h Delivery.Idle
  /-- nor one in the queue -/
  queued : ∀ h ∈ s.pool.queue, s.Delivers h Delivery.Idle
  /-- nor one whose request a worker is about to read -/
  parsing : ∀ (i : Nat) h, s.pool.workers[i]? = some (.busy (.parse h)) → s.Delivers h Delivery.Idle
  /-- nor one whose request a worker is about to answer -/
  answering : ∀ (i : Nat) h outcome awaited,
    s.pool.workers[i]? = some (.busy (.answer h outcome awaited)) → s.Delivers h Delivery.Idle
  /-- a connection armed for writing has something to send -/
  armed_write : ∀ h, s.hub.kernel.poll.registrations.armed h = some .write →
    s.Delivers h Delivery.Due
  /-- so has one with an event that calls for writing -/
  writable : ∀ h, ∀ e ∈ s.stage.events, taskOf e = .resume h → s.Delivers h Delivery.Due
  /-- and one whose response the loop is about to resume -/
  resuming : ∀ rest h, s.stage = .batch rest (.resume h) → s.Delivers h Delivery.Due
  /-- a response in progress is not given up, unless its connection is closed -/
  carried : ∀ a t, s.perform? a = some t → ∀ h c, s.hub.connection? h = some c →
    c.delivery.plan.sent < c.delivery.plan.total → Carried s t h c.delivery
  /-- and neither is one that a worker has just laid out -/
  started : ∀ (i : Nat) h outcome, s.pool.workers[i]? = some (.busy (.answer h outcome none)) →
    outcome ≠ .incomplete → ∀ t, s.perform? (.worker i) = some t →
      t.pool.workers[i]? = some (.busy (.close h)) ∨
        ∃ c r d, s.hub.connection? h = some c ∧ c.delivery.lay? r c.keepAlive = some d ∧
          Carried s t h d

/-- What a worker has laid out is carried on, or the worker is about to close the connection. -/
theorem Orderly.started (hs : s.Orderly) {i : Nat} {outcome : Request.Outcome}
    (hi : s.pool.workers[i]? = some (.busy (.answer h outcome none)))
    (houtcome : outcome ≠ .incomplete)
    (hstep : s.perform? (.worker i) = some t) :
    t.pool.workers[i]? = some (.busy (.close h)) ∨
      ∃ c r d, s.hub.connection? h = some c ∧ c.delivery.lay? r c.keepAlive = some d ∧
        Carried s t h d := by
  obtain ⟨c, hstanding⟩ := hs.standing_job hi
  have hconnection : s.hub.connection? h = some c := hstanding.connection
  obtain ⟨-, -, -, hdescriptor⟩ := Hub.connection?_eq_some.mp hconnection
  obtain ⟨next, c', k, hanswer⟩ :
      ∃ next c' k, Hub.answer s.hub.root outcome c s.hub.kernel = (next, c', k) := ⟨_, _, _, rfl⟩
  obtain ⟨hkeep, w, rfl, hattempted⟩ := Hub.answer_attempted houtcome hanswer
  simp only [Server.perform?, Server.workerStep, hi, Server.jobStep, Hub.visit_of_some hconnection,
    hanswer] at hstep
  obtain rfl := Option.some.inj hstep
  rcases hattempted with rfl | ⟨d, hlay, hattempted⟩
  · left
    exact List.getElem?_set_self (List.getElem?_eq_some_iff.mp hi).1
  · by_cases hnext : next = .close
    · subst hnext
      left
      exact List.getElem?_set_self (List.getElem?_eq_some_iff.mp hi).1
    · right
      rw [hdescriptor] at hattempted
      exact ⟨c, _, d, hconnection, hlay, .of_attempted hattempted hnext
        (Hub.connection?_put_self hconnection hkeep _) (by rw [hdescriptor]; rfl)
        (Hub.stream_resolve _ _ _ _ (hs.tidy.unregistered s.hub.kernel.nextDescriptor_free) _)⟩

/-- From the phases to what each place may rely on. Where a handle is found tells where its
connection stands, and that tells the phase. -/
theorem Orderly.takesTurns (hs : s.Orderly) (hserving : s.stage.isServing = true)
    (hearly : s.stage.isEarly = true → ∀ h, s.Vacant h) (hphase : s.InPhase) : s.TakesTurns := by
  -- a connection found in a place has the phase of its holder
  have hread : ∀ {h τ c}, s.Standing h τ c → τ.phase = some .read → s.Delivers h Delivery.Idle :=
    fun hstanding hτ => ⟨_, hstanding.connection, by
      have hc := hphase _ _ _ hstanding
      rw [hτ] at hc
      exact hc⟩
  have hwrite : ∀ {h τ c}, s.Standing h τ c → τ.phase = some .write → s.Delivers h Delivery.Due :=
    fun hstanding hτ => ⟨_, hstanding.connection, by
      have hc := hphase _ _ _ hstanding
      rw [hτ] at hc
      exact hc.due⟩
  refine ⟨?_, ?_, ?_, ?_, ?_, ?_, ?_, ?_, ?_, ?_, fun _ _ _ hi houtcome _ => hs.started hi houtcome⟩
  · intro h ha
    obtain ⟨c, hstanding⟩ := hs.standing_poll ha
    exact hread hstanding rfl
  · intro rest h hstage
    obtain ⟨c, hstanding⟩ := hs.standing_task hstage rfl
    exact hread hstanding rfl
  · intro rest h hstage
    obtain ⟨c, hstanding⟩ := hs.standing_task hstage rfl
    exact hread hstanding rfl
  · intro h hmem
    obtain ⟨c, hstanding⟩ := hs.standing_queue hmem
    exact hread hstanding rfl
  · intro i h hi
    obtain ⟨c, hstanding⟩ := hs.standing_job hi
    exact hread hstanding rfl
  · intro i h outcome awaited hi
    obtain ⟨c, hstanding⟩ := hs.standing_job hi
    exact hread hstanding rfl
  · intro h ha
    obtain ⟨c, hstanding⟩ := hs.standing_poll ha
    exact hwrite hstanding rfl
  · intro h e he htask
    cases howner : owner? e.token with
    | none =>
      have hnone := (taskOf_of_none howner).1
      rw [htask] at hnone
      cases hnone
    | some g =>
      obtain ⟨c, hstanding⟩ := hs.standing_event he howner
      rw [taskOf_of_owner howner] at htask
      obtain ⟨rfl, hphase'⟩ := phase_of_eventTask htask
      exact hwrite hstanding hphase'
  · intro rest h hstage
    obtain ⟨c, hstanding⟩ := hs.standing_task hstage rfl
    exact hwrite hstanding rfl
  · intro a t hstep h c hconnection hpending
    rcases hs.held h with hv | ⟨τ, c₀, hstanding⟩
    · cases hv.connection.symm.trans hconnection
    · obtain rfl := Option.some.inj (hstanding.connection.symm.trans hconnection)
      exact ((hs.perform hserving hearly hstep).passage h τ c₀ hstanding).carried hstanding
        (hphase h τ c₀ hstanding) hpending

/-- **Requests and responses take turns**: in every state in which a server serves, under every
schedule, whatever the clients send and whatever the kernel lets fail, no response is in progress at
a connection that waits for a request or is being answered, a connection that waits to write has
something to send, and a response that has been started is sent to its end or its connection is
closed. -/
theorem phases_take_turns {k : Kernel} {listener : Int} {config : Config}
    (hstart : ofListener k listener config = .ok start) (hk : k.Honest) (hs : Reachable start s)
    (hserving : s.stage.isServing = true) : s.TakesTurns := by
  have hcoherent := coherent_ofListener hstart hk
  obtain ⟨horderly, hearly⟩ := (hcoherent.reachable hs).orderly hserving
  obtain ⟨-, -, hready, -⟩ := ofListener_spec hstart
  exact horderly.takesTurns hserving hearly (inPhase_reachable hcoherent hready hs hserving)

/-- A kernel with a listener, where the first write takes ten bytes and the second none. -/
def congested : Kernel :=
  { listening with scripts := [(.write none, [some (.limit 10), some (.fail .wouldBlock)])] }

/-- The first client sends a request, and a worker sends the first ten bytes of the answer. -/
def partlyAnswered : List Action :=
  firstClient ++ [.client 0 (.send (.ofText "GET / HTTP/1.1\r\n\r\n"))] ++
    List.replicate 12 (.loop 0) ++ List.replicate 6 (.worker 0)

/-- Ten bytes of the response have been sent, and the connection is armed for writing the rest. -/
theorem phases_take_turns_partly_answered : ∃ start, ofListener congested 3 smallest = .ok start ∧
    congested.Honest ∧ Reachable start (start.after partlyAnswered) ∧
    (start.after partlyAnswered).stage.isServing = true ∧
    (start.after partlyAnswered).hub.kernel.poll.registrations.armed ⟨7⟩ = some .write ∧
    ((start.after partlyAnswered).hub.connection? ⟨7⟩).map (·.delivery.plan) =
      some { headStart := 10, headStop := 160, fileStart := 0, total := 160, sent := 10 } ∧
    (start.after partlyAnswered).TakesTurns := by
  have hstart : ofListener congested 3 smallest = .ok _ := rfl
  have hk : congested.Honest := fun fault hfault => absurd hfault List.not_mem_nil
  have hs : ∀ start, Reachable start (start.after partlyAnswered) := fun _ =>
    Reachable.refl.after partlyAnswered
  have hserving : ∀ start, ofListener congested 3 smallest = .ok start →
      (start.after partlyAnswered).stage.isServing = true := by
    rintro _ ⟨⟩
    decide +kernel
  exact ⟨_, hstart, hk, hs _, hserving _ hstart, by decide +kernel, by decide +kernel,
    phases_take_turns hstart hk (hs _) (hserving _ hstart)⟩

end Server

end FileServer
