import FileServer.Proofs.Server.Listening
import FileServer.Proofs.Server.Waking

/-!
# Clients that wait to be accepted

The listener reports changes: it has an event when a client connects, and when it is added to the
poll set while clients wait. So once the loop has fetched an event of the listener, it has to go on
accepting until nobody waits. It does, unless accepting a client fails; then it gives up
(`Server.GivesUp`), and whoever waits at that moment may have no event to come.

As long as it has not given up since the last client connected, whoever waits is heeded
(`Server.Heeded`): the listener has an event to be fetched, or one that has been fetched and is yet
to be looked at, or the loop is accepting. So the loop does not come to wait before it has accepted
or turned away whoever waits (`Server.waiting_clients_heeded`). Whoever is not heeded is left
behind: as long as nobody else connects, no step accepts a client or brings an event of the listener
(`Server.left_behind_until_connect`). One failure is enough for that (`Server.client_left_behind`).
-/

namespace FileServer.Server

variable {s t start : Server} {a : Action} {n : Nat}

/-! ## The listener

The listener stays open and registered for as long as the loop may come to wait, and nobody else is
registered under its token. -/

/-- The listener is there, and in the poll set once it has been added. Nothing else is registered
that reports every change under its token, so an event with the token is one of the listener. -/
structure Attentive (s : Server) : Prop where
  listens : s.Listens
  registered : s.stage.isListening = true → s.IsRegistered
  sole : s.stage ≠ .ready → s.IsSole

/-- A step that leaves all registrations as they are. -/
theorem Attentive.keep (hs : s.Attentive) (hlistener : t.listener = s.listener)
    (hlistens : ∃ l, t.hub.kernel.descriptors.get? s.listener = some (.listener l))
    (hregistrations : t.hub.kernel.poll.registrations = s.hub.kernel.poll.registrations)
    (hstage : s.stage.isListening = t.stage.isListening)
    (hready : t.stage ≠ .ready → s.stage ≠ .ready) : t.Attentive := by
  refine ⟨?_, fun ht => ?_, fun ht d g hg => ?_⟩
  · rw [Listens, hlistener]
    exact hlistens
  · rw [IsRegistered, hlistener, hregistrations]
    exact hs.registered (hstage.trans ht)
  · rw [hlistener]
    rw [hregistrations] at hg
    exact hs.sole (hready ht) d g hg

/-- Each step that concerns the listener keeps it registered, and those that do not leave it
alone. -/
theorem ListenerStep.attentive (h : ListenerStep a s t) (hs : s.Attentive) : t.Attentive := by
  obtain ⟨l, hl⟩ := id hs.listens
  cases h with
  | aside h halike =>
    exact ⟨h.listens hs.listens, fun ht => h.isRegistered (hs.registered (halike.listening ▸ ht)),
      fun ht => h.isSole (hs.sole (halike.ready ht))⟩
  | served _ hlistener hdescriptor hnot hpoll =>
    refine ⟨⟨l, by rw [hlistener, hdescriptor, hl]⟩, fun ht => ?_, fun _ d g hg => ?_⟩
    · rw [hnot] at ht
      cases ht
    · rw [hpoll] at hg
      cases hg
  | registered hstage hlistener hdescriptor hregistrations _ =>
    refine ⟨⟨l, by rw [hlistener, hdescriptor, hl]⟩, fun _ => ?_, fun _ d g hg hshot htoken => ?_⟩
    · rw [IsRegistered, hlistener, hregistrations, DescriptorMap.get?_set_self]
    -- a registration from before under the listener's token was the listener's own
    · by_cases hd : d = s.listener
      · exact hd.trans hlistener.symm
      · rw [hregistrations, DescriptorMap.get?_set_ne _ _ hd] at hg
        exact absurd (hs.sole (by rw [hstage]; rintro ⟨⟩) d g hg hshot htoken) hd
  | connected _ hlistener hstage hk _ =>
    exact hs.keep hlistener hk.listens hk.registrations (by rw [hstage]) fun ht => hstage ▸ ht
  | fetched hstage ht =>
    have hfetched := s.hub.kernel.fetched_collect s.config.maxEvents
    subst ht
    refine ⟨⟨l, hl⟩, fun _ => (hfetched.standing _ _ rfl).mpr ?_, fun _ d g hg hshot htoken => ?_⟩
    · exact hs.registered (by rw [hstage]; rfl)
    · exact hs.sole (by rw [hstage]; rintro ⟨⟩) d g ((hfetched.standing d g hshot).mp hg)
        hshot htoken
  | accepted hlistener hstage hstage' hk _ =>
    refine hs.keep hlistener hk.listens hk.registrations ?_ fun _ => ?_
    · rw [hstage, hstage']
      rfl
    · rw [hstage]
      rintro ⟨⟩
  | unaccepted _ h hstage _ _ =>
    exact ⟨h.listens hs.listens, fun _ => h.isRegistered (hs.registered (by rw [hstage]; rfl)),
      fun _ => h.isSole (hs.sole (by rw [hstage]; rintro ⟨⟩))⟩

/-- What holds in every state that can be reached. -/
structure Receptive (s : Server) : Prop where
  coherent : s.Coherent
  attentive : s.stage.isLooping = true → s.Attentive

namespace Receptive

/-- What a step does about the listener is known once the server is in order. -/
theorem listenerStep (hs : s.Receptive) (hstep : s.perform? a = some t)
    (hloop : t.stage.isLooping = true) : ListenerStep a s t := by
  have hlooping := looping_perform hstep hloop
  have hattentive := hs.attentive hlooping
  exact listenerStep_perform hs.coherent hattentive.listens hattentive.registered hstep
    hlooping hloop

/-- **Every step keeps the listener in the poll set.** -/
theorem step (hs : s.Receptive) (hstep : s.perform? a = some t) : t.Receptive :=
  ⟨hs.coherent.step hstep, fun hloop =>
    (hs.listenerStep hstep hloop).attentive (hs.attentive (looping_perform hstep hloop))⟩

/-- A signal takes the loop out of its wait, and concerns no registration. -/
theorem interrupt (hs : s.Receptive) (hstage : s.stage = .waiting) :
    (s.goTo .checking).Receptive := by
  have hattentive := hs.attentive (by rw [hstage]; rfl)
  refine ⟨hs.coherent.interrupt hstage, fun _ => hattentive.keep rfl hattentive.listens rfl ?_ ?_⟩
  · rw [hstage]
    rfl
  · rw [hstage]
    rintro _ ⟨⟩

/-- A server is receptive in every state that can be reached, by induction on the run. -/
theorem reachable (hstart : start.Receptive) (hs : start.ReachableWithSignals s) : s.Receptive := by
  induction hs with
  | refl => exact hstart
  | step _ hstep ih => exact ih.step hstep
  | interrupt _ hstage ih => exact ih.interrupt hstage

end Receptive

/-- A server that has been set up with a listener has one. -/
theorem receptive_ofListener {k : Kernel} {listener : Int} {l : Listener} {config : Config}
    (hstart : ofListener k listener config = .ok start) (hk : k.Honest)
    (hl : k.descriptors.get? listener = some (.listener l)) : start.Receptive := by
  have hkept := Kernel.descriptor_createPipe (k := k) (d := listener) (by rw [hl]; rfl)
  have hcoherent := coherent_ofListener hstart hk
  simp only [ofListener] at hstart
  split at hstart
  · cases hstart
  · split at hstart
    · cases hstart
    · next heq =>
      obtain rfl := Except.ok.inj hstart
      rw [heq] at hkept
      exact ⟨hcoherent, fun _ =>
        ⟨⟨l, hkept.trans hl⟩, (by rintro ⟨⟩), fun hready => absurd rfl hready⟩⟩

/-! ## Heeding those who wait

If somebody waits, the loop is about to accept, or the listener is to be looked at, or the loop has
given up on accepting since the last one came. -/

/-- It is going to be seen that clients wait: the listener has an event to be fetched, or the loop
is accepting, or is going to because of an event that it has fetched. -/
def Heeded (s : Server) : Prop :=
  s.listener ∈ s.hub.kernel.poll.pending ∨ s.stage.isHeeding = true

/-- Whoever waits to be accepted is heeded. -/
def Heeds (s : Server) : Prop := s.stage.isListening = true → s.backlog ≠ [] → s.Heeded

/-- The loop stops accepting although clients wait, as no client can be accepted. With nobody
waiting, to stop is what it should do. -/
structure GivesUp (a : Action) (s : Server) : Prop where
  turn : ∃ choice, a = .loop choice
  accepting : ∃ rest, s.stage = .batch rest .accept
  failed : ∀ d peer, (s.hub.kernel.accept s.listener).1 ≠ .accepted d peer
  waiting : s.backlog ≠ []

/-- A step that is not noticed at the listener, and after which the same is going to be done about
it. -/
theorem Spares.heeded (h : s.Spares t) (halike : s.stage.Alike t.stage) : t.Heeded ↔ s.Heeded := by
  rw [Heeded, Heeded, h.mem_pending, halike.heeding]

/-- A loop that waits has fetched no event that it is yet to look at. -/
theorem Heeded.pending (hs : s.Heeded) (hwait : s.stage.isWait = true) :
    s.listener ∈ s.hub.kernel.poll.pending := by
  refine hs.resolve_right fun hheeding => ?_
  cases hstage : s.stage with
  | batch rest task => rw [hstage] at hwait; cases hwait
  | _ => rw [hstage] at hheeding; cases hheeding

/-- A listener at which clients wait has that to report. -/
theorem report_of_backlog (hwaiting : s.backlog ≠ []) :
    ((standing listenerToken).report (s.hub.kernel.readiness s.listener)).any = true := by
  rw [Kernel.readiness_of_backlog hwaiting]
  rfl

/-- **Every step but one that gives up keeps whoever waits heeded.** An event that is fetched is
looked at, one that is looked at has the loop accept, and the loop accepts until nobody waits;
what is left is the loop that stops, and that was excluded. -/
theorem ListenerStep.heeds (h : ListenerStep a s t) (hs : s.Attentive) (hbefore : s.Heeds)
    (hgo : ¬ GivesUp a s) : t.Heeds := by
  intro hlistening hwaiting
  cases h with
  | aside h halike =>
    rw [h.backlog] at hwaiting
    exact (h.heeded halike).mpr (hbefore (halike.listening ▸ hlistening) hwaiting)
  | served _ _ _ hnot _ =>
    rw [hnot] at hlistening
    cases hlistening
  | registered _ hlistener hdescriptor _ hpending =>
    rw [backlog, hlistener, Kernel.backlog_congr hdescriptor] at hwaiting
    exact .inl (hpending hwaiting)
  | connected _ _ hstage _ hpending =>
    exact .inl (hpending (hs.registered (hstage ▸ hlistening)))
  | fetched hstage ht =>
    subst ht
    have hlistening : s.stage.isListening = true := by rw [hstage]; rfl
    -- to fetch events leaves the backlog as it is
    have hwaiting' : s.backlog ≠ [] := hwaiting
    have hpending := (hbefore hlistening hwaiting').pending (by rw [hstage]; rfl)
    rcases Poll.collectFrom_reports s.hub.kernel.readiness s.config.maxEvents
      (hs.registered hlistening) rfl (report_of_backlog hwaiting') hpending with
      ⟨e, he, htoken⟩ | hpending
    · exact .inr (Stage.isHeeding_batch.mpr (.inr ⟨e, he, htoken⟩))
    · exact .inl hpending
  | accepted _ _ hstage _ _ =>
    rw [Heeded, hstage]
    exact .inr rfl
  | unaccepted ha h hstage _ hnone =>
    rw [h.backlog] at hwaiting
    exact absurd ⟨⟨_, ha⟩, ⟨_, hstage⟩, hnone, hwaiting⟩ hgo

/-! ## Runs

From one step to a run: either it gives up somewhere on the way, or those who wait are heeded at its
end. -/

/-- The states that a server can reach in which the loop has not given up accepting since the last
client connected. Signals may cut its waits short. -/
inductive Mindful (start : Server) : Server → Prop
  | refl : Mindful start start
  | step {s t : Server} {a : Action} : Mindful start s → s.perform? a = some t → ¬ GivesUp a s →
    Mindful start t
  | interrupt {s : Server} : Mindful start s → s.stage = .waiting → Mindful start (s.goTo .checking)
  /-- whatever has been before -/
  | connect {s t : Server} {n : Nat} : start.ReachableWithSignals s → s.connect = (some n, t) →
    Mindful start t

/-- These states are among those that can be reached. -/
theorem Mindful.reachable (hs : Mindful start s) : start.ReachableWithSignals s := by
  induction hs with
  | refl => exact .refl
  | step _ hstep _ ih => exact ih.step hstep
  | interrupt _ hstage ih => exact ih.interrupt hstage
  | connect hs hconnect =>
    have hperform := hs.step (a := .connect) rfl
    rwa [hconnect] at hperform

/-- A client that connects is heeded, and so is whoever waits with it, also those who were left
behind before. -/
theorem Attentive.connect (hs : s.Attentive) (hconnect : s.connect = (some n, t)) : t.Heeds := by
  intro hlistening _
  simp only [Server.connect] at hconnect
  rcases heq : s.hub.kernel.connect s.listener with ⟨number, k⟩
  rw [heq] at hconnect
  obtain ⟨rfl, rfl⟩ := Prod.mk.inj hconnect
  exact .inl (Kernel.pending_connect heq (hs.registered hlistening) rfl rfl)

/-- Whoever waits to be accepted is heeded. -/
theorem Mindful.heeds (hstart : start.Receptive) (hready : start.stage = .ready)
    (hs : Mindful start s) : s.Heeds := by
  induction hs with
  | refl =>
    intro hlistening
    rw [hready] at hlistening
    cases hlistening
  | step hs hstep hgo ih =>
    intro hlistening
    have hloop := Stage.isLooping_of_isListening hlistening
    have hreceptive := hstart.reachable hs.reachable
    have hattentive := hreceptive.attentive (looping_perform hstep hloop)
    exact (hreceptive.listenerStep hstep hloop).heeds hattentive ih hgo hlistening
  | interrupt hs hstage ih =>
    intro _ hwaiting
    exact .inl ((ih (by rw [hstage]; rfl) hwaiting).pending (by rw [hstage]; rfl))
  | connect hs hconnect =>
    -- nothing is known of who waited before, and nothing need be: the listener is looked at anyway
    intro hlistening
    have hstage := congrArg (fun x => x.2.stage) hconnect
    have hloop := Stage.isLooping_of_isListening hlistening
    exact ((hstart.reachable hs).attentive (hstage ▸ hloop)).connect hconnect hlistening

/-! ## Nobody is left behind

A loop that waits has nobody queued at its listener, or an event of the listener to fetch, unless
an accept has failed and nobody has connected since. -/

/-- The listener has an event to be fetched. -/
structure HasListenerEvent (s : Server) : Prop where
  pending : s.listener ∈ s.hub.kernel.poll.pending
  reported : ∃ g, s.hub.kernel.poll.registrations.get? s.listener = some g ∧
    g.token = listenerToken ∧
    (g.report (s.hub.kernel.readiness s.listener)).any = true

/-- A wait ends when the listener has an event. -/
theorem HasListenerEvent.hasEvent (hs : s.HasListenerEvent) : s.hasEvent = true := by
  obtain ⟨g, hg, -, hany⟩ := hs.reported
  refine List.any_eq_true.mpr ⟨s.listener, hs.pending, ?_⟩
  rw [hg]
  exact hany

/-- What becomes of clients that wait to be accepted, as long as the loop has not given up. -/
structure LeavesNobodyBehind (s : Server) : Prop where
  /-- they are heeded at every stage -/
  heeded : s.Heeds
  /-- so the listener has an event to be fetched when the loop is about to wait, or waits -/
  pending : s.stage.isWait = true → s.backlog ≠ [] → s.HasListenerEvent
  /-- and the loop does not wait on -/
  goesOn : s.stage = .waiting → s.backlog ≠ [] → ∀ choice, s.loopStep choice = some s.fetch

/-- **Nobody is left behind in the backlog** unless the loop gives up. However clients come,
whatever calls the kernel lets fail or be interrupted, as long as the loop has not given up
accepting since the last client connected, whoever waits to be accepted is heeded: where the loop
waits, the listener has an event to be fetched, and the loop fetches it without anybody else having
to connect. -/
theorem waiting_clients_heeded {k : Kernel} {listener : Int} {l : Listener} {config : Config}
    (hstart : ofListener k listener config = .ok start) (hk : k.Honest)
    (hl : k.descriptors.get? listener = some (.listener l)) (hs : Mindful start s) :
    s.LeavesNobodyBehind := by
  have hreceptive := receptive_ofListener hstart hk hl
  obtain ⟨-, -, hready, -⟩ := ofListener_spec hstart
  have hheeds := hs.heeds hreceptive hready
  have hpending : s.stage.isWait = true → s.backlog ≠ [] → s.HasListenerEvent := by
    intro hwait hwaiting
    have hround := Stage.isRound_of_isWait hwait
    have hlistening := Stage.isListening_of_isRound hround
    have hattentive :=
      (hreceptive.reachable hs.reachable).attentive (Stage.isLooping_of_isRound hround)
    exact ⟨(hheeds hlistening hwaiting).pending hwait, _, hattentive.registered hlistening, rfl,
      report_of_backlog hwaiting⟩
  refine ⟨hheeds, hpending, fun hstage hwaiting choice => ?_⟩
  simp only [loopStep, hstage, (hpending (by rw [hstage]; rfl) hwaiting).hasEvent, if_true]

/-- A kernel with a listener, where the first attempt to accept a client fails. -/
def failing : Kernel := { listening with scripts := [(.accept, [some (.fail .tooManyFiles)])] }

/-- The first client was left behind, and the second comes: both wait, and both are heeded. -/
theorem waiting_clients_heeded_after_failure :
    ∃ start t, ofListener failing 3 smallest = .ok start ∧
    failing.Honest ∧ failing.descriptors.get? 3 = some (.listener {}) ∧
    (start.after firstClient).connect = (some 1, t) ∧ Mindful start t ∧
    t.stage = .waiting ∧ t.backlog = [0, 1] ∧ t.LeavesNobodyBehind := by
  have hstart : ofListener failing 3 smallest = .ok _ := rfl
  have hk : failing.Honest := fun fault hfault => absurd hfault List.not_mem_nil
  have hs : ∀ start, ReachableWithSignals start (start.after firstClient) := fun _ =>
    (Reachable.refl.after firstClient).withSignals
  have hconnect : ∀ start, ofListener failing 3 smallest = .ok start →
      (start.after firstClient).connect = (some 1, (start.after firstClient).connect.2) := by
    rintro _ ⟨⟩
    rfl
  have hmindful := Mindful.connect (hs _) (hconnect _ hstart)
  exact ⟨_, _, hstart, hk, rfl, hconnect _ hstart, hmindful, rfl, by decide +kernel,
    waiting_clients_heeded hstart hk rfl hmindful⟩

/-! ## Left behind

What happens where the condition is not met: until somebody else connects, nothing brings the loop
back to the listener. -/

/-- Clients wait to be accepted, and are not heeded: there is no event of the listener, fetched or
to be fetched, and the loop is not accepting. -/
structure LeftBehind (s : Server) : Prop where
  listening : s.stage.isListening = true
  waiting : s.backlog ≠ []
  unheeded : ¬ s.Heeded

/-- An event with the token of the listener is one of the listener. -/
theorem Receptive.pending_of_event (hs : s.Receptive) (hstage : s.stage = .waiting) {e : Event}
    (he : e ∈ (s.hub.kernel.collect s.config.maxEvents).1) (htoken : e.token = listenerToken) :
    s.listener ∈ s.hub.kernel.poll.pending := by
  obtain ⟨d, hd, g, hg, hsame⟩ := Poll.source_of_collectFrom he
  obtain ⟨horderly, -⟩ := hs.coherent.orderly (by rw [hstage]; rfl)
  have hattentive := hs.attentive (by rw [hstage]; rfl)
  have hshot : g.oneShot = false := by
    cases hshot : g.oneShot with
    | false => rfl
    | true =>
      have howner := (horderly.tidy.names d g hg).oneShot hshot
      rw [hsame, htoken] at howner
      cases howner
  rwa [← hattentive.sole (by rw [hstage]; rintro ⟨⟩) d g hg hshot (hsame.trans htoken)]

/-- No step but that of a client that connects accepts anybody or brings an event: the listener in
edge-triggered mode reports what changes, and nothing changes at it. -/
theorem LeftBehind.step (h : s.LeftBehind) (hs : s.Receptive) (hstep : s.perform? a = some t)
    (ha : a ≠ .connect) (hloop : t.stage.isLooping = true) :
    t.LeftBehind ∧ t.backlog = s.backlog := by
  -- the loop is not accepting
  have hnot : ∀ rest, s.stage ≠ .batch rest .accept := fun rest hstage =>
    h.unheeded (.inr (by rw [hstage]; rfl))
  cases hs.listenerStep hstep hloop with
  | aside hspares halike =>
    refine ⟨⟨halike.listening.trans h.listening, ?_, ?_⟩, hspares.backlog⟩
    · rw [hspares.backlog]
      exact h.waiting
    · rw [hspares.heeded halike]
      exact h.unheeded
  | served hstage =>
    have hlistening := h.listening
    rw [hstage] at hlistening
    cases hlistening
  | registered hstage =>
    have hlistening := h.listening
    rw [hstage] at hlistening
    cases hlistening
  | connected hconnect => exact absurd hconnect ha
  | fetched hstage ht =>
    subst ht
    refine ⟨⟨rfl, h.waiting, ?_⟩, rfl⟩
    rintro (hpending | hheeding)
    · exact h.unheeded (.inl (Poll.mem_of_collectFrom hpending))
    · rcases Stage.isHeeding_batch.mp hheeding with haccepting | ⟨e, he, htoken⟩
      · cases haccepting
      · exact h.unheeded (.inl (hs.pending_of_event hstage he htoken))
  | accepted _ hstage => exact absurd hstage (hnot _)
  | unaccepted _ _ hstage => exact absurd hstage (hnot _)

/-- The states that can be reached without anybody connecting. Signals may cut waits short. -/
inductive Unvisited (start : Server) : Server → Prop
  | refl : Unvisited start start
  | step {s t : Server} {a : Action} : Unvisited start s → s.perform? a = some t → a ≠ .connect →
    Unvisited start t
  | interrupt {s : Server} : Unvisited start s → s.stage = .waiting →
    Unvisited start (s.goTo .checking)

/-- These states, too, are among those that can be reached. -/
theorem Unvisited.reachable (hs : start.Unvisited s) : start.ReachableWithSignals s := by
  induction hs with
  | refl => exact .refl
  | step _ hstep _ ih => exact ih.step hstep
  | interrupt _ hstage ih => exact ih.interrupt hstage

/-- Whoever is left behind stays so, by induction on the steps. -/
theorem LeftBehind.unvisited (h : s.LeftBehind) (hs : s.Receptive) (ht : s.Unvisited t)
    (hloop : t.stage.isLooping = true) : t.LeftBehind ∧ t.backlog = s.backlog := by
  induction ht with
  | refl => exact ⟨h, rfl⟩
  | step hu hstep ha ih =>
    obtain ⟨hleft, hsame⟩ := ih (looping_perform hstep hloop)
    obtain ⟨hleft', hsame'⟩ := hleft.step (hs.reachable hu.reachable) hstep ha hloop
    exact ⟨hleft', hsame'.trans hsame⟩
  | interrupt _ hstage ih =>
    obtain ⟨hleft, hsame⟩ := ih (by rw [hstage]; rfl)
    refine ⟨⟨rfl, hleft.waiting, ?_⟩, hsame⟩
    rintro (hpending | hheeding)
    · exact hleft.unheeded (.inl hpending)
    · cases hheeding

/-- To give up leaves whoever waits behind, unless the listener has another event. -/
theorem GivesUp.leftBehind (hg : GivesUp a s) (hstep : s.perform? a = some t)
    (hpending : s.listener ∉ s.hub.kernel.poll.pending)
    (hevents : ∀ e ∈ s.stage.events, e.token ≠ listenerToken) :
    t.LeftBehind ∧ t.backlog = s.backlog := by
  obtain ⟨choice, rfl⟩ := hg.turn
  obtain ⟨rest, hstage⟩ := hg.accepting
  obtain ⟨hspares, hstage'⟩ := spares_unaccepted hg.failed choice rest
  obtain rfl := eq_afterTask hstage (by rintro ⟨⟩) hstep
  refine ⟨⟨?_, ?_, ?_⟩, hspares.backlog⟩
  · rw [hstage']
    rfl
  · rw [hspares.backlog]
    exact hg.waiting
  · rintro (hlooked | hheeding)
    · exact hpending (hspares.mem_pending.mp hlooked)
    · rw [hstage'] at hheeding
      rcases Stage.isHeeding_batch.mp hheeding with haccepting | ⟨e, he, htoken⟩
      · cases haccepting
      · exact hevents e (by rw [hstage]; exact he) htoken

/-- **Whoever is left behind stays behind** until somebody else connects: whatever the loop and the
workers do, and whatever other clients send, nobody is accepted, and the listener has no event. -/
theorem left_behind_until_connect {k : Kernel} {listener : Int} {l : Listener} {config : Config}
    (hstart : ofListener k listener config = .ok start) (hk : k.Honest)
    (hl : k.descriptors.get? listener = some (.listener l)) (hs : start.ReachableWithSignals s)
    (h : s.LeftBehind) (ht : s.Unvisited t) (hloop : t.stage.isLooping = true) :
    t.LeftBehind ∧ t.backlog = s.backlog :=
  h.unvisited ((receptive_ofListener hstart hk hl).reachable hs) ht hloop

/-- A client that cannot be accepted once waits for another to come, however long the server
runs. -/
theorem client_left_behind : ∃ start, ofListener failing 3 smallest = .ok start ∧ failing.Honest ∧
    Reachable start (start.after firstClient) ∧ (start.after firstClient).stage = .waiting ∧
    (start.after firstClient).backlog = [0] ∧ ¬ (start.after firstClient).HasListenerEvent ∧
    ∀ t, (start.after firstClient).Unvisited t → t.stage.isLooping = true →
      t.LeftBehind ∧ t.backlog = [0] := by
  have hk : failing.Honest := fun fault hfault => absurd hfault List.not_mem_nil
  have hstate : ∀ start, ofListener failing 3 smallest = .ok start →
      (start.after firstClient).stage = .waiting ∧ (start.after firstClient).backlog = [0] ∧
        (start.after firstClient).listener ∉ (start.after firstClient).hub.kernel.poll.pending := by
    rintro _ ⟨⟩
    exact ⟨rfl, by decide +kernel, by decide +kernel⟩
  obtain ⟨start, hstart⟩ : ∃ start, ofListener failing 3 smallest = .ok start := ⟨_, rfl⟩
  obtain ⟨hstage, hbacklog, hpending⟩ := hstate start hstart
  have hs : Reachable start (start.after firstClient) := Reachable.refl.after firstClient
  have hleft : (start.after firstClient).LeftBehind := by
    refine ⟨by rw [hstage]; rfl, by rw [hbacklog]; exact List.cons_ne_nil 0 [], ?_⟩
    rintro (hlooked | hheeding)
    · exact hpending hlooked
    · rw [hstage] at hheeding
      cases hheeding
  refine ⟨start, hstart, hk, hs, hstage, hbacklog, fun hevent => hpending hevent.pending,
    fun t ht hloop => ?_⟩
  rw [← hbacklog]
  exact left_behind_until_connect hstart hk rfl hs.withSignals hleft ht hloop

end FileServer.Server
