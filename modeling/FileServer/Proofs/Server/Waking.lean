import FileServer.Proofs.Server.Stages
import FileServer.Proofs.Server.Unnoticed

/-!
# A request to stop is never lost

A request to stop sets the flag and then writes to the wake-up pipe, in two steps, between which the
loop and everybody else may take theirs. However they interleave, a loop that waits when a request
is through has a wake-up event to fetch, and once it has fetched one it does not wait again
(`Server.stop_never_lost`).

The invariant is `Server.Alert`. As long as the flag is not set the pipe is empty. The loop looks at
the flag before each wait, so at that moment nothing is in the pipe; a byte that comes after it is a
change that the poll set reports, and the loop takes nothing out of the pipe before it has fetched
events. A wake-up event comes from the pipe alone, so it means that the flag is set, and the flag
stays set.

The steps are told apart by what they do to the pipe: those of workers and clients pass it by
(`Kernel.Bypasses`), the loop may read from it or fetch its event, and only a request to stop writes
to it. That a loop which has fetched the event leaves before it waits again is a second invariant
(`Server.Parting`), which holds from the fetch on.
-/

namespace FileServer.Server

variable {s t start : Server} {a : Action} {choice n : Nat} {p : Pipe} {rest : List Event}

/-! ## The invariant

What ties the flag, the bytes in the pipe, and the list of what is to be looked at together, while
the loop may still wait. -/

/-- The wake-up pipe and the requests to stop, as long as the loop may still wait. The last two
fields are what keeps a request from being lost; the others are what they rest on. -/
structure Alert (s : Server) (n : Nat) (p : Pipe) : Prop where
  joined : s.hub.kernel.Joined s.wakerOut s.wakerIn n p
  /-- before the flag is set nobody has written to the pipe -/
  unset : s.stop.flag = false → s.stop.underWay = 0 ∧ s.stop.done = 0 ∧ p.held = 0
  /-- no other descriptor is registered as the wake-up pipe's is -/
  sole : s.stage ≠ .ready → ∀ d g, s.hub.kernel.poll.registrations.get? d = some g →
    g.oneShot = false → g.token = wakerToken → d = s.wakerOut
  registered : s.stage.isRound = true →
    s.hub.kernel.poll.registrations.get? s.wakerOut = some (Server.standing wakerToken)
  /-- a loop that is about to wait, or waits, has a byte in the pipe reported to it -/
  heard : s.stage.isWait = true → 0 < p.held → s.wakerOut ∈ s.hub.kernel.poll.pending
  /-- and there is a byte when a request is through -/
  held : s.stage.isWait = true → 0 < s.stop.done → 0 < p.held

namespace Alert

/-- Where the loop is not about to wait, the pipe may hold anything. -/
theorem of_not_wait (hjoined : s.hub.kernel.Joined s.wakerOut s.wakerIn n p)
    (hunset : s.stop.flag = false → s.stop.underWay = 0 ∧ s.stop.done = 0 ∧ p.held = 0)
    (hsole : s.stage ≠ .ready → ∀ d g, s.hub.kernel.poll.registrations.get? d = some g →
      g.oneShot = false → g.token = wakerToken → d = s.wakerOut)
    (hregistered : s.stage.isRound = true →
      s.hub.kernel.poll.registrations.get? s.wakerOut = some (Server.standing wakerToken))
    (hnot : s.stage.isWait = false) : s.Alert n p := by
  have hnever : s.stage.isWait ≠ true := by
    rw [hnot]
    exact Bool.false_ne_true
  exact ⟨hjoined, hunset, hsole, hregistered, fun hwait => absurd hwait hnever,
    fun hwait => absurd hwait hnever⟩

/-- A step that the pipe does not notice. If it leads to a wait, then from one, or the loop has
just seen that the flag is not set, and then nothing is in the pipe. -/
theorem bypass (hs : s.Alert n p) (h : s.Bypasses t) (hready : t.stage ≠ .ready → s.stage ≠ .ready)
    (hround : t.stage.isRound = true → s.stage.isRound = true)
    (hwait : t.stage.isWait = true → s.stage.isWait = true ∨ s.stop.flag = false) :
    t.Alert n p := by
  obtain ⟨hout, hinto, hstop, hk⟩ := h
  refine ⟨?_, ?_, fun hnot d g hg hshot htoken => ?_, fun ht => ?_, fun ht hheld => ?_,
    fun ht hdone => ?_⟩
  · rw [hout, hinto]
    exact hs.joined.bypass hk
  · rw [hstop]
    exact hs.unset
  · rw [hout]
    exact hs.sole (hready hnot) d g (hk.standing d g hg hshot) hshot htoken
  · rw [hout, hk.registration _ hs.joined.isPipe_out]
    exact hs.registered (hround ht)
  · rcases hwait ht with hwait | hflag
    · rw [hout]
      exact hk.pending _ hs.joined.isPipe_out (hs.heard hwait hheld)
    · obtain ⟨-, -, hempty⟩ := hs.unset hflag
      exact absurd hheld (by rw [hempty]; exact Nat.lt_irrefl 0)
  · rw [hstop] at hdone
    rcases hwait ht with hwait | hflag
    · exact hs.held hwait hdone
    · obtain ⟨-, hnone, -⟩ := hs.unset hflag
      exact absurd hdone (by rw [hnone]; exact Nat.lt_irrefl 0)

/-- A step that the pipe does not notice, and that does not lead to a wait. -/
theorem moveOn (hs : s.Alert n p) (h : s.Bypasses t) (hready : s.stage ≠ .ready)
    (hround : t.stage.isRound = true → s.stage.isRound = true) (hnot : t.stage.isWait = false) :
    t.Alert n p :=
  hs.bypass h (fun _ => hready) hround fun hwait =>
    absurd hwait (by rw [hnot]; exact Bool.false_ne_true)

/-- A step that the pipe does not notice, at the same stage. -/
theorem stay (hs : s.Alert n p) (h : s.Bypasses t) (hstage : t.stage = s.stage) : t.Alert n p :=
  hs.bypass h (fun hnot => hstage ▸ hnot) (fun ht => hstage ▸ ht) fun ht => .inl (hstage ▸ ht)

/-- A request to stop sets the flag. -/
theorem requestStop (hs : s.Alert n p) : s.requestStop.Alert n p :=
  { hs with unset := by rintro ⟨⟩ }

/-- A request to stop writes to the pipe. -/
theorem wake (hs : s.Alert n p) {underWay : Nat} (hunderWay : s.stop.underWay = underWay + 1) :
    ∃ held, Server.Alert
      { s.withKernel (s.hub.kernel.wake s.wakerIn) with
        stop := { s.stop with underWay, done := s.stop.done + 1 } } n { p with held } := by
  obtain ⟨held, hle, hpos, hjoined, hpending⟩ := hs.joined.wake
  have hquiet := Kernel.quiet_wake s.hub.kernel s.wakerIn
  refine ⟨held, hjoined, fun hflag => ?_, fun hready d g hg => ?_, fun hround => ?_,
    fun hwait _ => ?_, fun _ _ => hpos⟩
  · -- it has set the flag before
    obtain ⟨hnone, -⟩ := hs.unset hflag
    rw [hnone] at hunderWay
    cases hunderWay
  · refine hs.sole hready d g ?_
    rw [← hquiet.registrations]
    exact hg
  · have hregistered := hs.registered hround
    rw [← hquiet.registrations] at hregistered
    exact hregistered
  · have hregistered := hs.registered (Stage.isRound_of_isWait hwait)
    exact hpending _ hregistered rfl rfl (hs.heard hwait)

/-- The server starts to serve, with a poll set in which nothing is registered. -/
theorem serve (hs : s.Alert n p) (hloop : s.serve.stage.isLooping = true) : s.serve.Alert n p := by
  have hjoined := hs.joined.createPoll
  rcases Kernel.createPoll_cases s.hub.kernel with ⟨reason, k, heq, -⟩ | ⟨k, heq, hpoll, -⟩
  · simp only [Server.serve, heq, stage_leave] at hloop
    cases hloop
  · rw [heq] at hjoined
    simp only [Server.serve, heq] at hloop ⊢
    split
    · refine .of_not_wait hjoined hs.unset (fun _ d g hg => ?_) (by rintro ⟨⟩) rfl
      dsimp only [withKernel] at hg
      rw [hpoll] at hg
      cases hg
    · next hmemory =>
      rw [if_neg hmemory, stage_leave] at hloop
      cases hloop

/-- The loop takes bytes out of the pipe, or none. -/
theorem drain (hs : s.Alert n p) (hstage : s.stage = .batch rest .drain) (choice : Nat) :
    ∃ held, held ≤ p.held ∧ (s.afterTask choice rest .drain).Alert n { p with held } := by
  obtain ⟨held, hle, hjoined⟩ := hs.joined.pipeRead Kernel.drainStep
  have hquiet := Kernel.quiet_pipeRead s.hub.kernel s.wakerOut Kernel.drainStep
  rcases hread : s.hub.kernel.pipeRead s.wakerOut Kernel.drainStep with ⟨result, k⟩
  rw [hread] at hjoined hquiet
  have halert : ∀ task, (s.afterKernel k rest task).Alert n { p with held } := by
    intro task
    refine .of_not_wait hjoined (fun hflag => ?_) (fun _ d g hg => ?_) (fun _ => ?_) rfl
    · obtain ⟨hnone, hdone, hempty⟩ := hs.unset hflag
      exact ⟨hnone, hdone, Nat.eq_zero_of_le_zero (hempty ▸ hle)⟩
    · refine hs.sole (by rw [hstage]; rintro ⟨⟩) d g ?_
      rw [← hquiet.registrations]
      exact hg
    · have hregistered := hs.registered (by rw [hstage]; rfl)
      rw [← hquiet.registrations] at hregistered
      exact hregistered
  refine ⟨held, hle, ?_⟩
  simp only [afterTask, doTask, hread]
  rcases result with ⟨_ | ⟨b, bytes⟩⟩ | _ | reason
  · exact halert .next
  · exact halert .drain
  · exact halert .next
  · exact halert .next

/-- The loop fetches events. -/
theorem fetch (hs : s.Alert n p) (hstage : s.stage = .waiting) : s.fetch.Alert n p := by
  have hfetched := s.hub.kernel.fetched_collect s.config.maxEvents
  refine .of_not_wait (hs.joined.of_poll _) hs.unset (fun _ d g hg hshot htoken => ?_)
    (fun _ => ?_) rfl
  · have hbefore := (hfetched.standing d g hshot).mp hg
    exact hs.sole (by rw [hstage]; rintro ⟨⟩) d g hbefore hshot htoken
  · exact (hfetched.standing _ _ rfl).mpr (hs.registered (by rw [hstage]; rfl))

/-- A wake-up event that is fetched means that the flag is set: it comes from the pipe, in which
there is a byte then, and nobody writes one before the flag is set. -/
theorem flag_of_fetched (hs : s.Alert n p) (htidy : s.hub.kernel.Tidy) (hstage : s.stage = .waiting)
    {e : Event} (he : e ∈ (s.hub.kernel.collect s.config.maxEvents).1)
    (htoken : e.token = wakerToken) : s.stop.flag = true := by
  obtain ⟨d, g, hg, hsame, hready⟩ := (s.hub.kernel.fetched_collect s.config.maxEvents).source e he
  have hnames := htidy.names d g hg
  have hshot : g.oneShot = false := by
    cases hshot : g.oneShot with
    | false => rfl
    | true =>
      have howner := hnames.oneShot hshot
      rw [hsame, htoken] at howner
      cases howner
  obtain rfl := hs.sole (by rw [hstage]; rintro ⟨⟩) d g hg hshot (hsame.trans htoken)
  cases hflag : s.stop.flag with
  | true => rfl
  | false =>
    obtain ⟨-, -, hempty⟩ := hs.unset hflag
    rw [hs.joined.readiness, hempty] at hready
    cases hready

/-- A descriptor is added to the poll set, or the loop is left. -/
theorem addStanding (hs : s.Alert n p) (hready : s.stage ≠ .ready) (honest : s.hub.kernel.Honest)
    {d : Int} {token : UInt64} {after : Stage} (hsole : token = wakerToken → d = s.wakerOut)
    (hround : after.isRound = true → d = s.wakerOut ∧ token = wakerToken)
    (hwait : after.isWait = false) (hloop : (s.addStanding d token after).stage.isLooping = true) :
    (s.addStanding d token after).Alert n p := by
  rcases Kernel.pollAdd_cases honest d (Server.standing token) with
    ⟨reason, k, heq, -⟩ | ⟨k, heq, hregisters, -⟩
  · simp only [Server.addStanding, heq] at hloop
    cases hloop
  · simp only [Server.addStanding, heq]
    refine .of_not_wait ?_ hs.unset (fun _ e g hg hshot htoken => ?_) (fun hafter => ?_) hwait
    · have hjoined := hs.joined.pollAdd d (Server.standing token)
      rw [heq] at hjoined
      exact hjoined
    · dsimp only [goTo, withKernel] at hg
      rw [hregisters.registrations] at hg
      by_cases hed : e = d
      · rw [hed, DescriptorMap.get?_set_self] at hg
        obtain rfl := Option.some.inj hg
        exact hed.trans (hsole htoken)
      · rw [DescriptorMap.get?_set_ne _ _ hed] at hg
        exact hs.sole hready e g hg hshot htoken
    · obtain ⟨rfl, rfl⟩ := hround hafter
      exact hregisters.self

/-- The loop takes a step and may still wait after it. The cases are those of its steps; the one
that matters looks at the flag, finds it not set, and goes on to wait with an empty pipe. -/
theorem loop (hs : s.Alert n p) (horderly : s.Orderly) (hstep : s.loopStep choice = some t)
    (hloop : t.stage.isLooping = true) :
    ∃ held, held ≤ p.held ∧ t.Alert n { p with held } := by
  have hsame : ∀ {t : Server}, t.Alert n p → ∃ held, held ≤ p.held ∧ t.Alert n { p with held } :=
    fun h => ⟨p.held, Nat.le_refl _, h⟩
  have hready : s.stage ≠ .ready := fun hready => by
    simp only [loopStep, hready] at hstep
    cases hstep
  have hlooping := (loopStep_leads hstep).1.isLooping hloop
  cases loopStep_cases hstep with
  | spawned => exact hsame (hs.moveOn ⟨rfl, rfl, rfl, .refl _⟩ hready (by rintro ⟨⟩) rfl)
  | spawn =>
    have htake : s.hub.kernel.Bypasses (s.hub.kernel.takeFault .spawnThread).2 :=
      .of_same rfl rfl rfl
    simp only [spawnWorker] at hloop ⊢
    split at hloop
    · cases hloop
    · next heq =>
      rw [heq] at htake
      exact hsame (hs.moveOn ⟨rfl, rfl, rfl, htake⟩ hready (by rintro ⟨⟩) rfl)
  | addListener =>
    exact hsame (hs.addStanding hready horderly.tidy.honest (by rintro ⟨⟩) (by rintro ⟨⟩) rfl hloop)
  | addWaker =>
    exact hsame (hs.addStanding hready horderly.tidy.honest (fun _ => rfl) (fun _ => ⟨rfl, rfl⟩) rfl
      hloop)
  | check hstage =>
    cases hflag : s.stop.flag with
    | true =>
      rw [hflag] at hloop
      cases hloop
    | false =>
      exact hsame (hs.bypass ⟨rfl, rfl, rfl, .refl _⟩ (fun _ => hready)
        (fun _ => by rw [hstage]; rfl) fun _ => .inr hflag)
  | poll hstage =>
    have hbegin := Kernel.bypasses_beginWait s.hub.kernel s.config.maxEvents
    simp only [beginWait] at hloop ⊢
    split at hloop
    · next heq =>
      rw [heq] at hbegin
      exact hsame (hs.bypass ⟨rfl, rfl, rfl, hbegin⟩ (fun _ => hready)
        (fun _ => by rw [hstage]; rfl) fun _ => .inl (by rw [hstage]; rfl))
    · next heq =>
      rw [heq] at hbegin
      exact hsame (hs.moveOn ⟨rfl, rfl, rfl, hbegin⟩ hready (fun _ => by rw [hstage]; rfl) rfl)
    · cases hloop
  | fetch hstage => exact hsame (hs.fetch hstage)
  | done hstage =>
    exact hsame (hs.moveOn ⟨rfl, rfl, rfl, .refl _⟩ hready (fun _ => by rw [hstage]; rfl) rfl)
  | look hstage =>
    exact hsame (hs.moveOn ⟨rfl, rfl, rfl, .refl _⟩ hready (fun _ => by rw [hstage]; rfl) rfl)
  | @work rest task hstage hnext _ =>
    by_cases hdrain : task = .drain
    · subst hdrain
      exact hs.drain hstage choice
    · exact hsame (hs.moveOn (horderly.bypasses_task hstage hdrain choice) hready
        (fun _ => by rw [hstage]; rfl) rfl)
  | _ hstage =>
    -- the loop has been left
    rw [hstage] at hlooping
    cases hlooping

/-- Every step after which the loop may still wait. Only a request to stop puts anything into the
pipe. -/
theorem step (hs : s.Alert n p) (hc : s.Coherent) (hstep : s.perform? a = some t)
    (hlooping : s.stage.isLooping = true) (hloop : t.stage.isLooping = true) :
    ∃ held, (a ≠ .wake → held ≤ p.held) ∧ t.Alert n { p with held } := by
  have hserving := Stage.isServing_of_isLooping hlooping
  have hsame : t.Alert n p → ∃ held, (a ≠ .wake → held ≤ p.held) ∧ t.Alert n { p with held } :=
    fun h => ⟨p.held, fun _ => Nat.le_refl _, h⟩
  cases perform?_cases hstep with
  | serve => exact hsame (hs.serve hloop)
  | drop =>
    rw [stage_leave] at hloop
    cases hloop
  -- the loop may put the event off or read the pipe; both leave at most what was held
  | loop hround =>
    have hready : s.stage ≠ .ready := fun hready => by
      cases (loopStep_of_ready hready _).symm.trans hround
    obtain ⟨horderly, -⟩ := hc.orderly (hserving hready)
    obtain ⟨held, hle, halert⟩ := hs.loop horderly hround hloop
    exact ⟨held, fun _ => hle, halert⟩
  -- workers have no part in waking: what they touch is beside the pipe
  | worker hworker =>
    by_cases hready : s.stage = .ready
    · cases (workerStep_of_nil (hc.ready hready).workers _).symm.trans hworker
    · obtain ⟨horderly, -⟩ := hc.orderly (hserving hready)
      have hstage := stage_perform hready (by rintro choice ⟨⟩) hstep
      exact hsame (hs.stay (horderly.bypasses_worker hworker) hstage)
  | requestStop => exact hsame hs.requestStop
  -- the one action that may add to what the pipe holds
  | wake hunderWay =>
    obtain ⟨held, halert⟩ := hs.wake hunderWay
    exact ⟨held, fun hne => absurd rfl hne, halert⟩
  | releaseHandle => exact hsame (hs.stay ⟨rfl, rfl, rfl, .refl _⟩ rfl)
  | closeHandle hgone => cases (isGone_of_isLooping hlooping).symm.trans hgone
  | connect => exact hsame (hs.stay ⟨rfl, rfl, rfl, Kernel.bypasses_connect ..⟩ rfl)
  | client m act =>
    have hclient := s.hub.kernel.bypasses_asClient m fun st => ((), act.perform st)
    exact hsame (hs.stay ⟨rfl, rfl, rfl, hclient⟩ rfl)
  | openPipe => exact hsame (hs.stay ⟨rfl, rfl, rfl, .refl _⟩ rfl)

end Alert

/-- A server that has been set up has an empty pipe. -/
theorem alert_ofListener {k : Kernel} {listener : Int} {config : Config}
    (hstart : ofListener k listener config = .ok start) : ∃ n, start.Alert n {} := by
  simp only [ofListener] at hstart
  split at hstart
  · cases hstart
  · split at hstart
    · cases hstart
    · next heq =>
      obtain rfl := Except.ok.inj hstart
      obtain ⟨n, hjoined⟩ := Kernel.joined_createPipe heq
      exact ⟨n, .of_not_wait hjoined (fun _ => ⟨rfl, rfl, rfl⟩) (fun hready => absurd rfl hready)
        (by rintro ⟨⟩) rfl⟩

/-! ## Runs

The invariant along a run in which signals may cut a wait short. -/

/-- The states that a server can reach when signals may cut its waits short. -/
inductive ReachableWithSignals (start : Server) : Server → Prop
  | refl : ReachableWithSignals start start
  | step {s t : Server} {a : Action} : ReachableWithSignals start s → s.perform? a = some t →
    ReachableWithSignals start t
  | interrupt {s : Server} : ReachableWithSignals start s → s.stage = .waiting →
    ReachableWithSignals start (s.goTo .checking)

theorem Reachable.withSignals (hs : Reachable start s) : start.ReachableWithSignals s := by
  induction hs with
  | refl => exact .refl
  | step _ hstep ih => exact ih.step hstep

/-- A loop that may still wait could do so before. -/
theorem looping_perform (hstep : s.perform? a = some t) (hloop : t.stage.isLooping = true) :
    s.stage.isLooping = true := by
  by_cases hready : s.stage = .ready
  · rw [hready]
    rfl
  · by_cases ha : ∃ choice, a = .loop choice
    · obtain ⟨choice, rfl⟩ := ha
      exact (loopStep_leads hstep).1.isLooping hloop
    · rw [← stage_perform hready (fun choice h => ha ⟨choice, h⟩) hstep]
      exact hloop

/-- A signal that cuts a wait short leaves all in order. -/
theorem Coherent.interrupt (hs : s.Coherent) (hstage : s.stage = .waiting) :
    (s.goTo .checking).Coherent := by
  have hidle : s.stage.Idle := hstage ▸ ⟨rfl, fun _ => rfl, rfl⟩
  obtain ⟨horderly, -⟩ := hs.orderly (by rw [hstage]; rfl)
  have hstep : Step (.loop 0) s (s.goTo .checking) :=
    horderly.step_goTo hidle ⟨rfl, fun _ => rfl, rfl⟩
  exact .serving rfl (hstep.orderly horderly) (by rintro ⟨⟩)

/-- What holds in every state that can be reached. -/
structure Watchful (s : Server) : Prop where
  coherent : s.Coherent
  alert : s.stage.isLooping = true → ∃ n p, s.Alert n p

namespace Watchful

/-- **Every step keeps the watch**, by the invariant while the loop may wait, and for nothing
after that. -/
theorem step (hs : s.Watchful) (hstep : s.perform? a = some t) : t.Watchful := by
  refine ⟨hs.coherent.step hstep, fun hloop => ?_⟩
  have hlooping := looping_perform hstep hloop
  obtain ⟨n, p, halert⟩ := hs.alert hlooping
  obtain ⟨held, -, halert'⟩ := halert.step hs.coherent hstep hlooping hloop
  exact ⟨n, _, halert'⟩

/-- A signal leads to where the flag is looked at, so the pipe may hold anything. -/
theorem interrupt (hs : s.Watchful) (hstage : s.stage = .waiting) :
    (s.goTo .checking).Watchful := by
  obtain ⟨n, p, halert⟩ := hs.alert (by rw [hstage]; rfl)
  exact ⟨hs.coherent.interrupt hstage, fun _ => ⟨n, p, halert.moveOn ⟨rfl, rfl, rfl, .refl _⟩
    (by rw [hstage]; rintro ⟨⟩) (fun _ => by rw [hstage]; rfl) rfl⟩⟩

/-- The watch is kept in every state that can be reached, by induction on the run. -/
theorem reachable (hstart : start.Watchful) (hs : start.ReachableWithSignals s) : s.Watchful := by
  induction hs with
  | refl => exact hstart
  | step _ hstep ih => exact ih.step hstep
  | interrupt _ hstage ih => exact ih.interrupt hstage

end Watchful

/-! ## No more waits

Once the flag is set and the loop is past its wait, it comes to look at the flag before it could
wait again. -/

/-- The server is out of its loop, or will be before it waits. -/
structure Parting (s : Server) : Prop where
  flag : s.stop.flag = true
  started : s.stage ≠ .ready
  notWaiting : s.stage.isWait = false

namespace Parting

/-- A server that is parting does not come back to a wait: the flag stays set, and where it is
looked at the loop is left. -/
theorem step (hs : s.Parting) (hstep : s.perform? a = some t) : t.Parting := by
  have hflag := flag_perform hs.flag hstep
  by_cases ha : ∃ choice, a = .loop choice
  · obtain ⟨choice, rfl⟩ := ha
    obtain ⟨hleads, -⟩ := loopStep_leads hstep
    rw [hs.flag] at hleads
    obtain ⟨hstarted, hnot⟩ := hleads.notWaiting hs.started hs.notWaiting
    exact ⟨hflag, hstarted, hnot⟩
  · have hstage := stage_perform hs.started (fun choice h => ha ⟨choice, h⟩) hstep
    exact ⟨hflag, hstage ▸ hs.started, hstage ▸ hs.notWaiting⟩

/-- A server that is parting goes on to part in every state that can be reached from there. -/
theorem reachable (hstart : start.Parting) (hs : start.ReachableWithSignals s) : s.Parting := by
  induction hs with
  | refl => exact hstart
  | step _ hstep ih => exact ih.step hstep
  | interrupt _ hstage ih => exact ⟨ih.flag, (by rintro ⟨⟩), rfl⟩

/-- Where the loop would look whether to wait again it stops. -/
theorem stops (hs : s.Parting) (hstage : s.stage = .checking) (choice : Nat) :
    s.loopStep choice = some (s.goTo (.stopping (.ok ()))) := by
  simp only [loopStep, hstage, hs.flag, if_true]

end Parting

/-! ## Stops and waits

A stop that is through has written its byte, so a loop that waits has the wake-up event to fetch,
and once it has fetched it the loop is left. -/

/-- A wake-up event is there to be fetched. -/
structure HasWakeUp (s : Server) : Prop where
  pending : s.wakerOut ∈ s.hub.kernel.poll.pending
  reported : ∃ g, s.hub.kernel.poll.registrations.get? s.wakerOut = some g ∧ g.token = wakerToken ∧
    (g.report (s.hub.kernel.readiness s.wakerOut)).any = true

/-- A wait ends when there is a wake-up event. -/
theorem HasWakeUp.hasEvent (hs : s.HasWakeUp) : s.hasEvent = true := by
  obtain ⟨g, hg, -, hany⟩ := hs.reported
  refine List.any_eq_true.mpr ⟨s.wakerOut, hs.pending, ?_⟩
  rw [hg]
  exact hany

/-- What becomes of requests to stop. -/
structure NeverLost (s : Server) : Prop where
  /-- a loop that waits when a request is through has a wake-up event to fetch -/
  pending : s.stage = .waiting → 0 < s.stop.done → s.HasWakeUp
  /-- so it does not wait on -/
  goesOn : s.stage = .waiting → 0 < s.stop.done → ∀ choice, s.loopStep choice = some s.fetch
  /-- once a wake-up event has been fetched the loop waits no more, and stops when it would look
  whether to -/
  leaves : ∀ choice t events, s.stage = .waiting → s.loopStep choice = some t →
    t.stage = .batch events .next → (∃ e ∈ events, e.token = wakerToken) →
    ∀ u, t.ReachableWithSignals u → u.stage ≠ .polling ∧ u.stage ≠ .waiting ∧
      (u.stage = .checking → ∀ choice, u.loopStep choice = some (u.goTo (.stopping (.ok ()))))
  /-- while the loop is under way the wake-up pipe is registered to have every change reported -/
  registered : s.stage.isRound = true →
    s.hub.kernel.poll.registrations.get? s.wakerOut = some (Server.standing wakerToken)
  /-- as long as the loop may wait only a request to stop puts anything into the pipe -/
  written : ∀ a t, s.perform? a = some t → t.stage.isLooping = true →
    s.hub.kernel.held s.wakerOut < t.hub.kernel.held t.wakerOut → a = .wake

/-- In a wait, a request that is through has left a byte in the pipe, and that is reported. -/
theorem Watchful.hasWakeUp (hs : s.Watchful) (hstage : s.stage = .waiting)
    (hdone : 0 < s.stop.done) : s.HasWakeUp := by
  have hwait : s.stage.isWait = true := by rw [hstage]; rfl
  obtain ⟨n, p, halert⟩ := hs.alert (by rw [hstage]; rfl)
  have hheld := halert.held hwait hdone
  have hregistered := halert.registered (Stage.isRound_of_isWait hwait)
  refine ⟨halert.heard hwait hheld, _, hregistered, rfl, ?_⟩
  rw [halert.joined.readiness]
  simp [Registration.report, Readiness.any, standing, hheld]

/-- To fetch a wake-up event is to part. -/
theorem Watchful.parting (hs : s.Watchful) (hstage : s.stage = .waiting) {e : Event}
    (he : e ∈ (s.hub.kernel.collect s.config.maxEvents).1) (htoken : e.token = wakerToken) :
    s.fetch.Parting := by
  obtain ⟨n, p, halert⟩ := hs.alert (by rw [hstage]; rfl)
  obtain ⟨horderly, -⟩ := hs.coherent.orderly (by rw [hstage]; rfl)
  exact ⟨halert.flag_of_fetched horderly.tidy hstage he htoken, (by rintro ⟨⟩), rfl⟩

/-- The clauses of the main theorem, each from the invariant. -/
theorem Watchful.neverLost (hs : s.Watchful) : s.NeverLost where
  pending := hs.hasWakeUp
  goesOn hstage hdone choice := by
    simp only [loopStep, hstage, (hs.hasWakeUp hstage hdone).hasEvent, if_true]
  leaves choice t events hstage hstep hevents htoken u hu := by
    simp only [loopStep, hstage] at hstep
    split at hstep
    · obtain rfl := Option.some.inj hstep
      obtain ⟨hfetched, -⟩ := Stage.batch.inj hevents
      obtain ⟨e, he, htoken⟩ := htoken
      rw [← hfetched] at he
      have hparting := (hs.parting hstage he htoken).reachable hu
      have hnot := hparting.notWaiting
      refine ⟨?_, ?_, hparting.stops⟩
      · intro hpolling
        rw [hpolling] at hnot
        cases hnot
      · intro hwaiting
        rw [hwaiting] at hnot
        cases hnot
    · cases hstep
  registered hround := by
    obtain ⟨n, p, halert⟩ := hs.alert (Stage.isLooping_of_isRound hround)
    exact halert.registered hround
  written a t hstep hloop hmore := by
    have hlooping := looping_perform hstep hloop
    obtain ⟨n, p, halert⟩ := hs.alert hlooping
    obtain ⟨held, hle, halert'⟩ := halert.step hs.coherent hstep hlooping hloop
    rw [halert.joined.held_eq, halert'.joined.held_eq] at hmore
    by_contra ha
    exact Nat.lt_irrefl _ (Nat.lt_of_lt_of_le hmore (hle ha))

/-- A server that has been set up has not been asked to stop. -/
theorem watchful_ofListener {k : Kernel} {listener : Int} {config : Config}
    (hstart : ofListener k listener config = .ok start) (hk : k.Honest) : start.Watchful := by
  refine ⟨coherent_ofListener hstart hk, fun _ => ?_⟩
  obtain ⟨n, halert⟩ := alert_ofListener hstart
  exact ⟨n, _, halert⟩

/-- **A request to stop is never lost.** However requests to stop interleave with everything else
that happens, and whatever calls the kernel lets fail or be interrupted, a loop that waits when a
request is through has a wake-up event to fetch; and once it has fetched one, it does not wait again
before it stops. -/
theorem stop_never_lost {k : Kernel} {listener : Int} {config : Config}
    (hstart : ofListener k listener config = .ok start) (hk : k.Honest)
    (hs : start.ReachableWithSignals s) : s.NeverLost :=
  ((watchful_ofListener hstart hk).reachable hs).neverLost

/-- A server starts, and waits when a stop is requested. -/
def stopWhileWaiting : List Action :=
  [.serve] ++ List.replicate 6 (.loop 0) ++ [.requestStop, .wake]

/-- A loop that has fetched the wake-up event reads the pipe until it is empty, and is through with
the batch. -/
def throughTheBatch : List Action := List.replicate 4 (.loop 0)

/-- The request comes while the loop waits. The loop fetches the event, goes through the batch, and
stops where it would look whether to wait again. -/
theorem stop_never_lost_waiting : ∃ start events,
    ofListener listening 3 smallest = .ok start ∧ listening.Honest ∧
    start.ReachableWithSignals (start.after stopWhileWaiting) ∧
    (start.after stopWhileWaiting).stage = .waiting ∧ (start.after stopWhileWaiting).stop.done = 1 ∧
    (start.after stopWhileWaiting).NeverLost ∧
    (start.after stopWhileWaiting).loopStep 0 = some (start.after stopWhileWaiting).fetch ∧
    (start.after stopWhileWaiting).fetch.stage = .batch events .next ∧
    (∃ e ∈ events, e.token = wakerToken) ∧
    ((start.after stopWhileWaiting).fetch.after throughTheBatch).stage = .checking ∧
    ((start.after stopWhileWaiting).fetch.after throughTheBatch).loopStep 0 =
      some (((start.after stopWhileWaiting).fetch.after throughTheBatch).goTo
        (.stopping (.ok ()))) := by
  have hstart : ofListener listening 3 smallest = .ok _ := rfl
  have hk : listening.Honest := fun fault hfault => absurd hfault List.not_mem_nil
  have hs : ∀ (start : Server) actions, ReachableWithSignals start (start.after actions) :=
    fun _ actions => (Reachable.refl.after actions).withSignals
  have hnever := stop_never_lost hstart hk (hs _ stopWhileWaiting)
  have hfetch := hnever.goesOn rfl Nat.one_pos 0
  have hwakes : ∃ e ∈ [(⟨wakerToken, { input := true }⟩ : Event)], e.token = wakerToken :=
    ⟨_, List.mem_cons_self, rfl⟩
  have hchecking : ∀ start, ofListener listening 3 smallest = .ok start →
      ((start.after stopWhileWaiting).fetch.after throughTheBatch).stage = .checking := by
    intro start h
    obtain rfl := Except.ok.inj (hstart.symm.trans h)
    exact Stage.eq_checking (by decide +kernel) (by decide +kernel) (by decide +kernel)
  -- whatever is reached from the batch on does not wait
  obtain ⟨-, -, hstops⟩ := hnever.leaves 0 _ _ rfl hfetch rfl hwakes _ (hs _ throughTheBatch)
  exact ⟨_, _, hstart, hk, hs _ _, rfl, rfl, hnever, hfetch, rfl, hwakes, hchecking _ hstart,
    hstops (hchecking _ hstart) 0⟩

end FileServer.Server
