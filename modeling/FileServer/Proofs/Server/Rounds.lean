import FileServer.Proofs.Server.LoopSteps

/-!
# The rounds of the loop

Between two batches of events the loop has no connection's handle: it starts workers, fills the poll
set, looks whether to stop, waits, or waits for the workers to finish. All that can happen to a
connection then is that an event of it is fetched, which takes it out of the poll set and into the
batch.

The stages between batches have no handle (`Server.Stage.Idle`), so a step between two of them that
is quiet in the kernel is about no connection (`Server.Orderly.step_pause`). To fetch is the
exception (`Server.Orderly.step_fetch`). `Server.LoopStep` lists the steps that the loop can take at
all, by stage and with what has to be the case for each; that these are all of them
(`Server.loopStep_cases`) is used by every proof that follows the loop.
-/

namespace FileServer

/-- The loop has no handle. -/
structure Stage.Idle (stage : Stage) : Prop where
  events : stage.events = []
  task : ∀ h, (stage.task?.filter fun task => task.handle? = some h) = none
  candidate : stage.candidate? = none

/-- Whether a server is yet to open the first connection. -/
def Stage.isEarly : Stage → Bool
  | .spawning _ | .addListener | .addWaker => true
  | _ => false

/-- Whether a server serves. -/
def Stage.isServing : Stage → Bool
  | .ready | .closing .. | .leaving _ | .over _ | .dropped => false
  | _ => true

namespace Server

variable {s t : Server} {a : Action} {choice : Nat} {rest : List Event} {task : Task}

/-! ## Between batches

The loop has no handle, so nothing changes place. -/

/-- A step between batches that is about no connection. -/
theorem Step.of_idle (hidle : s.stage.Idle) (hidle' : t.stage.Idle)
    (hlistener : t.listener = s.listener) (hroot : t.hub.root = s.hub.root)
    (hqueue : t.pool.queue = s.pool.queue) (hrunning : t.pool.running = s.pool.running)
    (hconnection : ∀ h, t.hub.connection? h = s.hub.connection? h)
    (harmed : ∀ h, t.hub.kernel.poll.registrations.armed h =
      s.hub.kernel.poll.registrations.armed h)
    (hregistration : ∀ h τ c, s.Standing h τ c →
      t.hub.kernel.poll.registrations.get? h.descriptor =
        s.hub.kernel.poll.registrations.get? h.descriptor)
    (hev : s.hub.kernel.Evolves t.hub.kernel) (htidy : t.hub.kernel.Tidy)
    (hbeside : Beside a s t fun _ => True) : Step a s t := by
  have hplaces : ∀ h, t.places h = s.places h := by
    intro h
    rw [places, places, harmed, hidle.events, hidle'.events, hidle.task, hidle'.task, hqueue,
      Pool.jobsFor, Pool.jobsFor, hrunning]
  refine .of_none ⟨hlistener, hroot, hbeside.mono fun _ _ => trivial, fun h _ => hconnection h,
    fun h _ => hplaces h, fun h τ c _ => hregistration h τ c⟩ hev htidy ?_ ?_
  · intro d hd
    rw [hidle'.candidate] at hd
    cases hd
  · intro e he
    rw [hidle'.events] at he
    cases he

/-- A step between batches that does something quiet with the kernel, and nothing that counts with
the pool. -/
theorem Orderly.step_pause (hs : s.Orderly) (hidle : s.stage.Idle) {k : Kernel}
    (hk : s.hub.kernel.Quiet k) (pool : Pool Handle Job) (hqueue : pool.queue = s.pool.queue)
    (hrunning : pool.running = s.pool.running) (stage : Stage) (hidle' : stage.Idle) :
    Step (.loop choice) s { s.withKernel k with pool, stage } :=
  .of_idle hidle hidle' rfl rfl hqueue hrunning (fun _ => rfl)
    (fun h => congrArg (DescriptorMap.armed · h) hk.registrations)
    (fun h _ _ _ => (hk.leaves h.descriptor).registration) hk.evolves (hs.tidy.quiet hk)
    (.of_keeps (fun n => upon_loop choice n) fun d _ => (hk.leaves d).toKeeps)

/-- A step between batches in which nothing but the stage changes. -/
theorem Orderly.step_goTo (hs : s.Orderly) (hidle : s.stage.Idle) {stage : Stage}
    (hidle' : stage.Idle) : Step (.loop choice) s (s.goTo stage) :=
  hs.step_pause hidle (.refl _) s.pool rfl rfl stage hidle'

theorem idle_stopping (result : Except ServerError Unit) : (Stage.stopping result).Idle :=
  ⟨rfl, fun _ => rfl, rfl⟩

/-! ## Setting out

What a server does before it waits for the first time, when nothing is open. -/

theorem running_spawn (p : Pool Handle Job) : p.spawn.running = p.running := by
  simp [Pool.running, Pool.spawn, List.filterMap_append]

/-- Starting a worker is about no connection; where it cannot be started the loop is left. -/
theorem Orderly.step_spawn (hs : s.Orderly) {left : Nat} (hstage : s.stage = .spawning (left + 1)) :
    Step (.loop choice) s (s.spawnWorker left) := by
  have hidle : s.stage.Idle := hstage ▸ ⟨rfl, fun _ => rfl, rfl⟩
  have hquiet := Kernel.quiet_takeFault s.hub.kernel .spawnThread
  rcases htake : s.hub.kernel.takeFault .spawnThread with ⟨fault, k⟩
  rw [htake] at hquiet
  have hspawned : Step (.loop choice) s
      { s.withKernel k with pool := s.pool.spawn, stage := .spawning left } :=
    hs.step_pause hidle hquiet s.pool.spawn rfl (running_spawn s.pool) (.spawning left)
      ⟨rfl, fun _ => rfl, rfl⟩
  simp only [spawnWorker, htake]
  rcases fault with _ | ⟨bytes⟩ | reason
  · exact hspawned
  · exact hspawned
  · exact hs.step_pause hidle hquiet s.pool rfl rfl _ (idle_stopping _)

/-- The listener and the wake-up pipe are no connection's, as long as there is none. -/
theorem Orderly.step_standing (hs : s.Orderly) (hvacant : ∀ h, s.Vacant h) (hidle : s.stage.Idle)
    (d : Int) {token : UInt64} (htoken : token = listenerToken ∨ token = wakerToken) {after : Stage}
    (hidle' : after.Idle) : Step (.loop choice) s (s.addStanding d token after) := by
  rcases Kernel.pollAdd_cases hs.tidy.honest d (Server.standing token) with
    ⟨reason, k, heq, hquiet, -⟩ | ⟨k, heq, hregisters, hisOpen⟩
  · simp only [addStanding, heq]
    exact hs.step_pause hidle hquiet s.pool rfl rfl _ (idle_stopping _)
  · have hadded : s.addStanding d token after = (s.withKernel k).goTo after := by
      simp only [addStanding, heq]
    -- the new registration is armed for nobody's sake
    have harmed : ∀ h, k.poll.registrations.armed h = s.hub.kernel.poll.registrations.armed h := by
      intro h
      have hnone : s.hub.kernel.poll.registrations.armed h = none :=
        congrArg Places.armed (hvacant h).places
      by_cases hd : h.descriptor = d
      · rw [hregisters.registrations, ← hd, DescriptorMap.armed_set_self, hnone]
        rfl
      · rw [hregisters.registrations, DescriptorMap.armed_set_ne _ _ hd]
    have htidy : k.Tidy := by
      refine ⟨hregisters.evolves.honest hs.tidy.honest, fun e g he => ?_, fun e g he => ?_⟩
      · by_cases hed : e = d
        · rw [hregisters.descriptors, hed]
          exact hisOpen
        · rw [(hregisters.leaves hed).registration] at he
          rw [hregisters.descriptors]
          exact hs.tidy.isOpen e g he
      · by_cases hed : e = d
        · rw [hed, hregisters.self] at he
          exact Option.some.inj he ▸ standing_names htoken e
        · rw [(hregisters.leaves hed).registration] at he
          exact hs.tidy.names e g he
    rw [hadded]
    refine .of_idle hidle hidle' rfl rfl rfl rfl (fun _ => rfl) harmed (fun h τ c hstanding => ?_)
      hregisters.evolves htidy
      (.of_keeps (fun n => upon_loop choice n) fun d _ => hregisters.keeps d)
    exact absurd (hvacant h) hstanding.not_vacant

/-! ## Waiting

The wait itself changes nothing; it is the fetch behind it that moves connections into the batch. -/

/-- To begin to wait is about no connection, whether the wait comes to be or fails. -/
theorem Orderly.step_beginWait (hs : s.Orderly) (hidle : s.stage.Idle) :
    Step (.loop choice) s s.beginWait := by
  have hquiet := Kernel.quiet_beginWait s.hub.kernel s.config.maxEvents
  rcases hbegin : s.hub.kernel.beginWait s.config.maxEvents with ⟨start, k⟩
  rw [hbegin] at hquiet
  simp only [beginWait, hbegin]
  cases start with
  | waits => exact hs.step_pause hidle hquiet s.pool rfl rfl _ ⟨rfl, fun _ => rfl, rfl⟩
  | empty => exact hs.step_pause hidle hquiet s.pool rfl rfl _ ⟨rfl, fun _ => rfl, rfl⟩
  | failed reason => exact hs.step_pause hidle hquiet s.pool rfl rfl _ (idle_stopping _)

/-- **What becomes of the connections when events are fetched**: each that has one passes from the
poll set to the batch, and the others stay where they are. -/
theorem Orderly.step_fetch (hs : s.Orderly) (hidle : s.stage.Idle) :
    Step (.loop choice) s s.fetch := by
  have hcollected := collected_collectFrom s.hub.kernel.readiness s.hub.kernel.poll.pending
    s.config.maxEvents s.hub.kernel.poll.registrations hs.tidy.names
  rcases hcollect : Poll.collectFrom s.hub.kernel.readiness s.hub.kernel.poll.pending
    s.config.maxEvents s.hub.kernel.poll.registrations with ⟨events, p⟩
  rw [hcollect] at hcollected
  have hfetch : s.fetch =
      (s.withKernel { s.hub.kernel with poll := p }).goTo (.batch events .next) := by
    simp only [fetch, Kernel.collect, Poll.collect, hcollect]
  rw [hfetch]
  have hkeeps := s.hub.kernel.keeps_poll p
  have hisOpen : ∀ d g, p.registrations.get? d = some g →
      (s.hub.kernel.descriptors.get? d).isSome := by
    intro d g hg
    have hsome := hcollected.registered d
    rw [hg] at hsome
    obtain ⟨g', hg'⟩ := Option.isSome_iff_exists.mp hsome.symm
    exact hs.tidy.isOpen d g' hg'
  have hplaces : ∀ h,
    ((s.withKernel { s.hub.kernel with poll := p }).goTo (.batch events .next)).places h =
      { s.places h with armed := p.registrations.armed h, events := eventsFor events h } := by
    intro h
    rw [places, places, hidle.task]
    rfl
  -- the batch before is used up, so every event of this one is new
  have hno : ∀ h, (s.places h).events = [] := by
    intro h
    rw [places, hidle.events]
    rfl
  refine ⟨rfl, rfl, .of_keeps (fun n => upon_loop choice n) fun d _ => hkeeps d,
    s.hub.kernel.evolves_poll p, ⟨hs.tidy.honest, hisOpen, hcollected.names⟩, fun h hv => ?_,
    fun h τ c hstanding => ?_, by rintro d ⟨⟩, hcollected.any⟩
  -- no event names a vacant slot, as nothing was registered for it
  · refine .inl ⟨hv.connection, ?_⟩
    have hnone : s.hub.kernel.poll.registrations.armed h = none :=
      congrArg Places.armed hv.places
    rcases hcollected.places h with ⟨harmed, hevents⟩ | ⟨interest, hsome, -⟩
    · rw [hplaces, harmed, hevents, hnone, hv.places]
    · rw [hnone] at hsome
      cases hsome
  · have hregistration : (p.registrations.get? h.descriptor).isSome = τ.isRegistered :=
      (hcollected.registered h.descriptor).trans hstanding.registration
    rcases hcollected.places h with ⟨harmed, hevents⟩ | ⟨interest, hsome, hnone, hevents, hany⟩
    · refine .stay ⟨hstanding.connection, ?_, hstanding.stream, hregistration, hstanding.nonneg,
        hstanding.lt_limit⟩ ((hkeeps _).untouched fun n => upon_loop choice n)
      rw [hplaces, harmed, hevents, ← hstanding.places, ← hno h]
      rfl
    · -- it was armed, so it was nowhere else
      have hτ : τ = .poll interest := by
        have harmed : τ.places.armed = some interest := by
          rw [← hstanding.places]
          exact hsome
        cases τ with
        | poll interest' => exact congrArg Holder.poll (Option.some.inj harmed)
        | event ready => cases harmed
        | loop task => cases harmed
        | queue => cases harmed
        | worker job => cases harmed
      subst hτ
      refine .fetched hany ⟨hstanding.connection, ?_, hstanding.stream, hregistration,
        hstanding.nonneg, hstanding.lt_limit⟩ (hkeeps _)
      rw [hplaces, hnone, hevents, hstanding.places]
      rfl

/-! ## All steps of the loop

The steps by stage, as other proofs go by them, and the step lemma of the loop, put together from
all that stands above. -/

/-- In a batch the loop does its task, unless a worker holds the connection that it would
visit. -/
theorem loopStep_batch (hstage : s.stage = .batch rest task) (hnext : task ≠ .next) :
    s.loopStep choice =
      if (visited? task).any s.isHeld then none else some (s.afterTask choice rest task) := by
  cases task with
  | next => exact absurd rfl hnext
  | accept => simp only [loopStep, hstage]; rfl
  | consider d peer => simp only [loopStep, hstage]; rfl
  | enter d peer => simp only [loopStep, hstage]; rfl
  | refuse d => simp only [loopStep, hstage]; rfl
  | register h => simp only [loopStep, hstage]; rfl
  | giveUp h => simp only [loopStep, hstage]; rfl
  | read h => simp only [loopStep, hstage]; rfl
  | submit h => simp only [loopStep, hstage]; rfl
  | announce => simp only [loopStep, hstage]; rfl
  | resume h => simp only [loopStep, hstage]; rfl
  | rearm h interest => simp only [loopStep, hstage]; rfl
  | close h => simp only [loopStep, hstage]; rfl
  | drain => simp only [loopStep, hstage]; rfl

/-- In a batch the loop does its task, unless it has to wait for the connection. -/
theorem eq_afterTask (hstage : s.stage = .batch rest task) (hnext : task ≠ .next)
    (hstep : s.loopStep choice = some t) : t = s.afterTask choice rest task := by
  rw [loopStep_batch hstage hnext] at hstep
  split at hstep
  · cases hstep
  · exact (Option.some.inj hstep).symm

/-- The steps that the loop can take. -/
inductive LoopStep (choice : Nat) (s : Server) : Server → Prop
  | spawned : s.stage = .spawning 0 → LoopStep choice s (s.goTo .addListener)
  | spawn {left : Nat} : s.stage = .spawning (left + 1) → LoopStep choice s (s.spawnWorker left)
  | addListener : s.stage = .addListener →
    LoopStep choice s (s.addStanding s.listener listenerToken .addWaker)
  | addWaker : s.stage = .addWaker →
    LoopStep choice s (s.addStanding s.wakerOut wakerToken .checking)
  | check : s.stage = .checking →
    LoopStep choice s (s.goTo (if s.stop.flag then .stopping (.ok ()) else .polling))
  | poll : s.stage = .polling → LoopStep choice s s.beginWait
  | fetch : s.stage = .waiting → s.hasEvent = true → LoopStep choice s s.fetch
  | done : s.stage = .batch [] .next → LoopStep choice s (s.goTo .checking)
  | look {e : Event} {rest : List Event} : s.stage = .batch (e :: rest) .next →
    LoopStep choice s (s.goTo (.batch rest (taskOf e)))
  | work {rest : List Event} {task : Task} : s.stage = .batch rest task → task ≠ .next →
    (visited? task).any s.isHeld = false → LoopStep choice s (s.afterTask choice rest task)
  | stop {result : Except ServerError Unit} : s.stage = .stopping result →
    LoopStep choice s ({ s with pool := s.pool.stop }.goTo (.releasing s.pool.size result))
  | released {result : Except ServerError Unit} : s.stage = .releasing 0 result →
    LoopStep choice s (s.goTo (.joining result))
  | release {left : Nat} {result : Except ServerError Unit} :
    s.stage = .releasing (left + 1) result →
    LoopStep choice s ({ s with pool := s.pool.post choice }.goTo (.releasing left result))
  | join {result : Except ServerError Unit} : s.stage = .joining result → s.pool.isOver = true →
    LoopStep choice s (s.goTo (.closing s.hub.slots.keys result))
  | closed {result : Except ServerError Unit} : s.stage = .closing [] result →
    LoopStep choice s (s.goTo (.leaving result))
  | close {slot : Int} {slots : List Int} {result : Except ServerError Unit} :
    s.stage = .closing (slot :: slots) result →
    LoopStep choice s ({ s with hub := s.hub.close ⟨slot⟩ }.goTo (.closing slots result))
  | leave {result : Except ServerError Unit} : s.stage = .leaving result →
    LoopStep choice s ((s.withKernel (s.hub.kernel.close s.poll)).leave (.over result))

/-- **Which step it is goes by the stage.** Proofs about the loop go through these cases. -/
theorem loopStep_cases (hstep : s.loopStep choice = some t) : LoopStep choice s t := by
  cases hstage : s.stage with
  | batch rest task =>
    by_cases hnext : task = .next
    · subst hnext
      cases rest with
      | nil =>
        simp only [loopStep, hstage, Option.some.injEq] at hstep
        exact hstep ▸ .done hstage
      | cons e rest =>
        simp only [loopStep, hstage, Option.some.injEq] at hstep
        exact hstep ▸ .look hstage
    · rw [loopStep_batch hstage hnext] at hstep
      split at hstep
      · cases hstep
      · next hfree => exact Option.some.inj hstep ▸ .work hstage hnext (eq_false_of_ne_true hfree)
  | spawning left =>
    cases left with
    | zero =>
      simp only [loopStep, hstage, Option.some.injEq] at hstep
      exact hstep ▸ .spawned hstage
    | succ left =>
      simp only [loopStep, hstage, Option.some.injEq] at hstep
      exact hstep ▸ .spawn hstage
  | addListener =>
    simp only [loopStep, hstage, Option.some.injEq] at hstep
    exact hstep ▸ .addListener hstage
  | addWaker =>
    simp only [loopStep, hstage, Option.some.injEq] at hstep
    exact hstep ▸ .addWaker hstage
  | checking =>
    simp only [loopStep, hstage, Option.some.injEq] at hstep
    exact hstep ▸ .check hstage
  | polling =>
    simp only [loopStep, hstage, Option.some.injEq] at hstep
    exact hstep ▸ .poll hstage
  | waiting =>
    simp only [loopStep, hstage] at hstep
    split at hstep
    · next hevent => exact Option.some.inj hstep ▸ .fetch hstage hevent
    · cases hstep
  | stopping result =>
    simp only [loopStep, hstage, Option.some.injEq] at hstep
    exact hstep ▸ .stop hstage
  | releasing left result =>
    cases left with
    | zero =>
      simp only [loopStep, hstage, Option.some.injEq] at hstep
      exact hstep ▸ .released hstage
    | succ left =>
      simp only [loopStep, hstage, Option.some.injEq] at hstep
      exact hstep ▸ .release hstage
  | joining result =>
    simp only [loopStep, hstage] at hstep
    split at hstep
    · next hover => exact Option.some.inj hstep ▸ .join hstage hover
    · cases hstep
  | closing slots result =>
    cases slots with
    | nil =>
      simp only [loopStep, hstage, Option.some.injEq] at hstep
      exact hstep ▸ .closed hstage
    | cons slot slots =>
      simp only [loopStep, hstage, Option.some.injEq] at hstep
      exact hstep ▸ .close hstage
  | leaving result =>
    simp only [loopStep, hstage, Option.some.injEq] at hstep
    exact hstep ▸ .leave hstage
  | _ =>
    -- the loop is not under way
    simp only [loopStep, hstage] at hstep
    cases hstep

/-- Every step of the loop of a server that serves is a step. -/
theorem Orderly.loopStep (hs : s.Orderly) (hserving : s.stage.isServing = true)
    (hearly : s.stage.isEarly = true → ∀ h, s.Vacant h) (hstep : s.loopStep choice = some t) :
    Step (.loop choice) s t := by
  cases loopStep_cases hstep with
  | done hstage => exact hs.step_goTo (hstage ▸ ⟨rfl, fun _ => rfl, rfl⟩) ⟨rfl, fun _ => rfl, rfl⟩
  | look hstage => exact hs.step_look hstage choice
  | work hstage hnext _ => exact hs.step_task hstage hnext choice
  | spawned hstage =>
    exact hs.step_goTo (hstage ▸ ⟨rfl, fun _ => rfl, rfl⟩) ⟨rfl, fun _ => rfl, rfl⟩
  | spawn hstage => exact hs.step_spawn hstage
  -- both standing registrations are made while every slot is still vacant
  | addListener hstage =>
    have hvacant := hearly (by rw [hstage]; rfl)
    exact hs.step_standing hvacant (hstage ▸ ⟨rfl, fun _ => rfl, rfl⟩) _ (.inl rfl)
      ⟨rfl, fun _ => rfl, rfl⟩
  | addWaker hstage =>
    have hvacant := hearly (by rw [hstage]; rfl)
    exact hs.step_standing hvacant (hstage ▸ ⟨rfl, fun _ => rfl, rfl⟩) _ (.inr rfl)
      ⟨rfl, fun _ => rfl, rfl⟩
  | check hstage =>
    refine hs.step_goTo (hstage ▸ ⟨rfl, fun _ => rfl, rfl⟩) ?_
    cases s.stop.flag with
    | true => exact idle_stopping _
    | false => exact ⟨rfl, fun _ => rfl, rfl⟩
  | poll hstage => exact hs.step_beginWait (hstage ▸ ⟨rfl, fun _ => rfl, rfl⟩)
  | fetch hstage _ => exact hs.step_fetch (hstage ▸ ⟨rfl, fun _ => rfl, rfl⟩)
  | @stop result hstage =>
    exact hs.step_pause (hstage ▸ idle_stopping result) (.refl _) s.pool.stop rfl rfl
      (.releasing s.pool.size result) ⟨rfl, fun _ => rfl, rfl⟩
  | released hstage =>
    exact hs.step_goTo (hstage ▸ ⟨rfl, fun _ => rfl, rfl⟩) ⟨rfl, fun _ => rfl, rfl⟩
  | @release left result hstage =>
    exact hs.step_pause (hstage ▸ ⟨rfl, fun _ => rfl, rfl⟩) (.refl _) (s.pool.post choice) rfl rfl
      (.releasing left result) ⟨rfl, fun _ => rfl, rfl⟩
  | join hstage _ => exact hs.step_goTo (hstage ▸ ⟨rfl, fun _ => rfl, rfl⟩) ⟨rfl, fun _ => rfl, rfl⟩
  | _ hstage => rw [hstage] at hserving; cases hserving

end Server

end FileServer
