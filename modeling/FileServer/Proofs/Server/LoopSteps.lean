import FileServer.Proofs.Server.Life

/-!
# The steps of the loop

Each task of the event loop is about one connection or none. A task about a connection hands it on:
to the next task, to the poll set, or to the queue; or it closes it. A task about none may bring a
new descriptor, which becomes a connection only once it is entered into the table.

A task is followed here from the state before it to the state after (`Server.afterTask`), and what
it comes to is one of a few kinds:

* it visits its connection and hands it on to another task (`Server.Orderly.step_visited`), as to
  read, to resume a response, or to turn away from a full queue;
* it arms its connection (`Server.Orderly.step_armed`), or finds that this cannot be done
  (`Server.Orderly.step_unarmed`);
* it closes its connection (`Server.Orderly.step_closed`);
* it is about no connection (`Server.Orderly.step_aside`, `Server.Orderly.step_quiet`).

Three tasks are of no such kind and have proofs of their own: to submit a connection, to accept a
client, and to enter one into the table. `Server.Orderly.step_task` puts all of them together.
-/

namespace FileServer.Server

variable {s t : Server} {a : Action} {h g : Handle} {τ τ' : Holder} {c c' : Connection}
  {rest : List Event} {task task' : Task}

/-! ## One task after the other

The task of a batch and the one that follows it. What has to be shown for the connection of the
first is where it is found afterwards. -/

/-- The state after a task. -/
def afterTask (choice : Nat) (rest : List Event) (s : Server) (task : Task) : Server :=
  (s.doTask choice task).2.goTo (.batch rest (s.doTask choice task).1)

/-- A task changes nothing but the hub and the pool. -/
theorem doTask_eq (choice : Nat) (s : Server) (task : Task) :
    (s.doTask choice task).2 =
      { s with hub := (s.doTask choice task).2.hub, pool := (s.doTask choice task).2.pool } := by
  cases task with
  | accept => simp only [doTask]; split <;> rfl
  | enter d peer => simp only [doTask]; split <;> rfl
  | register h => simp only [doTask]; split <;> rfl
  | submit h => simp only [doTask]; split <;> rfl
  | rearm h interest => simp only [doTask]; split <;> rfl
  | drain => simp only [doTask]; split <;> rfl
  | _ => rfl

theorem upon_loop (choice n : Nat) : (Action.loop choice).upon n = id := rfl

/-- A step from one task to the next is about the connection of both. -/
theorem Only.of_task {g : Option Handle} (hstage : s.stage = .batch rest task)
    (hstage' : t.stage = .batch rest task') (htask : ∀ h, task.handle? = some h → g = some h)
    (htask' : ∀ h, task'.handle? = some h → g = some h) (hlistener : t.listener = s.listener)
    (hroot : t.hub.root = s.hub.root)
    (hqueue : ∀ h, g ≠ some h → t.pool.queue.count h = s.pool.queue.count h)
    (hworkers : t.pool.workers = s.pool.workers)
    (hconnection : ∀ h, g ≠ some h → t.hub.connection? h = s.hub.connection? h)
    (hregistration : ∀ h, g ≠ some h → t.hub.kernel.poll.registrations.get? h.descriptor =
      s.hub.kernel.poll.registrations.get? h.descriptor)
    (hbeside : Beside a s t fun d => ∀ h, g = some h → h.descriptor ≠ d) :
    Only a g s t := by
  refine ⟨hlistener, hroot, hbeside, hconnection, fun h hne => ?_,
    fun h τ c hne _ => hregistration h hne⟩
  have hnone : ∀ task : Task, (∀ h, task.handle? = some h → g = some h) →
      (some task).filter (fun task => task.handle? = some h) = none := by
    intro task htask
    rw [Option.filter_some, if_neg]
    intro hh
    exact hne (htask h (of_decide_eq_true hh))
  rw [Server.places, Server.places, hstage, hstage', DescriptorMap.armed, DescriptorMap.armed,
    hregistration h hne,
    hqueue h hne, Pool.jobsFor, Pool.jobsFor, Pool.running, Pool.running, hworkers, Stage.task?,
    Stage.task?, hnone task htask, hnone task' htask']
  rfl

/-- What is found about the connection of a task after it. -/
theorem Standing.places_after (hs : s.Standing h (.loop task) c)
    (hstage : s.stage = .batch rest task)
    (hstage' : t.stage = .batch rest task') (hpool : t.pool = s.pool) :
    t.places h =
      { armed := t.hub.kernel.poll.registrations.armed h
        task := if task'.handle? = some h then some task' else none } := by
  have hevents : (s.places h).events = [] := congrArg Places.events hs.places
  have hqueued : (s.places h).queued = 0 := congrArg Places.queued hs.places
  have hjobs : (s.places h).jobs = [] := congrArg Places.jobs hs.places
  rw [Server.places, hstage] at hevents
  rw [Server.places] at hqueued hjobs
  dsimp only [Stage.events] at hevents hqueued hjobs
  rw [Server.places, hstage', hpool]
  dsimp only [Stage.events, Stage.task?]
  rw [hevents, hqueued, hjobs, Option.filter_some]
  simp

/-- While the loop holds a connection it is not armed, so no event of it can be fetched. -/
theorem Standing.not_armed (hs : s.Standing h (.loop task) c) :
    s.hub.kernel.poll.registrations.armed h = none :=
  congrArg Places.armed hs.places

/-! ## Arming

The connection goes from the loop to the poll set. If that fails it stays with the loop, to be
closed. -/

/-- The state after a task that has done something with the kernel. -/
def afterKernel (s : Server) (k : Kernel) (rest : List Event) (task : Task) : Server :=
  (s.withKernel k).goTo (.batch rest task)

/-- The state after a task that has done something with the hub. -/
def afterHub (s : Server) (hub : Hub) (rest : List Event) (task : Task) : Server :=
  { s with hub }.goTo (.batch rest task)

/-- A task that arms its connection. -/
theorem Orderly.step_armed (hs : s.Orderly) (hstage : s.stage = .batch rest task)
    (hstanding : s.Standing g (.loop task) c) {interest : Interest}
    (harms : (Holder.loop task).Arms g interest τ') {k : Kernel}
    (hk : s.hub.kernel.Registers k g.descriptor (g.registration interest))
    (hg : task.handle? = some g) (htask' : task'.handle? = none)
    (hcandidate : (Stage.batch rest task').candidate? = none) (ha : ∀ n, a.upon n = id) :
    Step a s (s.afterKernel k rest task') := by
  obtain ⟨n, hn⟩ := hstanding.stream
  have honly : Only a (some g) s (s.afterKernel k rest task') := by
    refine .of_task hstage rfl (fun h hh => hg.symm.trans hh) (fun h hh => ?_) rfl rfl
      (fun _ _ => rfl) rfl (fun _ _ => rfl)
      (fun h hne => (hk.leaves (descriptor_ne hne)).registration)
      (.of_keeps ha fun d _ => hk.keeps d)
    rw [htask'] at hh
    cases hh
  have harmed : k.poll.registrations.armed g = some interest := by
    rw [DescriptorMap.armed, hk.self]
    rfl
  have hstanding' : (s.afterKernel k rest task').Standing g (.poll interest) c := by
    refine ⟨hstanding.connection, ?_, ?_, ?_, hstanding.nonneg, hstanding.lt_limit⟩
    · rw [hstanding.places_after (t := s.afterKernel k rest task') hstage rfl rfl, htask']
      exact congrArg (fun armed => ({ armed } : Places)) harmed
    · exact ⟨n, (hk.same.streamOf? _).trans hn⟩
    · exact congrArg Option.isSome hk.self
  refine .of_acting honly hstanding (.armed harms hstanding' (hk.keeps _)) hk.evolves ?_ ?_ ?_
  · refine hs.tidy.registers hk (by rw [Kernel.get?_of_streamOf? hn]; rfl) ?_
    exact Handle.registration_names hstanding.nonneg hstanding.lt_limit interest
  · intro d hd
    rw [afterKernel, goTo] at hd
    dsimp only at hd
    rw [hcandidate] at hd
    cases hd
  · intro e he
    refine hs.events e ?_
    rw [hstage]
    exact he

/-- A task that is followed by another about the same connection, when nothing else has changed. -/
theorem Standing.handOn (hs : s.Standing g (.loop task) c) (hstage : s.stage = .batch rest task)
    {k : Kernel} (hk : s.hub.kernel.Quiet k) (htask' : task'.handle? = some g)
    (hregistered : (Holder.loop task').isRegistered = (Holder.loop task).isRegistered) :
    (s.afterKernel k rest task').Standing g (.loop task') c := by
  obtain ⟨n, hn⟩ := hs.stream
  refine ⟨hs.connection, ?_, ⟨n, (hk.same.streamOf? _).trans hn⟩, ?_, hs.nonneg, hs.lt_limit⟩
  · have harmed : k.poll.registrations.armed g = none := by
      rw [hk.registrations]
      exact hs.not_armed
    rw [hs.places_after (t := s.afterKernel k rest task') hstage rfl rfl, if_pos htask']
    exact congrArg (fun armed => ({ armed, task := some task' } : Places)) harmed
  · have hsame : k.poll.registrations.get? g.descriptor =
        s.hub.kernel.poll.registrations.get? g.descriptor := by rw [hk.registrations]
    rw [hregistered, ← hs.registration]
    exact congrArg Option.isSome hsame

/-- A quiet step from one task to the next concerns no other connection. -/
theorem Only.of_quiet {g : Option Handle} (hstage : s.stage = .batch rest task) {k : Kernel}
    (hk : s.hub.kernel.Quiet k) (htask : ∀ h, task.handle? = some h → g = some h)
    (htask' : ∀ h, task'.handle? = some h → g = some h) (ha : ∀ n, a.upon n = id) :
    Only a g s (s.afterKernel k rest task') :=
  .of_task hstage rfl htask htask' rfl rfl (fun _ _ => rfl) rfl (fun _ _ => rfl)
    (fun h _ => (hk.leaves h.descriptor).registration)
    (.of_keeps ha fun d _ => (hk.leaves d).toKeeps)

/-- The events that are yet to be looked at have something to say, as all those of the batch
had. -/
theorem Orderly.events_rest (hs : s.Orderly) (hstage : s.stage = .batch rest task) :
    ∀ e ∈ rest, e.ready.any = true := by
  intro e he
  refine hs.events e ?_
  rw [hstage]
  exact he

/-- A task that could not arm its connection. -/
theorem Orderly.step_unarmed (hs : s.Orderly) (hstage : s.stage = .batch rest task)
    (hstanding : s.Standing g (.loop task) c) {interest : Interest}
    (harms : (Holder.loop task).Arms g interest (.loop task')) {k : Kernel}
    (hk : s.hub.kernel.Quiet k) (hfails : s.hub.kernel.ControlFails) (ha : ∀ n, a.upon n = id) :
    Step a s (s.afterKernel k rest task') := by
  have hg : task.handle? = some g ∧ task'.handle? = some g ∧
      (Holder.loop task').isRegistered = (Holder.loop task).isRegistered ∧
      (Stage.batch rest task').candidate? = none := by
    cases harms with
    | register => exact ⟨rfl, rfl, rfl, rfl⟩
    | loop interest => exact ⟨rfl, rfl, rfl, rfl⟩
  obtain ⟨htask, htask', hregistered, hcandidate⟩ := hg
  have honly : Only a (some g) s (s.afterKernel k rest task') :=
    .of_quiet hstage hk (fun h hh => htask.symm.trans hh) (fun h hh => htask'.symm.trans hh) ha
  refine .of_acting honly hstanding (.unarmed harms hfails
    (hstanding.handOn hstage hk htask' hregistered) (hk.leaves _).toKeeps) hk.evolves
    (hs.tidy.quiet hk) (fun d hd => ?_) (hs.events_rest hstage)
  have hnone : (Stage.batch rest task').candidate? = some d := hd
  rw [hcandidate] at hnone
  cases hnone

/-- What becomes of a connection that is registered for the first time. -/
theorem Orderly.step_register (hs : s.Orderly) (hstage : s.stage = .batch rest (.register g))
    (choice : Nat) : Step (.loop choice) s (s.afterTask choice rest (.register g)) := by
  obtain ⟨c, hstanding⟩ := hs.standing_task hstage rfl
  obtain ⟨n, hn⟩ := hstanding.descriptor
  rcases Kernel.pollAdd_cases hs.tidy.honest g.descriptor (g.registration .read) with
    ⟨reason, k, heq, hquiet, hfails⟩ | ⟨k, heq, hregisters, -⟩
  · have hfails' : s.hub.kernel.ControlFails := by
      rcases hfails with hfails | hnone | hsome
      · exact hfails
      · rw [hn] at hnone
        cases hnone
      · have hregistration := hstanding.registration
        rw [hsome] at hregistration
        cases hregistration
    have hafter : s.afterTask choice rest (.register g) = s.afterKernel k rest (.giveUp g) := by
      simp only [afterTask, doTask, Hub.register, heq]
      rfl
    rw [hafter]
    exact hs.step_unarmed hstage hstanding .register hquiet hfails' fun n => upon_loop choice n
  · have hafter : s.afterTask choice rest (.register g) = s.afterKernel k rest .accept := by
      simp only [afterTask, doTask, Hub.register, heq]
      rfl
    rw [hafter]
    exact hs.step_armed hstage hstanding .register hregisters rfl rfl rfl fun n =>
      upon_loop choice n

/-- What becomes of a connection that is armed again. -/
theorem Orderly.step_rearm (hs : s.Orderly) {interest : Interest}
    (hstage : s.stage = .batch rest (.rearm g interest)) (choice : Nat) :
    Step (.loop choice) s (s.afterTask choice rest (.rearm g interest)) := by
  obtain ⟨c, hstanding⟩ := hs.standing_task hstage rfl
  obtain ⟨n, hn⟩ := hstanding.descriptor
  rcases Kernel.pollModify_cases hs.tidy.honest g.descriptor (g.registration interest) with
    ⟨reason, k, heq, hquiet, hfails⟩ | ⟨k, heq, hregisters, -⟩
  · have hfails' : s.hub.kernel.ControlFails := by
      rcases hfails with hfails | hnone | hnone
      · exact hfails
      · rw [hn] at hnone
        cases hnone
      · have hregistration := hstanding.registration
        rw [hnone] at hregistration
        cases hregistration
    have hafter : s.afterTask choice rest (.rearm g interest) =
        s.afterKernel k rest (.close g) := by
      simp only [afterTask, doTask, Hub.rearm, heq]
      rfl
    rw [hafter]
    exact hs.step_unarmed hstage hstanding (.loop interest) hquiet hfails' fun n =>
      upon_loop choice n
  · have hafter : s.afterTask choice rest (.rearm g interest) = s.afterKernel k rest .next := by
      simp only [afterTask, doTask, Hub.rearm, heq]
      rfl
    rw [hafter]
    exact hs.step_armed hstage hstanding (.loop interest) hregisters rfl rfl rfl
      fun n => upon_loop choice n

/-! ## Visits and closing

The loop does something to its connection and keeps it for the next task, or closes it. -/

/-- A task that has done something to its connection concerns no other. -/
theorem About.only {hub : Hub} (hv : s.About g hub) (hstage : s.stage = .batch rest task)
    (hg : task.handle? = some g) (htask' : ∀ h, task'.handle? = some h → some g = some h)
    (ha : ∀ n, a.upon n = id) :
    Only a (some g) s (s.afterHub hub rest task') :=
  .of_task hstage rfl (fun _ hh => hg.symm.trans hh) htask' rfl hv.root (fun _ _ => rfl) rfl
    hv.others (fun _ hne => (hv.leaves _ (descriptor_ne hne)).registration)
    (.of_keeps ha fun d hd => (hv.leaves d (hd g rfl).symm).toKeeps)

/-- A task that has closed its connection. -/
theorem Orderly.step_closed (hs : s.Orderly) (hstage : s.stage = .batch rest task)
    (hstanding : s.Standing g (.loop task) c) {hub : Hub} (hv : s.Closed g hub)
    (hg : task.handle? = some g) (htask' : task'.handle? = none)
    (hcandidate : (Stage.batch rest task').candidate? = none) (ha : ∀ n, a.upon n = id)
    (hpassage : (s.afterHub hub rest task').Vacant g →
      Passage a s (s.afterHub hub rest task') g (.loop task) c) :
    Step a s (s.afterHub hub rest task') := by
  have honly : Only a (some g) s (s.afterHub hub rest task') :=
    hv.only hstage hg (fun h hh => by rw [htask'] at hh; cases hh) ha
  have hvacant : (s.afterHub hub rest task').Vacant g := by
    refine ⟨hv.connection, ?_⟩
    have harmed : hub.kernel.poll.registrations.armed g = none := by
      rw [DescriptorMap.armed, hv.registration]
      rfl
    rw [hstanding.places_after (t := s.afterHub hub rest task') hstage rfl rfl, htask']
    exact congrArg (fun armed => ({ armed } : Places)) harmed
  refine .of_acting honly hstanding (hpassage hvacant) hv.evolves hv.tidy (fun d hd => ?_)
    (hs.events_rest hstage)
  have hnone : (Stage.batch rest task').candidate? = some d := hd
  rw [hcandidate] at hnone
  cases hnone

/-- A task that has visited its connection, and is followed by another about it. -/
theorem Orderly.step_visited (hs : s.Orderly) (hstage : s.stage = .batch rest task)
    (hstanding : s.Standing g (.loop task) c) {hub : Hub} (hv : s.Visited g hub c')
    (hg : task.handle? = some g) (htask' : task'.handle? = some g)
    (hregistered : (Holder.loop task').isRegistered = (Holder.loop task).isRegistered)
    (hcandidate : (Stage.batch rest task').candidate? = none) (ha : ∀ n, a.upon n = id)
    (hpassage : (s.afterHub hub rest task').Standing g (.loop task') c' →
      Passage a s (s.afterHub hub rest task') g (.loop task) c) :
    Step a s (s.afterHub hub rest task') := by
  have honly : Only a (some g) s (s.afterHub hub rest task') :=
    hv.only hstage hg (fun h hh => htask'.symm.trans hh) ha
  have hstanding' : (s.afterHub hub rest task').Standing g (.loop task') c' := by
    obtain ⟨n, hn⟩ := hstanding.stream
    refine ⟨hv.connection, ?_, ⟨n, (Kernel.streamOf?_congr hv.descriptor).trans hn⟩, ?_,
      hstanding.nonneg, hstanding.lt_limit⟩
    · have harmed : hub.kernel.poll.registrations.armed g = none := by
        rw [DescriptorMap.armed, hv.registration]
        exact hstanding.not_armed
      rw [hstanding.places_after (t := s.afterHub hub rest task') hstage rfl rfl,
        if_pos htask']
      exact congrArg (fun armed => ({ armed, task := some task' } : Places)) harmed
    · rw [hregistered, ← hstanding.registration]
      exact congrArg Option.isSome hv.registration
  refine .of_acting honly hstanding (hpassage hstanding') hv.evolves hv.tidy (fun d hd => ?_)
    (hs.events_rest hstage)
  have hnone : (Stage.batch rest task').candidate? = some d := hd
  rw [hcandidate] at hnone
  cases hnone

/-- A connection that could not be registered is closed. -/
theorem Orderly.step_giveUp (hs : s.Orderly) (hstage : s.stage = .batch rest (.giveUp g))
    (choice : Nat) : Step (.loop choice) s (s.afterTask choice rest (.giveUp g)) := by
  obtain ⟨c, hstanding⟩ := hs.standing_task hstage rfl
  exact hs.step_closed hstage hstanding ((hs.visited hstanding).close hstanding) rfl rfl rfl
    (fun n => upon_loop choice n) fun hvacant =>
      .closed .unregistered hvacant (Hub.close_kernel hstanding.connection)

/-- A connection that the loop is done with is closed. -/
theorem Orderly.step_close (hs : s.Orderly) (hstage : s.stage = .batch rest (.close g))
    (choice : Nat) : Step (.loop choice) s (s.afterTask choice rest (.close g)) := by
  obtain ⟨c, hstanding⟩ := hs.standing_task hstage rfl
  exact hs.step_closed hstage hstanding ((hs.visited hstanding).close hstanding) rfl rfl rfl
    (fun n => upon_loop choice n) fun hvacant =>
      .closed .loop hvacant (Hub.close_kernel hstanding.connection)

/-- What becomes of a connection of which the loop reads. -/
theorem Orderly.step_read (hs : s.Orderly) (hstage : s.stage = .batch rest (.read g))
    (choice : Nat) : Step (.loop choice) s (s.afterTask choice rest (.read g)) := by
  obtain ⟨c, hstanding⟩ := hs.standing_task hstage rfl
  obtain ⟨-, -, -, hdescriptor⟩ := Hub.connection?_eq_some.mp hstanding.connection
  have hv := hstanding.visited_put (.refl _) (.refl _) hs.tidy Connection.stays_readAll
  rw [Hub.onWire_eq, hdescriptor] at hv
  rcases hread : c.readAll (s.hub.kernel.wire g.descriptor) with ⟨more, c', w⟩
  rw [hread] at hv
  have hafter : s.afterTask choice rest (.read g) =
      s.afterHub (s.hub.put g c' (s.hub.kernel.putWire g.descriptor w)) rest
        (afterRead g (some more)) := by
    simp only [afterTask, doTask, Hub.visit_of_some hstanding.connection, Hub.onWire_eq,
      hdescriptor, hread]
    rfl
  rw [hafter]
  have hpassage := fun hstanding' => Passage.read (a := .loop choice)
    (t := s.afterHub (s.hub.put g c' (s.hub.kernel.putWire g.descriptor w)) rest
      (afterRead g (some more))) hread hstanding' rfl
  cases more with
  | true =>
    exact hs.step_visited hstage hstanding hv rfl rfl rfl rfl (fun n => upon_loop choice n)
      hpassage
  | false =>
    exact hs.step_visited hstage hstanding hv rfl rfl rfl rfl (fun n => upon_loop choice n)
      hpassage

/-- What becomes of a connection whose response is resumed. -/
theorem Orderly.step_resume (hs : s.Orderly) (hstage : s.stage = .batch rest (.resume g))
    (choice : Nat) : Step (.loop choice) s (s.afterTask choice rest (.resume g)) := by
  obtain ⟨c, hstanding⟩ := hs.standing_task hstage rfl
  obtain ⟨-, -, -, hdescriptor⟩ := Hub.connection?_eq_some.mp hstanding.connection
  have hv := hstanding.visited_put (.refl _) (.refl _) hs.tidy Connection.stays_resume
  rw [Hub.onWire_eq, hdescriptor] at hv
  rcases hresume : c.resume (s.hub.kernel.wire g.descriptor) with ⟨next, c', w⟩
  rw [hresume] at hv
  have hvisit : s.hub.visit g (Hub.onWire Connection.resume) =
      (some next, s.hub.put g c' (s.hub.kernel.putWire g.descriptor w)) := by
    rw [Hub.visit_of_some hstanding.connection, Hub.onWire_eq, hdescriptor, hresume]
  -- whatever it waits for, the connection goes back to be armed for that
  have hrearm : ∀ interest, next.interest? = some interest →
      Step (.loop choice) s (s.afterTask choice rest (.resume g)) := by
    intro interest hinterest
    have hafter : s.afterTask choice rest (.resume g) =
        s.afterHub (s.hub.put g c' (s.hub.kernel.putWire g.descriptor w)) rest
          (.rearm g interest) := by
      cases next with
      | close => cases hinterest
      | read =>
        obtain rfl := Option.some.inj hinterest
        simp only [afterTask, doTask, Hub.runStep, hvisit]
        rfl
      | write =>
        obtain rfl := Option.some.inj hinterest
        simp only [afterTask, doTask, Hub.runStep, hvisit]
        rfl
    rw [hafter]
    exact hs.step_visited hstage hstanding hv rfl rfl rfl rfl (fun n => upon_loop choice n)
      fun hstanding' => .resumed hresume hinterest hstanding' rfl
  cases next with
  | read => exact hrearm .read rfl
  | write => exact hrearm .write rfl
  | close =>
    have hafter : s.afterTask choice rest (.resume g) =
        s.afterHub ((s.hub.put g c' (s.hub.kernel.putWire g.descriptor w)).close g) rest .next := by
      simp only [afterTask, doTask, Hub.runStep, hvisit]
      rfl
    rw [hafter]
    exact hs.step_closed hstage hstanding (hv.close hstanding) rfl rfl rfl
      (fun n => upon_loop choice n) fun hvacant =>
        .ended hresume hvacant (Hub.close_kernel hv.connection)

/-! ## The queue

The connection goes from the loop to the queue, where it waits for a worker. -/

/-- What becomes of a connection that is put into the queue: from then on it is a worker's, or
will be. If the queue is full the loop keeps it, to close it. -/
theorem Orderly.step_submit (hs : s.Orderly) (hstage : s.stage = .batch rest (.submit g))
    (choice : Nat) : Step (.loop choice) s (s.afterTask choice rest (.submit g)) := by
  obtain ⟨c, hstanding⟩ := hs.standing_task hstage rfl
  -- a full queue turns the connection away, and the loop closes it
  by_cases hfull : s.pool.capacity ≤ s.pool.queue.length
  · have hafter : s.afterTask choice rest (.submit g) = s.afterHub s.hub rest (.close g) := by
      simp only [afterTask, doTask, Pool.push, if_pos hfull]
      rfl
    rw [hafter]
    exact hs.step_visited hstage hstanding (hs.visited hstanding) rfl rfl rfl rfl
      (fun n => upon_loop choice n) fun hstanding' =>
        .turnedAway hfull hstanding' (Kernel.Keeps.refl ..)
  · have hafter : s.afterTask choice rest (.submit g) =
        { s with pool := { s.pool with queue := s.pool.queue ++ [g] } }.goTo
          (.batch rest .announce) := by
      simp only [afterTask, doTask, Pool.push, if_neg hfull]
    rw [hafter]
    -- held by the loop, it was neither queued before nor with a worker, so this is its one place
    have hevents : (s.places g).events = [] := congrArg Places.events hstanding.places
    have hqueued : (s.places g).queued = 0 := congrArg Places.queued hstanding.places
    have hjobs : (s.places g).jobs = [] := congrArg Places.jobs hstanding.places
    rw [places, hstage] at hevents
    rw [places] at hqueued hjobs
    have hplaces : ({ s with pool := { s.pool with queue := s.pool.queue ++ [g] } }.goTo
        (.batch rest .announce)).places g = Holder.queue.places := by
      dsimp only [Stage.events] at hevents hqueued hjobs
      rw [places]
      dsimp only [goTo, Stage.events, Stage.task?]
      rw [hevents, hstanding.not_armed, List.count_append, hqueued, List.count_singleton_self]
      exact congrArg (fun jobs => ({ queued := 1, jobs } : Places)) hjobs
    have hstanding' : ({ s with pool := { s.pool with queue := s.pool.queue ++ [g] } }.goTo
        (.batch rest .announce)).Standing g .queue c :=
      ⟨hstanding.connection, hplaces, hstanding.stream, hstanding.registration, hstanding.nonneg,
        hstanding.lt_limit⟩
    refine .of_acting (.of_task hstage rfl (fun h hh => hh) (fun h hh => ?_) rfl rfl
      (fun h hne => ?_) rfl (fun _ _ => rfl) (fun _ _ => rfl)
      (.of_keeps (fun n => upon_loop choice n) fun d _ => Kernel.Keeps.refl ..)) hstanding
      (.submitted hstanding' (Kernel.Keeps.refl ..))
      (Kernel.Evolves.refl _) hs.tidy (by rintro d ⟨⟩) (hs.events_rest hstage)
    · cases hh
    · have hcount : [g].count h = 0 := by
        rw [List.count_singleton, if_neg]
        intro heq
        exact hne (congrArg some (eq_of_beq heq))
      rw [goTo]
      dsimp only
      rw [List.count_append, hcount, Nat.add_zero]

/-! ## Tasks about no connection

Where the loop holds no handle a step cannot change where any handle is found. -/

/-- A task about no connection, followed by another about none. -/
theorem Orderly.step_aside (hs : s.Orderly) (hstage : s.stage = .batch rest task)
    (hstage' : t.stage = .batch rest task') (htask : task.handle? = none)
    (htask' : task'.handle? = none) (hlistener : t.listener = s.listener)
    (hroot : t.hub.root = s.hub.root) (hqueue : t.pool.queue = s.pool.queue)
    (hworkers : t.pool.workers = s.pool.workers)
    (hconnection : ∀ h, t.hub.connection? h = s.hub.connection? h)
    (hregistration : ∀ h : Handle, t.hub.kernel.poll.registrations.get? h.descriptor =
      s.hub.kernel.poll.registrations.get? h.descriptor)
    (hev : s.hub.kernel.Evolves t.hub.kernel) (htidy : t.hub.kernel.Tidy)
    (hcandidate : ∀ d, (Stage.batch rest task').candidate? = some d → t.Candidate d)
    (hbeside : Beside a s t fun _ => True) : Step a s t := by
  refine .of_none (.of_task hstage hstage' (fun h hh => ?_) (fun h hh => ?_) hlistener hroot
    (fun _ _ => by rw [hqueue]) hworkers (fun h _ => hconnection h) (fun h _ => hregistration h)
    (hbeside.mono fun _ _ => trivial)) hev htidy (fun d hd => ?_) (fun e he => ?_)
  · rw [htask] at hh
    cases hh
  · rw [htask'] at hh
    cases hh
  · rw [hstage'] at hd
    exact hcandidate d hd
  · rw [hstage'] at he
    exact hs.events_rest hstage e he

/-- A task about no connection that does something quiet with the kernel. -/
theorem Orderly.step_quiet (hs : s.Orderly) (hstage : s.stage = .batch rest task)
    (htask : task.handle? = none) (htask' : task'.handle? = none) {k : Kernel}
    (hk : s.hub.kernel.Quiet k) (hcandidate : (Stage.batch rest task').candidate? = none)
    (ha : ∀ n, a.upon n = id) : Step a s (s.afterKernel k rest task') :=
  hs.step_aside hstage rfl htask htask' rfl rfl rfl rfl (fun _ => rfl)
    (fun h => (hk.leaves h.descriptor).registration) hk.evolves (hs.tidy.quiet hk)
    (fun d hd => by rw [hcandidate] at hd; cases hd)
    (.of_keeps ha fun d _ => (hk.leaves d).toKeeps)

/-- To announce a connection is about the pool's permits, and about no handle: it is in the queue
already. -/
theorem Orderly.step_announce (hs : s.Orderly) (hstage : s.stage = .batch rest .announce)
    (choice : Nat) : Step (.loop choice) s (s.afterTask choice rest .announce) :=
  hs.step_aside hstage rfl rfl rfl rfl rfl rfl rfl (fun _ => rfl) (fun _ => rfl)
    (Kernel.Evolves.refl _) hs.tidy (by rintro d ⟨⟩)
    (.of_keeps (fun n => upon_loop choice n) fun _ _ => Kernel.Keeps.refl ..)

/-- To empty the wake-up pipe is about no connection. -/
theorem Orderly.step_drain (hs : s.Orderly) (hstage : s.stage = .batch rest .drain)
    (choice : Nat) : Step (.loop choice) s (s.afterTask choice rest .drain) := by
  have hquiet := Kernel.quiet_pipeRead s.hub.kernel s.wakerOut Kernel.drainStep
  rcases hread : s.hub.kernel.pipeRead s.wakerOut Kernel.drainStep with ⟨result, k⟩
  rw [hread] at hquiet
  have hnext : s.afterTask choice rest .drain = s.afterKernel k rest .drain ∨
      s.afterTask choice rest .drain = s.afterKernel k rest .next := by
    simp only [afterTask, doTask, hread]
    rcases result with ⟨_ | ⟨b, bytes⟩⟩ | _ | reason
    · exact .inr rfl
    · exact .inl rfl
    · exact .inr rfl
    · exact .inr rfl
  rcases hnext with hnext | hnext
  · rw [hnext]
    exact hs.step_quiet hstage rfl rfl hquiet rfl fun n => upon_loop choice n
  · rw [hnext]
    exact hs.step_quiet hstage rfl rfl hquiet rfl fun n => upon_loop choice n

/-! ## New clients

A descriptor is accepted, looked at, and then entered or refused. Until it is entered it is a
candidate, and no handle for it exists. -/

/-- The number of a descriptor that is not open is that of no connection. -/
theorem Orderly.connection?_of_free (hs : s.Orderly) {d : Int}
    (hd : s.hub.kernel.descriptors.get? d = none) : s.hub.connection? ⟨d⟩ = none := by
  rcases hs.held ⟨d⟩ with hv | ⟨τ, c, hstanding⟩
  · exact hv.connection
  · refine absurd rfl (hstanding.descriptor_ne (d := d) fun n hn => ?_)
    rw [hd] at hn
    cases hn

/-- What becomes of a client that is accepted. Its descriptor is new, so no open connection has
it, and no handle for it is found anywhere. -/
theorem Orderly.step_accept (hs : s.Orderly) (hstage : s.stage = .batch rest .accept)
    (choice : Nat) : Step (.loop choice) s (s.afterTask choice rest .accept) := by
  rcases Kernel.accept_cases s.hub.kernel s.listener with ⟨d, peer, n, k, heq, hk⟩ | ⟨hnone, hquiet⟩
  · have hafter : s.afterTask choice rest .accept = s.afterKernel k rest (.consider d peer) := by
      simp only [afterTask, doTask, heq]
      rfl
    have hcandidate : (s.afterKernel k rest (.consider d peer)).Candidate d := by
      refine ⟨⟨n, hk.stream⟩, ?_, hs.connection?_of_free hk.free, hk.nonneg, hk.lt_limit⟩
      have hregistration := hs.tidy.unregistered hk.free
      rw [← hk.registrations] at hregistration
      exact hregistration
    rw [hafter]
    exact hs.step_aside hstage rfl rfl rfl rfl rfl rfl rfl (fun _ => rfl)
      (fun h => congrArg (·.get? h.descriptor) hk.registrations) hk.evolves (hs.tidy.accepts hk)
      (fun e he => Option.some.inj he ▸ hcandidate)
      (.accepted hstage rfl hk fun n => upon_loop choice n)
  · rcases haccept : s.hub.kernel.accept s.listener with ⟨result, k⟩
    rw [haccept] at hnone hquiet
    have hafter : s.afterTask choice rest .accept = s.afterKernel k rest .next := by
      simp only [afterTask, doTask, haccept]
      cases result with
      | accepted d peer => exact absurd rfl (hnone d peer)
      | wouldBlock => rfl
      | failed reason => rfl
    rw [hafter]
    exact hs.step_quiet hstage rfl rfl hquiet rfl fun n => upon_loop choice n


/-- To look at the limit changes nothing but the stage. -/
theorem Orderly.step_consider (hs : s.Orderly) {d : Int} {peer : Option SocketAddress}
    (hstage : s.stage = .batch rest (.consider d peer)) (choice : Nat) :
    Step (.loop choice) s (s.afterTask choice rest (.consider d peer)) := by
  have hd : s.Candidate d := hs.candidate d (by rw [hstage]; rfl)
  have hafter : s.afterTask choice rest (.consider d peer) = s.afterHub s.hub rest (.refuse d) ∨
      s.afterTask choice rest (.consider d peer) = s.afterHub s.hub rest (.enter d peer) := by
    rw [afterTask, doTask]
    cases s.hub.isFull with
    | true => exact .inl rfl
    | false => exact .inr rfl
  rcases hafter with hafter | hafter
  · rw [hafter]
    exact hs.step_aside hstage rfl rfl rfl rfl rfl rfl rfl (fun _ => rfl) (fun _ => rfl)
      (Kernel.Evolves.refl _) hs.tidy (fun e he => Option.some.inj he ▸ hd.keep (.refl ..) rfl)
      (.of_keeps (fun n => upon_loop choice n) fun _ _ => Kernel.Keeps.refl ..)
  · rw [hafter]
    exact hs.step_aside hstage rfl rfl rfl rfl rfl rfl rfl (fun _ => rfl) (fun _ => rfl)
      (Kernel.Evolves.refl _) hs.tidy (fun e he => Option.some.inj he ▸ hd.keep (.refl ..) rfl)
      (.of_keeps (fun n => upon_loop choice n) fun _ _ => Kernel.Keeps.refl ..)

/-- A client that is turned away is closed. It is the one step after which a descriptor is gone
that was no connection's. -/
theorem Orderly.step_refuse (hs : s.Orderly) {d : Int}
    (hstage : s.stage = .batch rest (.refuse d)) (choice : Nat) :
    Step (.loop choice) s (s.afterTask choice rest (.refuse d)) := by
  have hd : s.Candidate d := hs.candidate d (by rw [hstage]; rfl)
  obtain ⟨n, hn⟩ := hd.stream
  have hget := Kernel.get?_of_streamOf? hn
  have hpoll : s.hub.kernel.descriptors.get? d ≠ some .poll := by
    rw [hget]
    rintro ⟨⟩
  have hregistrations : ∀ e, (s.hub.kernel.close d).poll.registrations.get? e =
      s.hub.kernel.poll.registrations.get? e := by
    intro e
    by_cases he : e = d
    · rw [he, hd.registration]
      exact (Kernel.close_self _ d fun _ => hd.registration).2
    · exact (Kernel.leaves_close he hpoll).registration
  have htidy : (s.hub.kernel.close d).Tidy := by
    refine hs.tidy.of_same (Kernel.evolves_close ..) hregistrations fun e g hg he => ?_
    by_cases hed : e = d
    · rw [hed, hd.registration] at hg
      cases hg
    · rw [(Kernel.leaves_close hed hpoll).descriptor]
      exact he
  have hstage' : (s.afterTask choice rest (.refuse d)).stage = .batch rest .accept := rfl
  exact hs.step_aside hstage hstage' rfl rfl rfl rfl rfl rfl (fun _ => rfl)
    (fun h => hregistrations h.descriptor) (Kernel.evolves_close ..) htidy (by rintro d ⟨⟩)
    (.refused hstage hd rfl fun n => upon_loop choice n)

/-- The connection of a client that has been entered into the table is held by the loop. -/
theorem Candidate.entered {d : Int} {peer : Option SocketAddress} {hub : Hub}
    (hd : s.Candidate d) (hstage : s.stage = .batch rest (.enter d peer))
    (hvacant : s.Vacant ⟨d⟩) (hkernel : hub.kernel = s.hub.kernel)
    (hself : hub.connection? ⟨d⟩ = some c) :
    (s.afterHub hub rest (.register ⟨d⟩)).Standing ⟨d⟩ (.loop (.register ⟨d⟩)) c := by
  have hplaces : (s.afterHub hub rest (.register ⟨d⟩)).places ⟨d⟩ =
      (Holder.loop (.register ⟨d⟩)).places := by
    have hnone := hvacant.places
    rw [places, hstage] at hnone
    injection hnone with harmed hevents htask hqueued hjobs
    rw [places]
    dsimp only [afterHub, goTo, Stage.events, Stage.task?] at harmed hevents ⊢
    rw [hkernel, harmed, hevents, hqueued, hjobs]
    simp [Task.handle?, Holder.places]
  refine ⟨hself, hplaces, ?_, ?_, hd.nonneg, hd.lt_limit⟩
  · dsimp only [afterHub, goTo]
    rw [hkernel]
    exact hd.stream
  · dsimp only [afterHub, goTo]
    rw [hkernel, hd.registration]
    rfl

/-- What becomes of a client that is entered into the table: now its descriptor names a
connection, which the loop holds until it is registered. -/
theorem Orderly.step_enter (hs : s.Orderly) {d : Int} {peer : Option SocketAddress}
    (hstage : s.stage = .batch rest (.enter d peer)) (choice : Nat) :
    Step (.loop choice) s (s.afterTask choice rest (.enter d peer)) := by
  have hd : s.Candidate d := hs.candidate d (by rw [hstage]; rfl)
  -- the table has no slot for the number, or takes the connection
  rcases Hub.enter_cases s.hub d peer with ⟨-, e, heq⟩ |
    ⟨-, hub, heq, hkernel, hroot, hself, hothers⟩
  · have hafter : s.afterTask choice rest (.enter d peer) = s.afterHub s.hub rest (.refuse d) := by
      rw [afterTask, doTask, heq]
      rfl
    rw [hafter]
    exact hs.step_aside hstage rfl rfl rfl rfl rfl rfl rfl (fun _ => rfl) (fun _ => rfl)
      (Kernel.Evolves.refl _) hs.tidy (fun e he => Option.some.inj he ▸ hd.keep (.refl ..) rfl)
      (.of_keeps (fun n => upon_loop choice n) fun _ _ => Kernel.Keeps.refl ..)
  · have hafter : s.afterTask choice rest (.enter d peer) =
        s.afterHub hub rest (.register ⟨d⟩) := by
      rw [afterTask, doTask, heq]
      rfl
    -- nobody can have held the slot: its connection begins with this step
    have hvacant := hs.vacant_candidate hd
    have hstanding := hd.entered hstage hvacant hkernel hself
    have hkeeps : ∀ e, s.hub.kernel.Keeps (s.afterHub hub rest (.register ⟨d⟩)).hub.kernel e := by
      intro e
      dsimp only [afterHub, goTo]
      rw [hkernel]
      exact Kernel.Keeps.refl ..
    have honly : Only (.loop choice) (some ⟨d⟩) s (s.afterHub hub rest (.register ⟨d⟩)) := by
      refine .of_task hstage rfl (by rintro h ⟨⟩) (fun h hh => hh) rfl hroot (fun _ _ => rfl) rfl
        (fun h hne => hothers h fun heq => hne (congrArg some heq.symm)) (fun h _ => ?_)
        (.of_keeps (fun n => upon_loop choice n) fun d _ => hkeeps d)
      dsimp only [afterHub, goTo]
      rw [hkernel]
    rw [hafter]
    refine ⟨honly.listener, honly.root,
      .of_keeps (fun n => upon_loop choice n) fun d _ => hkeeps d, ?_, ?_, fun h hv => ?_,
      fun h τ c hs' => ?_, by rintro e ⟨⟩, hs.events_rest hstage⟩
    · dsimp only [afterHub, goTo]
      rw [hkernel]
      exact Kernel.Evolves.refl _
    · dsimp only [afterHub, goTo]
      rw [hkernel]
      exact hs.tidy
    -- the slots that were vacant
    · by_cases hh : h = ⟨d⟩
      · subst hh
        exact .inr ⟨rest, peer, hstage, hstanding⟩
      · exact .inl (honly.vacant (fun heq => hh (Option.some.inj heq).symm) hv)
    -- the connections that were open, none of which is the new one
    · have hne : some ⟨d⟩ ≠ some h := by
        intro heq
        obtain rfl := Option.some.inj heq
        exact hs'.not_vacant hvacant
      exact .stay (honly.stay hne hs') (honly.untouched hne hs')

/-! ## Events

The next event of the batch is taken, and its connection goes from the batch to the loop. -/

/-- What an event of a connection calls for. -/
theorem taskOf_of_owner {e : Event} (he : owner? e.token = some h) :
    taskOf e = eventTask h e.ready := by
  simp only [owner?] at he
  rw [taskOf]
  split at he
  · cases he
  · rename_i hother
    rw [not_or] at hother
    rw [if_neg hother.1, if_neg hother.2]
    dsimp only
    rw [Option.some.inj he]
    rfl

/-- What other events call for concerns no connection. -/
theorem taskOf_of_none {e : Event} (he : owner? e.token = none) :
    (taskOf e).handle? = none ∧ ∀ rest, (Stage.batch rest (taskOf e)).candidate? = none := by
  simp only [owner?] at he
  simp only [taskOf]
  split at he
  · rename_i hother
    split
    · exact ⟨rfl, fun _ => rfl⟩
    · rename_i hlistener
      rcases hother with hlistener' | hwaker
      · exact absurd hlistener' hlistener
      · rw [if_pos hwaker]
        exact ⟨rfl, fun _ => rfl⟩
  · cases he

/-- An event that has something to say calls for something to be done. -/
theorem eventTask_spec {r : Readiness} (hr : r.any = true) (h : Handle) :
    (eventTask h r).handle? = some h ∧ (Holder.loop (eventTask h r)).isRegistered = true ∧
      ∀ rest, (Stage.batch rest (eventTask h r)).candidate? = none := by
  simp only [eventTask]
  split
  · exact ⟨rfl, rfl, fun _ => rfl⟩
  · rename_i hover
    split
    · exact ⟨rfl, rfl, fun _ => rfl⟩
    · rename_i hinput
      split
      · exact ⟨rfl, rfl, fun _ => rfl⟩
      · rename_i houtput
        simp_all [Readiness.any, Readiness.isOver]

/-- A step from one task to the next in which nothing else changes. -/
def handOn (s : Server) (rest : List Event) (task : Task) : Server := s.goTo (.batch rest task)

/-- What has an event is open. -/
theorem Orderly.standing_event (hs : s.Orderly) {e : Event} (he : e ∈ s.stage.events)
    (howner : owner? e.token = some h) : ∃ c, s.Standing h (.event e.ready) c := by
  have hplace : e.ready ∈ (s.places h).events :=
    List.mem_map.mpr ⟨e, List.mem_filter.mpr ⟨he, decide_eq_true howner⟩, rfl⟩
  obtain ⟨τ, c, hstanding⟩ :=
    hs.standing (h := h) fun hnone => by rw [hnone] at hplace; cases hplace
  rw [hstanding.places] at hplace
  cases τ with
  | event ready =>
    obtain rfl := List.mem_singleton.mp hplace
    exact ⟨c, hstanding⟩
  | _ => cases hplace

/-- The events and the task of every other connection are the same. -/
theorem places_handOn {e : Event} (hstage : s.stage = .batch (e :: rest) .next)
    (howner : owner? e.token ≠ some h) (htask : (taskOf e).handle? ≠ some h) :
    (s.handOn rest (taskOf e)).places h = s.places h := by
  have htask' : (some (taskOf e)).filter (fun task => task.handle? = some h) = none := by
    rw [Option.filter_some, if_neg]
    simpa using htask
  rw [places, places, hstage]
  dsimp only [handOn, goTo, Stage.events, Stage.task?]
  rw [eventsFor_cons_ne howner, htask']
  rfl

/-- The connection of the event goes from the batch to the loop. -/
theorem Standing.looked {e : Event} (hs : s.Standing h (.event e.ready) c)
    (hstage : s.stage = .batch (e :: rest) .next) (howner : owner? e.token = some h)
    (hany : e.ready.any = true) :
    (s.handOn rest (taskOf e)).Standing h (.loop (eventTask h e.ready)) c := by
  obtain ⟨hhandle, hregistered, -⟩ := eventTask_spec hany h
  have hevents : (s.places h).events = e.ready :: eventsFor rest h := by
    rw [Server.places, hstage]
    exact eventsFor_cons_self howner rest
  rw [hs.places] at hevents
  -- no other event of the batch is this connection's
  obtain ⟨-, hrest⟩ := List.cons.inj hevents
  have hplaces : (s.handOn rest (taskOf e)).places h =
      (Holder.loop (eventTask h e.ready)).places := by
    have hsame := hs.places
    rw [Server.places, hstage] at hsame
    injection hsame with harmed _ _ hqueued hjobs
    rw [Server.places]
    dsimp only [Server.handOn, goTo, Stage.events, Stage.task?]
    rw [harmed, ← hrest, hqueued, hjobs, taskOf_of_owner howner, Option.filter_some,
      if_pos (by simpa using hhandle)]
    rfl
  refine ⟨hs.connection, hplaces, hs.stream, ?_, hs.nonneg, hs.lt_limit⟩
  rw [hregistered]
  exact hs.registration

/-- The loop looks at the next event. -/
theorem Orderly.step_look (hs : s.Orderly) {e : Event}
    (hstage : s.stage = .batch (e :: rest) .next) (choice : Nat) :
    Step (.loop choice) s (s.handOn rest (taskOf e)) := by
  have hmem : e ∈ s.stage.events := by
    rw [hstage]
    exact List.mem_cons_self
  have hevents : ∀ e' ∈ rest, e'.ready.any = true := by
    intro e' he'
    refine hs.events e' ?_
    rw [hstage]
    exact List.mem_cons_of_mem _ he'
  have hbeside : ∀ apart, Beside (.loop choice) s (s.handOn rest (taskOf e)) apart := fun _ =>
    .of_keeps (fun n => upon_loop choice n) fun _ _ => Kernel.Keeps.refl ..
  cases howner : owner? e.token with
  | none =>
    obtain ⟨htask, hcandidate⟩ := taskOf_of_none howner
    refine .of_none ⟨rfl, rfl, hbeside _, fun _ _ => rfl, fun h _ => places_handOn hstage ?_ ?_,
      fun _ _ _ _ _ => rfl⟩ (Kernel.Evolves.refl _) hs.tidy (fun d hd => ?_) hevents
    · rw [howner]
      rintro ⟨⟩
    · rw [htask]
      rintro ⟨⟩
    · have hnone : (Stage.batch rest (taskOf e)).candidate? = some d := hd
      rw [hcandidate] at hnone
      cases hnone
  | some g =>
    have htask := taskOf_of_owner howner
    have hany := hs.events e hmem
    obtain ⟨hhandle, -, hcandidate⟩ := eventTask_spec hany g
    obtain ⟨c, hstanding⟩ := hs.standing_event hmem howner
    have hstanding' := hstanding.looked hstage howner hany
    refine .of_acting ⟨rfl, rfl, hbeside _, fun _ _ => rfl,
      fun h hne => places_handOn hstage ?_ ?_, fun _ _ _ _ _ => rfl⟩ hstanding
      (.looked hstanding' (Kernel.Keeps.refl ..)) (Kernel.Evolves.refl _) hs.tidy (fun d hd => ?_)
      hevents
    · rw [howner]
      exact hne
    · rw [htask, hhandle]
      exact hne
    · have hnone : (Stage.batch rest (taskOf e)).candidate? = some d := hd
      rw [htask, hcandidate] at hnone
      cases hnone

/-- **What the loop does at a task is a step.** The cases are those of the task, and each has its
lemma above. -/
theorem Orderly.step_task (hs : s.Orderly) (hstage : s.stage = .batch rest task)
    (hnext : task ≠ .next) (choice : Nat) :
    Step (.loop choice) s (s.afterTask choice rest task) := by
  cases task with
  | next => exact absurd rfl hnext
  | accept => exact hs.step_accept hstage choice
  | consider d peer => exact hs.step_consider hstage choice
  | enter d peer => exact hs.step_enter hstage choice
  | refuse d => exact hs.step_refuse hstage choice
  | register h => exact hs.step_register hstage choice
  | giveUp h => exact hs.step_giveUp hstage choice
  | read h => exact hs.step_read hstage choice
  | submit h => exact hs.step_submit hstage choice
  | announce => exact hs.step_announce hstage choice
  | resume h => exact hs.step_resume hstage choice
  | rearm h interest => exact hs.step_rearm hstage choice
  | close h => exact hs.step_close hstage choice
  | drain => exact hs.step_drain hstage choice

end FileServer.Server
