import FileServer.Proofs.Server.Life

/-!
# The steps of a worker

A worker takes the oldest handle from the queue, and has it until it has armed or closed the
connection. Whatever it does on the way it does to that connection alone, so that a step of a worker
is about the connection of its job, before and after.

A job that goes on with its connection goes through `Server.Orderly.step_job`, which asks what has
become of the hub, and where the connection is afterwards. Reading and answering a request are
visits, as for the loop; to arm the connection ends the job, and so does to close it. What is left
are the steps of a worker that has no job (`Server.Orderly.step_worker_idle`), and the one by which
it gets one (`Server.Orderly.step_take`).
-/

namespace FileServer

/-- The jobs are those of the workers. -/
theorem Pool.jobsFor_congr {p q : Pool Handle Job} (h : p.workers = q.workers) (g : Handle) :
    p.jobsFor g = q.jobsFor g := by
  rw [jobsFor, jobsFor, running, running, h]

namespace Server

variable {s t : Server} {h g : Handle} {τ : Holder} {c c' : Connection} {i : Nat}
  {job job' : Job} {w w' : Worker Job}

theorem upon_worker (i n : Nat) : (Action.worker i).upon n = id := rfl

/-! ## One worker

A step of a worker changes its own entry, and maybe one slot. -/

/-- A job changes nothing but the hub and the pool. -/
theorem jobStep_eq (hstep : s.jobStep i job = some t) :
    t = { s with hub := t.hub, pool := t.pool } := by
  cases job with
  | parse h =>
    simp only [jobStep] at hstep
    split at hstep
    · cases hstep
    · split at hstep <;> (obtain rfl := Option.some.inj hstep; rfl)
  | answer h outcome awaited =>
    simp only [jobStep] at hstep
    split at hstep
    · cases hstep
    · split at hstep <;> (obtain rfl := Option.some.inj hstep; rfl)
  | close h =>
    obtain rfl := Option.some.inj hstep
    rfl
  | rearm h interest =>
    simp only [jobStep] at hstep
    split at hstep <;> (obtain rfl := Option.some.inj hstep; rfl)
  | giveUp h =>
    simp only [jobStep] at hstep
    split at hstep
    · cases hstep
    · obtain rfl := Option.some.inj hstep
      rfl

/-- A worker changes nothing else either when it takes a permit or a handle. -/
theorem workerStep_eq (hstep : s.workerStep i = some t) :
    t = { s with hub := t.hub, pool := t.pool } := by
  simp only [workerStep] at hstep
  split at hstep
  · exact jobStep_eq hstep
  · obtain ⟨-, -, rfl⟩ := Option.map_eq_some_iff.mp hstep
    rfl

/-- The state after a worker has done something with the hub. -/
def afterJob (s : Server) (i : Nat) (hub : Hub) (w : Worker Job) : Server :=
  { s with hub, pool := s.pool.setWorker i w }

/-- A step of a worker is about the connection of its job, before and after. -/
theorem Only.of_worker {a : Action} {g : Option Handle} (hi : s.pool.workers[i]? = some w)
    (hw : ∀ job, w.job? = some job → g = some job.handle)
    (hw' : ∀ job, w'.job? = some job → g = some job.handle) (hstage : t.stage = s.stage)
    (hlistener : t.listener = s.listener) (hroot : t.hub.root = s.hub.root)
    (hqueue : ∀ h, g ≠ some h → t.pool.queue.count h = s.pool.queue.count h)
    (hworkers : t.pool.workers = s.pool.workers.set i w')
    (hconnection : ∀ h, g ≠ some h → t.hub.connection? h = s.hub.connection? h)
    (hregistration : ∀ h, g ≠ some h → t.hub.kernel.poll.registrations.get? h.descriptor =
      s.hub.kernel.poll.registrations.get? h.descriptor)
    (hbeside : Beside a s t fun d => ∀ h, g = some h → h.descriptor ≠ d) :
    Only a g s t := by
  refine ⟨hlistener, hroot, hbeside, hconnection, fun h hne => ?_,
    fun h _ _ hne _ => hregistration h hne⟩
  have hjobs : t.pool.jobsFor h = s.pool.jobsFor h := by
    have hset : t.pool.jobsFor h = (s.pool.setWorker i w').jobsFor h :=
      Pool.jobsFor_congr hworkers h
    rw [hset]
    refine Pool.jobsFor_setWorker_ne hi (fun job hjob heq => ?_) fun job hjob heq => ?_
    · exact hne (heq ▸ hw job hjob)
    · exact hne (heq ▸ hw' job hjob)
  rw [Server.places, Server.places, hstage, hqueue h hne, hjobs, DescriptorMap.armed,
    DescriptorMap.armed, hregistration h hne]

/-- What is found about the connection of a job after it. -/
theorem Standing.places_worker (hs : s.Standing job.handle (.worker job) c)
    (hi : s.pool.workers[i]? = some (.busy job)) (hub : Hub) (w' : Worker Job) :
    (s.afterJob i hub w').places job.handle =
      { armed := hub.kernel.poll.registrations.armed job.handle
        jobs := w'.job?.toList.filter (·.handle = job.handle) } := by
  have hevents : (s.places job.handle).events = [] := congrArg Places.events hs.places
  have htask : (s.places job.handle).task = none := congrArg Places.task hs.places
  have hqueued : (s.places job.handle).queued = 0 := congrArg Places.queued hs.places
  have hjobs : (s.places job.handle).jobs = [job] := congrArg Places.jobs hs.places
  rw [Server.places] at hevents htask hqueued hjobs
  dsimp only at hevents htask hqueued hjobs
  have hset : (s.pool.setWorker i w').queue = s.pool.queue := rfl
  rw [Server.places, afterJob]
  dsimp only
  rw [hevents, htask, hset, hqueued, Pool.jobsFor_setWorker_self hi hjobs]

/-- A connection that a worker has is not armed, so the loop has no event of it to fetch. -/
theorem Standing.not_armed_worker (hs : s.Standing h (.worker job) c) :
    s.hub.kernel.poll.registrations.armed h = none :=
  congrArg Places.armed hs.places

/-- A worker goes on with a job. -/
theorem Orderly.step_job {hub : Hub} (hs : s.Orderly)
    (hstanding : s.Standing job.handle (.worker job) c)
    (hi : s.pool.workers[i]? = some (.busy job)) (hv : s.About job.handle hub)
    (hw' : ∀ job', w'.job? = some job' → job'.handle = job.handle)
    (hpassage : Passage (.worker i) s (s.afterJob i hub w') job.handle (.worker job) c) :
    Step (.worker i) s (s.afterJob i hub w') := by
  have honly : Only (.worker i) (some job.handle) s (s.afterJob i hub w') := by
    refine .of_worker hi ?_ (fun job' hjob' => congrArg some (hw' job' hjob').symm) rfl rfl hv.root
      (fun _ _ => rfl) rfl hv.others
      (fun _ hne => (hv.leaves _ (descriptor_ne hne)).registration)
      (.of_keeps (fun n => upon_worker i n) fun d hd => (hv.leaves d (hd _ rfl).symm).toKeeps)
    rintro job' hjob'
    exact congrArg some (congrArg Job.handle (Option.some.inj hjob'))
  refine .of_acting honly hstanding hpassage hv.evolves hv.tidy (fun d hd => ?_) hs.events
  have hcandidate := hs.candidate d hd
  have hne := hcandidate.ne hstanding
  exact hcandidate.keep (hv.leaves d hne)
    (hv.others ⟨d⟩ fun heq => hne (congrArg Handle.descriptor (Option.some.inj heq)).symm)

/-- A worker has visited the connection of its job, and goes on with another job about it. -/
theorem Standing.goOn {hub : Hub} (hs : s.Standing job.handle (.worker job) c)
    (hi : s.pool.workers[i]? = some (.busy job)) (hv : s.Visited job.handle hub c')
    (hjob' : job'.handle = job.handle) :
    (s.afterJob i hub (.busy job')).Standing job.handle (.worker job') c' := by
  obtain ⟨n, hn⟩ := hs.stream
  have harmed : hub.kernel.poll.registrations.armed job.handle = none := by
    rw [DescriptorMap.armed, hv.registration]
    exact hs.not_armed_worker
  refine ⟨hv.connection, ?_, ⟨n, (Kernel.streamOf?_congr hv.descriptor).trans hn⟩, ?_, hs.nonneg,
    hs.lt_limit⟩
  · rw [hs.places_worker hi, harmed]
    simp [Worker.job?, hjob', Holder.places]
  · exact (congrArg Option.isSome hv.registration).trans hs.registration

/-- A worker has closed the connection of its job. -/
theorem Standing.worker_vacant {hub : Hub} (hs : s.Standing job.handle (.worker job) c)
    (hi : s.pool.workers[i]? = some (.busy job)) (hv : s.Closed job.handle hub) :
    (s.afterJob i hub .waiting).Vacant job.handle := by
  refine ⟨hv.connection, ?_⟩
  rw [hs.places_worker hi, DescriptorMap.armed, hv.registration]
  rfl

/-! ## Jobs

What a worker does at each job, from parsing to arming or closing. -/

/-- A visit that leaves the kernel alone. -/
theorem Standing.visited_write (hs : s.Orderly) (hstanding : s.Standing h τ c)
    (hd : c'.descriptor = c.descriptor) : s.Visited h (s.hub.put h c' s.hub.kernel) c' :=
  ⟨⟨rfl, fun _ hne => Hub.connection?_put_ne (fun heq => hne (congrArg some heq.symm)) _ _,
    fun _ _ => .refl .., .refl _, hs.tidy⟩,
    Hub.connection?_put_self hstanding.connection hd _, rfl, rfl⟩

/-- A worker reads the request. It has the connection to itself, and what it reads is in the
buffer. -/
theorem Orderly.step_parse (hs : s.Orderly) (hi : s.pool.workers[i]? = some (.busy (.parse h)))
    (hstep : s.jobStep i (.parse h) = some t) : Step (.worker i) s t := by
  obtain ⟨c, hstanding⟩ := hs.standing_job hi
  rcases hparse : c.parse with ⟨outcome, c'⟩
  have hkeep : c'.descriptor = c.descriptor := by
    have hc' := congrArg (fun r => r.2.descriptor) hparse
    exact hc'.symm
  have hv := hstanding.visited_write hs hkeep
  have hconnection : s.hub.connection? h = some c := hstanding.connection
  simp only [Server.jobStep, Hub.visit_of_some hconnection, hparse] at hstep
  split at hstep
  · cases hstep
  · obtain rfl := Option.some.inj hstep
    exact hs.step_job hstanding hi hv.toAbout (by rintro _ ⟨⟩; rfl)
      (.parsed hparse (hstanding.goOn hi hv rfl) (.refl ..))

/-- A worker answers the request, and goes on to what the answer calls for: to arm the connection,
or to close it. -/
theorem Orderly.step_answer (hs : s.Orderly) {outcome : Request.Outcome}
    {awaited : Option (List String)}
    (hi : s.pool.workers[i]? = some (.busy (.answer h outcome awaited)))
    (hstep : s.jobStep i (.answer h outcome awaited) = some t) : Step (.worker i) s t := by
  obtain ⟨c, hstanding⟩ := hs.standing_job hi
  rcases hanswer : Hub.answer s.hub.root outcome c s.hub.kernel with ⟨next, c', k⟩
  have hv : s.Visited h (s.hub.put h c' k) c' := by
    simp only [Hub.answer] at hanswer
    split at hanswer
    · obtain ⟨rfl, rfl, rfl⟩ : next = .read ∧ c' = c ∧ k = s.hub.kernel := by simp_all
      exact hstanding.visited_write hs rfl
    -- resolving opens descriptors that were free, so no connection's can be among them
    · rcases hresolve : Hub.resolve s.hub.root outcome c s.hub.kernel with ⟨r, k'⟩
      have hlocate := Kernel.locate_spec (hs.tidy.unregistered s.hub.kernel.nextDescriptor_free)
        s.hub.root c.reader.target
      have hk' : s.hub.kernel.Evolves k' ∧ ∀ d, s.hub.kernel.Leaves k' d := by
        cases outcome with
        | complete =>
          simp only [Hub.resolve] at hresolve
          rw [hresolve] at hlocate
          exact hlocate
        | incomplete =>
          obtain ⟨-, rfl⟩ := Prod.mk.inj hresolve
          exact ⟨.refl _, .refl _⟩
        | malformed =>
          obtain ⟨-, rfl⟩ := Prod.mk.inj hresolve
          exact ⟨.refl _, .refl _⟩
      have hv := hstanding.visited_put hk'.1 hk'.2 (hs.tidy.of_leaves hk'.1 hk'.2)
        (Connection.stays_respond r)
      rw [hresolve] at hanswer
      dsimp only at hanswer
      rw [hanswer] at hv
      exact hv
  have hconnection : s.hub.connection? h = some c := hstanding.connection
  simp only [Server.jobStep, Hub.visit_of_some hconnection, hanswer] at hstep
  split at hstep
  · cases hstep
  -- the worker goes on only when there is no pipe left whose other end it awaits
  · rename_i hawaited
    obtain rfl : awaited = none := by simpa using hawaited
    obtain rfl := Option.some.inj hstep
    have hhandle : (afterAnswer h next).handle = h := by
      cases next <;> rfl
    refine hs.step_job hstanding hi hv.toAbout ?_
      (.answered hanswer (hstanding.goOn hi hv hhandle))
    rintro _ ⟨⟩
    exact hhandle

/-- A worker closes the connection. -/
theorem Orderly.step_closing (hs : s.Orderly) (hi : s.pool.workers[i]? = some (.busy job))
    (hjob : (Holder.worker job).Closes job.handle) :
    Step (.worker i) s (s.afterJob i (s.hub.close job.handle) .waiting) := by
  obtain ⟨c, hstanding⟩ := hs.standing_job hi
  have hv := (hs.visited hstanding).close hstanding
  exact hs.step_job hstanding hi hv.toAbout (by rintro _ ⟨⟩)
    (.closed hjob (hstanding.worker_vacant hi hv) (Hub.close_kernel hstanding.connection))

/-- A worker arms the connection, which from then on is the loop's to have events of; or it
cannot, and goes on to close it. -/
theorem Orderly.step_arming (hs : s.Orderly) {interest : Interest}
    (hi : s.pool.workers[i]? = some (.busy (.rearm h interest)))
    (hstep : s.jobStep i (.rearm h interest) = some t) : Step (.worker i) s t := by
  obtain ⟨c, hstanding⟩ := hs.standing_job hi
  obtain ⟨n, hn⟩ : ∃ n, s.hub.kernel.descriptors.get? h.descriptor = some (.stream n) :=
    hstanding.descriptor
  -- the descriptor is open and registered, so only an injected failure is left
  rcases Kernel.pollModify_cases hs.tidy.honest h.descriptor (h.registration interest) with
    ⟨reason, k, heq, hquiet, hfails⟩ | ⟨k, heq, hregisters, -⟩
  · have hfails' : s.hub.kernel.ControlFails := by
      rcases hfails with hfails | hnone | hnone
      · exact hfails
      · cases hn.symm.trans hnone
      · have hregistration := hstanding.registration
        rw [Job.handle, hnone] at hregistration
        cases hregistration
    have hv : s.Visited h { s.hub with kernel := k } c :=
      ⟨⟨rfl, fun _ _ => rfl, fun d _ => hquiet.leaves d, hquiet.evolves, hs.tidy.quiet hquiet⟩,
        hstanding.connection, (hquiet.leaves _).descriptor, (hquiet.leaves _).registration⟩
    simp only [Server.jobStep, Hub.rearm, heq] at hstep
    obtain rfl := Option.some.inj hstep
    exact hs.step_job hstanding hi hv.toAbout (by rintro _ ⟨⟩; rfl)
      (.unarmed (.worker interest) hfails' (hstanding.goOn hi hv rfl) (hquiet.leaves _).toKeeps)
  · have htidy := hs.tidy.registers hregisters (by rw [hn]; rfl)
      (Handle.registration_names hstanding.nonneg hstanding.lt_limit interest)
    have hv : s.About h { s.hub with kernel := k } :=
      ⟨rfl, fun _ _ => rfl, fun d hd => hregisters.leaves hd, hregisters.evolves, htidy⟩
    simp only [Server.jobStep, Hub.rearm, heq] at hstep
    obtain rfl := Option.some.inj hstep
    obtain ⟨m, hm⟩ := hstanding.stream
    have hstanding' : (s.afterJob i { s.hub with kernel := k } .waiting).Standing h
        (.poll interest) c := by
      refine ⟨hstanding.connection, ?_, ⟨m, (hregisters.same.streamOf? _).trans hm⟩,
        congrArg Option.isSome hregisters.self, hstanding.nonneg, hstanding.lt_limit⟩
      refine (hstanding.places_worker hi { s.hub with kernel := k } .waiting).trans ?_
      dsimp only [Job.handle]
      rw [DescriptorMap.armed, hregisters.self]
      rfl
    exact hs.step_job hstanding hi hv (by rintro _ ⟨⟩)
      (.armed (.worker interest) hstanding' (hregisters.keeps _))

/-! ## The queue

A worker without a job changes no place, until it takes a handle from the queue. -/

/-- A worker that is at nothing changes only what it is doing itself. -/
theorem Orderly.step_worker_idle (hs : s.Orderly) (hi : s.pool.workers[i]? = some w)
    (hw : w.job? = none) (hw' : w'.job? = none) (available : Semaphore) :
    Step (.worker i) s { s with pool := { s.pool with available }.setWorker i w' } := by
  refine .of_none (.of_worker hi (fun job hjob => ?_) (fun job hjob => ?_) rfl rfl rfl
    (fun _ _ => rfl) rfl (fun _ _ => rfl) (fun _ _ => rfl)
    (.of_keeps (fun n => upon_worker i n) fun _ _ => .refl ..)) (.refl _) hs.tidy
    (fun d hd => (hs.candidate d hd).keep (.refl ..) rfl) hs.events
  · rw [hw] at hjob
    cases hjob
  · rw [hw'] at hjob
    cases hjob

/-- A worker takes the oldest handle from the queue. It is in the queue once, so it is in no place
but the worker's job then. -/
theorem Orderly.step_take (hs : s.Orderly) (hi : s.pool.workers[i]? = some .fetching)
    {queue : List Handle} (hqueue : s.pool.queue = h :: queue) :
    Step (.worker i) s
      { s with pool := { s.pool with queue }.setWorker i (.busy (.parse h)) } := by
  have hpos : 0 < (s.places h).queued := by
    have hcount : (s.places h).queued = (h :: queue).count h := congrArg (List.count h) hqueue
    rw [hcount, List.count_cons_self]
    exact Nat.succ_pos _
  obtain ⟨τ, c, hstanding⟩ := hs.standing (h := h) fun hnone => by
    rw [hnone] at hpos
    exact Nat.lt_irrefl _ hpos
  -- of all holders only the queue has handles that are queued
  have hτ : τ = .queue := by
    rw [hstanding.places] at hpos
    cases τ with
    | queue => rfl
    | poll interest => exact absurd hpos (Nat.lt_irrefl _)
    | event ready => exact absurd hpos (Nat.lt_irrefl _)
    | loop task => exact absurd hpos (Nat.lt_irrefl _)
    | worker job => exact absurd hpos (Nat.lt_irrefl _)
  subst hτ
  have honce : queue.count h = 0 := by
    have hone : (s.places h).queued = 1 := congrArg Places.queued hstanding.places
    have hcount : (s.places h).queued = (h :: queue).count h := congrArg (List.count h) hqueue
    rw [hcount, List.count_cons_self] at hone
    exact Nat.succ_inj.mp hone
  have hjobs : s.pool.jobsFor h = [] := congrArg Places.jobs hstanding.places
  have hjobs' : ({ s.pool with queue }.setWorker i (.busy (.parse h))).jobsFor h = [.parse h] := by
    have hnone : Pool.jobsFor { s.pool with queue } (Job.parse h).handle = [] := hjobs
    exact Pool.jobsFor_setWorker_new (p := { s.pool with queue }) hi rfl hnone
  have hplaces : Server.places
      { s with pool := { s.pool with queue }.setWorker i (.busy (.parse h)) } h =
      (Holder.worker (.parse h)).places := by
    have hsame := hstanding.places
    rw [places] at hsame
    injection hsame with harmed hevents htask
    rw [places]
    dsimp only
    rw [harmed, hevents, htask, hjobs']
    exact congrArg (fun queued => ({ queued, jobs := [.parse h] } : Places)) honce
  refine .of_acting (g := h) (.of_worker hi (by rintro _ ⟨⟩) (by rintro _ ⟨⟩; rfl) rfl rfl rfl
    (fun g hne => ?_) rfl (fun _ _ => rfl) (fun _ _ => rfl)
    (.of_keeps (fun n => upon_worker i n) fun _ _ => .refl ..)) hstanding
      (.taken ⟨hstanding.connection,
    hplaces, hstanding.stream, hstanding.registration, hstanding.nonneg, hstanding.lt_limit⟩
    (.refl ..)) (.refl _) hs.tidy (fun d hd => (hs.candidate d hd).keep (.refl ..) rfl) hs.events
  rw [hqueue, List.count_cons_of_ne fun heq => hne (congrArg some heq)]
  rfl

/-! ## All steps of a worker -/

/-- **What a worker does at a job is a step.** The cases are those of the job. -/
theorem Orderly.jobStep (hs : s.Orderly) (hi : s.pool.workers[i]? = some (.busy job))
    (hstep : s.jobStep i job = some t) : Step (.worker i) s t := by
  cases job with
  | parse h => exact hs.step_parse hi hstep
  | answer h outcome awaited => exact hs.step_answer hi hstep
  | close h =>
    obtain rfl := Option.some.inj hstep
    exact hs.step_closing hi .worker
  | rearm h interest => exact hs.step_arming hi hstep
  | giveUp h =>
    simp only [Server.jobStep] at hstep
    split at hstep
    · cases hstep
    · obtain rfl := Option.some.inj hstep
      exact hs.step_closing hi .unarmed

/-- Every step of a worker is a step. -/
theorem Orderly.workerStep (hs : s.Orderly) (hstep : s.workerStep i = some t) :
    Step (.worker i) s t := by
  simp only [Server.workerStep] at hstep
  split at hstep
  · rename_i job hi
    exact hs.jobStep hi hstep
  · rename_i hbusy
    obtain ⟨⟨item, pool⟩, hpool, rfl⟩ := Option.map_eq_some_iff.mp hstep
    simp only [Pool.workerStep] at hpool
    split at hpool
    · rename_i hi
      split at hpool
      · rename_i available _
        obtain ⟨-, rfl⟩ := Prod.mk.inj (Option.some.inj hpool)
        exact hs.step_worker_idle hi rfl rfl _
      · rename_i available _
        obtain ⟨-, rfl⟩ := Prod.mk.inj (Option.some.inj hpool)
        -- a spurious wake-up: the worker is put back where it was
        have hsame : { s.pool with available } =
            { s.pool with available }.setWorker i .waiting := by
          obtain ⟨_, hget⟩ := List.getElem?_eq_some_iff.mp hi
          rw [Pool.setWorker, ← hget, List.set_getElem_self]
        rw [hsame]
        exact hs.step_worker_idle hi rfl rfl _
      · cases hpool
    · rename_i hi
      obtain ⟨-, rfl⟩ := Prod.mk.inj (Option.some.inj hpool)
      refine hs.step_worker_idle hi rfl ?_ s.pool.available
      split <;> rfl
    · rename_i hi
      split at hpool
      · obtain ⟨-, rfl⟩ := Prod.mk.inj (Option.some.inj hpool)
        exact hs.step_worker_idle hi rfl rfl _
      · rename_i h queue hqueue
        obtain ⟨-, rfl⟩ := Prod.mk.inj (Option.some.inj hpool)
        exact hs.step_take hi hqueue
    · cases hpool

end Server

end FileServer
