import FileServer.Proofs.Kernel.WithSite
import FileServer.Proofs.Server.Ownership

/-!
# Hidden files stay hidden

Two servers that are in the same state, over sites that differ in hidden files only, cannot be told
apart by anyone who talks to them. A run of one is a run of the other, step by step
(`Server.run_withSite`): each step that is possible for one is possible for the other, does the same
to all but the site, and shows the same (`Server.Sight`): the answer that a request comes to, what
its connection needs next, and what has been written to each client. So nothing that clients send,
in whatever pieces, and nothing that the kernel lets fail, brings out a byte of a hidden file or its
length (`Server.hidden_files_leak_nothing`).

Only workers look at the site, and only when they answer a request. The steps of the loop go through
whatever the sites are.

The proof is one equation for each function of the model, from the calls of the kernel up to an
action: to put the other site under a state and then go on is to go on and then put the other site
under. Where a function does not look at the site the equation holds for any two sites, and where it
does they have to be alike.
-/

namespace FileServer

/-! ## Connections

Only to resolve a request is to look at the site. -/

namespace Hub

/-- The hub with other files. -/
def withSite (hub : Hub) (site : Site) : Hub := { hub with kernel := hub.kernel.withSite site }

variable {α : Type} {b : Site}

@[simp] theorem kernel_withSite (hub : Hub) : (hub.withSite b).kernel = hub.kernel.withSite b := rfl

theorem onWire_withSite (f : Connection → Wire → α × Connection × Wire) (c : Connection)
    (k : Kernel) :
    onWire f c (k.withSite b) =
      ((onWire f c k).1, (onWire f c k).2.1, (onWire f c k).2.2.withSite b) := by
  rw [onWire, onWire, Kernel.through_withSite]

/-- **The same answer**, found out in the same way. -/
theorem resolve_withSite {k : Kernel} (h : k.site.Alike b) (root : String)
    (outcome : Request.Outcome)
    (c : Connection) :
    resolve root outcome c (k.withSite b) =
      ((resolve root outcome c k).1, (resolve root outcome c k).2.withSite b) := by
  cases outcome with
  | complete => exact k.locate_withSite h root c.reader.target
  | incomplete => rfl
  | malformed => rfl

/-- A request is answered alike over both sites: the same answer is laid out, and as much of it is
sent. -/
theorem answer_withSite {k : Kernel} (h : k.site.Alike b) (root : String)
    (outcome : Request.Outcome)
    (c : Connection) :
    answer root outcome c (k.withSite b) =
      ((answer root outcome c k).1, (answer root outcome c k).2.1,
        (answer root outcome c k).2.2.withSite b) := by
  rw [answer, answer, resolve_withSite h]
  split
  · rfl
  · exact onWire_withSite _ _ _

variable (hub : Hub)

theorem connection?_withSite (h : Handle) :
    (hub.withSite b).connection? h = hub.connection? h := rfl

theorem enter_withSite (d : Int) (peer : Option SocketAddress) :
    (hub.withSite b).enter d peer = ((hub.enter d peer).1, (hub.enter d peer).2.withSite b) := by
  have hslot : (hub.withSite b).hasSlot d = hub.hasSlot d := rfl
  rw [enter, enter, hslot]
  split <;> rfl

theorem register_withSite (h : Handle) (interest : Interest) :
    (hub.withSite b).register h interest =
      ((hub.register h interest).1, (hub.register h interest).2.withSite b) := by
  rw [register, register, kernel_withSite, Kernel.pollAdd_withSite]
  rfl

theorem rearm_withSite (h : Handle) (interest : Interest) :
    (hub.withSite b).rearm h interest =
      ((hub.rearm h interest).1, (hub.rearm h interest).2.withSite b) := by
  rw [rearm, rearm, kernel_withSite, Kernel.pollModify_withSite]
  rfl

theorem close_withSite (h : Handle) : (hub.withSite b).close h = (hub.close h).withSite b := by
  rw [close, close, connection?_withSite]
  split
  · rw [tearDown, tearDown, kernel_withSite, Kernel.discard_withSite]
    rfl
  · rfl

/-- A visit goes through if what is done does. -/
theorem visit_withSite {f : Connection → Kernel → α × Connection × Kernel} (h : Handle)
    (hf : ∀ c, f c (hub.kernel.withSite b) =
      ((f c hub.kernel).1, (f c hub.kernel).2.1, (f c hub.kernel).2.2.withSite b)) :
    (hub.withSite b).visit h f = ((hub.visit h f).1, (hub.visit h f).2.withSite b) := by
  rw [visit, visit, connection?_withSite]
  split
  · rfl
  · rw [kernel_withSite, hf]
    rfl

theorem runStep_withSite {f : Connection → Kernel → Next × Connection × Kernel} (h : Handle)
    (hf : ∀ c, f c (hub.kernel.withSite b) =
      ((f c hub.kernel).1, (f c hub.kernel).2.1, (f c hub.kernel).2.2.withSite b)) :
    (hub.withSite b).runStep h f = ((hub.runStep h f).1, (hub.runStep h f).2.withSite b) := by
  rw [runStep, runStep, visit_withSite hub h hf]
  generalize hub.visit h f = x
  obtain ⟨_ | next, hub⟩ := x
  · rfl
  · cases next with
    | close => exact congrArg (Prod.mk _) (close_withSite hub h)
    | read => rfl
    | write => rfl

end Hub

/-! ## Steps of a server

One equation for each function, in the order in which they are made of one another. -/

namespace Server

/-- The server with other files. -/
def withSite (s : Server) (site : Site) : Server := { s with hub := s.hub.withSite site }

variable {b : Site} (s : Server)

@[simp] theorem hub_withSite : (s.withSite b).hub = s.hub.withSite b := rfl

@[simp] theorem config_withSite : (s.withSite b).config = s.config := rfl

@[simp] theorem pool_withSite : (s.withSite b).pool = s.pool := rfl

@[simp] theorem listener_withSite : (s.withSite b).listener = s.listener := rfl

@[simp] theorem wakerOut_withSite : (s.withSite b).wakerOut = s.wakerOut := rfl

@[simp] theorem wakerIn_withSite : (s.withSite b).wakerIn = s.wakerIn := rfl

@[simp] theorem poll_withSite : (s.withSite b).poll = s.poll := rfl

@[simp] theorem stage_withSite : (s.withSite b).stage = s.stage := rfl

@[simp] theorem stop_withSite : (s.withSite b).stop = s.stop := rfl

@[simp] theorem handles_withSite : (s.withSite b).handles = s.handles := rfl

theorem withKernel_withSite (k : Kernel) :
    (s.withSite b).withKernel (k.withSite b) = (s.withKernel k).withSite b := rfl

theorem goTo_withSite (stage : Stage) : (s.withSite b).goTo stage = (s.goTo stage).withSite b := rfl

theorem isHeld_withSite (h : Handle) : (s.withSite b).isHeld h = s.isHeld h := rfl

theorem closeWaker_withSite : (s.withSite b).closeWaker = s.closeWaker.withSite b := by
  rw [closeWaker, closeWaker, handles_withSite]
  split
  · rw [hub_withSite, Hub.kernel_withSite, Kernel.close_withSite, Kernel.close_withSite]
    rfl
  · rfl

theorem leave_withSite (stage : Stage) :
    (s.withSite b).leave stage = (s.leave stage).withSite b := by
  rw [leave, leave, hub_withSite, Hub.kernel_withSite, listener_withSite, Kernel.close_withSite,
    withKernel_withSite, goTo_withSite, closeWaker_withSite]

theorem serve_withSite : (s.withSite b).serve = s.serve.withSite b := by
  rw [serve, serve, hub_withSite, Hub.kernel_withSite, Kernel.createPoll_withSite]
  generalize s.hub.kernel.createPoll = x
  obtain ⟨reason | poll, k⟩ := x
  · exact leave_withSite (s.withKernel k) _
  · have hsame : (s.withSite b).config = s.config := rfl
    dsimp only
    rw [config_withSite]
    split
    · rfl
    · rw [Kernel.close_withSite, withKernel_withSite, leave_withSite]

theorem spawnWorker_withSite (left : Nat) :
    (s.withSite b).spawnWorker left = (s.spawnWorker left).withSite b := by
  rw [spawnWorker, spawnWorker, hub_withSite, Hub.kernel_withSite, Kernel.takeFault_withSite]
  generalize s.hub.kernel.takeFault .spawnThread = x
  obtain ⟨_ | _ | _, k⟩ := x <;> rfl

theorem addStanding_withSite (d : Int) (token : UInt64) (after : Stage) :
    (s.withSite b).addStanding d token after = (s.addStanding d token after).withSite b := by
  rw [addStanding, addStanding, hub_withSite, Hub.kernel_withSite, Kernel.pollAdd_withSite]
  generalize s.hub.kernel.pollAdd d (standing token) = x
  obtain ⟨_ | _, k⟩ := x <;> rfl

theorem beginWait_withSite : (s.withSite b).beginWait = s.beginWait.withSite b := by
  rw [beginWait, beginWait, hub_withSite, Hub.kernel_withSite, config_withSite,
    Kernel.beginWait_withSite]
  generalize s.hub.kernel.beginWait s.config.maxEvents = x
  obtain ⟨_ | _ | _, k⟩ := x <;> rfl

theorem fetch_withSite : (s.withSite b).fetch = s.fetch.withSite b := rfl

theorem hasEvent_withSite : (s.withSite b).hasEvent = s.hasEvent := rfl

/-- **No task of the loop looks at the site**, as requests are answered by workers. The cases are
those of the task. -/
theorem doTask_withSite (choice : Nat) (task : Task) :
    (s.withSite b).doTask choice task =
      ((s.doTask choice task).1, (s.doTask choice task).2.withSite b) := by
  cases task with
  | next => rfl
  -- each result is taken apart only after it is known to be the same in both runs
  | accept =>
    rw [doTask, doTask, hub_withSite, Hub.kernel_withSite, listener_withSite,
      Kernel.accept_withSite]
    generalize s.hub.kernel.accept s.listener = x
    obtain ⟨_ | _ | _, k⟩ := x <;> rfl
  | consider descriptor peer => rfl
  | enter descriptor peer =>
    rw [doTask, doTask, hub_withSite, Hub.enter_withSite]
    generalize s.hub.enter descriptor peer = x
    obtain ⟨_ | _, hub⟩ := x <;> rfl
  | refuse descriptor =>
    rw [doTask, doTask, hub_withSite, Hub.kernel_withSite, Kernel.close_withSite,
      withKernel_withSite]
  | register h =>
    rw [doTask, doTask, hub_withSite, Hub.register_withSite]
    generalize s.hub.register h .read = x
    obtain ⟨_ | _, hub⟩ := x <;> rfl
  | giveUp h =>
    rw [doTask, doTask, hub_withSite, Hub.close_withSite]
    rfl
  | read h =>
    rw [doTask, doTask, hub_withSite, Hub.visit_withSite s.hub h fun c => Hub.onWire_withSite _ c _]
    rfl
  | submit h =>
    rw [doTask, doTask, pool_withSite]
    split <;> rfl
  | announce => rfl
  | resume h =>
    rw [doTask, doTask, hub_withSite, Hub.runStep_withSite s.hub h fun c =>
      Hub.onWire_withSite _ c _]
    rfl
  | rearm h interest =>
    rw [doTask, doTask, hub_withSite, Hub.rearm_withSite]
    generalize s.hub.rearm h interest = x
    obtain ⟨_ | _, hub⟩ := x <;> rfl
  | close h =>
    rw [doTask, doTask, hub_withSite, Hub.close_withSite]
    rfl
  | drain =>
    rw [doTask, doTask, hub_withSite, Hub.kernel_withSite, wakerOut_withSite,
      Kernel.pipeRead_withSite]
    generalize s.hub.kernel.pipeRead s.wakerOut Kernel.drainStep = x
    obtain ⟨(_ | _) | _ | _, k⟩ := x <;> rfl

/-- Named pipes are no files, so a request waits for the same one over both sites. -/
theorem awaitedPipe?_withSite (h : s.hub.kernel.site.Alike b) (outcome : Request.Outcome)
    (c : Connection) : (s.withSite b).awaitedPipe? outcome c = s.awaitedPipe? outcome c := by
  rw [awaitedPipe?, awaitedPipe?]
  split
  · exact DocumentRoot.awaitedPipe?_alike h _ _
  · rfl

/-- The loop goes on alike over both sites, or can go on over neither. -/
theorem loopStep_withSite (choice : Nat) :
    (s.withSite b).loopStep choice = (s.loopStep choice).map (·.withSite b) := by
  cases hstage : s.stage with
  | spawning left =>
    cases left with
    | zero => simp only [loopStep, stage_withSite, hstage]; rfl
    | succ left =>
      simp only [loopStep, stage_withSite, hstage, spawnWorker_withSite, Option.map_some]
  | addListener =>
    simp only [loopStep, stage_withSite, hstage, listener_withSite, addStanding_withSite,
      Option.map_some]
  | addWaker =>
    simp only [loopStep, stage_withSite, hstage, wakerOut_withSite, addStanding_withSite,
      Option.map_some]
  | polling =>
    simp only [loopStep, stage_withSite, hstage, beginWait_withSite, Option.map_some]
  | waiting =>
    simp only [loopStep, stage_withSite, hstage]
    rw [hasEvent_withSite, fetch_withSite]
    split <;> rfl
  | batch rest task =>
    by_cases hnext : task = .next
    · subst hnext
      cases rest <;> (simp only [loopStep, stage_withSite, hstage]; rfl)
    · have hheld : (s.withSite b).isHeld = s.isHeld := rfl
      rw [loopStep_batch hstage hnext, loopStep_batch (s := s.withSite b) hstage hnext, afterTask,
        afterTask, doTask_withSite, hheld]
      split <;> rfl
  | joining result =>
    simp only [loopStep, stage_withSite, hstage]
    rw [pool_withSite]
    split <;> rfl
  | closing slots result =>
    cases slots with
    | nil => simp only [loopStep, stage_withSite, hstage]; rfl
    | cons slot slots =>
      simp only [loopStep, stage_withSite, hstage, hub_withSite, Hub.close_withSite]
      rfl
  | leaving result =>
    simp only [loopStep, stage_withSite, hstage, hub_withSite, Hub.kernel_withSite, poll_withSite,
      Kernel.close_withSite, withKernel_withSite, leave_withSite, Option.map_some]
  | releasing left result =>
    cases left <;> (simp only [loopStep, stage_withSite, hstage]; rfl)
  | _ =>
    simp only [loopStep, stage_withSite, hstage]
    rfl

/-- **A job goes on alike.** Only to answer a request is to look at the site, and there the sites
agree. -/
theorem jobStep_withSite (h : s.hub.kernel.site.Alike b) (i : Nat) (job : Job) :
    (s.withSite b).jobStep i job = (s.jobStep i job).map (·.withSite b) := by
  cases job with
  | parse g =>
    rw [jobStep, jobStep, isHeld_withSite]
    split
    · rfl
    · simp only [s.awaitedPipe?_withSite h]
      rw [hub_withSite, Hub.visit_withSite s.hub g fun c => rfl]
      generalize s.hub.visit g _ = x
      obtain ⟨_ | _, hub⟩ := x <;> rfl
  | answer g outcome awaited =>
    rw [jobStep, jobStep, hub_withSite, Hub.visit_withSite s.hub g fun c =>
      Hub.answer_withSite h _ _ c]
    split
    · rfl
    · have hroot : (s.hub.withSite b).root = s.hub.root := rfl
      rw [hroot]
      generalize s.hub.visit g (Hub.answer s.hub.root outcome) = x
      obtain ⟨_ | next, hub⟩ := x <;> rfl
  | close g =>
    rw [jobStep, jobStep, hub_withSite, Hub.close_withSite]
    rfl
  | rearm g interest =>
    rw [jobStep, jobStep, hub_withSite, Hub.rearm_withSite]
    generalize s.hub.rearm g interest = x
    obtain ⟨_ | _, hub⟩ := x <;> rfl
  | giveUp g =>
    rw [jobStep, jobStep, isHeld_withSite, hub_withSite, Hub.close_withSite]
    split <;> rfl

theorem workerStep_withSite (h : s.hub.kernel.site.Alike b) (i : Nat) :
    (s.withSite b).workerStep i = (s.workerStep i).map (·.withSite b) := by
  rw [workerStep, workerStep, pool_withSite]
  split
  · exact jobStep_withSite s h i _
  · cases s.pool.workerStep Job.parse i <;> rfl

theorem releaseHandle?_withSite :
    (s.withSite b).releaseHandle? = s.releaseHandle?.map (·.withSite b) := by
  rw [releaseHandle?, releaseHandle?, handles_withSite]
  split
  · rfl
  · next handles _ =>
    have hclose := closeWaker_withSite (b := b) { s with handles }
    have hgone : ({ s.withSite b with handles } : Server).isGone =
      ({ s with handles } : Server).isGone := rfl
    dsimp only
    rw [hgone, Option.map_some]
    split
    · exact congrArg some hclose
    · rfl

/-- Every action goes through. -/
theorem perform?_withSite (h : s.hub.kernel.site.Alike b) (action : Action) :
    (s.withSite b).perform? action = (s.perform? action).map (·.withSite b) := by
  cases action with
  | serve =>
    rw [perform?, perform?, serve?, serve?, stage_withSite]
    split
    · rw [serve_withSite, Option.map_some]
    · rfl
  | drop =>
    rw [perform?, perform?, drop?, drop?, stage_withSite]
    split
    · rw [leave_withSite, Option.map_some]
    · rfl
  | loop choice => exact s.loopStep_withSite choice
  | worker i => exact s.workerStep_withSite h i
  | requestStop =>
    rw [perform?, perform?, handles_withSite]
    split <;> rfl
  | wake =>
    rw [perform?, perform?, wake?, wake?, stop_withSite]
    split
    · rfl
    · rw [hub_withSite, Hub.kernel_withSite, wakerIn_withSite, Kernel.wake_withSite]
      rfl
  | releaseHandle =>
    rw [perform?, perform?, stop_withSite, handles_withSite]
    split
    · exact s.releaseHandle?_withSite
    · rfl
  | connect =>
    rw [perform?, perform?, connect, connect, hub_withSite, Hub.kernel_withSite, listener_withSite,
      Kernel.connect_withSite]
    rfl
  | client number action =>
    rw [perform?, perform?, asClient, asClient, hub_withSite, Hub.kernel_withSite,
      Kernel.asClient_withSite]
    rfl
  | openPipe place => rfl

/-- No action changes the files. -/
theorem site_perform? {t : Server} {action : Action} (hstep : s.perform? action = some t) :
    t.hub.kernel.site = s.hub.kernel.site := by
  -- the server's own files are others like any
  have hown := s.perform?_withSite (.refl s.hub.kernel.site) action
  have hself : s.withSite s.hub.kernel.site = s := rfl
  rw [hself, hstep, Option.map_some] at hown
  exact congrArg (·.hub.kernel.site) (Option.some.inj hown)

end Server

/-! ## What can be seen of a run

What is compared of the two runs: answers, what connections need next, and the bytes written to each
client. -/

/-- What can be seen of a step. -/
structure Sight where
  /-- the answer to a request, if one has been answered -/
  resolution : Option Resolution
  /-- what a connection needs next, if one has been answered or resumed -/
  next : Option Next
  /-- all that has been written to each client -/
  written : List Bytes
  deriving DecidableEq, Repr

namespace Server

/-- The answer that a step gives to a request. -/
def resolution? (s : Server) : Action → Option Resolution
  | .worker i =>
    match s.pool.workers[i]? with
    | some (.busy (.answer h outcome _)) =>
      if outcome = .incomplete then none
      else
        (s.hub.connection? h).map fun c => (Hub.resolve s.hub.root outcome c s.hub.kernel).1
    | _ => none
  | _ => none

/-- What a connection needs next that a step answers or resumes. -/
def next? (s : Server) : Action → Option Next
  | .worker i =>
    match s.pool.workers[i]? with
    | some (.busy (.answer h outcome _)) => (s.hub.visit h (Hub.answer s.hub.root outcome)).1
    | _ => none
  | .loop _ =>
    match s.stage with
    | .batch _ (.resume h) => (s.hub.runStep h (Hub.onWire Connection.resume)).1
    | _ => none
  | _ => none

/-- All that has been written to each client. -/
def written (s : Server) : List Bytes := s.hub.kernel.streams.map Stream.outbound

/-- What can be seen of a run; actions that are not possible are left out, as by `Server.after`. -/
def sights (s : Server) : List Action → List Sight
  | [] => []
  | action :: rest =>
    match s.perform? action with
    | none => s.sights rest
    | some t => ⟨s.resolution? action, s.next? action, t.written⟩ :: t.sights rest

variable {a b : Site}

/-- A step over both sites gives the same answer to a request. -/
theorem resolution?_withSite {s : Server} (h : s.hub.kernel.site.Alike b) (action : Action) :
    (s.withSite b).resolution? action = s.resolution? action := by
  cases action with
  | worker i =>
    have hroot : (s.hub.withSite b).root = s.hub.root := rfl
    rw [resolution?, resolution?, pool_withSite, hub_withSite]
    split
    · next g outcome _ _ =>
      rw [Hub.connection?_withSite, hroot, Hub.kernel_withSite]
      cases s.hub.connection? g with
      | none => rfl
      | some c =>
        rw [Option.map_some, Option.map_some, Hub.resolve_withSite h]
    · rfl
  | _ => rfl

/-- After a step over both sites the connection needs the same next. -/
theorem next?_withSite {s : Server} (h : s.hub.kernel.site.Alike b) (action : Action) :
    (s.withSite b).next? action = s.next? action := by
  cases action with
  | worker i =>
    have hroot : (s.hub.withSite b).root = s.hub.root := rfl
    rw [next?, next?, pool_withSite, hub_withSite]
    split
    · next g outcome _ _ =>
      rw [hroot, Hub.visit_withSite s.hub g fun c => Hub.answer_withSite h _ _ c]
    · rfl
  | loop choice =>
    rw [next?, next?, stage_withSite, hub_withSite]
    split
    · next g _ => rw [Hub.runStep_withSite s.hub g fun c => Hub.onWire_withSite _ c _]
    · rfl
  | _ => rfl

/-- A run over other files is the same run, if the files differ in what is hidden only. The
induction is on the actions; no step changes the files, so the sites go on to differ in the same
way. -/
theorem run_withSite {s : Server} (h : s.hub.kernel.site.Alike b) (actions : List Action) :
    (s.withSite b).sights actions = s.sights actions ∧
      (s.withSite b).after actions = (s.after actions).withSite b := by
  induction actions generalizing s with
  | nil => exact ⟨rfl, rfl⟩
  | cons action rest ih =>
    have hstep := s.perform?_withSite h action
    rw [sights, sights, after, after, List.foldl_cons, List.foldl_cons, hstep]
    cases hperform : s.perform? action with
    | none => exact ih h
    | some t =>
      have ht : t.hub.kernel.site.Alike b := by rwa [s.site_perform? hperform]
      obtain ⟨hsights, hafter⟩ := ih ht
      refine ⟨?_, hafter⟩
      dsimp only [Option.map_some]
      rw [hsights, resolution?_withSite h, next?_withSite h]
      rfl

/-- **Hidden files leak nothing.** Take a server in any state, over two sites that differ in nothing
but what is in files that others may not read, and let the same happen to it: the loop and the
workers take their steps in the same order, and clients connect, send, receive and leave alike.
Every request comes to the same answer, every connection needs the same next, every client is sent
the same bytes, and in the end the two servers differ in nothing but their files. -/
theorem hidden_files_leak_nothing (h : a.Alike b) (s : Server) (actions : List Action) :
    (s.withSite a).sights actions = (s.withSite b).sights actions ∧
      ((s.withSite a).after actions).withSite b = (s.withSite b).after actions := by
  have hrun := run_withSite (s := s.withSite a) (b := b) h actions
  exact ⟨hrun.1.symm, hrun.2.symm⟩

/-- A site with one file, which is hidden. -/
def keepingSecret (content : Bytes) : Site := Site.empty.put ["secret"] (.file 0o600 content)

/-- The first client asks for the hidden file and is answered. -/
def secretAsked : List Action :=
  firstClient ++ [.client 0 (.send (.ofText "GET /secret HTTP/1.1\r\n\r\n"))] ++
    List.replicate 12 (.loop 0) ++ List.replicate 6 (.worker 0)

/-- The first client asks for the hidden file and is refused, whatever is in it and however long
it is. -/
theorem hidden_files_leak_nothing_secret : ∃ start, ofListener listening 3 smallest = .ok start ∧
    (keepingSecret [0x31]).Alike (keepingSecret [0x32, 0x33]) ∧
    keepingSecret [0x31] ≠ keepingSecret [0x32, 0x33] ∧
    ((start.withSite (keepingSecret [0x31])).sights secretAsked).filterMap Sight.resolution =
      [.forbidden] ∧
    (start.withSite (keepingSecret [0x31])).sights secretAsked =
      (start.withSite (keepingSecret [0x32, 0x33])).sights secretAsked ∧
    ((start.withSite (keepingSecret [0x31])).after secretAsked).withSite
        (keepingSecret [0x32, 0x33]) =
      (start.withSite (keepingSecret [0x32, 0x33])).after secretAsked := by
  have halike : (keepingSecret [0x31]).Alike (keepingSecret [0x32, 0x33]) :=
    (Site.Alike.refl Site.empty).put_hidden rfl ["secret"] [0x31] [0x32, 0x33]
  exact ⟨_, rfl, halike, by decide, by decide +kernel,
    hidden_files_leak_nothing halike _ secretAsked⟩

end Server

end FileServer
