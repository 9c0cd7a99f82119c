import FileServer.Server.State

/-!
# The steps of the event loop

The loop starts the workers, adds the listener and the wake-up pipe to the poll set, and then, as
long as no stop is requested, waits for events and looks at them one by one. An event of the
listener has it accept clients until there is none left or accepting fails; a client that is leaving
is closed before anything it sent is looked at. In the end the workers are told to finish, awaited,
and everything is closed.
-/

namespace FileServer.Server

/-- What an event calls for. -/
def taskOf (e : Event) : Task :=
  if e.token = listenerToken then .accept
  else if e.token = wakerToken then .drain
  else
    let h := Handle.ofToken e.token
    if e.ready.isOver then .close h
    else if e.ready.input then .read h
    else if e.ready.output then .resume h
    else .next

/-- The connection that a task visits. -/
def visited? : Task → Option Handle
  | .enter descriptor _ => some ⟨descriptor⟩
  | .giveUp h | .read h | .resume h | .close h => some h
  | _ => none

/-- What is left to do after a response was resumed. -/
def afterResume (h : Handle) (next : Option Next) : Task :=
  match next.bind (·.interest?) with
  | some interest => .rearm h interest
  | none => .next

/-- What is left to do after an attempt to read. -/
def afterRead (h : Handle) : Option Bool → Task
  | some true => .submit h
  | some false => .close h
  | none => .next

/-- Does a task; the result is the task that follows. Which of the sleeping workers an announcement
wakes is left open. -/
def doTask (choice : Nat) (s : Server) : Task → Task × Server
  | .next => (.next, s)
  | .accept =>
    match s.hub.kernel.accept s.listener with
    | (.accepted descriptor peer, kernel) => (.consider descriptor peer, s.withKernel kernel)
    | (.wouldBlock, kernel) => (.next, s.withKernel kernel)
    | (.failed _, kernel) => (.next, s.withKernel kernel)
  | .consider descriptor peer =>
    (if s.hub.isFull then .refuse descriptor else .enter descriptor peer, s)
  | .enter descriptor peer =>
    match s.hub.enter descriptor peer with
    | (.ok h, hub) => (.register h, { s with hub })
    | (.error _, hub) => (.refuse descriptor, { s with hub })
  | .refuse descriptor => (.accept, s.withKernel (s.hub.kernel.close descriptor))
  | .register h =>
    match s.hub.register h .read with
    | (.ok (), hub) => (.accept, { s with hub })
    | (.error _, hub) => (.giveUp h, { s with hub })
  | .giveUp h => (.accept, { s with hub := s.hub.close h })
  | .read h =>
    let (more, hub) := s.hub.visit h (Hub.onWire Connection.readAll)
    (afterRead h more, { s with hub })
  | .submit h =>
    match s.pool.push h with
    | .ok pool => (.announce, { s with pool })
    | .error _ => (.close h, s)
  | .announce => (.next, { s with pool := s.pool.post choice })
  | .resume h =>
    let (next, hub) := s.hub.runStep h (Hub.onWire Connection.resume)
    (afterResume h next, { s with hub })
  | .rearm h interest =>
    match s.hub.rearm h interest with
    | (.ok (), hub) => (.next, { s with hub })
    | (.error _, hub) => (.close h, { s with hub })
  | .close h => (.next, { s with hub := s.hub.close h })
  | .drain =>
    match s.hub.kernel.pipeRead s.wakerOut Kernel.drainStep with
    | (.data (_ :: _), kernel) => (.drain, s.withKernel kernel)
    | (_, kernel) => (.next, s.withKernel kernel)

/-- Starts to serve. The table and the queue are set up once there is a poll set. -/
def serve (s : Server) : Server :=
  match s.hub.kernel.createPoll with
  | (.error reason, kernel) => (s.withKernel kernel).leave (.over (.error (.system reason)))
  | (.ok poll, kernel) =>
    if hasMemory s.config then
      { s.withKernel kernel with poll, stage := .spawning s.config.workers }
    else (s.withKernel (kernel.close poll)).leave (.over (.error (.crash .sizeTooLarge)))

/-- Starts a worker. -/
def spawnWorker (s : Server) (left : Nat) : Server :=
  match s.hub.kernel.takeFault .spawnThread with
  | (some (.fail reason), kernel) =>
    (s.withKernel kernel).goTo (.stopping (.error (.system reason)))
  | (_, kernel) => { s.withKernel kernel with pool := s.pool.spawn, stage := .spawning left }

/-- Adds a descriptor to the poll set that reports every change. -/
def addStanding (s : Server) (descriptor : Int) (token : UInt64) (after : Stage) : Server :=
  match s.hub.kernel.pollAdd descriptor (standing token) with
  | (.error reason, kernel) => (s.withKernel kernel).goTo (.stopping (.error (.system reason)))
  | (.ok (), kernel) => (s.withKernel kernel).goTo after

/-- Begins to wait for events. -/
def beginWait (s : Server) : Server :=
  match s.hub.kernel.beginWait s.config.maxEvents with
  | (.waits, kernel) => (s.withKernel kernel).goTo .waiting
  | (.empty, kernel) => (s.withKernel kernel).goTo .checking
  | (.failed reason, kernel) => (s.withKernel kernel).goTo (.stopping (.error (.system reason)))

/-- Whether an event would end a wait. -/
def hasEvent (s : Server) : Bool := s.hub.kernel.poll.isReady s.hub.kernel.readiness

/-- Fetches events. -/
def fetch (s : Server) : Server :=
  let (events, kernel) := s.hub.kernel.collect s.config.maxEvents
  (s.withKernel kernel).goTo (.batch events .next)

/-- The next step of the loop, unless it has to wait or is not under way. -/
def loopStep (choice : Nat) (s : Server) : Option Server :=
  match s.stage with
  | .ready | .over _ | .dropped => none
  | .spawning 0 => some (s.goTo .addListener)
  | .spawning (left + 1) => some (s.spawnWorker left)
  | .addListener => some (s.addStanding s.listener listenerToken .addWaker)
  | .addWaker => some (s.addStanding s.wakerOut wakerToken .checking)
  | .checking => some (s.goTo (if s.stop.flag then .stopping (.ok ()) else .polling))
  | .polling => some s.beginWait
  | .waiting => if s.hasEvent then some s.fetch else none
  | .batch [] .next => some (s.goTo .checking)
  | .batch (e :: rest) .next => some (s.goTo (.batch rest (taskOf e)))
  | .batch rest task =>
    if (visited? task).any s.isHeld then none
    else
      let (task, s) := s.doTask choice task
      some (s.goTo (.batch rest task))
  | .stopping result =>
    some ({ s with pool := s.pool.stop }.goTo (.releasing s.pool.size result))
  | .releasing 0 result => some (s.goTo (.joining result))
  | .releasing (left + 1) result =>
    some ({ s with pool := s.pool.post choice }.goTo (.releasing left result))
  | .joining result =>
    if s.pool.isOver then some (s.goTo (.closing s.hub.slots.keys result)) else none
  | .closing [] result => some (s.goTo (.leaving result))
  | .closing (slot :: slots) result =>
    some ({ s with hub := s.hub.close ⟨slot⟩ }.goTo (.closing slots result))
  | .leaving result => some ((s.withKernel (s.hub.kernel.close s.poll)).leave (.over result))

end FileServer.Server
