import FileServer.Proofs.Ledger
import FileServer.Proofs.Server.Rounds
import FileServer.Server.Run

/-!
# Noting what is done to descriptors

The operations of kernel, hub and server once more, with what they do to descriptors noted where it
is done: a call notes the descriptors that it is made on, obtains or closes, and what is built from
calls is built in the same way from noted calls. What is not written out here makes no call on a
descriptor. Each operation comes to what the plain one does (`Noted.value_bindServer`,
`Noted.value_ofListener`, `Noted.value_perform?`), so every step of a server has its entries
(`Server.entries`).

What is noted includes calls on the poll set, and what is done through a wire counts as one call
even if that reads or writes more than once.
-/

namespace FileServer

/-- A result, and what was done to descriptors on the way to it. -/
structure Noted (α : Type) where
  value : α
  entries : Ledger := []

namespace Noted

variable {α β : Type}

instance : Monad Noted where
  pure a := ⟨a, []⟩
  bind x f := ⟨(f x.value).value, x.entries ++ (f x.value).entries⟩

/-- A call on a descriptor. -/
def call (d : Int) (result : α) : Noted α := ⟨result, [.used d]⟩

/-- A call on the poll set that concerns a descriptor. -/
def control (poll d : Int) (result : α) : Noted α := ⟨result, [.used poll, .used d]⟩

/-! ## The kernel -/

/-- The lowest free number is obtained. -/
def allocate (k : Kernel) (resource : Resource) : Noted (Int × Kernel) :=
  ⟨k.allocate resource, [.opened (k.allocate resource).1]⟩

/-- A descriptor is closed, whether or not anything stood behind it. -/
def close (k : Kernel) (d : Int) : Noted Kernel := ⟨k.close d, [.closed d]⟩

/-- A descriptor is taken out of the poll set, which is a call on both, and closed. -/
def discard (poll : Int) (k : Kernel) (d : Int) : Noted Kernel := do
  let (_, k) ← control poll d (k.pollDelete d)
  close k d

/-- A call on the listener. Only if a client is accepted is a descriptor obtained. -/
def accept (k : Kernel) (listener : Int) : Noted (Kernel.AcceptResult × Kernel) where
  value := k.accept listener
  entries := .used listener ::
    match (k.accept listener).1 with
    | .accepted d _ => [.opened d]
    | _ => []

/-- A poll set is obtained, or nothing is. -/
def createPoll (k : Kernel) : Noted (Except Errno Int × Kernel) where
  value := k.createPoll
  entries :=
    match k.createPoll.1 with
    | .ok d => [.opened d]
    | .error _ => []

/-- Both ends of a pipe are obtained, the one to read from first, or neither is. -/
def createPipe (k : Kernel) : Noted (Except ServerError (Int × Int) × Kernel) where
  value := k.createPipe
  entries :=
    match k.createPipe.1 with
    | .ok (out, into) => [.opened out, .opened into]
    | .error _ => []

/-- A socket is closed if what was tried on it fails, so that nothing is left of an attempt to set
it up. -/
def orClose (d : Int) : Except Errno Unit × Kernel → Noted (Except ServerError Unit × Kernel)
  | (.error reason, k) => do
    let k ← close k d
    pure (.error (.system reason), k)
  | (.ok (), k) => pure (.ok (), k)

/-- What follows if an attempt does not fail. -/
def andThen {ε : Type} (x : Noted (Except ε α × Kernel))
    (f : α → Kernel → Noted (Except ε β × Kernel)) :
    Noted (Except ε β × Kernel) := do
  match ← x with
  | (.error e, k) => pure (.error e, k)
  | (.ok a, k) => f a k

/-- The three calls that make a listener of a socket. Each of them closes it if it fails. -/
def listenOn (k : Kernel) (d : Int) (address : SocketAddress) :
    Noted (Except ServerError Unit × Kernel) :=
  andThen (call d k.setOption >>= orClose d) fun _ k =>
    andThen (call d (k.bind d address) >>= orClose d) fun _ k =>
      call d (k.listen d) >>= orClose d

/-- A listener is opened for a host and a port. The address is looked at first, so one that is wrong
costs no descriptor. -/
def openListener (k : Kernel) (host : String) (port : UInt16) :
    Noted (Except ServerError Int × Kernel) :=
  match SocketAddress.parse? (hostAndPort host port) with
  | none => pure (.error .addressSyntax, k)
  | some address =>
    match k.takeFault .socket with
    | (some (.fail reason), k) => pure (.error (.system reason), k)
    | (_, k) => do
      let (d, k) ← allocate k (.socket none)
      andThen (listenOn k d address) fun _ k => pure (.ok d, k)

/-- A file is opened, mapped and closed again; the mapping outlives the descriptor. -/
def locate (k : Kernel) (root url : String) : Noted (Resolution × Kernel) :=
  match DocumentRoot.lookUp k.site root url with
  | .error r => pure (r, k)
  | .ok content => do
    let (d, k) ← allocate k .file
    let (r, k) ← call d (k.mapFile content)
    let k ← close k d
    pure (r, k)

/-! ## The hub -/

/-- What a connection does through its descriptor, as one call on it. -/
def onWire (f : Connection → Wire → α × Connection × Wire) (c : Connection) (k : Kernel) :
    Noted (α × Connection × Kernel) :=
  call c.descriptor (Hub.onWire f c k)

/-- How a request is to be answered. Only a complete one has a file looked up for it. -/
def resolve (root : String) (outcome : Request.Outcome) (c : Connection) (k : Kernel) :
    Noted (Resolution × Kernel) :=
  match outcome with
  | .complete => locate k root c.reader.target
  | _ => pure (.badRequest, k)

/-- A request is answered, unless more of it is waited for. -/
def answer (root : String) (outcome : Request.Outcome) (c : Connection) (k : Kernel) :
    Noted (Next × Connection × Kernel) :=
  if outcome = .incomplete then pure (.read, c, k)
  else do
    let (r, k) ← resolve root outcome c k
    onWire (·.respond r) c k

/-- A connection is closed: its descriptor is discarded, and one connection fewer is counted. -/
def tearDown (poll : Int) (hub : Hub) (c : Connection) : Noted Hub := do
  let kernel ← discard poll hub.kernel c.descriptor
  pure { hub with kernel, slots := hub.slots.set c.descriptor c.release, live := hub.live - 1 }

/-- The connection that a handle names is closed, if it names one. -/
def closeHandle (poll : Int) (hub : Hub) (h : Handle) : Noted Hub :=
  match hub.connection? h with
  | some c => tearDown poll hub c
  | none => pure hub

/-- Something is done with the connection that a handle names, if it names one. -/
def visit (hub : Hub) (h : Handle) (f : Connection → Kernel → Noted (α × Connection × Kernel)) :
    Noted (Option α × Hub) :=
  match hub.connection? h with
  | none => pure (none, hub)
  | some c => do
    let (result, c, kernel) ← f c hub.kernel
    pure (some result, { hub with kernel, slots := hub.slots.set h.descriptor c })

/-- A visit after which the connection is closed if it asks for that. -/
def runStep (poll : Int) (hub : Hub) (h : Handle)
    (step : Connection → Kernel → Noted (Next × Connection × Kernel)) :
    Noted (Option Next × Hub) := do
  match ← visit hub h step with
  | (some .close, hub) => do
    let hub ← closeHandle poll hub h
    pure (some .close, hub)
  | done => pure done

/-! ## The server -/

/-- The wake-up pipe is closed when nobody is left to use it: the server is gone and no handle is
held. -/
def closeWaker (s : Server) : Noted Server :=
  if s.handles = 0 then do
    let kernel ← close s.hub.kernel s.wakerOut
    let kernel ← close kernel s.wakerIn
    pure (s.withKernel kernel)
  else pure s

/-- The listener is closed, and the pipe with it unless a handle is held. -/
def leave (s : Server) (stage : Stage) : Noted Server := do
  let kernel ← close s.hub.kernel s.listener
  closeWaker ((s.withKernel kernel).goTo stage)

/-- A server is set up on a listener that it takes over, and that is closed if it cannot be set
up. -/
def ofListener (k : Kernel) (listener : Int) (config : Config) :
    Noted (Except (ServerError × Kernel) Server) :=
  match config.validate with
  | .error e => do
    let k ← close k listener
    pure (.error (e, k))
  | .ok () => do
    match ← createPipe k with
    | (.error e, k) => do
      let k ← close k listener
      pure (.error (e, k))
    | (.ok (wakerOut, wakerIn), kernel) =>
      pure (.ok {
        config, listener, wakerOut, wakerIn
        hub := {
          kernel, root := config.root, limit := config.maxConnections
          capacity := Server.slotCount config.maxConnections }
        pool := { size := config.workers, capacity := config.maxRequests } })

/-- A server is set up on a listener of its own. -/
def bindServer (k : Kernel) (config : Config) : Noted (Except (ServerError × Kernel) Server) :=
  match config.validate with
  | .error e => pure (.error (e, k))
  | .ok () => do
    match ← openListener k config.host config.port with
    | (.error e, k) => pure (.error (e, k))
    | (.ok listener, k) => ofListener k listener config

/-- The server starts to serve. The poll set is the first thing that it obtains, and is closed again
if there is no memory for what comes next. -/
def serve (s : Server) : Noted Server := do
  match ← createPoll s.hub.kernel with
  | (.error reason, kernel) => leave (s.withKernel kernel) (.over (.error (.system reason)))
  | (.ok poll, kernel) =>
    if Server.hasMemory s.config then
      pure { s.withKernel kernel with poll, stage := .spawning s.config.workers }
    else do
      let kernel ← close kernel poll
      leave (s.withKernel kernel) (.over (.error (.crash .sizeTooLarge)))

/-- A task of the loop. To announce a job is no call on a descriptor, to submit one is none
either. -/
def doTask (choice : Nat) (s : Server) : Task → Noted (Task × Server)
  | .accept => do
    match ← accept s.hub.kernel s.listener with
    | (.accepted d peer, kernel) => pure (.consider d peer, s.withKernel kernel)
    | (.wouldBlock, kernel) => pure (.next, s.withKernel kernel)
    | (.failed _, kernel) => pure (.next, s.withKernel kernel)
  | .refuse d => do
    let kernel ← close s.hub.kernel d
    pure (.accept, s.withKernel kernel)
  | .register h => control s.poll h.descriptor (s.doTask choice (.register h))
  | .giveUp h => do
    let hub ← closeHandle s.poll s.hub h
    pure (.accept, { s with hub })
  | .read h => do
    let (more, hub) ← visit s.hub h (onWire Connection.readAll)
    pure (Server.afterRead h more, { s with hub })
  | .resume h => do
    let (next, hub) ← runStep s.poll s.hub h (onWire Connection.resume)
    pure (Server.afterResume h next, { s with hub })
  | .rearm h interest => control s.poll h.descriptor (s.doTask choice (.rearm h interest))
  | .close h => do
    let hub ← closeHandle s.poll s.hub h
    pure (.next, { s with hub })
  | .drain => call s.wakerOut (s.doTask choice .drain)
  | task => pure (s.doTask choice task)

/-- A step of the loop. -/
def loopStep (choice : Nat) (s : Server) : Option (Noted Server) :=
  match s.stage with
  | .addListener => some
    (control s.poll s.listener (s.addStanding s.listener Server.listenerToken .addWaker))
  | .addWaker => some
    (control s.poll s.wakerOut (s.addStanding s.wakerOut Server.wakerToken .checking))
  | .polling => some (call s.poll s.beginWait)
  | .waiting => if s.hasEvent then some (call s.poll s.fetch) else none
  | .batch _ .next => (s.loopStep choice).map pure
  | .batch rest task =>
    if (Server.visited? task).any s.isHeld then none
    else some do
      let (task, s) ← doTask choice s task
      pure (s.goTo (.batch rest task))
  | .closing (slot :: slots) result => some do
    let hub ← closeHandle s.poll s.hub ⟨slot⟩
    pure ({ s with hub }.goTo (.closing slots result))
  | .leaving result => some do
    let kernel ← close s.hub.kernel s.poll
    leave (s.withKernel kernel) (.over result)
  | _ => (s.loopStep choice).map pure

/-- A step of a worker at a job. -/
def jobStep (s : Server) (i : Nat) : Job → Option (Noted Server)
  | .answer h outcome awaited =>
    if awaited.isSome then none
    else some do
      match ← visit s.hub h (answer s.hub.root outcome) with
      | (none, _) => pure (s.finishJob i)
      | (some next, hub) => pure ({ s with hub }.continueJob i (Server.afterAnswer h next))
  | .close h => some do
    let hub ← closeHandle s.poll s.hub h
    pure ({ s with hub }.finishJob i)
  | .rearm h interest => (s.jobStep i (.rearm h interest)).map (control s.poll h.descriptor)
  | .giveUp h =>
    if s.isHeld h then none
    else some do
      let hub ← closeHandle s.poll s.hub h
      pure ({ s with hub }.finishJob i)
  | job => (s.jobStep i job).map pure

/-- A step of a worker. What it does with the queue and the semaphore makes no call on a
descriptor. -/
def workerStep (s : Server) (i : Nat) : Option (Noted Server) :=
  match s.pool.workers[i]? with
  | some (.busy job) => jobStep s i job
  | _ => (s.workerStep i).map pure

/-- A handle is released, and with the last one the pipe, if the server is gone by then. -/
def releaseHandle? (s : Server) : Option (Noted Server) :=
  match s.handles with
  | 0 => none
  | handles + 1 =>
    let s := { s with handles }
    some (if s.isGone then closeWaker s else pure s)

/-- A step of anybody. What a client does at its end of a stream is not the program's. -/
def perform? (s : Server) : Action → Option (Noted Server)
  | .serve =>
    match s.stage with
    | .ready => some (serve s)
    | _ => none
  | .drop =>
    match s.stage with
    | .ready => some (leave s .dropped)
    | _ => none
  | .loop choice => loopStep choice s
  | .worker i => workerStep s i
  | .wake => s.wake?.map (call s.wakerIn)
  | .releaseHandle => if s.stop.underWay < s.handles then releaseHandle? s else none
  | action => (s.perform? action).map pure

/-! ## What they come to

The notes change nothing. There is one equation for each function, proved along its own cases, down
to what makes no call at all. -/

/-- What comes of two operations one after the other does not depend on what is noted. -/
theorem value_bind (x : Noted α) (f : α → Noted β) : (x >>= f).value = (f x.value).value := rfl

/-- Where the result of the first operation is known, the entries of both are put together. The
lemmas on what is held (`Kernel.Tracks`) follow the program through this equation. -/
theorem bind_of_value {x : Noted α} {a : α} (h : x.value = a) (f : α → Noted β) :
    x >>= f = ⟨(f a).value, x.entries ++ (f a).entries⟩ := by
  rw [← h]
  rfl

/-- To look up a file comes to the same. -/
theorem value_locate (k : Kernel) (root url : String) :
    (locate k root url).value = k.locate root url := by
  rw [locate, Kernel.locate]
  cases DocumentRoot.lookUp k.site root url with
  | error r => rfl
  | ok content => rfl

/-- With its notes left out, finding out how a request is answered is what the hub does. -/
theorem value_resolve (root : String) (outcome : Request.Outcome) (c : Connection) (k : Kernel) :
    (resolve root outcome c k).value = Hub.resolve root outcome c k := by
  cases outcome with
  | complete => exact value_locate ..
  | incomplete => rfl
  | malformed => rfl

/-- With its notes left out, answering a request is what the hub does. -/
theorem value_answer (root : String) (outcome : Request.Outcome) (c : Connection) (k : Kernel) :
    (answer root outcome c k).value = Hub.answer root outcome c k := by
  rw [answer, Hub.answer]
  by_cases hwait : outcome = .incomplete
  · rw [if_pos hwait, if_pos hwait]
    rfl
  · rw [if_neg hwait, if_neg hwait, value_bind, value_resolve]
    rfl

/-- Closing a connection comes to the same. The notes say that its descriptor was used and closed,
if there was one. -/
theorem value_closeHandle (poll : Int) (hub : Hub) (h : Handle) :
    (closeHandle poll hub h).value = hub.close h := by
  rw [closeHandle, Hub.close]
  cases hub.connection? h with
  | some c => rfl
  | none => rfl

/-- A visit comes to the same if what is done there does. -/
theorem value_visit {f : Connection → Kernel → Noted (α × Connection × Kernel)}
    {g : Connection → Kernel → α × Connection × Kernel} (hf : ∀ c k, (f c k).value = g c k)
    (hub : Hub)
    (h : Handle) : (visit hub h f).value = hub.visit h g := by
  rw [visit, Hub.visit]
  cases hub.connection? h with
  | none => rfl
  | some c =>
    dsimp only
    rw [value_bind, hf]
    rfl

/-- A visit that may close the connection comes to the same as well. -/
theorem value_runStep (poll : Int) {f : Connection → Kernel → Noted (Next × Connection × Kernel)}
    {g : Connection → Kernel → Next × Connection × Kernel} (hf : ∀ c k, (f c k).value = g c k)
    (hub : Hub) (h : Handle) : (runStep poll hub h f).value = hub.runStep h g := by
  rw [runStep, Hub.runStep, value_bind, value_visit hf]
  obtain ⟨next, hub'⟩ := hub.visit h g
  cases next with
  | none => rfl
  | some next =>
    cases next with
    | close =>
      dsimp only
      rw [value_bind, value_closeHandle]
      rfl
    | read => rfl
    | write => rfl

/-- A socket that could not be set up is closed, with a note of it. -/
theorem value_orClose (d : Int) (x : Except Errno Unit × Kernel) :
    (orClose d x).value = Kernel.orClose d x := by
  obtain ⟨result, k⟩ := x
  cases result with
  | error reason => rfl
  | ok u => rfl

/-- What follows an attempt sees its result and the kernel that it has left. -/
theorem value_andThen {ε : Type} (x : Noted (Except ε α × Kernel))
    (f : α → Kernel → Noted (Except ε β × Kernel)) :
    (andThen x f).value =
      match x.value with
      | (.error e, k) => (.error e, k)
      | (.ok a, k) => (f a k).value := by
  rw [andThen, value_bind]
  split <;> rfl

/-- With its notes left out, opening a listener is what the kernel does: each of the calls that
can fail is met at the same place, and by the same fault. -/
theorem value_openListener (k : Kernel) (host : String) (port : UInt16) :
    (openListener k host port).value = k.openListener host port := by
  have hcall : ∀ d x, (call d x >>= orClose d).value = Kernel.orClose d x := value_orClose
  unfold openListener Kernel.openListener
  cases SocketAddress.parse? (hostAndPort host port) with
  | none => rfl
  | some address =>
    dsimp only
    obtain ⟨fault, k₁⟩ := k.takeFault .socket
    rcases fault with _ | (n | reason)
    case some.fail => rfl
    all_goals
      dsimp only
      rw [value_bind]
      dsimp only [allocate]
      rw [value_andThen, listenOn, value_andThen, hcall]
      obtain ⟨result, k₂⟩ := Kernel.orClose _ _
      cases result with
      | error e => rfl
      | ok u =>
        dsimp only
        rw [value_andThen, hcall]
        obtain ⟨result, k₃⟩ := Kernel.orClose _ _
        cases result with
        | error e => rfl
        | ok u =>
          dsimp only
          rw [hcall]
          obtain ⟨result, k₄⟩ := Kernel.orClose _ _
          cases result with
          | error e => rfl
          | ok u => rfl

/-- **Setting up a server on a listener** comes to what it comes to without notes. -/
theorem value_ofListener (k : Kernel) (listener : Int) (config : Config) :
    (ofListener k listener config).value = Server.ofListener k listener config := by
  rw [ofListener, Server.ofListener]
  cases config.validate with
  | error e => rfl
  | ok u =>
    dsimp only
    rw [value_bind]
    dsimp only [createPipe]
    obtain ⟨result, k'⟩ := k.createPipe
    cases result with
    | error e => rfl
    | ok ends => rfl

/-- **Setting up a server on an address** comes to what it comes to without notes. -/
theorem value_bindServer (k : Kernel) (config : Config) :
    (bindServer k config).value = Server.bind k config := by
  rw [bindServer, Server.bind]
  cases config.validate with
  | error e => rfl
  | ok u =>
    dsimp only
    rw [value_bind, value_openListener]
    obtain ⟨result, k'⟩ := k.openListener config.host config.port
    cases result with
    | error e => rfl
    | ok listener => exact value_ofListener ..

/-- The wake-up pipe is closed with or without notes. -/
theorem value_closeWaker (s : Server) : (closeWaker s).value = s.closeWaker := by
  rw [closeWaker, Server.closeWaker]
  split <;> rfl

/-- A server goes in the same way, and notes what it closes. -/
theorem value_leave (s : Server) (stage : Stage) : (leave s stage).value = s.leave stage := by
  rw [leave, Server.leave, value_bind, value_closeWaker]
  rfl

/-- A server that starts to serve comes to the same stage, with the same poll set. -/
theorem value_serve (s : Server) : (serve s).value = s.serve := by
  rw [serve, Server.serve, value_bind]
  dsimp only [createPoll]
  obtain ⟨result, k⟩ := s.hub.kernel.createPoll
  cases result with
  | error reason => exact value_leave ..
  | ok poll =>
    dsimp only
    by_cases hmemory : Server.hasMemory s.config = true
    · rw [if_pos hmemory, if_pos hmemory]
      rfl
    · rw [if_neg hmemory, if_neg hmemory, value_bind, value_leave]
      rfl

/-- Each task of the loop leads to the same next one. The cases are those of the task. -/
theorem value_doTask (choice : Nat) (s : Server) (task : Task) :
    (doTask choice s task).value = s.doTask choice task := by
  cases task with
  | accept =>
    rw [doTask, Server.doTask, value_bind]
    dsimp only [accept]
    obtain ⟨result, k⟩ := s.hub.kernel.accept s.listener
    cases result with
    | accepted d peer => rfl
    | wouldBlock => rfl
    | failed reason => rfl
  | giveUp h =>
    rw [doTask, Server.doTask, value_bind, value_closeHandle]
    rfl
  | read h =>
    rw [doTask, Server.doTask, value_bind, value_visit fun _ _ => rfl]
    rfl
  | resume h =>
    rw [doTask, Server.doTask, value_bind, value_runStep _ fun _ _ => rfl]
    rfl
  | close h =>
    rw [doTask, Server.doTask, value_bind, value_closeHandle]
    rfl
  | _ => rfl

/-- Noting something about a result does not change it. -/
theorem map_value_map {f : α → Noted α} (hf : ∀ a, (f a).value = a) (x : Option α) :
    (x.map f).map value = x := by
  cases x with
  | none => rfl
  | some a => exact congrArg some (hf a)

/-- With its notes left out, a step at a job is the server's, and it is possible in the same
states. -/
theorem value_jobStep (s : Server) (i : Nat) (job : Job) :
    (jobStep s i job).map value = s.jobStep i job := by
  cases job with
  | parse h => exact map_value_map (fun _ => rfl) _
  | answer h outcome awaited =>
    rw [jobStep, Server.jobStep]
    split
    · rfl
    · rw [Option.map_some, value_bind, value_visit (value_answer s.hub.root outcome)]
      obtain ⟨next, hub⟩ := s.hub.visit h (Hub.answer s.hub.root outcome)
      cases next with
      | none => rfl
      | some next => rfl
  | close h =>
    rw [jobStep, Server.jobStep, Option.map_some, value_bind, value_closeHandle]
    rfl
  | rearm h interest => exact map_value_map (fun _ => rfl) _
  | giveUp h =>
    rw [jobStep, Server.jobStep]
    split
    · rfl
    · rw [Option.map_some, value_bind, value_closeHandle]
      rfl

/-- A worker takes the same steps, and can take none where it could take none before. -/
theorem value_workerStep (s : Server) (i : Nat) : (workerStep s i).map value = s.workerStep i := by
  have hplain : ((s.workerStep i).map (pure : Server → Noted Server)).map value = s.workerStep i :=
    map_value_map (fun _ => rfl) _
  rw [workerStep]
  split
  · next job hworker =>
    rw [value_jobStep, Server.workerStep, hworker]
  · exact hplain

/-- A task of the loop. -/
theorem loopStep_batch {s : Server} {rest : List Event} {task : Task} {choice : Nat}
    (hstage : s.stage = .batch rest task) (hnext : task ≠ .next) :
    loopStep choice s =
      if (Server.visited? task).any s.isHeld then none
      else some (doTask choice s task >>= fun x => pure (x.2.goTo (.batch rest x.1))) := by
  simp only [loopStep, hstage]

/-- **The loop takes the same steps**, at whatever stage it is. -/
theorem value_loopStep (choice : Nat) (s : Server) :
    (loopStep choice s).map value = s.loopStep choice := by
  have hplain : ((s.loopStep choice).map (pure : Server → Noted Server)).map value =
      s.loopStep choice := map_value_map (fun _ => rfl) _
  rw [loopStep]
  split
  · next hstage => simp only [Server.loopStep, hstage]; rfl
  · next hstage => simp only [Server.loopStep, hstage]; rfl
  · next hstage => simp only [Server.loopStep, hstage]; rfl
  · next hstage =>
    simp only [Server.loopStep, hstage]
    split <;> rfl
  · exact hplain
  · next rest task hnext hstage =>
    rw [Server.loopStep_batch hstage hnext]
    split
    · rfl
    · rw [Option.map_some, value_bind, value_doTask]
      rfl
  · next hstage =>
    simp only [Server.loopStep, hstage, Option.map_some, value_bind, value_closeHandle]
    rfl
  · next hstage =>
    simp only [Server.loopStep, hstage, Option.map_some, value_bind, value_leave]
    rfl
  · exact hplain

/-- **Every step of a server** is possible or not, and comes to what it comes to, with notes as
without. What is proved of the entries is therefore proved of the server that runs. -/
theorem value_perform? (s : Server) (a : Action) : (perform? s a).map value = s.perform? a := by
  have hplain : ∀ a, ((s.perform? a).map (pure : Server → Noted Server)).map value = s.perform? a :=
    fun _ => map_value_map (fun _ => rfl) _
  cases a with
  | serve =>
    rw [perform?, Server.perform?, Server.serve?]
    cases s.stage with
    | ready => exact congrArg some (value_serve s)
    | _ => rfl
  | drop =>
    rw [perform?, Server.perform?, Server.drop?]
    cases s.stage with
    | ready => exact congrArg some (value_leave s .dropped)
    | _ => rfl
  | loop choice => exact value_loopStep choice s
  | worker i => exact value_workerStep s i
  | wake => exact map_value_map (fun _ => rfl) _
  | releaseHandle =>
    rw [perform?, Server.perform?]
    split
    · rw [releaseHandle?, Server.releaseHandle?]
      cases s.handles with
      | zero => rfl
      | succ handles =>
        dsimp only
        rw [Option.map_some]
        split
        · rw [value_closeWaker]
        · rfl
    · rfl
  | requestStop => exact hplain .requestStop
  | connect => exact hplain .connect
  | client m act => exact hplain (.client m act)
  | openPipe place => exact hplain (.openPipe place)

end Noted

/-- What a step of a server does to descriptors. -/
def Server.entries (s : Server) (a : Action) : Ledger :=
  ((Noted.perform? s a).map Noted.entries).getD []

/-- A step has been noted. -/
theorem Server.noted_of_perform? {s t : Server} {a : Action} (h : s.perform? a = some t) :
    ∃ x, Noted.perform? s a = some x ∧ x.value = t ∧ x.entries = s.entries a := by
  have hvalue := Noted.value_perform? s a
  rw [h] at hvalue
  obtain ⟨x, hx, rfl⟩ := Option.map_eq_some_iff.mp hvalue
  refine ⟨x, hx, rfl, ?_⟩
  rw [entries, hx]
  rfl

/-- A step that is not possible does nothing. -/
theorem Server.entries_of_none {s : Server} {a : Action} (h : s.perform? a = none) :
    s.entries a = [] := by
  have hvalue := Noted.value_perform? s a
  rw [h, Option.map_eq_none_iff] at hvalue
  rw [entries, hvalue]
  rfl

end FileServer
