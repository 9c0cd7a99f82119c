import FileServer.Server.State

/-!
# The steps of a worker

A worker takes a connection from the queue and visits it: it reads the request, answers it, and
closes the connection if that is what comes of it; during all of this no one else visits the
connection. Then it arms the connection for what is to come.

A request for a named pipe is answered only when the pipe has a writer; until then the worker waits.
-/

namespace FileServer.Server

/-- The named pipe that the answer to what a connection has read has to wait for. -/
def awaitedPipe? (s : Server) (outcome : Request.Outcome) (c : Connection) : Option (List String) :=
  if outcome = .complete then
    DocumentRoot.awaitedPipe? s.hub.kernel.site s.hub.root c.reader.target
  else none

/-- What is left to do after the answer. -/
def afterAnswer (h : Handle) (next : Next) : Job :=
  match next.interest? with
  | some interest => .rearm h interest
  | none => .close h

/-- The worker goes on with its job. -/
def continueJob (s : Server) (i : Nat) (job : Job) : Server :=
  { s with pool := s.pool.setWorker i (.busy job) }

/-- The worker is done with its job. -/
def finishJob (s : Server) (i : Nat) : Server := { s with pool := s.pool.finish i }

/-- The next step of a worker at a job, unless it has to wait. -/
def jobStep (s : Server) (i : Nat) : Job → Option Server
  | .parse h =>
    if s.isHeld h then none
    else
      match s.hub.visit h fun c kernel =>
          let (outcome, c) := c.parse
          ((outcome, s.awaitedPipe? outcome c), c, kernel) with
      | (none, _) => some (s.finishJob i)
      | (some (outcome, awaited), hub) =>
        some ({ s with hub }.continueJob i (.answer h outcome awaited))
  | .answer h outcome awaited =>
    if awaited.isSome then none
    else
      match s.hub.visit h (Hub.answer s.hub.root outcome) with
      | (none, _) => some (s.finishJob i)
      | (some next, hub) => some ({ s with hub }.continueJob i (afterAnswer h next))
  | .close h => some ({ s with hub := s.hub.close h }.finishJob i)
  | .rearm h interest =>
    match s.hub.rearm h interest with
    | (.ok (), hub) => some ({ s with hub }.finishJob i)
    | (.error _, hub) => some ({ s with hub }.continueJob i (.giveUp h))
  | .giveUp h =>
    if s.isHeld h then none else some ({ s with hub := s.hub.close h }.finishJob i)

/-- The next step of a worker, unless it has to wait or has come to its end. -/
def workerStep (s : Server) (i : Nat) : Option Server :=
  match s.pool.workers[i]? with
  | some (.busy job) => s.jobStep i job
  | _ => (s.pool.workerStep Job.parse i).map fun (_, pool) => { s with pool }

/-- A job that waits for a pipe no longer has to. -/
def Job.release (place : List String) : Job → Job
  | .answer h outcome (some awaited) =>
    .answer h outcome (if awaited = place then none else some awaited)
  | job => job

/-- Whether a worker waits for a writer of the named pipe at a place. -/
def isAwaited (s : Server) (place : List String) : Bool :=
  s.pool.running.any fun
    | .answer _ _ awaited => awaited = some place
    | _ => false

/-- A writer opens the named pipe at a place: all who wait for it go on. -/
def openPipe (s : Server) (place : List String) : Server :=
  { s with
    pool := { s.pool with
      workers := s.pool.workers.map fun
        | .busy job => .busy (Job.release place job)
        | w => w } }

end FileServer.Server
