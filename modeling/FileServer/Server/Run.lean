import FileServer.Server.Loop
import FileServer.Server.Worker

/-!
# Running a server

A run of a server is a sequence of actions: steps of the loop and of the workers, and what happens
outside: clients connect, send, receive and leave, stops are requested, writers open named pipes.
Any action that is possible may come next, so what holds after every run holds under every schedule.

`Server.settle` is one schedule among these: it lets the workers go first, then the loop, until all
of them wait.
-/

namespace FileServer

/-- Something that a client does to its stream. -/
inductive ClientAction
  | send (bytes : Bytes)
  | receive
  | finish
  | abandon
  deriving DecidableEq, Repr

/-- The stream after an action of its client. -/
def ClientAction.perform : ClientAction → Stream → Stream
  | send bytes, s => (s.send bytes).2
  | receive, s => s.receive.2
  | finish, s => s.finish
  | abandon, s => s.abandon

/-- An action in a run of a server. -/
inductive Action
  /-- the server starts to serve -/
  | serve
  /-- the server is given up before it serves -/
  | drop
  /-- a step of the loop; the number chooses the worker that an announcement wakes -/
  | loop (choice : Nat)
  /-- a step of a worker -/
  | worker (i : Nat)
  /-- a request to stop sets the flag -/
  | requestStop
  /-- a request to stop writes to the wake-up pipe -/
  | wake
  /-- somebody who could request a stop goes -/
  | releaseHandle
  /-- a client connects -/
  | connect
  /-- the client of a stream does something -/
  | client (stream : Nat) (action : ClientAction)
  /-- a writer opens a named pipe -/
  | openPipe (place : List String)
  deriving DecidableEq, Repr

namespace Server

/-- Gives up a server that does not serve yet. -/
def drop? (s : Server) : Option Server :=
  match s.stage with
  | .ready => some (s.leave .dropped)
  | _ => none

/-- Starts to serve, unless that has been done already. -/
def serve? (s : Server) : Option Server :=
  match s.stage with
  | .ready => some s.serve
  | _ => none

/-- A request to stop sets the flag. -/
def requestStop (s : Server) : Server :=
  { s with stop := { s.stop with flag := true, underWay := s.stop.underWay + 1 } }

/-- A request to stop writes to the wake-up pipe, and is through. -/
def wake? (s : Server) : Option Server :=
  match s.stop.underWay with
  | 0 => none
  | underWay + 1 =>
    some { s.withKernel (s.hub.kernel.wake s.wakerIn) with
      stop := { s.stop with underWay, done := s.stop.done + 1 } }

/-- Somebody who could request a stop goes. -/
def releaseHandle? (s : Server) : Option Server :=
  match s.handles with
  | 0 => none
  | handles + 1 =>
    let s := { s with handles }
    some (if s.isGone then s.closeWaker else s)

/-- A client connects. The result is the number of its stream. -/
def connect (s : Server) : Option Nat × Server :=
  let (number, kernel) := s.hub.kernel.connect s.listener
  (number, s.withKernel kernel)

/-- The client of a stream does something. -/
def asClient {α : Type} (s : Server) (stream : Nat) (f : Stream → α × Stream) : Option α × Server :=
  let (result, kernel) := s.hub.kernel.asClient stream f
  (result, s.withKernel kernel)

/-- The state after an action, if that is possible. A stop can be requested by those who can. -/
def perform? (s : Server) : Action → Option Server
  | .serve => s.serve?
  | .drop => s.drop?
  | .loop choice => s.loopStep choice
  | .worker i => s.workerStep i
  | .requestStop => if s.handles = 0 then none else some s.requestStop
  | .wake => s.wake?
  | .releaseHandle => if s.stop.underWay < s.handles then s.releaseHandle? else none
  | .connect => some s.connect.2
  | .client stream action => some (s.asClient stream fun st => ((), action.perform st)).2
  | .openPipe place => some (s.openPipe place)

/-- The states that can be reached from another. -/
inductive Reachable (start : Server) : Server → Prop
  | refl : Reachable start start
  | step {s t : Server} {action : Action} :
    Reachable start s → s.perform? action = some t → Reachable start t

/-! ## Running until nothing moves -/

/-- The state after the step that comes next when workers go first. -/
def advance? (s : Server) : Option Server :=
  ((List.range s.pool.workers.length).findSome? s.workerStep).or (s.loopStep 0)

/-- Lets the workers and the loop go on for at most so many steps, or until all of them wait. -/
def settle : (steps : Nat) → Server → Server
  | 0, s => s
  | steps + 1, s =>
    match s.advance? with
    | none => s
    | some s => settle steps s

end Server

end FileServer
