import FileServer.Config.Settings
import FileServer.Hub
import FileServer.Kernel.Socket
import FileServer.Pool

/-!
# The state of a server

One thread, the event loop, accepts clients, reads what they send and resumes what is being sent to
them; a crew of workers answers requests. The state of a server says of each of these threads what
it does next, so that an interleaving of them is a sequence of states. What a thread does in one
step is no more than what it does without another being able to come between: one system call, or
one visit to a connection.

A stop is requested by setting a flag and then writing a byte to a pipe that the loop listens to.
The two are separate steps, and any number of requests may be under way.
-/

namespace FileServer

/-- What a worker has yet to do for the connection that it took from the queue. -/
inductive Job
  /-- to read the request -/
  | parse (h : Handle)
  /-- to answer it, once the named pipe that the request asks for, if it does, has a writer -/
  | answer (h : Handle) (outcome : Request.Outcome) (awaited : Option (List String))
  /-- to close the connection -/
  | close (h : Handle)
  /-- to arm the connection -/
  | rearm (h : Handle) (interest : Interest)
  /-- to close the connection, as it could not be armed -/
  | giveUp (h : Handle)
  deriving DecidableEq, Repr

/-- The connection that a job is about. -/
def Job.handle : Job → Handle
  | parse h | answer h _ _ | close h | rearm h _ | giveUp h => h

/-- The connection that a job does not let others visit. -/
def Job.held? : Job → Option Handle
  | answer h _ _ | close h => some h
  | _ => none

/-- What the event loop does next about the events that it has fetched. -/
inductive Task
  /-- to look at the next event -/
  | next
  /-- to accept a client -/
  | accept
  /-- to see whether there may be one more connection -/
  | consider (descriptor : Int) (peer : Option SocketAddress)
  /-- to put a client into the table -/
  | enter (descriptor : Int) (peer : Option SocketAddress)
  /-- to turn a client away -/
  | refuse (descriptor : Int)
  /-- to register a new connection -/
  | register (h : Handle)
  /-- to close a new connection, as it could not be registered -/
  | giveUp (h : Handle)
  /-- to read what a client has sent -/
  | read (h : Handle)
  /-- to put a connection into the queue -/
  | submit (h : Handle)
  /-- to announce to the workers what has been put into the queue -/
  | announce
  /-- to resume a response -/
  | resume (h : Handle)
  /-- to arm a connection -/
  | rearm (h : Handle) (interest : Interest)
  /-- to close a connection -/
  | close (h : Handle)
  /-- to read from the wake-up pipe -/
  | drain
  deriving DecidableEq, Repr

/-- How far a server has got. -/
inductive Stage
  /-- it has been set up, and does not serve yet -/
  | ready
  /-- so many workers have yet to be started -/
  | spawning (left : Nat)
  /-- the listener is about to be added to the poll set -/
  | addListener
  /-- the wake-up pipe is about to be added to the poll set -/
  | addWaker
  /-- the loop is about to look whether to stop -/
  | checking
  /-- the loop is about to wait for events -/
  | polling
  /-- the loop waits for events -/
  | waiting
  /-- the loop is at a task, with more events to be looked at -/
  | batch (rest : List Event) (task : Task)
  /-- the workers are about to be told to come to their end -/
  | stopping (result : Except ServerError Unit)
  /-- so many permits have yet to be given to wake the workers -/
  | releasing (left : Nat) (result : Except ServerError Unit)
  /-- the workers are awaited -/
  | joining (result : Except ServerError Unit)
  /-- the connections in these slots are about to be closed -/
  | closing (slots : List Int) (result : Except ServerError Unit)
  /-- what else is open is about to be closed -/
  | leaving (result : Except ServerError Unit)
  /-- it has served -/
  | over (result : Except ServerError Unit)
  /-- it has been given up without serving -/
  | dropped

/-- The requests to stop. -/
structure StopRequests where
  /-- whether the flag is set -/
  flag : Bool := false
  /-- how many requests have set the flag and not written to the pipe yet -/
  underWay : Nat := 0
  /-- how many requests are through -/
  done : Nat := 0
  deriving DecidableEq, Repr, Inhabited

/-- A server. -/
structure Server where
  config : Config
  hub : Hub
  pool : Pool Handle Job
  /-- the socket on which clients are awaited -/
  listener : Int
  /-- the end of the wake-up pipe that is read -/
  wakerOut : Int
  /-- the end of the wake-up pipe that is written -/
  wakerIn : Int
  /-- the poll set, once there is one -/
  poll : Int := -1
  stage : Stage := .ready
  stop : StopRequests := {}
  /-- how many there are who can request a stop -/
  handles : Nat := 1

namespace Server

/-- The token of the listener. -/
def listenerToken : UInt64 := 0xffffffffffffffff

/-- The token of the wake-up pipe. -/
def wakerToken : UInt64 := 0xfffffffffffffffe

/-- A registration that reports every change. -/
def standing (token : UInt64) : Registration := { token, interest := .read, oneShot := false }

/-- How many slots there are beyond those for the connections allowed: for the other descriptors. -/
def spareSlots : Nat := 64

/-- The least number of slots. -/
def minSlots : Nat := 4096

/-- How many slots a table has. -/
def slotCount (maxConnections : Nat) : Nat :=
  max (min (maxConnections + spareSlots) (Decimal.wordLimit - 1)) minSlots

/-- The bytes that a handle takes. -/
def handleBytes : Nat := 4

/-- Whether there is memory for the table and for the queue of a server.

The array that events are fetched into is left out, which takes 12 bytes for each of `maxEvents`.
Where it would be larger than can be addressed the program's loop comes to its end as it is set up,
before it has told the workers to stop, and its thread waits for them for good. Here such a loop
goes on, and the kernel refuses its first wait. -/
def hasMemory (config : Config) : Bool :=
  canAllocate (slotCount config.maxConnections) Hub.slotBytes &&
    canAllocate config.maxRequests handleBytes

/-- Sets the kernel. -/
def withKernel (s : Server) (kernel : Kernel) : Server := { s with hub := { s.hub with kernel } }

/-- Sets the stage. -/
def goTo (s : Server) (stage : Stage) : Server := { s with stage }

/-- Whether a worker does not let others visit a connection. -/
def isHeld (s : Server) (h : Handle) : Bool :=
  s.pool.running.any fun job => job.held? = some h

/-! ## Setting up -/

/-- Makes a server of a listener. Where that fails, the listener is closed. -/
def ofListener (k : Kernel) (listener : Int) (config : Config) :
    Except (ServerError × Kernel) Server :=
  match config.validate with
  | .error e => .error (e, k.close listener)
  | .ok () =>
    match k.createPipe with
    | (.error e, k) => .error (e, k.close listener)
    | (.ok (wakerOut, wakerIn), kernel) =>
      .ok {
        config, listener, wakerOut, wakerIn
        hub := {
          kernel, root := config.root, limit := config.maxConnections
          capacity := slotCount config.maxConnections }
        pool := { size := config.workers, capacity := config.maxRequests } }

/-- Makes a server that listens at the address of its configuration. -/
def bind (k : Kernel) (config : Config) : Except (ServerError × Kernel) Server :=
  match config.validate with
  | .error e => .error (e, k)
  | .ok () =>
    match k.openListener config.host config.port with
    | (.error e, k) => .error (e, k)
    | (.ok listener, k) => ofListener k listener config

/-! ## Coming to an end -/

/-- Closes the wake-up pipe once the server is gone and nobody is left who can request a stop. -/
def closeWaker (s : Server) : Server :=
  if s.handles = 0 then s.withKernel ((s.hub.kernel.close s.wakerOut).close s.wakerIn) else s

/-- Whether the server is gone. -/
def isGone (s : Server) : Bool := s.stage matches .over _ || s.stage matches .dropped

/-- The server goes: its listener is closed. -/
def leave (s : Server) (stage : Stage) : Server :=
  ((s.withKernel (s.hub.kernel.close s.listener)).goTo stage).closeWaker

end Server

end FileServer
