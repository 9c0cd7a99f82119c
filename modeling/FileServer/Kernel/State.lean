import FileServer.Address
import FileServer.DocumentRoot
import FileServer.Error
import FileServer.Kernel.Poll
import FileServer.Kernel.Wire

/-!
# The kernel

The kernel as far as the server depends on it: the descriptors the server holds and what is behind
them, the streams to its clients, the poll set, and the site. A new descriptor gets the lowest
number that is free, so the number of a closed connection comes back. Closing a descriptor takes it
out of the poll set and ends what was behind it.
-/

namespace FileServer

/-- A socket on which clients are awaited. -/
structure Listener where
  /-- the address it is bound to; a local socket has none -/
  address : Option SocketAddress := none
  /-- the streams that have not been accepted, the oldest first -/
  backlog : List Nat := []
  deriving DecidableEq, Repr

/-- A pipe that carries wake-up bytes. -/
structure Pipe where
  /-- how many bytes are in it -/
  held : Nat := 0
  /-- whether the end for reading is open -/
  readable : Bool := true
  /-- whether the end for writing is open -/
  writable : Bool := true
  deriving DecidableEq, Repr

/-- What is behind a descriptor. -/
inductive Resource
  /-- a socket on its way to become a listener -/
  | socket (address : Option SocketAddress)
  | listener (listener : Listener)
  /-- the server's end of a stream -/
  | stream (number : Nat)
  /-- the end of a pipe that is read -/
  | pipeOut (number : Nat)
  /-- the end of a pipe that is written -/
  | pipeIn (number : Nat)
  /-- a file that is being mapped -/
  | file
  /-- the poll set -/
  | poll
  deriving DecidableEq, Repr

/-- The state of the kernel. -/
structure Kernel where
  /-- what the coming calls do -/
  scripts : Scripts := []
  /-- the files -/
  site : Site := .empty
  /-- the open descriptors -/
  descriptors : DescriptorMap Resource := {}
  /-- the streams, by number -/
  streams : List Stream := []
  /-- the pipes, by number -/
  pipes : List Pipe := []
  /-- the poll set -/
  poll : Poll := {}
  /-- the port that the next socket without one gets -/
  nextPort : UInt16 := 40000
  /-- whether the host can reach itself over the network; where it cannot, no address of the old
  kind is known to be another host's, so all of them can be bound -/
  loopback : Bool := false
  deriving Repr, Inhabited

namespace Kernel

/-- The entry for a call made now. -/
def takeFault (k : Kernel) (call : Call) : Option Fault × Kernel :=
  let (fault, scripts) := k.scripts.next call
  (fault, { k with scripts })

/-! ## Descriptors -/

/-- The lowest number that a new descriptor gets; those below are the standard streams. -/
def firstDescriptor : Int := 3

/-- Opens a descriptor. -/
def allocate (k : Kernel) (resource : Resource) : Int × Kernel :=
  let descriptor := k.descriptors.firstFree firstDescriptor
  (descriptor, { k with descriptors := k.descriptors.set descriptor resource })

/-- The stream behind a descriptor. -/
def streamOf? (k : Kernel) (descriptor : Int) : Option Nat :=
  match k.descriptors.get? descriptor with
  | some (.stream number) => some number
  | _ => none

/-- Changes a stream. -/
def updateStream (k : Kernel) (number : Nat) (f : Stream → Stream) : Kernel :=
  { k with streams := k.streams.modify number f }

/-- Changes a pipe. -/
def updatePipe (k : Kernel) (number : Nat) (f : Pipe → Pipe) : Kernel :=
  { k with pipes := k.pipes.modify number f }

/-- Ends what was behind a descriptor. -/
def endResource (k : Kernel) : Resource → Kernel
  | .socket _ => k
  | .listener l => l.backlog.foldl (fun k number => k.updateStream number .drop) k
  | .stream number => k.updateStream number .drop
  | .pipeOut number => k.updatePipe number ({ · with readable := false })
  | .pipeIn number => k.updatePipe number ({ · with writable := false })
  | .file => k
  | .poll => { k with poll := {} }

/-- Closes a descriptor; without effect if it is not open. -/
def close (k : Kernel) (descriptor : Int) : Kernel :=
  match k.descriptors.get? descriptor with
  | none => k
  | some resource =>
    { k with
      descriptors := k.descriptors.erase descriptor
      poll := k.poll.remove descriptor }.endResource resource

/-! ## Readiness -/

/-- What the end of a stream is ready for. -/
def streamReadiness (s : Stream) : Readiness where
  input := !s.inbound.isEmpty || s.ended || s.abandoned
  output := true
  error := s.broken
  hangup := s.abandoned
  ended := s.ended || s.abandoned

/-- What a descriptor is ready for. -/
def readiness (k : Kernel) (descriptor : Int) : Readiness :=
  match k.descriptors.get? descriptor with
  | some (.listener l) => { input := !l.backlog.isEmpty }
  | some (.stream number) =>
    match k.streams[number]? with
    | some s => streamReadiness s
    | none => {}
  | some (.pipeOut number) =>
    match k.pipes[number]? with
    | some p => { input := 0 < p.held, hangup := !p.writable }
    | none => {}
  | _ => {}

/-- Has a descriptor looked at in which something has happened. -/
def notify (k : Kernel) (descriptor : Int) : Kernel :=
  { k with poll := k.poll.notify descriptor (k.readiness descriptor) }

/-- Has the descriptors of a resource looked at. -/
def notifyResource (k : Kernel) (resource : Resource) : Kernel :=
  (k.descriptors.entries.filter (·.2 = resource)).foldl (fun k entry => k.notify entry.1) k

/-! ## Wires -/

/-- The script that governs a call on a descriptor: its own, if it has one, else the common one. -/
def governing (k : Kernel) (call : Option Int → Call) (descriptor : Int) : Call :=
  if (k.scripts.lookup (call (some descriptor))).isSome then call (some descriptor) else call none

/-- The kernel as seen through a descriptor. -/
def wire (k : Kernel) (descriptor : Int) : Wire where
  reads := k.scripts.of (k.governing .read descriptor)
  writes := k.scripts.of (k.governing .write descriptor)
  stream := (k.streamOf? descriptor).bind (k.streams[·]?)

/-- Puts back what has been done through a descriptor. -/
def putWire (k : Kernel) (descriptor : Int) (w : Wire) : Kernel :=
  let scripts := (k.scripts.set (k.governing .read descriptor) w.reads).set
    (k.governing .write descriptor) w.writes
  let k := { k with scripts }
  match k.streamOf? descriptor, w.stream with
  | some number, some s => k.updateStream number fun _ => s
  | _, _ => k

/-- Does something through a descriptor. -/
def through {α : Type} (k : Kernel) (descriptor : Int) (f : Wire → α × Wire) : α × Kernel :=
  let (result, w) := f (k.wire descriptor)
  (result, k.putWire descriptor w)

/-! ## The poll set -/

/-- Makes the poll set. -/
def createPoll (k : Kernel) : Except Errno Int × Kernel :=
  match k.takeFault .pollCreate with
  | (some (.fail reason), k) => (.error reason, k)
  | (_, k) =>
    let (descriptor, k) := { k with poll := {} }.allocate .poll
    (.ok descriptor, k)

/-- A change of the poll set, unless the script has it fail or do nothing. -/
def control (k : Kernel) (change : Kernel → Except Errno Unit × Kernel) :
    Except Errno Unit × Kernel :=
  match k.takeFault .pollControl with
  | (some (.fail reason), k) => (.error reason, k)
  | (some (.limit 0), k) => (.ok (), k)
  | (_, k) => change k

/-- Adds a descriptor. -/
def pollAdd (k : Kernel) (descriptor : Int) (g : Registration) : Except Errno Unit × Kernel :=
  k.control fun k =>
    if (k.descriptors.get? descriptor).isNone then (.error .badDescriptor, k)
    else if (k.poll.registrations.get? descriptor).isSome then (.error .alreadyExists, k)
    else (.ok (), { k with poll := k.poll.register descriptor g (k.readiness descriptor) })

/-- Changes the registration of a descriptor. -/
def pollModify (k : Kernel) (descriptor : Int) (g : Registration) : Except Errno Unit × Kernel :=
  k.control fun k =>
    if (k.descriptors.get? descriptor).isNone then (.error .badDescriptor, k)
    else if (k.poll.registrations.get? descriptor).isNone then (.error .noEntry, k)
    else (.ok (), { k with poll := k.poll.register descriptor g (k.readiness descriptor) })

/-- Takes a descriptor out. It is no failure if it was not in. -/
def pollDelete (k : Kernel) (descriptor : Int) : Except Errno Unit × Kernel :=
  match k.control fun k =>
      if (k.descriptors.get? descriptor).isNone then (.error .badDescriptor, k)
      else if (k.poll.registrations.get? descriptor).isNone then (.error .noEntry, k)
      else (.ok (), { k with poll := k.poll.remove descriptor }) with
  | (.error reason, k) => (if reason = .noEntry then .ok () else .error reason, k)
  | done => done

/-- Takes a descriptor out of the poll set and closes it. A failure to take it out does not matter,
as closing does that too. -/
def discard (k : Kernel) (descriptor : Int) : Kernel := (k.pollDelete descriptor).2.close descriptor

/-- The most events that can be asked for. -/
def maxEvents : Nat := 178956970

/-- The events of the descriptors that are ready now, at most `max` of them. -/
def collect (k : Kernel) (max : Nat) : List Event × Kernel :=
  let (events, poll) := k.poll.collect k.readiness max
  (events, { k with poll })

/-- How a wait for events begins. -/
inductive WaitStart
  /-- it waits until there is an event -/
  | waits
  /-- it comes back at once, without events -/
  | empty
  | failed (reason : Errno)
  deriving DecidableEq, Repr

/-- Begins a wait for at most `max` events. An interruption counts as no events. -/
def beginWait (k : Kernel) (max : Nat) : WaitStart × Kernel :=
  match k.takeFault .pollWait with
  | (some (.fail reason), k) => (if reason = .interrupted then .empty else .failed reason, k)
  | (some (.limit 0), k) => (.empty, k)
  | (_, k) => (if max = 0 ∨ maxEvents < max then .failed .invalid else .waits, k)

/-- The events of now, without waiting. -/
def pollNow (k : Kernel) (max : Nat) : Except Errno (List Event) × Kernel :=
  match k.beginWait max with
  | (.failed reason, k) => (.error reason, k)
  | (.empty, k) => (.ok [], k)
  | (.waits, k) =>
    let (events, k) := k.collect max
    (.ok events, k)

/-! ## Files -/

/-- Maps an open file. -/
def mapFile (k : Kernel) (content : Bytes) : Resolution × Kernel :=
  let (r, maps) := DocumentRoot.mapContent content (k.scripts.of .mapFile)
  (r, { k with scripts := k.scripts.set .mapFile maps })

/-- The answer to a request for a path. A file is open only while it is being mapped. -/
def locate (k : Kernel) (root url : String) : Resolution × Kernel :=
  match DocumentRoot.lookUp k.site root url with
  | .error r => (r, k)
  | .ok content =>
    let (descriptor, k) := k.allocate .file
    let (r, k) := k.mapFile content
    (r, k.close descriptor)

end Kernel

end FileServer
