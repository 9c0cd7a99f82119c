import FileServer.Connection
import FileServer.Kernel.State

/-!
# The hub

The hub is what the event loop and the workers share: the kernel, the table of connections, and the
count of those that are open. A connection stands in the slot of its descriptor number; a slot that
has been used keeps its buffers for the next connection with that number. A handle names a slot, and
reaches a connection only as long as one is open there.

`Hub.drive` is the one way in which a step of a connection ends: with the descriptor armed again for
what the step asked for, or with the connection torn down.
-/

namespace FileServer

/-- Names a connection by the number of its descriptor. -/
structure Handle where
  descriptor : Int
  deriving DecidableEq, Repr, Inhabited

namespace Handle

/-- The handle that an event carries: the low half of its token, taken as a signed number. -/
def ofToken (token : UInt64) : Handle := ⟨token.toUInt32.toInt32.toInt⟩

/-- The token by which a descriptor is registered. -/
def token (h : Handle) : UInt64 := .ofInt h.descriptor

/-- The registration of a connection: one event, and then silence until it is armed again. -/
def registration (h : Handle) (interest : Interest) : Registration :=
  { token := h.token, interest, oneShot := true }

end Handle

/-- What a connection is armed for after a step, unless it is closed. -/
def Next.interest? : Next → Option Interest
  | .read => some .read
  | .write => some .write
  | .close => none

/-- What is shared by all who work on connections. -/
structure Hub where
  kernel : Kernel
  /-- the document root -/
  root : String
  /-- how many slots there are -/
  capacity : Nat
  /-- how many connections may be open -/
  limit : Nat
  /-- the slots that have been used -/
  slots : DescriptorMap Connection := {}
  /-- how many connections are open -/
  live : UInt64 := 0
  deriving Repr, Inhabited

namespace Hub

/-- The bytes that a slot takes before it is used. -/
def slotBytes : Nat := 16

/-- A hub without connections, for which there is memory. -/
def create (kernel : Kernel) (root : String) (capacity limit : Nat) : Except ServerError Hub :=
  if canAllocate capacity slotBytes then .ok { kernel, root, capacity, limit }
  else .error (.crash .sizeTooLarge)

/-- Whether no more connections may be opened. -/
def isFull (hub : Hub) : Bool := hub.limit ≤ hub.live.toNat

/-- Whether a descriptor has a slot. -/
def hasSlot (hub : Hub) (descriptor : Int) : Bool := 0 ≤ descriptor && descriptor < hub.capacity

/-- The open connection that a handle names. -/
def connection? (hub : Hub) (h : Handle) : Option Connection :=
  if hub.hasSlot h.descriptor then
    (hub.slots.get? h.descriptor).filter fun c => c.isOpen && c.descriptor = h.descriptor
  else none

/-- Opens a connection in the slot of its descriptor and counts it. -/
def enter (hub : Hub) (descriptor : Int) (peer : Option SocketAddress) :
    Except ServerError Handle × Hub :=
  if hub.hasSlot descriptor then
    let c := ((hub.slots.get? descriptor).getD {}).start descriptor peer
    (.ok ⟨descriptor⟩, { hub with slots := hub.slots.set descriptor c, live := hub.live + 1 })
  else (.error .tableFull, hub)

/-- Registers a descriptor that is new to the poll set. -/
def register (hub : Hub) (h : Handle) (interest : Interest) : Except ServerError Unit × Hub :=
  let (result, kernel) := hub.kernel.pollAdd h.descriptor (h.registration interest)
  (result.mapError .system, { hub with kernel })

/-- Arms a descriptor for one more event. -/
def rearm (hub : Hub) (h : Handle) (interest : Interest) : Except ServerError Unit × Hub :=
  let (result, kernel) := hub.kernel.pollModify h.descriptor (h.registration interest)
  (result.mapError .system, { hub with kernel })

/-- Takes a connection out of the poll set, closes its descriptor, frees its slot and counts it
off. -/
def tearDown (hub : Hub) (c : Connection) : Hub :=
  { hub with
    kernel := hub.kernel.discard c.descriptor
    slots := hub.slots.set c.descriptor c.release
    live := hub.live - 1 }

/-- Closes the connection that a handle names, if there is one. -/
def close (hub : Hub) (h : Handle) : Hub :=
  match hub.connection? h with
  | some c => hub.tearDown c
  | none => hub

/-- Closes every open connection. -/
def closeAll (hub : Hub) : Hub := hub.slots.keys.foldl (fun hub key => hub.close ⟨key⟩) hub

/-! ## Steps of a connection -/

/-- Does something to the connection that a handle names, with the kernel at hand. -/
def visit {α : Type} (hub : Hub) (h : Handle) (f : Connection → Kernel → α × Connection × Kernel) :
    Option α × Hub :=
  match hub.connection? h with
  | none => (none, hub)
  | some c =>
    let (result, c, kernel) := f c hub.kernel
    (some result, { hub with kernel, slots := hub.slots.set h.descriptor c })

/-- Something that a connection does through its descriptor. -/
def onWire {α : Type} (f : Connection → Wire → α × Connection × Wire) (c : Connection)
    (kernel : Kernel) : α × Connection × Kernel :=
  let ((result, c), kernel) := kernel.through c.descriptor fun w =>
    let (result, c, w) := f c w
    ((result, c), w)
  (result, c, kernel)

/-- The answer to what a connection has read. -/
def resolve (root : String) (outcome : Request.Outcome) (c : Connection) (kernel : Kernel) :
    Resolution × Kernel :=
  match outcome with
  | .complete => kernel.locate root c.reader.target
  | _ => (.badRequest, kernel)

/-- What a connection does after reading: nothing while the request is incomplete, else it
answers. -/
def answer (root : String) (outcome : Request.Outcome) (c : Connection) (kernel : Kernel) :
    Next × Connection × Kernel :=
  if outcome = .incomplete then (.read, c, kernel)
  else
    let (r, kernel) := resolve root outcome c kernel
    onWire (·.respond r) c kernel

/-- Reads what has arrived of a request, and answers it if it is all there. -/
def process (root : String) (c : Connection) (kernel : Kernel) : Next × Connection × Kernel :=
  let (outcome, c) := c.parse
  answer root outcome c kernel

/-- Runs a step of the connection that a handle names; a step that asks for it closes the
connection. -/
def runStep (hub : Hub) (h : Handle) (step : Connection → Kernel → Next × Connection × Kernel) :
    Option Next × Hub :=
  match hub.visit h step with
  | (some .close, hub) => (some .close, hub.close h)
  | done => done

/-- Arms a connection after a step; if that fails, the connection is closed. -/
def finishStep (hub : Hub) (h : Handle) (interest : Interest) : Hub :=
  match hub.rearm h interest with
  | (.error _, hub) => hub.close h
  | (.ok (), hub) => hub

/-- Runs a step of the connection that a handle names, then arms it again or tears it down. -/
def drive (hub : Hub) (h : Handle) (step : Connection → Kernel → Next × Connection × Kernel) :
    Option Next × Hub :=
  let (next, hub) := hub.runStep h step
  match next.bind (·.interest?) with
  | some interest => (next, hub.finishStep h interest)
  | none => (next, hub)

end Hub

end FileServer
