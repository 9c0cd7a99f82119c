import FileServer.Address
import FileServer.Error
import FileServer.Delivery
import FileServer.Request.Reader

/-!
# Connections

A connection reads requests from a descriptor and delivers the responses to it, one after the other.
Each operation says what the connection needs next: to be told when there is more to read, when the
client can take more, or to be closed. When a response has been delivered whole and the request
asked to keep the connection, it starts afresh on the same descriptor; whatever its buffers still
hold, only what arrives from then on counts.
-/

namespace FileServer

open Request (Reader Outcome)

/-- What a connection needs next. -/
inductive Next
  /-- to be told when there is something to read -/
  | read
  /-- to be told when the client can take more -/
  | write
  /-- to be closed -/
  | close
  deriving DecidableEq, Repr

/-- The state of one connection. -/
structure Connection where
  /-- the descriptor, negative if the connection is closed -/
  descriptor : Int := -1
  /-- the client's address, if it has one -/
  peer : Option SocketAddress := none
  /-- the request being read -/
  reader : Reader := {}
  /-- the response being sent -/
  delivery : Delivery := {}
  deriving DecidableEq, Repr, Inhabited

namespace Connection

/-- Whether the connection has a descriptor. -/
def isOpen (c : Connection) : Bool := 0 ≤ c.descriptor

/-- Whether the current request asked to keep the connection. -/
def keepAlive (c : Connection) : Bool := c.reader.fields.keepAlive

/-- Starts afresh on the same descriptor. -/
def reset (c : Connection) : Connection :=
  { c with reader := c.reader.reset, delivery := c.delivery.reset }

/-- Starts afresh on a new descriptor. -/
def start (c : Connection) (descriptor : Int) (peer : Option SocketAddress) : Connection :=
  { c with descriptor, peer }.reset

/-- Gives up the descriptor and the file. -/
def release (c : Connection) : Connection :=
  { c with descriptor := -1, peer := none, delivery := c.delivery.release }

end Connection

/-! ## Reading -/

/-- Reads into the buffer until it is full or there is nothing more to read. The result is `false`
at the end of the stream and when a read fails. -/
def Request.Reader.fill (r : Reader) (w : Wire) : Bool × Reader × Wire :=
  if _full : r.input.capacity ≤ r.input.used then (true, r, w)
  else
    match w.read r.input.room with
    | (.data [], w) => (false, r, w)
    | (.data (b :: bytes), w) => fill { r with input := r.input.append (b :: bytes) } w
    | (.wouldBlock, w) => (true, r, w)
    | (.failed _, w) => (false, r, w)
termination_by r.input.room
decreasing_by exact Buffer.room_append_lt (by omega) (by simp)

namespace Connection

/-- Reads all there is, as far as it fits. The result is `false` when the connection has to be
closed: the buffer was full before, the client has ended its sending side, or a read failed. -/
def readAll (c : Connection) (w : Wire) : Bool × Connection × Wire :=
  if c.reader.input.capacity ≤ c.reader.input.used then (false, c, w)
  else
    let (more, reader, w) := c.reader.fill w
    (more, { c with reader }, w)

/-- Reads the request as far as it has arrived. -/
def parse (c : Connection) : Outcome × Connection :=
  let (outcome, reader) := c.reader.advance
  (outcome, { c with reader })

/-! ## Sending -/

/-- How an attempt to send ended, if no write failed. -/
inductive Sent
  /-- everything has been accepted; the connection is kept or not -/
  | complete (keepAlive : Bool)
  /-- the client has to take some first -/
  | pending
  deriving DecidableEq, Repr

/-- Sends what is left of the response. Once everything has been accepted, a connection that is kept
starts afresh. -/
def send (c : Connection) (w : Wire) : Except ServerError Sent × Connection × Wire :=
  match c.delivery.send w with
  | (.complete, delivery, w) =>
    let c := { c with delivery }
    if c.keepAlive then (.ok (.complete true), c.reset, w) else (.ok (.complete false), c, w)
  | (.pending, delivery, w) => (.ok .pending, { c with delivery }, w)
  | (.failed reason, delivery, w) => (.error (.system reason), { c with delivery }, w)

/-- What an attempt to send calls for. -/
def afterSend : Except ServerError Sent → Next
  | .ok .pending => .write
  | .ok (.complete true) => .read
  | .ok (.complete false) => .close
  | .error _ => .close

/-- Resumes the response where the last attempt stopped. -/
def resume (c : Connection) (w : Wire) : Next × Connection × Wire :=
  let (sent, c, w) := c.send w
  (afterSend sent, c, w)

/-- Lays out the response to the current request and makes the first attempt to send it. -/
def respond (c : Connection) (r : Resolution) (w : Wire) : Next × Connection × Wire :=
  match c.delivery.lay? r c.keepAlive with
  | none => (.close,
    { c with delivery := { c.delivery with head := c.delivery.head.clear }.release }, w)
  | some delivery => { c with delivery }.resume w

end Connection

end FileServer
