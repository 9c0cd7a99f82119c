import FileServer.Kernel.State

/-!
# Listening, accepting, waking

How a listener comes to be, how clients reach it, and how the wake-up pipe works. A listener that
cannot be set up leaves no descriptor behind.
-/

namespace FileServer.Kernel

/-! ## Binding an address -/

/-- The IPv4 address that an address stands for, in itself or mapped. -/
def plainV4? (ip : IpAddress) : Option (UInt8 × UInt8 × UInt8 × UInt8) :=
  match ip, ip.mapped? with
  | .v4 a b c d, _ => some (a, b, c, d)
  | _, some (.v4 a b c d) => some (a, b, c, d)
  | _, _ => none

/-- Whether an address stands for all addresses of the host. -/
def isAny (ip : IpAddress) : Bool :=
  plainV4? ip = some (0, 0, 0, 0) || ip = .v6 (List.replicate 8 0)

/-- The number of the network interface by which the host reaches itself. -/
def loopbackInterface : UInt32 := 1

/-- Whether an address stands for a group of hosts. -/
def isGroup : IpAddress → Bool
  | .v6 (first :: _) => first >>> 8 = 0xff
  | _ => false

/-- Whether a port is kept for processes with more rights than the server's. -/
def isReserved (port : UInt16) : Bool := 0 < port && port < 1024

/-- Why an address cannot be bound, if it cannot. -/
def unbindable? (k : Kernel) (address : SocketAddress) : Option Errno :=
  if isGroup address.ip then some .invalid
  else if isReserved address.port then some .accessDenied
  else if isAny address.ip then none
  else
    match plainV4? address.ip, address.ip with
    | some (first, _), _ =>
      if !k.loopback || first = 127 then none else some .addressNotAvailable
    | none, .v6 (first :: rest) =>
      if first &&& 0xffc0 = 0xfe80 && address.scope != loopbackInterface then
        some (if address.scope = 0 then .invalid else .noInterface)
      else if k.loopback && first :: rest = List.replicate 7 0 ++ [1] then none
      else some .addressNotAvailable
    | none, _ => some .invalid

/-- Whether two addresses have an address of the host in common. -/
def overlap (a b : IpAddress) : Bool :=
  isAny a || isAny b || a = b || (plainV4? a).isSome && plainV4? a = plainV4? b

/-- Whether some listener holds the port of an address already. -/
def isTaken (k : Kernel) (address : SocketAddress) : Bool :=
  k.descriptors.entries.any fun
    | (_, .listener { address := some held, .. }) =>
      held.port = address.port && overlap held.ip address.ip
    | _ => false

/-- Binds an address; port zero stands for a port that is free. -/
def bind (k : Kernel) (descriptor : Int) (address : SocketAddress) : Except Errno Unit × Kernel :=
  match k.takeFault .bind with
  | (some (.fail reason), k) => (.error reason, k)
  | (_, k) =>
    match k.unbindable? address with
    | some reason => (.error reason, k)
    | none =>
      if address.port = 0 then
        (.ok (), { k with
          nextPort := k.nextPort + 1
          descriptors :=
            k.descriptors.set descriptor (.socket (some { address with port := k.nextPort })) })
      else if k.isTaken address then (.error .addressInUse, k)
      else (.ok (), { k with descriptors := k.descriptors.set descriptor (.socket (some address)) })

/-- Makes a bound socket a listener. -/
def listen (k : Kernel) (descriptor : Int) : Except Errno Unit × Kernel :=
  match k.takeFault .listen with
  | (some (.fail reason), k) => (.error reason, k)
  | (_, k) =>
    match k.descriptors.get? descriptor with
    | some (.socket address) =>
      (.ok (), { k with descriptors := k.descriptors.set descriptor (.listener { address }) })
    | _ => (.error .badDescriptor, k)

/-- Sets an option of a socket. -/
def setOption (k : Kernel) : Except Errno Unit × Kernel :=
  match k.takeFault .setOption with
  | (some (.fail reason), k) => (.error reason, k)
  | (_, k) => (.ok (), k)

/-- Closes the descriptor of a step that failed. -/
def orClose (descriptor : Int) : Except Errno Unit × Kernel → Except ServerError Unit × Kernel
  | (.error reason, k) => (.error (.system reason), k.close descriptor)
  | (.ok (), k) => (.ok (), k)

/-- Opens a socket, binds it and listens on it. A socket that does not get that far is closed. -/
def openListener (k : Kernel) (host : String) (port : UInt16) : Except ServerError Int × Kernel :=
  match SocketAddress.parse? (hostAndPort host port) with
  | none => (.error .addressSyntax, k)
  | some address =>
    match k.takeFault .socket with
    | (some (.fail reason), k) => (.error (.system reason), k)
    | (_, k) =>
      let (descriptor, k) := k.allocate (.socket none)
      match orClose descriptor k.setOption with
      | (.error e, k) => (.error e, k)
      | (.ok (), k) =>
        match orClose descriptor (k.bind descriptor address) with
        | (.error e, k) => (.error e, k)
        | (.ok (), k) =>
          match orClose descriptor (k.listen descriptor) with
          | (.error e, k) => (.error e, k)
          | (.ok (), k) => (.ok descriptor, k)

/-- A listener for clients on the same host. -/
def openLocalListener (k : Kernel) : Int × Kernel := k.allocate (.listener {})

/-- The address that a socket is bound to. -/
def boundAddress (k : Kernel) (descriptor : Int) : Except ServerError SocketAddress × Kernel :=
  match k.takeFault .socketName with
  | (some (.fail reason), k) => (.error (.system reason), k)
  | (_, k) =>
    let result := match k.descriptors.get? descriptor with
      | none => .error (.system .badDescriptor)
      | some (.listener { address := some address, .. }) => .ok address
      | some (.socket (some address)) => .ok address
      | some (.listener _) | some (.socket none) | some (.stream _) => .error .addressFamily
      | some _ => .error (.system .notSocket)
    (result, k)

/-! ## Clients -/

/-- Whether a client can get to a listener. -/
def reachable (k : Kernel) (l : Listener) : Bool := l.address.isNone || k.loopback

/-- A client connects to a listener, if there is one it can reach. The result is the number of its
stream, which waits to be accepted. -/
def connect (k : Kernel) (descriptor : Int) : Option Nat × Kernel :=
  match k.descriptors.get? descriptor with
  | some (.listener l) =>
    if k.reachable l then
      let number := k.streams.length
      let listener := { l with backlog := l.backlog ++ [number] }
      (some number, { k with
        streams := k.streams ++ [({} : Stream)]
        descriptors := k.descriptors.set descriptor (.listener listener) }.notify descriptor)
    else (none, k)
  | _ => (none, k)

/-- Makes a descriptor the server's end of a new stream, in place of what it was. The result is the
number of the stream. -/
def pair (k : Kernel) (descriptor : Int) : Nat × Kernel :=
  let k := k.close descriptor
  let number := k.streams.length
  (number, { k with
    streams := k.streams ++ [({} : Stream)]
    descriptors := k.descriptors.set descriptor (.stream number) })

/-- Something that a client does to its stream. -/
def asClient {α : Type} (k : Kernel) (number : Nat) (f : Stream → α × Stream) : Option α × Kernel :=
  match k.streams[number]? with
  | none => (none, k)
  | some s =>
    let (result, s) := f s
    (some result, (k.updateStream number fun _ => s).notifyResource (.stream number))

/-- What an attempt to accept a client gives. -/
inductive AcceptResult
  /-- a client, with its address if it has one -/
  | accepted (descriptor : Int) (peer : Option SocketAddress)
  /-- no client is waiting -/
  | wouldBlock
  | failed (reason : Errno)
  deriving DecidableEq, Repr

/-- The address of a client that has connected to a listener. -/
def peerOf (l : Listener) (number : Nat) : Option SocketAddress :=
  l.address.map fun address =>
    { ip := if isAny address.ip then
        match address.ip with
        | .v4 .. => .v4 127 0 0 1
        | .v6 _ => .v6 (List.replicate 7 0 ++ [1])
      else address.ip
      port := 50000 + .ofNat number }

/-- Descriptors are signed numbers of 32 bits. -/
def descriptorLimit : Int := 0x80000000

/-- Accepts the client that has waited longest, as far as the listener is concerned. The client goes
on waiting if there is no number left for it. -/
def plainAccept (k : Kernel) (descriptor : Int) : AcceptResult × Kernel :=
  match k.descriptors.get? descriptor with
  | some (.listener l) =>
    match l.backlog with
    | [] => (.wouldBlock, k)
    | number :: backlog =>
      let accepted := k.descriptors.firstFree firstDescriptor
      if descriptorLimit ≤ accepted then (.failed .tooManyFiles, k)
      else
        let descriptors := k.descriptors.set descriptor (.listener { l with backlog })
        (.accepted accepted (peerOf l number),
          { k with descriptors := descriptors.set accepted (.stream number) })
  | some (.socket _) => (.failed .invalid, k)
  | some (.stream _) => (.failed .invalid, k)
  | some _ => (.failed .notSocket, k)
  | none => (.failed .badDescriptor, k)

/-- Accepts a client under a script for the coming calls; an interrupted call is made again. -/
def acceptUnder (k : Kernel) (descriptor : Int) : Script → AcceptResult × Kernel
  | some (.fail reason) :: rest =>
    if reason = .interrupted then acceptUnder k descriptor rest
    else
      (if reason = .wouldBlock then .wouldBlock else .failed reason,
        { k with scripts := k.scripts.set .accept rest })
  | script => { k with scripts := k.scripts.set .accept script.tail }.plainAccept descriptor

/-- Accepts the client that has waited longest. -/
def accept (k : Kernel) (descriptor : Int) : AcceptResult × Kernel :=
  k.acceptUnder descriptor (k.scripts.of .accept)

/-! ## The wake-up pipe -/

/-- How many bytes a pipe holds at most. -/
def pipeCapacity : Nat := 65536

/-- The byte that is written to wake the reader. -/
def wakeByte : UInt8 := 1

/-- Opens a pipe: the end that is read, and the end that is written. -/
def createPipe (k : Kernel) : Except ServerError (Int × Int) × Kernel :=
  match k.takeFault .createPipe with
  | (some (.fail reason), k) => (.error (.system reason), k)
  | (_, k) =>
    let number := k.pipes.length
    let k := { k with pipes := k.pipes ++ [({} : Pipe)] }
    let (out, k) := k.allocate (.pipeOut number)
    let (into, k) := k.allocate (.pipeIn number)
    (.ok (out, into), k)

/-- Puts one byte into a pipe. Nothing happens if the pipe is full, as a reader is sure to wake. -/
def wake (k : Kernel) (descriptor : Int) : Kernel :=
  match k.descriptors.get? descriptor with
  | some (.pipeIn number) =>
    match k.pipes[number]? with
    | some p =>
      if p.held < pipeCapacity && p.readable then
        (k.updatePipe number fun p => { p with held := p.held + 1 }).notifyResource
          (.pipeOut number)
      else k
    | none => k
  | _ => k

/-- Reads at most `room` bytes from a pipe, as far as the pipe is concerned. -/
def plainPipeRead (k : Kernel) (descriptor : Int) (room : Nat) : ReadResult × Kernel :=
  match k.descriptors.get? descriptor with
  | some (.pipeOut number) =>
    match k.pipes[number]? with
    | some p =>
      let count := min room p.held
      if room = 0 then (.data [], k)
      else if count = 0 then (if p.writable then .wouldBlock else .data [], k)
      else
        (.data (List.replicate count wakeByte),
          k.updatePipe number fun p => { p with held := p.held - count })
    | none => (.failed .badDescriptor, k)
  | _ => (.failed .badDescriptor, k)

/-- Reads from a pipe under a script for the coming reads; an interrupted call is made again. -/
def pipeReadUnder (k : Kernel) (descriptor : Int) (room : Nat) : Script → ReadResult × Kernel
  | some (.fail reason) :: rest =>
    if reason = .interrupted then pipeReadUnder k descriptor room rest
    else
      (if reason = .wouldBlock then .wouldBlock else .failed reason,
        { k with scripts := k.scripts.set (.read (some descriptor)) rest })
  | some (.limit n) :: rest =>
    { k with scripts := k.scripts.set (.read (some descriptor)) rest }.plainPipeRead descriptor
      (min room n)
  | script =>
    { k with scripts := k.scripts.set (.read (some descriptor)) script.tail }.plainPipeRead
      descriptor room

/-- Reads at most `room` bytes from a pipe. -/
def pipeRead (k : Kernel) (descriptor : Int) (room : Nat) : ReadResult × Kernel :=
  k.pipeReadUnder descriptor room (k.scripts.of (.read (some descriptor)))

/-- How many bytes are read at a time when a pipe is emptied. -/
def drainStep : Nat := 64

/-- Reads from a pipe a number of times, as long as something comes. -/
def drainFor (k : Kernel) (descriptor : Int) : Nat → Kernel
  | 0 => k
  | reads + 1 =>
    match k.pipeRead descriptor drainStep with
    | (.data (_ :: _), k) => drainFor k descriptor reads
    | (_, k) => k

/-- How many bytes are in the pipe behind a descriptor. -/
def held (k : Kernel) (descriptor : Int) : Nat :=
  match k.descriptors.get? descriptor with
  | some (.pipeOut number) => (k.pipes[number]?.map Pipe.held).getD 0
  | _ => 0

/-- Empties a pipe, so that the next byte put in is a change again. -/
def drain (k : Kernel) (descriptor : Int) : Kernel := k.drainFor descriptor (k.held descriptor + 1)

end FileServer.Kernel
