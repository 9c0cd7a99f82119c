import FileServer.Bytes
import FileServer.Kernel.Fault

/-!
# Streams

A stream joins a client to the server. What the client sends waits until the server reads it; what
the server writes is kept from the beginning, together with how much of it the client has received,
so that the whole of what was written to a client can be spoken about at any time.
-/

namespace FileServer

/-- A connected pair of sockets, with the client at one end and the server at the other. -/
structure Stream where
  /-- sent by the client and not yet read by the server -/
  inbound : Bytes := []
  /-- all that the server has written -/
  outbound : Bytes := []
  /-- how much of it the client has received -/
  received : Nat := 0
  /-- the client has ended its sending side -/
  ended : Bool := false
  /-- the client has closed its end -/
  abandoned : Bool := false
  /-- the client left with data unread, and no read has reported it yet -/
  broken : Bool := false
  /-- the server has closed its end -/
  dropped : Bool := false
  deriving DecidableEq, Repr, Inhabited

/-- What a read gives. -/
inductive ReadResult
  /-- bytes; none at all is the end of the stream -/
  | data (bytes : Bytes)
  /-- there is nothing to read now -/
  | wouldBlock
  | failed (reason : Errno)
  deriving DecidableEq, Repr

/-- What a write gives. -/
inductive WriteResult
  /-- so many bytes were accepted -/
  | accepted (count : Nat)
  /-- nothing can be accepted now -/
  | wouldBlock
  | failed (reason : Errno)
  deriving DecidableEq, Repr

namespace Stream

/-! ## The server's end -/

/-- Reads at most `room` bytes. -/
def read (s : Stream) (room : Nat) : ReadResult × Stream :=
  if room = 0 then (.data [], s)
  else if !s.inbound.isEmpty then
    (.data (s.inbound.take room), { s with inbound := s.inbound.drop room })
  else if s.broken then (.failed .connectionReset, { s with broken := false })
  else if s.ended || s.abandoned then (.data [], s)
  else (.wouldBlock, s)

/-- Writes bytes, all of which are accepted as long as the client is there. -/
def write (s : Stream) (bytes : Bytes) : WriteResult × Stream :=
  if s.abandoned then (.failed .brokenPipe, s)
  else (.accepted bytes.length, { s with outbound := s.outbound ++ bytes })

/-- The server closes its end. -/
def drop (s : Stream) : Stream := { s with dropped := true }

/-! ## The client's end -/

/-- The client sends bytes; `none` if the server is gone or the sending side has been ended. -/
def send (s : Stream) (bytes : Bytes) : Option Nat × Stream :=
  if s.dropped || s.ended || s.abandoned then (none, s)
  else (some bytes.length, { s with inbound := s.inbound ++ bytes })

/-- The bytes that the client has yet to receive. -/
def undelivered (s : Stream) : Bytes := s.outbound.drop s.received

/-- The client receives all that has been written. -/
def receive (s : Stream) : Bytes × Stream :=
  (s.undelivered, { s with received := s.outbound.length })

/-- The client ends its sending side. -/
def finish (s : Stream) : Stream := { s with ended := true }

/-- The client closes its end. -/
def abandon (s : Stream) : Stream :=
  { s with abandoned := true, broken := !s.undelivered.isEmpty }

end Stream

end FileServer
