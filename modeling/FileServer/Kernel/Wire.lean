import FileServer.Kernel.Stream

/-!
# Wires

A wire is all that a connection sees of the kernel: the stream behind its descriptor, if there is
one, and the scripts for reading and writing it. Reads and writes go through a wire. A call that was
interrupted is made again, so an interruption is never reported.
-/

namespace FileServer

/-- The kernel as seen through one descriptor. -/
structure Wire where
  /-- what the next reads do -/
  reads : Script := []
  /-- what the next writes do -/
  writes : Script := []
  /-- the stream behind the descriptor; without one every call fails -/
  stream : Option Stream := none
  deriving DecidableEq, Repr, Inhabited

namespace Wire

/-- Reads at most `room` bytes, as far as the stream is concerned. -/
def plainRead (w : Wire) (room : Nat) : ReadResult × Wire :=
  match w.stream with
  | none => (.failed .badDescriptor, w)
  | some s =>
    let (result, s) := s.read room
    (result, { w with stream := some s })

/-- Writes bytes, as far as the stream is concerned. -/
def plainWrite (w : Wire) (bytes : Bytes) : WriteResult × Wire :=
  match w.stream with
  | none => (.failed .badDescriptor, w)
  | some s =>
    let (result, s) := s.write bytes
    (result, { w with stream := some s })

/-- Reads at most `room` bytes under a script for the coming reads. -/
def readUnder (w : Wire) (room : Nat) : Script → ReadResult × Wire
  | [] => { w with reads := [] }.plainRead room
  | none :: rest => { w with reads := rest }.plainRead room
  | some (.limit 0) :: rest => (.data [], { w with reads := rest })
  | some (.limit (n + 1)) :: rest => { w with reads := rest }.plainRead (min room (n + 1))
  | some (.fail reason) :: rest =>
    if reason = .interrupted then readUnder w room rest
    else if reason = .wouldBlock then (.wouldBlock, { w with reads := rest })
    else (.failed reason, { w with reads := rest })

/-- Reads at most `room` bytes. -/
def read (w : Wire) (room : Nat) : ReadResult × Wire := w.readUnder room w.reads

/-- Writes bytes under a script for the coming writes. -/
def writeUnder (w : Wire) (bytes : Bytes) : Script → WriteResult × Wire
  | [] => { w with writes := [] }.plainWrite bytes
  | none :: rest => { w with writes := rest }.plainWrite bytes
  | some (.limit 0) :: rest => (.accepted 0, { w with writes := rest })
  | some (.limit (n + 1)) :: rest => { w with writes := rest }.plainWrite (bytes.take (n + 1))
  | some (.fail reason) :: rest =>
    if reason = .interrupted then writeUnder w bytes rest
    else if reason = .wouldBlock then (.wouldBlock, { w with writes := rest })
    else (.failed reason, { w with writes := rest })

/-- The most pieces that one write takes. -/
def maxPieces : Nat := 8

/-- Writes several pieces as one. Empty pieces are left out; of the others the first eight count,
and without any there is no call at all. -/
def write (w : Wire) (pieces : List Bytes) : WriteResult × Wire :=
  let offered := (pieces.filter (!·.isEmpty)).take maxPieces
  if offered.isEmpty then (.accepted 0, w) else w.writeUnder offered.flatten w.writes

end Wire

end FileServer
