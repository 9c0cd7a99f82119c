import FileServer.Buffer
import FileServer.Decimal

/-!
# Header lines

Three headers matter: `Connection`, which may ask to keep the connection, `Content-Length`, which
announces a body, and `Host`. A name is what stands before the first colon, in any case. Every other
line, also one without a colon, is accepted and has no effect.
-/

namespace FileServer.Request

/-- What a header line says. -/
inductive Header
  /-- the connection is to be kept, or the line says something else about it -/
  | connection (keep : Bool)
  /-- the length of the body, if it is a decimal number -/
  | contentLength (value : Option Nat)
  /-- where in the line the host stands -/
  | host (value : Window)
  /-- nothing of interest -/
  | other
  deriving DecidableEq, Repr

/-- The byte between name and value. -/
def colon : UInt8 := 58

/-- Reads a header line. The value starts at the first byte after the colon that is no blank; the
host keeps its trailing blanks, the other values are taken without them. -/
def Header.parse (line : Bytes) : Header :=
  if colon ∈ line then
    let name : Bytes := line.take (line.idxOf colon)
    let value : Bytes := Bytes.dropBlanks (line.drop (line.idxOf colon + 1))
    if name.sameLetters (.ofText "Connection") then
      .connection (value.dropTrailingBlanks.sameLetters (.ofText "keep-alive"))
    else if name.sameLetters (.ofText "Content-Length") then
      .contentLength (Decimal.word? value.dropTrailingBlanks)
    else if name.sameLetters (.ofText "Host") then
      .host ⟨line.length - value.length, line.length⟩
    else .other
  else .other

end FileServer.Request
