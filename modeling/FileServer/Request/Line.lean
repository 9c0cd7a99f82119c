import FileServer.Buffer

/-!
# The request line

A request line is a method, a target and a version, set apart by blanks. The method is GET and the
version HTTP/1.1, both in any case; the version takes the whole rest of the line. A target is a path
that starts with a slash, or an address with scheme and authority in front of such a path, of which
only the path is kept. The parts are given as windows of the line.
-/

namespace FileServer.Request

/-- The methods served. -/
inductive Method
  /-- asks for a file -/
  | get
  deriving DecidableEq, Repr, Inhabited

/-- The name of a method as a request writes it. -/
def Method.name : Method → Bytes
  | .get => .ofText "GET"

/-- The version of the protocol. -/
def version : Bytes := .ofText "HTTP/1.1"

/-- The schemes that a target may start with. -/
def schemes : List Bytes := [.ofText "http://", .ofText "https://"]

/-- The byte that a path starts with. -/
def slash : UInt8 := 47

/-- The parts of a request line. -/
structure Line where
  /-- what is asked for, always a path -/
  target : Window
  /-- the version as written -/
  version : Window
  deriving DecidableEq, Repr

/-- How many bytes stand in front of the path of a target: none if it has no scheme, else scheme and
authority. A scheme without a later slash is no target. -/
def pathOffset? (target : Bytes) : Option Nat :=
  match schemes.find? fun scheme => Bytes.sameLetters (target.take scheme.length) scheme with
  | none => some 0
  | some scheme =>
    let afterScheme := target.drop scheme.length
    if slash ∈ afterScheme then some (scheme.length + afterScheme.idxOf slash) else none

/-- Reads a request line. -/
def Line.parse? (line : Bytes) : Option Line := do
  let start := line.dropBlanks
  guard (start.firstWord.sameLetters Method.get.name)
  let target := start.afterWord.dropBlanks
  let versionText := target.afterWord.dropBlanks
  guard (!target.firstWord.isEmpty && !versionText.isEmpty)
  guard (versionText.sameLetters Request.version)
  let offset ← pathOffset? target.firstWord
  guard ((target.firstWord.drop offset).head? == some slash)
  let position := line.length - target.length
  return {
    target := ⟨position + offset, position + target.firstWord.length⟩
    version := ⟨line.length - versionText.length, line.length⟩ }

end FileServer.Request
