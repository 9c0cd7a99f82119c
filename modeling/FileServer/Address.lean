/-!
# Addresses

Internet addresses and the addresses of sockets, with their written forms. Reading is strict: an
IPv4 address is four decimal numbers without superfluous zeros, an IPv6 address is eight groups of
up to four hexadecimal digits, of which one run may be left out and the last two may be written as
an IPv4 address. Writing leaves out the longest run of zero groups, and shows a mapped IPv4 address
as such.
-/

namespace FileServer

/-- An internet address. -/
inductive IpAddress
  /-- four numbers -/
  | v4 (a b c d : UInt8)
  /-- eight groups -/
  | v6 (groups : List UInt16)
  deriving DecidableEq, Repr

/-- The address of a socket. -/
structure SocketAddress where
  ip : IpAddress
  port : UInt16
  /-- the network interface, where an IPv6 address needs one -/
  scope : UInt32 := 0
  deriving DecidableEq, Repr

/-! ## Reading -/

/-- Something that reads a value from the front of a text, or refuses. -/
abbrev Scan (α : Type) := List Char → Option (α × List Char)

namespace Scan

/-- Reads one given character. -/
def char (c : Char) : Scan Unit
  | [] => none
  | d :: rest => if c = d then some ((), rest) else none

/-- The value of a digit in a base of at most sixteen. -/
def digitValue? (base : Nat) (c : Char) : Option Nat :=
  let value? :=
    if '0' ≤ c ∧ c ≤ '9' then some (c.toNat - 48)
    else if 'a' ≤ c ∧ c ≤ 'f' then some (c.toNat - 87)
    else if 'A' ≤ c ∧ c ≤ 'F' then some (c.toNat - 55)
    else none
  value?.filter (· < base)

/-- The value of a string of digits. -/
def valueOf (base : Nat) (digits : List Char) : Nat :=
  digits.foldl (fun n c => n * base + (digitValue? base c).getD 0) 0

/-- Reads the longest run of digits as a number below `limit`. A run longer than `maxDigits` is
refused, and so is one with superfluous zeros unless these are allowed. -/
def number (base limit : Nat) (maxDigits : Option Nat) (zeros : Bool) : Scan Nat := fun text =>
  let digits := text.takeWhile fun c => (digitValue? base c).isSome
  let tooLong := maxDigits.any (· < digits.length)
  let superfluous := !zeros && digits.head? == some '0' && 1 < digits.length
  if digits.isEmpty || tooLong || superfluous then none
  else if valueOf base digits < limit then some (valueOf base digits, text.drop digits.length)
  else none

end Scan

namespace IpAddress

/-- Reads one of the four numbers of an IPv4 address. -/
def scanOctet : Scan UInt8 := fun text => do
  let (n, rest) ← Scan.number 10 256 (some 3) false text
  return (.ofNat n, rest)

/-- Reads the four numbers of an IPv4 address. -/
def scanV4 : Scan (UInt8 × UInt8 × UInt8 × UInt8) := fun text => do
  let (a, text) ← scanOctet text
  let (_, text) ← Scan.char '.' text
  let (b, text) ← scanOctet text
  let (_, text) ← Scan.char '.' text
  let (c, text) ← scanOctet text
  let (_, text) ← Scan.char '.' text
  let (d, text) ← scanOctet text
  return ((a, b, c, d), text)

/-- A group made of two numbers of an IPv4 address. -/
def group (high low : UInt8) : UInt16 := high.toUInt16 * 256 + low.toUInt16

/-- Reads at most `limit` groups; `first` says that no colon stands in front of the next one. The
second result says whether they end in an IPv4 address. -/
def scanGroups : (limit : Nat) → (first : Bool) → List Char → List UInt16 × Bool × List Char
  | 0, _, text => ([], false, text)
  | limit + 1, first, text =>
    match if first then some text else (Scan.char ':' text).map (·.2) with
    | none => ([], false, text)
    | some start =>
      match if limit = 0 then none else scanV4 start with
      | some ((a, b, c, d), rest) => ([group a b, group c d], true, rest)
      | none =>
        match Scan.number 16 65536 (some 4) true start with
        | none => ([], false, text)
        | some (n, rest) =>
          let (groups, mapped, rest) := scanGroups limit false rest
          (.ofNat n :: groups, mapped, rest)

/-- Reads the groups of an IPv6 address. One run of groups may be left out between two colons; an
IPv4 address may stand only at the very end. -/
def scanV6 : Scan (List UInt16) := fun text =>
  let (front, mapped, rest) := scanGroups 8 true text
  if front.length = 8 then some (front, rest)
  else if mapped then none
  else do
    let (_, rest) ← Scan.char ':' rest
    let (_, rest) ← Scan.char ':' rest
    let (back, _, rest) := scanGroups (7 - front.length) true rest
    return (front ++ List.replicate (8 - front.length - back.length) 0 ++ back, rest)

end IpAddress

namespace SocketAddress

/-- Reads a port behind a colon. -/
def scanPort : Scan UInt16 := fun text => do
  let (_, text) ← Scan.char ':' text
  let (n, text) ← Scan.number 10 65536 none true text
  return (.ofNat n, text)

/-- Reads an interface behind a percent sign; without one it is zero. -/
def scanScope (text : List Char) : UInt32 × List Char :=
  let found := do
    let (_, text) ← Scan.char '%' text
    Scan.number 10 4294967296 none true text
  match found with
  | some (n, rest) => (.ofNat n, rest)
  | none => (0, text)

/-- Reads a socket address with an IPv4 address. -/
def parseV4? (text : List Char) : Option SocketAddress := do
  let ((a, b, c, d), text) ← IpAddress.scanV4 text
  let (port, text) ← scanPort text
  guard text.isEmpty
  return { ip := .v4 a b c d, port }

/-- Reads a socket address with an IPv6 address in square brackets. -/
def parseV6? (text : List Char) : Option SocketAddress := do
  let (_, text) ← Scan.char '[' text
  let (groups, text) ← IpAddress.scanV6 text
  let (scope, text) := scanScope text
  let (_, text) ← Scan.char ']' text
  let (port, text) ← scanPort text
  guard text.isEmpty
  return { ip := .v6 groups, port, scope }

/-- Reads a socket address. -/
def parse? (text : String) : Option SocketAddress :=
  parseV4? text.toList <|> parseV6? text.toList

end SocketAddress

/-! ## Writing -/

/-- A host and a port as one text; a host with a colon in it stands in square brackets. -/
def hostAndPort (host : String) (port : UInt16) : String :=
  if ':' ∈ host.toList then s!"[{host}]:{port.toNat}" else s!"{host}:{port.toNat}"

namespace IpAddress

/-- The IPv4 address that a mapped IPv6 address stands for. -/
def mapped? : IpAddress → Option IpAddress
  | v6 [0, 0, 0, 0, 0, 0xffff, high, low] =>
    some (v4 (high >>> 8).toUInt8 high.toUInt8 (low >>> 8).toUInt8 low.toUInt8)
  | _ => none

/-- The written form of groups, with colons between. -/
def groupsText (groups : List UInt16) : String :=
  ":".intercalate (groups.map fun g => .ofList (Nat.toDigits 16 g.toNat))

/-- The length of the run of zero groups at the front. -/
def zeroRun (groups : List UInt16) : Nat := (groups.takeWhile (· == 0)).length

/-- Where the longest run of zero groups starts, and how long it is; the first of several counts. -/
def longestZeroRun (groups : List UInt16) : Nat × Nat :=
  (List.range groups.length).foldl (fun best start =>
    if best.2 < zeroRun (groups.drop start) then (start, zeroRun (groups.drop start)) else best)
      (0, 0)

/-- The written form of an address. -/
def text (ip : IpAddress) : String :=
  match ip with
  | v4 a b c d => s!"{a.toNat}.{b.toNat}.{c.toNat}.{d.toNat}"
  | v6 groups =>
    match ip.mapped? with
    | some (v4 a b c d) => s!"::ffff:{a.toNat}.{b.toNat}.{c.toNat}.{d.toNat}"
    | _ =>
      let (start, length) := longestZeroRun groups
      if 1 < length then
        groupsText (groups.take start) ++ "::" ++ groupsText (groups.drop (start + length))
      else groupsText groups

end IpAddress

/-- The written form of a socket address. -/
def SocketAddress.text (address : SocketAddress) : String :=
  match address.ip with
  | .v4 .. => s!"{address.ip.text}:{address.port.toNat}"
  | .v6 _ =>
    let scope := if address.scope = 0 then "" else s!"%{address.scope.toNat}"
    s!"[{address.ip.text}{scope}]:{address.port.toNat}"

end FileServer
