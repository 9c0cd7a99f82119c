import FileServer.Pattern.Brackets
import FileServer.Text.Alphanumeric

/-!
# Valid patterns

Whether a text is a pattern that can be used: its groups and brackets are closed, whatever is
repeated is there, every sign can be used in the mode it stands in, and it is not nested too deep.
Nothing else about a pattern matters here, so what is kept of its parts is how deep they are nested.
-/

namespace FileServer.Pattern

/-- A part of a sequence. -/
inductive Part
  /-- a change of the mode, which cannot be repeated -/
  | flags
  /-- anything else -/
  | item (depth : Nat)
  deriving DecidableEq, Repr

/-- How deep a part is nested. -/
def Part.depth : Part → Nat
  | flags => 0
  | item depth => depth

/-- A sequence of parts and the alternatives before it. -/
structure Level where
  /-- how deep the alternatives are nested -/
  alternatives : List Nat := []
  /-- the parts so far, the last one first -/
  parts : List Part := []
  deriving DecidableEq, Repr

namespace Level

/-- How deep the sequence is nested. -/
def sequenceDepth (l : Level) : Nat := nested (l.parts.map Part.depth)

/-- How deep the whole is nested. -/
def depth (l : Level) : Nat := nested (l.sequenceDepth :: l.alternatives)

/-- Adds a part. -/
def add (l : Level) (part : Part) : Level := { l with parts := part :: l.parts }

/-- Begins another alternative. -/
def branch (l : Level) : Level := { alternatives := l.sequenceDepth :: l.alternatives }

/-- Repeats the last part. -/
def repeat? (l : Level) : Option Level :=
  match l.parts with
  | .item depth :: parts => some { l with parts := .item (depth + 1) :: parts }
  | _ => none

end Level

/-- A pattern of which a part has been read. -/
structure Reading where
  mode : Mode := {}
  /-- what has been read of the innermost group -/
  level : Level := {}
  /-- the groups around it, the innermost first, with the modes that come back behind them -/
  outer : List (Mode × Level) := []
  /-- the names of groups -/
  names : List (List Char) := []
  deriving DecidableEq, Repr

namespace Reading

/-- Adds a part. -/
def add (r : Reading) (part : Part) : Reading := { r with level := r.level.add part }

/-! ## Groups -/

/-- Begins a group. -/
def enter (r : Reading) (mode : Mode) : Reading :=
  { r with mode, level := {}, outer := (r.mode, r.level) :: r.outer }

/-- Ends a group. -/
def leave? (r : Reading) : Option Reading :=
  match r.outer with
  | [] => none
  | (mode, level) :: outer =>
    some { r with mode, level := level.add (.item (r.level.depth + 1)), outer }

/-- Whether the name of a group may start with a character. -/
def startsName (c : Char) : Bool := c = '_' || Text.isAlphabetic c

/-- Whether a character may stand in the name of a group. -/
def isNameChar (c : Char) : Bool := c ∈ ['_', '.', '[', ']'] || Text.isAlphanumeric c

/-- Reads the name of a group, which no other group has, and begins the group. -/
def enterNamed? (r : Reading) (text : List Char) : Option (Reading × List Char) := do
  let name := text.takeWhile (· ≠ '>')
  guard (name.head?.any startsName && name.tail.all isNameChar && name ∉ r.names)
  match text.dropWhile (· ≠ '>') with
  | _ :: rest => return ({ r with names := name :: r.names }.enter r.mode, rest)
  | [] => none

/-- Reads flags. They are followed by a group that they hold for, or hold for the rest of the group
that they stand in. -/
def flags? (r : Reading) (text : List Char) : Option (Reading × List Char) := do
  let (f, rest) ← ({ mode := r.mode } : Mode.Flags).read? text
  if rest.head? = some ':' then return (r.enter f.mode, rest.tail)
  else if f.seen.isEmpty then none
  else return ({ r with mode := f.mode }.add .flags, rest.tail)

/-- Reads what stands behind an opening bracket. -/
def group? (r : Reading) : List Char → Option (Reading × List Char)
  | '?' :: 'P' :: '<' :: rest => r.enterNamed? rest
  | '?' :: '<' :: rest => r.enterNamed? rest
  | '?' :: rest => r.flags? rest
  | text => some (r.enter r.mode, text)

/-! ## The whole -/

/-- Passes over the mark by which a repetition takes as little as it can. -/
def dropLazy : List Char → List Char
  | '?' :: rest => rest
  | text => text

/-- Reads a sign. -/
def sign? (r : Reading) (text : List Char) : Option (Reading × List Char) := do
  let (sign, rest) ← Pattern.sign? r.mode text
  guard (sign.fits r.mode)
  return (r.add (.item 0), rest)

/-- Reads the next part. Counted repetitions are not to be had. -/
def next? (r : Reading) : List Char → Option (Reading × List Char)
  | '(' :: rest => r.group? (r.mode.skip rest)
  | ')' :: rest => r.leave?.map (·, rest)
  | '|' :: rest => some ({ r with level := r.level.branch }, rest)
  | '[' :: rest => (Brackets.depth? r.mode rest).map fun (depth, rest) =>
    (r.add (.item depth), rest)
  | '\x7b' :: _ => none
  | c :: rest =>
    if c ∈ ['?', '*', '+'] then r.level.repeat?.map fun level => ({ r with level }, dropLazy rest)
    else r.sign? (c :: rest)
  | [] => none

/-- Reads all parts; every turn takes at least one character. -/
def all? : (turns : Nat) → Reading → List Char → Option Reading
  | 0, _, _ => none
  | turns + 1, r, text =>
    match r.mode.skip text with
    | [] => some r
    | text => (r.next? text).bind fun (r, rest) => all? turns r rest

end Reading

/-- How deep a pattern may be nested. -/
def maxDepth : Nat := 250

/-- Whether a text is a pattern that can be used. -/
def isValid (text : List Char) : Bool :=
  match Reading.all? (text.length + 1) {} text with
  | some r => r.outer.isEmpty && r.level.depth ≤ maxDepth
  | none => false

end FileServer.Pattern
