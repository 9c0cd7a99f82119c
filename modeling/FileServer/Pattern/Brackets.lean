import FileServer.Pattern.Sign

/-!
# Brackets

In brackets a pattern lists characters: single ones, ranges, named classes such as `[:digit:]`, and
brackets within brackets; two such lists can be joined by `&&`, `--` or `~~`. Here it is read
whether the brackets are well formed and can be used, and how deep they are nested.
-/

namespace FileServer.Pattern

/-- How deep a whole is nested whose parts are nested so deep. A lone part is the whole itself. -/
def nested : List Nat → Nat
  | [] => 0
  | [depth] => depth
  | depths => depths.foldl max 0 + 1

/-- Brackets that are being read. -/
structure Brackets where
  /-- how deep the items behind the last operator are nested -/
  items : List Nat := []
  /-- how deep what stands before the last operator is nested, if there is one -/
  left : Option Nat := none
  /-- nothing but dashes has been read -/
  isFresh : Bool := true
  deriving DecidableEq, Repr

namespace Brackets

/-- How deep brackets are nested without counting themselves. -/
def content (b : Brackets) : Nat :=
  match b.left with
  | none => nested b.items
  | some left => nested [left, nested b.items]

/-- How deep brackets are nested. -/
def depth (b : Brackets) : Nat := b.content + 1

/-- Adds an item. -/
def add (b : Brackets) (depth : Nat) : Brackets := { b with items := depth :: b.items }

/-- Goes on behind an operator. -/
def goOn (b : Brackets) : Brackets := { left := some b.content, isFresh := false }

/-! ## Items -/

/-- Whether a character can be an item. -/
def admits (m : Mode) (c : Char) : Bool := if m.wide then !m.ignoreCase else c.toNat < asciiLimit

/-- Whether a sign can be an item. -/
def admitsSign (m : Mode) : Sign → Bool
  | .char c _ => admits m c
  | .kind negated => !m.wide && !negated
  | _ => false

/-- Whether two signs can be the ends of a range. -/
def admitsRange (m : Mode) : Sign → Sign → Bool
  | .char first _, .char last _ => first ≤ last && admits m first && admits m last
  | _, _ => false

/-- The names of the classes. -/
def classNames : List String := [
  "alnum", "alpha", "ascii", "blank", "cntrl", "digit", "graph", "lower", "print", "punct", "space",
  "upper", "word", "xdigit"]

/-- Reads a named class behind its opening bracket. The result says whether it is negated. -/
def named? : List Char → Option (Bool × List Char)
  | ':' :: rest =>
    let negated := rest.head? = some '^'
    let rest := if negated then rest.tail else rest
    match rest.dropWhile (· ≠ ':') with
    | ':' :: ']' :: behind =>
      if String.ofList (rest.takeWhile (· ≠ ':')) ∈ classNames then some (negated, behind) else none
    | _ => none
  | _ => none

/-- Whether a named class can be an item. -/
def admitsNamed (m : Mode) (negated : Bool) : Bool := if m.wide then !m.ignoreCase else !negated

/-- Reads the sign of an item. -/
def sign? (m : Mode) : List Char → Option (Sign × List Char)
  | [] => none
  | '\\' :: rest => escape? m rest
  | c :: rest => some (.char c false, rest)

/-- The first character behind blanks, where a comment counts as a blank no further than its number
sign. -/
def firstBehindBlanks (inComment : Bool) : List Char → Option Char
  | [] => none
  | c :: rest =>
    if Text.isWhiteSpace c then firstBehindBlanks inComment rest
    else if c = '#' ∧ !inComment then firstBehindBlanks true rest
    else some c

/-- The character that decides whether a dash stands in a range. -/
def decisive (m : Mode) (text : List Char) : Option Char :=
  if m.spaced then (firstBehindBlanks false text).or text.head? else text.head?

/-- Reads a single item or a range. A dash before another dash or before a closing bracket makes no
range. -/
def item? (m : Mode) (text : List Char) : Option (List Char) := do
  let (first, rest) ← sign? m text
  match m.skip rest with
  | [] => none
  | '-' :: behind =>
    if decisive m behind ∈ [some ']', some '-'] then
      guard (admitsSign m first)
      return '-' :: behind
    else
      let (last, rest) ← sign? m (m.skip behind)
      guard (admitsRange m first last)
      return rest
  | rest =>
    guard (admitsSign m first)
    return rest

/-! ## Whole brackets -/

/-- Begins brackets; negated ones would stand for bytes that are no characters where signs stand for
bytes. -/
def begin? (m : Mode) (text : List Char) : Option (List Char) :=
  match m.skip text with
  | '^' :: rest => if m.wide then some rest else none
  | text => some text

/-- Whether an operator starts with a character and the one behind it. -/
def isOperator (c : Char) (next : Option Char) : Bool := c ∈ ['&', '-', '~'] && next = some c

/-- Reads the rest of brackets, with the brackets around them, the innermost first; every turn takes
at least one character. The result is the depth of the outermost ones. -/
def rest? (m : Mode) :
    (turns : Nat) → Brackets → List Brackets → List Char → Option (Nat × List Char)
  | 0, _, _, _ => none
  | turns + 1, b, outer, text =>
    match m.skip text with
    | [] => none
    | c :: rest =>
      if b.isFresh ∧ (c = '-' ∨ c = ']' ∧ b.items = []) then
        if admits m c then rest? m turns { b.add 0 with isFresh := c = '-' } outer rest else none
      else
        let b := { b with isFresh := false }
        if c = ']' then
          match outer with
          | [] => some (b.depth, rest)
          | o :: outer => rest? m turns (o.add b.depth) outer rest
        else if c = '[' then
          match named? rest with
          | some (negated, rest) =>
            if admitsNamed m negated then rest? m turns (b.add 0) outer rest else none
          | none => (begin? m rest).bind fun rest => rest? m turns {} (b :: outer) rest
        else if isOperator c rest.head? then rest? m turns b.goOn outer rest.tail
        else (item? m (c :: rest)).bind fun rest => rest? m turns (b.add 0) outer rest

/-- Reads brackets behind the opening one. The result is how deep they are nested. -/
def depth? (m : Mode) (text : List Char) : Option (Nat × List Char) := do
  let rest ← begin? m text
  rest? m (rest.length + 1) {} [] rest

end Brackets

end FileServer.Pattern
