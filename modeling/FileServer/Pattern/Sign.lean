import FileServer.Pattern.Mode

/-!
# Signs

The smallest things in a pattern: a character that stands for itself, a dot that stands for any, a
backslash and what it makes of the character behind it. Not every sign can be used in every mode:
there are no tables here of letters that differ in case only, or of words and digits in all scripts,
and what stands for bytes may not take a character apart.
-/

namespace FileServer.Pattern

/-- What one sign stands for. -/
inductive Sign
  /-- a character; `ofByte` says that it is given as the number of a byte -/
  | char (c : Char) (ofByte : Bool)
  /-- any character -/
  | any
  /-- a place between characters; `ofWord` says that a word starts or ends there, or does not -/
  | place (ofWord : Bool)
  /-- digits, white space or characters of words, or all others -/
  | kind (negated : Bool)
  deriving DecidableEq, Repr

/-- The first number that is not of an ASCII character. -/
def asciiLimit : Nat := 0x80

/-- Whether a sign can be used in a mode, outside brackets. -/
def Sign.fits (m : Mode) : Sign → Bool
  | .char c ofByte => if m.wide then !m.ignoreCase else !(ofByte && asciiLimit ≤ c.toNat)
  | .any => m.wide
  | .place ofWord => !(ofWord && m.wide)
  | .kind negated => !m.wide && !negated

/-! ## Behind a backslash -/

/-- The value of a hexadecimal digit. -/
def hexDigit? (c : Char) : Option Nat :=
  if c.isDigit then some (c.toNat - '0'.toNat)
  else if 'a' ≤ c ∧ c ≤ 'f' then some (c.toNat - 'a'.toNat + 10)
  else if 'A' ≤ c ∧ c ≤ 'F' then some (c.toNat - 'A'.toNat + 10)
  else none

/-- Reads a number of so many hexadecimal digits behind the `value` of those before. -/
def hexNumber? (m : Mode) : (digits : Nat) → (value : Nat) → List Char → Option (Nat × List Char)
  | 0, value, text => some (value, text)
  | digits + 1, value, text =>
    match m.skip text with
    | [] => none
    | c :: rest => (hexDigit? c).bind fun d => hexNumber? m digits (16 * value + d) rest

/-- Reads the number of a character. -/
def numbered? (m : Mode) (digits : Nat) (ofByte : Bool) (text : List Char) :
    Option (Sign × List Char) := do
  let (n, rest) ← hexNumber? m digits 0 text
  guard n.isValidChar
  return (.char (.ofNat n) ofByte, rest)

/-- The characters that have a letter of their own. -/
def lettered : List (Char × Char) :=
  [('a', '\x07'), ('f', '\x0c'), ('t', '\t'), ('n', '\n'), ('r', '\r'), ('v', '\x0b')]

/-- What a backslash makes of the character behind it, if that is all there is to it. A character
that is neither a letter nor a digit stands for itself. -/
def escaped? (c : Char) : Option Sign :=
  if c ∈ ['d', 's', 'w'] then some (.kind false)
  else if c ∈ ['D', 'S', 'W'] then some (.kind true)
  else if c ∈ ['A', 'z'] then some (.place false)
  else if c ∈ ['b', 'B', '<', '>'] then some (.place true)
  else
    ((lettered.lookup c).map (.char · false)).or
      (if c.toNat < asciiLimit ∧ ¬c.isAlphanum then some (.char c false) else none)

/-- Reads what stands behind a backslash. -/
def escape? (m : Mode) : List Char → Option (Sign × List Char)
  | [] => none
  | 'x' :: rest => numbered? m 2 true rest
  | 'u' :: rest => numbered? m 4 false rest
  | 'U' :: rest => numbered? m 8 false rest
  | c :: rest =>
    if c = 'b' ∧ rest.head? = some '\x7b' then none else (escaped? c).map (·, rest)

/-- Reads a sign outside brackets. -/
def sign? (m : Mode) : List Char → Option (Sign × List Char)
  | [] => none
  | '\\' :: rest => escape? m rest
  | '.' :: rest => some (.any, rest)
  | c :: rest => some (if c = '^' ∨ c = '$' then .place false else .char c false, rest)

end FileServer.Pattern
