/-!
# Tokens of JSON

A document is cut into tokens: marks, words, numbers and strings, with white space between them. Of
a number only what a whole number can be read from is kept. A string may spell halves of surrogate
pairs by their code points; two halves that belong together make one character, and a string that
keeps a lone half is a token, but not a text.
-/

namespace FileServer.Json

/-- A number as it is written. -/
structure Number where
  /-- it starts with a minus sign -/
  negative : Bool
  /-- the value of the digits before a fraction or an exponent -/
  whole : Nat
  /-- it has neither a fraction nor an exponent -/
  plain : Bool
  deriving DecidableEq, Repr

/-- A token. -/
inductive Token
  | openBrace
  | closeBrace
  | openBracket
  | closeBracket
  | colon
  | comma
  | null
  | bool (value : Bool)
  | number (value : Number)
  /-- a string, without a text if it keeps half of a surrogate pair -/
  | string (text : Option String)
  deriving DecidableEq, Repr

namespace Token

/-! ## Strings -/

/-- Whether a code point is the first half of a surrogate pair. -/
def isHighHalf (n : Nat) : Bool := 0xd800 ≤ n && n < 0xdc00

/-- Whether a code point is the second half of a surrogate pair. -/
def isLowHalf (n : Nat) : Bool := 0xdc00 ≤ n && n < 0xe000

/-- The characters that code points spell, unless half of a pair is left alone. -/
def joinHalves : List Nat → Option (List Char)
  | [] => some []
  | [n] => if isHighHalf n || isLowHalf n then none else some [Char.ofNat n]
  | n :: m :: rest =>
    if isHighHalf n && isLowHalf m then
      (joinHalves rest).map (Char.ofNat (0x10000 + (n - 0xd800) * 0x400 + (m - 0xdc00)) :: ·)
    else if isHighHalf n || isLowHalf n then none
    else (joinHalves (m :: rest)).map (Char.ofNat n :: ·)

/-- The value of a hexadecimal digit. -/
def hexDigit? (c : Char) : Option Nat :=
  if c.isDigit then some (c.toNat - 48)
  else if 'a' ≤ c ∧ c ≤ 'f' then some (c.toNat - 87)
  else if 'A' ≤ c ∧ c ≤ 'F' then some (c.toNat - 55)
  else none

/-- The value of four hexadecimal digits. -/
def hexCode? (a b c d : Char) : Option Nat :=
  [a, b, c, d].foldlM (fun n digit => (hexDigit? digit).map (n * 16 + ·)) 0

/-- What a backslash makes of the character behind it. -/
def escape? : Char → Option Nat
  | '"' => some 0x22
  | '\\' => some 0x5c
  | '/' => some 0x2f
  | 'b' => some 0x08
  | 'f' => some 0x0c
  | 'n' => some 0x0a
  | 'r' => some 0x0d
  | 't' => some 0x09
  | _ => none

/-- Reads a string from behind its opening quote: its code points, and what follows the closing
quote. Control characters have to be escaped. -/
def string? : List Char → Option (List Nat × List Char)
  | [] => none
  | '"' :: rest => some ([], rest)
  | '\\' :: 'u' :: a :: b :: c :: d :: rest => do
    let code ← hexCode? a b c d
    let (codes, rest) ← string? rest
    return (code :: codes, rest)
  | '\\' :: c :: rest => do
    let code ← escape? c
    let (codes, rest) ← string? rest
    return (code :: codes, rest)
  | c :: rest =>
    if c < ' ' then none
    else do
      let (codes, rest) ← string? rest
      return (c.toNat :: codes, rest)

/-! ## Numbers -/

/-- Passes over digits, of which there has to be one. -/
def digits? (text : List Char) : Option (List Char × List Char) :=
  if text.head?.any Char.isDigit then
    some (text.takeWhile Char.isDigit, text.dropWhile Char.isDigit)
  else none

/-- Reads the whole part of a number, which starts with zero only if it is zero. -/
def whole? (text : List Char) : Option (Nat × List Char) := do
  let (digits, rest) ← digits? text
  guard (digits.head? ≠ some '0' ∨ digits.length = 1)
  return (digits.foldl (fun n c => n * 10 + (c.toNat - 48)) 0, rest)

/-- Passes over a fraction, if there is one. -/
def fraction? : List Char → Option (List Char)
  | '.' :: rest => (digits? rest).map (·.2)
  | rest => some rest

/-- Passes over a sign, if there is one. -/
def skipSign : List Char → List Char
  | '+' :: rest => rest
  | '-' :: rest => rest
  | rest => rest

/-- Passes over an exponent, if there is one. -/
def exponent? : List Char → Option (List Char)
  | 'e' :: rest => (digits? (skipSign rest)).map (·.2)
  | 'E' :: rest => (digits? (skipSign rest)).map (·.2)
  | rest => some rest

/-- Reads a number from behind its sign. -/
def number? (negative : Bool) (text : List Char) : Option (Token × List Char) := do
  let (whole, rest) ← whole? text
  let behindFraction ← fraction? rest
  let behindExponent ← exponent? behindFraction
  let plain := behindExponent.length = rest.length
  return (.number { negative, whole, plain }, behindExponent)

/-! ## Documents -/

/-- Reads the token at the start of a text. -/
def next? : List Char → Option (Token × List Char)
  | '\x7b' :: rest => some (.openBrace, rest)
  | '\x7d' :: rest => some (.closeBrace, rest)
  | '[' :: rest => some (.openBracket, rest)
  | ']' :: rest => some (.closeBracket, rest)
  | ':' :: rest => some (.colon, rest)
  | ',' :: rest => some (.comma, rest)
  | 'n' :: 'u' :: 'l' :: 'l' :: rest => some (.null, rest)
  | 't' :: 'r' :: 'u' :: 'e' :: rest => some (.bool true, rest)
  | 'f' :: 'a' :: 'l' :: 's' :: 'e' :: rest => some (.bool false, rest)
  | '"' :: rest => do
    let (codes, rest) ← string? rest
    return (.string ((joinHalves codes).map .ofList), rest)
  | '-' :: rest => number? true rest
  | text => number? false text

/-- White space between tokens. -/
def isSpace (c : Char) : Bool := c ∈ [' ', '\t', '\n', '\r']

/-- Cuts at most `count` tokens off a text, which has to end with the last of them. -/
def scanFor : (count : Nat) → List Char → Option (List Token)
  | 0, text => if (text.dropWhile isSpace).isEmpty then some [] else none
  | count + 1, text =>
    match text.dropWhile isSpace with
    | [] => some []
    | c :: rest => do
      let (token, rest) ← next? (c :: rest)
      let tokens ← scanFor count rest
      return token :: tokens

/-- The tokens of a document. There are no more of them than characters. -/
def scan (text : String) : Option (List Token) := scanFor text.length text.toList

end Token

end FileServer.Json
