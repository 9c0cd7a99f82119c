import FileServer.Bytes

/-!
# Decimal numbers

Two readers of decimal text. `Decimal.word?` takes digits alone and refuses a value that does not
fit in a machine word; it reads the length a request announces. `Decimal.unsigned` also takes one
leading plus sign and says what is wrong with a text it refuses; it reads the numbers of the
configuration. `Decimal.isReal` only tells whether a text is a number, with a fraction and an
exponent or without.
-/

namespace FileServer.Decimal

/-- One more than the largest machine word. -/
def wordLimit : Nat := 0x10000000000000000

/-- The number itself, if it is below the limit. -/
def below? (limit n : Nat) : Option Nat := if n < limit then some n else none

/-- The value of an ASCII digit. -/
def digit? (b : UInt8) : Option Nat := if isDigit b then some (b - 48).toNat else none

/-- Appends a digit to a number that has to stay in a machine word at every step. -/
def appendDigit? (n : Nat) (b : UInt8) : Option Nat := do
  let d ← digit? b
  let tens ← below? wordLimit (n * 10)
  below? wordLimit (tens + d)

/-- The value of a non-empty string of digits, if it fits in a machine word. -/
def word? (digits : Bytes) : Option Nat :=
  if digits.isEmpty then none else digits.foldlM appendDigit? 0

/-- Why a text is no number. -/
inductive NumberError
  /-- there is no text -/
  | empty
  /-- some character is no digit -/
  | invalidDigit
  /-- the value is above the largest allowed -/
  | tooLarge
  deriving DecidableEq, Repr

/-- The wording of a refusal. -/
def NumberError.message : NumberError → String
  | .empty => "cannot parse integer from empty string"
  | .invalidDigit => "invalid digit found in string"
  | .tooLarge => "number too large to fit in target type"

/-- Appends the digits of `text` to `n`. The first fault met decides: a character that is no digit,
or a digit that takes the value to the limit. -/
def appendDigits (limit : Nat) : Nat → List Char → Except NumberError Nat
  | n, [] => .ok n
  | n, c :: rest =>
    if !c.isDigit then .error .invalidDigit
    else
      let n := n * 10 + (c.toNat - 48)
      if n < limit then appendDigits limit n rest else .error .tooLarge

/-- A number below `limit`, written in digits after at most one plus sign. -/
def unsigned (limit : Nat) (text : String) : Except NumberError Nat :=
  match text.toList with
  | [] => .error .empty
  | ['+'] => .error .invalidDigit
  | '+' :: digits => appendDigits limit 0 digits
  | digits => appendDigits limit 0 digits

/-! ## Numbers with a fraction -/

/-- A text without the sign in front, if there is one. -/
def dropSign : List Char → List Char
  | '+' :: rest => rest
  | '-' :: rest => rest
  | text => text

/-- Whether a text is the exponent of a number, or empty. -/
def isExponent : List Char → Bool
  | [] => true
  | c :: rest => c.toLower = 'e' && !(dropSign rest).isEmpty && (dropSign rest).all Char.isDigit

/-- The names of what numbers have no digits for. -/
def nonFinite : List String := ["inf", "infinity", "nan"]

/-- Whether a text is a number: digits, with a point before, between or behind them and an exponent
if need be, or the name of an infinity, all of it behind a sign if need be. -/
def isReal (text : List Char) : Bool :=
  let text := dropSign text
  let whole := text.takeWhile Char.isDigit
  let rest := text.dropWhile Char.isDigit
  let (fraction, rest) := match rest with
    | '.' :: rest => (rest.takeWhile Char.isDigit, rest.dropWhile Char.isDigit)
    | _ => ([], rest)
  String.ofList (text.map Char.toLower) ∈ nonFinite ||
    (!(whole ++ fraction).isEmpty && isExponent rest)

end FileServer.Decimal
