/-!
# Bytes

Requests and responses are lists of bytes. The rules that read them look at blanks (space and tab),
at the two bytes that end a line, and at letters without regard to case; none of them depends on a
character encoding. Text enters only where a name has to be shown or looked up, through
`Bytes.text?`, which is strict UTF-8.
-/

namespace FileServer

/-- A stretch of bytes. -/
abbrev Bytes := List UInt8

/-- A space or a tab. -/
def isBlank (b : UInt8) : Bool := b == 32 || b == 9

/-- Carriage return, the first byte of a line's end. -/
def carriageReturn : UInt8 := 13

/-- Line feed, the second byte of a line's end. -/
def lineFeed : UInt8 := 10

/-- One of the two bytes that end a line. -/
def isLineEnd (b : UInt8) : Bool := b == carriageReturn || b == lineFeed

/-- An ASCII digit. -/
def isDigit (b : UInt8) : Bool := 48 ≤ b && b ≤ 57

/-- The lower-case form of an ASCII letter; every other byte is its own. -/
def lowerCase (b : UInt8) : UInt8 := if 65 ≤ b && b ≤ 90 then b + 32 else b

namespace Bytes

/-- The UTF-8 form of a text. -/
def ofText (s : String) : Bytes := s.toByteArray.data.toList

/-- The text that the bytes spell, if they are UTF-8 throughout. -/
def text? (bytes : Bytes) : Option String := String.fromUTF8? bytes.toByteArray

/-- Equality up to the case of ASCII letters. -/
def sameLetters (a b : Bytes) : Bool := a.map lowerCase == b.map lowerCase

/-- Drops the blanks in front. -/
def dropBlanks (bytes : Bytes) : Bytes := bytes.dropWhile isBlank

/-- Drops the blanks at the end. -/
def dropTrailingBlanks (bytes : Bytes) : Bytes := (bytes.reverse.dropWhile isBlank).reverse

/-- The bytes up to the first blank. -/
def firstWord (bytes : Bytes) : Bytes := bytes.takeWhile (!isBlank ·)

/-- What follows the first word. -/
def afterWord (bytes : Bytes) : Bytes := bytes.dropWhile (!isBlank ·)

@[simp]
theorem firstWord_append_afterWord (bytes : Bytes) :
    bytes.firstWord ++ bytes.afterWord = bytes :=
  List.takeWhile_append_dropWhile

theorem sameLetters_length {a b : Bytes} (h : sameLetters a b) : a.length = b.length := by
  simpa using congrArg List.length (eq_of_beq h)

end Bytes

end FileServer
