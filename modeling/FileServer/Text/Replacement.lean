import FileServer.Bytes

/-!
# Text from any bytes

Bytes that are not UTF-8 can still be shown: each stretch that starts a character and does not go on
as it should, and each byte that starts none, is shown as the replacement character.
-/

namespace FileServer.Text

/-- The ranges in which the bytes behind the first byte of a character have to be; `none` if no
character starts with the byte. -/
def continuation? (b : UInt8) : Option (List (UInt8 × UInt8)) :=
  let tail := (0x80, 0xbf)
  if b < 0x80 then some []
  else if b < 0xc2 then none
  else if b < 0xe0 then some [tail]
  else if b = 0xe0 then some [(0xa0, 0xbf), tail]
  else if b = 0xed then some [(0x80, 0x9f), tail]
  else if b < 0xf0 then some [tail, tail]
  else if b = 0xf0 then some [(0x90, 0xbf), tail, tail]
  else if b < 0xf4 then some [tail, tail, tail]
  else if b = 0xf4 then some [(0x80, 0x8f), tail, tail]
  else none

/-- What stands for bytes that are no character. -/
def replacement : String := "\uFFFD"

/-- The state of showing bytes. -/
structure Shown where
  /-- what has been shown -/
  text : String := ""
  /-- the bytes of the character begun -/
  begun : Bytes := []
  /-- the ranges for the bytes that it lacks -/
  lacking : List (UInt8 × UInt8) := []

namespace Shown

/-- Takes in the first byte of a character. -/
def start (s : Shown) (b : UInt8) : Shown :=
  match continuation? b with
  | none => { s with text := s.text ++ replacement }
  | some [] => { s with text := s.text.push (Char.ofNat b.toNat) }
  | some lacking => { s with begun := [b], lacking }

/-- Takes in a byte. -/
def take (s : Shown) (b : UInt8) : Shown :=
  match s.lacking with
  | [] => s.start b
  | (first, last) :: lacking =>
    if first ≤ b ∧ b ≤ last then
      let bytes : Bytes := s.begun ++ [b]
      if lacking.isEmpty then { text := s.text ++ (Bytes.text? bytes).getD replacement }
      else { s with begun := bytes, lacking }
    else ({ text := s.text ++ replacement } : Shown).start b

end Shown

/-- The bytes as a text. -/
def ofBytes (bytes : Bytes) : String :=
  let shown := bytes.foldl Shown.take {}
  if shown.begun.isEmpty then shown.text else shown.text ++ replacement

end FileServer.Text
