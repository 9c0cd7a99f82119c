import FileServer.Text.Cut

/-!
# Modes of a pattern

A pattern is a text that describes texts. How its signs are meant depends on a mode, which the
pattern can change from one place to another by flags: letters stand for themselves or for those of
either case, signs stand for characters or for bytes, and blanks and comments count or do not count.
-/

namespace FileServer.Pattern

/-- How a stretch of a pattern is read. -/
structure Mode where
  /-- letters stand for those of either case -/
  ignoreCase : Bool := false
  /-- signs stand for characters, not for bytes -/
  wide : Bool := true
  /-- white space and comments count for nothing -/
  spaced : Bool := false
  deriving DecidableEq, Repr, Inhabited

/-- Drops white space and comments. A comment starts with a number sign and goes on to the end of
its line. -/
def dropBlanks (inComment : Bool) : List Char → List Char
  | [] => []
  | c :: rest =>
    if inComment then dropBlanks (c != '\n') rest
    else if Text.isWhiteSpace c then dropBlanks false rest
    else if c = '#' then dropBlanks true rest
    else c :: rest

namespace Mode

/-- Passes over what counts for nothing. -/
def skip (m : Mode) (text : List Char) : List Char :=
  if m.spaced then dropBlanks false text else text

/-! ## Flags -/

/-- The letters that are flags. Some of them matter only when a text is matched. -/
def flagLetters : List Char := ['i', 'm', 's', 'U', 'u', 'R', 'x']

/-- Sets a flag. -/
def set (m : Mode) (letter : Char) (on : Bool) : Mode :=
  match letter with
  | 'i' => { m with ignoreCase := on }
  | 'u' => { m with wide := on }
  | 'x' => { m with spaced := on }
  | _ => m

/-- Flags that have been read. -/
structure Flags where
  /-- the mode that they lead to -/
  mode : Mode
  /-- the flags, the last one first, with the dash before those that are taken off -/
  seen : List Char := []
  /-- whether flags are being put on -/
  on : Bool := true
  deriving DecidableEq, Repr

/-- Takes in a flag, or the dash behind which flags are taken off. Neither may come twice. -/
def Flags.take? (f : Flags) (c : Char) : Option Flags :=
  if c ∈ f.seen then none
  else if c = '-' then some { f with seen := c :: f.seen, on := false }
  else if c ∈ flagLetters then some { f with mode := f.mode.set c f.on, seen := c :: f.seen }
  else none

/-- Reads flags up to the bracket or colon that ends them; a dash may not be the last of them. The
result is the flags and the text from that mark on. -/
def Flags.read? (f : Flags) : List Char → Option (Flags × List Char)
  | [] => none
  | c :: rest =>
    if c = ':' ∨ c = ')' then if f.seen.head? = some '-' then none else some (f, c :: rest)
    else (f.take? c).bind fun f => read? f rest

end Mode

end FileServer.Pattern
