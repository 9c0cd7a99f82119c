import FileServer.Bytes
import FileServer.Text.Cut

/-!
# Lines of a variables file

A variables file is read line by line, except that a line goes on as long as a quote is open. While
the end of a line is looked for, a number sign behind white space starts a comment, and the
character behind a backslash counts for nothing. A line that starts with a number sign is a comment
altogether.
-/

namespace FileServer.DotEnv

/-- What the characters so far have opened. -/
inductive Quoting
  /-- nothing -/
  | plain
  /-- white space, behind which a comment may start -/
  | blank
  /-- a backslash -/
  | escape
  /-- a single quote -/
  | strong
  /-- a backslash inside single quotes -/
  | strongEscape
  /-- a double quote -/
  | weak
  /-- a backslash inside double quotes -/
  | weakEscape
  deriving DecidableEq, Repr

/-- What a character outside quotes opens. -/
def Quoting.opened : Char → Quoting
  | '\\' => .escape
  | '"' => .weak
  | '\'' => .strong
  | _ => .plain

/-- What is open after one more character. -/
def Quoting.after (c : Char) : Quoting → Quoting
  | .blank => Quoting.opened c
  | .plain =>
    if Text.isWhiteSpace c && c != '\n' && c != '\r' then .blank else Quoting.opened c
  | .escape => .plain
  | .weak => if c = '\\' then .weakEscape else if c = '"' then .plain else .weak
  | .weakEscape => .weak
  | .strong => if c = '\\' then .strongEscape else if c = '\'' then .plain else .strong
  | .strongEscape => .strong

/-- Where a comment starts in a line, if one does, and what is open at the end of the line. -/
def scanLine (state : Quoting) : (line : List Char) → (pos : Nat) → Option Nat × Quoting
  | [], _ => (none, state)
  | c :: rest, pos =>
    if state = .blank ∧ c = '#' then (some pos, state)
    else scanLine (state.after c) rest (pos + 1)

/-- A line without its end. -/
def dropLineEnd (line : List Char) : List Char :=
  match line.reverse with
  | '\n' :: '\r' :: rest => rest.reverse
  | '\n' :: rest => rest.reverse
  | _ => line

/-- Splits bytes behind every line feed. -/
def splitLines : Bytes → List Bytes
  | [] => []
  | b :: rest =>
    if b = lineFeed then [b] :: splitLines rest
    else
      match splitLines rest with
      | [] => [[b]]
      | line :: lines => (b :: line) :: lines

/-- The lines of a file as they are to be read, up to the first fault: bytes that are no text, or a
file that ends while something is open. `begun` is the line begun, and `state` what it has
opened. -/
def joinLines (begun : List Char) (state : Quoting) : List Bytes → List (List Char)
  | [] => []
  | bytes :: rest =>
    match bytes.text? with
    | none => []
    | some text =>
      let line := begun ++ text.toList
      if (Text.trimStart line).head? = some '#' then [] :: joinLines [] .plain rest
      else
        match scanLine state text.toList 0 with
        | (some pos, _) => line.take (begun.length + pos) :: joinLines [] .plain rest
        | (none, .plain) => dropLineEnd line :: joinLines [] .plain rest
        | (none, state) => joinLines line state rest

/-- The mark with which some files say that they are UTF-8. -/
def byteOrderMark : Bytes := [0xef, 0xbb, 0xbf]

/-- The lines of a file as they are to be read. -/
def lines (file : Bytes) : List (List Char) :=
  joinLines [] .plain (splitLines (if file.take 3 = byteOrderMark then file.drop 3 else file))

end FileServer.DotEnv
