import FileServer.Config.DotEnvLines
import FileServer.Config.Environment
import FileServer.Error
import FileServer.Text.Alphanumeric

/-!
# Variables files

Each line of a variables file sets one variable: a name, an equals sign and a value. A value may be
quoted; outside single quotes a dollar sign puts in the value of a variable of the environment, or
of an earlier line. What is set in the environment already stays, so the first line that sets a
variable counts. Reading stops at the first line that breaks the rules; what came before stays set.
A value with a zero in it cannot be set: that is a crash.
-/

namespace FileServer.DotEnv

/-! ## Values -/

/-- Whether the name of a variable to be put in is being read. -/
inductive Substitution
  | none
  /-- behind a dollar sign -/
  | name (name : List Char)
  /-- behind a dollar sign and an opening brace -/
  | braced (name : List Char)
  deriving DecidableEq, Repr

/-- The state of reading a value. -/
structure ValueState where
  /-- inside single quotes -/
  strong : Bool := false
  /-- inside double quotes -/
  weak : Bool := false
  /-- behind a backslash -/
  escaped : Bool := false
  /-- behind the end of the value, where only blanks and a comment may follow -/
  ended : Bool := false
  /-- the name being read -/
  substitution : Substitution := .none
  /-- the value so far -/
  output : List Char := []
  deriving DecidableEq, Repr

namespace ValueState

/-- Adds characters to the value. -/
def put (s : ValueState) (chars : List Char) : ValueState := { s with output := s.output ++ chars }

/-- What a backslash makes of the character behind it. -/
def escapedChar? : Char → Option Char
  | 'n' => some '\n'
  | c => if c ∈ ['\\', '\'', '"', '$', ' '] then some c else none

/-- Takes in a character of the name of a variable. -/
def takeName (valueOf : String → String) (s : ValueState) (name : List Char) (c : Char) :
    ValueState :=
  if Text.isAlphanumeric c then { s with substitution := .name (name ++ [c]) }
  else if c = '\x7b' ∧ name = [] then { s with substitution := .braced [] }
  else
    let s := s.put (valueOf (.ofList name)).toList
    if c = '$' then { s with substitution := .name [] }
    else { s with substitution := .none }.put [c]

/-- Takes in a character of the name of a variable in braces. -/
def takeBraced (valueOf : String → String) (s : ValueState) (name : List Char) (c : Char) :
    ValueState :=
  if c = '\x7d' then { s with substitution := .none }.put (valueOf (.ofList name)).toList
  else { s with substitution := .braced (name ++ [c]) }

/-- Takes in a character that may open or close something. -/
def takePlain (s : ValueState) (c : Char) : ValueState :=
  if c = '$' then { s with substitution := .name [] }
  else if c = '\\' then { s with escaped := true }
  else if s.weak then (if c = '"' then { s with weak := false } else s.put [c])
  else if c = '\'' then { s with strong := true }
  else if c = '"' then { s with weak := true }
  else if c = ' ' ∨ c = '\t' then { s with ended := true }
  else s.put [c]

/-- Takes in a character before the end of the value; `none` if it breaks a rule. -/
def take? (valueOf : String → String) (s : ValueState) (c : Char) : Option ValueState :=
  if s.escaped then (escapedChar? c).map fun c => { s with escaped := false }.put [c]
  else if s.strong then some (if c = '\'' then { s with strong := false } else s.put [c])
  else
    match s.substitution with
    | .name name => some (s.takeName valueOf name c)
    | .braced name => some (s.takeBraced valueOf name c)
    | .none => some (s.takePlain c)

/-- Reads the rest of a value. -/
def read? (valueOf : String → String) (s : ValueState) : List Char → Option ValueState
  | [] => some s
  | c :: rest =>
    if s.ended then
      if c = ' ' ∨ c = '\t' then read? valueOf s rest else if c = '#' then some s else none
    else (s.take? valueOf c).bind fun s => read? valueOf s rest

/-- The value read; none if something is still open. -/
def result? (valueOf : String → String) (s : ValueState) : Option String :=
  match s.substitution with
  | .braced _ => none
  | .name name => finish (s.put (valueOf (.ofList name)).toList)
  | .none => finish s
where
  finish (s : ValueState) : Option String :=
    if s.strong || s.weak then none else some (.ofList s.output)

end ValueState

/-- Reads a value. -/
def value? (valueOf : String → String) (text : List Char) : Option String := do
  let s ← ({} : ValueState).read? valueOf text
  s.result? valueOf

/-! ## Lines -/

/-- Whether a name may start with a character. -/
def startsName (c : Char) : Bool := c.isAlpha || c = '_'

/-- Whether a character may stand in a name. -/
def isNameChar (c : Char) : Bool := c.isAlphanum || c = '_' || c = '.'

/-- Reads a name, and passes over the white space behind it. -/
def name? (text : List Char) : Option (List Char × List Char) :=
  if text.head?.any startsName then
    some (text.takeWhile isNameChar, Text.trimStart (text.dropWhile isNameChar))
  else none

/-- Passes over an equals sign. -/
def equals? : List Char → Option (List Char)
  | '=' :: rest => some rest
  | _ => none

/-- Reads the name of a line and passes over the equals sign. The word `export` may stand before the
name. -/
def assignment? (text : List Char) : Option (List Char × List Char) := do
  let (name, rest) ← name? text
  match equals? rest with
  | some rest => return (name, rest)
  | none =>
    guard (name = "export".toList)
    let (name, rest) ← name? rest
    let rest ← equals? rest
    return (name, rest)

/-- What a line says. -/
inductive Line
  /-- nothing -/
  | empty
  | assignment (name value : String)
  /-- it breaks a rule -/
  | invalid
  deriving DecidableEq, Repr

/-- Whether nothing but a comment follows. -/
def isBlankOrComment (text : List Char) : Bool := text.head?.all (· = '#')

/-- Reads a line. -/
def Line.parse (valueOf : String → String) (line : List Char) : Line :=
  let text := Text.trimStart (Text.trimEnd line)
  if isBlankOrComment text then .empty
  else
    match assignment? text with
    | none => .invalid
    | some (name, rest) =>
      let rest := Text.trimStart rest
      if isBlankOrComment rest then .assignment (.ofList name) ""
      else
        match value? valueOf rest with
        | none => .invalid
        | some value => .assignment (.ofList name) value

/-! ## Files -/

/-- The value that a dollar sign puts in: of the environment, else of an earlier line. -/
def valueOf (env : Environment) (earlier : List (String × String)) (name : String) : String :=
  (env.text? name).getD ((earlier.lookup name).getD "")

/-- Sets a variable, unless it is set to a text already. -/
def assign (env : Environment) (name value : String) : Except Crash Environment :=
  if (env.text? name).isSome then .ok env
  else if value.contains '\x00' then .error .zeroByte
  else .ok (env.set name value)

/-- Sets the variables of lines. -/
def setAll (env : Environment) (earlier : List (String × String)) :
    List (List Char) → Except Crash Environment
  | [] => .ok env
  | line :: rest =>
    match Line.parse (valueOf env earlier) line with
    | .empty => setAll env earlier rest
    | .invalid => .ok env
    | .assignment name value => do
      setAll (← assign env name value) ((name, value) :: earlier) rest

/-- The environment after a variables file has been read. -/
def load (env : Environment) (file : Bytes) : Except Crash Environment := setAll env [] (lines file)

end FileServer.DotEnv
