import FileServer.Json.Token

/-!
# JSON values

The value of a document is built token by token: a stack holds the arrays and objects that are still
open, and what may come next follows from the innermost of them. So a document of any depth is read
in one pass over its tokens.
-/

namespace FileServer.Json

/-- A value. A string has no text, and a name is none, if it keeps half of a surrogate pair. -/
inductive Value
  | null
  | bool (value : Bool)
  | number (value : Number)
  | string (text : Option String)
  | array (items : List Value)
  | object (members : List (Option String × Value))
  deriving Repr, Inhabited

/-- An array or object that is still open. -/
inductive Frame
  /-- an array with the items so far, the latest first -/
  | array (items : List Value)
  /-- an object with the members so far, the latest first -/
  | object (members : List (Option String × Value))
  /-- an object, as before, whose next value belongs to a name -/
  | member (members : List (Option String × Value)) (name : Option String)
  deriving Repr

/-- What may come next. -/
inductive Expected
  /-- a value -/
  | value
  /-- the first item of an array, or its end -/
  | itemOrEnd
  /-- the first name of an object, or its end -/
  | nameOrEnd
  /-- another name of an object -/
  | name
  /-- the colon behind a name -/
  | colon
  /-- a comma, or the end of what is open -/
  | commaOrEnd
  deriving DecidableEq, Repr

/-- The state of reading a document. -/
structure Builder where
  /-- what is open, the innermost first -/
  frames : List Frame := []
  /-- what may come next -/
  expected : Expected := .value
  /-- the value of the document, once it is complete -/
  complete : Option Value := none
  deriving Repr

namespace Builder

/-- Puts a value where it belongs. -/
def put (value : Value) : (frames : List Frame) → Builder
  | .array items :: frames =>
    { frames := .array (value :: items) :: frames, expected := .commaOrEnd }
  | .member members name :: frames =>
    { frames := .object ((name, value) :: members) :: frames, expected := .commaOrEnd }
  | _ => { complete := some value }

/-- Takes in the first token of a value. -/
def begin? (frames : List Frame) : Token → Option Builder
  | .null => some (put .null frames)
  | .bool value => some (put (.bool value) frames)
  | .number value => some (put (.number value) frames)
  | .string text => some (put (.string text) frames)
  | .openBracket => some { frames := .array [] :: frames, expected := .itemOrEnd }
  | .openBrace => some { frames := .object [] :: frames, expected := .nameOrEnd }
  | _ => none

/-- Takes in the name of a member. -/
def name? : (frames : List Frame) → Token → Option Builder
  | .object members :: frames, .string name =>
    some { frames := .member members name :: frames, expected := .colon }
  | _, _ => none

/-- Takes in the end of what is open. -/
def end? : (frames : List Frame) → Token → Option Builder
  | .array items :: frames, .closeBracket => some (put (.array items.reverse) frames)
  | .object members :: frames, .closeBrace => some (put (.object members.reverse) frames)
  | _, _ => none

/-- Takes in a comma. -/
def comma? : (frames : List Frame) → Option Builder
  | .array items :: frames => some { frames := .array items :: frames, expected := .value }
  | .object members :: frames => some { frames := .object members :: frames, expected := .name }
  | _ => none

/-- Takes in a token. Nothing may follow a complete document. -/
def take? (b : Builder) (token : Token) : Option Builder :=
  if b.complete.isSome then none
  else
    match b.expected with
    | .value => begin? b.frames token
    | .itemOrEnd => (end? b.frames token).or (begin? b.frames token)
    | .nameOrEnd => (end? b.frames token).or (name? b.frames token)
    | .name => name? b.frames token
    | .colon => if token = .colon then some { b with expected := .value } else none
    | .commaOrEnd => if token = .comma then comma? b.frames else end? b.frames token

end Builder

/-- The value of a document. -/
def parse? (text : String) : Option Value := do
  let tokens ← Token.scan text
  let b ← tokens.foldlM Builder.take? {}
  b.complete

end FileServer.Json
