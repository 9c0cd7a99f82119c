import FileServer.Decimal
import FileServer.Log.Level
import FileServer.Pattern.Validity
import FileServer.Text.Cut

/-!
# Directives

A directive gives a threshold, for all records or for those whose target starts with a given text:
`info`, `store=debug`, `store` (everything). In square brackets it may name a span and, in braces,
one of its fields, with or without a value: `store[request{id=7}]=trace`. The value is a number or a
pattern.

The marks of a directive are found in the text without the white space around it, but the parts are
then cut out of the text as it was written. White space in front therefore moves the parts, and a
part may come to start or end within a character, in which case there is no such part.
-/

namespace FileServer.Log

/-- A field that a span or a record has to have. -/
structure FieldMatch where
  name : String
  /-- a value is asked for as well -/
  valued : Bool
  deriving DecidableEq, Repr

/-- A rule of a filter. -/
structure Directive where
  /-- what is let through -/
  threshold : Threshold := some .trace
  /-- how the target of a record has to start -/
  target : Option String := none
  /-- the span that a record has to be in -/
  span : Option String := none
  /-- the fields asked for -/
  fields : List FieldMatch := []
  deriving DecidableEq, Repr

namespace Directive

/-- Why a text gives no directive. -/
inductive Refusal
  /-- it breaks the rules -/
  | wrong
  /-- one of its parts would start or end within a character -/
  | torn
  deriving DecidableEq, Repr

/-- What is being read; a number says at which byte it started. -/
inductive Part
  | start
  /-- a threshold or a target -/
  | word (from_ : Nat)
  /-- a span -/
  | span (from_ : Nat)
  /-- a field -/
  | field (from_ : Nat)
  /-- the bracket behind the fields is due -/
  | fieldsEnd
  /-- behind the closing bracket -/
  | spanEnd
  /-- a threshold -/
  | threshold (from_ : Nat)
  deriving DecidableEq, Repr

/-- Whether a directive without brackets may start with a character. -/
def startsWord (c : Char) : Bool := c ∈ ['-', ':', '_'] || Text.isAlphanumeric c

/-- The part of a text between two bytes. -/
def cut (text : List Char) (start stop : Nat) : Except Refusal String :=
  match Text.cut? text start stop with
  | some part => .ok (.ofList part)
  | none => .error .torn

/-- The part of a text from a byte on. -/
def cutRest (text : List Char) (start : Nat) : Except Refusal String :=
  match Text.dropBytes? start text with
  | some part => .ok (.ofList part)
  | none => .error .torn

/-- Whether a text can be the value of a field. -/
def isValue (text : List Char) : Bool := Decimal.isReal text || Pattern.isValid text

/-- Reads a field. Behind a second equals sign nothing counts. -/
def field (text : String) : Except Refusal FieldMatch :=
  match text.toList.splitOn '=' with
  | [] | [[]] => .error .wrong
  | [name] => .ok { name := .ofList name, valued := false }
  | name :: value :: _ =>
    if isValue value then .ok { name := .ofList name, valued := true } else .error .wrong

/-- Takes in the character at a byte. -/
def take (text : List Char) (pos : Nat) (c : Char) (d : Directive) :
    Part → Except Refusal (Directive × Part)
  | .start =>
    if c = '[' then .ok (d, .span (pos + 1))
    else if startsWord c then .ok (d, .word pos) else .error .wrong
  | .word start =>
    if c = '=' then do return ({ d with target := ← cut text start pos }, .threshold (pos + 1))
    else if c = '[' then do return ({ d with target := ← cut text start pos }, .span (pos + 1))
    else .ok (d, .word start)
  | .span start =>
    if c = ']' then do return ({ d with span := ← cut text start pos }, .spanEnd)
    else if c = '\x7b' then do
      let name ← cut text start pos
      return ({ d with span := if name = "" then none else some name }, .field (pos + 1))
    else .ok (d, .span start)
  | .field start =>
    if c = '\x7d' then do
      let f ← field (← cut text start pos)
      return ({ d with fields := d.fields ++ [f] }, .fieldsEnd)
    else .ok (d, .field start)
  | .fieldsEnd => if c = ']' then .ok (d, .spanEnd) else .error .wrong
  | .spanEnd => if c = '=' then .ok (d, .threshold (pos + 1)) else .error .wrong
  | .threshold start => .ok (d, .threshold start)

/-- Takes in all characters from a byte on. -/
def takeAll (text : List Char) (pos : Nat) (d : Directive) (part : Part) :
    List Char → Except Refusal (Directive × Part)
  | [] => .ok (d, part)
  | c :: rest => do
    let (d, part) ← take text pos c d part
    takeAll text (pos + c.utf8Size) d part rest

/-- Ends a directive. -/
def finish (text : List Char) (d : Directive) : Part → Except Refusal Directive
  | .word start => do
    let word ← cutRest text start
    match Threshold.ofText? word with
    | some threshold => return { d with threshold }
    | none => return { d with target := word }
  | .threshold start => do
    let word ← cutRest text start
    if word = "" then return d
    match Threshold.ofText? word with
    | some threshold => return { d with threshold }
    | none => throw .wrong
  | .spanEnd => .ok d
  | _ => .error .wrong

/-- Reads a directive. -/
def parse (text : String) : Except Refusal Directive := do
  let chars := text.toList
  let (d, part) ← takeAll chars 0 {} .start (Text.trimEnd (Text.trimStart chars))
  finish chars d part

/-- Whether a directive can apply outside of spans. -/
def isStatic (d : Directive) : Bool := d.span.isNone && d.fields.all (!·.valued)

end Directive

end FileServer.Log
