import FileServer.Error
import FileServer.Log.Directive

/-!
# Filters

A filter decides which records are written. Of its directives the most specific one that fits a
record counts: the one with the longest target, then the one that asks for most fields. The text of
a filter lists directives with commas between them. A filter without directives lets errors through.
-/

namespace FileServer.Log

/-- A record, as far as filters look at it. No record here is written inside a span. -/
structure Record where
  /-- the part of the program that it comes from -/
  target : String
  level : Level
  /-- the names of its fields -/
  fields : List String := ["message"]
  deriving DecidableEq, Repr

/-- The directives that can apply, the most specific first. -/
structure Filter where
  directives : List Directive
  deriving DecidableEq, Repr

namespace Filter

/-- Whether a directive fits a record. -/
def fits (d : Directive) (r : Record) : Bool :=
  d.target.all (fun target => r.target.startsWith target) && d.fields.all (r.fields.contains ·.name)

/-- How specific directives are, and an order among those that are alike in that. -/
def specificity (a b : Directive) : Ordering :=
  (compare (a.target.map String.utf8ByteSize) (b.target.map String.utf8ByteSize)).then <|
    (compare a.fields.length b.fields.length).then <|
      (compare a.target b.target).then <|
        compare (a.fields.map FieldMatch.name) (b.fields.map FieldMatch.name)

/-- Puts a directive in its place among others, instead of one that applies to the same records. -/
def insert (d : Directive) : List Directive → List Directive
  | [] => [d]
  | e :: rest =>
    match specificity d e with
    | .gt => d :: e :: rest
    | .eq => d :: rest
    | .lt => e :: insert d rest

/-- The directive of a filter that is given none. -/
def fallback : Directive := { threshold := some .error }

/-- The filter with the given directives, of which a later one replaces an earlier one. -/
def ofDirectives (directives : List Directive) : Filter :=
  if directives.isEmpty then ⟨[fallback]⟩
  else ⟨(directives.filter Directive.isStatic).foldl (fun ds d => insert d ds) []⟩

/-- Whether a record is written. -/
def admits (f : Filter) (r : Record) : Bool :=
  match f.directives.find? (fits · r) with
  | some d => d.threshold.admits r.level
  | none => false

/-- The texts between the commas of a list, without the empty ones. -/
def pieces (text : String) : List String :=
  (text.toList.splitOn ',').map String.ofList |>.filter (· ≠ "")

/-- Reads a filter in which every directive has to be right. The first one that is not decides. -/
def strict (text : String) : Except Directive.Refusal Filter := do
  return ofDirectives (← (pieces text).mapM Directive.parse)

/-- The directive that a text gives, if it gives one. A text with a torn part is too much. -/
def directive? (text : String) : Except Crash (Option Directive) :=
  match Directive.parse text with
  | .ok d => .ok (some d)
  | .error .wrong => .ok none
  | .error .torn => .error .tornCharacter

/-- Reads a filter, passing over directives that are wrong. -/
def lenient (text : String) : Except Crash Filter := do
  return ofDirectives (← (pieces text).filterMapM directive?)

/-- The filter in force: that of the variable, if it is set and right throughout, else that of the
level. -/
def choose (fromVariable : Option String) (level : String) : Except Crash Filter :=
  match fromVariable.map strict with
  | some (.ok f) => .ok f
  | some (.error .torn) => .error .tornCharacter
  | some (.error .wrong) | none => lenient level

end Filter

/-- The level that is used where none is given. -/
def defaultLevel : String := "info"

end FileServer.Log
