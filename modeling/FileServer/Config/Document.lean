import FileServer.Config.Settings
import FileServer.Json.Value

/-!
# Settings in a document

A document gives settings by name in an object, or in their order in an array. What it leaves out
has its default. Members with other names do not matter, but no setting may be given twice, and an
array may not be longer than there are settings.
-/

namespace FileServer.Settings

/-- The names of the settings, in order. -/
def names : List String :=
  ["host", "port", "doc_root", "workers", "max_requests", "max_connections", "max_events"]

/-- The text that a value is. -/
def textOf? : Json.Value → Option String
  | .string text => text
  | _ => none

/-- The number below `limit` that a value is. It is written in digits alone. -/
def numberOf? (limit : Nat) : Json.Value → Option Nat
  | .number n => if n.plain ∧ ¬n.negative ∧ n.whole < limit then some n.whole else none
  | _ => none

/-- Gives a setting by name. -/
def give? (s : Settings) (name : String) (value : Json.Value) : Option Settings :=
  match name with
  | "host" => (textOf? value).map fun host => { s with host := some host }
  | "port" => (numberOf? portLimit value).map fun n => { s with port := some (.ofNat n) }
  | "doc_root" => (textOf? value).map fun root => { s with root := some root }
  | "workers" => (numberOf? Decimal.wordLimit value).map fun n => { s with workers := some n }
  | "max_requests" =>
    (numberOf? Decimal.wordLimit value).map fun n => { s with maxRequests := some n }
  | "max_connections" =>
    (numberOf? Decimal.wordLimit value).map fun n => { s with maxConnections := some n }
  | "max_events" => (numberOf? Decimal.wordLimit value).map fun n => { s with maxEvents := some n }
  | _ => some s

/-- Gives settings by name, each at most once. -/
def giveAll? (members : List (String × Json.Value)) : Option Settings := do
  guard ((members.map (·.1)).filter (· ∈ names)).Nodup
  members.foldlM (fun s (name, value) => s.give? name value) {}

/-- A member whose name is a text. -/
def named? (member : Option String × Json.Value) : Option (String × Json.Value) :=
  member.1.map (·, member.2)

/-- The settings that a value gives. -/
def ofValue? : Json.Value → Option Settings
  | .object members => (members.mapM named?).bind giveAll?
  | .array items => if items.length ≤ names.length then giveAll? (names.zip items) else none
  | _ => none

/-- The settings that a document gives. -/
def ofDocument? (text : String) : Option Settings := (Json.parse? text).bind ofValue?

end FileServer.Settings
