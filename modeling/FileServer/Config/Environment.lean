import FileServer.Bytes

/-!
# The environment

Variables with names and values. A value is a string of bytes; one that is not UTF-8 counts as unset
wherever a text is wanted.
-/

namespace FileServer

/-- The variables of a process. -/
abbrev Environment := List (String × Bytes)

namespace Environment

/-- How an entry is kept: the name, an equals sign, and the value. -/
def entry (name : String) (value : Bytes) : Bytes := .ofText name ++ .ofText "=" ++ value

/-- What follows a first part of some bytes. -/
def behind? (first bytes : Bytes) : Option Bytes :=
  if first.isPrefixOf bytes then some (bytes.drop first.length) else none

/-- The value of a variable as it is. A name is looked for at the start of the entries, so that one
with an equals sign in it reaches into a value. -/
def raw? (env : Environment) (name : String) : Option Bytes :=
  env.findSome? fun (other, value) => behind? (entry name []) (entry other value)

/-- The value of a variable, if it is set to a text. -/
def text? (env : Environment) (name : String) : Option String := (env.raw? name).bind Bytes.text?

/-- Sets a variable. -/
def set (env : Environment) (name value : String) : Environment :=
  (name, .ofText value) :: env.filter (·.1 != name)

end Environment

end FileServer
