import FileServer.Config.Environment
import FileServer.Config.Settings
import FileServer.Text.Replacement

/-!
# The command line

One argument is the port; options give the other settings. An option takes its value from behind an
equals sign or from the next argument, which then must not start with a dash. Behind two dashes
everything is a value. What the command line leaves out may be given by a variable of the
environment. Nothing may be given twice on the command line.

Arguments are looked at in turn, so a wrong one counts only if help or the version has not been
asked for before it.

A path may have any bytes, but paths are texts in this library. One that is not UTF-8 is kept as it
is shown, with replacement characters, so the root that it names is looked up under another name
than its own: what is served beneath such a root is outside the scope of the library. No other
setting is touched by this, for all others have to be texts.
-/

namespace FileServer.CommandLine

/-- What can be given. -/
inductive Item
  | port
  | host
  | root
  | workers
  | maxRequests
  | maxConnections
  | logLevel
  deriving DecidableEq, Repr

/-- What has been given. -/
structure Arguments where
  settings : Settings := {}
  logLevel : Option String := none
  deriving DecidableEq, Repr, Inhabited

namespace Item

/-- All that can be given. -/
def all : List Item := [port, host, root, workers, maxRequests, maxConnections, logLevel]

/-- The name of an option; the port has none. -/
def name? : Item → Option String
  | port => none
  | host => some "host"
  | root => some "root"
  | workers => some "workers"
  | maxRequests => some "max-requests"
  | maxConnections => some "max-connections"
  | logLevel => some "log-level"

/-- The option with a name. -/
def ofName? (name : String) : Option Item := all.find? (·.name? = some name)

/-- The variable that gives what the command line leaves out. -/
def environmentName? : Item → Option String
  | port => some "ETUDE_PORT"
  | host => some "ETUDE_HOST"
  | root => some "ETUDE_DOC_ROOT"
  | workers => some "ETUDE_WORKERS"
  | maxRequests => some "ETUDE_MAX_REQUESTS"
  | maxConnections => some "ETUDE_MAX_CONNECTIONS"
  | logLevel => none

end Item

/-! ## Values -/

/-- A port: a number that may have a sign. -/
def port? (text : String) : Option UInt16 := do
  let n ← match text.toList with
    | '-' :: digits =>
      guard (digits.head?.any Char.isDigit)
      guard ((Decimal.unsigned 1 (.ofList digits)) matches .ok _)
      pure 0
    | _ =>
      match Decimal.unsigned Settings.portLimit text with
      | .ok n => pure n
      | .error _ => none
  return .ofNat n

/-- A size. -/
def size? (text : String) : Option Nat :=
  match Decimal.unsigned Decimal.wordLimit text with
  | .ok n => some n
  | .error _ => none

/-- A path, which may not be empty. It may have any bytes; it is kept as it is shown, which is the
path itself only where it is UTF-8. -/
def path? (value : Bytes) : Option String :=
  if value.isEmpty then none else some (Text.ofBytes value)

namespace Arguments

/-- Whether something has been given. -/
def has (a : Arguments) : Item → Bool
  | .port => a.settings.port.isSome
  | .host => a.settings.host.isSome
  | .root => a.settings.root.isSome
  | .workers => a.settings.workers.isSome
  | .maxRequests => a.settings.maxRequests.isSome
  | .maxConnections => a.settings.maxConnections.isSome
  | .logLevel => a.logLevel.isSome

/-- Sets what is given; `none` if the value is not of its kind. -/
def set? (a : Arguments) (item : Item) (value : Bytes) : Option Arguments :=
  match item with
  | .port => (value.text?.bind port?).map fun port => { a with settings.port := some port }
  | .host => value.text?.map fun host => { a with settings.host := some host }
  | .root => (path? value).map fun root => { a with settings.root := some root }
  | .workers => (value.text?.bind size?).map fun n => { a with settings.workers := some n }
  | .maxRequests => (value.text?.bind size?).map fun n => { a with settings.maxRequests := some n }
  | .maxConnections =>
    (value.text?.bind size?).map fun n => { a with settings.maxConnections := some n }
  | .logLevel => value.text?.map fun level => { a with logLevel := some level }

/-- Sets what is given on the command line, where nothing may be given twice. -/
def give? (a : Arguments) (item : Item) (value : String) : Option Arguments :=
  if a.has item then none else a.set? item (.ofText value)

/-- Takes from the environment what has not been given. -/
def fill? (a : Arguments) (env : Environment) : Option Arguments :=
  Item.all.foldlM (fun a item =>
    if a.has item then some a
    else
      match item.environmentName?.bind env.raw? with
      | some value => a.set? item value
      | none => some a) a

end Arguments

/-! ## Arguments -/

/-- What is asked for. -/
inductive Request
  /-- to show how the command is used -/
  | help
  /-- to show the version -/
  | version
  /-- to serve -/
  | serve (arguments : Arguments)
  deriving DecidableEq, Repr

/-- What an argument is. -/
inductive Argument
  /-- two dashes: all that follow are values -/
  | valuesOnly
  /-- an option, with the value behind its equals sign if it has one -/
  | option (name : String) (value : Option String)
  /-- letters behind a dash -/
  | letters (letters : List Char)
  | value (text : String)
  deriving DecidableEq, Repr

/-- Reads an argument. A dash alone is a value. -/
def Argument.ofText (text : String) : Argument :=
  match text.toList with
  | ['-', '-'] => .valuesOnly
  | '-' :: '-' :: rest =>
    .option (.ofList (rest.takeWhile (· ≠ '=')))
      (if rest.contains '=' then some (.ofList ((rest.dropWhile (· ≠ '=')).drop 1)) else none)
  | '-' :: c :: rest => .letters (c :: rest)
  | _ => .value text

/-- Reads arguments that are values. The only one there can be is the port. -/
def readValues? (given : Arguments) : List String → Option Request
  | [] => some (.serve given)
  | text :: rest => do
    let given ← given.give? .port text
    readValues? given rest

/-- Reads the arguments. An option for whose value is waited comes first. -/
def read? (given : Arguments) (waiting : Option Item) : List String → Option Request
  | [] => if waiting.isSome then none else some (.serve given)
  | text :: rest =>
    match Argument.ofText text, waiting with
    | .value text, some item => do
      let given ← given.give? item text
      read? given none rest
    | _, some _ => none
    | .value text, none => do
      let given ← given.give? .port text
      read? given none rest
    | .valuesOnly, none => readValues? given rest
    | .letters letters, none =>
      match letters.head? with
      | some 'h' => some .help
      | some 'V' => some .version
      | _ => none
    | .option "help" value, none => if value.isNone then some .help else none
    | .option "version" value, none => if value.isNone then some .version else none
    | .option name value, none => do
      let item ← Item.ofName? name
      match value with
      | some value =>
        let given ← given.give? item value
        read? given none rest
      | none => read? given (some item) rest

/-- What is asked for, if the command is used correctly: the port has to be given somewhere. -/
def parse? (arguments : List String) (env : Environment) : Option Request := do
  match ← read? {} none arguments with
  | .serve given =>
    let given ← given.fill? env
    guard given.settings.port.isSome
    return .serve given
  | request => return request

end FileServer.CommandLine
