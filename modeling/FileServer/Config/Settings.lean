import FileServer.Address
import FileServer.Config.Environment
import FileServer.Error
import FileServer.Text.Cut
import FileServer.Text.Quoted

/-!
# Settings

A setting is given or not; what is not given has a default. The sizes have to be positive, or the
server does not start.
-/

namespace FileServer

/-- The settings as they are given. -/
structure Settings where
  /-- the address to bind -/
  host : Option String := none
  /-- the port to listen on -/
  port : Option UInt16 := none
  /-- the directory to serve files from -/
  root : Option String := none
  /-- how many workers there are -/
  workers : Option Nat := none
  /-- how many requests may wait for a worker -/
  maxRequests : Option Nat := none
  /-- how many connections may be open -/
  maxConnections : Option Nat := none
  /-- how many events are fetched at once -/
  maxEvents : Option Nat := none
  deriving DecidableEq, Repr, Inhabited

/-- The settings in force. -/
structure Config where
  host : String
  port : UInt16
  root : String
  workers : Nat
  maxRequests : Nat
  maxConnections : Nat
  maxEvents : Nat
  deriving DecidableEq, Repr, Inhabited

namespace Settings

/-- Fills in the defaults. There is one worker for each processor. -/
def complete (s : Settings) (processors : Nat) : Config where
  host := s.host.getD "0.0.0.0"
  port := s.port.getD 8080
  root := s.root.getD "./www"
  workers := s.workers.getD processors
  maxRequests := s.maxRequests.getD 10000
  maxConnections := s.maxConnections.getD 65535
  maxEvents := s.maxEvents.getD 10000

/-- The settings of `s` where they are given, and of `t` elsewhere. -/
def orElse (s t : Settings) : Settings where
  host := s.host <|> t.host
  port := s.port <|> t.port
  root := s.root <|> t.root
  workers := s.workers <|> t.workers
  maxRequests := s.maxRequests <|> t.maxRequests
  maxConnections := s.maxConnections <|> t.maxConnections
  maxEvents := s.maxEvents <|> t.maxEvents

/-! ## From the environment -/

/-- One more than the largest port. -/
def portLimit : Nat := 0x10000

/-- The number below `limit` that a variable is set to, if it is set; white space around it does not
matter. -/
def number? (env : Environment) (name : String) (limit : Nat) : Except ServerError (Option Nat) :=
  match env.text? name with
  | none => .ok none
  | some text =>
    match Decimal.unsigned limit (Text.trim text) with
    | .ok n => .ok (some n)
    | .error reason => .error (.config (.notNumber name (Text.quoted text) reason))

/-- The settings that the variables give. The first number that cannot be read decides. -/
def ofEnvironment (env : Environment) : Except ServerError Settings := do
  let port ← number? env "ETUDE_PORT" portLimit
  let workers ← number? env "ETUDE_WORKERS" Decimal.wordLimit
  let maxRequests ← number? env "ETUDE_MAX_REQUESTS" Decimal.wordLimit
  let maxConnections ← number? env "ETUDE_MAX_CONNECTIONS" Decimal.wordLimit
  let maxEvents ← number? env "ETUDE_MAX_EVENTS" Decimal.wordLimit
  return {
    host := env.text? "ETUDE_HOST"
    port := port.map .ofNat
    root := env.text? "ETUDE_DOC_ROOT"
    workers, maxRequests, maxConnections, maxEvents }

end Settings

namespace Config

/-- The sizes that have to be positive, with their names. -/
def sizes (c : Config) : List (String × Nat) :=
  [("workers", c.workers), ("max_requests", c.maxRequests), ("max_connections", c.maxConnections),
    ("max_events", c.maxEvents)]

/-- Refuses sizes that the server cannot run with; the first of them is named. -/
def validate (c : Config) : Except ServerError Unit :=
  match c.sizes.find? (·.2 = 0) with
  | some (name, _) => .error (.config (.notPositive name))
  | none => .ok ()

/-- A configuration is accepted exactly if all its sizes are positive. -/
theorem validate_eq_ok {c : Config} : c.validate = .ok () ↔ ∀ size ∈ c.sizes, 0 < size.2 := by
  rw [validate]
  cases hfind : c.sizes.find? (·.2 = 0) with
  | none =>
    refine iff_of_true rfl fun size hmem => Nat.pos_of_ne_zero fun hzero => ?_
    exact List.find?_eq_none.mp hfind size hmem (decide_eq_true hzero)
  | some size =>
    refine iff_of_false (fun h => nomatch h) fun hall => ?_
    have hzero : size.2 = 0 := by simpa using List.find?_some hfind
    exact Nat.ne_of_gt (hall size (List.mem_of_find?_eq_some hfind)) hzero

/-- Host and port as one text. -/
def address (c : Config) : String := hostAndPort c.host c.port

end Config

end FileServer
