import FileServer.CommandLine
import FileServer.Config.DotEnv
import FileServer.Log.Filter
import FileServer.Server.State

/-!
# Launching a server

A run of the command, up to the point where the server listens: the command line is read, the log
filter is chosen, the settings are gathered from the command line, the environment and the variables
file, and the server is set up. What goes wrong after the command line has been read is written to
the log, if the filter lets it through; of a crash nothing is written.
-/

namespace FileServer

/-- What is said of a server that listens. -/
structure Announcement where
  /-- the address it listens at -/
  address : Option SocketAddress
  /-- the directory it serves -/
  root : String
  /-- how many workers it has, if that has been given -/
  workers : Option Nat
  /-- how many connections it allows -/
  maxConnections : Nat
  deriving DecidableEq, Repr

/-- How far a run of the command gets. -/
inductive Launch
  /-- the command is not used correctly -/
  | misused
  /-- it shows how it is used -/
  | help
  /-- it shows its version -/
  | version
  /-- it cannot serve; the reason is logged or not -/
  | failed (reason : ServerError) (logged : Bool)
  /-- it serves; what is said of the server is logged or not -/
  | serving (server : Server) (announcement : Announcement) (logged : Bool)

namespace Launch

/-- The name and the version of the command. -/
def versionText : String := "etude 0.1.0\n"

/-- The record of a run that failed. -/
def failureRecord : Log.Record where
  target := "etude"
  level := .error
  fields := ["message", "error"]

/-- The record of a server that listens. -/
def announcementRecord : Log.Record where
  target := "etude_core::server"
  level := .info
  fields := ["message", "addr", "root", "workers", "max_connections"]

/-- The code with which the run ends. -/
def exitCode : Launch → UInt32
  | misused => 2
  | failed reason _ => if reason.isCrash then 101 else 1
  | _ => 0

/-- The end of a run that fails. Nothing is logged of a crash. -/
def fail (filter : Log.Filter) (reason : ServerError) : Launch :=
  .failed reason (!reason.isCrash && filter.admits failureRecord)

/-- The settings from the command line, else from the environment, else from the variables file. -/
def gather (given : Settings) (env : Environment) (file : Option Bytes) :
    Except ServerError Settings := do
  let env ← match file with
    | some file => (DotEnv.load env file).mapError .crash
    | none => pure env
  return given.orElse (← Settings.ofEnvironment env)

/-- Sets up a server. -/
def serve (settings : Settings) (kernel : Kernel) (processors : Nat) (filter : Log.Filter) :
    Launch :=
  let config := settings.complete processors
  match Server.bind kernel config with
  | .error (reason, _) => fail filter reason
  | .ok server =>
    if Server.hasMemory config then
      let address := (server.hub.kernel.boundAddress server.listener).1.toOption
      .serving server
        { address, root := config.root, workers := settings.workers,
          maxConnections := config.maxConnections }
        (filter.admits announcementRecord)
    else fail filter (.crash .sizeTooLarge)

/-- Runs the command. -/
def run (arguments : List String) (env : Environment) (file : Option Bytes) (kernel : Kernel)
    (processors : Nat) : Launch :=
  match CommandLine.parse? arguments env with
  | none => .misused
  | some .help => .help
  | some .version => .version
  | some (.serve given) =>
    match Log.Filter.choose (env.text? "RUST_LOG") (given.logLevel.getD Log.defaultLevel) with
    | .error reason => .failed (.crash reason) false
    | .ok filter =>
      match gather given.settings env file with
      | .error reason => fail filter reason
      | .ok settings => serve settings kernel processors filter

end Launch

end FileServer
