import FileServer.Launch
import FileServer.Server.Run

/-!
# The command

The outermost layer: it gathers the arguments, the environment and the variables file, hands them to
`Launch.run`, and prints what comes of it. The server runs on the kernel of this library until it
waits for clients, and is then stopped as by an interrupt.
-/

namespace FileServer.Command

/-- The variables that the command looks at. -/
def variableNames : List String :=
  "RUST_LOG" :: "ETUDE_MAX_EVENTS" :: CommandLine.Item.all.filterMap (·.environmentName?)

/-- The variables that are set. -/
def environment : IO Environment :=
  variableNames.filterMapM fun name => return (← IO.getEnv name).map fun value =>
    (name, .ofText value)

/-- The variables file, if there is one. -/
def variablesFile : IO (Option Bytes) :=
  try
    return some (← IO.FS.readBinFile ".env").toList
  catch _ => return none

/-- Where the kernel lists the processors. -/
def processorList : String := "/proc/cpuinfo"

/-- The number of processors, or one if it cannot be found out. -/
def processors : IO Nat :=
  try
    let lines ← IO.FS.lines processorList
    return max 1 (lines.countP (·.startsWith "processor"))
  catch _ => return 1

/-- How the command is used. -/
def usage : String := "Usage: etude [OPTIONS] <PORT>\n"

/-- More steps than a server without clients takes before it waits. -/
def stepLimit (server : Server) : Nat := 100 + 10 * server.config.workers

/-- Runs a server until it waits, then stops it. -/
def runServer (server : Server) : Server :=
  let serving := (server.serve?.getD server).settle (stepLimit server)
  let stopping := serving.requestStop
  (stopping.wake?.getD stopping).settle (stepLimit server)

/-- The line that says that a server listens. -/
def announcementLine (a : Announcement) : String :=
  let address := (a.address.map SocketAddress.text).getD "unknown"
  s!"etude listening addr={address} root={a.root} max_connections={a.maxConnections}"

/-- The line that says why the command failed. -/
def failureLine (reason : ServerError) : String :=
  s!"etude exited with an error error={reason.message}"

/-- Prints what comes of a launch. -/
def report : Launch → IO UInt32
  | .misused => do
    IO.eprint usage
    return Launch.misused.exitCode
  | .help => do
    IO.print usage
    return Launch.help.exitCode
  | .version => do
    IO.print Launch.versionText
    return Launch.version.exitCode
  | .failed reason logged => do
    if logged then IO.println (failureLine reason)
    return (Launch.failed reason logged).exitCode
  | .serving server announcement logged => do
    if logged then IO.println (announcementLine announcement)
    match (runServer server).stage with
    | .over (.error reason) =>
      IO.println (failureLine reason)
      return (Launch.failed reason true).exitCode
    | _ => return (Launch.serving server announcement logged).exitCode

/-- Runs the command. -/
def run (arguments : List String) : IO UInt32 := do
  report (Launch.run arguments (← environment) (← variablesFile) {} (← processors))

end FileServer.Command

/-- The command. -/
def main (arguments : List String) : IO UInt32 := FileServer.Command.run arguments
