import FileServer.Decimal
import FileServer.Kernel.Errno

/-!
# Errors

What can go wrong, by cause. The wording of every error is in one place, `ServerError.message`.
-/

namespace FileServer

/-! ## Crashes

A few inputs are not refused but end the program where it stands. It has no answer to them, and
nothing is written to the log; what was open is closed. -/

/-- Why a program ends where it stands. -/
inductive Crash
  /-- a table or queue would take more memory than can be addressed -/
  | sizeTooLarge
  /-- a text would be cut within a character -/
  | tornCharacter
  /-- a variable would be set to a text with a zero in it -/
  | zeroByte
  deriving DecidableEq, Repr

/-- The wording of a crash. -/
def Crash.message : Crash → String
  | .sizeTooLarge => "a table is larger than any memory"
  | .tornCharacter => "a text is cut within a character"
  | .zeroByte => "a variable cannot hold a zero byte"

/-- The most bytes that can be asked for at once. -/
def maxAllocation : Nat := 0x7fffffffffffffff

/-- Whether there can be so many items of a size. -/
def canAllocate (count size : Nat) : Bool := count * size ≤ maxAllocation

/-! ## Causes -/

/-- What is wrong with a configuration. -/
inductive ConfigError
  /-- a size is zero -/
  | notPositive (name : String)
  /-- the value of a variable is no number of the kind wanted; the value is given as it is quoted -/
  | notNumber (name quoted : String) (reason : Decimal.NumberError)
  deriving DecidableEq, Repr

/-- The wording of a fault in the configuration. -/
def ConfigError.message : ConfigError → String
  | .notPositive name => s!"{name} must be positive"
  | .notNumber name quoted reason => s!"{name}={quoted}: {reason.message}"

/-- What can go wrong. -/
inductive ServerError
  /-- a system call failed -/
  | system (reason : Errno)
  /-- the host is no internet address -/
  | addressSyntax
  /-- a socket is of a family that has no internet address -/
  | addressFamily
  /-- the process has a handler for the interrupt signal already -/
  | signalTaken
  /-- the configuration cannot be used -/
  | config (reason : ConfigError)
  /-- the head of a response does not fit its buffer -/
  | headTooLong
  /-- the queue of the workers is at its limit -/
  | queueFull
  /-- there is no slot for a descriptor -/
  | tableFull
  /-- the program comes to a sudden end -/
  | crash (reason : Crash)
  deriving DecidableEq, Repr

/-- The wording of an error. -/
def ServerError.message : ServerError → String
  | .system reason => s!"I/O error: {reason.message}"
  | .addressSyntax => "I/O error: invalid socket address syntax"
  | .addressFamily => "I/O error: unknown address family"
  | .signalTaken => "Signal handler error: Ctrl-C error: Ctrl-C signal handler already registered"
  | .config reason => s!"Configuration error: {reason.message}"
  | .headTooLong => "Response does not fit the connection write buffer"
  | .queueFull => "Worker queue is full"
  | .tableFull => "Connection table is full"
  | .crash reason => reason.message

/-- Whether an error is the end of the program. -/
def ServerError.isCrash : ServerError → Bool
  | .crash _ => true
  | _ => false

end FileServer
