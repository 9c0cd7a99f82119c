import FileServer.Decimal

/-!
# Levels

Records have levels, from errors to traces. A threshold is the last level that is let through; there
is also a threshold that lets nothing through.
-/

namespace FileServer.Log

/-- How important a record is. -/
inductive Level
  | error
  | warn
  | info
  | debug
  | trace
  deriving DecidableEq, Repr, Inhabited

namespace Level

/-- All levels, the most important first. -/
def all : List Level := [error, warn, info, debug, trace]

/-- The place of a level in the order of importance, from one on. -/
def rank : Level → Nat
  | error => 1
  | warn => 2
  | info => 3
  | debug => 4
  | trace => 5

/-- The name of a level. -/
def name : Level → String
  | error => "error"
  | warn => "warn"
  | info => "info"
  | debug => "debug"
  | trace => "trace"

end Level

/-- The last level that is let through, if any is. -/
abbrev Threshold := Option Level

namespace Threshold

/-- Whether records of a level are let through. -/
def admits (threshold : Threshold) (level : Level) : Bool :=
  threshold.any fun last => level.rank ≤ last.rank

/-- The threshold with a rank; that of rank zero lets nothing through. -/
def ofRank? : Nat → Option Threshold
  | 0 => some none
  | rank + 1 => Level.all[rank]?.map some

/-- The names of the thresholds. No name at all stands for errors. -/
def names : List (String × Threshold) :=
  ("", some .error) :: ("off", none) :: Level.all.map fun level => (level.name, some level)

/-- Reads a threshold: a number, or a name in letters of either case. -/
def ofText? (text : String) : Option Threshold :=
  let ranked := match Decimal.unsigned Decimal.wordLimit text with
    | .ok rank => ofRank? rank
    | .error _ => none
  ranked.or (names.lookup text.toLower)

end Threshold

end FileServer.Log
