/-!
# Semaphores

A counting semaphore, at the grain at which threads interleave. A thread that waits looks at the
permits: it takes one, or falls asleep if there is none. A post adds a permit and wakes one sleeper,
who then looks again; another thread may have taken the permit by then.
-/

namespace FileServer

/-- A counting semaphore. Threads that wait are told apart by numbers. -/
structure Semaphore where
  /-- how many threads may pass -/
  permits : Nat := 0
  /-- the threads that sleep until they are woken -/
  asleep : List Nat := []
  deriving DecidableEq, Repr, Inhabited

namespace Semaphore

/-- The most permits that can be counted. -/
def maxPermits : Nat := 0xffffffffffffffff

/-- Whether one more permit can be counted. -/
def canPost (s : Semaphore) : Bool := s.permits < maxPermits

/-- Adds a permit and wakes one of the sleepers, which one is the system's choice. -/
def post (s : Semaphore) (choice : Nat) : Semaphore :=
  { permits := s.permits + 1, asleep := s.asleep.eraseIdx (choice % s.asleep.length) }

/-- What comes of looking at the permits. -/
inductive Look
  /-- a permit was taken -/
  | passed (s : Semaphore)
  /-- there was none, and the thread fell asleep -/
  | slept (s : Semaphore)
  deriving DecidableEq, Repr

/-- A thread that waits looks at the permits; a sleeper does not. -/
def look? (s : Semaphore) (thread : Nat) : Option Look :=
  if thread ∈ s.asleep then none
  else
    match s.permits with
    | 0 => some (.slept { s with asleep := s.asleep ++ [thread] })
    | permits + 1 => some (.passed { s with permits })

/-- Lets each of the threads that wait look once, after which those that are left sleep. The result
lists those. -/
def settle (s : Semaphore) : (waiting : List Nat) → List Nat × Semaphore
  | [] => ([], s)
  | thread :: waiting =>
    match s.look? thread with
    | some (.passed s) => settle s waiting
    | some (.slept s) =>
      let (left, s) := settle s waiting
      (thread :: left, s)
    | none =>
      let (left, s) := settle s waiting
      (thread :: left, s)

end Semaphore

end FileServer
