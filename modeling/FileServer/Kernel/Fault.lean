import FileServer.Kernel.Errno

/-!
# Faults

The outcome of a system call is the kernel's choice: it may move fewer bytes than offered, be
interrupted, or fail. That choice is made in advance, by a script that holds one entry for each of
the next calls of a kind; after its end every call does its plain work. A statement about all
scripts is therefore a statement about everything the kernel may do.
-/

namespace FileServer

/-- What a scripted call does in place of its plain work. -/
inductive Fault
  /-- moves at most so many bytes; with zero the call returns zero and does nothing -/
  | limit (bytes : Nat)
  /-- fails -/
  | fail (reason : Errno)
  deriving DecidableEq, Repr

/-- What the next calls of a kind do; `none` is the plain work. -/
abbrev Script := List (Option Fault)

/-- The kinds of call that can be scripted. Reads and writes are scripted for one descriptor, or for
all that have no script of their own. -/
inductive Call
  | read (descriptor : Option Int)
  | write (descriptor : Option Int)
  | accept
  | pollCreate
  | pollControl
  | pollWait
  | socket
  | setOption
  | bind
  | listen
  | createPipe
  | socketName
  | mapFile
  | spawnThread
  deriving DecidableEq, Repr

/-- The scripts in force, the latest first. -/
abbrev Scripts := List (Call × Script)

namespace Scripts

/-- The script of a kind of call. -/
def of (scripts : Scripts) (call : Call) : Script := (scripts.lookup call).getD []

/-- Puts a script in force, in place of an older one. -/
def set (scripts : Scripts) (call : Call) (script : Script) : Scripts :=
  (call, script) :: scripts.filter (·.1 != call)

/-- Takes the entry for the call made now. -/
def next (scripts : Scripts) (call : Call) : Option Fault × Scripts :=
  match scripts.of call with
  | [] => (none, scripts)
  | fault :: rest => (fault, scripts.set call rest)

theorem lookup_filter_ne {call other : Call} (h : other ≠ call) (scripts : Scripts) :
    (scripts.filter (·.1 != call)).lookup other = scripts.lookup other := by
  induction scripts with
  | nil => rfl
  | cons entry rest ih =>
    obtain ⟨key, script⟩ := entry
    by_cases same : key = call
    · subst same
      rw [List.filter_cons_of_neg (by simp), ih, List.lookup_cons, beq_false_of_ne h]
    · rw [List.filter_cons_of_pos (by simpa using same), List.lookup_cons, List.lookup_cons, ih]

@[simp]
theorem of_set_self (scripts : Scripts) (call : Call) (script : Script) :
    (scripts.set call script).of call = script := by
  simp [of, set]

theorem of_set_ne {call other : Call} (h : other ≠ call) (scripts : Scripts) (script : Script) :
    (scripts.set call script).of other = scripts.of other := by
  rw [of, of, set, List.lookup_cons, beq_false_of_ne h, lookup_filter_ne h]

end Scripts

end FileServer
