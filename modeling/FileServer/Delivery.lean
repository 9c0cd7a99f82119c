import FileServer.Buffer
import FileServer.Response
import FileServer.Kernel.Wire

/-!
# Delivering a response

The head of a response, together with the page if there is no file, stands in a small buffer; a file
is sent from where it is. A plan says how much of each has gone out. One write offers what remains
of both, so it may end inside the head, between the two, or inside the file; `Plan.advance` accounts
for it, and the next write goes on from there.
-/

namespace FileServer

/-- How far a response has been sent. -/
structure Plan where
  /-- where the rest of the head starts -/
  headStart : Nat := 0
  /-- where the head ends -/
  headStop : Nat := 0
  /-- where the rest of the file starts -/
  fileStart : Nat := 0
  /-- how many bytes there are in all -/
  total : Nat := 0
  /-- how many of them have been accepted -/
  sent : Nat := 0
  deriving DecidableEq, Repr, Inhabited

namespace Plan

/-- The plan for a response of which nothing has been sent. -/
def ofLengths (head file : Nat) : Plan := { headStop := head, total := head + file }

/-- Accounts for `n` more bytes: the head first, and what goes beyond it is of the file. -/
def advance (p : Plan) (n : Nat) : Plan :=
  let headLeft := p.headStop - p.headStart
  if n < headLeft then { p with sent := p.sent + n, headStart := p.headStart + n }
  else
    { p with
      sent := p.sent + n
      headStart := p.headStop
      fileStart := p.fileStart + (n - headLeft) }

/-- Whether everything has been accepted. -/
def isComplete (p : Plan) : Bool := p.total ≤ p.sent

@[simp] theorem total_advance (p : Plan) (n : Nat) : (p.advance n).total = p.total := by
  unfold advance
  dsimp only
  split <;> rfl

@[simp] theorem sent_advance (p : Plan) (n : Nat) : (p.advance n).sent = p.sent + n := by
  unfold advance
  dsimp only
  split <;> rfl

end Plan

/-- The size of the buffer for the head. -/
def headCapacity : Nat := 1024

/-- A response on its way to the client. -/
structure Delivery where
  /-- the head, with the page if there is no file -/
  head : Buffer := .blank headCapacity
  /-- how far it has been sent -/
  plan : Plan := {}
  /-- the file, as long as it is needed -/
  file : Option Bytes := none
  deriving DecidableEq, Repr, Inhabited

/-- How an attempt to send ended. -/
inductive SendStatus
  /-- everything has been accepted -/
  | complete
  /-- the client has to take some before more can be sent -/
  | pending
  /-- the client cannot be reached -/
  | failed (reason : Errno)
  deriving DecidableEq, Repr

namespace Delivery

/-- Forgets the response. The memory of the buffer is not cleared. -/
def reset (d : Delivery) : Delivery := { head := d.head.clear }

/-- Lays out the response to a request; `none` if the head does not fit its buffer. -/
def lay? (d : Delivery) (r : Resolution) (keepAlive : Bool) : Option Delivery := do
  let head ← d.head.clear.append? (Response.head r keepAlive)
  let head ← head.append? (.ofText r.page)
  return {
    head
    plan := .ofLengths head.used (r.file?.getD []).length
    file := r.file? }

/-- What is left of the head. -/
def headRest (d : Delivery) : Bytes := d.head.slice ⟨d.plan.headStart, d.plan.headStop⟩

/-- What is left of the file. -/
def fileRest (d : Delivery) : Bytes := (d.file.getD []).drop d.plan.fileStart

/-- Accounts for `n` more bytes. -/
def advance (d : Delivery) (n : Nat) : Delivery := { d with plan := d.plan.advance n }

/-- Lets go of the file. -/
def release (d : Delivery) : Delivery := { d with file := none }

/-- Sends until everything has been accepted or a write accepts nothing. The file is released as
soon as it is not needed any more. -/
def send (d : Delivery) (w : Wire) : SendStatus × Delivery × Wire :=
  if _unfinished : d.plan.isComplete then (.complete, d.release, w)
  else
    match w.write [d.headRest, d.fileRest] with
    | (.accepted 0, w) => (.pending, d, w)
    | (.accepted (n + 1), w) => (d.advance (n + 1)).send w
    | (.wouldBlock, w) => (.pending, d, w)
    | (.failed reason, w) => (.failed reason, d.release, w)
termination_by d.plan.total - d.plan.sent
decreasing_by
  simp only [Plan.isComplete, decide_eq_true_eq] at _unfinished
  simp only [advance, Plan.total_advance, Plan.sent_advance]
  omega

end Delivery

end FileServer
