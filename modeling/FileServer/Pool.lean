import FileServer.Error
import FileServer.Semaphore

/-!
# The pool of workers

A bounded queue and a fixed crew of workers. Items are taken in the order in which they were
accepted. An item is first put into the queue and then announced by a permit, and a worker first
takes a permit, then looks whether to stop, then takes an item, so that the number of permits and
the length of the queue differ for a moment; the steps here are as small as that.

What a worker does with an item is left open: `ρ` is the type of its progress. `Pool.workerStep`
takes every step of a worker but those of its item.
-/

namespace FileServer

/-- What a worker is doing. -/
inductive Worker (ρ : Type)
  /-- it waits for a permit, awake or asleep -/
  | waiting
  /-- it has a permit and is about to look whether to stop -/
  | permitted
  /-- it is about to take an item -/
  | fetching
  /-- it handles an item -/
  | busy (progress : ρ)
  /-- it has come to its end -/
  | exited
  deriving DecidableEq, Repr, Inhabited

/-- A bounded queue of items and the workers that take them. -/
structure Pool (α ρ : Type) where
  /-- how many workers there are to be -/
  size : Nat
  /-- how many items may wait at once -/
  capacity : Nat
  /-- the items that wait, the oldest first -/
  queue : List α := []
  /-- announces the items -/
  available : Semaphore := {}
  /-- whether workers are to come to their end -/
  stopping : Bool := false
  /-- the workers that have been started; each is known by its place in this list -/
  workers : List (Worker ρ) := []
  deriving Repr, Inhabited

namespace Pool

variable {α ρ : Type}

/-- A pool without items, whose workers have not been started. There is memory for as many items as
may wait at once, each of so many bytes. -/
def create (size capacity itemBytes : Nat) : Except ServerError (Pool α ρ) :=
  if size = 0 then .error (.config (.notPositive "worker count"))
  else if capacity = 0 then .error (.config (.notPositive "queue capacity"))
  else if !canAllocate capacity itemBytes then .error (.crash .sizeTooLarge)
  else .ok { size, capacity }

/-! ## Submitting -/

/-- Puts an item into the queue, unless that is full. -/
def push (p : Pool α ρ) (item : α) : Except ServerError (Pool α ρ) :=
  if p.capacity ≤ p.queue.length then .error .queueFull
  else .ok { p with queue := p.queue ++ [item] }

/-- Adds a permit and wakes one of the sleeping workers. -/
def post (p : Pool α ρ) (choice : Nat) : Pool α ρ :=
  { p with available := p.available.post choice }

/-- Puts an item into the queue and announces it. -/
def submit (p : Pool α ρ) (item : α) : Except ServerError (Pool α ρ) := do
  let p ← p.push item
  return p.post 0

/-! ## Workers -/

/-- Starts one more worker. -/
def spawn (p : Pool α ρ) : Pool α ρ := { p with workers := p.workers ++ [.waiting] }

/-- Starts all workers. -/
def spawnAll (p : Pool α ρ) : Pool α ρ := p.size.repeat spawn p

/-- Sets what a worker is doing. -/
def setWorker (p : Pool α ρ) (i : Nat) (w : Worker ρ) : Pool α ρ :=
  { p with workers := p.workers.set i w }

/-- The next step of a worker, unless it sleeps, handles an item or has come to its end. The first
result is the item it has just taken. -/
def workerStep (start : α → ρ) (p : Pool α ρ) (i : Nat) : Option (Option α × Pool α ρ) :=
  match p.workers[i]? with
  | some .waiting =>
    match p.available.look? i with
    | some (.passed available) => some (none, { p with available }.setWorker i .permitted)
    | some (.slept available) => some (none, { p with available })
    | none => none
  | some .permitted => some (none, p.setWorker i (if p.stopping then .exited else .fetching))
  | some .fetching =>
    match p.queue with
    | [] => some (none, p.setWorker i .waiting)
    | item :: queue => some (some item, { p with queue }.setWorker i (.busy (start item)))
  | _ => none

/-- The worker is done with its item. -/
def finish (p : Pool α ρ) (i : Nat) : Pool α ρ := p.setWorker i .waiting

/-- How many workers have been started and have not come to their end. -/
def alive (p : Pool α ρ) : Nat := p.workers.countP fun w => !(w matches .exited)

/-- What the busy workers are at. -/
def running (p : Pool α ρ) : List ρ :=
  p.workers.filterMap fun
    | .busy progress => some progress
    | _ => none

/-- Whether every worker that has been started has come to its end. -/
def isOver (p : Pool α ρ) : Bool := p.workers.all fun w => w matches .exited

/-! ## Shutting down -/

/-- Tells the workers to come to their end. -/
def stop (p : Pool α ρ) : Pool α ρ := { p with stopping := true }

/-- Tells the workers to come to their end and wakes each of them. -/
def shutdown (p : Pool α ρ) : Pool α ρ := p.size.repeat (·.post 0) p.stop

/-! ## Running until nothing moves -/

/-- A bound on the steps that the workers can take before all of them sleep, are busy or at their
end. -/
def stepBound (p : Pool α ρ) : Nat := 4 * (p.available.permits + p.workers.length + 1)

/-- The first worker, from number `i` on, that can take a step, after that step. -/
def firstStep (start : α → ρ) (p : Pool α ρ) : Nat → Option (Option α × Pool α ρ)
  | 0 => none
  | i + 1 => (p.firstStep start i).or (p.workerStep start i)

/-- Lets the workers go on for a number of steps, or until none of them can take one. The first
result lists the items they have taken. -/
def settleFor (start : α → ρ) : Nat → Pool α ρ → List α × Pool α ρ
  | 0, p => ([], p)
  | steps + 1, p =>
    match p.firstStep start p.workers.length with
    | none => ([], p)
    | some (item, p) =>
      let (items, p) := settleFor start steps p
      (item.toList ++ items, p)

/-- Lets the workers go on until none of them can take a step. -/
def settle (start : α → ρ) (p : Pool α ρ) : List α × Pool α ρ := settleFor start p.stepBound p

/-- The first worker that is at something is done with it. -/
def finishItem? [DecidableEq ρ] (p : Pool α ρ) (progress : ρ) : Option (Pool α ρ) :=
  (p.workers.findIdx? (· = .busy progress)).map p.finish

end Pool

end FileServer
