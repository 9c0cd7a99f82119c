import FileServer.DescriptorMap

/-!
# Readiness

A poll set holds the descriptors whose readiness is to be reported. A registration reports changes:
when something happens at a descriptor it is put at the end of the list of those to be looked at,
and the next collection reports what it is then ready for. A registration for one event is disarmed
by its event and stays silent until it is armed again.
-/

namespace FileServer

/-- What a descriptor is ready for. -/
structure Readiness where
  /-- there is something to read, or the end of the stream -/
  input : Bool := false
  /-- something can be written -/
  output : Bool := false
  /-- something is wrong -/
  error : Bool := false
  /-- the other end is gone -/
  hangup : Bool := false
  /-- the other end has ended its sending side -/
  ended : Bool := false
  deriving DecidableEq, Repr, Inhabited

/-- Whether there is anything to report. -/
def Readiness.any (r : Readiness) : Bool := r.input || r.output || r.error || r.hangup || r.ended

/-- Whether the client is leaving or gone, or something is wrong. -/
def Readiness.isOver (r : Readiness) : Bool := r.error || r.hangup || r.ended

/-- What a connection wants to be told. -/
inductive Interest
  /-- when there is something to read -/
  | read
  /-- when something can be written -/
  | write
  deriving DecidableEq, Repr

/-- A descriptor in the poll set. -/
structure Registration where
  /-- handed back with every event -/
  token : UInt64
  /-- which of reading and writing is of interest -/
  interest : Interest
  /-- whether an event disarms the registration -/
  oneShot : Bool
  /-- whether events are reported -/
  armed : Bool := true
  deriving DecidableEq, Repr

/-- What is reported of a descriptor that is ready for `r`: reading or writing only if it is of
interest, the rest always. -/
def Registration.report (g : Registration) (r : Readiness) : Readiness :=
  if g.armed then
    { r with
      input := r.input && g.interest = .read
      output := r.output && g.interest = .write }
  else {}

/-- A report. -/
structure Event where
  /-- the token of the registration -/
  token : UInt64
  /-- what the descriptor is ready for -/
  ready : Readiness
  deriving DecidableEq, Repr

/-- The descriptors whose readiness is to be reported. -/
structure Poll where
  /-- the registrations -/
  registrations : DescriptorMap Registration := {}
  /-- the descriptors to be looked at, the oldest first -/
  pending : List Int := []
  deriving DecidableEq, Repr, Inhabited

namespace Poll

/-- Has a descriptor looked at if it has something to report; it waits only once. -/
def notify (p : Poll) (descriptor : Int) (now : Readiness) : Poll :=
  match p.registrations.get? descriptor with
  | some g =>
    if (g.report now).any && !p.pending.contains descriptor then
      { p with pending := p.pending ++ [descriptor] }
    else p
  | none => p

/-- Puts a registration in place, new or changed, and has the descriptor looked at. -/
def register (p : Poll) (descriptor : Int) (g : Registration) (now : Readiness) : Poll :=
  { p with registrations := p.registrations.set descriptor g }.notify descriptor now

/-- Takes a descriptor out. -/
def remove (p : Poll) (descriptor : Int) : Poll :=
  { registrations := p.registrations.erase descriptor
    pending := p.pending.filter (· != descriptor) }

/-- Whether some descriptor has something to report. -/
def isReady (p : Poll) (now : Int → Readiness) : Bool :=
  p.pending.any fun descriptor =>
    (p.registrations.get? descriptor).any fun g => (g.report (now descriptor)).any

/-- Looks at the pending descriptors in turn until `max` of them have something to report. -/
def collectFrom (now : Int → Readiness) :
    (pending : List Int) → (max : Nat) → DescriptorMap Registration → List Event × Poll
  | [], _, registrations => ([], { registrations })
  | pending, 0, registrations => ([], { registrations, pending })
  | descriptor :: pending, max + 1, registrations =>
    match registrations.get? descriptor with
    | none => collectFrom now pending (max + 1) registrations
    | some g =>
      let ready := g.report (now descriptor)
      if ready.any then
        let g' := { g with armed := g.armed && !g.oneShot }
        let (events, p) := collectFrom now pending max (registrations.set descriptor g')
        ({ token := g.token, ready } :: events, p)
      else collectFrom now pending (max + 1) registrations

/-- The events of at most `max` descriptors, in the order in which they became ready. -/
def collect (p : Poll) (now : Int → Readiness) (max : Nat) : List Event × Poll :=
  collectFrom now p.pending max p.registrations

end Poll

end FileServer
