import FileServer.Server.Run

/-!
# What an action comes to

Each action in a run of a server is possible under a condition of its own, and comes to one state
then. `Server.Performs` lists the actions with both, so that a proof about all actions goes by cases
(`Server.perform?_cases`) and finds in each of them what made the action possible. A server that
starts to serve may leave at once (`Server.serve_cases`). What the loop and a worker do is left as
it is there; their steps are listed in `Server/Rounds` and gone through by jobs in
`Server/WorkerSteps`.
-/

namespace FileServer.Server

variable {s t : Server} {a : Action}

/-- The actions that are possible, each with the state that it comes to. -/
inductive Performs (s : Server) : Action → Server → Prop
  /-- a server serves once -/
  | serve : s.stage = .ready → Performs s .serve s.serve
  /-- and is not given up after that -/
  | drop : s.stage = .ready → Performs s .drop (s.leave .dropped)
  | loop {choice : Nat} {t : Server} : s.loopStep choice = some t → Performs s (.loop choice) t
  | worker {i : Nat} {t : Server} : s.workerStep i = some t → Performs s (.worker i) t
  /-- only who holds a handle can request a stop -/
  | requestStop : s.handles ≠ 0 → Performs s .requestStop s.requestStop
  /-- the byte is written once for each request -/
  | wake {underWay : Nat} : s.stop.underWay = underWay + 1 →
    Performs s .wake { s.withKernel (s.hub.kernel.wake s.wakerIn) with
      stop := { s.stop with underWay, done := s.stop.done + 1 } }
  /-- nobody goes who is requesting a stop -/
  | releaseHandle {handles : Nat} : s.isGone = false → s.stop.underWay < s.handles →
    s.handles = handles + 1 → Performs s .releaseHandle { s with handles }
  /-- once the server is gone, the last to go closes the pipe -/
  | closeHandle {handles : Nat} : s.isGone = true → s.stop.underWay < s.handles →
    s.handles = handles + 1 → Performs s .releaseHandle (closeWaker { s with handles })
  | connect : Performs s .connect s.connect.2
  | client (n : Nat) (act : ClientAction) :
    Performs s (.client n act) (s.asClient n fun st => ((), act.perform st)).2
  | openPipe (place : List String) : Performs s (.openPipe place) (s.openPipe place)

/-- **What an action comes to.** Proofs about all actions go through these cases. -/
theorem perform?_cases (hstep : s.perform? a = some t) : s.Performs a t := by
  cases a with
  | serve =>
    simp only [perform?, serve?] at hstep
    split at hstep
    · next hready => exact Option.some.inj hstep ▸ .serve hready
    · cases hstep
  | drop =>
    simp only [perform?, drop?] at hstep
    split at hstep
    · next hready => exact Option.some.inj hstep ▸ .drop hready
    · cases hstep
  | loop choice => exact .loop hstep
  | worker i => exact .worker hstep
  | requestStop =>
    simp only [perform?] at hstep
    split at hstep
    · cases hstep
    · next hhandles => exact Option.some.inj hstep ▸ .requestStop hhandles
  | wake =>
    simp only [perform?, wake?] at hstep
    split at hstep
    · cases hstep
    · next hunderWay => exact Option.some.inj hstep ▸ .wake hunderWay
  | releaseHandle =>
    simp only [perform?, releaseHandle?] at hstep
    split at hstep
    · next hlt =>
      split at hstep
      · cases hstep
      · next handles hhandles =>
        -- the server is gone or not, however many handles there are
        have hsame : Server.isGone { s with handles } = s.isGone := rfl
        rw [hsame] at hstep
        split at hstep
        · next hgone => exact Option.some.inj hstep ▸ .closeHandle hgone hlt hhandles
        · next hgone =>
          exact Option.some.inj hstep ▸ .releaseHandle (eq_false_of_ne_true hgone) hlt hhandles
    · cases hstep
  | connect => exact Option.some.inj hstep ▸ .connect
  | client n act => exact Option.some.inj hstep ▸ .client n act
  | openPipe place => exact Option.some.inj hstep ▸ .openPipe place

/-- To start to serve is to set up and spawn workers next, or to leave at once. -/
theorem serve_cases (s : Server) :
    (∃ k failure, s.serve = (s.withKernel k).leave (.over (.error failure))) ∨
      ∃ k poll, s.serve = { s.withKernel k with poll, stage := .spawning s.config.workers } := by
  rw [serve]
  split
  · exact .inl ⟨_, _, rfl⟩
  · split
    · exact .inr ⟨_, _, rfl⟩
    · exact .inl ⟨_, _, rfl⟩

/-- The loop of a server has nothing to do before the server serves. -/
theorem loopStep_of_ready (hready : s.stage = .ready) (choice : Nat) :
    s.loopStep choice = none := by
  simp only [loopStep, hready]

/-- Nobody can take a worker's step before a worker has been started. -/
theorem workerStep_of_nil (hworkers : s.pool.workers = []) (i : Nat) : s.workerStep i = none := by
  simp [workerStep, Pool.workerStep, hworkers]

end FileServer.Server
