import FileServer.Proofs.Server.Outside

/-!
# Which stage follows which

The stages of the loop, and which of them a step leads to (`Stage.Leads`). The loop looks at the
flag for stopping in one place, before each wait. Nobody but a request to stop touches the requests
(`Server.requestStep_perform`), so the flag stays set once it is (`Server.flag_perform`).
-/

namespace FileServer

namespace Stage

/-- Whether the loop may still come to wait. -/
def isLooping : Stage → Bool
  | .ready | .spawning _ | .addListener | .addWaker | .checking | .polling | .waiting | .batch .. =>
    true
  | _ => false

/-- Whether the wake-up pipe has been added to the poll set, and the loop has not been left. -/
def isRound : Stage → Bool
  | .checking | .polling | .waiting | .batch .. => true
  | _ => false

/-- Whether the loop has looked at the flag and not fetched events since. -/
def isWait : Stage → Bool
  | .polling | .waiting => true
  | _ => false

/-- A loop that is about to wait is in one of its rounds. -/
theorem isRound_of_isWait {stage : Stage} (h : stage.isWait = true) : stage.isRound = true := by
  cases stage with
  | polling => rfl
  | waiting => rfl
  | _ => cases h

/-- A loop that is in a round, and neither in a batch nor about to wait, looks at the flag. -/
theorem eq_checking {stage : Stage} (hround : stage.isRound = true)
    (hwait : stage.isWait = false) (htask : stage.task?.isNone = true) : stage = .checking := by
  cases stage with
  | checking => rfl
  | polling | waiting => cases hwait
  | batch => cases htask
  | _ => cases hround

/-- A loop in one of its rounds has not been left. -/
theorem isLooping_of_isRound {stage : Stage} (h : stage.isRound = true) :
    stage.isLooping = true := by
  cases stage with
  | checking => rfl
  | polling => rfl
  | waiting => rfl
  | batch rest task => rfl
  | _ => cases h

/-- A loop that may still come to wait has begun to serve, unless it is yet to start. -/
theorem isServing_of_isLooping {stage : Stage} (h : stage.isLooping = true)
    (hready : stage ≠ .ready) : stage.isServing = true := by
  cases stage with
  | ready => exact absurd rfl hready
  | _ => first | rfl | cases h

/-- Which stage the loop leads to from another, with the flag set or not. Only at one place does
the flag matter: where the loop looks whether to stop. -/
inductive Leads (flag : Bool) : Stage → Stage → Prop
  | spawn {left : Nat} : Leads flag (.spawning (left + 1)) (.spawning left)
  | spawned : Leads flag (.spawning 0) .addListener
  | listens : Leads flag .addListener .addWaker
  | begins : Leads flag .addWaker .checking
  | stops : flag = true → Leads flag .checking (.stopping (.ok ()))
  | goesOn : flag = false → Leads flag .checking .polling
  | waits : Leads flag .polling .waiting
  | interrupted : Leads flag .polling .checking
  | fetches {events : List Event} : Leads flag .waiting (.batch events .next)
  | works {rest rest' : List Event} {task task' : Task} :
    Leads flag (.batch rest task) (.batch rest' task')
  | done : Leads flag (.batch [] .next) .checking
  | fails {stage : Stage} {reason : ServerError} : stage.isLooping = true →
    Leads flag stage (.stopping (.error reason))
  | ends {stage stage' : Stage} : stage.isLooping = false → stage'.isLooping = false →
    Leads flag stage stage'

/-- A loop that has been left is not entered again. -/
theorem Leads.isLooping {flag : Bool} {stage stage' : Stage} (h : Leads flag stage stage')
    (hloop : stage'.isLooping = true) : stage.isLooping = true := by
  cases h with
  | fails hlooping => exact hlooping
  | ends _ hends => exact absurd hloop (by rw [hends]; exact Bool.false_ne_true)
  | stops => cases hloop
  | _ => rfl

/-- With the flag set, the loop comes to wait only from a wait. -/
theorem Leads.notWaiting {stage stage' : Stage} (h : Leads true stage stage')
    (hstarted : stage ≠ .ready) (hnot : stage.isWait = false) :
    stage' ≠ .ready ∧ stage'.isWait = false := by
  cases h with
  | goesOn hflag => cases hflag
  | waits => cases hnot
  | ends hpast hends =>
    constructor
    · rintro rfl
      cases hends
    · cases hwait : stage'.isWait with
      | false => rfl
      | true =>
        rw [isLooping_of_isRound (isRound_of_isWait hwait)] at hends
        cases hends
  | _ => exact ⟨by rintro ⟨⟩, rfl⟩

end Stage

namespace Server

variable {s t : Server} {a : Action} {choice : Nat}

/-- The requests to stop stay as they are, and so does who can make them. -/
def SameRequests (s t : Server) : Prop := t.stop = s.stop ∧ t.handles = s.handles

theorem requests_doTask (choice : Nat) (s : Server) (task : Task) :
    s.SameRequests (s.doTask choice task).2 := by
  rw [doTask_eq]
  exact ⟨rfl, rfl⟩

theorem requests_closeWaker (s : Server) : s.SameRequests s.closeWaker := by
  rw [closeWaker]
  split <;> exact ⟨rfl, rfl⟩

theorem requests_leave (s : Server) (stage : Stage) : s.SameRequests (s.leave stage) :=
  requests_closeWaker ((s.withKernel (s.hub.kernel.close s.listener)).goTo stage)

/-- A server is there as long as its loop may come to wait. -/
theorem isGone_of_isLooping (h : s.stage.isLooping = true) : s.isGone = false := by
  rw [isGone]
  cases hstage : s.stage with
  | _ => first | rfl | (rw [hstage] at h; cases h)

theorem stage_leave (s : Server) (stage : Stage) : (s.leave stage).stage = stage := by
  rw [leave, (closeWaker_rest _).1]
  rfl

/-- The loop goes from stage to stage, and does not touch the requests. -/
theorem loopStep_leads (hstep : s.loopStep choice = some t) :
    s.stage.Leads s.stop.flag t.stage ∧ s.SameRequests t := by
  cases loopStep_cases hstep with
  | done hstage =>
    rw [hstage]
    exact ⟨.done, rfl, rfl⟩
  | look hstage =>
    rw [hstage]
    exact ⟨.works, rfl, rfl⟩
  | work hstage =>
    rw [hstage]
    exact ⟨.works, requests_doTask ..⟩
  | spawned hstage =>
    rw [hstage]
    exact ⟨.spawned, rfl, rfl⟩
  | spawn hstage =>
    rw [hstage, spawnWorker]
    split
    · exact ⟨.fails rfl, rfl, rfl⟩
    · exact ⟨.spawn, rfl, rfl⟩
  | addListener hstage =>
    rw [hstage, addStanding]
    split
    · exact ⟨.fails rfl, rfl, rfl⟩
    · exact ⟨.listens, rfl, rfl⟩
  | addWaker hstage =>
    rw [hstage, addStanding]
    split
    · exact ⟨.fails rfl, rfl, rfl⟩
    · exact ⟨.begins, rfl, rfl⟩
  | check hstage =>
    rw [hstage]
    refine ⟨?_, rfl, rfl⟩
    cases s.stop.flag with
    | true => exact .stops rfl
    | false => exact .goesOn rfl
  | poll hstage =>
    rw [hstage, beginWait]
    split
    · exact ⟨.waits, rfl, rfl⟩
    · exact ⟨.interrupted, rfl, rfl⟩
    · exact ⟨.fails rfl, rfl, rfl⟩
  | fetch hstage =>
    rw [hstage]
    exact ⟨.fetches, rfl, rfl⟩
  | leave hstage =>
    rw [hstage, stage_leave]
    exact ⟨.ends rfl rfl, requests_leave ..⟩
  -- what is left goes on with the shutdown, which nothing turns back
  | _ hstage =>
    rw [hstage]
    exact ⟨.ends rfl rfl, rfl, rfl⟩

/-! ## The requests

Who may touch the requests to stop, and that nobody takes one back. -/

/-- To start to serve is no request to stop. -/
theorem requests_serve (s : Server) : s.SameRequests s.serve := by
  rcases serve_cases s with ⟨k, failure, heq⟩ | ⟨k, poll, heq⟩
  · rw [heq]
    exact requests_leave ..
  · rw [heq]
    exact ⟨rfl, rfl⟩

theorem requests_workerStep {i : Nat} (hstep : s.workerStep i = some t) : s.SameRequests t := by
  rw [workerStep_eq hstep]
  exact ⟨rfl, rfl⟩

/-- What an action does to the requests to stop. -/
inductive RequestStep (s t : Server) : Prop
  /-- nothing -/
  | rest : s.SameRequests t → RequestStep s t
  /-- a request sets the flag, by someone who can make it -/
  | requested : s.handles ≠ 0 → t.handles = s.handles →
    t.stop = { s.stop with flag := true, underWay := s.stop.underWay + 1 } → RequestStep s t
  /-- a request is through -/
  | written {underWay : Nat} : s.stop.underWay = underWay + 1 → t.handles = s.handles →
    t.stop = { s.stop with underWay, done := s.stop.done + 1 } → RequestStep s t
  /-- someone goes who has no request under way -/
  | released : s.stop.underWay < s.handles → s.handles = t.handles + 1 → t.stop = s.stop →
    RequestStep s t

/-- **What an action does to the requests** is one of four things, and it does nothing unless it
is of those who request a stop. -/
theorem requestStep_perform (hstep : s.perform? a = some t) : RequestStep s t := by
  cases perform?_cases hstep with
  | loop hloop => exact .rest (loopStep_leads hloop).2
  | worker hworker => exact .rest (requests_workerStep hworker)
  | serve => exact .rest (requests_serve s)
  | drop => exact .rest (requests_leave ..)
  | requestStop hhandles => exact .requested hhandles rfl rfl
  | wake hunderWay => exact .written hunderWay rfl rfl
  | releaseHandle _ hfree hhandles => exact .released hfree hhandles rfl
  | @closeHandle handles _ hfree hhandles =>
    have hclosed := requests_closeWaker { s with handles }
    exact .released hfree (hhandles.trans (congrArg (· + 1) hclosed.2.symm)) hclosed.1
  | connect => exact .rest ⟨rfl, rfl⟩
  | client => exact .rest ⟨rfl, rfl⟩
  | openPipe => exact .rest ⟨rfl, rfl⟩

/-- Once the flag is set it stays set. -/
theorem flag_perform (hflag : s.stop.flag = true) (hstep : s.perform? a = some t) :
    t.stop.flag = true := by
  cases requestStep_perform hstep with
  | rest hsame => rw [hsame.1, hflag]
  | requested _ _ hstop => rw [hstop]
  | written _ _ hstop => rw [hstop, hflag]
  | released _ _ hstop => rw [hstop, hflag]

/-- As long as a request is under way there is someone who can request a stop. -/
def Requested (s : Server) : Prop := s.stop.underWay ≠ 0 → s.handles ≠ 0

/-- Who has a request under way does not go before it is through. -/
theorem Requested.perform (hs : s.Requested) (hstep : s.perform? a = some t) : t.Requested := by
  intro hunderWay
  cases requestStep_perform hstep with
  | rest hsame =>
    rw [hsame.2]
    exact hs (hsame.1 ▸ hunderWay)
  | requested hhandles hsame _ =>
    rw [hsame]
    exact hhandles
  | written hone hsame _ =>
    rw [hsame]
    exact hs (hone ▸ Nat.succ_ne_zero _)
  | released hfree hone hstop =>
    rw [hstop] at hunderWay
    omega

end Server

end FileServer
