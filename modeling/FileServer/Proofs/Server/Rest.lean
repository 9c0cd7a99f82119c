import FileServer.Proofs.Server.Crew
import FileServer.Proofs.Server.Waking

/-!
# When a server is at rest

The threads of a server wait for each other: a worker for a permit, or for another worker to be
through with a connection; the loop for events, for who holds a connection, and in the end for the
workers. All that is left open by this is that nobody can go on while there is something to do.

That does not happen (`Server.still_iff`). When nobody can take a step, and no worker waits for a
named pipe, which only somebody outside can open, then the server has not begun, or it is gone, or
its loop waits for events and there are none; and then every worker sleeps, no connection waits in
the queue, and no request to stop is through. So a server that has been asked to stop comes to its
end if it comes to rest at all (`Server.gone_of_still`).

`Server.settle` goes on until nobody can take a step, and is one run among those that can be
(`Server.Reachable.settle`).
-/

namespace FileServer

open Pool (Course)

namespace Pool

variable {α ρ : Type} {p : Pool α ρ}

/-- A job is under way just if some worker is at it. -/
theorem mem_running {progress : ρ} :
    progress ∈ p.running ↔ ∃ i : Nat, p.workers[i]? = some (.busy progress) := by
  rw [running, List.mem_filterMap]
  constructor
  · rintro ⟨w, hmem, hw⟩
    obtain ⟨i, hi⟩ := List.mem_iff_getElem?.mp hmem
    cases w with
    | busy next =>
      obtain rfl := Option.some.inj hw
      exact ⟨i, hi⟩
    | _ => cases hw
  · rintro ⟨i, hi⟩
    exact ⟨_, List.mem_of_getElem? hi, rfl⟩

end Pool

namespace Server

variable {s t start : Server} {c : Course Handle Job} {i choice : Nat} {job : Job} {h : Handle}

/-! ## Who waits for whom

The loop waits for events or for workers, workers wait for permits, and only the writer of a named
pipe is waited for from outside. -/

/-- Nobody can take a step: neither the loop, whatever sleeper it would wake, nor any of the
workers. -/
structure Still (s : Server) : Prop where
  loop : ∀ choice, s.loopStep choice = none
  worker : ∀ i, s.workerStep i = none

/-- Some worker waits for a writer of a named pipe. -/
def AwaitsPipe (s : Server) : Prop := ∃ place, s.isAwaited place = true

/-- A connection is held just if some worker's job holds it. -/
theorem isHeld_iff :
    s.isHeld h = true ↔
      ∃ (i : Nat) (job : Job), s.pool.workers[i]? = some (.busy job) ∧ job.held? = some h := by
  rw [isHeld, List.any_eq_true]
  constructor
  · rintro ⟨job, hmem, hheld⟩
    obtain ⟨i, hi⟩ := Pool.mem_running.mp hmem
    exact ⟨i, job, hi, of_decide_eq_true hheld⟩
  · rintro ⟨i, job, hi, hheld⟩
    exact ⟨job, Pool.mem_running.mpr ⟨i, hi⟩, decide_eq_true hheld⟩

/-- A worker waits for a named pipe just if its job is to answer a request for one. -/
theorem awaitsPipe_iff : s.AwaitsPipe ↔
    ∃ (i : Nat) (h : Handle) (outcome : Request.Outcome) (place : List String),
      s.pool.workers[i]? = some (.busy (.answer h outcome (some place))) := by
  constructor
  · rintro ⟨place, hawaited⟩
    obtain ⟨job, hmem, hjob⟩ := List.any_eq_true.mp hawaited
    obtain ⟨i, hi⟩ := Pool.mem_running.mp hmem
    cases job with
    | answer h outcome awaited =>
      obtain rfl := of_decide_eq_true hjob
      exact ⟨i, h, outcome, place, hi⟩
    | _ => cases hjob
  · rintro ⟨i, h, outcome, place, hi⟩
    exact ⟨place, List.any_eq_true.mpr ⟨_, Pool.mem_running.mpr ⟨i, hi⟩, decide_eq_true rfl⟩⟩

/-- A worker at a job can go on, unless another worker holds the connection or a named pipe has to
be opened. -/
theorem jobStep_eq_none (hstep : s.jobStep i job = none) :
    s.isHeld job.handle = true ∨ ∃ h outcome place, job = .answer h outcome (some place) := by
  cases job with
  | parse h =>
    simp only [jobStep] at hstep
    split at hstep
    · next hheld => exact .inl hheld
    · split at hstep <;> cases hstep
  | answer h outcome awaited =>
    simp only [jobStep] at hstep
    split at hstep
    · next hawaited =>
      obtain ⟨place, rfl⟩ := Option.isSome_iff_exists.mp hawaited
      exact .inr ⟨h, outcome, place, rfl⟩
    · split at hstep <;> cases hstep
  | close h => cases hstep
  | rearm h interest =>
    simp only [jobStep] at hstep
    split at hstep <;> cases hstep
  | giveUp h =>
    simp only [jobStep] at hstep
    split at hstep
    · next hheld => exact .inl hheld
    · cases hstep

/-- Who holds a connection waits for nobody but the writer of a named pipe. -/
theorem jobStep_isSome_of_held (hheld : job.held? = some h)
    (hpipe : ∀ h outcome place, job ≠ .answer h outcome (some place)) :
    (s.jobStep i job).isSome = true := by
  cases job with
  | answer g outcome awaited =>
    cases awaited with
    | none =>
      simp only [jobStep, Option.isSome_none, Bool.false_eq_true, if_false]
      split <;> rfl
    | some place => exact absurd rfl (hpipe g outcome place)
  | close g => rfl
  | _ => cases hheld

namespace Still

/-- When nobody can take a step, no worker is at a job. -/
theorem not_busy (hs : s.Still) (hpipe : ¬ s.AwaitsPipe) :
    s.pool.workers[i]? ≠ some (.busy job) := by
  have hnone : ∀ {j : Nat} {job : Job}, s.pool.workers[j]? = some (.busy job) →
      s.jobStep j job = none := by
    intro j job hj
    have hstep := hs.worker j
    rwa [workerStep, hj] at hstep
  have hopen : ∀ {j : Nat} {job : Job}, s.pool.workers[j]? = some (.busy job) →
      ∀ h outcome place, job ≠ .answer h outcome (some place) := by
    rintro j _ hj h outcome place rfl
    exact hpipe (awaitsPipe_iff.mpr ⟨j, h, outcome, place, hj⟩)
  intro hi
  rcases jobStep_eq_none (hnone hi) with hheld | ⟨h, outcome, place, rfl⟩
  · -- whoever holds the connection could go on
    obtain ⟨j, holder, hj, hheld⟩ := isHeld_iff.mp hheld
    have hsome := jobStep_isSome_of_held (s := s) (i := j) hheld (hopen hj)
    rw [hnone hj] at hsome
    cases hsome
  · exact hopen hi h outcome place rfl

/-- When nobody can take a step, no connection is held, as no worker is at a job. -/
theorem not_held (hs : s.Still) (hpipe : ¬ s.AwaitsPipe) (h : Handle) : s.isHeld h = false := by
  refine eq_false_of_ne_true fun hheld => ?_
  obtain ⟨i, job, hi, -⟩ := isHeld_iff.mp hheld
  exact hs.not_busy hpipe hi

/-- Each worker sleeps or has come to its end. -/
theorem asleep_or_exited (hs : s.Still) (hpipe : ¬ s.AwaitsPipe) {w : Worker Job}
    (hw : s.pool.workers[i]? = some w) :
    w = .waiting ∧ i ∈ s.pool.available.asleep ∨ w = .exited := by
  have hbusy : ∀ job, w ≠ .busy job := by
    rintro job rfl
    exact hs.not_busy hpipe hw
  have hnone : s.pool.workerStep Job.parse i = none := by
    have hstep := hs.worker i
    rw [workerStep, hw] at hstep
    cases w with
    | busy job => exact absurd rfl (hbusy job)
    | _ => exact Option.map_eq_none_iff.mp hstep
  rcases (Pool.workerStep_eq_none hw).mp hnone with hasleep | ⟨job, hjob⟩ | hexited
  · exact .inl hasleep
  · exact absurd hjob (hbusy job)
  · exact .inr hexited

/-- The loop has nothing to do itself. At all stages but these four it can go on. -/
theorem stage (hs : s.Still) (hpipe : ¬ s.AwaitsPipe) :
    s.stage = .ready ∨ s.isGone = true ∨ (s.stage = .waiting ∧ s.hasEvent = false) ∨
      ∃ result, s.stage = .joining result ∧ s.pool.isOver = false := by
  by_cases hgone : s.isGone = true
  · exact .inr (.inl hgone)
  have hstep := hs.loop 0
  cases hstage : s.stage with
  | ready => exact .inl rfl
  | waiting =>
    simp only [loopStep, hstage] at hstep
    split at hstep
    · cases hstep
    · next hevent => exact .inr (.inr (.inl ⟨rfl, eq_false_of_ne_true hevent⟩))
  | joining result =>
    simp only [loopStep, hstage] at hstep
    split at hstep
    · cases hstep
    · next hover => exact .inr (.inr (.inr ⟨result, rfl, eq_false_of_ne_true hover⟩))
  | batch rest task =>
    by_cases hnext : task = .next
    · subst hnext
      cases rest <;> (simp only [loopStep, hstage] at hstep; cases hstep)
    · -- no connection is held, so the loop could do its task
      have hfree : (visited? task).any s.isHeld = false := by
        cases visited? task with
        | none => rfl
        | some h => exact hs.not_held hpipe h
      rw [loopStep_batch hstage hnext, if_neg (by rw [hfree]; exact Bool.false_ne_true)] at hstep
      cases hstep
  | spawning left | releasing left result =>
    cases left <;> (simp only [loopStep, hstage] at hstep; cases hstep)
  | closing slots result =>
    cases slots <;> (simp only [loopStep, hstage] at hstep; cases hstep)
  | _ =>
    first
    | exact absurd (by rw [isGone, hstage]; rfl) hgone
    | (simp only [loopStep, hstage] at hstep; cases hstep)

end Still

/-! ## Rest

The states in which nobody inside can take a step. -/

/-- How a server is at rest. -/
inductive AtRest (s : Server) : Prop
  /-- it has not begun to serve -/
  | ready : s.stage = .ready → AtRest s
  /-- its loop waits for events, and there are none; all workers have been started, and sleep; no
  connection waits in the queue, and no request to stop is through -/
  | waiting : s.stage = .waiting → s.hasEvent = false → s.pool.workers.length = s.pool.size →
    (∀ i < s.pool.workers.length, i ∈ s.pool.available.asleep) → s.pool.queue = [] →
    s.stop.done = 0 → AtRest s
  /-- it is gone, and its workers have come to their end -/
  | gone : s.isGone = true → s.pool.isOver = true → AtRest s

namespace Crewed

variable {size capacity : Nat}

/-- A loop that waits for workers that cannot go on does not wait. -/
theorem isOver (hc : s.Crewed size capacity c) {result : Except ServerError Unit}
    (hstage : s.stage = .joining result)
    (hidle : ∀ (i : Nat) (w : Worker Job), s.pool.workers[i]? = some w →
      w = .waiting ∧ i ∈ s.pool.available.asleep ∨ w = .exited) : s.pool.isOver = true := by
  obtain ⟨-, howed, -⟩ := hc.releasing (n := 0) (by rw [dealing, hstage])
  have hreturned : c.Returned := by
    rw [Course.Returned, howed]
    exact List.mem_cons_self
  -- all permits have been posted, so nobody sleeps
  have hawake := hc.sound.awake hreturned
  rw [hc.pool] at hawake
  refine List.all_eq_true.mpr fun w hmem => ?_
  obtain ⟨i, hi⟩ := List.mem_iff_getElem?.mp hmem
  rcases hidle i w hi with ⟨-, hasleep⟩ | rfl
  · rw [hawake] at hasleep
    cases hasleep
  · rfl

/-- Workers that cannot go on while the loop waits for events sleep, and nothing waits for them. -/
theorem asleep (hc : s.Crewed size capacity c) (hsize : 0 < size) (hstage : s.stage = .waiting)
    (hidle : ∀ (i : Nat) (w : Worker Job), s.pool.workers[i]? = some w →
      w = .waiting ∧ i ∈ s.pool.available.asleep ∨ w = .exited) :
    s.pool.workers.length = s.pool.size ∧
      (∀ i < s.pool.workers.length, i ∈ s.pool.available.asleep) ∧ s.pool.queue = [] := by
  obtain ⟨hgoing, hcrew⟩ := hc.serving (n := 0) (by rw [dealing, hstage])
  obtain ⟨hbalanced, -⟩ := hc.sound.going hgoing.going
  have hcounted := hbalanced.counted
  have hattentive := hc.sound.attentive
  have hsome : c.pool.workers ≠ [] := by
    rw [← List.length_pos_iff, hcrew, hc.sound.size_eq]
    exact hsize
  have hloyal := hc.loyal
  rw [Course.Loyal, hgoing.going] at hloyal
  rw [← hc.pool] at hidle ⊢
  have hasleep : ∀ i < c.pool.workers.length, i ∈ c.pool.available.asleep := by
    intro i hi
    rcases hidle i _ (List.getElem?_eq_getElem hi) with ⟨-, hasleep⟩ | hexited
    · exact hasleep
    · cases hloyal (hexited ▸ List.getElem_mem hi)
  rw [hattentive.permits_eq_zero hsome hasleep, hattentive.holding_eq_zero hasleep,
    hgoing.announcing] at hcounted
  exact ⟨hcrew, hasleep, List.eq_nil_of_length_eq_zero hcounted⟩

/-- A worker that sleeps does not go on. -/
theorem workerStep_eq_none (hc : s.Crewed size capacity c) (hasleep : i ∈ s.pool.available.asleep) :
    s.workerStep i = none := by
  have hw := hc.sound.attentive.waiting
  rw [hc.pool] at hw
  have hnone : s.pool.workerStep Job.parse i = none :=
    (Pool.workerStep_eq_none (hw i hasleep)).mpr (.inl ⟨rfl, hasleep⟩)
  rw [workerStep, hw i hasleep]
  exact congrArg (Option.map _) hnone

end Crewed

theorem loopStep_of_isGone (hgone : s.isGone = true) (choice : Nat) : s.loopStep choice = none := by
  rcases isGone_iff.mp hgone with hstage | ⟨result, hstage⟩ <;> simp only [loopStep, hstage]

theorem workerStep_of_length_le (hi : s.pool.workers.length ≤ i) : s.workerStep i = none := by
  have hnone : s.pool.workers[i]? = none := List.getElem?_eq_none hi
  rw [workerStep, hnone]
  simp only [Pool.workerStep, hnone, Option.map_none]

/-- A server is set up only with sizes that are positive. -/
theorem sizes_pos {k : Kernel} {listener : Int} {config : Config}
    (hstart : ofListener k listener config = .ok start) : ∀ size ∈ config.sizes, 0 < size.2 := by
  simp only [ofListener] at hstart
  split at hstart
  · cases hstart
  · next hvalid => exact Config.validate_eq_ok.mp hvalid

/-- Where a server is gone nobody is left. -/
theorem Watchful.still (hs : s.Watchful) (hgone : s.isGone = true) : s.Still :=
  ⟨loopStep_of_isGone hgone,
    workerStep_of_isOver (hs.coherent.finished (isEnded_of_isGone hgone)).isOver⟩

section

variable {k : Kernel} {listener : Int} {config : Config}

/-- **Nobody is stuck.** Whatever has happened to a server, if no worker waits for a named pipe,
then nobody can take a step exactly if the server is at rest. Each of those who wait, waits for
somebody who can go on, unless it is for what comes from outside. -/
theorem still_iff (hstart : ofListener k listener config = .ok start) (hk : k.Honest)
    (hs : Reachable start s) (hpipe : ¬ s.AwaitsPipe) : s.Still ↔ s.AtRest := by
  obtain ⟨c, hc⟩ := crewed_reachable hstart hs
  have hwatchful := (watchful_ofListener hstart hk).reachable hs.withSignals
  constructor
  · intro hstill
    have hidle : ∀ (i : Nat) (w : Worker Job), s.pool.workers[i]? = some w →
        w = .waiting ∧ i ∈ s.pool.available.asleep ∨ w = .exited :=
      fun i w hw => hstill.asleep_or_exited hpipe hw
    rcases hstill.stage hpipe with hready | hgone | ⟨hwaiting, hnone⟩ | ⟨result, hjoining, hover⟩
    · exact .ready hready
    · exact .gone hgone (hwatchful.coherent.finished (isEnded_of_isGone hgone)).isOver
    -- with nothing to fetch there has been no wake-up, so no stop is done
    · have hsize := sizes_pos hstart ("workers", _) List.mem_cons_self
      obtain ⟨hcrew, hasleep, hqueue⟩ := hc.asleep hsize hwaiting hidle
      refine .waiting hwaiting hnone hcrew hasleep hqueue (Nat.eq_zero_of_not_pos fun hdone => ?_)
      rw [(hwatchful.hasWakeUp hwaiting hdone).hasEvent] at hnone
      cases hnone
    · rw [hc.isOver hjoining hidle] at hover
      cases hover
  · rintro (hready | ⟨hwaiting, hnone, -, hasleep, -⟩ | ⟨hgone, -⟩)
    · have hworkers := (hwatchful.coherent.ready hready).workers
      refine ⟨fun choice => by rw [loopStep, hready], fun i => workerStep_of_length_le ?_⟩
      rw [hworkers]
      exact Nat.zero_le i
    · refine ⟨fun choice => by simp [loopStep, hwaiting, hnone], fun i => ?_⟩
      rcases Nat.lt_or_ge i s.pool.workers.length with hlt | hge
      · exact hc.workerStep_eq_none (hasleep i hlt)
      · exact workerStep_of_length_le hge
    · exact hwatchful.still hgone

/-- A server that has been asked to stop is gone when nobody can take a step. -/
theorem gone_of_still (hstart : ofListener k listener config = .ok start) (hk : k.Honest)
    (hs : Reachable start s) (hpipe : ¬ s.AwaitsPipe) (hstill : s.Still)
    (hstarted : s.stage ≠ .ready)
    (hdone : 0 < s.stop.done) : s.isGone = true := by
  cases (still_iff hstart hk hs hpipe).mp hstill with
  | ready hready => exact absurd hready hstarted
  | waiting _ _ _ _ _ hnone => exact absurd hnone (Nat.ne_of_gt hdone)
  | gone hgone => exact hgone

end

/-! ## Going on until nobody can

From any state, letting everybody go on leads to one in which nobody can. -/

/-- Which sleeper an announcement wakes makes no difference to whether the loop can go on. -/
theorem isSome_loopStep (s : Server) (choice choice' : Nat) :
    (s.loopStep choice).isSome = (s.loopStep choice').isSome := by
  cases hstage : s.stage with
  | batch rest task =>
    by_cases hnext : task = .next
    · subst hnext
      cases rest <;> simp only [loopStep, hstage]
    · rw [loopStep_batch hstage hnext, loopStep_batch hstage hnext]
      split <;> rfl
  | spawning left | releasing left result => cases left <;> simp only [loopStep, hstage] <;> rfl
  | closing slots result => cases slots <;> simp only [loopStep, hstage]
  | _ => simp only [loopStep, hstage]

/-- There is no next step just if nobody can take one. -/
theorem advance?_eq_none : s.advance? = none ↔ s.Still := by
  rw [advance?, Option.or_eq_none_iff, List.findSome?_eq_none_iff]
  constructor
  · rintro ⟨hworkers, hloop⟩
    refine ⟨fun choice => ?_, fun i => ?_⟩
    · rw [← Option.isNone_iff_eq_none, ← Option.not_isSome, s.isSome_loopStep choice 0, hloop]
      rfl
    · rcases Nat.lt_or_ge i s.pool.workers.length with hlt | hge
      · exact hworkers i (List.mem_range.mpr hlt)
      · exact workerStep_of_length_le hge
  · exact fun hstill => ⟨fun i _ => hstill.worker i, hstill.loop 0⟩

/-- A next step is one of the actions. -/
theorem perform_of_advance? (hstep : s.advance? = some t) : ∃ a, s.perform? a = some t := by
  rcases Option.or_eq_some_iff.mp hstep with hworker | ⟨-, hloop⟩
  · obtain ⟨i, -, hi⟩ := List.exists_of_findSome?_eq_some hworker
    exact ⟨.worker i, hi⟩
  · exact ⟨.loop 0, hloop⟩

/-- To go on by oneself is to leave all requests to stop as they are. -/
theorem requests_advance (hstep : s.advance? = some t) : s.SameRequests t := by
  rcases Option.or_eq_some_iff.mp hstep with hworker | ⟨-, hloop⟩
  · obtain ⟨i, -, hi⟩ := List.exists_of_findSome?_eq_some hworker
    exact requests_workerStep hi
  · exact (loopStep_leads hloop).2

/-- To go on until nobody can is a run. -/
theorem Reachable.settle (hs : Reachable start s) (steps : Nat) :
    Reachable start (s.settle steps) := by
  induction steps generalizing s with
  | zero => exact hs
  | succ steps ih =>
    rw [Server.settle]
    split
    · exact hs
    · next hstep =>
      obtain ⟨a, ha⟩ := perform_of_advance? hstep
      exact ih (hs.step ha)

end Server

end FileServer
