import FileServer.Proofs.Server.Stages
import FileServer.Proofs.Settling
import FileServer.Proofs.Shutdown

/-!
# The pool of a server

The pool of a server is a pool like any other. Of all that happens to a server only some steps are
about its pool: the loop starts the workers, submits connections and in the end shuts the pool down,
and the workers take the connections and go on with their jobs. So whatever happens to a server, its
pool goes through a course (`Server.follows_reachable`), in which the loop is the only one who
submits, and shuts down once. How far it is with that can be told from its stage (`Server.dealing`).

With that, what holds in every course holds of the pool of a server: where the permits are
(`Server.Crewed.sound`), and that no worker comes to its end before it is told to
(`Server.Crewed.loyal`).

The correspondence is a simulation (`Server.Follows`): beside the state of the server goes a course
of the pool, whose pool is that of the server and which has got as far with it as the stage says
(`Server.Dealing.Fits`). Each step of the server is then a step of the course, several of them, as
when a submit puts its item into the queue, or none (`Server.Continues`).
-/

namespace FileServer

/-! ## How the loop stands to the pool

Which events of a course are still due, by the stage of the loop. -/

open Pool (Course)

/-- How far the loop has got with the pool. The numbers are those that the stage says: workers to
be started, a connection to be announced, permits to be posted. -/
inductive Dealing
  /-- so many workers have yet to be started -/
  | starting (left : Nat)
  /-- all workers have been started, and so many connections have yet to be announced to them -/
  | serving (announcing : Nat)
  /-- the workers are about to be told to come to their end -/
  | done
  /-- they have been told to, and so many permits have yet to be posted -/
  | releasing (left : Nat)
  /-- the server is gone -/
  | gone

/-- A course in which the pool has not been told to stop, and so many items have yet to be
announced. -/
structure Pool.Course.Going {α ρ : Type} (c : Course α ρ) (announcing : Nat) : Prop where
  going : c.pool.stopping = false
  owed : c.owed = []
  announcing : c.announcing = announcing

/-- A course has come to where the loop has got with the pool. -/
def Dealing.Fits (c : Course Handle Job) : Dealing → Prop
  | starting left => c.Going 0 ∧ c.pool.workers.length + left = c.pool.size
  | serving announcing => c.Going announcing ∧ c.pool.workers.length = c.pool.size
  | done => c.Going 0
  | releasing left => c.pool.stopping = true ∧ c.owed = [left] ∧ c.announcing = 0
  | gone => True

/-- What the loop is about to do with the pool goes on to fit, whatever the workers do. -/
theorem Dealing.Fits.keep {d : Dealing} {c c' : Course Handle Job} (h : d.Fits c)
    (hsize : c'.pool.size = c.pool.size) (hstopping : c'.pool.stopping = c.pool.stopping)
    (hworkers : c'.pool.workers.length = c.pool.workers.length)
    (hannouncing : c'.announcing = c.announcing) (howed : c'.owed = c.owed) : d.Fits c' := by
  have hgoing : ∀ {n}, c.Going n → c'.Going n := fun hc =>
    ⟨hstopping.trans hc.going, howed.trans hc.owed, hannouncing.trans hc.announcing⟩
  cases d with
  | starting left => exact ⟨hgoing h.1, by rw [hworkers, hsize, h.2]⟩
  | serving announcing => exact ⟨hgoing h.1, by rw [hworkers, hsize, h.2]⟩
  | done => exact hgoing h
  | releasing left => exact ⟨hstopping.trans h.1, howed.trans h.2.1, hannouncing.trans h.2.2⟩
  | gone => trivial

namespace Server

variable {s t start : Server} {c : Course Handle Job} {choice i : Nat}

/-- How far the loop of a server has got with the pool. -/
def dealing (s : Server) : Dealing :=
  match s.stage with
  | .ready => .starting s.config.workers
  | .spawning left => .starting left
  | .batch _ .announce => .serving 1
  | .addListener | .addWaker | .checking | .polling | .waiting | .batch .. => .serving 0
  | .stopping _ => .done
  | .releasing left _ => .releasing left
  | .joining _ | .closing .. | .leaving _ => .releasing 0
  | .over _ | .dropped => .gone

/-- A course has come to where the pool of a server is. -/
structure Follows (s : Server) (c : Course Handle Job) : Prop where
  pool : c.pool = s.pool
  fits : s.dealing.Fits c

/-- A step is some steps of the course, or none. -/
def Continues (c : Course Handle Job) (t : Server) : Prop :=
  ∃ events c', c.run Job.parse events = some c' ∧ t.Follows c'

theorem Follows.continues (h : t.Follows c) : Continues c t := ⟨[], c, rfl, h⟩

/-! ## Steps

One lemma for each step, that says which events of a course it is. -/

/-- In a batch there is a connection to be announced just where the task says so. -/
theorem dealing_batch {rest : List Event} {task : Task} (hstage : s.stage = .batch rest task)
    (htask : task ≠ .announce) : s.dealing = .serving 0 := by
  rw [dealing, hstage]
  cases task with
  | announce => exact absurd rfl htask
  | _ => rfl

/-- An event never has a connection announced: to submit it comes before that. -/
theorem taskOf_ne_announce (e : Event) : taskOf e ≠ .announce := by
  unfold taskOf
  dsimp only
  split_ifs <;> exact Task.noConfusion

/-- What happens outside does not change how the server was set up. -/
theorem config_outside {a : Action} (ha : a.isOutside = true) (hstep : s.perform? a = some t) :
    t.config = s.config := by
  cases perform?_cases hstep with
  | requestStop => rfl
  | wake => rfl
  | releaseHandle => rfl
  | closeHandle =>
    rw [closeWaker]
    split <;> rfl
  | connect => rfl
  | client => rfl
  | _ => cases ha

/-- Only to submit a connection and to announce it is about the pool. -/
theorem pool_doTask (choice : Nat) (s : Server) {task : Task} (hsubmit : ∀ h, task ≠ .submit h)
    (hannounce : task ≠ .announce) :
    (s.doTask choice task).2.pool = s.pool ∧ (s.doTask choice task).1 ≠ .announce := by
  cases task with
  | submit h => exact absurd rfl (hsubmit h)
  | announce => exact absurd rfl hannounce
  | next => exact ⟨rfl, Task.noConfusion⟩
  | consider d peer =>
    refine ⟨rfl, ?_⟩
    simp only [doTask]
    split <;> exact Task.noConfusion
  | read h =>
    refine ⟨rfl, ?_⟩
    simp only [doTask, afterRead]
    split <;> exact Task.noConfusion
  | resume h =>
    refine ⟨rfl, ?_⟩
    simp only [doTask, afterResume]
    split <;> exact Task.noConfusion
  | refuse d => exact ⟨rfl, Task.noConfusion⟩
  | giveUp h => exact ⟨rfl, Task.noConfusion⟩
  | close h => exact ⟨rfl, Task.noConfusion⟩
  | _ =>
    simp only [doTask]
    split <;> exact ⟨rfl, Task.noConfusion⟩

/-- A worker that is at a job goes on with one, or is done with it; either way the queue and the
permits stay as they are. -/
theorem pool_jobStep {job : Job} (hstep : s.jobStep i job = some t) :
    t.pool = s.pool.finish i ∨ ∃ job', t.pool = s.pool.setWorker i (.busy job') := by
  cases job with
  | parse h =>
    simp only [jobStep] at hstep
    split at hstep
    · cases hstep
    · split at hstep
      · exact .inl (Option.some.inj hstep ▸ rfl)
      · obtain rfl := Option.some.inj hstep
        exact .inr ⟨_, rfl⟩
  | answer h outcome awaited =>
    simp only [jobStep] at hstep
    split at hstep
    · cases hstep
    · split at hstep
      · exact .inl (Option.some.inj hstep ▸ rfl)
      · obtain rfl := Option.some.inj hstep
        exact .inr ⟨_, rfl⟩
  | close h => exact .inl (Option.some.inj hstep ▸ rfl)
  | rearm h interest =>
    simp only [jobStep] at hstep
    split at hstep
    · exact .inl (Option.some.inj hstep ▸ rfl)
    · obtain rfl := Option.some.inj hstep
      exact .inr ⟨_, rfl⟩
  | giveUp h =>
    simp only [jobStep] at hstep
    split at hstep
    · cases hstep
    · exact .inl (Option.some.inj hstep ▸ rfl)

namespace Follows

/-- A step that is not about the pool. -/
theorem pause (h : s.Follows c) (hpool : t.pool = s.pool) (hdealing : t.dealing = s.dealing) :
    Continues c t :=
  continues ⟨h.pool.trans hpool.symm, hdealing ▸ h.fits⟩

/-- The loop is left. -/
theorem fail (h : s.Follows c) (hgoing : c.Going 0) (hpool : t.pool = s.pool)
    (hdealing : t.dealing = .done) : Continues c t := by
  refine continues ⟨h.pool.trans hpool.symm, ?_⟩
  rw [hdealing]
  exact hgoing

/-- A step that is a move in the pool. -/
theorem ofMove {move : Pool.Move Handle Job} {taker : Option Nat} {r : Pool.Traffic Handle Job}
    (hmove : c.Performs Job.parse move taker r) (hpool : r.pool = t.pool)
    (hfits : t.dealing.Fits { c with toTraffic := r, takers := c.takers ++ taker.toList }) :
    Continues c t :=
  ⟨_, _, (Course.Step.move hmove).run, hpool, hfits⟩

/-- The server goes. -/
theorem leave (h : s.Follows c) (k : Kernel) {stage : Stage}
    (hgone : stage = .dropped ∨ ∃ result, stage = .over result) :
    Continues c ((s.withKernel k).leave stage) := by
  refine continues ⟨h.pool.trans ?_, ?_⟩
  · rw [Server.leave, (closeWaker_rest _).2]
    rfl
  · rw [dealing, stage_leave]
    rcases hgone with rfl | ⟨r, rfl⟩ <;> trivial

theorem starting (h : s.Follows c) {n : Nat} (hdealing : s.dealing = .starting n) :
    c.Going 0 ∧ c.pool.workers.length + n = c.pool.size := by
  have hfits := h.fits
  rwa [hdealing] at hfits

theorem serving (h : s.Follows c) {n : Nat} (hdealing : s.dealing = .serving n) :
    c.Going n ∧ c.pool.workers.length = c.pool.size := by
  have hfits := h.fits
  rwa [hdealing] at hfits

theorem releasing (h : s.Follows c) {n : Nat} (hdealing : s.dealing = .releasing n) :
    c.pool.stopping = true ∧ c.owed = [n] ∧ c.announcing = 0 := by
  have hfits := h.fits
  rwa [hdealing] at hfits

/-- Several workers go on with what they are at. When a named pipe gets a writer, all the jobs
that wait for it do, so that one step of the server is several of the course. -/
theorem handle (h : s.Follows c) {g : Worker Job → Worker Job}
    (hg : ∀ w, g w = w ∨ ∃ progress next, w = .busy progress ∧ g w = .busy next)
    (hpool : t.pool = { s.pool with workers := s.pool.workers.map g })
    (hdealing : t.dealing = s.dealing) : Continues c t := by
  obtain ⟨events, hrun⟩ := Course.run_handle hg c [] c.pool.workers rfl
  refine ⟨events, _, hrun, ?_, ?_⟩
  · rw [hpool, h.pool]
    rfl
  · rw [hdealing]
    exact h.fits.keep rfl rfl (List.length_map _) rfl rfl

/-- A worker goes on. -/
theorem worker (h : s.Follows c) (hstep : s.workerStep i = some t) : Continues c t := by
  have hframe := workerStep_eq hstep
  have hdealing : t.dealing = s.dealing := by
    rw [hframe]
    rfl
  -- whatever move of the course it is, it leaves alone how the loop stands to the pool
  have hmoves : ∀ {move : Pool.Move Handle Job} {taker : Option Nat} {r : Pool.Traffic Handle Job},
      c.Performs Job.parse move taker r → r.pool = t.pool → r.announcing = c.announcing →
      r.pool.workers.length = c.pool.workers.length → Continues c t := by
    intro move taker r hmove hpool hannouncing hworkers
    obtain ⟨hsize, hstopping, -⟩ := hmove.frame
    refine ofMove hmove hpool ?_
    rw [hdealing]
    exact h.fits.keep hsize hstopping hworkers hannouncing rfl
  have hlength : ∀ w, (c.pool.setWorker i w).workers.length = c.pool.workers.length :=
    fun w => List.length_set ..
  simp only [workerStep, ← h.pool] at hstep
  split at hstep
  · next job hw =>
    rcases pool_jobStep hstep with hpool | ⟨job', hpool⟩
    · exact hmoves (.finish hw) (by rw [hpool, h.pool]; rfl) rfl (hlength _)
    · exact hmoves (.handle job' hw) (by rw [hpool, h.pool]) rfl (hlength _)
  · obtain ⟨⟨item, pool⟩, hpool, rfl⟩ := Option.map_eq_some_iff.mp hstep
    have hwork := Pool.workerStep_cases hpool
    exact hmoves (.work hwork) rfl rfl hwork.frame.2.2.1

/-- The loop submits a connection. -/
theorem submit (h : s.Follows c) {rest : List Event} {g : Handle}
    (hstage : s.stage = .batch rest (.submit g)) (choice : Nat) :
    Continues c (s.afterTask choice rest (.submit g)) := by
  have hdealing := dealing_batch hstage Task.noConfusion
  obtain ⟨hgoing, hcrew⟩ := h.serving hdealing
  rcases Nat.lt_or_ge s.pool.queue.length s.pool.capacity with hroom | hfull
  · have hafter : s.afterTask choice rest (.submit g) =
        { s with
          pool := { s.pool with queue := s.pool.queue ++ [g] }
          stage := .batch rest .announce } := by
      simp only [afterTask, doTask, Pool.push, if_neg (Nat.not_le_of_lt hroom), goTo]
    rw [← h.pool] at hroom hafter
    rw [hafter]
    exact ofMove (.accept g hroom) rfl
      ⟨⟨hgoing.going, hgoing.owed, congrArg (· + 1) hgoing.announcing⟩, hcrew⟩
  · have hafter : s.afterTask choice rest (.submit g) =
        { s with stage := .batch rest (.close g) } := by
      simp only [afterTask, doTask, Pool.push, if_pos hfull, goTo]
    refine h.pause (by rw [hafter]) ?_
    rw [hdealing, hafter]
    rfl

/-- The loop does a task. -/
theorem task (h : s.Follows c) {rest : List Event} {task : Task}
    (hstage : s.stage = .batch rest task)
    (choice : Nat) : Continues c (s.afterTask choice rest task) := by
  by_cases hsubmit : ∃ g, task = .submit g
  · obtain ⟨g, rfl⟩ := hsubmit
    exact h.submit hstage choice
  by_cases hannounce : task = .announce
  · subst hannounce
    have hdealing : s.dealing = .serving 1 := by
      rw [dealing, hstage]
    obtain ⟨hgoing, hcrew⟩ := h.serving hdealing
    refine ofMove (.announce choice hgoing.announcing) ?_ ⟨⟨hgoing.going, hgoing.owed, rfl⟩, hcrew⟩
    rw [h.pool]
    rfl
  · obtain ⟨hpool, htask⟩ := pool_doTask choice s (fun g hg => hsubmit ⟨g, hg⟩) hannounce
    refine h.pause hpool ?_
    rw [dealing_batch hstage hannounce]
    exact dealing_batch rfl htask

/-- A step of the loop while it serves, which may leave it. -/
theorem goOn (h : s.Follows c) (hserving : s.dealing = .serving 0) (hpool : t.pool = s.pool)
    (hnext : t.dealing = .serving 0 ∨ t.dealing = .done) : Continues c t := by
  rcases hnext with hnext | hnext
  · exact h.pause hpool (hnext.trans hserving.symm)
  · exact h.fail (h.serving hserving).1 hpool hnext

/-- To add a descriptor to the poll set is not about the pool. -/
theorem addStanding (h : s.Follows c) (hserving : s.dealing = .serving 0) (descriptor : Int)
    (token : UInt64) {after : Stage} (hafter : (s.goTo after).dealing = .serving 0) :
    Continues c (s.addStanding descriptor token after) := by
  simp only [Server.addStanding]
  split
  · exact h.goOn hserving rfl (.inr rfl)
  · exact h.goOn hserving rfl (.inl hafter)

/-- Beginning to wait is not about the pool. -/
theorem beginWait (h : s.Follows c) (hserving : s.dealing = .serving 0) :
    Continues c s.beginWait := by
  simp only [Server.beginWait]
  split
  · exact h.goOn hserving rfl (.inl rfl)
  · exact h.goOn hserving rfl (.inl rfl)
  · exact h.goOn hserving rfl (.inr rfl)

/-- The loop starts a worker. -/
theorem spawn (h : s.Follows c) {left : Nat} (hstage : s.stage = .spawning (left + 1)) :
    Continues c (s.spawnWorker left) := by
  obtain ⟨hgoing, hcrew⟩ := h.starting (n := left + 1) (by rw [dealing, hstage])
  simp only [spawnWorker]
  split
  · exact h.fail hgoing rfl rfl
  · have hlt : c.pool.workers.length < c.pool.size := by omega
    refine ofMove (.spawn hlt) ?_ ⟨⟨hgoing.going, hgoing.owed, hgoing.announcing⟩, ?_⟩
    · rw [h.pool]
    · simp only [Pool.spawn, List.length_append, List.length_singleton]
      omega

/-- The loop tells the workers to come to their end. -/
theorem stop (h : s.Follows c) {result : Except ServerError Unit}
    (hstage : s.stage = .stopping result) :
    Continues c ({ s with pool := s.pool.stop }.goTo (.releasing s.pool.size result)) := by
  have hgoing : c.Going 0 := by
    have hfits := h.fits
    rwa [dealing, hstage] at hfits
  refine ⟨_, _, Course.Step.stop.run, ?_, rfl, ?_, hgoing.announcing⟩
  · rw [h.pool]
    rfl
  · rw [hgoing.owed, h.pool]
    rfl

/-- The loop posts one of the permits with which the workers come to their end. -/
theorem release (h : s.Follows c) {left : Nat} {result : Except ServerError Unit}
    (hstage : s.stage = .releasing (left + 1) result) (choice : Nat) :
    Continues c ({ s with pool := s.pool.post choice }.goTo (.releasing left result)) := by
  obtain ⟨hstopping, howed, hannouncing⟩ := h.releasing (n := left + 1) (by rw [dealing, hstage])
  have hfirst : c.owed[0]? = some (left + 1) := by
    rw [howed]
    rfl
  refine ⟨_, _, (Course.Step.release choice hfirst).run, ?_, hstopping, ?_, hannouncing⟩
  · rw [h.pool]
    rfl
  · rw [howed]
    rfl

/-- **The loop goes on.** The cases are those of its stage, and each is one of the lemmas
above. -/
theorem loop (h : s.Follows c) (hstep : s.loopStep choice = some t) : Continues c t := by
  cases loopStep_cases hstep with
  | spawned hstage =>
    obtain ⟨hgoing, hcrew⟩ := h.starting (n := 0) (by rw [dealing, hstage])
    exact continues ⟨h.pool, hgoing, hcrew⟩
  | spawn hstage => exact h.spawn hstage
  | addListener hstage => exact h.addStanding (by rw [dealing, hstage]) _ _ rfl
  | addWaker hstage => exact h.addStanding (by rw [dealing, hstage]) _ _ rfl
  | check hstage =>
    refine h.goOn (by rw [dealing, hstage]) rfl ?_
    cases s.stop.flag with
    | true => exact .inr rfl
    | false => exact .inl rfl
  | poll hstage => exact h.beginWait (by rw [dealing, hstage])
  | fetch hstage => exact h.goOn (by rw [dealing, hstage]) rfl (.inl rfl)
  | done hstage => exact h.goOn (dealing_batch hstage Task.noConfusion) rfl (.inl rfl)
  | look hstage =>
    exact h.goOn (dealing_batch hstage Task.noConfusion) rfl
      (.inl (dealing_batch rfl (taskOf_ne_announce _)))
  | work hstage => exact h.task hstage choice
  | stop hstage => exact h.stop hstage
  | released hstage => exact h.pause rfl (by rw [dealing, dealing, hstage]; rfl)
  | release hstage => exact h.release hstage choice
  | join hstage => exact h.pause rfl (by rw [dealing, dealing, hstage]; rfl)
  | closed hstage => exact h.pause rfl (by rw [dealing, dealing, hstage]; rfl)
  | close hstage => exact h.pause rfl (by rw [dealing, dealing, hstage]; rfl)
  | leave => exact h.leave _ (.inr ⟨_, rfl⟩)

/-- Whatever happens to a server is some steps of the course, or none. What happens outside is
none. -/
theorem perform {a : Action} (h : s.Follows c) (hstep : s.perform? a = some t) : Continues c t := by
  by_cases ha : a.isOutside = true
  · obtain ⟨hstage, hpool, -⟩ := outside_spec ha hstep
    refine h.pause hpool ?_
    rw [dealing, dealing, hstage, config_outside ha hstep]
  cases perform?_cases hstep with
  | loop hloop => exact h.loop hloop
  | worker hworker => exact h.worker hworker
  | serve hready =>
    rcases serve_cases s with ⟨k, failure, heq⟩ | ⟨k, poll, heq⟩
    · rw [heq]
      exact h.leave k (.inr ⟨_, rfl⟩)
    · rw [heq]
      exact h.pause rfl (by rw [dealing, dealing, hready])
  | drop => exact h.leave s.hub.kernel (.inl rfl)
  | openPipe place =>
    -- a worker that waits for a writer of the named pipe is through with that, and the others stay
    refine h.handle (fun w => ?_) rfl rfl
    cases w with
    | busy job => exact .inr ⟨job, _, rfl, rfl⟩
    | _ => exact .inl rfl
  | _ => exact absurd rfl ha

end Follows

/-! ## Runs -/

/-- A server has been set up, and so has its pool. -/
theorem follows_ofListener {k : Kernel} {listener : Int} {config : Config}
    (hstart : ofListener k listener config = .ok start) :
    start.Follows { pool := { size := config.workers, capacity := config.maxRequests } } := by
  simp only [ofListener] at hstart
  split at hstart
  · cases hstart
  · split at hstart
    · cases hstart
    · obtain rfl := Except.ok.inj hstart
      exact ⟨rfl, ⟨rfl, rfl, rfl⟩, Nat.zero_add _⟩

/-- **The pool of a server is a pool.** Whatever happens to a server, its pool goes through a
course. -/
theorem follows_reachable {k : Kernel} {listener : Int} {config : Config}
    (hstart : ofListener k listener config = .ok start) (hs : Reachable start s) :
    Continues { pool := { size := config.workers, capacity := config.maxRequests } } s := by
  induction hs with
  | refl => exact (follows_ofListener hstart).continues
  | step _ hstep ih =>
    obtain ⟨events, c, hrun, hfollows⟩ := ih
    obtain ⟨more, c', hmore, hfollows'⟩ := hfollows.perform hstep
    refine ⟨events ++ more, c', ?_, hfollows'⟩
    rw [Course.run_append, hrun]
    exact hmore

/-- A course that the pool of a server has gone through, with what holds in every course. -/
structure Crewed (size capacity : Nat) (s : Server) (c : Course Handle Job) : Prop
    extends s.Follows c where
  sound : c.Sound size capacity
  loyal : c.Loyal

/-- In every state that can be reached there is such a course, and what holds in every course
holds of it. -/
theorem crewed_reachable {k : Kernel} {listener : Int} {config : Config}
    (hstart : ofListener k listener config = .ok start) (hs : Reachable start s) :
    ∃ c, s.Crewed config.workers config.maxRequests c := by
  obtain ⟨events, c, hrun, hfollows⟩ := follows_reachable hstart hs
  have hloyal : ({ pool := { size := config.workers, capacity := config.maxRequests } } :
      Course Handle Job).Loyal := fun hmem => absurd hmem List.not_mem_nil
  exact ⟨c, hfollows, (Course.sound_new _ _).run hrun, hloyal.run hrun⟩

end Server

end FileServer
