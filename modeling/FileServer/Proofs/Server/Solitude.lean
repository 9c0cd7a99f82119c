import FileServer.Main
import FileServer.Proofs.Kernel.Sources
import FileServer.Proofs.Server.Conservation
import FileServer.Proofs.Server.Rest

/-!
# A server to which nobody comes

As long as no client connects, a server has little to do: its loop starts the workers, registers the
listener and the wake-up pipe, and waits; once it is asked to stop it tells the workers and leaves.
That nobody has come can be told from its state (`Server.Deserted`), and how many steps are left to
be taken is bounded by a number that each of them lowers (`Server.Deserted.loop`,
`Server.Deserted.worker`). So such a server comes to rest (`Server.settles`), and one that has been
asked to stop comes to its end.

The command runs a server for a limited number of steps, asks it to stop, and runs it for as many
again. That is enough (`Server.gone_of_nobody`), so the command comes to its end whenever it gets as
far as to serve (`Command.gone_of_launch`).

What is left to do is counted in `Server.effort`. Each stage has a number of steps that go before
the next wait; a descriptor that waits to be looked at is good for another round, a byte in the
wake-up pipe for another read, and a worker for what it takes to look at the queue and to sleep
again. Every lemma about a step says that the number goes down and that still nobody has come
(`Server.Recedes`).
-/

namespace FileServer

namespace Pool

variable {α ρ : Type} {start : α → ρ} {p q : Pool α ρ} {i : Nat} {item : Option α}

/-- No item waits, and none is handled. -/
structure Jobless (p : Pool α ρ) : Prop where
  queue : p.queue = []
  idle : ∀ progress, .busy progress ∉ p.workers

namespace Jobless

theorem setWorker (h : p.Jobless) {w : Worker ρ} (hw : ∀ progress, w ≠ .busy progress) :
    (p.setWorker i w).Jobless :=
  ⟨h.queue, fun progress hmem => (List.mem_or_eq_of_mem_set hmem).elim (h.idle progress)
    fun heq => hw progress heq.symm⟩

/-- A worker that is started has no item. -/
theorem spawn (h : p.Jobless) : p.spawn.Jobless := by
  refine ⟨h.queue, fun progress hmem => ?_⟩
  rcases List.mem_append.mp hmem with hmem | hmem
  · exact h.idle progress hmem
  · cases List.mem_singleton.mp hmem

/-- A worker finds nothing to do. -/
theorem work (h : p.Jobless) (hstep : WorkerStep start p i item q) : q.Jobless := by
  cases hstep with
  | pass => exact ⟨h.queue, (h.setWorker (w := .permitted) (by rintro _ ⟨⟩)).idle⟩
  | sleep => exact ⟨h.queue, h.idle⟩
  | look | exit | miss => exact h.setWorker (by rintro _ ⟨⟩)
  | take _ hqueue => cases h.queue.symm.trans hqueue

end Jobless

end Pool

/-- The server has started to serve, and of connections there is nothing to be done. -/
def Stage.IsDeserted : Stage → Prop
  | .ready => False
  | .batch rest task =>
    (task = .next ∨ task = .accept ∨ task = .drain) ∧
      ∀ e ∈ rest, e.token = Server.listenerToken ∨ e.token = Server.wakerToken
  | .closing slots _ => slots = []
  | _ => True

/-! ## What is left to do

Numbers for the tasks and the stages, which go down along every path between two waits. -/

/-- How many steps a task takes that finds nothing to do. -/
def Task.effort : Task → Nat
  | .next => 0
  | _ => 1

/-- How many steps the loop takes at most from a stage on, with so many workers, if there are at
most so many once it is about to look whether to stop. The numbers go down along every path that
the stages can take without connections. -/
def Stage.effort (size rounds : Nat) : Stage → Nat
  | .ready | .over _ | .dropped => 0
  | .spawning left => rounds + 2 * left + 30
  | .addListener => rounds + 29
  | .addWaker => rounds + 15
  | .checking => rounds + 3
  | .polling => rounds + 2
  | .waiting => rounds + 1
  | .batch rest task => rounds + 3 * rest.length + task.effort + 4
  | .stopping _ => 6 * size + 5
  | .releasing left _ => 6 * left + 4
  | .joining _ => 3
  | .closing .. => 2
  | .leaving _ => 1

/-- The more the rounds may take, the more is left to do at every stage. -/
theorem Stage.effort_mono (stage : Stage) {size rounds rounds' more : Nat}
    (h : rounds' ≤ rounds + more) :
    stage.effort size rounds' ≤ stage.effort size rounds + more := by
  cases stage with
  | _ =>
    simp only [effort]
    omega

namespace Server

variable {s t start : Server} {c : Pool.Course Handle Job} {i choice size capacity : Nat}

/-! ## Without connections

The steps that a server takes to which nobody has come, each of which leaves less to do. -/

/-- The descriptors that a server registers for itself. -/
def sources (s : Server) : List (Int × Registration) :=
  [(s.listener, standing listenerToken), (s.wakerOut, standing wakerToken)]

/-- Nobody has come to a server. The last two clauses say that a wait is for events: with no
events asked for, or with its calls interrupted again and again, the loop could go round without
end. -/
structure Deserted (s : Server) : Prop where
  slots : s.hub.slots.keys = []
  pool : s.pool.Jobless
  stage : s.stage.IsDeserted
  /-- nobody waits to be accepted -/
  backlog : s.hub.kernel.backlog s.listener = []
  poll : s.hub.kernel.poll.Within s.sources
  /-- no wait is cut short -/
  calm : s.hub.kernel.scripts.of .pollWait = []
  maxEvents : 0 < s.config.maxEvents

namespace Deserted

/-- The loop goes to another stage, after a call that opens and closes nothing. -/
theorem move (hs : s.Deserted) {k : Kernel}
    (hdescriptors : k.descriptors = s.hub.kernel.descriptors)
    (hspent : s.hub.kernel.scripts.Spent k.scripts) (hpoll : k.poll.Within s.sources)
    {stage : Stage}
    (hstage : stage.IsDeserted) : ((s.withKernel k).goTo stage).Deserted where
  slots := hs.slots
  pool := hs.pool
  stage := hstage
  backlog := (Kernel.backlog_congr (congrArg (·.get? s.listener) hdescriptors)).trans hs.backlog
  poll := hpoll
  calm := List.suffix_nil.mp (hs.calm ▸ hspent .pollWait)
  maxEvents := hs.maxEvents

end Deserted

/-- How many bytes are in the wake-up pipe. -/
def unread (s : Server) : Nat := s.hub.kernel.held s.wakerOut

/-- How many steps the rounds of the loop take at most: a descriptor that waits to be looked at
brings another round, a byte in the wake-up pipe another read. At last the workers are told to come
to their end, and each of them is given a permit. -/
def rounds (s : Server) : Nat :=
  10 * s.hub.kernel.poll.pending.length + 2 * s.unread + 6 * s.pool.size + 6

/-- What the loop has yet to do. -/
def loopEffort (s : Server) : Nat := s.stage.effort s.pool.size s.rounds

/-- What the loop and the workers have yet to do. -/
def effort (s : Server) : Nat := s.pool.effort + s.loopEffort

/-- Some of what is left to do has been done, and still nobody has come. -/
structure Recedes (s t : Server) : Prop where
  deserted : t.isGone = true ∨ t.Deserted
  effort : t.effort < s.effort

namespace Deserted

/-- A worker takes a step, of which the pool says that less is left to do. -/
theorem worker (hs : s.Deserted) (hc : s.Crewed size capacity c) (hstep : s.workerStep i = some t) :
    s.Recedes t := by
  have hattentive := hc.sound.attentive
  rw [hc.pool] at hattentive
  simp only [workerStep] at hstep
  split at hstep
  · next job hw => exact absurd (List.mem_of_getElem? hw) (hs.pool.idle job)
  · obtain ⟨⟨item, pool⟩, hpool, rfl⟩ := Option.map_eq_some_iff.mp hstep
    have hwork := Pool.workerStep_cases hpool
    have hlt := hwork.effort_lt hattentive
    have hloop : Server.loopEffort { s with pool } = s.loopEffort := by
      simp only [loopEffort, rounds, unread, hwork.frame.1]
    refine ⟨.inr { hs with pool := hs.pool.work hwork }, ?_⟩
    rw [effort, effort, hloop]
    exact Nat.add_lt_add_right hlt _

/-- The loop goes to another stage, and that is all. -/
theorem goTo (hs : s.Deserted) (stage : Stage) (hstage : stage.IsDeserted)
    (hlt : stage.effort s.pool.size s.rounds < s.loopEffort) : s.Recedes (s.goTo stage) :=
  ⟨.inr { hs with stage := hstage }, Nat.add_lt_add_left hlt _⟩

/-- The loop starts a worker. -/
theorem spawn (hs : s.Deserted) {left : Nat} (hstage : s.stage = .spawning (left + 1))
    (hunread : (s.spawnWorker left).stage.isLooping = true →
      (s.spawnWorker left).unread ≤ s.unread) :
    s.Recedes (s.spawnWorker left) := by
  have hquiet := Kernel.quiet_takeFault s.hub.kernel .spawnThread
  have hpoll : (s.hub.kernel.takeFault .spawnThread).2.poll = s.hub.kernel.poll := rfl
  have hspawn := s.pool.effort_spawn_le
  rcases hfault : s.hub.kernel.takeFault .spawnThread with ⟨fault, k⟩
  rw [hfault] at hquiet hpoll
  dsimp only at hpoll
  have hmove : ∀ stage : Stage, stage.IsDeserted → ((s.withKernel k).goTo stage).Deserted :=
    fun stage => hs.move hquiet.descriptors hquiet.scripts (hpoll ▸ hs.poll)
  have hstarted : k.held s.wakerOut ≤ s.unread →
      s.Recedes { s.withKernel k with pool := s.pool.spawn, stage := .spawning left } := by
    intro hunread
    refine ⟨.inr { hmove (.spawning left) trivial with pool := hs.pool.spawn }, ?_⟩
    have hsize : s.pool.spawn.size = s.pool.size := rfl
    simp only [effort, loopEffort, rounds, unread, Stage.effort, hstage, withKernel, hpoll,
      hsize] at hunread ⊢
    omega
  simp only [spawnWorker, hfault] at hunread ⊢
  rcases fault with _ | bytes | reason
  · exact hstarted (hunread rfl)
  · exact hstarted (hunread rfl)
  · refine ⟨.inr (hmove _ trivial), ?_⟩
    simp only [effort, loopEffort, rounds, Stage.effort, hstage, Server.goTo, withKernel]
    omega

/-- The loop registers one of its descriptors, or is left. -/
theorem addStanding (hs : s.Deserted) (hk : s.hub.kernel.Honest) {descriptor : Int} {token : UInt64}
    {after : Stage} (hsource : (descriptor, standing token) ∈ s.sources) (hafter : after.IsDeserted)
    (hless : ∀ k : Kernel, k.poll.pending.length ≤ s.hub.kernel.poll.pending.length + 1 →
      k.held s.wakerOut ≤ s.unread → ((s.withKernel k).goTo after).loopEffort < s.loopEffort)
    (hleft : 6 * s.pool.size + 5 < s.loopEffort) (hlooping : after.isLooping = true)
    (hunread : (s.addStanding descriptor token after).stage.isLooping = true →
      (s.addStanding descriptor token after).unread ≤ s.unread) :
    s.Recedes (s.addStanding descriptor token after) := by
  obtain ⟨hwithin, hlength⟩ := Kernel.within_pollAdd hs.poll hsource
  simp only [Server.addStanding] at hunread ⊢
  rcases Kernel.pollAdd_cases hk descriptor (standing token) with
    ⟨reason, k, heq, hquiet, -⟩ | ⟨k, heq, hregisters, -⟩
  · rw [heq] at hwithin ⊢
    exact ⟨.inr (hs.move hquiet.descriptors hquiet.scripts hwithin trivial),
      Nat.add_lt_add_left hleft _⟩
  · rw [heq] at hwithin hlength hunread ⊢
    exact ⟨.inr (hs.move hregisters.descriptors hregisters.scripts hwithin hafter),
      Nat.add_lt_add_left (hless k hlength (hunread hlooping)) _⟩

/-- The loop begins to wait. -/
theorem beginWait (hs : s.Deserted) (hstage : s.stage = .polling) : s.Recedes s.beginWait := by
  rw [Server.beginWait, Kernel.beginWait_of_calm hs.calm]
  by_cases hmax : s.config.maxEvents = 0 ∨ Kernel.maxEvents < s.config.maxEvents
  · rw [if_pos hmax]
    exact hs.goTo (.stopping _) trivial
      (by simp only [loopEffort, rounds, Stage.effort, hstage]; omega)
  · rw [if_neg hmax]
    exact hs.goTo .waiting trivial (by simp only [loopEffort, rounds, Stage.effort, hstage]; omega)

/-- The loop fetches events. -/
theorem fetch (hs : s.Deserted) (hstage : s.stage = .waiting) (hevent : s.hasEvent = true)
    (hunread : s.fetch.unread ≤ s.unread) : s.Recedes s.fetch := by
  have hsources : ∀ source ∈ s.sources, source.2.oneShot = false := by
    simp [sources, standing]
  have hwithin := hs.poll.collect hsources s.hub.kernel.readiness s.config.maxEvents
  -- a descriptor was pending, and fetching takes at least one of them
  have hpending : s.hub.kernel.poll.pending ≠ [] := by
    intro hnone
    simp [hasEvent, Poll.isReady, hnone] at hevent
  have hlength := Poll.length_collectFrom s.hub.kernel.readiness s.hub.kernel.poll.pending
    s.config.maxEvents s.hub.kernel.poll.registrations
  have hless := Poll.length_pending_collectFrom s.hub.kernel.readiness hpending hs.maxEvents
    s.hub.kernel.poll.registrations
  have hbatch : (Stage.batch (s.hub.kernel.collect s.config.maxEvents).1 .next).IsDeserted := by
    refine ⟨.inl rfl, fun e he => ?_⟩
    obtain ⟨source, hmem, htoken⟩ := hs.poll.token_of_collect he
    rw [← htoken]
    rcases List.mem_cons.mp hmem with rfl | hmem
    · exact .inl rfl
    · rw [List.mem_singleton.mp hmem]
      exact .inr rfl
  have hmoved : s.fetch.Deserted :=
    hs.move (k := (s.hub.kernel.collect s.config.maxEvents).2) rfl (.refl _) hwithin hbatch
  have hrounds : s.fetch.rounds + 3 * (s.hub.kernel.collect s.config.maxEvents).1.length + 4 <
      s.rounds + 1 := by
    simp only [rounds]
    simp only [Server.fetch, Server.goTo, withKernel, Kernel.collect, Poll.collect] at hunread ⊢
    omega
  refine ⟨.inr hmoved, Nat.add_lt_add_left ?_ _⟩
  simp only [loopEffort, hstage]
  exact hrounds

/-- The loop looks at an event. -/
theorem look (hs : s.Deserted) {e : Event} {rest : List Event}
    (hstage : s.stage = .batch (e :: rest) .next) :
    s.Recedes (s.goTo (.batch rest (taskOf e))) := by
  have hbatch := hs.stage
  rw [hstage] at hbatch
  obtain ⟨-, htokens⟩ := hbatch
  have htask : taskOf e = .accept ∨ taskOf e = .drain := by
    rcases htokens e List.mem_cons_self with htoken | htoken
    · exact .inl (by rw [taskOf, if_pos htoken])
    · exact .inr (by rw [taskOf, if_neg (by rw [htoken]; decide), if_pos htoken])
  have hrest : ∀ e ∈ rest, e.token = listenerToken ∨ e.token = wakerToken :=
    fun e he => htokens e (List.mem_cons_of_mem _ he)
  refine hs.goTo _ ⟨.inr htask, hrest⟩ ?_
  rcases htask with htask | htask <;>
    simp only [loopEffort, Stage.effort, Task.effort, hstage, htask, List.length_cons] <;> omega

/-- The loop would accept a client. -/
theorem accept (hs : s.Deserted) {rest : List Event} (hstage : s.stage = .batch rest .accept)
    (hunread : (s.afterTask choice rest .accept).unread ≤ s.unread) :
    s.Recedes (s.afterTask choice rest .accept) := by
  obtain ⟨hnobody, hquiet⟩ := Kernel.accept_of_backlog_eq_nil hs.backlog
  have hpoll := s.hub.kernel.poll_accept s.listener
  have hrest := hs.stage
  rw [hstage] at hrest
  have hafter : s.afterTask choice rest .accept =
      (s.withKernel (s.hub.kernel.accept s.listener).2).goTo (.batch rest .next) := by
    simp only [afterTask, doTask]
    split
    · next heq => exact absurd (congrArg Prod.fst heq) (hnobody _ _)
    · next heq => rw [heq]
    · next heq => rw [heq]
  rw [hafter] at hunread ⊢
  refine ⟨.inr (hs.move hquiet.descriptors hquiet.scripts (hpoll ▸ hs.poll) ⟨.inl rfl, hrest.2⟩),
    ?_⟩
  simp only [effort, loopEffort, rounds, Stage.effort, Task.effort, hstage, Server.goTo, withKernel,
    hpoll] at hunread ⊢
  omega

/-- The loop reads from the wake-up pipe. -/
theorem drain (hs : s.Deserted) {n : Nat} {p : Pipe} (ha : s.Alert n p) {rest : List Event}
    (hstage : s.stage = .batch rest .drain)
    (hunread : (s.afterTask choice rest .drain).unread ≤ s.unread) :
    s.Recedes (s.afterTask choice rest .drain) := by
  have hquiet := s.hub.kernel.quiet_pipeRead s.wakerOut Kernel.drainStep
  have hpoll := s.hub.kernel.poll_pipeRead s.wakerOut Kernel.drainStep
  have hrest := hs.stage
  rw [hstage] at hrest
  rcases hread : s.hub.kernel.pipeRead s.wakerOut Kernel.drainStep with ⟨result, k⟩
  rw [hread] at hquiet hpoll
  dsimp only at hpoll
  -- reading the pipe leaves the table and the backlog as they were
  have hmove : ∀ task, task = .next ∨ task = .accept ∨ task = .drain →
      ((s.withKernel k).goTo (.batch rest task)).Deserted := fun task htask =>
    hs.move hquiet.descriptors hquiet.scripts (hpoll ▸ hs.poll) ⟨htask, hrest.2⟩
  have hnext : k.held s.wakerOut ≤ s.unread →
      s.Recedes ((s.withKernel k).goTo (.batch rest .next)) := by
    intro hunread
    refine ⟨.inr (hmove .next (.inl rfl)), ?_⟩
    simp only [effort, loopEffort, rounds, unread, Stage.effort, Task.effort, hstage, Server.goTo,
      withKernel, hpoll] at hunread ⊢
    omega
  simp only [afterTask, doTask, hread] at hunread ⊢
  rcases result with ⟨_ | ⟨b, bytes⟩⟩ | _ | reason
  · exact hnext hunread
  · obtain ⟨held, hlt, hjoined⟩ := ha.joined.pipeRead_data hread
    refine ⟨.inr (hmove .drain (.inr (.inr rfl))), ?_⟩
    rw [← ha.joined.held_eq] at hlt
    simp only [effort, loopEffort, rounds, unread, Stage.effort, hstage, Server.goTo,
      withKernel, hpoll, hjoined.held_eq]
    omega
  · exact hnext hunread
  · exact hnext hunread

/-- **The loop takes a step**, and less is left to do, or the server is gone. The cases are those
of its steps, each with its lemma above. -/
theorem loop (hs : s.Deserted) (hw : s.Watchful) (hstep : s.loopStep choice = some t) :
    s.Recedes t := by
  -- nothing but a request to stop puts bytes into the pipe
  have hunread : t.stage.isLooping = true → t.unread ≤ s.unread := fun hloop =>
    Nat.le_of_not_lt fun hmore =>
      Action.noConfusion (hw.neverLost.written (.loop choice) t hstep hloop hmore)
  have honest : s.stage.isServing = true → s.hub.kernel.Honest :=
    fun hserving => (hw.coherent.orderly hserving).1.tidy.honest
  cases loopStep_cases hstep with
  | spawned hstage =>
    exact hs.goTo _ trivial (by simp only [loopEffort, rounds, Stage.effort, hstage]; omega)
  | spawn hstage => exact hs.spawn hstage hunread
  | addListener hstage =>
    refine hs.addStanding (honest (by rw [hstage]; rfl)) List.mem_cons_self trivial
      (fun k hlength hunread => ?_) ?_ rfl hunread
    · simp only [loopEffort, rounds, unread, Stage.effort, hstage, Server.goTo,
        withKernel] at hunread ⊢
      omega
    · simp only [loopEffort, rounds, Stage.effort, hstage]
      omega
  | addWaker hstage =>
    refine hs.addStanding (honest (by rw [hstage]; rfl)) (List.mem_cons_of_mem _ List.mem_cons_self)
      trivial (fun k hlength hunread => ?_) ?_ rfl hunread
    · simp only [loopEffort, rounds, unread, Stage.effort, hstage, Server.goTo,
        withKernel] at hunread ⊢
      omega
    · simp only [loopEffort, rounds, Stage.effort, hstage]
      omega
  | check hstage =>
    cases s.stop.flag with
    | true =>
      exact hs.goTo (.stopping (.ok ())) trivial
        (by simp only [loopEffort, rounds, Stage.effort, hstage]; omega)
    | false =>
      exact hs.goTo .polling trivial
        (by simp only [loopEffort, rounds, Stage.effort, hstage]; omega)
  | poll hstage => exact hs.beginWait hstage
  | fetch hstage hevent => exact hs.fetch hstage hevent (hunread rfl)
  | done hstage =>
    exact hs.goTo _ trivial (by simp only [loopEffort, rounds, Stage.effort, hstage]; omega)
  | look hstage => exact hs.look hstage
  | @work rest task hstage hnext _ =>
    obtain ⟨n, p, halert⟩ := hw.alert (by rw [hstage]; rfl)
    have htask := hs.stage
    rw [hstage] at htask
    rcases htask.1 with rfl | rfl | rfl
    · exact absurd rfl hnext
    · exact hs.accept hstage (hunread rfl)
    · exact hs.drain halert hstage (hunread rfl)
  | stop hstage =>
    have hstop : s.pool.stop.effort = s.pool.effort := rfl
    refine ⟨.inr { hs with pool := ⟨hs.pool.queue, hs.pool.idle⟩, stage := trivial }, ?_⟩
    simp only [effort, loopEffort, Stage.effort, hstage, Server.goTo, hstop]
    omega
  | released hstage =>
    exact hs.goTo _ trivial (by simp only [loopEffort, Stage.effort, hstage]; omega)
  | release hstage =>
    have hpost := s.pool.effort_post_le choice
    refine ⟨.inr { hs with pool := ⟨hs.pool.queue, hs.pool.idle⟩, stage := trivial }, ?_⟩
    simp only [effort, loopEffort, Stage.effort, hstage, Server.goTo]
    omega
  | join hstage =>
    exact hs.goTo _ hs.slots (by simp only [loopEffort, Stage.effort, hstage]; omega)
  | closed hstage =>
    exact hs.goTo _ trivial (by simp only [loopEffort, Stage.effort, hstage]; omega)
  | close hstage =>
    have hnone := hs.stage
    rw [hstage] at hnone
    cases hnone
  | leave hstage =>
    refine ⟨.inl (isGone_iff.mpr (.inr ⟨_, stage_leave ..⟩)), ?_⟩
    rw [effort, effort, loopEffort, loopEffort, stage_leave, hstage, leave, (closeWaker_rest _).2]
    exact Nat.lt_succ_self _

/-- A request to stop sets the flag, and then writes to the wake-up pipe, which brings a round
more. -/
theorem wake (hs : s.Deserted) (hstep : s.wake? = some t) :
    t.Deserted ∧ t.effort ≤ s.effort + 22 := by
  have hquiet := s.hub.kernel.quiet_wake s.wakerIn
  have hheld := s.hub.kernel.held_wake_le s.wakerOut s.wakerIn
  simp only [wake?] at hstep
  split at hstep
  · cases hstep
  · next underWay _ =>
    obtain rfl := Option.some.inj hstep
    have hmoved := hs.move hquiet.descriptors hquiet.scripts (Kernel.within_wake hs.poll s.wakerIn)
      hs.stage
    have hpending : (s.hub.kernel.wake s.wakerIn).poll.pending.length ≤ 2 := hmoved.poll.length_le
    refine ⟨{ hmoved with }, ?_⟩
    rw [effort, effort, Nat.add_assoc]
    refine Nat.add_le_add_left (Stage.effort_mono s.stage ?_) _
    simp only [rounds, unread, withKernel]
    omega

end Deserted

/-! ## Coming to rest

As many steps as there are left to do are enough. -/

section

variable {k : Kernel} {listener : Int} {config : Config}

/-- A step of a server to which nobody has come. -/
theorem recedes_advance (hstart : ofListener k listener config = .ok start) (hk : k.Honest)
    (hs : Reachable start s) (h : s.isGone = true ∨ s.Deserted) (hstep : s.advance? = some t) :
    s.Recedes t := by
  have hwatchful := (watchful_ofListener hstart hk).reachable hs.withSignals
  rcases h with hgone | hdeserted
  · rw [advance?_eq_none.mpr (hwatchful.still hgone)] at hstep
    cases hstep
  · obtain ⟨c, hc⟩ := crewed_reachable hstart hs
    rcases Option.or_eq_some_iff.mp hstep with hworker | ⟨-, hloop⟩
    · obtain ⟨i, -, hi⟩ := List.exists_of_findSome?_eq_some hworker
      exact hdeserted.worker hc hi
    · exact hdeserted.loop hwatchful hloop

/-- What comes of letting a server go on to which nobody has come. -/
structure Settles (s t : Server) (steps : Nat) : Prop where
  deserted : t.isGone = true ∨ t.Deserted
  effort : t.effort ≤ s.effort
  requests : s.SameRequests t
  still : s.effort ≤ steps → t.Still

/-- **It comes to rest** if it is let go on for as many steps as there are left to do. The
induction is on the number of steps, with the server general. -/
theorem settles (hstart : ofListener k listener config = .ok start) (hk : k.Honest)
    (hs : Reachable start s) (h : s.isGone = true ∨ s.Deserted) (steps : Nat) :
    s.Settles (s.settle steps) steps := by
  induction steps generalizing s with
  | zero =>
    refine ⟨h, Nat.le_refl _, ⟨rfl, rfl⟩, fun hzero => advance?_eq_none.mp ?_⟩
    refine Option.eq_none_iff_forall_ne_some.mpr fun t hstep => ?_
    have hlt := (recedes_advance hstart hk hs h hstep).effort
    omega
  | succ steps ih =>
    rw [settle]
    split
    · next hnone => exact ⟨h, Nat.le_refl _, ⟨rfl, rfl⟩, fun _ => advance?_eq_none.mp hnone⟩
    · next t hstep =>
      have hrecedes := recedes_advance hstart hk hs h hstep
      have hsame := requests_advance hstep
      obtain ⟨a, ha⟩ := perform_of_advance? hstep
      have hrest := ih (hs.step ha) hrecedes.deserted
      have hlt := hrecedes.effort
      exact ⟨hrest.deserted, Nat.le_trans hrest.effort (Nat.le_of_lt hlt),
        ⟨hrest.requests.1.trans hsame.1, hrest.requests.2.trans hsame.2⟩,
        fun hle => hrest.still (by omega)⟩

/-- A server that has been set up has no connections, and nobody waits for it. -/
theorem setUp_spec (hstart : ofListener k listener config = .ok start)
    (hnobody : k.backlog listener = []) (hcalm : k.scripts.of .pollWait = []) :
    start.config = config ∧ start.handles = 1 ∧ start.hub.slots.keys = [] ∧
      start.pool = { size := config.workers, capacity := config.maxRequests } ∧
      start.hub.kernel.backlog start.listener = [] ∧
        start.hub.kernel.scripts.of .pollWait = [] := by
  have hpipe := Kernel.backlog_createPipe hnobody
  have hspent := k.evolves_createPipe.scripts .pollWait
  simp only [ofListener] at hstart
  split at hstart
  · cases hstart
  · split at hstart
    · cases hstart
    · next heq =>
      obtain rfl := Except.ok.inj hstart
      rw [heq] at hpipe hspent
      exact ⟨rfl, rfl, rfl, rfl, hpipe, List.suffix_nil.mp (hcalm ▸ hspent)⟩

/-- A server starts to serve, or cannot. -/
theorem deserted_serve (hstart : ofListener k listener config = .ok start)
    (hnobody : k.backlog listener = []) (hcalm : k.scripts.of .pollWait = []) :
    (start.serve.isGone = true ∨ start.serve.Deserted) ∧
      start.serve.effort ≤ 8 * config.workers + 36 := by
  obtain ⟨hconfig, -, hslots, hpool, hbacklog, hcalm⟩ := setUp_spec hstart hnobody hcalm
  have hbacklog' := Kernel.backlog_createPoll hbacklog
  have hempty : start.pool.effort = 0 := by
    rw [hpool]
    rfl
  obtain ⟨n, halert⟩ := alert_ofListener hstart
  have hjoined := halert.joined.createPoll
  -- a server that cannot set up leaves at once, with none of its work to do
  have hgone : ∀ (k : Kernel) result, ((start.withKernel k).leave (.over result)).isGone = true ∧
      ((start.withKernel k).leave (.over result)).effort ≤ 8 * config.workers + 36 := by
    intro k result
    refine ⟨isGone_iff.mpr (.inr ⟨result, stage_leave ..⟩), ?_⟩
    rw [effort, loopEffort, stage_leave, leave, (closeWaker_rest _).2]
    exact Nat.le_trans (Nat.le_of_eq hempty) (Nat.zero_le _)
  -- it is refused an epoll, or gets one that watches nothing yet
  rcases Kernel.createPoll_cases
    start.hub.kernel with ⟨reason, k₁, heq, -⟩ | ⟨k₁, heq, hpoll, hev, -⟩
  · simp only [serve, heq]
    exact (hgone k₁ _).imp_left .inl
  · rw [heq] at hbacklog' hjoined
    simp only [serve, heq]
    split
    · refine ⟨.inr ⟨hslots, ?_, trivial, hbacklog', ?_, ?_, ?_⟩, ?_⟩
      · change start.pool.Jobless
        rw [hpool]
        exact ⟨rfl, fun _ hmem => absurd hmem List.not_mem_nil⟩
      · change k₁.poll.Within _
        rw [hpoll]
        exact .empty _
      · exact List.suffix_nil.mp (hcalm ▸ hev.scripts .pollWait)
      · change 0 < start.config.maxEvents
        rw [hconfig]
        exact sizes_pos hstart ("max_events", _) (by simp [Config.sizes])
      · have hsize : start.pool.size = config.workers := by rw [hpool]
        have hnone : k₁.poll.pending.length = 0 := by rw [hpoll]; rfl
        have hheld : k₁.held start.wakerOut = 0 := hjoined.held_eq
        simp only [effort, loopEffort, rounds, unread, Stage.effort, withKernel, hempty,
          hsize, hnone, hheld, hconfig]
        omega
    · exact (hgone _ _).imp_left .inl

/-- Nobody is at a job, so nobody waits for a named pipe. -/
theorem Deserted.not_awaitsPipe (hs : s.Deserted) : ¬ s.AwaitsPipe := by
  rw [awaitsPipe_iff]
  rintro ⟨i, h, outcome, place, hi⟩
  exact hs.pool.idle _ (List.mem_of_getElem? hi)

/-- A server that has been asked to stop is gone when it is let go on for long enough. -/
theorem gone_of_stopped (hstart : ofListener k listener config = .ok start) (hk : k.Honest)
    (hs : Reachable start s) (h : s.isGone = true ∨ s.Deserted) (hdone : 0 < s.stop.done)
    {steps : Nat}
    (hsteps : s.effort ≤ steps) : (s.settle steps).isGone = true := by
  have hsettles := settles hstart hk hs h steps
  rcases hsettles.deserted with hgone | hdeserted
  · exact hgone
  · refine gone_of_still hstart hk (hs.settle steps) hdeserted.not_awaitsPipe
      (hsettles.still hsteps)
      (fun hready => ?_) (hsettles.requests.1 ▸ hdone)
    have hstage := hdeserted.stage
    rw [hready] at hstage
    exact hstage

/-- To ask a server to stop takes two steps, and leaves more to do. -/
theorem asked_to_stop (hs : Reachable start s) (h : s.isGone = true ∨ s.Deserted)
    (hhandles : s.handles ≠ 0) :
    ∃ t, s.requestStop.wake? = some t ∧ Reachable start t ∧ (t.isGone = true ∨ t.Deserted) ∧
      t.effort ≤ s.effort + 22 ∧ 0 < t.stop.done := by
  have hrequest : s.perform? .requestStop = some s.requestStop := if_neg hhandles
  have hwake : s.requestStop.wake? = some _ := rfl
  have hwrite : s.requestStop.perform? .wake = some _ := hwake
  have hasked : s.Deserted → s.requestStop.Deserted := fun hdeserted => { hdeserted with }
  refine ⟨_, hwake, (hs.step hrequest).step hwrite, ?_, ?_, Nat.succ_pos _⟩
  · exact h.imp id fun hdeserted => ((hasked hdeserted).wake hwake).1
  · rcases h with hgone | hdeserted
    · rcases isGone_iff.mp hgone with hstage | ⟨result, hstage⟩ <;>
        simp [effort, loopEffort, Stage.effort, hstage, requestStop, withKernel]
    · exact ((hasked hdeserted).wake hwake).2

/-- **A server that nobody connects to comes to its end** when it is asked to stop. -/
theorem gone_of_nobody (hstart : ofListener k listener config = .ok start) (hk : k.Honest)
    (hnobody : k.backlog listener = []) (hcalm : k.scripts.of .pollWait = []) :
    Reachable start (Command.runServer start) ∧ (Command.runServer start).isGone = true := by
  have hready : start.stage = .ready := (ofListener_spec hstart).2.2.1
  have hserve : start.perform? .serve = some start.serve := by
    simp only [perform?, serve?, hready]
  obtain ⟨hdeserted, heffort⟩ := deserted_serve hstart hnobody hcalm
  obtain ⟨hconfig, hhandles, -⟩ := setUp_spec hstart hnobody hcalm
  have hserved : Reachable start start.serve := Reachable.refl.step hserve
  have hlimit : Command.stepLimit start = 100 + 10 * config.workers := by
    rw [Command.stepLimit, hconfig]
  have hwaits := settles hstart hk hserved hdeserted (Command.stepLimit start)
  have hsettled := hserved.settle (Command.stepLimit start)
  have hable : (start.serve.settle (Command.stepLimit start)).handles ≠ 0 := by
    rw [hwaits.requests.2, (requests_serve start).2, hhandles]
    exact Nat.one_ne_zero
  obtain ⟨t, hwake, ht, hdeserted', heffort', hdone⟩ :=
    asked_to_stop hsettled hwaits.deserted hable
  have hrun : Command.runServer start = t.settle (Command.stepLimit start) := by
    rw [perform?] at hserve
    rw [Command.runServer, hserve]
    dsimp only [Option.getD_some]
    rw [hwake, Option.getD_some]
  rw [hrun]
  have hle := hwaits.effort
  exact ⟨ht.settle _, gone_of_stopped hstart hk ht hdeserted' hdone (by omega)⟩

end

end Server

/-! ## The command -/

namespace Command

variable {arguments : List String} {env : Environment} {file : Option Bytes} {k : Kernel}
  {processors : Nat} {server : Server} {announcement : Announcement} {logged : Bool}

/-- A server that has been launched has been set up for a configuration. -/
theorem bind_of_launch
    (h : Launch.run arguments env file k processors = .serving server announcement logged) :
    ∃ config, Server.bind k config = .ok server := by
  have hserve : ∀ settings filter,
      Launch.serve settings k processors filter = .serving server announcement logged →
        ∃ config, Server.bind k config = .ok server := by
    intro settings filter h
    simp only [Launch.serve] at h
    split at h
    · cases h
    · next hbind =>
      split at h
      · obtain ⟨rfl, -⟩ := Launch.serving.inj h
        exact ⟨_, hbind⟩
      · cases h
  simp only [Launch.run] at h
  split at h
  · cases h
  · cases h
  · cases h
  · split at h
    · cases h
    · split at h
      · cases h
      · exact hserve _ _ h

/-- **The command comes to its end**: a server that it launches is gone when it has been run and
stopped. -/
theorem gone_of_launch
    (h : Launch.run arguments env file {} processors = .serving server announcement logged) :
    (runServer server).isGone = true := by
  obtain ⟨config, hbind⟩ := bind_of_launch h
  have hspent := Kernel.spent_openListener {} config.host config.port
  rw [Server.bind] at hbind
  split at hbind
  · cases hbind
  · split at hbind
    · cases hbind
    · next listener k' hopen =>
      rw [hopen] at hspent
      have hk : k'.Honest := Script.Only.suffix (fun _ hmem => absurd hmem List.not_mem_nil)
        (hspent .pollControl)
      exact (Server.gone_of_nobody hbind hk (Kernel.backlog_openListener hopen)
        (List.suffix_nil.mp (hspent .pollWait))).2

end Command

end FileServer
