import FileServer.Proofs.Kernel.Watching
import FileServer.Proofs.Server.Stages
import FileServer.Proofs.Server.Unnoticed

/-!
# What a step does to the listener

Most steps are not noticed at the listener (`Server.Spares`): the descriptors that they are about
are those of connections, behind which there are streams. What the others do is listed, case by
case, by `Server.ListenerStep`, and every step of a server whose loop may still come to wait is one
of these (`Server.listenerStep_perform`).

A step that is not noticed keeps the listener and its registration, who is queued at it, and whether
it waits to be looked at. That covers all that is done for clients, by `Kernel.CoversCalls`, and the
pool. The steps that are noticed are to start to serve, to register the listener, to connect, to
fetch events, and to accept with success or without.
-/

namespace FileServer

/-- Whether the listener has been added to the poll set, and the loop has not been left. -/
def Stage.isListening : Stage → Bool
  | .addWaker => true
  | stage => stage.isRound

theorem Stage.isListening_of_isRound {stage : Stage} (h : stage.isRound = true) :
    stage.isListening = true := by
  cases stage with
  | addWaker => rfl
  | _ => exact h

theorem Stage.isLooping_of_isListening {stage : Stage} (h : stage.isListening = true) :
    stage.isLooping = true := by
  cases stage with
  | addWaker => rfl
  | _ => exact isLooping_of_isRound h

/-- Whether a task is part of accepting clients. -/
def Task.isAccepting : Task → Bool
  | .accept | .consider .. | .enter .. | .refuse _ | .register _ | .giveUp _ => true
  | _ => false

/-- Whether the loop is accepting clients, or is going to because of an event that it has
fetched. -/
def Stage.isHeeding : Stage → Bool
  | .batch rest task => task.isAccepting || rest.any (·.token = Server.listenerToken)
  | _ => false

/-- In a batch it is the task at hand that counts, or an event that is yet to be looked at. -/
theorem Stage.isHeeding_batch {rest : List Event} {task : Task} :
    (Stage.batch rest task).isHeeding = true ↔
      task.isAccepting = true ∨ ∃ e ∈ rest, e.token = Server.listenerToken := by
  simp [isHeeding]

/-- Two stages at which the same is going to be done about the listener. -/
structure Stage.Alike (stage stage' : Stage) : Prop where
  listening : stage'.isListening = stage.isListening
  heeding : stage'.isHeeding = stage.isHeeding
  ready : stage' ≠ .ready → stage ≠ .ready

theorem Stage.Alike.refl (stage : Stage) : stage.Alike stage := ⟨rfl, rfl, id⟩

namespace Server

variable {s t : Server} {a : Action} {rest : List Event} {task : Task} {choice : Nat}

/-- There is a listener to accept clients from. -/
def Listens (s : Server) : Prop :=
  ∃ l, s.hub.kernel.descriptors.get? s.listener = some (.listener l)

/-- The listener has been added to the poll set, to have every change reported. -/
def IsRegistered (s : Server) : Prop :=
  s.hub.kernel.poll.registrations.get? s.listener = some (standing listenerToken)

/-- No other descriptor is registered as the listener is. -/
def IsSole (s : Server) : Prop := ∀ d g, s.hub.kernel.poll.registrations.get? d = some g →
  g.oneShot = false → g.token = listenerToken → d = s.listener

/-- The clients that wait to be accepted. -/
def backlog (s : Server) : List Nat := s.hub.kernel.backlog s.listener

/-! ## Steps that are not noticed

A step is not noticed if it is about descriptors behind which there are streams, or about none. Such
steps make up most of the work of the loop, and all of that of the workers. -/

/-- A step that is not noticed at the listener. -/
structure Spares (s t : Server) : Prop where
  listener : t.listener = s.listener
  descriptor : t.hub.kernel.descriptors.get? s.listener = s.hub.kernel.descriptors.get? s.listener
  poll : s.hub.kernel.poll.Spares t.hub.kernel.poll s.listener listenerToken

namespace Spares

theorem of_same (hlistener : t.listener = s.listener)
    (hdescriptors : t.hub.kernel.descriptors = s.hub.kernel.descriptors)
    (hpoll : t.hub.kernel.poll = s.hub.kernel.poll) : s.Spares t :=
  ⟨hlistener, by rw [hdescriptors], by rw [hpoll]; exact .refl ..⟩

theorem listens (h : s.Spares t) (hl : s.Listens) : t.Listens := by
  obtain ⟨l, hl⟩ := hl
  refine ⟨l, ?_⟩
  rw [h.listener, h.descriptor, hl]

theorem isRegistered (h : s.Spares t) (hr : s.IsRegistered) : t.IsRegistered := by
  rw [IsRegistered, h.listener, h.poll.registration]
  exact hr

theorem isSole (h : s.Spares t) (hs : s.IsSole) : t.IsSole := by
  intro d g hg hshot htoken
  rw [h.listener]
  exact hs d g (h.poll.standing d g hg hshot htoken) hshot htoken

theorem backlog (h : s.Spares t) : t.backlog = s.backlog := by
  rw [Server.backlog, h.listener]
  exact Kernel.backlog_congr h.descriptor

theorem mem_pending (h : s.Spares t) :
    t.listener ∈ t.hub.kernel.poll.pending ↔ s.listener ∈ s.hub.kernel.poll.pending := by
  rw [h.listener]
  exact h.poll.pending

end Spares

end Server

/-- A change that is not noticed at a listener, if there is one behind the descriptor. -/
def Kernel.SparesListener (d : Int) (k k' : Kernel) : Prop :=
  ∀ l, k.descriptors.get? d = some (.listener l) →
    k'.descriptors.get? d = some (.listener l) ∧ k.poll.Spares k'.poll d Server.listenerToken

namespace Kernel

variable {k k' : Kernel} {d e : Int} {n : Nat} {l : Listener}

/-- There is no stream behind the descriptor of a listener. -/
theorem ne_of_stream (hn : k.streamOf? e = some n)
    (hl : k.descriptors.get? d = some (.listener l)) :
    e ≠ d ∧ k.descriptors.get? e ≠ some .poll := by
  have hget := get?_of_streamOf? hn
  refine ⟨?_, ?_⟩
  · rintro rfl
    cases hget.symm.trans hl
  · rw [hget]
    rintro ⟨⟩

/-- What is done for clients is not noticed at the listener: each of the calls is about the
descriptor of a stream, and the listener is none. -/
theorem covers_sparesListener (d : Int) : CoversCalls (SparesListener d) where
  refl _ _ hl := ⟨hl, .refl ..⟩
  trans h h' l hl := by
    obtain ⟨hl', hpoll⟩ := h l hl
    obtain ⟨hl'', hpoll'⟩ := h' l hl'
    exact ⟨hl'', hpoll.trans hpoll'⟩
  putWire k e w l hl := by
    obtain ⟨hsame, hpoll, -⟩ := putWire_spec k e w
    rw [hsame.descriptors, hpoll]
    exact ⟨hl, .refl ..⟩
  locate k root url l hl := by
    obtain ⟨hdescriptor, hpoll⟩ := spares_locate (d := d) (by rw [hl]; rfl) root url
    exact ⟨hdescriptor.trans hl, hpoll⟩
  close hn l hl := by
    obtain ⟨hne, hpoll⟩ := ne_of_stream hn hl
    exact ⟨(leaves_close hne.symm hpoll).descriptor.trans hl, spares_close hne hpoll⟩
  discard hn l hl := by
    obtain ⟨hne, hpoll⟩ := ne_of_stream hn hl
    exact ⟨(leaves_discard hne.symm hpoll).descriptor.trans hl, spares_discard hne hpoll⟩
  pollAdd hn hg l hl := by
    obtain ⟨hne, -⟩ := ne_of_stream hn hl
    rw [descriptors_pollAdd]
    exact ⟨hl, spares_pollAdd (fun heq => absurd heq hne) fun hshot => by cases hg.symm.trans hshot⟩
  pollModify hn hg l hl := by
    obtain ⟨hne, -⟩ := ne_of_stream hn hl
    rw [descriptors_pollModify]
    exact ⟨hl, spares_pollModify _ hne fun hshot => by cases hg.symm.trans hshot⟩

end Kernel

namespace Server

variable {s t : Server} {a : Action} {rest : List Event} {task : Task} {choice : Nat}

theorem Spares.of_kernel (hl : s.Listens) (hlistener : t.listener = s.listener)
    (h : Kernel.SparesListener s.listener s.hub.kernel t.hub.kernel) : s.Spares t := by
  obtain ⟨l, hl⟩ := hl
  obtain ⟨hl', hpoll⟩ := h l hl
  exact ⟨hlistener, hl'.trans hl.symm, hpoll⟩

namespace Orderly

/-- What the loop does at a task, unless it accepts. -/
theorem spares_task (hs : s.Orderly) (hl : s.Listens) (hstage : s.stage = .batch rest task)
    (haccept : task ≠ .accept) (choice : Nat) : s.Spares (s.afterTask choice rest task) := by
  by_cases hdrain : task = .drain
  · subst hdrain
    have hquiet := s.hub.kernel.quiet_pipeRead s.wakerOut Kernel.drainStep
    have hpoll := s.hub.kernel.poll_pipeRead s.wakerOut Kernel.drainStep
    simp only [afterTask, doTask]
    split <;> next heq =>
      rw [heq] at hquiet hpoll
      exact .of_same rfl hquiet.descriptors hpoll
  · refine .of_kernel hl ?_
      (hs.covers_task (Kernel.covers_sparesListener _) hstage haccept hdrain choice)
    rw [afterTask, doTask_eq]
    rfl

/-- What a worker does is done for clients, so it is not noticed. -/
theorem spares_worker (hs : s.Orderly) (hl : s.Listens) {i : Nat}
    (hstep : s.workerStep i = some t) : s.Spares t :=
  .of_kernel hl (by rw [workerStep_eq hstep])
    (hs.covers_worker (Kernel.covers_sparesListener _) hstep)

end Orderly

/-! ## All steps

The steps that are noticed, one lemma for each, and at the end that there are no others. -/

/-- An event is heeded if it is the listener's. -/
theorem isAccepting_taskOf (e : Event) :
    (taskOf e).isAccepting = decide (e.token = listenerToken) := by
  by_cases htoken : e.token = listenerToken
  · rw [taskOf, if_pos htoken, decide_eq_true htoken]
    rfl
  · rw [taskOf, if_neg htoken, decide_eq_false htoken]
    dsimp only
    split_ifs <;> rfl

/-- A task that is part of accepting clients leads to another, until no client is accepted. -/
theorem isAccepting_doTask (s : Server) (choice : Nat) (htask : task ≠ .accept) :
    (s.doTask choice task).1.isAccepting = task.isAccepting := by
  cases task with
  | accept => exact absurd rfl htask
  | next => rfl
  | consider d peer => simp only [doTask]; split <;> rfl
  | enter d peer => simp only [doTask]; split <;> rfl
  | refuse d => rfl
  | register h => simp only [doTask]; split <;> rfl
  | giveUp h => rfl
  | read h =>
    simp only [doTask, afterRead]
    split <;> rfl
  | submit h => simp only [doTask]; split <;> rfl
  | announce => rfl
  | resume h =>
    simp only [doTask, afterResume]
    split <;> rfl
  | rearm h interest => simp only [doTask]; split <;> rfl
  | close h => rfl
  | drain => simp only [doTask]; split <;> rfl

/-- The loop accepts no client. -/
theorem spares_unaccepted (hnone : ∀ d peer, (s.hub.kernel.accept s.listener).1 ≠ .accepted d peer)
    (choice : Nat) (rest : List Event) : s.Spares (s.afterTask choice rest .accept) ∧
      (s.afterTask choice rest .accept).stage = .batch rest .next := by
  have hpoll := s.hub.kernel.poll_accept s.listener
  have hquiet : s.hub.kernel.Quiet (s.hub.kernel.accept s.listener).2 := by
    rcases Kernel.accept_cases s.hub.kernel s.listener with ⟨d, peer, n, k, heq, -⟩ | ⟨-, hquiet⟩
    · rw [heq] at hnone
      exact absurd rfl (hnone d peer)
    · exact hquiet
  rcases haccept : s.hub.kernel.accept s.listener with ⟨result, k⟩
  rw [haccept] at hnone hpoll hquiet
  have hafter : s.afterTask choice rest .accept = s.afterKernel k rest .next := by
    simp only [afterTask, doTask, haccept]
    cases result with
    | accepted d peer => exact absurd rfl (hnone d peer)
    | wouldBlock => rfl
    | failed reason => rfl
  rw [hafter]
  exact ⟨.of_same rfl hquiet.descriptors hpoll, rfl⟩

/-- What a step does, seen from the listener, as long as the loop may still come to wait. -/
inductive ListenerStep (a : Action) (s t : Server) : Prop
  /-- nothing, and the same is going to be done about it -/
  | aside : s.Spares t → s.stage.Alike t.stage → ListenerStep a s t
  /-- the server starts to serve, with a poll set in which nothing is registered -/
  | served : s.stage = .ready → t.listener = s.listener →
    t.hub.kernel.descriptors.get? s.listener = s.hub.kernel.descriptors.get? s.listener →
    t.stage.isListening = false → t.hub.kernel.poll = {} → ListenerStep a s t
  /-- the listener is added to the poll set -/
  | registered : s.stage = .addListener → t.listener = s.listener →
    t.hub.kernel.descriptors.get? s.listener = s.hub.kernel.descriptors.get? s.listener →
    t.hub.kernel.poll.registrations =
      s.hub.kernel.poll.registrations.set s.listener (standing listenerToken) →
    (s.backlog ≠ [] → t.listener ∈ t.hub.kernel.poll.pending) → ListenerStep a s t
  /-- a client connects -/
  | connected {n : Nat} : a = .connect → t.listener = s.listener → t.stage = s.stage →
    Kernel.Connects s.hub.kernel t.hub.kernel s.listener n →
    (s.IsRegistered → t.listener ∈ t.hub.kernel.poll.pending) → ListenerStep a s t
  /-- events are fetched -/
  | fetched : s.stage = .waiting → t = s.fetch → ListenerStep a s t
  /-- a client is accepted -/
  | accepted {rest : List Event} {d : Int} {peer : Option SocketAddress} {n : Nat} :
    t.listener = s.listener → s.stage = .batch rest .accept →
      t.stage = .batch rest (.consider d peer) →
    Kernel.Accepts s.hub.kernel t.hub.kernel s.listener d n →
    t.hub.kernel.poll = s.hub.kernel.poll → ListenerStep a s t
  /-- no client is accepted -/
  | unaccepted {choice : Nat} {rest : List Event} : a = .loop choice → s.Spares t →
    s.stage = .batch rest .accept → t.stage = .batch rest .next →
    (∀ d peer, (s.hub.kernel.accept s.listener).1 ≠ .accepted d peer) → ListenerStep a s t

namespace ListenerStep

/-- A step that leaves the stage as it is. -/
theorem stay (h : s.Spares t) (hstage : t.stage = s.stage) : ListenerStep a s t :=
  .aside h (by rw [hstage]; exact .refl _)

/-- A step to another stage at which the same is going to be done about the listener. -/
theorem onward {stage : Stage} (h : s.Spares t) (hstage : s.stage = stage) (hready : stage ≠ .ready)
    (hlistening : t.stage.isListening = stage.isListening)
    (hheeding : t.stage.isHeeding = stage.isHeeding) : ListenerStep a s t := by
  subst hstage
  exact .aside h ⟨hlistening, hheeding, fun _ => hready⟩

/-- To start to serve is to make a poll set, and if that fails the loop is not reached. -/
theorem serve (hl : s.Listens) (hstage : s.stage = .ready)
    (hloop : s.serve.stage.isLooping = true) : ListenerStep a s s.serve := by
  rcases Kernel.createPoll_cases s.hub.kernel with
    ⟨reason, k, heq, -⟩ | ⟨k, heq, hpoll, -, hkeeps, -⟩
  · simp only [Server.serve, heq, stage_leave] at hloop
    cases hloop
  · simp only [Server.serve, heq] at hloop ⊢
    split
    · obtain ⟨l, hl⟩ := hl
      have hne := Kernel.ne_nextDescriptor (d := s.listener) (by rw [hl]; rfl)
      exact .served hstage rfl (hkeeps _ hne).descriptor rfl hpoll
    · next hmemory =>
      rw [if_neg hmemory, stage_leave] at hloop
      cases hloop

/-- The listener is added, and looked at if clients wait already. Where adding it fails the loop
is left. -/
theorem addListener (hs : s.Orderly) (hstage : s.stage = .addListener)
    (hloop : (s.addStanding s.listener listenerToken .addWaker).stage.isLooping = true) :
    ListenerStep a s (s.addStanding s.listener listenerToken .addWaker) := by
  have honest := hs.tidy.honest
  rcases Kernel.pollAdd_cases honest s.listener (standing listenerToken) with
    ⟨reason, k, heq, -⟩ | ⟨k, heq, hregisters, -⟩
  · simp only [addStanding, heq] at hloop
    cases hloop
  · simp only [addStanding, heq]
    refine .registered hstage rfl ?_ hregisters.registrations fun hbacklog => ?_
    · exact (hregisters.keeps _).descriptor
    · exact Kernel.pending_pollAdd honest heq hbacklog rfl rfl

/-- The wake-up pipe is added under another token, so the listener remains the only one of its
kind. -/
theorem addWaker (hs : s.Orderly) (hr : s.IsRegistered) (hstage : s.stage = .addWaker)
    (hloop : (s.addStanding s.wakerOut wakerToken .checking).stage.isLooping = true) :
    ListenerStep a s (s.addStanding s.wakerOut wakerToken .checking) := by
  have hpoll : s.hub.kernel.poll.Spares
      (s.hub.kernel.pollAdd s.wakerOut (standing wakerToken)).2.poll s.listener listenerToken :=
    Kernel.spares_pollAdd (fun _ => by rw [hr]; rfl) fun _ => by decide
  rcases Kernel.pollAdd_cases hs.tidy.honest s.wakerOut (standing wakerToken) with
    ⟨reason, k, heq, -⟩ | ⟨k, heq, hregisters, -⟩
  · simp only [addStanding, heq] at hloop
    cases hloop
  · rw [heq] at hpoll
    simp only [addStanding, heq]
    exact .onward ⟨rfl, (hregisters.keeps _).descriptor, hpoll⟩ hstage (by rintro ⟨⟩) rfl rfl

/-- Starting a worker concerns nobody who waits. -/
theorem spawnWorker {left : Nat} (hstage : s.stage = .spawning (left + 1))
    (hloop : (s.spawnWorker left).stage.isLooping = true) :
    ListenerStep a s (s.spawnWorker left) := by
  have hquiet := Kernel.quiet_takeFault s.hub.kernel .spawnThread
  have hpoll : (s.hub.kernel.takeFault .spawnThread).2.poll = s.hub.kernel.poll := rfl
  simp only [Server.spawnWorker] at hloop ⊢
  split at hloop
  · cases hloop
  · next heq =>
    rw [heq] at hquiet hpoll
    exact .onward (.of_same rfl hquiet.descriptors hpoll) hstage (by rintro ⟨⟩) rfl rfl

/-- To go on from one stage to the next is not noticed. -/
theorem goTo {stage stage' : Stage} (hstage : s.stage = stage) (hready : stage ≠ .ready)
    (hlistening : stage'.isListening = stage.isListening)
    (hheeding : stage'.isHeeding = stage.isHeeding) : ListenerStep a s (s.goTo stage') :=
  .onward (.of_same rfl rfl rfl) hstage hready hlistening hheeding

/-- A wait that begins leaves events where they are. It may come back at once without any. -/
theorem beginWait (hstage : s.stage = .polling) (hloop : s.beginWait.stage.isLooping = true) :
    ListenerStep a s s.beginWait := by
  have hquiet := Kernel.quiet_beginWait s.hub.kernel s.config.maxEvents
  have hpoll := s.hub.kernel.poll_beginWait s.config.maxEvents
  simp only [Server.beginWait] at hloop ⊢
  split at hloop
  · next heq =>
    rw [heq] at hquiet hpoll
    exact .onward (.of_same rfl hquiet.descriptors hpoll) hstage (by rintro ⟨⟩) rfl rfl
  · next heq =>
    rw [heq] at hquiet hpoll
    exact .onward (.of_same rfl hquiet.descriptors hpoll) hstage (by rintro ⟨⟩) rfl rfl
  · cases hloop

/-- An event is heeded as long as it is to be looked at, and then by what it calls for. -/
theorem look {e : Event} (hstage : s.stage = .batch (e :: rest) .next) :
    ListenerStep a s (s.goTo (.batch rest (taskOf e))) := by
  refine .goTo hstage (by rintro ⟨⟩) rfl ?_
  rw [Stage.isHeeding, Stage.isHeeding, isAccepting_taskOf, List.any_cons]
  rfl

/-- **To accept** takes the first of those who wait, after which the loop goes on accepting; or
nobody is accepted, and the loop stops. -/
theorem accept (hstage : s.stage = .batch rest .accept) (choice : Nat) :
    ListenerStep (.loop choice) s (s.afterTask choice rest .accept) := by
  rcases Kernel.accept_cases s.hub.kernel s.listener with ⟨d, peer, n, k, heq, hk⟩ | ⟨hnone, -⟩
  · have hpoll := s.hub.kernel.poll_accept s.listener
    rw [heq] at hpoll
    simp only [afterTask, doTask, heq]
    exact .accepted rfl hstage rfl hk hpoll
  · obtain ⟨hspares, hstage'⟩ := spares_unaccepted hnone choice rest
    exact .unaccepted rfl hspares hstage hstage' hnone

/-- **What a task does.** To accept is as above; all other tasks are done for clients who have
been accepted, or empty the wake-up pipe. -/
theorem doTask (hs : s.Orderly) (hl : s.Listens) (hstage : s.stage = .batch rest task)
    (choice : Nat) : ListenerStep (.loop choice) s (s.afterTask choice rest task) := by
  by_cases haccept : task = .accept
  · subst haccept
    exact accept hstage choice
  · -- the rest of the batch is the same, and only to accept may end a round of accepting
    have hheeding : (Stage.batch rest (Server.doTask choice s task).1).isHeeding =
        (Stage.batch rest task).isHeeding := by
      rw [Stage.isHeeding, isAccepting_doTask s choice haccept]
      rfl
    exact .onward (hs.spares_task hl hstage haccept choice) hstage (by rintro ⟨⟩) rfl hheeding

end ListenerStep

/-- A step of a loop that may come to wait after it. -/
theorem listenerStep_loop (hs : s.Orderly) (hl : s.Listens)
    (hr : s.stage.isListening = true → s.IsRegistered) (hstep : s.loopStep choice = some t)
    (hloop : t.stage.isLooping = true) : ListenerStep (.loop choice) s t := by
  have hlooping := (loopStep_leads hstep).1.isLooping hloop
  cases loopStep_cases hstep with
  | spawned hstage => exact .goTo hstage (by rintro ⟨⟩) rfl rfl
  | spawn hstage => exact .spawnWorker hstage hloop
  | addListener hstage => exact .addListener hs hstage hloop
  | addWaker hstage => exact .addWaker hs (hr (by rw [hstage]; rfl)) hstage hloop
  | check hstage =>
    cases hflag : s.stop.flag with
    | true =>
      rw [hflag] at hloop
      cases hloop
    | false => exact .goTo hstage (by rintro ⟨⟩) rfl rfl
  | poll hstage => exact .beginWait hstage hloop
  | fetch hstage => exact .fetched hstage rfl
  | done hstage => exact .goTo hstage (by rintro ⟨⟩) rfl rfl
  | look hstage => exact .look hstage
  | work hstage => exact .doTask hs hl hstage choice
  | _ hstage =>
    -- the loop has been left
    rw [hstage] at hlooping
    cases hlooping

namespace ListenerStep

/-- What a worker does is not noticed at the listener, as long as the loop may still come to
wait. -/
theorem worker (hc : s.Coherent) (hl : s.Listens) {i : Nat} (hlooping : s.stage.isLooping = true)
    (hstep : s.workerStep i = some t) : ListenerStep a s t := by
  by_cases hready : s.stage = .ready
  · have hworkers := (hc.ready hready).workers
    simp [Server.workerStep, Pool.workerStep, hworkers] at hstep
  · obtain ⟨hs, -⟩ := hc.orderly (Stage.isServing_of_isLooping hlooping hready)
    exact .stay (hs.spares_worker hl hstep) (by rw [workerStep_eq hstep])

/-- To request a stop is to write to the wake-up pipe, which the listener does not notice. -/
theorem wake (hl : s.Listens) (stop : StopRequests) :
    ListenerStep a s { s.withKernel (s.hub.kernel.wake s.wakerIn) with stop } := by
  obtain ⟨l, hl⟩ := hl
  have hquiet := Kernel.quiet_wake s.hub.kernel s.wakerIn
  have hpoll : s.hub.kernel.poll.Spares (s.hub.kernel.wake s.wakerIn).poll s.listener
      listenerToken :=
    s.hub.kernel.spares_wake (fun n hn => by cases hn.symm.trans hl) s.wakerIn
  exact .stay ⟨rfl, congrArg (·.get? s.listener) hquiet.descriptors, hpoll⟩ rfl

/-- A client that connects waits behind the others, and has the listener looked at. -/
theorem connect (s : Server) : ListenerStep .connect s s.connect.2 := by
  rcases Kernel.connect_cases s.hub.kernel s.listener with ⟨n, k, heq, hk⟩ | heq
  · have hconnect : s.connect.2 = s.withKernel k := by rw [Server.connect, heq]
    rw [hconnect]
    exact .connected rfl rfl rfl hk fun hr => Kernel.pending_connect heq hr rfl rfl
  · have hconnect : s.connect.2 = s := by rw [Server.connect, heq]; rfl
    rw [hconnect]
    exact .stay (.of_same rfl rfl rfl) rfl

/-- What a client does is noticed at its stream alone. -/
theorem client (hl : s.Listens) (n : Nat) (action : ClientAction) :
    ListenerStep a s (s.asClient n fun st => ((), action.perform st)).2 := by
  obtain ⟨l, hl⟩ := hl
  obtain ⟨hsame, -⟩ := s.hub.kernel.asClient_same n fun st => ((), action.perform st)
  have hstream : ∀ n, s.hub.kernel.descriptors.get? s.listener ≠ some (.stream n) := by
    intro n hn
    cases hn.symm.trans hl
  exact .stay ⟨rfl, congrArg (·.get? s.listener) hsame.descriptors,
    s.hub.kernel.spares_asClient hstream n fun st => ((), action.perform st)⟩ rfl

end ListenerStep

/-- **Every step after which the loop may still come to wait** is one of those listed. Properties
of the backlog are proved by going through the list. -/
theorem listenerStep_perform (hc : s.Coherent) (hl : s.Listens)
    (hr : s.stage.isListening = true → s.IsRegistered) (hstep : s.perform? a = some t)
    (hlooping : s.stage.isLooping = true) (hloop : t.stage.isLooping = true) :
    ListenerStep a s t := by
  cases perform?_cases hstep with
  | serve hready => exact .serve hl hready hloop
  | drop =>
    rw [stage_leave] at hloop
    cases hloop
  | loop hround =>
    have hready : s.stage ≠ .ready := fun hready => by
      cases (loopStep_of_ready hready _).symm.trans hround
    obtain ⟨hs, -⟩ := hc.orderly (Stage.isServing_of_isLooping hlooping hready)
    exact listenerStep_loop hs hl hr hround hloop
  | worker hworker => exact .worker hc hl hlooping hworker
  | requestStop => exact .stay (.of_same rfl rfl rfl) rfl
  | wake => exact .wake hl _
  | releaseHandle => exact .stay (.of_same rfl rfl rfl) rfl
  | closeHandle hgone => cases (isGone_of_isLooping hlooping).symm.trans hgone
  | connect => exact .connect s
  | client n action => exact .client hl n action
  | openPipe => exact .stay (.of_same rfl rfl rfl) rfl

end Server

end FileServer
