import FileServer.Proofs.Server.Outside
import Mathlib.Data.List.Nodup

/-!
# Every open connection has one owner

In every state that a server can reach (`Server.exclusive_ownership`): while it serves, an open
connection is in exactly one of the places where its handle can be, and a handle that names no open
connection is in none. So no two threads are at one connection, nothing is queued twice, and when a
descriptor number comes back no old handle for it is left anywhere. At the end, when the workers
have come to theirs, the connections that are still open are those that the loop has yet to close.

The invariant is `Server.Coherent`: before the server serves nothing is open, while it serves all is
in order (`Server.Orderly`), and after that what is open is due to be closed (`Server.Ending`).

That a step keeps all in order while the server serves is the work of the modules before this one
(`Server.Orderly.perform`, `Server.Step.orderly`). What is added here are the two ends: how a server
that has opened nothing comes to serve (`Server.Unopened.serve`), and how one whose workers have
come to their end closes what is left, slot by slot (`Server.Ending`).
-/

namespace FileServer

/-- Whether all connections have been closed. -/
def Stage.isEnded : Stage → Bool
  | .leaving _ | .over _ | .dropped => true
  | _ => false

theorem Stage.not_serving_of_isEnded {stage : Stage} (h : stage.isEnded = true) :
    stage.isServing = false := by
  cases stage with
  | _ => first | rfl | cases h

namespace Server

variable {s t start : Server} {h : Handle} {a : Action}

/-- A server is gone when it has returned, or when it was dropped without having served. -/
theorem isGone_iff : s.isGone = true ↔ s.stage = .dropped ∨ ∃ result, s.stage = .over result := by
  rw [isGone]
  cases s.stage with
  | _ => simp

/-- The connections of a server that is gone have been closed. -/
theorem isEnded_of_isGone (hgone : s.isGone = true) : s.stage.isEnded = true := by
  rcases isGone_iff.mp hgone with hstage | ⟨result, hstage⟩ <;> rw [hstage] <;> rfl

/-! ## What is claimed

The clauses as they are stated in the end, by stage. -/

/-- Where the open connections are. -/
structure Exclusive (s : Server) : Prop where
  /-- an open connection is in one place and in no other -/
  placed : ∀ h, (s.hub.connection? h).isSome → ∃ τ : Holder, s.places h = τ.places
  /-- a handle that names no open connection is nowhere -/
  nowhere : ∀ h, s.hub.connection? h = none → s.places h = {}
  /-- nothing is queued twice -/
  queue : s.pool.queue.Nodup
  /-- no two workers are at the same connection -/
  workers : (s.pool.running.map Job.handle).Nodup
  /-- no worker is at a connection that the loop is at -/
  loop : ∀ task ∈ s.stage.task?, ∀ h ∈ task.handle?, h ∉ s.pool.running.map Job.handle
  /-- what is armed can have an event: it has a stream, and its registration names it -/
  armed : ∀ h interest, s.places h = (Holder.poll interest).places →
    (s.hub.kernel.streamOf? h.descriptor).isSome ∧
      ∃ g, s.hub.kernel.poll.registrations.get? h.descriptor = some g ∧ g.armed = true ∧
        g.interest = interest ∧ owner? g.token = some h
  /-- when a connection is opened, no handle with its number is left anywhere -/
  opened : ∀ rest d peer, s.stage = .batch rest (.enter d peer) →
    s.hub.connection? ⟨d⟩ = none ∧ s.places ⟨d⟩ = {}

/-- A handle is in the queue, or in an event that has been fetched. -/
def IsWaiting (s : Server) (h : Handle) : Prop :=
  (s.places h).queued ≠ 0 ∨ (s.places h).events ≠ []

/-- The workers have come to their end, and what is open is in the slots that are yet to be closed,
each of which is closed once. -/
structure Ending (s : Server) (slots : List Int) : Prop where
  isOver : s.pool.isOver = true
  once : slots.Nodup
  due : ∀ h, (s.hub.connection? h).isSome → h.descriptor ∈ slots

/-- Who has the open connections, at every stage. -/
structure Owned (s : Server) : Prop where
  exclusive : s.stage.isServing = true → s.Exclusive
  /-- a handle that waits names the same connection until it is taken -/
  steady : s.stage.isServing = true → ∀ a t, s.perform? a = some t → ∀ h, s.IsWaiting h →
    t.hub.connection? h = s.hub.connection? h
  closing : ∀ slots result, s.stage = .closing slots result → s.Ending slots
  ended : s.stage.isEnded = true → s.Ending []

/-! ## In order means exclusive

Each clause is read off the one place at which an open connection stands. -/

/-- An open connection stands somewhere, as its handle would be vacant otherwise. -/
theorem Orderly.placed (hs : s.Orderly) (hopen : (s.hub.connection? h).isSome) :
    ∃ τ c, s.Standing h τ c := by
  rcases hs.held h with hv | hstanding
  · rw [hv.connection] at hopen
    cases hopen
  · exact hstanding

/-- Whatever can be counted is there at most once. -/
theorem Orderly.at_most_once (hs : s.Orderly) (h : Handle) :
    s.pool.queue.count h ≤ 1 ∧ (s.pool.jobsFor h).length ≤ 1 := by
  have hqueued : (s.places h).queued = s.pool.queue.count h := rfl
  have hjobs : (s.places h).jobs = s.pool.jobsFor h := rfl
  rw [← hqueued, ← hjobs]
  rcases hs.held h with hv | ⟨τ, c, hstanding⟩
  · rw [hv.places]
    exact ⟨Nat.zero_le _, Nat.zero_le _⟩
  · rw [hstanding.places]
    cases τ <;> simp [Holder.places]

/-- **In order means exclusive.** Each clause is read off the one place in which a handle is
found. -/
theorem Orderly.exclusive (hs : s.Orderly) : s.Exclusive where
  placed h hopen := by
    obtain ⟨τ, c, hstanding⟩ := hs.placed hopen
    exact ⟨τ, hstanding.places⟩
  nowhere h hnone := by
    rcases hs.held h with hv | ⟨τ, c, hstanding⟩
    · exact hv.places
    · rw [hstanding.connection] at hnone
      cases hnone
  queue := List.nodup_iff_count_le_one.mpr fun h => (hs.at_most_once h).1
  workers := by
    refine List.nodup_iff_count_le_one.mpr fun h => ?_
    have hcount : (s.pool.running.map Job.handle).count h = (s.pool.jobsFor h).length := by
      rw [List.count_eq_countP, List.countP_map, List.countP_eq_length_filter, Pool.jobsFor]
      congr 2
    rw [hcount]
    exact (hs.at_most_once h).2
  -- the loop and a worker on one connection would be two places of one holder
  loop task htask h hh hmem := by
    obtain ⟨job, hjob, rfl⟩ := List.mem_map.mp hmem
    have hloop : (s.places job.handle).task = some task := by
      rw [places]
      dsimp only
      rw [htask, Option.filter_some, if_pos (by simpa using hh)]
    have hworker : job ∈ (s.places job.handle).jobs :=
      List.mem_filter.mpr ⟨hjob, decide_eq_true rfl⟩
    obtain ⟨τ, c, hstanding⟩ := hs.standing (h := job.handle) fun hnone => by
      rw [hnone] at hworker
      cases hworker
    rw [hstanding.places] at hloop hworker
    cases τ with
    | loop task' => cases hworker
    | worker job' => cases hloop
    | poll interest => cases hloop
    | event ready => cases hloop
    | queue => cases hloop
  -- an armed registration is one-shot, as every registration of a connection is
  armed h interest hplaces := by
    obtain ⟨τ, c, hstanding⟩ := hs.standing (h := h) fun hnone => by
      rw [hplaces] at hnone
      cases congrArg Places.armed hnone
    obtain ⟨n, hn⟩ := hstanding.stream
    refine ⟨by rw [hn]; rfl, ?_⟩
    have harmed : s.hub.kernel.poll.registrations.armed h = some interest :=
      congrArg Places.armed hplaces
    obtain ⟨g, hg, hg'⟩ := Option.bind_eq_some_iff.mp harmed
    split at hg'
    · rename_i hboth
      obtain ⟨hshot, harmed⟩ := Bool.and_eq_true_iff.mp hboth
      exact ⟨g, hg, harmed, Option.some.inj hg', (hs.tidy.names _ g hg).oneShot hshot⟩
    · cases hg'
  opened rest d peer hstage := by
    have hcandidate := hs.candidate d (by rw [hstage]; rfl)
    exact ⟨hcandidate.connection, (hs.vacant_candidate hcandidate).places⟩

/-- Until it is taken, a handle in the queue or in an event names the same connection. Of the ways
in which a connection may pass on, none begins in a queue or an event and touches the
connection. -/
theorem Step.steady (hs : s.Orderly) (hstep : Step a s t) (hh : s.IsWaiting h) :
    t.hub.connection? h = s.hub.connection? h := by
  obtain ⟨τ, c, hstanding⟩ := hs.standing (h := h) fun hnone => by
    rw [IsWaiting, hnone] at hh
    simp at hh
  -- waiting is in the queue or in an event not yet looked at, and neither touches the connection
  have hτ : τ = .queue ∨ ∃ r, τ = .event r := by
    rw [IsWaiting, hstanding.places] at hh
    cases τ with
    | queue => exact .inl rfl
    | event r => exact .inr ⟨r, rfl⟩
    | poll interest => simp [Holder.places] at hh
    | loop task => simp [Holder.places] at hh
    | worker job => simp [Holder.places] at hh
  have hpassage := hstep.passage h τ c hstanding
  have hkept : ∃ τ', t.Standing h τ' c := by
    rcases hτ with rfl | ⟨r, rfl⟩
    · cases hpassage with
      | stay h' => exact ⟨_, h'⟩
      | armed harms => cases harms
      | unarmed harms => cases harms
      | taken h' => exact ⟨_, h'⟩
      | closed hcloses => cases hcloses
    · cases hpassage with
      | stay h' => exact ⟨_, h'⟩
      | armed harms => cases harms
      | unarmed harms => cases harms
      | looked h' => exact ⟨_, h'⟩
      | closed hcloses => cases hcloses
  obtain ⟨τ', h'⟩ := hkept
  exact h'.connection.trans hstanding.connection.symm

/-! ## The invariant

The three parts of a server's life: nothing is open yet, all is in order, and what is left is
closed. -/

/-- Nothing has been opened. -/
structure Unopened (s : Server) : Prop where
  connection : ∀ h, s.hub.connection? h = none
  queue : s.pool.queue = []
  workers : s.pool.workers = []
  honest : s.hub.kernel.Honest

/-- What holds in every state that can be reached. -/
inductive Coherent (s : Server) : Prop
  | unopened : s.stage = .ready → s.Unopened → Coherent s
  | serving : s.stage.isServing = true → s.Orderly →
    (s.stage.isEarly = true → ∀ h, s.Vacant h) → Coherent s
  | closing {slots : List Int} {result : Except ServerError Unit} :
    s.stage = .closing slots result → s.Ending slots → Coherent s
  | ended : s.stage.isEnded = true → s.Ending [] → Coherent s

/-- A server that leaves while nothing is open, and whose workers have come to their end. -/
theorem coherent_leave {stage : Stage} (hstage : stage.isEnded = true) (hs : s.Ending []) :
    (s.leave stage).Coherent := by
  obtain ⟨hstage', hpool⟩ := closeWaker_rest
    ((s.withKernel (s.hub.kernel.close s.listener)).goTo stage)
  refine .ended ?_ ⟨?_, hs.once, fun h hopen => hs.due h ?_⟩
  · rw [leave, hstage']
    exact hstage
  · rw [leave, hpool]
    exact hs.isOver
  · rw [leave, connection?_closeWaker] at hopen
    exact hopen

/-! ## Actions that do not count

When the workers have come to their end, only the loop can change what is open. -/

/-- Workers that have come to their end do nothing. -/
theorem workerStep_of_isOver (hs : s.pool.isOver = true) (i : Nat) : s.workerStep i = none := by
  have hexited : ∀ w, s.pool.workers[i]? = some w → w = .exited := by
    intro w hw
    have hall := List.all_eq_true.mp hs w (List.mem_of_getElem? hw)
    cases w with
    | exited => rfl
    | _ => cases hall
  rw [workerStep]
  cases hw : s.pool.workers[i]? with
  | none => simp only [Pool.workerStep, hw, Option.map_none]
  | some w =>
    obtain rfl := hexited w hw
    simp only [Pool.workerStep, hw, Option.map_none]

/-- A named pipe that gets a writer brings no worker back. -/
theorem isOver_openPipe (place : List String) :
    (s.openPipe place).pool.isOver = s.pool.isOver := by
  rw [Pool.isOver, Pool.isOver, openPipe, List.all_map]
  congr 1
  funext w
  cases w <;> rfl

/-- Once the workers have come to their end, all that counts is what the loop does. -/
theorem Ending.step {slots : List Int} (hs : s.Ending slots) (hready : s.stage ≠ .ready)
    (hstep : s.perform? a = some t) :
    (∃ choice, a = .loop choice) ∨ t.stage = s.stage ∧ t.Ending slots := by
  by_cases ha : a.isOutside = true
  · obtain ⟨hstage, hpool, hconnection, -⟩ := outside_spec ha hstep
    refine .inr ⟨hstage, by rw [hpool]; exact hs.isOver, hs.once, fun h hopen => hs.due h ?_⟩
    rw [← hconnection]
    exact hopen
  cases perform?_cases hstep with
  | @loop choice => exact .inl ⟨choice, rfl⟩
  | openPipe place =>
    exact .inr ⟨rfl, (isOver_openPipe place).trans hs.isOver, hs.once, hs.due⟩
  | worker hworker =>
    rw [workerStep_of_isOver hs.isOver] at hworker
    cases hworker
  | serve hready' => exact absurd hready' hready
  | drop hready' => exact absurd hready' hready
  | _ => exact absurd rfl ha

/-! ## What an action preserves, stage by stage

Each part of its life leads to itself or to the next. -/

theorem Unopened.vacant (hs : s.Unopened) (hstage : s.stage.Idle)
    (hpoll : s.hub.kernel.poll = {}) (h : Handle) : s.Vacant h := by
  refine ⟨hs.connection h, ?_⟩
  rw [places, hpoll, hstage.events, hstage.task, hs.queue, Pool.jobsFor, Pool.running, hs.workers]
  rfl

/-- To start to serve leads to a server in order without connections, or to one that is gone. -/
theorem Unopened.serve (hs : s.Unopened) : s.serve.Coherent := by
  have hover : s.pool.isOver = true := by
    rw [Pool.isOver, hs.workers]
    rfl
  -- with no worker spawned and no slot open there is nothing to wait for
  have hending : ∀ k, (s.withKernel k).Ending [] := by
    intro k
    refine ⟨hover, List.nodup_nil, fun h hopen => ?_⟩
    have hnone : (s.withKernel k).hub.connection? h = none := hs.connection h
    rw [hnone] at hopen
    cases hopen
  rcases Kernel.createPoll_cases s.hub.kernel with
    ⟨reason, k, heq, -⟩ | ⟨k, heq, hpoll, hev, -⟩
  · simp only [Server.serve, heq]
    exact coherent_leave rfl (hending k)
  · simp only [Server.serve, heq]
    split
    · have hempty : ∀ d, k.poll.registrations.get? d = none := fun d => by rw [hpoll]; rfl
      have hvacant := Unopened.vacant
        (s := { s.withKernel k with
          poll := s.hub.kernel.nextDescriptor, stage := .spawning s.config.workers })
        ⟨hs.connection, hs.queue, hs.workers, hev.honest hs.honest⟩ ⟨rfl, fun _ => rfl, rfl⟩ hpoll
      refine .serving rfl ⟨⟨hev.honest hs.honest, fun d g hg => ?_, fun d g hg => ?_⟩,
        fun h => .inl (hvacant h), by rintro d ⟨⟩, by rintro e ⟨⟩⟩ fun _ => hvacant
      · cases (hempty d).symm.trans hg
      · cases (hempty d).symm.trans hg
    · exact coherent_leave rfl (hending _)

/-- Before a server serves nothing happens to its table and its pool. -/
theorem Unopened.step (hs : s.Unopened) (hstage : s.stage = .ready)
    (hstep : s.perform? a = some t) : t.Coherent := by
  by_cases ha : a.isOutside = true
  · obtain ⟨hstage', hpool, hconnection, hpassive⟩ := outside_spec ha hstep
    refine .unopened (hstage'.trans hstage)
      ⟨fun h => (hconnection h).trans (hs.connection h), ?_, ?_,
      hpassive.evolves.honest hs.honest⟩
    · rw [hpool]
      exact hs.queue
    · rw [hpool]
      exact hs.workers
  cases perform?_cases hstep with
  | serve => exact hs.serve
  | drop =>
    refine coherent_leave rfl ⟨?_, List.nodup_nil, fun h hopen => ?_⟩
    · rw [Pool.isOver, hs.workers]
      rfl
    · rw [hs.connection] at hopen
      cases hopen
  | loop hloop => cases (loopStep_of_ready hstage _).symm.trans hloop
  | worker hworker => cases (workerStep_of_nil hs.workers _).symm.trans hworker
  | openPipe place =>
    refine .unopened hstage ⟨hs.connection, hs.queue, ?_, hs.honest⟩
    simp [openPipe, hs.workers]
  | _ => exact absurd rfl ha

/-- Only the loop goes from one stage to the next. -/
theorem stage_perform (hready : s.stage ≠ .ready) (hloop : ∀ choice, a ≠ .loop choice)
    (hstep : s.perform? a = some t) : t.stage = s.stage := by
  by_cases ha : a.isOutside = true
  · exact (outside_spec ha hstep).1
  cases perform?_cases hstep with
  | @loop choice => exact absurd rfl (hloop choice)
  | worker hworker => rw [workerStep_eq hworker]
  | openPipe => rfl
  | serve hready' => exact absurd hready' hready
  | drop hready' => exact absurd hready' hready
  | _ => exact absurd rfl ha

/-- Where the loop of a server that serves goes: on serving, or on to closing when the workers have
come to their end. -/
theorem stage_loopStep {choice : Nat} (hserving : s.stage.isServing = true)
    (hstep : s.loopStep choice = some t) :
    (t.stage.isServing = true ∧ (t.stage.isEarly = true → s.stage.isEarly = true)) ∨
      ∃ result, s.pool.isOver = true ∧ t = s.goTo (.closing s.hub.slots.keys result) := by
  cases loopStep_cases hstep with
  | done => exact .inl ⟨rfl, by rintro ⟨⟩⟩
  | look => exact .inl ⟨rfl, by rintro ⟨⟩⟩
  | work => exact .inl ⟨rfl, by rintro ⟨⟩⟩
  | spawned hstage =>
    rw [hstage]
    exact .inl ⟨rfl, fun _ => rfl⟩
  | spawn hstage =>
    rw [hstage, spawnWorker]
    split <;> exact .inl ⟨rfl, fun _ => rfl⟩
  | addListener hstage =>
    rw [hstage, addStanding]
    split <;> exact .inl ⟨rfl, fun _ => rfl⟩
  | addWaker hstage =>
    rw [hstage, addStanding]
    split <;> exact .inl ⟨rfl, fun _ => rfl⟩
  | check =>
    cases s.stop.flag with
    | true => exact .inl ⟨rfl, by rintro ⟨⟩⟩
    | false => exact .inl ⟨rfl, by rintro ⟨⟩⟩
  | poll =>
    rw [beginWait]
    split <;> exact .inl ⟨rfl, by rintro ⟨⟩⟩
  | fetch => exact .inl ⟨rfl, by rintro ⟨⟩⟩
  | stop => exact .inl ⟨rfl, by rintro ⟨⟩⟩
  | released => exact .inl ⟨rfl, by rintro ⟨⟩⟩
  | release => exact .inl ⟨rfl, by rintro ⟨⟩⟩
  | @join result _ hover => exact .inr ⟨result, hover, rfl⟩
  | _ hstage => rw [hstage] at hserving; cases hserving

/-- **While a server serves, a step keeps all in order**; when it comes to closing, the table
lists what is to be closed. -/
theorem Orderly.coherent_step (hs : s.Orderly) (hserving : s.stage.isServing = true)
    (hearly : s.stage.isEarly = true → ∀ h, s.Vacant h) (hstep : s.perform? a = some t) :
    t.Coherent := by
  have hperformed := hs.perform hserving hearly hstep
  have hready : s.stage ≠ .ready := fun hstage => by rw [hstage] at hserving; cases hserving
  have hgoesOn : t.stage.isServing = true → (t.stage.isEarly = true → s.stage.isEarly = true) →
      t.Coherent := by
    intro hserving' hearly'
    refine .serving hserving' (hperformed.orderly hs) fun ht h => ?_
    rcases hperformed.vacant h (hearly (hearly' ht) h) with hv | hopens
    · exact hv
    · obtain ⟨rest, peer, hstage, -⟩ := hopens
      have hstage' := hearly' ht
      rw [hstage] at hstage'
      cases hstage'
  by_cases hloop : ∃ choice, a = .loop choice
  · obtain ⟨choice, rfl⟩ := hloop
    rcases stage_loopStep hserving hstep with ⟨hserving', hearly'⟩ | ⟨result, hover, rfl⟩
    · exact hgoesOn hserving' hearly'
    · refine .closing rfl ⟨hover, s.hub.slots.nodup_keys, fun h hopen => ?_⟩
      obtain ⟨c, hc⟩ := Option.isSome_iff_exists.mp hopen
      obtain ⟨-, hslot, -⟩ := Hub.connection?_eq_some.mp hc
      exact DescriptorMap.mem_keys_of_get? hslot
  · have hstage := stage_perform hready (fun choice ha => hloop ⟨choice, ha⟩) hstep
    refine hgoesOn ?_ fun ht => ?_
    · rw [hstage]
      exact hserving
    · rw [← hstage]
      exact ht

/-- Each slot is closed in its turn. -/
theorem Ending.close {slot : Int} {slots : List Int} (hs : s.Ending (slot :: slots))
    {stage : Stage} : Ending { s with hub := s.hub.close ⟨slot⟩, stage } slots := by
  obtain ⟨-, honce⟩ := List.nodup_cons.mp hs.once
  refine ⟨hs.isOver, honce, fun h hopen => ?_⟩
  by_cases hh : h = ⟨slot⟩
  · rw [hh, Hub.connection?_close_self] at hopen
    cases hopen
  · rw [Hub.connection?_close_ne hh] at hopen
    rcases List.mem_cons.mp (hs.due h hopen) with hslot | hslot
    · exact absurd (congrArg Handle.mk hslot) hh
    · exact hslot

/-- **What holds in every state is preserved by every action.** The cases are those of the stage:
before a server serves, while it does, while it closes what is open, and after that. -/
theorem Coherent.step (hs : s.Coherent) (hstep : s.perform? a = some t) : t.Coherent := by
  cases hs with
  | unopened hstage hs => exact hs.step hstage hstep
  | serving hserving hs hearly => exact hs.coherent_step hserving hearly hstep
  | closing hstage hs =>
    rename_i slots result
    rcases hs.step (by rw [hstage]; rintro ⟨⟩) hstep with ⟨choice, rfl⟩ | ⟨hstage', hs'⟩
    · cases slots with
      | nil =>
        simp only [perform?, loopStep, hstage, Option.some.injEq] at hstep
        obtain rfl := hstep
        exact .ended rfl ⟨hs.isOver, hs.once, hs.due⟩
      | cons slot slots =>
        simp only [perform?, loopStep, hstage, Option.some.injEq] at hstep
        obtain rfl := hstep
        exact .closing rfl hs.close
    · exact .closing (hstage'.trans hstage) hs'
  | ended hstage hs =>
    rcases hs.step (fun hready => by rw [hready] at hstage; cases hstage) hstep with
      ⟨choice, rfl⟩ | ⟨hstage', hs'⟩
    · cases loopStep_cases hstep with
      | leave => exact coherent_leave rfl ⟨hs.isOver, hs.once, hs.due⟩
      | _ hbefore =>
        rw [hbefore] at hstage
        cases hstage
    · refine .ended ?_ hs'
      rw [hstage']
      exact hstage

/-- A server that has been set up has opened nothing. -/
theorem ofListener_spec {k : Kernel} {listener : Int} {config : Config}
    (hstart : ofListener k listener config = .ok start) :
    k.Evolves start.hub.kernel ∧ start.hub.root = config.root ∧ start.stage = .ready ∧
      (start.hub.kernel.Honest → start.Unopened) := by
  have hev := k.evolves_createPipe
  simp only [ofListener] at hstart
  split at hstart
  · cases hstart
  · split at hstart
    · cases hstart
    · rename_i heq
      obtain rfl := Except.ok.inj hstart
      rw [heq] at hev
      refine ⟨hev, rfl, rfl, fun hk => ⟨fun h => ?_, rfl, rfl, hk⟩⟩
      simp [Hub.connection?, DescriptorMap.get?]

theorem coherent_ofListener {k : Kernel} {listener : Int} {config : Config}
    (hstart : ofListener k listener config = .ok start) (hk : k.Honest) : start.Coherent := by
  obtain ⟨hev, -, hstage, hunopened⟩ := ofListener_spec hstart
  exact .unopened hstage (hunopened (hev.honest hk))

theorem Coherent.reachable (hstart : start.Coherent) (hs : Reachable start s) : s.Coherent := by
  induction hs with
  | refl => exact hstart
  | step _ hstep ih => exact ih.step hstep

/-- Before the server serves nothing is open. -/
theorem Coherent.ready (hs : s.Coherent) (hstage : s.stage = .ready) : s.Unopened := by
  cases hs with
  | unopened _ hs => exact hs
  | serving hserving => rw [hstage] at hserving; cases hserving
  | closing hclosing => rw [hstage] at hclosing; cases hclosing
  | ended hended => rw [hstage] at hended; cases hended

/-- While it serves all is in order. -/
theorem Coherent.orderly (hs : s.Coherent) (hserving : s.stage.isServing = true) :
    s.Orderly ∧ (s.stage.isEarly = true → ∀ h, s.Vacant h) := by
  cases hs with
  | unopened hstage => rw [hstage] at hserving; cases hserving
  | serving _ hs hearly => exact ⟨hs, hearly⟩
  | closing hstage => rw [hstage] at hserving; cases hserving
  | ended hended => rw [Stage.not_serving_of_isEnded hended] at hserving; cases hserving

/-- What is being closed is open and due. -/
theorem Coherent.due {slots : List Int} {result : Except ServerError Unit} (hs : s.Coherent)
    (hclosing : s.stage = .closing slots result) : s.Ending slots := by
  cases hs with
  | unopened hstage => rw [hclosing] at hstage; cases hstage
  | serving hserving => rw [hclosing] at hserving; cases hserving
  | closing hstage hs =>
    rw [hclosing] at hstage
    obtain ⟨rfl, -⟩ := Stage.closing.inj hstage
    exact hs
  | ended hended => rw [hclosing] at hended; cases hended

/-- When all has been closed nothing is due. -/
theorem Coherent.finished (hs : s.Coherent) (hended : s.stage.isEnded = true) : s.Ending [] := by
  cases hs with
  | unopened hstage => rw [hstage] at hended; cases hended
  | serving hserving => rw [Stage.not_serving_of_isEnded hended] at hserving; cases hserving
  | closing hstage => rw [hstage] at hended; cases hended
  | ended _ hs => exact hs

/-- From the invariant to who owns what, at each stage. -/
theorem Coherent.owned (hs : s.Coherent) : s.Owned where
  exclusive hserving := (hs.orderly hserving).1.exclusive
  steady hserving a t hstep h hh := by
    obtain ⟨horderly, hearly⟩ := hs.orderly hserving
    exact (horderly.perform hserving hearly hstep).steady horderly hh
  closing _ _ := hs.due
  ended := hs.finished

/-- The state after some actions; those that are not possible are left out. -/
def after (s : Server) (actions : List Action) : Server :=
  actions.foldl (fun s action => (s.perform? action).getD s) s

/-- Actions that are possible lead from a state that can be reached to another one. -/
theorem Reachable.after (hs : Reachable start s) (actions : List Action) :
    Reachable start (s.after actions) := by
  induction actions generalizing s with
  | nil => exact hs
  | cons action rest ih =>
    refine ih (s := (s.perform? action).getD s) ?_
    cases hstep : s.perform? action with
    | none => exact hs
    | some t => exact hs.step hstep

/-- **Every open connection has one owner**, in every state that a server can reach, under every
schedule and whatever the kernel lets fail. -/
theorem exclusive_ownership {k : Kernel} {listener : Int} {config : Config}
    (hstart : ofListener k listener config = .ok start) (hk : k.Honest)
    (hs : Reachable start s) : s.Owned :=
  ((coherent_ofListener hstart hk).reachable hs).owned

/-- A kernel with a listener and nothing else. -/
def listening : Kernel := { descriptors := DescriptorMap.set {} 3 (.listener {}) }

/-- Room for one connection, and one worker. -/
def smallest : Config :=
  { host := "", port := 0, root := ".", workers := 1, maxRequests := 1, maxConnections := 1,
    maxEvents := 8 }

/-- A server starts, and its first client is accepted. -/
def firstClient : List Action :=
  [.serve, .connect] ++ List.replicate 12 (.loop 0)

/-- The first client has the number 7, and its connection is in the poll set, armed for
reading. -/
theorem exclusive_ownership_first_client : ∃ start, ofListener listening 3 smallest = .ok start ∧
    listening.Honest ∧ Reachable start (start.after firstClient) ∧
    (start.after firstClient).stage.isServing = true ∧
    (start.after firstClient).places ⟨7⟩ = (Holder.poll .read).places ∧
    (start.after firstClient).Owned := by
  have hstart : ofListener listening 3 smallest = .ok _ := rfl
  have hk : listening.Honest := fun fault hfault => absurd hfault List.not_mem_nil
  have hs : ∀ start, Reachable start (start.after firstClient) := fun _ =>
    Reachable.refl.after firstClient
  exact ⟨_, hstart, hk, hs _, by decide +kernel, rfl, exclusive_ownership hstart hk (hs _)⟩

end Server

end FileServer
