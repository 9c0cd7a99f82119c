import FileServer.Proofs.Server.Actions
import FileServer.Proofs.Server.Rounds
import FileServer.Proofs.Server.WorkerSteps

/-!
# What happens outside

Clients connect and do things to their streams, stops are requested, and named pipes get writers.
None of this moves a handle; only that a job no longer waits for its pipe is seen from within. With
that all actions that are possible while a server serves have been gone through (`Orderly.perform`).

One statement covers all of them but the writers of pipes (`Server.outside_spec`): stage, pool and
table stay as they are, and nothing is written to a stream (`Server.Passive`). The lemmas for
clients say besides what each of them touches: its own stream, or one more that waits to be
accepted.
-/

namespace FileServer

/-- Whether an action is one of a client's, or to do with stopping. -/
def Action.isOutside : Action → Bool
  | .requestStop | .wake | .releaseHandle | .connect | .client .. => true
  | _ => false

namespace Server

variable {s t u : Server} {h g : Handle} {τ : Holder} {c : Connection} {a : Action}

/-! ## Nothing is written

What happens outside, and the end of a server, write nothing to any stream. -/

/-- A step that writes nothing to any stream, and keeps what the server was set up with. -/
structure Passive (s t : Server) : Prop where
  listener : t.listener = s.listener
  root : t.hub.root = s.hub.root
  evolves : s.hub.kernel.Evolves t.hub.kernel
  silent : ∀ n, s.hub.kernel.Silent t.hub.kernel n

namespace Passive

theorem trans (h : s.Passive t) (h' : t.Passive u) : s.Passive u :=
  ⟨h'.listener.trans h.listener, h'.root.trans h.root, h.evolves.trans h'.evolves,
    fun n => (h.silent n).trans (h'.silent n)⟩

theorem of_quiet (hlistener : t.listener = s.listener) (hroot : t.hub.root = s.hub.root)
    (hk : s.hub.kernel.Quiet t.hub.kernel) : s.Passive t :=
  ⟨hlistener, hroot, hk.evolves, hk.silent⟩

/-- To close a descriptor is to write nothing. -/
theorem of_close (hlistener : t.listener = s.listener) (hroot : t.hub.root = s.hub.root) {d : Int}
    (hk : t.hub.kernel = s.hub.kernel.close d) : s.Passive t := by
  refine ⟨hlistener, hroot, ?_, fun n => ?_⟩
  · rw [hk]
    exact Kernel.evolves_close ..
  · rw [hk]
    exact Kernel.silent_close _ d n

/-- To close the wake-up pipe is to close two descriptors. -/
theorem closeWaker (s : Server) : s.Passive s.closeWaker := by
  simp only [Server.closeWaker]
  split
  · have hout : s.Passive (s.withKernel (s.hub.kernel.close s.wakerOut)) := .of_close rfl rfl rfl
    exact hout.trans (.of_close rfl rfl rfl)
  · exact .of_quiet rfl rfl (.refl _)

/-- A server that leaves closes what it listens at. -/
theorem leave (s : Server) (stage : Stage) : s.Passive (s.leave stage) := by
  have hclosed : s.Passive ((s.withKernel (s.hub.kernel.close s.listener)).goTo stage) :=
    .of_close rfl rfl rfl
  exact hclosed.trans (closeWaker _)

/-- To close a connection is to write nothing. -/
theorem closeHub (s : Server) (h : Handle) (stage : Stage) :
    s.Passive { s with hub := s.hub.close h, stage } := by
  cases hc : s.hub.connection? h with
  | none => exact .of_quiet rfl (Hub.close_root ..) (by rw [Hub.close_of_none hc]; exact .refl _)
  | some c =>
    have hkernel := Hub.close_kernel hc
    refine ⟨rfl, Hub.close_root .., ?_, fun n => ?_⟩
    · rw [hkernel]
      exact Kernel.evolves_discard ..
    · rw [hkernel]
      exact Kernel.silent_discard _ _ n

end Passive

theorem connection?_closeWaker (s : Server) (h : Handle) :
    s.closeWaker.hub.connection? h = s.hub.connection? h := by
  rw [closeWaker]
  split <;> rfl

theorem closeWaker_rest (s : Server) :
    s.closeWaker.stage = s.stage ∧ s.closeWaker.pool = s.pool := by
  rw [closeWaker]
  split <;> exact ⟨rfl, rfl⟩

/-- What happens outside changes neither the stage nor the pool nor the table, and writes
nothing. -/
theorem outside_spec (ha : a.isOutside = true) (hstep : s.perform? a = some t) :
    t.stage = s.stage ∧ t.pool = s.pool ∧ (∀ h, t.hub.connection? h = s.hub.connection? h) ∧
      s.Passive t := by
  cases perform?_cases hstep with
  | requestStop => exact ⟨rfl, rfl, fun _ => rfl, .of_quiet rfl rfl (.refl _)⟩
  | wake => exact ⟨rfl, rfl, fun _ => rfl, .of_quiet rfl rfl (Kernel.quiet_wake ..)⟩
  | releaseHandle => exact ⟨rfl, rfl, fun _ => rfl, .of_quiet rfl rfl (.refl _)⟩
  -- the last handle closes the pipe it held, which is not a stream of any client
  | @closeHandle handles =>
    have hless : s.Passive { s with handles } := .of_quiet rfl rfl (.refl _)
    obtain ⟨hstage, hpool⟩ := closeWaker_rest { s with handles }
    exact ⟨hstage, hpool, connection?_closeWaker _, hless.trans (.closeWaker _)⟩
  -- a stream is added or none; those that were there keep their numbers and their bytes
  | connect =>
    rcases Kernel.connect_cases s.hub.kernel s.listener with ⟨n, k, heq, hk⟩ | heq
    · rw [connect, heq]
      refine ⟨rfl, rfl, fun _ => rfl, rfl, rfl, hk.evolves, fun m st hst => ?_⟩
      obtain ⟨hm, -⟩ := List.getElem?_eq_some_iff.mp hst
      exact hk.silent hm st hst
    · rw [connect, heq]
      exact ⟨rfl, rfl, fun _ => rfl, .of_quiet rfl rfl (.refl _)⟩
  | client m act =>
    exact ⟨rfl, rfl, fun _ => rfl, rfl, rfl,
      s.hub.kernel.evolves_asClient m (f := fun st => ((), act.perform st)) act.silent,
      s.hub.kernel.silent_asClient m (f := fun st => ((), act.perform st)) act.silent⟩
  | serve => cases ha
  | drop => cases ha
  | loop => cases ha
  | worker => cases ha
  | openPipe => cases ha

/-! ## Clients and stops

Each action with what it touches, none of which is a handle. -/

/-- A step that leaves the table, the pool and the loop as they are is about no connection. -/
theorem Only.of_outside (hstage : t.stage = s.stage) (hpool : t.pool = s.pool)
    (hlistener : t.listener = s.listener) (hroot : t.hub.root = s.hub.root)
    (hconnection : ∀ h, t.hub.connection? h = s.hub.connection? h)
    (hregistrations : t.hub.kernel.poll.registrations = s.hub.kernel.poll.registrations)
    (hbeside : Beside a s t fun _ => True) : Only a none s t := by
  refine ⟨hlistener, hroot, hbeside.mono fun _ _ => trivial, fun h _ => hconnection h,
    fun h _ => ?_,
    fun h _ _ _ _ => by rw [hregistrations]⟩
  rw [Server.places, Server.places, hstage, hpool, hregistrations]

/-- A step that is about no connection, and keeps stage, table and registrations, leaves
everything in order. -/
theorem Orderly.step_outside (hs : s.Orderly) (ho : Only a none s t) (hstage : t.stage = s.stage)
    (hconnection : ∀ h, t.hub.connection? h = s.hub.connection? h)
    (hregistrations : t.hub.kernel.poll.registrations = s.hub.kernel.poll.registrations)
    (hcandidate : ∀ d, s.Candidate d →
      t.hub.kernel.descriptors.get? d = s.hub.kernel.descriptors.get? d)
    (hev : s.hub.kernel.Evolves t.hub.kernel) (htidy : t.hub.kernel.Tidy) : Step a s t := by
  refine .of_none ho hev htidy (fun d hd => ?_) ?_
  · rw [hstage] at hd
    have hcand := hs.candidate d hd
    obtain ⟨n, hn⟩ := hcand.stream
    refine ⟨⟨n, (Kernel.streamOf?_congr (hcandidate d hcand)).trans hn⟩, ?_,
      (hconnection _).trans hcand.connection, hcand.nonneg, hcand.lt_limit⟩
    rw [hregistrations]
    exact hcand.registration
  · rw [hstage]
    exact hs.events

/-- A step outside that does something quiet with the kernel. -/
theorem Orderly.step_unnoticed (hs : s.Orderly) (ha : ∀ n, a.upon n = id)
    (hstage : t.stage = s.stage)
    (hpool : t.pool = s.pool) (hlistener : t.listener = s.listener)
    (hroot : t.hub.root = s.hub.root)
    (hconnection : ∀ h, t.hub.connection? h = s.hub.connection? h)
    (hk : s.hub.kernel.Quiet t.hub.kernel) : Step a s t :=
  hs.step_outside (.of_outside hstage hpool hlistener hroot hconnection hk.registrations
    (.of_keeps ha fun d _ => (hk.leaves d).toKeeps)) hstage hconnection hk.registrations
    (fun d _ => (hk.leaves d).descriptor) hk.evolves (hs.tidy.quiet hk)

/-- A client touches no stream but its own, and no descriptor. -/
theorem untouched_client (s : Server) (m : Nat) (act : ClientAction) (d : Int) :
    Kernel.Untouched (.client m act) s.hub.kernel
      (s.asClient m fun st => ((), act.perform st)).2.hub.kernel d := by
  have hstreams := s.hub.kernel.asClient_streams m fun st => ((), act.perform st)
  obtain ⟨hsame, -⟩ := s.hub.kernel.asClient_same m fun st => ((), act.perform st)
  refine ⟨congrArg (·.get? d) hsame.descriptors, fun n hn => ⟨hsame.owns hn, ?_⟩⟩
  refine (congrArg (·[n]?) hstreams).trans ?_
  rw [List.getElem?_modify, Action.upon_client]
  by_cases hmn : m = n <;> simp [hmn]

/-- What a client does is about no connection, as seen from within. -/
theorem only_client (s : Server) (m : Nat) (act : ClientAction) :
    Only (.client m act) none s (s.asClient m fun st => ((), act.perform st)).2 := by
  obtain ⟨-, hregistrations, -⟩ := s.hub.kernel.asClient_same m fun st => ((), act.perform st)
  exact .of_outside rfl rfl rfl rfl (fun _ => rfl) hregistrations
    (.kept fun d _ => s.untouched_client m act d)

/-- What a client does is a step: its own stream changes, which every connection allows for. -/
theorem Orderly.step_client (hs : s.Orderly) (m : Nat) (act : ClientAction) :
    Step (.client m act) s (s.asClient m fun st => ((), act.perform st)).2 := by
  have hev := s.hub.kernel.evolves_asClient m (f := fun st => ((), act.perform st)) act.silent
  obtain ⟨hsame, hregistrations, -⟩ := s.hub.kernel.asClient_same m fun st => ((), act.perform st)
  refine hs.step_outside (s.only_client m act) rfl (fun _ => rfl) hregistrations
    (fun d _ => congrArg (·.get? d) hsame.descriptors) hev ?_
  refine hs.tidy.of_same hev (fun d => congrArg (·.get? d) hregistrations) fun d _ _ hd => ?_
  exact (congrArg (fun descriptors => (DescriptorMap.get? descriptors d).isSome)
    hsame.descriptors).trans hd

/-- A client that connects has no descriptor yet, so no connection is concerned. -/
theorem Orderly.step_connect (hs : s.Orderly) : Step .connect s s.connect.2 := by
  rcases Kernel.connect_cases s.hub.kernel s.listener with ⟨n, k, heq, hk⟩ | heq
  · have hconnect : s.connect.2 = s.withKernel k := by rw [connect, heq]
    rw [hconnect]
    refine hs.step_outside (.of_outside rfl rfl rfl rfl (fun _ => rfl) hk.registrations
      (.connected rfl hk)) rfl (fun _ => rfl) hk.registrations (fun d hd => ?_) hk.evolves
      (hs.tidy.connects hk)
    refine hk.others d fun hl => ?_
    obtain ⟨m, hm⟩ := hd.stream
    obtain ⟨l, hlistener⟩ := hk.awaits
    rw [← hl, Kernel.get?_of_streamOf? hm] at hlistener
    cases hlistener
  · have hconnect : s.connect.2 = s := by rw [connect, heq]; rfl
    rw [hconnect]
    exact hs.step_unnoticed (fun _ => rfl) rfl rfl rfl rfl (fun _ => rfl) (.refl _)

/-- A server that serves is not gone, so it holds the pipe itself. -/
theorem isGone_of_isServing (hserving : s.stage.isServing = true) : s.isGone = false := by
  rw [isGone]
  cases hstage : s.stage with
  | _ => first | rfl | (rw [hstage] at hserving; cases hserving)

/-! ## Named pipes

A worker that awaits a writer of a pipe keeps its connection while it does, and afterwards. -/

theorem release_handle (place : List String) (job : Job) :
    (Job.release place job).handle = job.handle := by
  cases job with
  | answer h outcome awaited => cases awaited <;> rfl
  | _ => rfl

/-- A job that is released either stays as it is or goes on to the answer. -/
theorem release_cases (place : List String) (job : Job) :
    Job.release place job = job ∨ ∃ h outcome awaited,
      job = .answer h outcome awaited ∧ Job.release place job = .answer h outcome none := by
  cases job with
  | answer h outcome awaited =>
    cases awaited with
    | none => exact .inl rfl
    | some awaited =>
      simp only [Job.release]
      split
      · exact .inr ⟨h, outcome, some awaited, rfl, rfl⟩
      · exact .inl rfl
  | _ => exact .inl rfl

/-- The jobs of a connection are the same, released or not. -/
theorem jobsFor_openPipe (place : List String) (h : Handle) :
    (s.openPipe place).pool.jobsFor h = (s.pool.jobsFor h).map (Job.release place) := by
  have hrunning : (s.openPipe place).pool.running = s.pool.running.map (Job.release place) := by
    rw [Pool.running_eq, Pool.running_eq, openPipe, List.filterMap_map, List.map_filterMap]
    congr 1
    funext w
    cases w <;> rfl
  rw [Pool.jobsFor, Pool.jobsFor, hrunning, List.filter_map]
  congr 2
  funext job
  simp [release_handle]

/-- A writer opens a named pipe: the jobs that wait for it go on. -/
theorem Orderly.step_openPipe (hs : s.Orderly) (place : List String) :
    Step (.openPipe place) s (s.openPipe place) := by
  have hplaces : ∀ h, (s.openPipe place).places h =
      { s.places h with jobs := (s.places h).jobs.map (Job.release place) } := by
    intro h
    exact congrArg (fun jobs => { s.places h with jobs }) (jobsFor_openPipe place h)
  refine ⟨rfl, rfl, .of_keeps (fun _ => rfl) fun _ _ => .refl .., .refl _, hs.tidy, fun h hv => ?_,
    fun h τ c hstanding => ?_, fun d hd => (hs.candidate d hd).keep (.refl ..) rfl, hs.events⟩
  · refine .inl ⟨hv.connection, ?_⟩
    rw [hplaces, hv.places]
    rfl
  -- only a worker that awaits the pipe is moved, and it stays with its connection
  · have hmoved : ∀ τ' : Holder, { τ.places with jobs := τ.places.jobs.map (Job.release place) } =
        τ'.places → τ'.isRegistered = τ.isRegistered → (s.openPipe place).Standing h τ' c := by
      intro τ' hτ' hregistered
      refine ⟨hstanding.connection, ?_, hstanding.stream, ?_, hstanding.nonneg, hstanding.lt_limit⟩
      · rw [hplaces, hstanding.places]
        exact hτ'
      · rw [hregistered]
        exact hstanding.registration
    have huntouched : Kernel.Untouched (.openPipe place) s.hub.kernel (s.openPipe place).hub.kernel
        h.descriptor := (Kernel.Keeps.refl ..).untouched fun _ => rfl
    cases τ with
    | worker job =>
      rcases release_cases place job with hsame | ⟨g, outcome, awaited, rfl, hreleased⟩
      · exact .stay (hmoved (.worker job) (by simp [Holder.places, hsame]) rfl) huntouched
      · have hg : g = h := by
          have hmem : (Job.answer g outcome awaited) ∈ (s.places h).jobs := by
            rw [hstanding.places]
            exact List.mem_singleton.mpr rfl
          have hhandle := (List.mem_filter.mp hmem).2
          exact of_decide_eq_true hhandle
        subst hg
        exact .released (hmoved (.worker (.answer g outcome none))
          (by simp [Holder.places, hreleased]) rfl) (.refl ..)
    | _ => exact .stay (hmoved _ rfl rfl) huntouched

/-! ## All actions -/

/-- **Every action that is possible while a server serves is a step.** From here on nobody needs
to know how the loop, the workers and the clients do what they do. -/
theorem Orderly.perform (hs : s.Orderly) (hserving : s.stage.isServing = true)
    (hearly : s.stage.isEarly = true → ∀ h, s.Vacant h) (hstep : s.perform? a = some t) :
    Step a s t := by
  cases perform?_cases hstep with
  | serve hready =>
    rw [hready] at hserving
    cases hserving
  | drop hready =>
    rw [hready] at hserving
    cases hserving
  | loop hloop => exact hs.loopStep hserving hearly hloop
  | worker hworker => exact hs.workerStep hworker
  | requestStop => exact hs.step_unnoticed (fun _ => rfl) rfl rfl rfl rfl (fun _ => rfl) (.refl _)
  | wake =>
    exact hs.step_unnoticed (fun _ => rfl) rfl rfl rfl rfl (fun _ => rfl) (Kernel.quiet_wake ..)
  | releaseHandle =>
    exact hs.step_unnoticed (fun _ => rfl) rfl rfl rfl rfl (fun _ => rfl) (.refl _)
  -- while the server serves it has the pipe itself
  | closeHandle hgone =>
    rw [isGone_of_isServing hserving] at hgone
    cases hgone
  | connect => exact hs.step_connect
  | client m act => exact hs.step_client m act
  | openPipe place => exact hs.step_openPipe place

end Server

end FileServer
