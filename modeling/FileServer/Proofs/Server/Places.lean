import FileServer.Server.Run
import Mathlib.Data.List.Basic

/-!
# Where a connection can be

Whoever may act on a connection next has its handle: the poll set, in which it is armed; the event
loop, in the events it has fetched or in the task it is at; the queue; or a worker, in its job.
`Places` counts, for one handle, what is found in each of these places, and a `Holder` is one place
together with what its owner means to do.

An event carries a token, and a token leads back to the connection that was registered with it, as
descriptors are numbers of 32 bits (`owner?_token`); those of the listener and of the wake-up pipe
lead to none.
-/

namespace FileServer

/-! ## Tokens

An event names its connection by a token, which is the number of the descriptor. -/

namespace Server

/-- The connection that a token stands for, if it is not the listener's or the wake-up pipe's. -/
def owner? (token : UInt64) : Option Handle :=
  if token = listenerToken ∨ token = wakerToken then none else some (.ofToken token)

/-- The token of a descriptor is the number of the descriptor. -/
theorem toNat_token {n : Nat} (h : n < 0x80000000) : (Handle.token ⟨n⟩).toNat = n := by
  have hn : ((n : Int) % 2 ^ 64).toNat = n := by omega
  rw [Handle.token, UInt64.ofInt, hn, UInt64.toNat_ofNat']
  omega

/-- The descriptor can be got back from its token. -/
theorem ofToken_token {n : Nat} (h : n < 0x80000000) : Handle.ofToken (Handle.token ⟨n⟩) = ⟨n⟩ := by
  have htoken : Handle.token ⟨n⟩ = UInt64.ofNat n := by
    apply UInt64.toNat_inj.mp
    rw [toNat_token h, UInt64.toNat_ofNat']
    omega
  have hint : (Int32.ofNat n).toInt = n := Int32.toInt_ofNat_of_lt h
  rw [Handle.ofToken, htoken, UInt64.toUInt32_ofNat']
  exact congrArg Handle.mk hint

/-- The token of a descriptor leads back to it. -/
theorem owner?_token {h : Handle} (hnonneg : 0 ≤ h.descriptor)
    (hlt : h.descriptor < Kernel.descriptorLimit) : owner? h.token = some h := by
  obtain ⟨descriptor⟩ := h
  obtain ⟨n, rfl⟩ := Int.eq_ofNat_of_zero_le hnonneg
  have hn : n < 0x80000000 := by
    rw [Kernel.descriptorLimit] at hlt
    dsimp only at hlt
    omega
  have hlistener : listenerToken.toNat = 2 ^ 64 - 1 := rfl
  have hwaker : wakerToken.toNat = 2 ^ 64 - 2 := rfl
  have hnat := toNat_token hn
  rw [owner?, if_neg, ofToken_token hn]
  rintro (heq | heq)
  · rw [heq, hlistener] at hnat
    omega
  · rw [heq, hwaker] at hnat
    omega

end Server

/-- A registration for one event has the token of its connection; one that reports every change is
the listener's or the wake-up pipe's. -/
structure Registration.Names (g : Registration) (d : Int) : Prop where
  oneShot : g.oneShot = true → Server.owner? g.token = some ⟨d⟩
  standing : g.oneShot = false → Server.owner? g.token = none

/-- A connection is registered in its own name. -/
theorem Handle.registration_names {h : Handle} (hnonneg : 0 ≤ h.descriptor)
    (hlt : h.descriptor < Kernel.descriptorLimit) (interest : Interest) :
    (h.registration interest).Names h.descriptor :=
  ⟨fun _ => Server.owner?_token hnonneg hlt, by rintro ⟨⟩⟩

/-- The listener and the wake-up pipe are registered in no connection's name. -/
theorem Server.standing_names {token : UInt64} (h : token = listenerToken ∨ token = wakerToken)
    (d : Int) : (standing token).Names d :=
  ⟨by rintro ⟨⟩, fun _ => if_pos h⟩

/-! ## Places

Where handles are found: in the poll set, in the events of a batch, in the task of the loop, in the
queue, and in the jobs of the workers. -/

/-- The connection that a task is about, if it is about one that is open. -/
def Task.handle? : Task → Option Handle
  | .register h | .giveUp h | .read h | .submit h | .resume h | .rearm h _ | .close h => some h
  | _ => none

/-- Who has a connection's handle, and what for. -/
inductive Holder
  /-- the poll set, in which the connection is armed -/
  | poll (interest : Interest)
  /-- the event loop, in an event that it has not looked at -/
  | event (ready : Readiness)
  /-- the event loop, in its task -/
  | loop (task : Task)
  /-- the queue -/
  | queue
  /-- a worker, in its job -/
  | worker (job : Job)
  deriving DecidableEq

/-- What is found about one connection in each of the places where its handle can be. -/
structure Places where
  armed : Option Interest := none
  events : List Readiness := []
  task : Option Task := none
  queued : Nat := 0
  jobs : List Job := []

/-- The places when the handle is in one of them only. -/
def Holder.places : Holder → Places
  | poll interest => { armed := some interest }
  | event ready => { events := [ready] }
  | loop task => { task := some task }
  | queue => { queued := 1 }
  | worker job => { jobs := [job] }

/-- What a connection is armed for. -/
def DescriptorMap.armed (registrations : DescriptorMap Registration) (h : Handle) :
    Option Interest :=
  (registrations.get? h.descriptor).bind fun g =>
    if g.oneShot && g.armed then some g.interest else none

/-- What some events say about a connection. -/
def eventsFor (events : List Event) (h : Handle) : List Readiness :=
  (events.filter fun e => Server.owner? e.token = some h).map Event.ready

/-- The events that have been fetched and not been looked at. -/
def Stage.events : Stage → List Event
  | .batch rest _ => rest
  | _ => []

/-- The task that the loop is at. -/
def Stage.task? : Stage → Option Task
  | .batch _ task => some task
  | _ => none

/-- The jobs that are about a connection. -/
def Pool.jobsFor (p : Pool Handle Job) (h : Handle) : List Job :=
  p.running.filter fun job => job.handle = h

/-- What is found about a connection in each place. -/
def Server.places (s : Server) (h : Handle) : Places where
  armed := s.hub.kernel.poll.registrations.armed h
  events := eventsFor s.stage.events h
  task := s.stage.task?.filter fun task => task.handle? = some h
  queued := s.pool.queue.count h
  jobs := s.pool.jobsFor h

/-! ## Jobs

A worker that takes up, changes or ends a job changes what is found of one handle. -/

/-- What a worker is at, if it is at something. -/
def Worker.job? {ρ : Type} : Worker ρ → Option ρ
  | .busy progress => some progress
  | _ => none

namespace Pool

variable {p : Pool Handle Job} {i : Nat} {w : Worker Job} {h : Handle}

theorem running_eq {α ρ : Type} (p : Pool α ρ) : p.running = p.workers.filterMap Worker.job? := by
  simp only [running]
  congr 1

/-- One worker's job among those of the others: only that changes when the worker goes on. -/
theorem jobsFor_setWorker (hw : p.workers[i]? = some w) (h : Handle) :
    ∃ before after, p.jobsFor h = before ++ w.job?.toList.filter (·.handle = h) ++ after ∧
      ∀ w', (p.setWorker i w').jobsFor h =
        before ++ w'.job?.toList.filter (·.handle = h) ++ after := by
  obtain ⟨hi, hget⟩ := List.getElem?_eq_some_iff.mp hw
  have hone : ∀ v : Worker Job, [v].filterMap Worker.job? = v.job?.toList := by
    intro v
    cases v <;> rfl
  refine ⟨((p.workers.take i).filterMap Worker.job?).filter (·.handle = h),
    ((p.workers.drop (i + 1)).filterMap Worker.job?).filter (·.handle = h), ?_, fun w' => ?_⟩
  · have hsplit : p.workers = p.workers.take i ++ ([w] ++ p.workers.drop (i + 1)) := by
      rw [← hget, List.singleton_append, ← List.drop_eq_getElem_cons hi, List.take_append_drop]
    rw [jobsFor, running_eq, hsplit, List.filterMap_append, List.filterMap_append, hone,
      List.filter_append, List.filter_append, ← List.append_assoc, ← hsplit]
  · rw [jobsFor, running_eq, setWorker, List.set_eq_take_append_cons_drop, if_pos hi,
      ← List.singleton_append, List.filterMap_append, List.filterMap_append, hone,
      List.filter_append, List.filter_append, ← List.append_assoc]

/-- A worker that goes on with nothing about a connection, and was at nothing about it, changes
nothing there. -/
theorem jobsFor_setWorker_ne (hw : p.workers[i]? = some w) {w' : Worker Job}
    (hne : ∀ job, w.job? = some job → job.handle ≠ h)
    (hne' : ∀ job, w'.job? = some job → job.handle ≠ h) :
    (p.setWorker i w').jobsFor h = p.jobsFor h := by
  have hnone : ∀ v : Worker Job, (∀ job, v.job? = some job → job.handle ≠ h) →
      v.job?.toList.filter (·.handle = h) = [] := by
    intro v hv
    cases hjob : v.job? with
    | none => rfl
    | some job => simp [hv job hjob]
  obtain ⟨before, after, hbefore, hafter⟩ := jobsFor_setWorker hw h
  rw [hafter, hbefore, hnone w hne, hnone w' hne']

/-- The only job about a connection is replaced by what its worker does next about it. -/
theorem jobsFor_setWorker_self {job : Job} (hw : p.workers[i]? = some (.busy job))
    (hone : p.jobsFor job.handle = [job]) (w' : Worker Job) :
    (p.setWorker i w').jobsFor job.handle =
      w'.job?.toList.filter (·.handle = job.handle) := by
  obtain ⟨before, after, hbefore, hafter⟩ := jobsFor_setWorker hw job.handle
  have hself : (Worker.busy job).job?.toList.filter (·.handle = job.handle) = [job] := by
    simp [Worker.job?]
  have hlength := congrArg List.length (hbefore.symm.trans hone)
  rw [hself, List.length_append, List.length_append, List.length_singleton] at hlength
  rw [hafter, List.eq_nil_of_length_eq_zero (l := before) (by omega),
    List.eq_nil_of_length_eq_zero (l := after) (by omega), List.nil_append, List.append_nil]

/-- A worker that takes up a connection that no other is at is alone with it. -/
theorem jobsFor_setWorker_new {job : Job} (hw : p.workers[i]? = some w) (hidle : w.job? = none)
    (hnone : p.jobsFor job.handle = []) :
    (p.setWorker i (.busy job)).jobsFor job.handle = [job] := by
  obtain ⟨before, after, hbefore, hafter⟩ := jobsFor_setWorker hw job.handle
  rw [hnone, hidle] at hbefore
  obtain ⟨hleft, hright⟩ := List.append_eq_nil_iff.mp hbefore.symm
  obtain ⟨hleft, -⟩ := List.append_eq_nil_iff.mp hleft
  rw [hafter, hleft, hright]
  simp [Worker.job?]

theorem mem_jobsFor {job : Job} (hw : p.workers[i]? = some (.busy job)) :
    job ∈ p.jobsFor job.handle := by
  rw [jobsFor, running_eq, List.mem_filter, List.mem_filterMap]
  exact ⟨⟨.busy job, List.mem_of_getElem? hw, rfl⟩, by simp⟩

/-- Each job about a connection is some worker's. -/
theorem exists_worker {job : Job} (hjob : job ∈ p.jobsFor h) :
    ∃ i : Nat, p.workers[i]? = some (.busy job) := by
  rw [jobsFor, running_eq, List.mem_filter, List.mem_filterMap] at hjob
  obtain ⟨⟨w, hw, hbusy⟩, -⟩ := hjob
  cases w with
  | busy job' =>
    obtain rfl := Option.some.inj hbusy
    exact List.getElem?_of_mem hw
  | _ => cases hbusy

end Pool

/-! ## Fetching events

An event that is fetched takes the place of the registration that it disarms. -/

/-- What is reported to a connection that is armed. -/
def Interest.report (interest : Interest) (r : Readiness) : Readiness :=
  { r with
    input := r.input && interest = .read
    output := r.output && interest = .write }

/-- Events have been fetched: of every connection that has an event, and it has only one, the
registration was armed and is armed no more. -/
structure Collected (now : Int → Readiness) (before : DescriptorMap Registration)
    (events : List Event) (after : DescriptorMap Registration) : Prop where
  any : ∀ e ∈ events, e.ready.any = true
  registered : ∀ d, (after.get? d).isSome = (before.get? d).isSome
  names : ∀ d g, after.get? d = some g → g.Names d
  places : ∀ h, (after.armed h = before.armed h ∧ eventsFor events h = []) ∨
    ∃ interest, before.armed h = some interest ∧ after.armed h = none ∧
      eventsFor events h = [interest.report (now h.descriptor)] ∧
      (interest.report (now h.descriptor)).any = true

theorem eventsFor_cons_self {e : Event} {h : Handle} (he : Server.owner? e.token = some h)
    (events : List Event) : eventsFor (e :: events) h = e.ready :: eventsFor events h := by
  rw [eventsFor, List.filter_cons_of_pos (by simpa using he)]
  rfl

theorem eventsFor_cons_ne {e : Event} {h : Handle} (he : Server.owner? e.token ≠ some h)
    (events : List Event) : eventsFor (e :: events) h = eventsFor events h := by
  rw [eventsFor, List.filter_cons_of_neg (by simpa using he)]
  rfl

theorem DescriptorMap.armed_set_ne (registrations : DescriptorMap Registration) {d : Int}
    (g : Registration) {h : Handle} (hd : h.descriptor ≠ d) :
    (registrations.set d g).armed h = registrations.armed h := by
  rw [armed, armed, get?_set_ne _ _ hd]

theorem DescriptorMap.armed_set_self (registrations : DescriptorMap Registration)
    (g : Registration) (h : Handle) :
    (registrations.set h.descriptor g).armed h =
      if g.oneShot && g.armed then some g.interest else none := by
  rw [armed, get?_set_self]
  rfl

/-- Only a registration that is armed reports anything. -/
theorem Registration.armed_of_report {g : Registration} {r : Readiness}
    (h : (g.report r).any = true) : g.armed = true ∧ g.report r = g.interest.report r := by
  simp only [report] at h ⊢
  split
  · rename_i harmed
    exact ⟨harmed, rfl⟩
  · rename_i harmed
    rw [if_neg harmed] at h
    cases h

/-- One descriptor is looked at, and has something to report. -/
theorem Collected.cons {now : Int → Readiness} {before after : DescriptorMap Registration}
    {d : Int} {g : Registration} {events : List Event} (hg : before.get? d = some g)
    (hnames : g.Names d) (hany : (g.report (now d)).any = true)
    (h : Collected now (before.set d { g with armed := g.armed && !g.oneShot }) events after) :
    Collected now before ({ token := g.token, ready := g.report (now d) } :: events) after := by
  obtain ⟨harmed, hreport⟩ := Registration.armed_of_report hany
  refine ⟨fun e he => ?_, fun e => ?_, h.names, fun k => ?_⟩
  · rcases List.mem_cons.mp he with rfl | he
    · exact hany
    · exact h.any e he
  · rw [h.registered]
    by_cases he : e = d
    · rw [he, hg, DescriptorMap.get?_set_self]
      rfl
    · rw [DescriptorMap.get?_set_ne _ _ he]
  · cases hshot : g.oneShot with
    | false =>
      -- an event of the listener or of the wake-up pipe
      have hother : Server.owner? g.token ≠ some k := by
        rw [hnames.standing hshot]
        rintro ⟨⟩
      rw [eventsFor_cons_ne hother]
      have hsame : (before.set d { g with armed := g.armed && !g.oneShot }).armed k =
          before.armed k := by
        by_cases hk : k.descriptor = d
        · rw [← hk, DescriptorMap.armed_set_self, DescriptorMap.armed, hk, hg]
          simp [hshot]
        · exact DescriptorMap.armed_set_ne _ _ hk
      rw [← hsame]
      exact h.places k
    | true =>
      by_cases hk : k.descriptor = d
      · have howner : Server.owner? g.token = some k := by
          rw [hnames.oneShot hshot, ← hk]
        have hbefore : before.armed k = some g.interest := by
          rw [DescriptorMap.armed, hk, hg]
          simp [hshot, harmed]
        have hafter : (before.set d { g with armed := g.armed && !g.oneShot }).armed k = none := by
          rw [← hk, DescriptorMap.armed_set_self]
          simp [hshot]
        rcases h.places k with ⟨hsame, hnone⟩ | ⟨interest, hsome, -⟩
        · refine .inr ⟨g.interest, hbefore, hsame.trans hafter, ?_, ?_⟩
          · rw [eventsFor_cons_self howner, hnone, hk]
            exact congrArg (fun r => [r]) hreport
          · rw [hk, ← hreport]
            exact hany
        · rw [hafter] at hsome
          cases hsome
      · have hother : Server.owner? g.token ≠ some k := by
          rw [hnames.oneShot hshot]
          intro heq
          exact hk (congrArg Handle.descriptor (Option.some.inj heq)).symm
        rw [eventsFor_cons_ne hother, ← DescriptorMap.armed_set_ne before _ hk]
        exact h.places k

theorem collected_nothing {now : Int → Readiness} {registrations : DescriptorMap Registration}
    (hnames : ∀ d g, registrations.get? d = some g → g.Names d) :
    Collected now registrations [] registrations :=
  ⟨fun _ he => (List.not_mem_nil he).elim, fun _ => rfl, hnames, fun _ => .inl ⟨rfl, rfl⟩⟩

/-- **Fetching events** takes each connection that has one out of the poll set, and gives it just
one. The induction is along the list of what is to be looked at. -/
theorem collected_collectFrom (now : Int → Readiness) (pending : List Int) (max : Nat)
    (registrations : DescriptorMap Registration)
    (hnames : ∀ d g, registrations.get? d = some g → g.Names d) :
    Collected now registrations (Poll.collectFrom now pending max registrations).1
      (Poll.collectFrom now pending max registrations).2.registrations := by
  fun_induction Poll.collectFrom now pending max registrations with
  | case1 => exact collected_nothing hnames
  | case2 => exact collected_nothing hnames
  | case3 d pending max registrations hnone ih => exact ih hnames
  | case4 d pending max registrations g hg ready hany g' events p hrest ih =>
    have hnames' : ∀ e g₁, (registrations.set d g').get? e = some g₁ → g₁.Names e := by
      intro e g₁ he
      by_cases hed : e = d
      · rw [hed, DescriptorMap.get?_set_self] at he
        obtain rfl := Option.some.inj he
        exact ⟨hed ▸ (hnames d g hg).oneShot, (hnames d g hg).standing⟩
      · rw [DescriptorMap.get?_set_ne _ _ hed] at he
        exact hnames e g₁ he
    have hcollected := ih hnames'
    rw [hrest] at hcollected
    exact hcollected.cons hg (hnames d g hg) hany
  | case5 d pending max registrations g hg ready hany ih => exact ih hnames

end FileServer
