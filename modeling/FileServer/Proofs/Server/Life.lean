import FileServer.Proofs.Hub
import FileServer.Proofs.Server.Places

/-!
# The life of a connection

While a server serves, an open connection is held in one place at a time (`Server.Standing`), and a
handle that names no open connection is found nowhere (`Server.Vacant`). A step either leaves a
connection where it is and its stream to its client, or takes it on to its next place; `Passage`
lists how, with what becomes of the connection and of the kernel. A connection comes into being in
the one step that enters it into the table (`Opens`).

`Step` says this of one step for all handles at once. Most of it is said once and for all: a step is
about one handle at most, and the others do not notice (`Only`).

The structures here are what the proofs about single steps, in the modules that follow, have in
common. A task or a job that has visited its connection has done something `About` it, and it is
then `Visited` or `Closed`; either way the step is about that handle alone (`Only`), which leaves
just one connection to be followed to its next place.
-/

namespace FileServer

/-- A client writes nothing for the server. -/
theorem ClientAction.silent (act : ClientAction) (s : Stream) : s.Silent (act.perform s) := by
  cases act with
  | send bytes =>
    simp only [perform, Stream.send]
    split
    · exact .refl s
    · exact ⟨rfl, id⟩
  | receive => exact ⟨rfl, id⟩
  | finish => exact ⟨rfl, id⟩
  | abandon => exact ⟨rfl, id⟩

/-- What an action does to a stream if it is one of its client's. -/
def Action.upon : Action → Nat → Stream → Stream
  | .client m act, n, s => if m = n then act.perform s else s
  | _, _, s => s

theorem Action.upon_client (m n : Nat) (act : ClientAction) :
    (Action.client m act).upon n = if m = n then act.perform else id := by
  funext s
  simp only [Action.upon]
  split <;> rfl

namespace Kernel

/-- What the server counts on from the kernel: control calls are honest, and a registration is that
of an open descriptor and names it. -/
structure Tidy (k : Kernel) : Prop where
  honest : k.Honest
  isOpen : ∀ d g, k.poll.registrations.get? d = some g → (k.descriptors.get? d).isSome
  names : ∀ d g, k.poll.registrations.get? d = some g → g.Names d

namespace Tidy

variable {k k' : Kernel}

/-- A change that keeps the registrations, and closes nothing that is registered, leaves all
tidy. -/
theorem of_same (hk : k.Tidy) (hev : k.Evolves k')
    (hg : ∀ d, k'.poll.registrations.get? d = k.poll.registrations.get? d)
    (hd : ∀ d g, k.poll.registrations.get? d = some g → (k.descriptors.get? d).isSome →
      (k'.descriptors.get? d).isSome) : k'.Tidy := by
  refine ⟨hev.honest hk.honest, fun d g h => ?_, fun d g h => ?_⟩
  · rw [hg] at h
    exact hd d g h (hk.isOpen d g h)
  · rw [hg] at h
    exact hk.names d g h

/-- A change that leaves every descriptor alone. -/
theorem of_leaves (hk : k.Tidy) (hev : k.Evolves k') (h : ∀ d, k.Leaves k' d) : k'.Tidy :=
  hk.of_same hev (fun d => (h d).registration) fun d _ _ hd => by
    rw [(h d).descriptor]
    exact hd

theorem quiet (hk : k.Tidy) (h : k.Quiet k') : k'.Tidy := hk.of_leaves h.evolves h.leaves

/-- To register an open descriptor in its own name leaves all tidy. -/
theorem registers {d : Int} {g : Registration} (hk : k.Tidy) (h : Registers k k' d g)
    (hd : (k.descriptors.get? d).isSome) (hg : g.Names d) : k'.Tidy := by
  refine ⟨h.evolves.honest hk.honest, fun e g' he => ?_, fun e g' he => ?_⟩
  · rw [h.descriptors]
    by_cases hed : e = d
    · exact hed ▸ hd
    · rw [(h.leaves hed).registration] at he
      exact hk.isOpen e g' he
  · by_cases hed : e = d
    · rw [hed, h.self] at he
      exact hed ▸ Option.some.inj he ▸ hg
    · rw [(h.leaves hed).registration] at he
      exact hk.names e g' he

/-- To give one up leaves all tidy, as its registration goes along. -/
theorem discard {d : Int} {n : Nat} (hk : k.Tidy) (hd : k.streamOf? d = some n) :
    (k.discard d).Tidy := by
  have hget := get?_of_streamOf? hd
  have hpoll : k.descriptors.get? d ≠ some .poll := by
    rw [hget]
    rintro ⟨⟩
  have hgone := discard_self (k := k) (d := d) (by rw [hget]; rfl)
  refine ⟨(evolves_discard k d).honest hk.honest, fun e g he => ?_, fun e g he => ?_⟩
  · by_cases hed : e = d
    · rw [hed, hgone.2] at he
      cases he
    · rw [(leaves_discard hed hpoll).descriptor]
      rw [(leaves_discard hed hpoll).registration] at he
      exact hk.isOpen e g he
  · by_cases hed : e = d
    · rw [hed, hgone.2] at he
      cases he
    · rw [(leaves_discard hed hpoll).registration] at he
      exact hk.names e g he

/-- Reads and writes leave all tidy, as they concern no registration. -/
theorem putWire (hk : k.Tidy) {d : Int} {w : Wire} (hw : (k.wire d).Spent w) :
    (k.putWire d w).Tidy := by
  obtain ⟨hsame, hpoll, -⟩ := putWire_spec k d w
  refine hk.of_same (evolves_putWire hw) (fun e => by rw [hpoll]) fun e _ _ he => ?_
  rw [hsame.descriptors]
  exact he

/-- Accepting a client leaves all tidy: its number is new, and not registered. -/
theorem accepts {listener d : Int} {n : Nat} (hk : k.Tidy) (h : Accepts k k' listener d n) :
    k'.Tidy := by
  refine hk.of_same h.evolves (fun e => by rw [h.registrations]) fun e g _ he => ?_
  by_cases hd : e = d
  · rw [hd, h.free] at he
    cases he
  · by_cases hl : e = listener
    · obtain ⟨l, hl'⟩ := h.listens
      rw [hl, hl']
      rfl
    · rw [h.others e hd hl]
      exact he

/-- A client who connects leaves all tidy, for it gets no descriptor. -/
theorem connects {listener : Int} {n : Nat} (hk : k.Tidy) (h : Connects k k' listener n) :
    k'.Tidy := by
  refine hk.of_same h.evolves (fun e => by rw [h.registrations]) fun e g _ he => ?_
  by_cases hl : e = listener
  · obtain ⟨l, hl'⟩ := h.listens
    rw [hl, hl']
    rfl
  · rw [h.others e hl]
    exact he

/-- A number that is free is not registered. -/
theorem unregistered (hk : k.Tidy) {d : Int} (h : k.descriptors.get? d = none) :
    k.poll.registrations.get? d = none := by
  cases hg : k.poll.registrations.get? d with
  | none => rfl
  | some g =>
    have hopen := hk.isOpen d g hg
    rw [h] at hopen
    cases hopen

end Tidy

/-- Nobody but their clients touches the streams behind a descriptor. -/
structure Untouched (a : Action) (k k' : Kernel) (d : Int) : Prop where
  descriptor : k'.descriptors.get? d = k.descriptors.get? d
  owned : ∀ n, k.Owns d n → k'.Owns d n ∧ k'.streams[n]? = k.streams[n]?.map (a.upon n)

/-- What keeps a descriptor and its stream, in a step that is no client's, leaves them
untouched. -/
theorem Keeps.untouched {k k' : Kernel} {d : Int} {a : Action} (h : k.Keeps k' d)
    (ha : ∀ n, a.upon n = id) : Untouched a k k' d := by
  refine ⟨h.descriptor, fun n hn => ?_⟩
  obtain ⟨hn', hstream⟩ := h.owned n hn
  rw [ha, Option.map_id]
  exact ⟨hn', hstream⟩

end Kernel

/-- Whether a holder's connection has a registration: only one that has just been accepted has
none. -/
def Holder.isRegistered : Holder → Bool
  | .loop (.register _) | .loop (.giveUp _) => false
  | _ => true

/-- A holder that is about to close its connection. -/
inductive Holder.Closes (h : Handle) : Holder → Prop
  | unregistered : Closes h (.loop (.giveUp h))
  | loop : Closes h (.loop (.close h))
  | worker : Closes h (.worker (.close h))
  | unarmed : Closes h (.worker (.giveUp h))

/-- A holder that is about to arm its connection, and what comes of it if that fails. -/
inductive Holder.Arms (h : Handle) : Holder → Interest → Holder → Prop
  | register : Arms h (.loop (.register h)) .read (.loop (.giveUp h))
  | loop (interest : Interest) : Arms h (.loop (.rearm h interest)) interest (.loop (.close h))
  | worker (interest : Interest) : Arms h (.worker (.rearm h interest)) interest
    (.worker (.giveUp h))

/-- From the places in which a handle is found its holder can be told. -/
theorem Holder.places_injective {τ τ' : Holder} (h : τ.places = τ'.places) : τ = τ' := by
  cases τ <;> cases τ' <;> simp_all [Holder.places]

/-- What an event that has something to say calls for. -/
def Server.eventTask (h : Handle) (r : Readiness) : Task :=
  if r.isOver then .close h
  else if r.input then .read h
  else if r.output then .resume h
  else .next

namespace Server

/-- An open connection is held in one place, has a stream, and is registered once it has been
armed. The bounds say that its descriptor is one that a token can hold. -/
structure Standing (s : Server) (h : Handle) (τ : Holder) (c : Connection) : Prop where
  connection : s.hub.connection? h = some c
  places : s.places h = τ.places
  stream : ∃ n, s.hub.kernel.streamOf? h.descriptor = some n
  registration : (s.hub.kernel.poll.registrations.get? h.descriptor).isSome = τ.isRegistered
  nonneg : 0 ≤ h.descriptor
  lt_limit : h.descriptor < Kernel.descriptorLimit

/-- A handle names no open connection, and is found nowhere. -/
structure Vacant (s : Server) (h : Handle) : Prop where
  connection : s.hub.connection? h = none
  places : s.places h = {}

/-- What becomes of a connection in a step, from the place where it is held. -/
inductive Passage (a : Action) (s t : Server) (h : Handle) : Holder → Connection → Prop
  /-- it stays where it is -/
  | stay {τ : Holder} {c : Connection} : t.Standing h τ c →
    Kernel.Untouched a s.hub.kernel t.hub.kernel h.descriptor → Passage a s t h τ c
  /-- it is armed -/
  | armed {τ τ' : Holder} {interest : Interest} {c : Connection} : τ.Arms h interest τ' →
    t.Standing h (.poll interest) c → s.hub.kernel.Keeps t.hub.kernel h.descriptor →
    Passage a s t h τ c
  /-- it cannot be armed -/
  | unarmed {τ τ' : Holder} {interest : Interest} {c : Connection} : τ.Arms h interest τ' →
    s.hub.kernel.ControlFails → t.Standing h τ' c →
    s.hub.kernel.Keeps t.hub.kernel h.descriptor → Passage a s t h τ c
  /-- it has an event -/
  | fetched {interest : Interest} {c : Connection} :
    (interest.report (s.hub.kernel.readiness h.descriptor)).any = true →
    t.Standing h (.event (interest.report (s.hub.kernel.readiness h.descriptor))) c →
    s.hub.kernel.Keeps t.hub.kernel h.descriptor → Passage a s t h (.poll interest) c
  /-- the loop looks at its event -/
  | looked {r : Readiness} {c : Connection} : t.Standing h (.loop (eventTask h r)) c →
    s.hub.kernel.Keeps t.hub.kernel h.descriptor → Passage a s t h (.event r) c
  /-- the loop reads what has arrived -/
  | read {c c' : Connection} {w : Wire} {more : Bool} :
    c.readAll (s.hub.kernel.wire h.descriptor) = (more, c', w) →
    t.Standing h (.loop (afterRead h (some more))) c' →
    t.hub.kernel = s.hub.kernel.putWire h.descriptor w → Passage a s t h (.loop (.read h)) c
  /-- the loop puts it into the queue -/
  | submitted {c : Connection} : t.Standing h .queue c →
    s.hub.kernel.Keeps t.hub.kernel h.descriptor → Passage a s t h (.loop (.submit h)) c
  /-- the queue has no room for it -/
  | turnedAway {c : Connection} : s.pool.capacity ≤ s.pool.queue.length →
    t.Standing h (.loop (.close h)) c → s.hub.kernel.Keeps t.hub.kernel h.descriptor →
    Passage a s t h (.loop (.submit h)) c
  /-- the loop resumes its response, and is to arm it -/
  | resumed {c c' : Connection} {w : Wire} {next : Next} {interest : Interest} :
    c.resume (s.hub.kernel.wire h.descriptor) = (next, c', w) → next.interest? = some interest →
    t.Standing h (.loop (.rearm h interest)) c' →
    t.hub.kernel = s.hub.kernel.putWire h.descriptor w → Passage a s t h (.loop (.resume h)) c
  /-- the loop resumes its response, and closes it -/
  | ended {c c' : Connection} {w : Wire} :
    c.resume (s.hub.kernel.wire h.descriptor) = (.close, c', w) → t.Vacant h →
    t.hub.kernel = (s.hub.kernel.putWire h.descriptor w).discard h.descriptor →
    Passage a s t h (.loop (.resume h)) c
  /-- a worker takes it from the queue -/
  | taken {c : Connection} : t.Standing h (.worker (.parse h)) c →
    s.hub.kernel.Keeps t.hub.kernel h.descriptor → Passage a s t h .queue c
  /-- a worker reads the request -/
  | parsed {c c' : Connection} {outcome : Request.Outcome} {awaited : Option (List String)} :
    c.parse = (outcome, c') → t.Standing h (.worker (.answer h outcome awaited)) c' →
    s.hub.kernel.Keeps t.hub.kernel h.descriptor → Passage a s t h (.worker (.parse h)) c
  /-- the worker waits for a named pipe no longer -/
  | released {c : Connection} {outcome : Request.Outcome} {awaited : Option (List String)} :
    t.Standing h (.worker (.answer h outcome none)) c →
    s.hub.kernel.Keeps t.hub.kernel h.descriptor →
    Passage a s t h (.worker (.answer h outcome awaited)) c
  /-- the worker answers the request -/
  | answered {c c' : Connection} {next : Next} {outcome : Request.Outcome} :
    Hub.answer s.hub.root outcome c s.hub.kernel = (next, c', t.hub.kernel) →
    t.Standing h (.worker (afterAnswer h next)) c' →
    Passage a s t h (.worker (.answer h outcome none)) c
  /-- it is closed -/
  | closed {τ : Holder} {c : Connection} : τ.Closes h → t.Vacant h →
    t.hub.kernel = s.hub.kernel.discard h.descriptor → Passage a s t h τ c

/-- A step enters a connection into the table. -/
def Opens (s t : Server) (h : Handle) : Prop :=
  ∃ rest peer, s.stage = .batch rest (.enter h.descriptor peer) ∧
    t.Standing h (.loop (.register h))
      (((s.hub.slots.get? h.descriptor).getD {}).start h.descriptor peer)

end Server

/-- The descriptor that the loop has got for a client who is not in the table. -/
def Stage.candidate? : Stage → Option Int
  | .batch _ (.consider d _) | .batch _ (.enter d _) | .batch _ (.refuse d) => some d
  | _ => none

namespace Server

/-- A descriptor that has just been accepted is that of a stream, and nothing else is known of
it. -/
structure Candidate (s : Server) (d : Int) : Prop where
  stream : ∃ n, s.hub.kernel.streamOf? d = some n
  registration : s.hub.kernel.poll.registrations.get? d = none
  connection : s.hub.connection? ⟨d⟩ = none
  nonneg : 0 ≤ d
  lt_limit : d < Kernel.descriptorLimit

/-- What holds of a server while it serves. That each handle either names no connection and is
nowhere, or names one that is held in one place, is the heart of it. -/
structure Orderly (s : Server) : Prop where
  tidy : s.hub.kernel.Tidy
  held : ∀ h, s.Vacant h ∨ ∃ τ c, s.Standing h τ c
  candidate : ∀ d, s.stage.candidate? = some d → s.Candidate d
  events : ∀ e ∈ s.stage.events, e.ready.any = true

/-- A step and the descriptors that are not those of open connections: it leaves those alone that
are `apart` from what it does, unless it is one that brings a client, has a client accepted, or
turns one away. -/
inductive Beside (a : Action) (s t : Server) (apart : Int → Prop) : Prop
  | kept : (∀ d, apart d → Kernel.Untouched a s.hub.kernel t.hub.kernel d) → Beside a s t apart
  | connected {n : Nat} : a = .connect →
    Kernel.Connects s.hub.kernel t.hub.kernel s.listener n → Beside a s t apart
  | accepted {rest : List Event} {d : Int} {peer : Option SocketAddress} {n : Nat} :
    s.stage = .batch rest .accept → t.stage = .batch rest (.consider d peer) →
    Kernel.Accepts s.hub.kernel t.hub.kernel s.listener d n → (∀ n, a.upon n = id) →
    Beside a s t apart
  | refused {rest : List Event} {d : Int} : s.stage = .batch rest (.refuse d) → s.Candidate d →
    t.hub.kernel = s.hub.kernel.close d → (∀ n, a.upon n = id) → Beside a s t apart

/-- What a step does, for all handles. -/
structure Step (a : Action) (s t : Server) : Prop where
  listener : t.listener = s.listener
  root : t.hub.root = s.hub.root
  beside : Beside a s t fun d => ∀ h τ c, s.Standing h τ c → h.descriptor ≠ d
  evolves : s.hub.kernel.Evolves t.hub.kernel
  tidy : t.hub.kernel.Tidy
  vacant : ∀ h, s.Vacant h → t.Vacant h ∨ s.Opens t h
  passage : ∀ h τ c, s.Standing h τ c → Passage a s t h τ c
  candidate : ∀ d, t.stage.candidate? = some d → t.Candidate d
  events : ∀ e ∈ t.stage.events, e.ready.any = true

variable {s t : Server} {a : Action} {h h' : Handle} {τ τ' : Holder} {c c' : Connection}

/-! ## From handles to places

A handle that is found somewhere names an open connection, and it is found nowhere else. -/

/-- A connection has one holder: this is exclusive ownership, as far as a single state is
concerned. -/
theorem Standing.unique (hs : s.Standing h τ c) (hs' : s.Standing h τ' c') : τ' = τ ∧ c' = c := by
  refine ⟨Holder.places_injective (hs'.places.symm.trans hs.places), ?_⟩
  have hc := hs'.connection
  rw [hs.connection] at hc
  exact (Option.some.inj hc).symm

/-- A handle is not both. -/
theorem Standing.not_vacant (hs : s.Standing h τ c) : ¬ s.Vacant h := by
  intro hv
  have hc := hv.connection
  rw [hs.connection] at hc
  cases hc

/-- A handle that is in some place is held there. -/
theorem Orderly.standing (hs : s.Orderly) (hplaces : s.places h ≠ {}) :
    ∃ τ c, s.Standing h τ c := by
  rcases hs.held h with hv | hstanding
  · exact absurd hv.places hplaces
  · exact hstanding

/-- The handle that the loop's task is about names a connection, which the loop holds. -/
theorem Orderly.standing_task (hs : s.Orderly) {rest : List Event} {task : Task}
    (hstage : s.stage = .batch rest task) (hh : task.handle? = some h) :
    ∃ c, s.Standing h (.loop task) c := by
  have htask : (s.places h).task = some task := by
    rw [places, hstage]
    simp [Stage.task?, hh]
  obtain ⟨τ, c, hstanding⟩ := hs.standing (h := h) fun hnone => by rw [hnone] at htask; cases htask
  have hτ : τ.places.task = some task := hstanding.places ▸ htask
  cases τ with
  | loop task' =>
    obtain rfl := Option.some.inj hτ
    exact ⟨c, hstanding⟩
  | poll interest => cases hτ
  | event ready => cases hτ
  | queue => cases hτ
  | worker job => cases hτ

/-- The handle that a worker's job is about names a connection, which the worker holds. -/
theorem Orderly.standing_job (hs : s.Orderly) {i : Nat} {job : Job}
    (hi : s.pool.workers[i]? = some (.busy job)) :
    ∃ c, s.Standing job.handle (.worker job) c := by
  have hmem : job ∈ (s.places job.handle).jobs := Pool.mem_jobsFor hi
  obtain ⟨τ, c, hstanding⟩ := hs.standing (h := job.handle) fun hnone => by
    rw [hnone] at hmem
    cases hmem
  have hτ : job ∈ τ.places.jobs := hstanding.places ▸ hmem
  cases τ with
  | worker job' =>
    obtain rfl := List.mem_singleton.mp hτ
    exact ⟨c, hstanding⟩
  | poll interest => cases hτ
  | event ready => cases hτ
  | queue => cases hτ
  | loop task => cases hτ

/-! ## What is done to one connection

A change of the hub at one handle, as it is made by a task of the loop or a job of a worker. -/

/-- Something has been done to the connection of one handle: the others have been left alone. -/
structure About (s : Server) (g : Handle) (hub : Hub) : Prop where
  root : hub.root = s.hub.root
  others : ∀ h, some g ≠ some h → hub.connection? h = s.hub.connection? h
  leaves : ∀ d, d ≠ g.descriptor → s.hub.kernel.Leaves hub.kernel d
  evolves : s.hub.kernel.Evolves hub.kernel
  tidy : hub.kernel.Tidy

/-- The connection has been visited, and is open. -/
structure Visited (s : Server) (g : Handle) (hub : Hub) (c : Connection) : Prop extends
    s.About g hub where
  connection : hub.connection? g = some c
  descriptor : hub.kernel.descriptors.get? g.descriptor = s.hub.kernel.descriptors.get? g.descriptor
  registration : hub.kernel.poll.registrations.get? g.descriptor =
    s.hub.kernel.poll.registrations.get? g.descriptor

/-- The connection has been closed. -/
structure Closed (s : Server) (g : Handle) (hub : Hub) : Prop extends s.About g hub where
  connection : hub.connection? g = none
  registration : hub.kernel.poll.registrations.get? g.descriptor = none

theorem descriptor_ne (hne : some h ≠ some h') : h'.descriptor ≠ h.descriptor :=
  fun heq => hne (congrArg some (congrArg Handle.mk heq.symm))

theorem Standing.descriptor (hs : s.Standing h τ c) :
    ∃ n, s.hub.kernel.descriptors.get? h.descriptor = some (.stream n) := by
  obtain ⟨n, hn⟩ := hs.stream
  exact ⟨n, Kernel.get?_of_streamOf? hn⟩

/-- What is behind the descriptor of an open connection is a stream. -/
theorem Standing.descriptor_ne (hs : s.Standing h τ c) {d : Int}
    (hd : ∀ n, s.hub.kernel.descriptors.get? d ≠ some (.stream n)) : h.descriptor ≠ d := by
  obtain ⟨n, hn⟩ := hs.descriptor
  intro heq
  exact hd n (heq ▸ hn)

theorem Orderly.visited (hs : s.Orderly) (hstanding : s.Standing h τ c) :
    s.Visited h s.hub c :=
  ⟨⟨rfl, fun _ _ => rfl, fun _ _ => Kernel.Leaves.refl .., Kernel.Evolves.refl _, hs.tidy⟩,
    hstanding.connection, rfl, rfl⟩

/-- A visit that does something through the descriptor, after a change that concerns no
descriptor. -/
theorem Standing.visited_put (hstanding : s.Standing h τ c) {k : Kernel}
    (hev : s.hub.kernel.Evolves k) (hk : ∀ d, s.hub.kernel.Leaves k d) (htidy : k.Tidy)
    {f : Connection → Wire → α × Connection × Wire} (hf : Connection.Stays f) :
    s.Visited h (s.hub.put h (Hub.onWire f c k).2.1 (Hub.onWire f c k).2.2)
      (Hub.onWire f c k).2.1 := by
  obtain ⟨-, -, -, hdescriptor⟩ := Hub.connection?_eq_some.mp hstanding.connection
  obtain ⟨hkeep, hspent⟩ := hf c (k.wire c.descriptor)
  obtain ⟨hsame, hpoll, -⟩ := Kernel.putWire_spec k c.descriptor (f c (k.wire c.descriptor)).2.2
  have hput : k.Evolves (k.putWire c.descriptor (f c (k.wire c.descriptor)).2.2) :=
    Kernel.evolves_putWire hspent
  rw [Hub.onWire_eq]
  refine ⟨⟨rfl, fun g hne => Hub.connection?_put_ne (fun heq => hne (congrArg some heq.symm)) _ _,
    fun d hd => ?_, hev.trans hput, htidy.putWire hspent⟩,
    Hub.connection?_put_self hstanding.connection hkeep _, ?_, ?_⟩
  · exact (hk d).trans (Kernel.leaves_through k (fun w => ((), (f c w).2.2)) (hdescriptor ▸ hd))
  · exact (congrArg (·.get? h.descriptor) hsame.descriptors).trans (hk _).descriptor
  · exact (congrArg (fun p => Poll.registrations p |>.get? h.descriptor) hpoll).trans
      (hk _).registration

/-- Closing a connection that has been visited. -/
theorem Visited.close {hub : Hub} (hv : s.Visited h hub c') (hstanding : s.Standing h τ c) :
    s.Closed h (hub.close h) := by
  obtain ⟨n, hn⟩ := hstanding.descriptor
  have hn' := hv.descriptor.trans hn
  have hpoll : hub.kernel.descriptors.get? h.descriptor ≠ some .poll := by
    rw [hn']
    rintro ⟨⟩
  have hstream : hub.kernel.streamOf? h.descriptor = some n := by
    rw [Kernel.streamOf?, hn']
  refine ⟨⟨(Hub.close_root ..).trans hv.root, fun g hne => ?_, fun d hd => ?_, ?_, ?_⟩,
    Hub.connection?_close_self .., ?_⟩
  · rw [Hub.connection?_close_ne (fun heq => hne (congrArg some heq.symm))]
    exact hv.others g hne
  · rw [Hub.close_kernel hv.connection]
    exact (hv.leaves d hd).trans (Kernel.leaves_discard hd hpoll)
  · rw [Hub.close_kernel hv.connection]
    exact hv.evolves.trans (Kernel.evolves_discard ..)
  · rw [Hub.close_kernel hv.connection]
    exact hv.tidy.discard hstream
  · rw [Hub.close_kernel hv.connection]
    exact (Kernel.discard_self (by rw [hn']; rfl)).2

/-- What is known of a new descriptor stays so as long as that is left alone. -/
theorem Candidate.keep {d : Int} (hd : s.Candidate d) (hk : s.hub.kernel.Leaves t.hub.kernel d)
    (hconnection : t.hub.connection? ⟨d⟩ = s.hub.connection? ⟨d⟩) : t.Candidate d := by
  obtain ⟨n, hn⟩ := hd.stream
  exact ⟨⟨n, (Kernel.streamOf?_congr hk.descriptor).trans hn⟩,
    hk.registration.trans hd.registration, hconnection.trans hd.connection, hd.nonneg, hd.lt_limit⟩

/-- A new descriptor is that of no open connection. -/
theorem Candidate.ne {d : Int} (hd : s.Candidate d) (hs : s.Standing h τ c) :
    d ≠ h.descriptor := by
  intro heq
  have hc := hd.connection
  rw [heq, hs.connection] at hc
  cases hc

/-- The handle of a new descriptor is nowhere yet. -/
theorem Orderly.vacant_candidate (hs : s.Orderly) {d : Int} (hd : s.Candidate d) :
    s.Vacant ⟨d⟩ := by
  rcases hs.held ⟨d⟩ with hv | ⟨τ, c, hstanding⟩
  · exact hv
  · exact absurd rfl (hd.ne hstanding)

/-! ## Steps about one handle

What has to be shown of a step that is about one handle, and that it is all that has to be shown. -/

/-- If what is apart is left alone, so is less of it. -/
theorem Beside.mono {p q : Int → Prop} (h : Beside a s t p) (hpq : ∀ d, q d → p d) :
    Beside a s t q := by
  cases h with
  | kept h => exact .kept fun d hd => h d (hpq d hd)
  | connected ha h => exact .connected ha h
  | accepted hstage hstage' h ha => exact .accepted hstage hstage' h ha
  | refused hstage hd h ha => exact .refused hstage hd h ha

theorem Beside.of_keeps {apart : Int → Prop} (ha : ∀ n, a.upon n = id)
    (h : ∀ d, apart d → s.hub.kernel.Keeps t.hub.kernel d) : Beside a s t apart :=
  .kept fun d hd => (h d hd).untouched ha

/-- No step touches the descriptor of a stream that it is not about, unless it turns a client
away. -/
theorem Beside.untouched_stream {apart : Int → Prop} {d : Int} (hbeside : Beside a s t apart)
    (hd : ∃ n, s.hub.kernel.streamOf? d = some n) (hapart : apart d)
    (hne : ∀ rest e, s.stage = .batch rest (.refuse e) → s.Candidate e → d ≠ e) :
    Kernel.Untouched a s.hub.kernel t.hub.kernel d := by
  obtain ⟨n, hn⟩ := hd
  have hdescriptor := Kernel.get?_of_streamOf? hn
  -- the listener's descriptor, and one that is free, are no stream's
  have hlistener : (∃ l, s.hub.kernel.descriptors.get? s.listener = some (.listener l)) →
      d ≠ s.listener := by
    rintro ⟨l, hl⟩ rfl
    cases hl.symm.trans hdescriptor
  cases hbeside with
  | kept hkept => exact hkept _ hapart
  | connected ha hk =>
    refine (hk.leaves (hlistener hk.awaits)).toKeeps.untouched fun n => ?_
    rw [ha]
    rfl
  | accepted _ _ hk ha =>
    refine (hk.leaves ?_ (hlistener hk.awaits)).toKeeps.untouched ha
    rintro rfl
    cases hk.free.symm.trans hdescriptor
  | refused hstage he hk ha =>
    obtain ⟨m, hm⟩ := he.stream
    rw [hk]
    refine (Kernel.leaves_close (hne _ _ hstage he) ?_).toKeeps.untouched ha
    rw [Kernel.get?_of_streamOf? hm]
    rintro ⟨⟩

/-- No step touches an open connection that it is not about. -/
theorem Beside.untouched {apart : Int → Prop} (hbeside : Beside a s t apart)
    (hs : s.Standing h τ c) (hapart : apart h.descriptor) :
    Kernel.Untouched a s.hub.kernel t.hub.kernel h.descriptor :=
  hbeside.untouched_stream hs.stream hapart fun _ _ _ he => (he.ne hs).symm

/-- A step is about one handle at most: the others name the same connections in the same places, and
their descriptors are left alone. -/
structure Only (a : Action) (g : Option Handle) (s t : Server) : Prop where
  listener : t.listener = s.listener
  root : t.hub.root = s.hub.root
  beside : Beside a s t fun d => ∀ h, g = some h → h.descriptor ≠ d
  connection : ∀ h, g ≠ some h → t.hub.connection? h = s.hub.connection? h
  places : ∀ h, g ≠ some h → t.places h = s.places h
  registration : ∀ h τ c, g ≠ some h → s.Standing h τ c →
    t.hub.kernel.poll.registrations.get? h.descriptor =
      s.hub.kernel.poll.registrations.get? h.descriptor

theorem Only.untouched {g : Option Handle} (ho : Only a g s t) (hne : g ≠ some h)
    (hs : s.Standing h τ c) : Kernel.Untouched a s.hub.kernel t.hub.kernel h.descriptor :=
  ho.beside.untouched hs fun _ hg heq => hne (hg.trans (congrArg some (congrArg Handle.mk heq)))

/-- An open connection that the step is not about is held where it was. -/
theorem Only.stay {g : Option Handle} (ho : Only a g s t) (hne : g ≠ some h)
    (hs : s.Standing h τ c) : t.Standing h τ c := by
  have huntouched := ho.untouched hne hs
  refine ⟨?_, ?_, ?_, ?_, hs.nonneg, hs.lt_limit⟩
  · rw [ho.connection h hne]
    exact hs.connection
  · rw [ho.places h hne]
    exact hs.places
  · obtain ⟨n, hn⟩ := hs.stream
    exact ⟨n, (Kernel.streamOf?_congr huntouched.descriptor).trans hn⟩
  · rw [ho.registration h τ c hne hs]
    exact hs.registration

theorem Only.vacant {g : Option Handle} (ho : Only a g s t) (hne : g ≠ some h)
    (hv : s.Vacant h) : t.Vacant h :=
  ⟨(ho.connection h hne).trans hv.connection, (ho.places h hne).trans hv.places⟩

/-- A step about one connection: it is enough to say what becomes of that. All lemmas on steps of
the loop and of the workers end in this one or in the next. -/
theorem Step.of_acting {g : Handle} (ho : Only a (some g) s t) (hs : s.Standing g τ c)
    (hpassage : Passage a s t g τ c) (hev : s.hub.kernel.Evolves t.hub.kernel)
    (htidy : t.hub.kernel.Tidy) (hcandidate : ∀ d, t.stage.candidate? = some d → t.Candidate d)
    (hevents : ∀ e ∈ t.stage.events, e.ready.any = true) : Step a s t := by
  refine ⟨ho.listener, ho.root, ho.beside.mono fun d hd h hh => ?_, hev, htidy, fun h hv => ?_,
    fun h τ' c' hs' => ?_, hcandidate, hevents⟩
  · obtain rfl := Option.some.inj hh
    exact hd g τ c hs
  · refine .inl (ho.vacant (fun hg => ?_) hv)
    obtain rfl := Option.some.inj hg
    exact hs.not_vacant hv
  · by_cases hg : g = h
    · subst hg
      obtain ⟨rfl, rfl⟩ := hs.unique hs'
      exact hpassage
    · have hne : some g ≠ some h := fun heq => hg (Option.some.inj heq)
      exact .stay (ho.stay hne hs') (ho.untouched hne hs')

/-- A step about no connection. -/
theorem Step.of_none (ho : Only a none s t) (hev : s.hub.kernel.Evolves t.hub.kernel)
    (htidy : t.hub.kernel.Tidy) (hcandidate : ∀ d, t.stage.candidate? = some d → t.Candidate d)
    (hevents : ∀ e ∈ t.stage.events, e.ready.any = true) : Step a s t := by
  have hne : ∀ h : Handle, none ≠ some h := by
    rintro h ⟨⟩
  refine ⟨ho.listener, ho.root, ho.beside.mono ?_, hev, htidy,
    fun h hv => .inl (ho.vacant (hne h) hv),
    fun h _ _ hs => .stay (ho.stay (hne h) hs) (ho.untouched (hne h) hs), hcandidate, hevents⟩
  rintro d - h ⟨⟩

/-- **After a step all is in order again.** Each way in which a connection may pass on leads to a
place where it stands. -/
theorem Step.orderly (hs : s.Orderly) (hstep : Step a s t) : t.Orderly := by
  refine ⟨hstep.tidy, fun h => ?_, hstep.candidate, hstep.events⟩
  rcases hs.held h with hv | ⟨τ, c, hstanding⟩
  · rcases hstep.vacant h hv with hv' | hopens
    · exact .inl hv'
    · obtain ⟨rest, peer, -, hstanding⟩ := hopens
      exact .inr ⟨_, _, hstanding⟩
  · cases hstep.passage h τ c hstanding with
    | stay h' => exact .inr ⟨_, _, h'⟩
    | armed _ h' => exact .inr ⟨_, _, h'⟩
    | unarmed _ _ h' => exact .inr ⟨_, _, h'⟩
    | fetched _ h' => exact .inr ⟨_, _, h'⟩
    | looked h' => exact .inr ⟨_, _, h'⟩
    | read _ h' => exact .inr ⟨_, _, h'⟩
    | submitted h' => exact .inr ⟨_, _, h'⟩
    | turnedAway _ h' => exact .inr ⟨_, _, h'⟩
    | resumed _ _ h' => exact .inr ⟨_, _, h'⟩
    | ended _ h' => exact .inl h'
    | taken h' => exact .inr ⟨_, _, h'⟩
    | parsed _ h' => exact .inr ⟨_, _, h'⟩
    | released h' => exact .inr ⟨_, _, h'⟩
    | answered _ h' => exact .inr ⟨_, _, h'⟩
    | closed _ h' => exact .inl h'

end Server

end FileServer
