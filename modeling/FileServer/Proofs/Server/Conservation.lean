import FileServer.Proofs.Server.Tracking
import FileServer.Proofs.Server.Waking

/-!
# No descriptor is lost, and none is closed twice

Whatever calls fail, and however long a server runs, each descriptor that it obtains is closed once
and not used after that, and none is left open in the end (`Server.descriptors_conserved`).

What is done while a server is set up is followed up to its outcome (`Server.SetUp`): where setting
up fails nothing is held. From a server that has been set up, `Server.Booked` is kept by every step
of a run: the ledger so far is proper and has led to what the server holds. When the server is gone
it holds nothing but the wake-up pipe, and that only as long as somebody is left who can request a
stop.
-/

namespace FileServer

/-! ## Setting up

Everything that is obtained before there is a server to hold it is closed again if the next call
fails. -/

namespace Kernel

variable {k k' : Kernel}

/-- Closing what has been opened asks nothing of the scripts. With the lemmas behind this one it
gives what is needed of `spent_openListener`. -/
theorem spent_orClose {d : Int} {x : Except Errno Unit × Kernel} (h : k.scripts.Spent x.2.scripts) :
    k.scripts.Spent (orClose d x).2.scripts := by
  obtain ⟨result, k'⟩ := x
  cases result with
  | ok u => exact h
  | error reason => exact h.trans (evolves_close k' d).scripts

/-- Setting an option uses up the scripts from the front. -/
theorem spent_setOption (k : Kernel) : k.scripts.Spent k.setOption.2.scripts := by
  have htake := (quiet_takeFault k .setOption).scripts
  rw [setOption]
  rcases hfault : k.takeFault .setOption with ⟨fault, k₁⟩
  rw [hfault] at htake
  rcases fault with _ | (n | reason) <;> exact htake

/-- Binding uses them up in the same way. -/
theorem spent_bind (k : Kernel) (d : Int) (address : SocketAddress) :
    k.scripts.Spent (k.bind d address).2.scripts := by
  have htake := (quiet_takeFault k .bind).scripts
  rw [bind]
  split
  · next hfault =>
    rw [hfault] at htake
    exact htake
  · next hfault =>
    rw [hfault] at htake
    split
    · exact htake
    · split
      · exact htake
      · split <;> exact htake

/-- Listening uses them up in the same way. -/
theorem spent_listen (k : Kernel) (d : Int) : k.scripts.Spent (k.listen d).2.scripts := by
  have htake := (quiet_takeFault k .listen).scripts
  rw [listen]
  split
  · next hfault =>
    rw [hfault] at htake
    exact htake
  · next hfault =>
    rw [hfault] at htake
    split <;> exact htake

/-- The calls that open a listener follow the scripts. -/
theorem spent_openListener (k : Kernel) (host : String) (port : UInt16) :
    k.scripts.Spent (k.openListener host port).2.scripts := by
  unfold openListener
  cases SocketAddress.parse? (hostAndPort host port) with
  | none => exact .refl _
  | some address =>
    dsimp only
    have htake := (quiet_takeFault k .socket).scripts
    split
    · next hfault =>
      rw [hfault] at htake
      exact htake
    · next fault k₁ hfail hfault =>
      rw [hfault] at htake
      have hopened : k.scripts.Spent (k₁.allocate (.socket none)).2.scripts := htake
      -- each call takes its fault from the scripts, and a close behind a failure takes none
      generalize k₁.allocate (.socket none) = opened at hopened ⊢
      have hset := hopened.trans (spent_orClose (d := opened.1) (spent_setOption opened.2))
      split
      · next hfails =>
        rw [hfails] at hset
        exact hset
      · next k₂ hdone =>
        rw [hdone] at hset
        have hbound := hset.trans (spent_orClose (d := opened.1) (spent_bind k₂ opened.1 address))
        split
        · next hfails =>
          rw [hfails] at hbound
          exact hbound
        · next k₃ hdone =>
          rw [hdone] at hbound
          have hlistens := hbound.trans (spent_orClose (d := opened.1) (spent_listen k₃ opened.1))
          split
          · next hfails =>
            rw [hfails] at hlistens
            exact hlistens
          · next hdone =>
            rw [hdone] at hlistens
            exact hlistens

end Kernel

namespace Server

variable {s t start : Server} {base held : Set Int} {l : Ledger}

/-- How setting up ends: with a server that does not serve yet, or with nothing held. -/
inductive SetUp (base held : Set Int) (x : Noted (Except (ServerError × Kernel) Server)) : Prop
  | started {start : Server} : x.value = .ok start → start.stage = .ready → start.stop = {} →
    Server.Tracks base held x.entries start → SetUp base held x
  | failed {e : ServerError} {k' : Kernel} : x.value = .error (e, k') →
    Kernel.Tracks base held x.entries ∅ k' → SetUp base held x

/-- **Setting up from a listener.** The configuration is checked and the wake-up pipe is opened;
where either fails, the listener is closed. In the end the server holds the listener and both ends
of the pipe, and no slot is open yet. -/
theorem setUp_ofListener {k : Kernel} {listener : Int} (hk : k.Holds base {listener})
    (config : Config) : SetUp base {listener} (Noted.ofListener k listener config) := by
  have hclosed : ∀ k' : Kernel, k'.Holds base {listener} →
      Kernel.Tracks base {listener} [.closed listener] ∅ (k'.close listener) := by
    intro k' hk'
    have hclosed := Kernel.Tracks.closed hk' (Set.mem_singleton listener)
    rw [Set.sdiff_self] at hclosed
    exact hclosed
  rw [Noted.ofListener]
  cases config.validate with
  | error e => exact .failed rfl (hclosed k hk)
  | ok u =>
    rcases Noted.tracks_createPipe hk with
      ⟨out, into, k', hvalue, hout, hinto, htracks⟩ | ⟨e, k', hvalue, htracks⟩
    · dsimp only
      rw [Noted.bind_of_value hvalue]
      -- the table is empty, so the server holds its equipment and nothing else
      have hnone : ∀ hub : Hub, hub.slots = {} → ∀ h, hub.connection? h = none := by
        intro hub hslots h
        rw [Hub.connection?, hslots]
        split <;> rfl
      refine .started rfl rfl rfl
        (tracks_of (fixtures_ready rfl) (.done ⟨?_, ?_, fun d _ => hnone _ rfl ⟨d⟩⟩))
      · refine htracks.congr (Set.ext fun d => ?_)
        rw [Hub.mem_holdings_of_none (hnone _ rfl), Set.mem_insert_iff, Set.mem_insert_iff,
          Set.mem_singleton_iff, List.mem_cons, List.mem_cons, List.mem_singleton]
        exact ⟨fun h => h.elim (.inr ∘ .inr) (Or.elim · (.inr ∘ .inl) .inl),
          fun h => h.elim (.inr ∘ .inr) (Or.elim · (.inr ∘ .inl) .inl)⟩
      · have hlo : listener ≠ out := fun heq => hout heq.symm
        have hli : listener ≠ into := fun heq => hinto (.inr heq.symm)
        have hoi : out ≠ into := fun heq => hinto (.inl heq.symm)
        simp [hlo, hli, hoi]
    · dsimp only
      rw [Noted.bind_of_value hvalue]
      exact .failed rfl (htracks.append (hclosed k' htracks.holds))

/-- **Setting up from an address** is to open a listener and to go on as above. -/
theorem setUp_bind {k : Kernel} (hk : k.Holds base ∅) (config : Config) :
    SetUp base ∅ (Noted.bindServer k config) := by
  rw [Noted.bindServer]
  cases config.validate with
  | error e => exact .failed rfl (.rest hk rfl)
  | ok u =>
    dsimp only
    cases Noted.attempt_openListener hk config.host config.port with
    | failed hvalue htracks =>
      rw [Noted.bind_of_value hvalue]
      exact .failed rfl (htracks.append (.rest htracks.holds rfl))
    | @done listener k' hvalue htracks =>
      rw [insert_empty_eq] at htracks
      rw [Noted.bind_of_value hvalue]
      cases setUp_ofListener htracks.holds config with
      | started hstart hready hstop hset =>
        exact .started hstart hready hstop ⟨htracks.append hset.kernel, hset.apart⟩
      | failed hfails hset => exact .failed hfails (htracks.append hset)

/-- A server that is made of an address is made of a listener. So what has been proved of the one
kind of server need not be proved again. -/
theorem ofListener_of_bind {k : Kernel} {config : Config} (hk : k.Honest)
    (hstart : bind k config = .ok start) :
    ∃ (k' : Kernel) (listener : Int), k'.Honest ∧ ofListener k' listener config = .ok start := by
  have hspent := k.spent_openListener config.host config.port
  rw [bind] at hstart
  split at hstart
  · cases hstart
  · split at hstart
    · cases hstart
    · next listener k' heq =>
      rw [heq] at hspent
      exact ⟨k', listener, Script.Only.suffix hk (hspent .pollControl), hstart⟩

/-! ## Runs

A run with its ledger, and what the ledger says at each of its states. -/

/-- The runs of a server, with what is done to descriptors in the course of them. A signal may cut a
wait short, and as long as the server or somebody who can request a stop is there, another may
become able to. -/
inductive Recorded (start : Server) : Ledger → Server → Prop
  | start : Recorded start [] start
  | step {l : Ledger} {s t : Server} {a : Action} : Recorded start l s → s.perform? a = some t →
    Recorded start (l ++ s.entries a) t
  | interrupt {l : Ledger} {s : Server} : Recorded start l s → s.stage = .waiting →
    Recorded start (l ++ [.used s.poll]) (s.goTo .checking)
  | share {l : Ledger} {s : Server} : Recorded start l s → s.isGone = false ∨ s.handles ≠ 0 →
    Recorded start l { s with handles := s.handles + 1 }

/-- How many there are who can request a stop does not matter for what is in order. -/
theorem Coherent.withHandles (hs : s.Coherent) (handles : Nat) : Coherent { s with handles } := by
  cases hs with
  | unopened hstage hs => exact .unopened hstage ⟨hs.connection, hs.queue, hs.workers, hs.honest⟩
  | serving hserving hs hearly =>
    have hstep : Step .releaseHandle s { s with handles } :=
      hs.step_unnoticed (fun _ => rfl) rfl rfl rfl rfl (fun _ => rfl) (.refl _)
    exact .serving hserving (hstep.orderly hs) fun hstage h =>
      ⟨(hearly hstage h).connection, (hearly hstage h).places⟩
  | closing hstage hs => exact .closing hstage ⟨hs.isOver, hs.once, hs.due⟩
  | ended hstage hs => exact .ended hstage ⟨hs.isOver, hs.once, hs.due⟩

/-- What holds in every run: all is in order, what is held is open, and the entries have led to
it. -/
structure Booked (base held : Set Int) (l : Ledger) (s : Server) : Prop where
  coherent : s.Coherent
  requested : s.Requested
  tracks : Server.Tracks base held l s

namespace Booked

/-- One step's entries behind those so far lead to what the server holds after the step. -/
theorem next (hs : Booked base held l s) (hc : t.Coherent) (hr : t.Requested) {l' : Ledger}
    (h : Server.Tracks base s.holdings l' t) : Booked base held (l ++ l') t :=
  ⟨hc, hr, ⟨hs.tracks.kernel.append h.kernel, h.apart⟩⟩

/-- **A run is booked.** The induction is on the run; each kind of step adds its own entries. -/
theorem recorded {l' : Ledger} (hstart : Booked base held l start) (hs : Recorded start l' s) :
    Booked base held (l ++ l') s := by
  induction hs with
  | start =>
    rw [List.append_nil]
    exact hstart
  | step _ hstep ih =>
    rw [← List.append_assoc]
    exact ih.next (ih.coherent.step hstep) (ih.requested.perform hstep)
      (tracks_perform ih.tracks.holds ih.coherent ih.requested hstep)
  | interrupt _ hstage ih =>
    rw [← List.append_assoc]
    exact ih.next (ih.coherent.interrupt hstage) ih.requested
      (tracks_interrupt ih.tracks.holds hstage)
  | share _ hgone ih =>
    exact ⟨ih.coherent.withHandles _, fun _ => Nat.succ_ne_zero _,
      tracks_of (fixtures_handles (hgone.imp_right fun hone => ⟨hone, Nat.succ_ne_zero _⟩))
      ih.tracks⟩

/-- A server that is gone, with nobody left who can request a stop, holds nothing. -/
theorem holdings_ended (hs : Booked base held l s) (hgone : s.isGone = true)
    (hhandles : s.handles = 0) : s.holdings = ∅ := by
  have hnone : ∀ h, s.hub.connection? h = none := by
    intro h
    refine Option.not_isSome_iff_eq_none.mp fun hopen => ?_
    cases (hs.coherent.finished (isEnded_of_isGone hgone)).due h hopen
  ext d
  rw [holdings, Hub.mem_holdings_of_none hnone, fixtures_gone hgone, if_pos hhandles]
  exact iff_of_false List.not_mem_nil (Set.notMem_empty d)

end Booked

/-! ## What comes of it

The clauses about single entries, read off the invariant. -/

/-- All that was held at first or has been obtained since has been closed, each once, and what is
open is none of the program's. -/
structure Settled (base held : Set Int) (ledger : Ledger) (k : Kernel) : Prop where
  proper : ledger.Proper held
  closed : ∀ d, ledger.count (.closed d) = Ledger.times held d + ledger.count (.opened d)
  isOpen : k.openSet = base

/-- Where a ledger leads to nothing held, all that it says was obtained has been closed. -/
theorem settled_of_tracks {k : Kernel} (h : Kernel.Tracks base held l ∅ k) :
    Settled base held l k where
  proper := h.proper
  closed d := by
    have hcount := Ledger.count_closed h.proper d
    rw [h.after, Ledger.times_of_notMem (Set.notMem_empty d)] at hcount
    exact hcount.symm
  isOpen := by rw [h.holds.isOpen, Set.union_empty]

/-- What is known of the descriptors in the course of a run. -/
structure Conserved (base held : Set Int) (ledger : Ledger) (s : Server) : Prop where
  /-- nothing is obtained that is held, and nothing is used or closed that is not -/
  proper : ledger.Proper held
  /-- what has been closed is neither used nor closed again, unless its number is obtained anew -/
  once : ∀ before d later, ledger = before ++ .closed d :: later → .opened d ∉ later →
    .used d ∉ later ∧ .closed d ∉ later
  /-- when a number is obtained no handle for it is left anywhere -/
  fresh : ∀ rest d peer, s.stage = .batch rest (.consider d peer) →
    s.hub.connection? ⟨d⟩ = none ∧ s.places ⟨d⟩ = {}
  /-- what has been obtained and not closed is what the server holds -/
  after : ledger.after held = s.holdings
  /-- that is open, and besides is open only what is none of the server's -/
  isOpen : s.hub.kernel.openSet = base ∪ s.holdings
  apart : ∀ d ∈ base, d ∉ s.holdings
  /-- once the server is gone, and with it everybody who could request a stop, all has been
  closed -/
  ended : s.isGone = true → s.handles = 0 → Settled base held ledger s.hub.kernel

/-- From the invariant to the clauses: all but the one on fresh numbers are facts about proper
ledgers. -/
theorem Booked.conserved (hs : Booked base held l s) : Conserved base held l s where
  proper := hs.tracks.kernel.proper
  once before d later heq hopen := by
    have hproper := hs.tracks.kernel.proper
    rw [heq] at hproper
    exact hproper.once hopen
  fresh rest d peer hstage := by
    have horderly := (hs.coherent.orderly (by rw [hstage]; rfl)).1
    have hcandidate := horderly.candidate d (by rw [hstage]; rfl)
    exact ⟨hcandidate.connection, (horderly.vacant_candidate hcandidate).places⟩
  after := hs.tracks.kernel.after
  isOpen := hs.tracks.kernel.holds.isOpen
  apart := hs.tracks.kernel.holds.apart
  ended hgone hhandles :=
    settled_of_tracks (hs.tracks.kernel.congr (hs.holdings_ended hgone hhandles).symm)

/-- The descriptors of a server that is set up, or is not, from what is held: in the one case all is
known of them in every run, and in the other all has been closed. -/
def Conserves (base held : Set Int) (ledger : Ledger) : Except (ServerError × Kernel) Server → Prop
  | .ok start => ∀ l s, Recorded start l s → Conserved base held (ledger ++ l) s
  | .error (_, k) => Settled base held ledger k

/-- From how setting up ends to what is known in the course of a run, or at the end of a
failure. -/
theorem SetUp.conserves {x : Noted (Except (ServerError × Kernel) Server)} (hx : SetUp base held x)
    (hcoherent : ∀ start, x.value = .ok start → start.Coherent) :
    Conserves base held x.entries x.value := by
  cases hx with
  | failed hvalue htracks =>
    rw [hvalue]
    exact settled_of_tracks htracks
  | started hvalue hready hstop htracks =>
    have hc := hcoherent _ hvalue
    rw [hvalue]
    intro l s hs
    have hbooked : Booked base held x.entries _ := ⟨hc, fun h => absurd (by rw [hstop]) h, htracks⟩
    exact (hbooked.recorded hs).conserved

/-- **No descriptor is lost, and none is closed twice**, whatever fails and however long a server
runs. Each that is obtained while the server is set up or runs, and the listener that it is made of,
is closed once; none is used after that, as long as its number is not obtained anew; and none is
open when setting up has failed, or when the server is gone and nobody is left who can request a
stop. -/
theorem descriptors_conserved {k : Kernel} (hk : k.Honest) (config : Config) :
    Conserves k.openSet ∅ (Noted.bindServer k config).entries (bind k config) ∧
      ∀ listener ∈ k.openSet, Conserves (k.openSet \ {listener}) {listener}
        (Noted.ofListener k listener config).entries (ofListener k listener config) := by
  refine ⟨?_, fun listener hlistener => ?_⟩
  · rw [← Noted.value_bindServer]
    refine (setUp_bind ⟨(Set.union_empty _).symm, fun _ _ => Set.notMem_empty _⟩ config).conserves
      fun start hstart => ?_
    rw [Noted.value_bindServer] at hstart
    obtain ⟨k', listener, hk', hstart'⟩ := ofListener_of_bind hk hstart
    exact coherent_ofListener hstart' hk'
  · rw [← Noted.value_ofListener]
    have hholds : k.Holds (k.openSet \ {listener}) {listener} :=
      ⟨(Set.sdiff_union_of_subset (Set.singleton_subset_iff.mpr hlistener)).symm,
        fun _ hd => hd.2⟩
    refine (setUp_ofListener hholds config).conserves fun start hstart => ?_
    rw [Noted.value_ofListener] at hstart
    exact coherent_ofListener hstart hk

/-- What a sequence of actions does to descriptors; those that are not possible are left out. -/
def ledger (s : Server) : List Action → Ledger
  | [] => []
  | action :: rest => s.entries action ++ ledger ((s.perform? action).getD s) rest

/-- A run of given actions is recorded, along with what they do to descriptors. -/
theorem Recorded.after (hs : Recorded start l s) (actions : List Action) :
    Recorded start (l ++ s.ledger actions) (s.after actions) := by
  induction actions generalizing l s with
  | nil =>
    rw [ledger, List.append_nil]
    exact hs
  | cons action rest ih =>
    rw [ledger, ← List.append_assoc]
    refine ih (s := (s.perform? action).getD s) ?_
    cases hstep : s.perform? action with
    | none =>
      rw [entries_of_none hstep, List.append_nil]
      exact hs
    | some t => exact hs.step hstep

/-- A server starts, accepts a client, is stopped, and goes; then the last who could request a stop
goes. -/
def oneClient : List Action :=
  [.serve, .connect] ++ List.replicate 12 (.loop 0) ++ [.requestStop, .wake] ++
    List.replicate 6 (.loop 0) ++ [.worker 0, .worker 0] ++ List.replicate 4 (.loop 0) ++
    [.releaseHandle]

/-- At the end of the run above the server is gone, nobody can request a stop, and all is
settled. -/
theorem descriptors_conserved_one_client : ∃ start, ofListener listening 3 smallest = .ok start ∧
    listening.Honest ∧ 3 ∈ listening.openSet ∧
    Recorded start (start.ledger oneClient) (start.after oneClient) ∧
    (start.after oneClient).isGone = true ∧ (start.after oneClient).handles = 0 ∧
    Settled (listening.openSet \ {3}) {3}
      ((Noted.ofListener listening 3 smallest).entries ++ start.ledger oneClient)
      (start.after oneClient).hub.kernel := by
  have hstart : ofListener listening 3 smallest = .ok _ := rfl
  have hk : listening.Honest := fun fault hfault => absurd hfault List.not_mem_nil
  have hopen : 3 ∈ listening.openSet := rfl
  have hall := (descriptors_conserved hk smallest).2 3 hopen
  rw [hstart] at hall
  have hs : ∀ start, Recorded start (start.ledger oneClient) (start.after oneClient) := fun _ =>
    Recorded.start.after oneClient
  exact ⟨_, hstart, hk, hopen, hs _, rfl, by decide +kernel,
    (hall _ _ (hs _)).ended rfl (by decide +kernel)⟩

end Server

end FileServer
