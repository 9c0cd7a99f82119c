import FileServer.Proofs.Server.Holdings
import FileServer.Proofs.Server.Stages
import FileServer.Proofs.Server.Ownership

/-!
# A ledger follows a server

Every step of a server that has its things in order is followed: its entries are proper for what is
held, and lead to what is held after it (`Server.tracks_perform`). That a connection is open when it
is registered, read, armed or closed is known from its having one owner; the listener and the poll
set are used by the loop alone, which goes before they do; and the wake-up pipe stays for those who
can request a stop.

The proof goes by who takes the step: a task of a batch (`Server.tracks_task`), another step of the
loop (`Server.tracks_loopStep`), a job of a worker (`Server.tracks_jobStep`), or someone outside.
Between batches the loop has no client in hand, so that what is held is the equipment and the open
connections; in a batch it may have one descriptor more, from the moment at which a client is
accepted until it is entered or turned away.
-/

namespace FileServer

/-- A server that serves has a poll set. -/
theorem Stage.hasPoll_of_isServing {stage : Stage} (h : stage.isServing = true) :
    stage.hasPoll = true := by
  cases stage with
  | _ => first | rfl | cases h

namespace Server

variable {s t : Server} {d : Int} {h : Handle} {base held : Set Int} {l : Ledger} {choice : Nat}
  {rest : List Event} {task : Task} {others others' : List Int}

/-! ## Tasks

The calls that a task makes are on descriptors that are held while it makes them. -/

/-- An attempt to read brings no client. -/
theorem candidate_afterRead (rest : List Event) (h : Handle) (more : Option Bool) :
    (Stage.batch rest (afterRead h more)).candidate? = none := by
  rcases more with _ | _ | _ <;> rfl

/-- Resuming a response brings no client. -/
theorem candidate_afterResume (rest : List Event) (h : Handle) (next : Option Next) :
    (Stage.batch rest (afterResume h next)).candidate? = none := by
  rcases next with _ | _ | _ | _ <;> rfl

/-- The entries of a task lead to what is held after it. -/
def TaskTracks (base : Set Int) (choice : Nat) (rest : List Event) (s : Server) (task : Task) :
    Prop :=
  Server.Tracks base s.holdings (Noted.doTask choice s task).entries
    ((Noted.doTask choice s task).value.2.goTo (.batch rest (Noted.doTask choice s task).value.1))

/-- A client who is accepted is held, and in no slot yet. -/
theorem tracks_accept (hs : s.Has base s.equipment) : TaskTracks base choice rest s .accept := by
  rw [TaskTracks, Noted.doTask]
  rcases Noted.tracks_accept hs.holds.kernel (.inl hs.listener) with
    ⟨d, peer, k', hvalue, hfree, haccepts⟩ | ⟨result, k', hvalue, hnone, hcalled⟩
  · rw [Noted.bind_of_value hvalue]
    exact hs.tracks (fixtures_candidate rfl) (.done (.opened hs.holds (.refl _) hfree haccepts))
  · rw [Noted.bind_of_value hvalue]
    cases result with
    | accepted d peer => exact absurd rfl (hnone d peer)
    | wouldBlock =>
      exact hs.tracks (fixtures_idle rfl rfl)
        (.done (.same hs.holds (.refl _) hcalled))
    | failed reason =>
      exact hs.tracks (fixtures_idle rfl rfl) (.done (.same hs.holds (.refl _) hcalled))

/-- A client who gets a slot is held as a connection then, and one who gets none is held still. -/
theorem tracks_enter (hs : s.Has base (d :: s.equipment)) (peer : Option SocketAddress) :
    TaskTracks base choice rest s (.enter d peer) := by
  have hplain : Noted.doTask choice s (.enter d peer) = pure (s.doTask choice (.enter d peer)) :=
    rfl
  rw [TaskTracks, hplain, doTask]
  rcases s.hub.enter_cases d peer with ⟨-, e, heq⟩ | ⟨-, hub', heq, hkernel, -, hself, hothers⟩
  · rw [heq]
    exact hs.quiet (fixtures_candidate rfl) (.refl _) rfl
  · rw [heq]
    have hopen : (hub'.connection? ⟨d⟩).isSome := by
      rw [hself]
      rfl
    have hentered : Hub.Tracks base (s.hub.holdings (d :: s.equipment)) [] s.equipment hub' :=
      .entered hs.holds hopen hothers (.rest hs.holds.kernel (congrArg Kernel.openSet hkernel))
    exact hs.tracks (fixtures_idle rfl rfl) hentered

/-- To register a connection is a call on the poll set, about a descriptor that is held. -/
theorem tracks_register (hs : s.Has base s.equipment)
    (hmem : h.descriptor ∈ s.hub.holdings s.equipment) :
    TaskTracks base choice rest s (.register h) := by
  have hcalled := Noted.tracks_control hs.holds.kernel (.inl hs.poll) hmem
    (s.hub.kernel.openSet_pollAdd h.descriptor (h.registration .read))
  rw [TaskTracks, Noted.doTask, doTask, Hub.register]
  rcases hadd : s.hub.kernel.pollAdd h.descriptor (h.registration .read) with ⟨result, k'⟩
  rw [hadd] at hcalled
  cases result with
  | ok u => exact hs.same (fixtures_idle rfl rfl) (.refl _) hcalled
  | error reason => exact hs.same (fixtures_idle rfl rfl) (.refl _) hcalled

/-- To arm it again is another such call. -/
theorem tracks_rearm (hs : s.Has base s.equipment)
    (hmem : h.descriptor ∈ s.hub.holdings s.equipment)
    (interest : Interest) : TaskTracks base choice rest s (.rearm h interest) := by
  have hcalled := Noted.tracks_control hs.holds.kernel (.inl hs.poll) hmem
    (s.hub.kernel.openSet_pollModify h.descriptor (h.registration interest))
  rw [TaskTracks, Noted.doTask, doTask, Hub.rearm]
  rcases hmodify : s.hub.kernel.pollModify h.descriptor (h.registration interest) with ⟨result, k'⟩
  rw [hmodify] at hcalled
  cases result with
  | ok u => exact hs.same (fixtures_idle rfl rfl) (.refl _) hcalled
  | error reason => exact hs.same (fixtures_idle rfl rfl) (.refl _) hcalled

/-- To empty the wake-up pipe is to read from an end of it that is held. -/
theorem tracks_drain (hs : s.Has base s.equipment) : TaskTracks base choice rest s .drain := by
  have hcalled := Kernel.Tracks.used hs.holds.kernel (.inl hs.wakerOut)
    (Kernel.quiet_pipeRead s.hub.kernel s.wakerOut Kernel.drainStep).openSet
  rw [TaskTracks, Noted.doTask, doTask]
  rcases hread : s.hub.kernel.pipeRead s.wakerOut Kernel.drainStep with ⟨result, k'⟩
  rw [hread] at hcalled
  rcases result with (_ | ⟨b, bytes⟩) | _ | reason
  all_goals exact hs.same (fixtures_idle rfl rfl) (.refl _) hcalled

/-- What is read, resumed, registered or armed is open, and so are the listener and the wake-up
pipe. -/
theorem tracks_task (hs : s.Matches base) (ho : s.Orderly) (hstage : s.stage = .batch rest task)
    (choice : Nat) : TaskTracks base choice rest s task := by
  -- a descriptor just accepted is one more than the equipment, until it is entered or refused
  have hidle : (Stage.batch rest task).candidate? = none → s.Has base s.equipment :=
    hs.idle hstage rfl
  have hcandidate : ∀ {d}, (Stage.batch rest task).candidate? = some d →
      s.Has base (d :: s.equipment) :=
    hs.candidate hstage
  cases task with
  | next => exact (hidle rfl).quiet (fixtures_idle rfl rfl) (.refl _) rfl
  | accept => exact tracks_accept (hidle rfl)
  | consider d peer =>
    have hplain : Noted.doTask choice s (.consider d peer) =
        pure (s.doTask choice (.consider d peer)) := rfl
    rw [TaskTracks, hplain, doTask]
    cases s.hub.isFull with
    | true => exact (hcandidate rfl).quiet (fixtures_candidate rfl) (.refl _) rfl
    | false => exact (hcandidate rfl).quiet (fixtures_candidate rfl) (.refl _) rfl
  | enter d peer => exact tracks_enter (hcandidate rfl) peer
  | refuse d =>
    have hs := hcandidate (d := d) rfl
    exact hs.tracks (fixtures_idle rfl rfl) (.done (.closed hs.holds (.refl _) rfl))
  | register h =>
    obtain ⟨c, hstanding⟩ := ho.standing_task hstage rfl
    exact tracks_register (hidle rfl) ((hidle rfl).standing hstanding)
  | giveUp h =>
    have hs := hidle rfl
    exact hs.tracks (fixtures_idle rfl rfl) (Noted.tracks_closeHandle hs.holds hs.poll h).done
  | read h =>
    have hs := hidle rfl
    exact hs.tracks (fixtures_idle rfl (candidate_afterRead ..))
      (Noted.tracks_visit (Noted.confined_onWire Connection.stays_readAll) hs.holds h).done
  | submit h =>
    have hplain : Noted.doTask choice s (.submit h) = pure (s.doTask choice (.submit h)) := rfl
    rw [TaskTracks, hplain, doTask]
    cases s.pool.push h with
    | ok pool => exact (hidle rfl).quiet (fixtures_idle rfl rfl) (.refl _) rfl
    | error e => exact (hidle rfl).quiet (fixtures_idle rfl rfl) (.refl _) rfl
  | announce => exact (hidle rfl).quiet (fixtures_idle rfl rfl) (.refl _) rfl
  | resume h =>
    have hs := hidle rfl
    exact hs.tracks (fixtures_idle rfl (candidate_afterResume ..))
      (Noted.tracks_runStep (Noted.confined_onWire Connection.stays_resume) hs.holds hs.poll h).done
  | rearm h interest =>
    obtain ⟨c, hstanding⟩ := ho.standing_task hstage rfl
    exact tracks_rearm (hidle rfl) ((hidle rfl).standing hstanding) interest
  | close h =>
    have hs := hidle rfl
    exact hs.tracks (fixtures_idle rfl rfl) (Noted.tracks_closeHandle hs.holds hs.poll h).done
  | drain => exact tracks_drain (hidle rfl)

/-! ## Coming to an end

Who comes last closes what is left. -/

theorem fixtures_ready (hready : s.stage = .ready) :
    s.fixtures = [s.listener, s.wakerOut, s.wakerIn] := by
  rw [fixtures, isGone, hready]
  rfl

/-- When it is gone the wake-up pipe is all that may be left. -/
theorem fixtures_gone (hgone : s.isGone = true) :
    s.fixtures = if s.handles = 0 then [] else [s.wakerOut, s.wakerIn] := by
  have hrest : s.stage.candidate? = none ∧ s.stage.hasPoll = false := by
    rcases isGone_iff.mp hgone with hstage | ⟨result, hstage⟩ <;> rw [hstage] <;> exact ⟨rfl, rfl⟩
  rw [fixtures, hrest.1, hrest.2, hgone, Bool.true_and]
  by_cases hhandles : s.handles = 0
  · rw [hhandles]
    rfl
  · rw [decide_eq_false hhandles, if_neg hhandles]
    rfl

/-- The wake-up pipe is closed if nobody is left who can request a stop. -/
theorem tracks_closeWaker (hs : s.hub.Holds base [s.wakerOut, s.wakerIn])
    (hgone : s.isGone = true) :
    Server.Tracks base (s.hub.holdings [s.wakerOut, s.wakerIn]) (Noted.closeWaker s).entries
      (Noted.closeWaker s).value := by
  rw [Noted.closeWaker]
  split
  · next hhandles =>
    have hfixtures : ∀ k, (s.withKernel k).fixtures = [] := fun k =>
      (fixtures_gone (s := s.withKernel k) hgone).trans (if_pos hhandles)
    have hout : Hub.Tracks base (s.hub.holdings [s.wakerOut, s.wakerIn]) [.closed s.wakerOut]
      [s.wakerIn]
        (s.withKernel (s.hub.kernel.close s.wakerOut)).hub := .closed hs (.refl _) rfl
    exact tracks_of (hfixtures _) (hout.append (.done (.closed hout.holds (.refl _) rfl)))
  · next hhandles =>
    exact tracks_of ((fixtures_gone hgone).trans (if_neg hhandles))
      (.same hs (.refl _) (.rest hs.kernel rfl))

/-- A server that goes closes its listener. -/
theorem tracks_leave (hs : s.hub.Holds base [s.listener, s.wakerOut, s.wakerIn]) (stage : Stage)
    (hstage : (s.goTo stage).isGone = true) :
    Server.Tracks base (s.hub.holdings [s.listener, s.wakerOut, s.wakerIn])
      (Noted.leave s stage).entries
      (Noted.leave s stage).value := by
  have hclosed : Hub.Tracks base (s.hub.holdings [s.listener, s.wakerOut, s.wakerIn])
      [.closed s.listener] [s.wakerOut, s.wakerIn]
      ((s.withKernel (s.hub.kernel.close s.listener)).goTo stage).hub := .closed hs (.refl _) rfl
  exact hclosed.append
    (tracks_closeWaker (s := (s.withKernel (s.hub.kernel.close s.listener)).goTo stage)
    hclosed.holds
      hstage)

/-- **To start to serve** is to obtain the poll set; where there is none, or no memory, the server
goes at once, and closes what it has. -/
theorem tracks_serve (hs : s.Matches base) (hready : s.stage = .ready) :
    Server.Tracks base s.holdings (Noted.serve s).entries (Noted.serve s).value := by
  have hs : s.Has base [s.listener, s.wakerOut, s.wakerIn] :=
    ⟨fixtures_ready hready, fixtures_ready hready ▸ hs⟩
  rw [holdings, hs.fixtures, Noted.serve]
  rcases Noted.tracks_createPoll hs.holds.kernel with
    ⟨poll, k', hvalue, hfree, htracks⟩ | ⟨reason, k', hvalue, htracks⟩
  · have hopened : Hub.Tracks base (s.hub.holdings [s.listener, s.wakerOut, s.wakerIn])
        (Noted.createPoll s.hub.kernel).entries [poll, s.listener, s.wakerOut, s.wakerIn]
        (s.withKernel k').hub := .opened hs.holds (.refl _) hfree htracks
    rw [Noted.bind_of_value hvalue]
    dsimp only
    split
    · exact tracks_of (fixtures_idle rfl rfl) hopened.done
    · have hclosed : Hub.Tracks base
        ((s.withKernel k').hub.holdings [poll, s.listener, s.wakerOut, s.wakerIn])
          [.closed poll] [s.listener, s.wakerOut, s.wakerIn] (s.withKernel (k'.close poll)).hub :=
        .closed hopened.holds (.refl _) rfl
      have hleft := tracks_leave (s := s.withKernel (k'.close poll)) hclosed.holds
        (.over (.error (.crash .sizeTooLarge))) rfl
      exact hopened.append (hclosed.append hleft)
  · have hsame : Hub.Tracks base (s.hub.holdings [s.listener, s.wakerOut, s.wakerIn])
        (Noted.createPoll s.hub.kernel).entries [s.listener, s.wakerOut, s.wakerIn]
        (s.withKernel k').hub := .same hs.holds (.refl _) htracks
    rw [Noted.bind_of_value hvalue]
    exact hsame.append (tracks_leave (s := s.withKernel k') hsame.holds
      (.over (.error (.system reason))) rfl)

/-! ## The steps of the loop -/

/-- Listener and wake-up pipe are added to the poll set by calls on both. -/
theorem tracks_addStanding (hs : s.Has base s.equipment) (hd : d ∈ s.equipment) (token : UInt64)
    {after : Stage} (hpoll : after.hasPoll = true) (hnone : after.candidate? = none) :
    Server.Tracks base s.holdings (Noted.control s.poll d (s.addStanding d token after)).entries
      (s.addStanding d token after) := by
  have hcalled := Noted.tracks_control hs.holds.kernel (.inl hs.poll) (.inl hd)
    (s.hub.kernel.openSet_pollAdd d (standing token))
  rw [addStanding]
  rcases hadd : s.hub.kernel.pollAdd d (standing token) with ⟨result, k'⟩
  rw [hadd] at hcalled
  cases result with
  | ok u => exact hs.same (fixtures_idle hpoll hnone) (.refl _) hcalled
  | error reason => exact hs.same (fixtures_idle rfl rfl) (.refl _) hcalled

/-- To wait is a call on the poll set. -/
theorem tracks_beginWait (hs : s.Has base s.equipment) :
    Server.Tracks base s.holdings (Noted.call s.poll s.beginWait).entries s.beginWait := by
  have hcalled := Kernel.Tracks.used hs.holds.kernel (.inl hs.poll)
    (Kernel.quiet_beginWait s.hub.kernel s.config.maxEvents).openSet
  rw [beginWait]
  rcases hwait : s.hub.kernel.beginWait s.config.maxEvents with ⟨result, k'⟩
  rw [hwait] at hcalled
  cases result with
  | waits => exact hs.same (fixtures_idle rfl rfl) (.refl _) hcalled
  | empty => exact hs.same (fixtures_idle rfl rfl) (.refl _) hcalled
  | failed reason => exact hs.same (fixtures_idle rfl rfl) (.refl _) hcalled

/-- To start a worker is no call on a descriptor. -/
theorem tracks_spawnWorker (hs : s.Has base s.equipment) (left : Nat) :
    Server.Tracks base s.holdings [] (s.spawnWorker left) := by
  have htake := (Kernel.quiet_takeFault s.hub.kernel .spawnThread).openSet
  rw [spawnWorker]
  rcases hfault : s.hub.kernel.takeFault .spawnThread with ⟨fault, k'⟩
  rw [hfault] at htake
  rcases fault with _ | (n | reason)
  all_goals exact hs.quiet (fixtures_idle rfl rfl) (.refl _) htake

/-- What an event calls for brings no client yet. -/
theorem candidate_taskOf (rest : List Event) (e : Event) :
    (Stage.batch rest (taskOf e)).candidate? = none := by
  simp only [taskOf]
  split
  · rfl
  · split
    · rfl
    · split
      · rfl
      · split
        · rfl
        · split <;> rfl

/-- The next task of a batch. -/
theorem tracks_batch (hs : s.Matches base) (ho : s.Orderly) (hstage : s.stage = .batch rest task)
    {x : Noted Server} (hx : Noted.loopStep choice s = some x) :
    Server.Tracks base s.holdings x.entries x.value := by
  by_cases hnext : task = .next
  · subst hnext
    have hs := hs.idle hstage rfl rfl
    simp only [Noted.loopStep, hstage, loopStep] at hx
    cases rest with
    | nil =>
      obtain rfl := Option.some.inj hx
      exact hs.quiet (fixtures_idle rfl rfl) (.refl _) rfl
    | cons e rest =>
      obtain rfl := Option.some.inj hx
      exact hs.quiet (fixtures_idle rfl (candidate_taskOf rest e)) (.refl _) rfl
  · rw [Noted.loopStep_batch hstage hnext] at hx
    split at hx
    · cases hx
    · obtain rfl := Option.some.inj hx
      exact (tracks_task hs ho hstage choice).done

/-- **The entries of a step of the loop** lead to what is held after it. The cases are those of
the stage; each closes what its stage says that it closes. -/
theorem tracks_loopStep (hs : s.Matches base) (hc : s.Coherent) {x : Noted Server}
    (hx : Noted.loopStep choice s = some x) : Server.Tracks base s.holdings x.entries x.value := by
  cases hstage : s.stage with
  -- only a batch works on connections; at every other stage the loop is idle
  | batch rest task => exact tracks_batch hs (hc.orderly (by rw [hstage]; rfl)).1 hstage hx
  | spawning left =>
    have hs := hs.idle hstage rfl rfl
    cases left with
    | zero =>
      simp only [Noted.loopStep, hstage, loopStep, Option.map_some, Option.some.injEq] at hx
      exact hx ▸ hs.quiet (fixtures_idle rfl rfl) (.refl _) rfl
    | succ left =>
      simp only [Noted.loopStep, hstage, loopStep, Option.map_some, Option.some.injEq] at hx
      exact hx ▸ tracks_spawnWorker hs left
  | addListener =>
    have hs := hs.idle hstage rfl rfl
    simp only [Noted.loopStep, hstage, Option.some.injEq] at hx
    exact hx ▸ tracks_addStanding hs hs.listener _ rfl rfl
  | addWaker =>
    have hs := hs.idle hstage rfl rfl
    simp only [Noted.loopStep, hstage, Option.some.injEq] at hx
    exact hx ▸ tracks_addStanding hs hs.wakerOut _ rfl rfl
  | checking =>
    have hs := hs.idle hstage rfl rfl
    simp only [Noted.loopStep, hstage, loopStep, Option.map_some, Option.some.injEq] at hx
    subst hx
    cases hflag : s.stop.flag with
    | true => exact hs.quiet (fixtures_idle rfl rfl) (.refl _) rfl
    | false => exact hs.quiet (fixtures_idle rfl rfl) (.refl _) rfl
  | polling =>
    have hs := hs.idle hstage rfl rfl
    simp only [Noted.loopStep, hstage, Option.some.injEq] at hx
    exact hx ▸ tracks_beginWait hs
  | waiting =>
    have hs := hs.idle hstage rfl rfl
    simp only [Noted.loopStep, hstage] at hx
    split at hx
    · obtain rfl := Option.some.inj hx
      exact hs.same (fixtures_idle rfl rfl) (.refl _) (.used hs.holds.kernel (.inl hs.poll) rfl)
    · cases hx
  | stopping result =>
    have hs := hs.idle hstage rfl rfl
    simp only [Noted.loopStep, hstage, loopStep, Option.map_some, Option.some.injEq] at hx
    exact hx ▸ hs.quiet (fixtures_idle rfl rfl) (.refl _) rfl
  | releasing left result =>
    have hs := hs.idle hstage rfl rfl
    cases left with
    | zero =>
      simp only [Noted.loopStep, hstage, loopStep, Option.map_some, Option.some.injEq] at hx
      exact hx ▸ hs.quiet (fixtures_idle rfl rfl) (.refl _) rfl
    | succ left =>
      simp only [Noted.loopStep, hstage, loopStep, Option.map_some, Option.some.injEq] at hx
      exact hx ▸ hs.quiet (fixtures_idle rfl rfl) (.refl _) rfl
  | joining result =>
    have hs := hs.idle hstage rfl rfl
    simp only [Noted.loopStep, hstage, loopStep] at hx
    split at hx
    · obtain rfl := Option.some.inj hx
      exact hs.quiet (fixtures_idle rfl rfl) (.refl _) rfl
    · cases hx
  -- the table is dropped slot by slot, and each open one's descriptor with it
  | closing slots result =>
    have hs := hs.idle hstage rfl rfl
    cases slots with
    | nil =>
      simp only [Noted.loopStep, hstage, loopStep, Option.map_some, Option.some.injEq] at hx
      exact hx ▸ hs.quiet (fixtures_idle rfl rfl) (.refl _) rfl
    | cons slot slots =>
      simp only [Noted.loopStep, hstage, Option.some.injEq] at hx
      subst hx
      exact hs.tracks (fixtures_idle rfl rfl)
        (Noted.tracks_closeHandle hs.holds hs.poll ⟨slot⟩).done
  -- the reactor goes first, then what the thread that called holds
  | leaving result =>
    have hs := hs.idle hstage rfl rfl
    simp only [Noted.loopStep, hstage, Option.some.injEq] at hx
    subst hx
    have hclosed : Hub.Tracks base (s.hub.holdings s.equipment) [.closed s.poll]
        [s.listener, s.wakerOut, s.wakerIn] (s.withKernel (s.hub.kernel.close s.poll)).hub :=
      .closed hs.holds (.refl _) rfl
    rw [holdings, hs.fixtures]
    exact hclosed.append (tracks_leave (s := s.withKernel (s.hub.kernel.close s.poll)) hclosed.holds
      (.over result) rfl)
  | _ =>
    simp only [Noted.loopStep, hstage, loopStep] at hx
    cases hx

/-! ## The steps of a worker -/

/-- Parsing is done without a call. -/
theorem tracks_parse (hs : s.Has base s.fixtures) {i : Nat}
    (hstep : s.jobStep i (.parse h) = some t) : Server.Tracks base s.holdings [] t := by
  simp only [jobStep] at hstep
  split at hstep
  · cases hstep
  · cases hc : s.hub.connection? h with
    | none =>
      simp only [Hub.visit, hc, Option.some.injEq] at hstep
      exact hstep ▸ hs.quiet rfl (.refl _) rfl
    | some c =>
      simp only [Hub.visit, hc, Option.some.injEq] at hstep
      subst hstep
      have hparsed : c.parse.2.descriptor = c.descriptor := rfl
      exact hs.quiet rfl (Hub.sameOpen_put hc hparsed s.hub.kernel) rfl

/-- **The entries of a step of a job** lead to what is held after it. -/
theorem tracks_jobStep (hs : s.Matches base) (hpoll : s.poll ∈ s.fixtures) {i : Nat} {job : Job}
    (hmem : job.handle.descriptor ∈ s.holdings) {x : Noted Server}
    (hx : Noted.jobStep s i job = some x) : Server.Tracks base s.holdings x.entries x.value := by
  have hs : s.Has base s.fixtures := ⟨rfl, hs⟩
  cases job with
  | parse h =>
    obtain ⟨t, hstep, rfl⟩ := Option.map_eq_some_iff.mp hx
    exact tracks_parse hs hstep
  | answer h outcome awaited =>
    rw [Noted.jobStep] at hx
    split at hx
    · cases hx
    · obtain rfl := Option.some.inj hx
      have hanswered := Noted.tracks_visit (Noted.confined_answer s.hub.root outcome) hs.holds h
      rw [Noted.visit] at hanswered ⊢
      cases hc : s.hub.connection? h with
      | none => exact hs.quiet rfl (.refl _) rfl
      | some c =>
        rw [hc] at hanswered
        exact hs.tracks rfl hanswered.done
  | close h =>
    obtain rfl := Option.some.inj hx
    exact hs.tracks rfl (Noted.tracks_closeHandle hs.holds hpoll h).done
  | rearm h interest =>
    obtain ⟨t, hstep, rfl⟩ := Option.map_eq_some_iff.mp hx
    have hcalled := Noted.tracks_control hs.holds.kernel (.inl hpoll) hmem
      (s.hub.kernel.openSet_pollModify h.descriptor (h.registration interest))
    rw [jobStep, Hub.rearm] at hstep
    rcases hmodify : s.hub.kernel.pollModify h.descriptor
      (h.registration interest) with ⟨result, k'⟩
    rw [hmodify] at hcalled hstep
    cases result with
    | ok u =>
      obtain rfl := Option.some.inj hstep
      exact hs.same rfl (.refl _) hcalled
    | error reason =>
      obtain rfl := Option.some.inj hstep
      exact hs.same rfl (.refl _) hcalled
  | giveUp h =>
    rw [Noted.jobStep] at hx
    split at hx
    · cases hx
    · obtain rfl := Option.some.inj hx
      exact hs.tracks rfl (Noted.tracks_closeHandle hs.holds hpoll h).done

/-- A worker that has a job has it while the server serves. -/
theorem tracks_workerStep (hs : s.Matches base) (hc : s.Coherent) {i : Nat} {x : Noted Server}
    (hx : Noted.workerStep s i = some x) : Server.Tracks base s.holdings x.entries x.value := by
  have hstep : s.workerStep i = some x.value := by
    rw [← Noted.value_workerStep, hx]
    rfl
  have hidle : ∀ {pool : Pool Handle Job}, Server.Tracks base s.holdings [] { s with pool } :=
    Has.quiet ⟨rfl, hs⟩ rfl (.refl _) rfl
  rw [Noted.workerStep] at hx
  split at hx
  · next job hworker =>
    have hserving : s.stage.isServing = true := by
      cases hc with
      | unopened _ hs => rw [hs.workers] at hworker; cases hworker
      | serving hserving => exact hserving
      | closing _ hs => rw [workerStep_of_isOver hs.isOver] at hstep; cases hstep
      | ended _ hs => rw [workerStep_of_isOver hs.isOver] at hstep; cases hstep
    have hpoll : s.poll ∈ s.fixtures := by
      rw [fixtures_of_hasPoll (Stage.hasPoll_of_isServing hserving)]
      exact List.mem_append_right _ List.mem_cons_self
    obtain ⟨c, hstanding⟩ := (hc.orderly hserving).1.standing_job hworker
    exact tracks_jobStep hs hpoll (Has.standing ⟨rfl, hs⟩ hstanding) hx
  · next hfree =>
    obtain ⟨t, hpool, rfl⟩ := Option.map_eq_some_iff.mp hx
    rw [workerStep] at hpool
    split at hpool
    · next job hworker => exact absurd hworker (hfree job)
    · obtain ⟨y, -, rfl⟩ := Option.map_eq_some_iff.mp hpool
      exact hidle

/-! ## The steps of a server

Those of the loop, of the workers, and of everybody else who holds something of the server's. -/

/-- A server that is not gone keeps the wake-up pipe whoever else can request a stop. -/
theorem fixtures_handles {handles : Nat} (h : s.isGone = false ∨ s.handles ≠ 0 ∧ handles ≠ 0) :
    Server.fixtures { s with handles } = s.fixtures := by
  have hsame : (s.isGone && decide (handles = 0)) = (s.isGone && decide (s.handles = 0)) := by
    rcases h with hgone | ⟨hone, hother⟩
    · rw [hgone]
      rfl
    · rw [decide_eq_false hone, decide_eq_false hother]
  have hgone : Server.isGone { s with handles } = s.isGone := rfl
  rw [fixtures, fixtures, hgone]
  dsimp only
  rw [hsame]

/-- Those who can request a stop keep the wake-up pipe open. -/
theorem wakerIn_mem (hhandles : s.handles ≠ 0) : s.wakerIn ∈ s.fixtures := by
  rw [fixtures, decide_eq_false hhandles, Bool.and_false]
  exact List.mem_append_right _ (List.mem_cons_of_mem _ List.mem_cons_self)

/-- Who goes as the last one when the server is gone closes the wake-up pipe. -/
theorem tracks_releaseHandle (hs : s.Matches base) {x : Noted Server}
    (hx : Noted.releaseHandle? s = some x) : Server.Tracks base s.holdings x.entries x.value := by
  rw [Noted.releaseHandle?] at hx
  split at hx
  · cases hx
  · next handles hhandles =>
    obtain rfl := Option.some.inj hx
    have hone : s.handles ≠ 0 := hhandles ▸ Nat.succ_ne_zero _
    split
    · next hgone =>
      have hfixtures := (fixtures_gone (s := s) hgone).trans (if_neg hone)
      rw [holdings, hfixtures]
      exact tracks_closeWaker (s := { s with handles }) (hfixtures ▸ hs) hgone
    · next hgone =>
      have hgone : s.isGone = false := Bool.not_eq_true _ ▸ hgone
      exact Has.quiet ⟨rfl, hs⟩ (fixtures_handles (.inl hgone)) (.refl _) rfl

/-- **The entries of a step are proper for what is held, and lead to what is held after it**,
whoever takes the step. -/
theorem tracks_perform (hs : s.Matches base) (hc : s.Coherent) (hr : s.Requested) {a : Action}
    (hstep : s.perform? a = some t) : Server.Tracks base s.holdings (s.entries a) t := by
  obtain ⟨x, hx, rfl, hentries⟩ := noted_of_perform? hstep
  rw [← hentries]
  have hs' : s.Has base s.fixtures := ⟨rfl, hs⟩
  cases a with
  | serve =>
    simp only [Noted.perform?] at hx
    split at hx
    · next hready =>
      obtain rfl := Option.some.inj hx
      exact tracks_serve hs hready
    · cases hx
  | drop =>
    simp only [Noted.perform?] at hx
    split at hx
    · next hready =>
      obtain rfl := Option.some.inj hx
      have hfixtures := fixtures_ready hready
      rw [holdings, hfixtures]
      exact tracks_leave (hfixtures ▸ hs) .dropped rfl
    · cases hx
  | loop choice => exact tracks_loopStep hs hc hx
  | worker i => exact tracks_workerStep hs hc hx
  -- a handle's write goes to the pipe's other end, which the handle holds open
  | wake =>
    obtain ⟨u, hwake, rfl⟩ := Option.map_eq_some_iff.mp hx
    rw [wake?] at hwake
    split at hwake
    · cases hwake
    · next underWay hunderWay =>
      have hhandles := hr (hunderWay ▸ Nat.succ_ne_zero _)
      obtain rfl := Option.some.inj hwake
      exact hs'.same rfl (.refl _) (.used hs'.holds.kernel (.inl (wakerIn_mem hhandles))
        (Kernel.quiet_wake ..).openSet)
  | releaseHandle =>
    simp only [Noted.perform?] at hx
    split at hx
    · exact tracks_releaseHandle hs hx
    · cases hx
  | requestStop =>
    obtain ⟨u, hrequest, rfl⟩ := Option.map_eq_some_iff.mp hx
    rw [perform?] at hrequest
    split at hrequest
    · cases hrequest
    · obtain rfl := Option.some.inj hrequest
      exact hs'.quiet rfl (.refl _) rfl
  | connect =>
    obtain rfl := Option.some.inj hx
    exact hs'.quiet rfl (.refl _) (s.hub.kernel.openSet_connect s.listener)
  | client m act =>
    obtain rfl := Option.some.inj hx
    exact hs'.quiet rfl (.refl _) (s.hub.kernel.openSet_asClient m fun st => ((), act.perform st))
  | openPipe place =>
    obtain rfl := Option.some.inj hx
    exact hs'.quiet rfl (.refl _) rfl

/-- A signal that cuts a wait short. -/
theorem tracks_interrupt (hs : s.Matches base) (hstage : s.stage = .waiting) :
    Server.Tracks base s.holdings [.used s.poll] (s.goTo .checking) := by
  have hs := hs.idle hstage rfl rfl
  exact hs.same (fixtures_idle rfl rfl) (.refl _) (.used hs.holds.kernel (.inl hs.poll) rfl)

end Server

end FileServer
