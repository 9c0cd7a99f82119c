import FileServer.Proofs.Server.Admission

/-!
# The server refines a sequential one

One client connects, and sends its requests one at a time; the other clients do what they like, and
the loop, the workers and the kernel take their steps in any order (`Server.Conversation`). Then
what is written to this client is at every moment a first part of what a sequential server would
send it, and as long as the server serves its connection is closed when the last response is
complete, and not before (`Server.sequential_refinement`).

While the server serves, this is so because the client is attended to (`Server.Attended`). Before
that the client waits, and once the server comes to its end nothing is written any more
(`Server.Passive`); `Server.Followed` puts the three together.

The proof is by induction on the conversation (`Server.Followed.conversation`). Its step is that of
`Server.Attended` while the server serves; that a client is still followed when the server starts,
and when it stops, needs only that nothing is written to it then (`Server.Unopened.passive`,
`Server.Ending.passive`). What the client is shown is read off where it is attended to
(`Server.Attended.sequential`).
-/

namespace FileServer

open Reference (keeps reply transcript Polite Last)

/-- Whether a server has stopped serving. -/
def Stage.isPast : Stage → Bool
  | .closing .. | .leaving _ | .over _ | .dropped => true
  | _ => false

/-- A server has yet to begin, serves, or has stopped. -/
theorem Stage.cases (stage : Stage) :
    stage = .ready ∨ stage.isServing = true ∨ stage.isPast = true := by
  cases stage with
  | ready => exact .inl rfl
  | _ => first | exact .inr (.inl rfl) | exact .inr (.inr rfl)

theorem Stage.not_serving_of_isPast {stage : Stage} (h : stage.isPast = true) :
    stage.isServing = false := by
  cases stage with
  | _ => first | rfl | cases h

/-- A response that is not complete is not the last one. -/
theorem Reference.Last.complete {site : Site} {root : String} {done due : List Bytes}
    {outbound : Bytes}
    (hkeep : ∀ p ∈ done, keeps p = true) (hlast : Last site root (done ++ due) outbound) :
    ∃ q rest, due = q :: rest ∧ (transcript site root (done ++ [q])).length ≤ outbound.length := by
  obtain ⟨done', q', rest', hsplit, hkeep', hq', rfl⟩ := hlast
  have hfirst : ∀ more : List Bytes, done' = done ++ more → due = more ++ q' :: rest' →
      ∃ q rest, due = q :: rest ∧ (transcript site root (done ++ [q])).length ≤
        (transcript site root (done' ++ [q'])).length := by
    rintro more rfl rfl
    cases more with
    | nil => exact ⟨q', rest', rfl, Nat.le_of_eq (by rw [List.append_nil])⟩
    | cons p more =>
      have hle := (Reference.transcript_first site root (done ++ [p]) (more ++ [q'])).length_le
      refine ⟨p, more ++ q' :: rest', rfl, ?_⟩
      simpa only [List.append_assoc, List.singleton_append, List.cons_append, List.nil_append]
        using hle
  rcases List.append_eq_append_iff.mp hsplit with ⟨more, hdone, hdue⟩ | ⟨more, hdone, hdue⟩
  · exact hfirst more hdone hdue
  · cases more with
    | nil => exact hfirst [] (by rw [hdone, List.append_nil, List.append_nil]) hdue.symm
    | cons p more =>
      -- the request that ends the connection is not among those answered before
      obtain ⟨rfl, -⟩ := List.cons.inj hdue
      rw [hkeep q' (hdone ▸ List.mem_append_right _ List.mem_cons_self)] at hq'
      cases hq'

namespace Server

variable {s t start : Server} {a : Action} {n : Nat} {site : Site} {root : String}
  {requests : List Bytes} {sent : Bytes} {st : Stream}

/-! ## What one client is shown

What has been written to a client, compared with what a sequential server would have written. -/

/-- The server has closed its end of a stream. -/
def HasDropped (s : Server) (n : Nat) : Prop :=
  ∃ st, s.hub.kernel.streams[n]? = some st ∧ st.dropped = true

/-- What a client with these requests is shown at any moment is what a sequential server would show
it. -/
structure Sequential (site : Site) (root : String) (requests : List Bytes) (s : Server) (n : Nat)
    (st : Stream) : Prop where
  stream : s.hub.kernel.streams[n]? = some st
  /-- what has been written is a first part of the responses -/
  written : st.outbound <+: transcript site root requests
  /-- a connection that has been closed has been sent the last response -/
  closed : s.stage.isServing = true → s.HasDropped n → Last site root requests st.outbound
  /-- one that has been sent the last response is closed, or some worker's next step closes it -/
  ended : s.stage.isServing = true → Last site root requests st.outbound →
    s.HasDropped n ∨ ∃ i t, s.workerStep i = some t ∧ t.HasDropped n

/-- The next step of the worker that is to close a connection does so. -/
theorem Serves.hasDropped {h : Handle} {c : Connection}
    (hs : s.Serves n h (.worker (.close h)) c st) :
    ∃ i t, s.workerStep i = some t ∧ t.HasDropped n := by
  have hjob : Job.close h ∈ s.pool.jobsFor h := by
    have hjobs : s.pool.jobsFor h = [Job.close h] := congrArg Places.jobs hs.standing.places
    rw [hjobs]
    exact List.mem_singleton.mpr rfl
  obtain ⟨i, hi⟩ := Pool.exists_worker hjob
  obtain ⟨-, hdropped⟩ := hs.owns.discard hs.streamOf? hs.stream
  refine ⟨i, { s with hub := s.hub.close h }.finishJob i, ?_, st.drop, ?_, rfl⟩
  · rw [workerStep, hi]
    rfl
  · rw [← Hub.close_kernel hs.standing.connection] at hdropped
    exact hdropped

/-- A client that is attended to is shown what a sequential server would show it. -/
theorem Attended.sequential (hs : Attended site root requests s n sent) :
    ∃ st, Sequential site root requests s n st := by
  obtain ⟨st, hst, hwritten⟩ := hs.written
  have hgoesOn : ∀ {done due part}, Turn requests sent done due part → st.Present →
      (∀ q rest, due = q :: rest →
      st.outbound.length < (transcript site root (done ++ [q])).length) →
      ∃ st, Sequential site root requests s n st := by
    intro done due part ht hp hshort
    refine ⟨st, hst, hwritten, fun _ hdropped => ?_, fun _ hlast => ?_⟩
    · obtain ⟨st', hst', hdropped⟩ := hdropped
      rw [← Option.some.inj (hst.symm.trans hst'), hp.kept] at hdropped
      cases hdropped
    · rw [ht.split] at hlast
      obtain ⟨q, rest, hdue, hle⟩ := hlast.complete ht.keep
      exact absurd (hshort q rest hdue) (Nat.not_lt_of_le hle)
  have hfresh : Fresh requests sent st → ∃ st, Sequential site root requests s n st := by
    intro hf
    refine hgoesOn hf.turn hf.present fun q rest _ => ?_
    rw [hf.outbound, List.nil_append, Reference.transcript_singleton]
    exact Reference.reply_length_pos site root q
  cases hs with
  | waiting hw =>
    obtain ⟨st', hst', hf⟩ := hw.fresh
    exact hfresh (Option.some.inj (hst.symm.trans hst') ▸ hf)
  | accepted hadmits =>
    obtain ⟨st', hst', hf⟩ := hadmits.fresh
    exact hfresh (Option.some.inj (hst.symm.trans hst') ▸ hf)
  | served hserves hp ht hx =>
    obtain rfl := Option.some.inj (hst.symm.trans hserves.stream)
    exact hgoesOn ht hp (hx.short ht.keep)
  | finished hserves hlast =>
    obtain rfl := Option.some.inj (hst.symm.trans hserves.stream)
    exact ⟨st, hst, hwritten, fun _ _ => hlast, fun _ _ => .inr hserves.hasDropped⟩
  | gone _ hst' hdropped hlast =>
    obtain rfl := Option.some.inj (hst.symm.trans hst')
    exact ⟨st, hst, hwritten, fun _ _ => hlast, fun _ _ => .inl ⟨st, hst, hdropped⟩⟩

/-! ## Before and after

A server that does not serve writes nothing, so what a client has been shown stays as it is. -/

/-- What happens outside is beside every descriptor, as long as the server is not gone. -/
theorem beside_outside (hgone : s.isGone = false) (ha : a.isOutside = true)
    (hstep : s.perform? a = some t) : Beside a s t fun _ => True := by
  cases perform?_cases hstep with
  | requestStop => exact .of_keeps (fun _ => rfl) fun _ _ => .refl ..
  | wake =>
    have hquiet := Kernel.quiet_wake s.hub.kernel s.wakerIn
    exact .of_keeps (fun _ => rfl) fun d _ => (hquiet.leaves d).toKeeps
  | releaseHandle => exact .of_keeps (fun _ => rfl) fun _ _ => .refl ..
  | closeHandle hgone' => cases hgone.symm.trans hgone'
  | connect =>
    rcases Kernel.connect_cases s.hub.kernel s.listener with ⟨m, k, heq, hk⟩ | heq
    · rw [connect, heq]
      exact .connected rfl hk
    · rw [connect, heq]
      exact .of_keeps (fun _ => rfl) fun _ _ => .refl ..
  | client m act => exact .kept fun d _ => s.untouched_client m act d
  | serve => cases ha
  | drop => cases ha
  | loop => cases ha
  | worker => cases ha
  | openPipe => cases ha

/-- What happens to a server before it serves: it goes on waiting, begins to serve, or comes to
its end, and writes nothing. Clients may connect meanwhile, and wait. -/
theorem Unopened.passive (hs : s.Unopened) (hstage : s.stage = .ready)
    (hstep : s.perform? a = some t) :
    s.Passive t ∧ (t.stage.isPast = true ∨
      (t.stage = .ready ∨ t.stage.isServing = true) ∧
        ((∃ l, s.hub.kernel.descriptors.get? s.listener = some (.listener l)) →
          Beside a s t (· = s.listener))) := by
  -- leaving closes descriptors of the server's own and sends nothing
  have hends : ∀ {k : Kernel} (result : Stage), result.isPast = true → s.Passive (s.withKernel k) →
      s.Passive ((s.withKernel k).leave result) ∧
      ((s.withKernel k).leave result).stage.isPast = true := by
    intro k result hresult hpassive
    refine ⟨hpassive.trans (.leave _ result), ?_⟩
    rw [Server.leave, (closeWaker_rest _).1]
    exact hresult
  by_cases ha : a.isOutside = true
  · obtain ⟨hstage', -, -, hpassive⟩ := outside_spec ha hstep
    have hgone : s.isGone = false := by rw [isGone, hstage]; rfl
    exact ⟨hpassive, .inr ⟨.inl (hstage'.trans hstage), fun _ =>
      (beside_outside hgone ha hstep).mono fun _ _ => trivial⟩⟩
  cases perform?_cases hstep with
  | serve =>
    -- setting up may fail in the kernel, or in a vector too large to be addressed
    rcases Kernel.createPoll_cases s.hub.kernel with
      ⟨reason, k, heq, hquiet⟩ | ⟨k, heq, -, hev, hkeeps, hstreams⟩
    · obtain ⟨hpassive, hpast⟩ := hends (.over (.error (.system reason))) rfl
        (.of_quiet rfl rfl hquiet : s.Passive (s.withKernel k))
      rw [Server.serve, heq]
      exact ⟨hpassive, .inl hpast⟩
    · have hcreated : s.Passive (s.withKernel k) :=
        ⟨rfl, rfl, hev, fun n => .of_eq (by rw [← hstreams]; rfl)⟩
      simp only [Server.serve, heq]
      split
      · refine ⟨⟨rfl, rfl, hcreated.evolves, hcreated.silent⟩, .inr ⟨.inr rfl, ?_⟩⟩
        rintro ⟨l, hl⟩
        refine .of_keeps (fun _ => rfl) fun d hd => hkeeps d ?_
        rintro rfl
        rw [← hd, Kernel.nextDescriptor_free] at hl
        cases hl
      · have hclosed : s.Passive (s.withKernel (k.close s.hub.kernel.nextDescriptor)) :=
          hcreated.trans (.of_close rfl rfl rfl)
        obtain ⟨hpassive, hpast⟩ := hends (.over (.error (.crash .sizeTooLarge))) rfl hclosed
        exact ⟨hpassive, .inl hpast⟩
  | drop =>
    obtain ⟨hpassive, hpast⟩ := hends (k := s.hub.kernel) .dropped rfl (.of_quiet rfl rfl (.refl _))
    exact ⟨hpassive, .inl hpast⟩
  | loop hloop => cases (loopStep_of_ready hstage _).symm.trans hloop
  | worker hworker => cases (workerStep_of_nil hs.workers _).symm.trans hworker
  | openPipe =>
    exact ⟨.of_quiet rfl rfl (.refl _), .inr ⟨.inl hstage, fun _ =>
      .of_keeps (fun _ => rfl) fun _ _ => .refl ..⟩⟩
  | _ => exact absurd rfl ha

/-- A server that has stopped serving writes nothing any more. -/
theorem Ending.passive {slots : List Int} (hs : s.Ending slots) (hpast : s.stage.isPast = true)
    (hstep : s.perform? a = some t) : s.Passive t ∧ t.stage.isPast = true := by
  by_cases ha : a.isOutside = true
  · obtain ⟨hstage, -, -, hpassive⟩ := outside_spec ha hstep
    exact ⟨hpassive, hstage ▸ hpast⟩
  cases perform?_cases hstep with
  | loop hloop =>
    cases loopStep_cases hloop with
    | closed => exact ⟨.of_quiet rfl rfl (.refl _), rfl⟩
    | @close slot => exact ⟨.closeHub s ⟨slot⟩ _, rfl⟩
    | leave =>
      have hclosed : s.Passive (s.withKernel (s.hub.kernel.close s.poll)) := .of_close rfl rfl rfl
      refine ⟨hclosed.trans (.leave _ _), ?_⟩
      rw [leave, (closeWaker_rest _).1]
      rfl
    | _ hstage => rw [hstage] at hpast; cases hpast
  | worker hworker =>
    rw [workerStep_of_isOver hs.isOver] at hworker
    cases hworker
  | openPipe => exact ⟨.of_quiet rfl rfl (.refl _), hpast⟩
  | serve hready =>
    rw [hready] at hpast
    cases hpast
  | drop hready =>
    rw [hready] at hpast
    cases hpast
  | _ => exact absurd rfl ha

/-- A server that has stopped serving is closing its connections, or has done so. -/
theorem Coherent.ending (hs : s.Coherent) (hpast : s.stage.isPast = true) :
    ∃ slots, s.Ending slots := by
  cases hstage : s.stage with
  | closing slots result => exact ⟨slots, hs.due hstage⟩
  | _ =>
    first
    | exact ⟨[], hs.finished (by rw [hstage]; rfl)⟩
    | (rw [hstage] at hpast; cases hpast)

/-- What the server was set up with stays so, whatever happens. -/
theorem Coherent.evolves (hs : s.Coherent) (hstep : s.perform? a = some t) :
    t.hub.root = s.hub.root ∧ s.hub.kernel.Evolves t.hub.kernel := by
  rcases s.stage.cases with hstage | hserving | hpast
  · obtain ⟨hpassive, -⟩ := (hs.ready hstage).passive hstage hstep
    exact ⟨hpassive.root, hpassive.evolves⟩
  · obtain ⟨horderly, hearly⟩ := hs.orderly hserving
    have hperformed := horderly.perform hserving hearly hstep
    exact ⟨hperformed.root, hperformed.evolves⟩
  · obtain ⟨slots, hending⟩ := hs.ending hpast
    obtain ⟨hpassive, -⟩ := hending.passive hpast hstep
    exact ⟨hpassive.root, hpassive.evolves⟩

/-- A server that serves goes on serving, or stops. -/
theorem stage_serving (hserving : s.stage.isServing = true) (hstep : s.perform? a = some t) :
    t.stage.isServing = true ∨ t.stage.isPast = true := by
  by_cases hloop : ∃ choice, a = .loop choice
  · obtain ⟨choice, rfl⟩ := hloop
    rcases stage_loopStep hserving hstep with ⟨hserving', -⟩ | ⟨result, -, rfl⟩
    · exact .inl hserving'
    · exact .inr rfl
  · have hready : s.stage ≠ .ready := fun hstage => by rw [hstage] at hserving; cases hserving
    rw [stage_perform hready (fun choice ha => hloop ⟨choice, ha⟩) hstep]
    exact .inl hserving

/-- What a server may count on it can count on after every step. -/
theorem Works.step (hworks : s.Works site root) (hs : s.Coherent) (hstep : s.perform? a = some t) :
    t.Works site root := by
  obtain ⟨hroot, hev⟩ := hs.evolves hstep
  exact ⟨hev.site.trans hworks.site, hroot.trans hworks.root, hworks.gentle.evolves hev,
    hworks.sized.perform hstep⟩

/-! ## One client and all that happens beside

One step of a conversation: the client does something, or somebody else does. -/

/-- How one client fares, from before the server serves until after. -/
inductive Followed (site : Site) (root : String) (requests : List Bytes) (s : Server) (n : Nat)
    (sent : Bytes) : Prop
  | opening : s.stage = .ready → s.Waits n requests sent → Followed site root requests s n sent
  | serving : s.stage.isServing = true → Attended site root requests s n sent →
    Followed site root requests s n sent
  | past {st : Stream} : s.stage.isPast = true → s.hub.kernel.streams[n]? = some st →
    st.outbound <+: transcript site root requests → Followed site root requests s n sent

namespace Followed

/-- Wherever the client is, what it is shown is right. -/
theorem sequential (hs : Followed site root requests s n sent) :
    ∃ st, Sequential site root requests s n st := by
  cases hs with
  | opening _ hw => exact (Attended.waiting hw).sequential
  | serving _ hattended => exact hattended.sequential
  | @past st hpast hst hwritten =>
    have hserving : s.stage.isServing ≠ true := by
      rw [Stage.not_serving_of_isPast hpast]
      rintro ⟨⟩
    exact ⟨st, hst, hwritten, fun h => absurd h hserving, fun h => absurd h hserving⟩

/-- Once the server has stopped serving the client is sent nothing. -/
theorem of_passive (hpassive : s.Passive t) (hpast : t.stage.isPast = true)
    (hst : s.hub.kernel.streams[n]? = some st)
    (hwritten : st.outbound <+: transcript site root requests) :
    Followed site root requests t n sent := by
  obtain ⟨st', hst', hsilent⟩ := hpassive.silent n st hst
  refine .past hpast hst' ?_
  rw [hsilent.outbound]
  exact hwritten

/-- The client does something. -/
theorem client {act : ClientAction} {sent' : Bytes} (hs : Followed site root requests s n sent)
    (hst : s.hub.kernel.streams[n]? = some st)
    (hact : Polite site root requests sent st.received act sent') :
    Followed site root requests (s.clientDoes n act) n sent' := by
  cases hs with
  | opening hstage hw => exact .opening hstage (hw.client hst hact)
  | serving hserving hattended => exact .serving hserving (hattended.client hst hact)
  | @past st' hpast hst' hwritten =>
    obtain rfl := Option.some.inj (hst.symm.trans hst')
    refine .past hpast (clientDoes_self act hst) ?_
    rw [(act.silent st).outbound]
    exact hwritten

/-- **Something else happens.** While the server serves this is the step lemma of `Attended`;
before and after, nothing is written. -/
theorem step (hs : Followed site root requests s n sent) (hcoherent : s.Coherent)
    (hworks : s.Works site root) (hsite : site.Addressable) (hroom : s.hasRoom = true)
    (hwhole : ∀ q ∈ requests, Request.IsWhole q) (ha : a.upon n = id)
    (hstep : s.perform? a = some t) : Followed site root requests t n sent := by
  cases hs with
  | opening hstage hw =>
    obtain ⟨hpassive, hpast | ⟨hstage', hbeside⟩⟩ := (hcoherent.ready hstage).passive hstage hstep
    · obtain ⟨st, hst, hfresh⟩ := hw.fresh
      exact of_passive hpassive hpast hst (hfresh.outbound ▸ List.nil_prefix)
    · rcases hw.step (hbeside hw.awaits) rfl hpassive.listener ha with hw' | hadmits
      · rcases hstage' with hready | hserving
        · exact .opening hready hw'
        · exact .serving hserving (.waiting hw')
      · refine .serving ?_ (.accepted hadmits)
        obtain ⟨rest, d, peer, hbatch, -⟩ := hadmits.place
        rcases hbatch with hbatch | hbatch <;> rw [hbatch] <;> rfl
  | serving hserving hattended =>
    obtain ⟨horderly, hearly⟩ := hcoherent.orderly hserving
    have hattended' := hattended.step horderly (horderly.perform hserving hearly hstep) hstep hworks
      hsite hroom hwhole ha
    rcases stage_serving hserving hstep with hserving' | hpast
    · exact .serving hserving' hattended'
    · obtain ⟨st, hst, hwritten⟩ := hattended'.written
      exact .past hpast hst hwritten
  | @past st hpast hst hwritten =>
    obtain ⟨slots, hending⟩ := hcoherent.ending hpast
    obtain ⟨hpassive, hpast'⟩ := hending.passive hpast hstep
    exact of_passive hpassive hpast' hst hwritten

end Followed

/-! ## Runs

The whole conversation, from the moment at which the client connects. -/

/-- A run in which one client, the `n`th, sends its requests one at a time and receives what it
likes; in between anything else may happen, as long as the limits leave room. Its index is what this
client has sent so far. -/
inductive Conversation (site : Site) (root : String) (requests : List Bytes) (n : Nat)
    (connected : Server) : Bytes → Server → Prop
  | start : Conversation site root requests n connected [] connected
  | client {s : Server} {sent sent' : Bytes} {st : Stream} {act : ClientAction} :
    Conversation site root requests n connected sent s → s.hub.kernel.streams[n]? = some st →
    Polite site root requests sent st.received act sent' →
    Conversation site root requests n connected sent' (s.clientDoes n act)
  | other {s t : Server} {sent : Bytes} {a : Action} :
    Conversation site root requests n connected sent s → s.hasRoom = true →
    a.isOf n = false → s.perform? a = some t →
    Conversation site root requests n connected sent t

/-- What holds at the start of a run holds at its end. -/
theorem Works.reachable (hworks : start.Works site root) (hs : start.Coherent)
    (hrange : start.hub.kernel.InRange) (hreach : Reachable start s) :
    s.Coherent ∧ s.Works site root ∧ s.hub.kernel.InRange := by
  induction hreach with
  | refl => exact ⟨hs, hworks, hrange⟩
  | step _ hstep ih =>
    obtain ⟨hcoherent, hworks, hrange⟩ := ih
    exact ⟨hcoherent.step hstep, hworks.step hcoherent hstep,
      (hcoherent.evolves hstep).2.inRange hrange⟩

/-- A client that connects waits, or finds a server that has stopped. -/
theorem followed_connect (hrange : s.hub.kernel.InRange) (hconnect : s.connect = (some n, t)) :
    Followed site root requests t n [] := by
  rcases Kernel.connect_cases s.hub.kernel s.listener with ⟨m, k, heq, hk⟩ | heq
  · rw [connect, heq] at hconnect
    obtain ⟨hm, ht⟩ := Prod.mk.inj hconnect
    obtain rfl := Option.some.inj hm
    have hst : t.hub.kernel.streams[m]? = some {} := by
      rw [← ht, withKernel, hk.streams, hk.number]
      exact List.getElem?_concat_length
    have hfresh : Fresh requests [] {} :=
      ⟨⟨⟨rfl, rfl, rfl⟩, rfl, Nat.le_refl _⟩, rfl, rfl, List.nil_prefix⟩
    have hwaits : t.Waits m requests [] := by
      refine ⟨?_, ?_, {}, hst, hfresh⟩
      · rw [← ht]
        exact hk.listens
      · rw [← ht]
        exact hk.owns_new hrange
    rcases t.stage.cases with hready | hserving | hpast
    · exact .opening hready hwaits
    · exact .serving hserving (.waiting hwaits)
    · exact .past hpast hst List.nil_prefix
  · rw [connect, heq] at hconnect
    cases hconnect

/-- **The run lemma.** Along a conversation the client is followed, by induction on the
conversation. -/
theorem Followed.conversation {connected : Server} (hs : Followed site root requests connected n [])
    (hcoherent : connected.Coherent) (hworks : connected.Works site root) (hsite : site.Addressable)
    (hwhole : ∀ q ∈ requests, Request.IsWhole q)
    (hrun : Conversation site root requests n connected sent s) :
    s.Coherent ∧ s.Works site root ∧ Followed site root requests s n sent := by
  induction hrun with
  | start => exact ⟨hcoherent, hworks, hs⟩
  | @client s sent sent' st act _ hst hact ih =>
    obtain ⟨hcoherent, hworks, hs⟩ := ih
    have hstep : s.perform? (.client n act) = some (s.clientDoes n act) := rfl
    exact ⟨hcoherent.step hstep, hworks.step hcoherent hstep, hs.client hst hact⟩
  | other _ hroom hother hstep ih =>
    obtain ⟨hcoherent, hworks, hs⟩ := ih
    exact ⟨hcoherent.step hstep, hworks.step hcoherent hstep,
      hs.step hcoherent hworks hsite hroom hwhole (Action.upon_other hother) hstep⟩

/-- **Client by client the server refines a sequential one.** A client connects in any state that
the server can reach, and from then on sends whole requests, one at a time. Whatever the other
clients do, and whatever the order of the steps, what it is shown is what a sequential server would
show it. -/
theorem sequential_refinement {k : Kernel} {listener : Int} {config : Config} {connecting : Server}
    {connected : Server} (hstart : ofListener k listener config = .ok start) (hrange : k.InRange)
    (hgentle : k.Gentle) (hsite : k.site.Addressable) (hreach : Reachable start connecting)
    (hconnect : connecting.connect = (some n, connected))
    (hwhole : ∀ q ∈ requests, Request.IsWhole q)
    (hrun : Conversation k.site config.root requests n connected sent s) :
    ∃ st, Sequential k.site config.root requests s n st := by
  obtain ⟨hev, hroot, -, -⟩ := ofListener_spec hstart
  have hworks : start.Works k.site config.root :=
    ⟨hev.site, hroot, hgentle.evolves hev, sized_ofListener hstart⟩
  obtain ⟨hcoherent, hworks, hrange⟩ :=
    hworks.reachable (coherent_ofListener hstart hgentle.honest) (hev.inRange hrange) hreach
  have hstep : connecting.perform? .connect = some connected :=
    congrArg (fun r : Option Nat × Server => some r.2) hconnect
  obtain ⟨-, -, hs⟩ := (followed_connect hrange hconnect).conversation (hcoherent.step hstep)
    (hworks.step hcoherent hstep) hsite hwhole hrun
  exact hs.sequential

/-- The state after some actions of others, if these are possible. -/
def meanwhile? (n : Nat) (s : Server) (actions : List Action) : Option Server :=
  actions.foldlM (fun s a => if s.hasRoom && !a.isOf n then s.perform? a else none) s

/-- A conversation goes on with the actions of others. -/
theorem Conversation.meanwhile {connected : Server} {actions : List Action}
    (hrun : Conversation site root requests n connected sent s)
    (hactions : s.meanwhile? n actions = some t) :
    Conversation site root requests n connected sent t := by
  induction actions generalizing s with
  | nil =>
    obtain rfl := Option.some.inj hactions
    exact hrun
  | cons a rest ih =>
    rw [meanwhile?, List.foldlM_cons] at hactions
    obtain ⟨u, hu, hrest⟩ := Option.bind_eq_some_iff.mp hactions
    split at hu
    · rename_i hboth
      obtain ⟨hroom, hother⟩ := Bool.and_eq_true_iff.mp hboth
      rw [Bool.not_eq_true'] at hother
      exact ih (.other hrun hroom hother hu) hrest
    · cases hu

/-- A kernel with a listener and a site. -/
def publishing : Kernel :=
  { listening with site := ⟨[([], .directory 0o755), (["a"], .file 0o644 [104, 105])]⟩ }

/-- A request for the file that asks to keep the connection. -/
def question : Bytes := .ofText "GET /a HTTP/1.1\r\nConnection: keep-alive\r\n\r\n"

/-- A request for what is not there. -/
def farewell : Bytes := .ofText "GET /b HTTP/1.1\r\n\r\n"

/-- The server starts, accepts the client, answers its first request, and listens again. -/
def firstAnswered : List Action :=
  [.serve, .loop 0, .worker 0] ++ List.replicate 20 (.loop 0) ++ List.replicate 7 (.worker 0)

/-- The server answers another request. -/
def nextAnswered : List Action := List.replicate 11 (.loop 0) ++ List.replicate 5 (.worker 0)

/-- Both requests are answered, with the file and with a response that it is not there, and the
connection is closed after that. -/
theorem sequential_refinement_two_requests : ∃ start connected answered,
    ofListener publishing 3 smallest = .ok start ∧ publishing.InRange ∧ publishing.Gentle ∧
    publishing.site.Addressable ∧ Reachable start start ∧ start.connect = (some 0, connected) ∧
    (∀ q ∈ [question, farewell], Request.IsWhole q) ∧
    Conversation publishing.site "." [question, farewell] 0 connected
      (question ++ farewell) answered ∧
    (∃ st, Sequential publishing.site "." [question, farewell] answered 0 st) ∧
    answered.hub.kernel.streams.map Stream.outbound =
      [transcript publishing.site "." [question, farewell]] := by
  have hrange : publishing.InRange := by
    intro d n hn
    by_cases hd : d = 3
    · have hnone : publishing.refs 3 = [] := rfl
      rw [hd, hnone] at hn
      cases hn
    · rw [Kernel.refs_of_none (DescriptorMap.get?_set_ne _ _ hd)] at hn
      cases hn
  have hgentle : publishing.Gentle := .of_unscripted rfl
  have hsite : publishing.site.Addressable := by
    refine .of_entries (List.forall_mem_cons.mpr ⟨?_, List.forall_mem_singleton.mpr ?_⟩)
    · rintro mode content ⟨⟩
    · rintro mode content ⟨⟩
      decide
  have hwhole : ∀ q ∈ [question, farewell], Request.IsWhole q := by
    refine List.forall_mem_cons.mpr ⟨⟨?_, ?_, ?_⟩, List.forall_mem_singleton.mpr ⟨?_, ?_, ?_⟩⟩ <;>
      decide +kernel
  obtain ⟨start, hstart, hnumber, hstream, hfirst, hnext⟩ : ∃ start : Server,
      ofListener publishing 3 smallest = .ok start ∧ start.connect.1 = some 0 ∧
        start.connect.2.hub.kernel.streams[0]? = some ({} : Stream) ∧
        ((start.connect.2.clientDoes 0 (.send question)).meanwhile? 0 firstAnswered).bind
          (fun s => s.hub.kernel.streams[0]?) =
            some { outbound := transcript publishing.site "." [question] } ∧
        (((start.connect.2.clientDoes 0 (.send question)).meanwhile? 0 firstAnswered).bind fun s =>
          ((s.clientDoes 0 .receive).clientDoes 0 (.send farewell)).meanwhile? 0 nextAnswered).map
            (fun s => s.hub.kernel.streams.map Stream.outbound) =
              some [transcript publishing.site "." [question, farewell]] :=
    ⟨_, rfl, rfl, rfl, by decide +kernel, by decide +kernel⟩
  obtain ⟨listening, hlistening, hstream'⟩ := Option.bind_eq_some_iff.mp hfirst
  rw [hlistening, Option.bind_some] at hnext
  obtain ⟨answered, hanswered, hout⟩ := Option.map_eq_some_iff.mp hnext
  have hconnect : start.connect = (some 0, start.connect.2) := Prod.ext hnumber rfl
  have hask : Polite publishing.site "." [question, farewell] [] 0 (.send question) question :=
    .send ⟨[], question, [farewell], rfl, List.prefix_rfl, Nat.le_refl _⟩
  -- the client goes on when it has received the first response
  have hleave : Polite publishing.site "." [question, farewell] question
      (transcript publishing.site "." [question]).length (.send farewell) (question ++ farewell) :=
    .send ⟨[question], farewell, [], rfl, List.prefix_rfl, Nat.le_refl _⟩
  have hrun : Conversation publishing.site "." [question, farewell] 0 start.connect.2
      (question ++ farewell) answered := by
    have hheard := (Conversation.client .start hstream hask).meanwhile hlistening
    have hreceived := Conversation.client hheard hstream' .receive
    exact (Conversation.client hreceived (clientDoes_self .receive hstream') hleave).meanwhile
      hanswered
  exact ⟨start, start.connect.2, answered, hstart, hrange, hgentle, hsite, .refl, hconnect, hwhole,
    hrun, sequential_refinement hstart hrange hgentle hsite .refl hconnect hwhole hrun, hout⟩

end Server

end FileServer
