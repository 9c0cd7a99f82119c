import FileServer.Proofs.Server.Attendance
import FileServer.Proofs.Server.Ownership

/-!
# Clients come, send and receive

A client that has connected waits at the listener until it is accepted and entered into the table;
then it is served. As long as it sends one request at a time (`Reference.Polite`) it may do so at
any moment, and whatever else happens, `Server.Attended` goes on to hold (`Server.Attended.client`,
`Server.Attended.step`).

The two ways in which a client is concerned are kept apart: what it does itself
(`Server.Attended.client`), which changes its stream and nothing else, and what happens meanwhile
(`Server.Attended.step`), which leaves its stream alone unless its own connection is worked on.
Before it has a connection this is shown here (`Server.Waits.step`, `Server.Admits.step`), and for
the time after that `Server/Attendance` is used.
-/

namespace FileServer

open Request (Heard read inputCapacity)
open Reference (keeps reply transcript MaySend)

/-- What a client does that sends one request at a time and has received so much, with what it has
sent afterwards. -/
inductive Reference.Polite (site : Site) (root : String) (requests : List Bytes) (sent : Bytes)
    (received : Nat) : ClientAction → Bytes → Prop
  | send {bytes : Bytes} : MaySend site root requests sent bytes received →
    Polite site root requests sent received (.send bytes) (sent ++ bytes)
  | receive : Polite site root requests sent received .receive sent

open Reference (Polite)

/-- Whether an action is one of the client of a stream. -/
def Action.isOf (n : Nat) : Action → Bool
  | .client m _ => m = n
  | _ => false

/-- Nobody else does anything to the stream of a client. -/
theorem Action.upon_other {a : Action} {n : Nat} (h : a.isOf n = false) : a.upon n = id := by
  cases a with
  | client m act => rw [Action.upon_client, if_neg (of_decide_eq_false h)]
  | _ => rfl

section

variable {site : Site} {root : String} {requests done due : List Bytes} {sent sent' part : Bytes}
  {act : ClientAction} {h : Handle} {τ : Holder} {c : Connection} {st : Stream}

theorem Stream.Present.client (hp : st.Present)
    (hact : Polite site root requests sent st.received act sent') : (act.perform st).Present := by
  cases hact with
  | send => exact hp.sent _
  | receive => exact hp.receive

/-- The requests that are due begin with the one that the client goes on to send. -/
theorem Turn.send {bytes : Bytes} {received : Nat} (ht : Turn requests sent done due part)
    (hsend : MaySend site root requests sent bytes received)
    (hreceived : ∀ q rest,
      due = q :: rest → received < (transcript site root (done ++ [q])).length) :
    Turn requests (sent ++ bytes) done due (part ++ bytes) := by
  refine ⟨ht.split, ht.keep, ?_, ?_⟩
  · rw [ht.sent_eq, List.append_assoc]
  · rw [ht.split, ht.sent_eq] at hsend
    exact hsend.within ht.part_le hreceived

/-- An exchange goes on whatever its client does, as long as that is polite. What it sends joins
the bytes that wait; what it receives has been written before. -/
theorem Exchange.client (hx : Exchange site root done due part h τ c st) (hp : st.Present)
    (ht : Turn requests sent done due part)
    (hact : Polite site root requests sent st.received act sent') :
    ∃ part', Turn requests sent' done due part' ∧
      Exchange site root done due part' h τ c (act.perform st) := by
  cases hact with
  | receive => exact ⟨part, ht, hx.receive⟩
  | @send bytes hsend =>
    have ht' := ht.send hsend fun q rest hdue =>
      Nat.lt_of_le_of_lt hp.received_le (hx.short ht.keep q rest hdue)
    exact ⟨part ++ bytes, ht', hx.send hp ht'.part_le⟩

end

namespace Server

variable {s t : Server} {a : Action} {n : Nat} {h : Handle} {τ : Holder} {c : Connection}
  {st : Stream} {site : Site} {root : String} {requests : List Bytes} {sent sent' : Bytes}
  {act : ClientAction}

/-! ## What the client does

Everything that a client may do adds to what it has sent or received, and is in step with the
exchange wherever that stands. -/

/-- Nothing has been answered, so all that has been sent is part of the first request. -/
theorem Fresh.turn (hf : Fresh requests sent st) : Turn requests sent [] requests sent :=
  ⟨rfl, by rintro p ⟨⟩, rfl, hf.part_le⟩

/-- To a client who has been answered nothing nothing is there to be received, and what it sends
joins what nobody has read. -/
theorem Fresh.client (hf : Fresh requests sent st)
    (hact : Polite site root requests sent st.received act sent') :
    Fresh requests sent' (act.perform st) := by
  have hp := hf.present.client hact
  cases hact with
  | receive => exact ⟨hp, hf.outbound, hf.inbound, hf.part_le⟩
  | @send bytes hsend =>
    have hreceived : st.received = 0 := by
      have hle := hf.present.received_le
      rw [hf.outbound] at hle
      exact Nat.le_zero.mp hle
    have hturn := hf.turn.send hsend fun q rest _ => by
      rw [hreceived, List.nil_append, Reference.transcript_singleton]
      exact Reference.reply_length_pos site root q
    rw [ClientAction.perform, hf.present.send] at hp ⊢
    exact ⟨hp, hf.outbound, congrArg (· ++ bytes) hf.inbound, hturn.part_le⟩

/-- The state after a client has done something. -/
def clientDoes (s : Server) (n : Nat) (act : ClientAction) : Server :=
  (s.asClient n fun st => ((), act.perform st)).2

/-- What a client does is done to its own stream. -/
theorem clientDoes_self (act : ClientAction) (hst : s.hub.kernel.streams[n]? = some st) :
    (s.clientDoes n act).hub.kernel.streams[n]? = some (act.perform st) := by
  have hstreams := s.hub.kernel.asClient_streams n fun st => ((), act.perform st)
  refine (congrArg (·[n]?) hstreams).trans ?_
  rw [List.getElem?_modify_eq, hst]
  rfl

/-- A client may send before it is accepted: the bytes wait in its stream. -/
theorem Waits.client (hw : s.Waits n requests sent) (hst : s.hub.kernel.streams[n]? = some st)
    (hact : Polite site root requests sent st.received act sent') :
    (s.clientDoes n act).Waits n requests sent' := by
  obtain ⟨l, hl⟩ := hw.awaits
  obtain ⟨st', hst', hfresh⟩ := hw.fresh
  obtain rfl := Option.some.inj (hst.symm.trans hst')
  have huntouched := s.untouched_client n act s.listener
  exact ⟨⟨l, huntouched.descriptor.trans hl⟩, (huntouched.owned n hw.owns).1, _,
    clientDoes_self act hst, hfresh.client hact⟩

/-- A polite client may do what it does at any moment. The cases are those of where it is; in each
of them its own stream changes, and nothing else that matters to the case. -/
theorem Attended.client (hs : Attended site root requests s n sent)
    (hst : s.hub.kernel.streams[n]? = some st)
    (hact : Polite site root requests sent st.received act sent') :
    Attended site root requests (s.clientDoes n act) n sent' := by
  have hself := clientDoes_self act hst
  -- what a client does changes its stream, and no descriptor
  have howned : ∀ {d : Int}, s.hub.kernel.Owns d n → (s.clientDoes n act).hub.kernel.Owns d n :=
    fun ho => ((s.untouched_client n act _).owned n ho).1
  have hsilent : st.Silent (act.perform st) := act.silent st
  cases hs with
  | waiting hw => exact .waiting (hw.client hst hact)
  | accepted hadmits =>
    obtain ⟨rest, d, peer, hstage, howns⟩ := hadmits.place
    obtain ⟨st', hst', hfresh⟩ := hadmits.fresh
    obtain rfl := Option.some.inj (hst.symm.trans hst')
    exact .accepted ⟨⟨rest, d, peer, hstage, howned howns⟩, _, hself, hfresh.client hact⟩
  | served hserves hp ht hx =>
    obtain rfl := Option.some.inj (hst.symm.trans hserves.stream)
    obtain ⟨part', ht', hx'⟩ := hx.client hp ht hact
    have hstanding := (s.only_client n act).stay (by rintro ⟨⟩) hserves.standing
    exact .served ⟨hstanding, howned hserves.owns, hself⟩ (hp.client hact) ht' hx'
  | finished hserves hlast =>
    obtain rfl := Option.some.inj (hst.symm.trans hserves.stream)
    have hstanding := (s.only_client n act).stay (by rintro ⟨⟩) hserves.standing
    refine .finished ⟨hstanding, howned hserves.owns, hself⟩ ?_
    rw [hsilent.outbound]
    exact hlast
  | gone hloose hst' hdropped hlast =>
    obtain rfl := Option.some.inj (hst.symm.trans hst')
    have hev := s.hub.kernel.evolves_asClient n (f := fun st => ((), act.perform st)) act.silent
    refine .gone (hev.loose n hloose).1 hself (hsilent.dropped hdropped) ?_
    rw [hsilent.outbound]
    exact hlast

/-! ## What else happens

As long as the client waits, others may come and go; it is its turn when the loop accepts the stream
that has waited longest. -/

/-- A client goes on to wait where neither the listener nor its stream is touched. -/
theorem Waits.keep (hw : s.Waits n requests sent)
    (hk : Kernel.Untouched a s.hub.kernel t.hub.kernel s.listener)
    (hlistener : t.listener = s.listener) (ha : a.upon n = id) : t.Waits n requests sent := by
  obtain ⟨l, hl⟩ := hw.awaits
  obtain ⟨st, hst, hfresh⟩ := hw.fresh
  obtain ⟨howns, hstream⟩ := hk.owned n hw.owns
  rw [ha, Option.map_id, id, hst] at hstream
  exact ⟨⟨l, hlistener ▸ hk.descriptor.trans hl⟩, hlistener ▸ howns, st, hstream, hfresh⟩

/-- A client who waits goes on waiting until it is accepted, and then the loop is about to enter
it. -/
theorem Waits.step {apart : Int → Prop} (hw : s.Waits n requests sent)
    (hbeside : Beside a s t apart)
    (hapart : apart s.listener) (hlistener : t.listener = s.listener) (ha : a.upon n = id) :
    t.Waits n requests sent ∨ t.Admits n requests sent := by
  obtain ⟨st, hst, hfresh⟩ := hw.fresh
  cases hbeside with
  | kept hkept => exact .inl (hw.keep (hkept _ hapart) hlistener ha)
  | connected _ hk =>
    obtain ⟨howns, hstream⟩ := hk.owns hw.owns
    exact .inl ⟨hlistener ▸ hk.listens, hlistener ▸ howns, st, hstream.trans hst, hfresh⟩
  | @accepted rest d peer m hstage hstage' hk _ =>
    have hstream : t.hub.kernel.streams[n]? = some st := by rw [hk.streams, hst]
    by_cases hnm : n = m
    · subst hnm
      exact .inr ⟨⟨rest, d, peer, .inl hstage', hk.owns hw.owns⟩, st, hstream, hfresh⟩
    · exact .inl ⟨hlistener ▸ hk.listens, hlistener ▸ hk.owns_listener hw.owns hnm, st,
        hstream, hfresh⟩
  | @refused rest d hstage hd hk ha' =>
    obtain ⟨l, hl⟩ := hw.awaits
    obtain ⟨m, hm⟩ := hd.stream
    have hne : s.listener ≠ d := by
      rintro rfl
      cases hl.symm.trans (Kernel.get?_of_streamOf? hm)
    have hpoll : s.hub.kernel.descriptors.get? d ≠ some .poll := by
      rw [Kernel.get?_of_streamOf? hm]
      rintro ⟨⟩
    have hkeeps := (Kernel.leaves_close hne hpoll).toKeeps
    rw [← hk] at hkeeps
    exact .inl (hw.keep (hkeeps.untouched ha') hlistener ha)

/-- A client that is entered into the table has a connection, which has heard nothing yet. -/
theorem Admits.enter {rest : List Event} {d : Int} {peer : Option SocketAddress} {choice : Nat}
    (hs : s.Orderly) (hstep : Step (.loop choice) s t) (hsized : s.Sized)
    (hstage : s.stage = .batch rest (.enter d peer)) (hslot : s.hub.hasSlot d = true)
    (hperform : s.loopStep choice = some t) (howns : t.hub.kernel.Owns d n)
    (hst : t.hub.kernel.streams[n]? = some st) (hfresh : Fresh requests sent st) :
    Attended site root requests t n sent := by
  have hvacant := hs.vacant_candidate (hs.candidate d (by rw [hstage]; rfl))
  have hstage' : t.stage = .batch rest (.register ⟨d⟩) := by
    obtain rfl := eq_afterTask hstage (by rintro ⟨⟩) hperform
    rcases Hub.enter_cases s.hub d peer with ⟨hfull, -⟩ | ⟨-, hub, heq, -⟩
    · rw [hslot] at hfull
      cases hfull
    · rw [afterTask, doTask, heq]
      rfl
  rcases hstep.vacant ⟨d⟩ hvacant with hv | hopens
  · -- the loop is about to register it
    have hplaces := congrArg Places.task hv.places
    rw [places, hstage'] at hplaces
    simp [Stage.task?, Task.handle?] at hplaces
  · obtain ⟨rest', peer', -, hstanding⟩ := hopens
    have hheard := Request.Heard.reset ((s.hub.slots.get? d).getD {}).reader
      (Hub.Sized.slot hsized d).input
    exact .served ⟨hstanding, howns, hst⟩ hfresh.present hfresh.turn
      (.listening .register hheard Request.read_nil hfresh.inbound hfresh.outbound)

/-- A client that has been accepted is put into the table next. Since there is room, it is neither
turned away for the limit nor for want of a slot. -/
theorem Admits.step (hs : s.Orderly) (hstep : Step a s t) (hperform : s.perform? a = some t)
    (hroom : s.hasRoom = true) (hsized : s.Sized) (ha : a.upon n = id)
    (hadmits : s.Admits n requests sent) : Attended site root requests t n sent := by
  obtain ⟨⟨rest, d, peer, hstage, howns⟩, st, hst, hfresh⟩ := hadmits
  have hcandidate : s.Candidate d := by
    refine hs.candidate d ?_
    rcases hstage with hstage | hstage <;> rw [hstage] <;> rfl
  have hready : s.stage ≠ .ready := by
    rcases hstage with hstage | hstage <;> rw [hstage] <;> rintro ⟨⟩
  -- nothing is done through the new descriptor before it is registered
  have huntouched : Kernel.Untouched a s.hub.kernel t.hub.kernel d := by
    refine hstep.beside.untouched_stream hcandidate.stream
      (fun h τ c hstanding => (hcandidate.ne hstanding).symm) fun rest' e hrefuse => ?_
    rcases hstage with hstage | hstage <;> rw [hstage] at hrefuse <;> cases hrefuse
  obtain ⟨howns', hstream⟩ := huntouched.owned n howns
  rw [ha, Option.map_id, id, hst] at hstream
  by_cases hloop : ∃ choice, a = .loop choice
  · obtain ⟨choice, rfl⟩ := hloop
    rcases hstage with hstage | hstage
    · rw [hasRoom, hstage, Bool.not_eq_true'] at hroom
      obtain rfl := eq_afterTask hstage (by rintro ⟨⟩) hperform
      simp only [afterTask, doTask, hroom] at howns' hstream ⊢
      exact .accepted ⟨⟨rest, d, peer, .inr rfl, howns'⟩, st, hstream, hfresh⟩
    · rw [hasRoom, hstage] at hroom
      exact Admits.enter hs hstep hsized hstage hroom hperform howns' hstream hfresh
  · have hstage' := stage_perform hready (fun choice ha => hloop ⟨choice, ha⟩) hperform
    rw [← hstage'] at hstage
    exact .accepted ⟨⟨rest, d, peer, hstage, howns'⟩, st, hstream, hfresh⟩

/-- **The step lemma.** Whatever the loop, the workers and the other clients do, a client goes on
to be attended to. For each place where it may be, the lemmas of `Server/Attendance` say where it
is after the step. -/
theorem Attended.step (hs : s.Orderly) (hstep : Step a s t) (hperform : s.perform? a = some t)
    (hworks : s.Works site root) (hsite : site.Addressable) (hroom : s.hasRoom = true)
    (hwhole : ∀ q ∈ requests, Request.IsWhole q) (ha : a.upon n = id)
    (hattended : Attended site root requests s n sent) : Attended site root requests t n sent := by
  have hsized : t.Sized := hworks.sized.perform hperform
  cases hattended with
  | waiting hw =>
    obtain ⟨l, hl⟩ := hw.awaits
    -- the listener is not a stream, so no connection holds its descriptor
    have hapart : ∀ h τ c, s.Standing h τ c → h.descriptor ≠ s.listener := by
      intro h τ c hstanding
      refine hstanding.descriptor_ne fun m hm => ?_
      cases hl.symm.trans hm
    rcases hw.step hstep.beside hapart hstep.listener ha with hw' | hadmits
    · exact .waiting hw'
    · exact .accepted hadmits
  | accepted hadmits => exact hadmits.step hs hstep hperform hroom hworks.sized ha
  | @served h τ c st done due part hserves hp ht hx =>
    have hpassage := hstep.passage h τ c hserves.standing
    cases hx with
    | listening hτ hheard hwait hpart hout =>
      exact .of_listening hworks hwhole hserves hp ht hτ hheard hwait hpart hout ha hpassage
    | heard hτ hheard hpart hout =>
      exact .of_heard hroom hwhole hserves hp ht hτ hheard hpart hout ha hpassage
    | answering hhead hin htarget hkeep hout =>
      exact .of_answering hs hworks hsite hsized hserves hp ht hhead hin htarget hkeep hout
        ha hpassage
    | sending hτ hhead hin hkeep hreply hcourse hincomplete =>
      exact .of_sending hworks hsized hserves hp ht hτ hhead hin hkeep hreply hcourse hincomplete ha
        hpassage
  | @finished h c st hserves hlast =>
    exact .of_finished hserves hlast ha (hstep.passage h _ c hserves.standing)
  | gone hloose hst hdropped hlast =>
    obtain ⟨hloose', hsilent⟩ := hstep.evolves.loose n hloose
    obtain ⟨st', hst', hsilent⟩ := hsilent _ hst
    refine .gone hloose' hst' (hsilent.dropped hdropped) ?_
    rw [hsilent.outbound]
    exact hlast

/-- Whatever a client has been sent, it is a first part of the responses to its requests. This is
what all the bookkeeping is for. -/
theorem Attended.written (hattended : Attended site root requests s n sent) :
    ∃ st, s.hub.kernel.streams[n]? = some st ∧ st.outbound <+: transcript site root requests := by
  cases hattended with
  | waiting hw =>
    obtain ⟨st, hst, hfresh⟩ := hw.fresh
    exact ⟨st, hst, hfresh.outbound ▸ List.nil_prefix⟩
  | accepted hadmits =>
    obtain ⟨st, hst, hfresh⟩ := hadmits.fresh
    exact ⟨st, hst, hfresh.outbound ▸ List.nil_prefix⟩
  | served hserves _ ht hx =>
    refine ⟨_, hserves.stream, ?_⟩
    rw [ht.split]
    exact hx.written ht.keep
  | finished hserves hlast => exact ⟨_, hserves.stream, hlast.whole ▸ List.prefix_rfl⟩
  | gone _ hst _ hlast => exact ⟨_, hst, hlast.whole ▸ List.prefix_rfl⟩

end Server

end FileServer
