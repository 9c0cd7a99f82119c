import FileServer.Proofs.Kernel.Pipes

/-!
# What a descriptor in the poll set does not notice

What is done about one descriptor is not noticed at another (`Poll.Spares`): that stays registered
as it was, is to be looked at as before, and does not come to share its token. There is one lemma
for each operation of the kernel.

Three operations are noticed. A client that connects has the listener looked at
(`Kernel.pending_connect`), and so has adding a listener to the poll set at which clients wait
already (`Kernel.pending_pollAdd`). To fetch events is to report what is to be looked at or to leave
it for the next time (`Poll.collectFrom_reports`).
-/

namespace FileServer

namespace Poll

variable {p p' p'' : Poll} {d e : Int} {g : Registration} {token : UInt64} {now : Int → Readiness}

/-- A change of the poll set that is not noticed at a descriptor, nor by those who go by its
token. The third clause is for the sake of the token: an event that carries it must have come from
the descriptor, which nobody can be sure of once another registration uses the same one. -/
structure Spares (p p' : Poll) (d : Int) (token : UInt64) : Prop where
  /-- it is registered as it was -/
  registration : p'.registrations.get? d = p.registrations.get? d
  /-- it is to be looked at if it was -/
  pending : d ∈ p'.pending ↔ d ∈ p.pending
  /-- a registration with the token that reports every change was there before -/
  standing : ∀ e g, p'.registrations.get? e = some g → g.oneShot = false → g.token = token →
    p.registrations.get? e = some g

theorem Spares.refl (p : Poll) (d : Int) (token : UInt64) : p.Spares p d token :=
  ⟨rfl, Iff.rfl, fun _ _ h _ _ => h⟩

theorem Spares.trans (h : p.Spares p' d token) (h' : p'.Spares p'' d token) :
    p.Spares p'' d token :=
  ⟨h'.registration.trans h.registration, h'.pending.trans h.pending,
    fun e g hg hshot htoken => h.standing e g (h'.standing e g hg hshot htoken) hshot htoken⟩

/-- News about one descriptor has only that one looked at. -/
theorem spares_notify (p : Poll) (he : e ≠ d) (now : Readiness) :
    p.Spares (p.notify e now) d token := by
  refine ⟨by rw [Kernel.registrations_notify], ?_,
    fun _ _ h _ _ => by rwa [Kernel.registrations_notify] at h⟩
  simp only [notify]
  split
  · split
    · rw [List.mem_append, List.mem_singleton]
      exact or_iff_left he.symm
    · rfl
  · rfl

/-- Registering another descriptor is not noticed, unless the new registration reports every
change under the same token. Connections are registered to report once, so for them that is no
condition. -/
theorem spares_register (p : Poll) (he : e ≠ d) (hg : g.oneShot = false → g.token ≠ token)
    (now : Readiness) : p.Spares (p.register e g now) d token := by
  have hset : p.Spares { p with registrations := p.registrations.set e g } d token := by
    refine ⟨DescriptorMap.get?_set_ne _ _ he.symm, Iff.rfl, fun f g' hf hshot htoken => ?_⟩
    by_cases hfe : f = e
    · rw [hfe, DescriptorMap.get?_set_self] at hf
      obtain rfl := Option.some.inj hf
      exact absurd htoken (hg hshot)
    · rwa [DescriptorMap.get?_set_ne _ _ hfe] at hf
  exact hset.trans (spares_notify _ he now)

/-- Taking the registration of another descriptor back is not noticed. -/
theorem spares_remove (p : Poll) (he : e ≠ d) : p.Spares (p.remove e) d token := by
  refine ⟨DescriptorMap.get?_erase_ne _ he.symm, ?_, fun f g hf _ _ => ?_⟩
  · rw [remove, List.mem_filter, bne_iff_ne]
    exact and_iff_left he.symm
  · by_cases hfe : f = e
    · rw [hfe, remove, DescriptorMap.get?_erase_self] at hf
      cases hf
    · rwa [remove, DescriptorMap.get?_erase_ne _ hfe] at hf

/-- A descriptor that has something to report is looked at. It may have been on the list already,
and it is not entered twice. -/
theorem mem_notify (hg : p.registrations.get? d = some g) {now : Readiness}
    (hany : (g.report now).any = true) : d ∈ (p.notify d now).pending := by
  simp only [notify, hg, hany, Bool.true_and]
  by_cases hmem : d ∈ p.pending
  · simp [hmem]
  · simp [hmem]

/-- An event does not disarm a registration that reports every change. -/
theorem armed_of_standing (hshot : g.oneShot = false) :
    ({ g with armed := g.armed && !g.oneShot } : Registration) = g := by
  obtain ⟨token, interest, oneShot, armed⟩ := g
  obtain rfl : oneShot = false := hshot
  simp

/-- **What is to be looked at and has something to report is reported, or left for the next
time.** The induction is along the list: each descriptor that is passed over has nothing to
report, and where the room for events runs out, the rest of the list is left as it is. -/
theorem collectFrom_reports (now : Int → Readiness) (max : Nat) {pending : List Int}
    {registrations : DescriptorMap Registration} (hg : registrations.get? d = some g)
    (hshot : g.oneShot = false) (hany : (g.report (now d)).any = true) (hd : d ∈ pending) :
    (∃ e ∈ (collectFrom now pending max registrations).1, e.token = g.token) ∨
      d ∈ (collectFrom now pending max registrations).2.pending := by
  fun_induction collectFrom now pending max registrations with
  | case1 => cases hd
  | case2 => exact .inr hd
  | case3 e pending max registrations hnone ih =>
    refine ih hg ((List.mem_cons.mp hd).resolve_left ?_)
    rintro rfl
    cases hg.symm.trans hnone
  | case4 e pending max registrations g' he ready hready g'' events p hrest ih =>
    rcases List.mem_cons.mp hd with rfl | hd
    · obtain rfl := Option.some.inj (hg.symm.trans he)
      exact .inl ⟨_, List.mem_cons_self, rfl⟩
    · -- an event disarms what it is reported for, unless that reports every change
      have hkept : (registrations.set e g'').get? d = some g := by
        by_cases hed : d = e
        · subst hed
          obtain rfl := Option.some.inj (hg.symm.trans he)
          rw [DescriptorMap.get?_set_self]
          exact congrArg some (armed_of_standing hshot)
        · rwa [DescriptorMap.get?_set_ne _ _ hed]
      rw [hrest] at ih
      rcases ih hkept hd with ⟨event, hevent, htoken⟩ | hpending
      · exact .inl ⟨event, List.mem_cons_of_mem _ hevent, htoken⟩
      · exact .inr hpending
  | case5 e pending max registrations g' he ready hready ih =>
    refine ih hg ((List.mem_cons.mp hd).resolve_left ?_)
    rintro rfl
    obtain rfl := Option.some.inj (hg.symm.trans he)
    exact hready hany

/-- What is left for the next time is the last of what was to be looked at, in the same order. -/
theorem suffix_collectFrom (now : Int → Readiness) (pending : List Int) (max : Nat)
    (registrations : DescriptorMap Registration) :
    (collectFrom now pending max registrations).2.pending <:+ pending := by
  fun_induction collectFrom now pending max registrations with
  | case1 => exact List.suffix_refl []
  | case2 pending => exact List.suffix_refl pending
  | case3 e pending max registrations hnone ih => exact ih.trans (List.suffix_cons ..)
  | case4 e pending max registrations g he ready hready g' events p hrest ih =>
    rw [hrest] at ih
    exact ih.trans (List.suffix_cons ..)
  | case5 e pending max registrations g he ready hready ih => exact ih.trans (List.suffix_cons ..)

/-- Nothing is put on the list by fetching events. -/
theorem mem_of_collectFrom {pending : List Int} {max : Nat}
    {registrations : DescriptorMap Registration}
    (hd : d ∈ (collectFrom now pending max registrations).2.pending) : d ∈ pending :=
  (suffix_collectFrom now pending max registrations).mem hd

/-- There is at most one event for each descriptor that has been looked at. -/
theorem length_collectFrom (now : Int → Readiness) (pending : List Int) (max : Nat)
    (registrations : DescriptorMap Registration) :
    (collectFrom now pending max registrations).1.length +
      (collectFrom now pending max registrations).2.pending.length ≤ pending.length := by
  fun_induction collectFrom now pending max registrations with
  | case1 => exact Nat.le_refl 0
  | case2 pending => exact Nat.le_of_eq (Nat.zero_add _)
  | case3 e pending max registrations hnone ih => exact Nat.le_succ_of_le ih
  | case4 e pending max registrations g he ready hready g' events p hrest ih =>
    rw [hrest] at ih
    simp only [List.length_cons] at ih ⊢
    omega
  | case5 e pending max registrations g he ready hready ih => exact Nat.le_succ_of_le ih

/-- If any events are asked for, some descriptor is looked at, whether or not it has anything to
report. So the list gets shorter with each batch unless something new happens. -/
theorem length_pending_collectFrom (now : Int → Readiness) {pending : List Int} {max : Nat}
    (hpending : pending ≠ []) (hmax : 0 < max) (registrations : DescriptorMap Registration) :
    (collectFrom now pending max registrations).2.pending.length < pending.length := by
  have hrest : ∀ rest max registrations,
      (collectFrom now rest max registrations).2.pending.length < rest.length + 1 := by
    intro rest max registrations
    exact Nat.lt_succ_of_le (suffix_collectFrom now rest max registrations).length_le
  cases pending with
  | nil => exact absurd rfl hpending
  | cons e rest =>
    cases max with
    | zero => exact absurd hmax (Nat.lt_irrefl 0)
    | succ max =>
      rw [collectFrom]
      split
      · exact hrest ..
      · dsimp only
        split <;> exact hrest ..

/-- Registrations that report every change stay as they are. The others are disarmed by the event
that they have reported. -/
theorem registrations_collectFrom (now : Int → Readiness) (pending : List Int) (max : Nat)
    {registrations : DescriptorMap Registration}
    (hshot : ∀ d g, registrations.get? d = some g → g.oneShot = false) (d : Int) :
    (collectFrom now pending max registrations).2.registrations.get? d = registrations.get? d := by
  fun_induction collectFrom now pending max registrations with
  | case1 => rfl
  | case2 => rfl
  | case3 e pending max registrations hnone ih => exact ih hshot
  | case4 e pending max registrations g he ready hready g' events p hrest ih =>
    have hsame : ∀ d, (registrations.set e g').get? d = registrations.get? d := by
      intro d
      by_cases hde : d = e
      · subst hde
        rw [DescriptorMap.get?_set_self, he]
        exact congrArg some (armed_of_standing (hshot d g he))
      · exact DescriptorMap.get?_set_ne _ _ hde
    rw [hrest] at ih
    exact (ih fun d g hg => hshot d g (hsame d ▸ hg)).trans (hsame d)
  | case5 e pending max registrations g he ready hready ih => exact ih hshot

/-- An event has the token of a descriptor that was to be looked at. -/
theorem source_of_collectFrom {pending : List Int} {max : Nat}
    {registrations : DescriptorMap Registration} {event : Event}
    (hevent : event ∈ (collectFrom now pending max registrations).1) :
    ∃ d ∈ pending, ∃ g, registrations.get? d = some g ∧ g.token = event.token := by
  fun_induction collectFrom now pending max registrations with
  | case1 => cases hevent
  | case2 => cases hevent
  | case3 e pending max registrations hnone ih =>
    obtain ⟨d, hd, hsource⟩ := ih hevent
    exact ⟨d, List.mem_cons_of_mem _ hd, hsource⟩
  | case4 e pending max registrations g he ready hready g' events p hrest ih =>
    rcases List.mem_cons.mp hevent with rfl | hevent
    · exact ⟨e, List.mem_cons_self, g, he, rfl⟩
    · rw [hrest] at ih
      obtain ⟨d, hd, g₁, hg₁, htoken⟩ := ih hevent
      by_cases hde : d = e
      · rw [hde, DescriptorMap.get?_set_self] at hg₁
        obtain rfl := Option.some.inj hg₁
        exact ⟨e, List.mem_cons_self, g, he, htoken⟩
      · rw [DescriptorMap.get?_set_ne _ _ hde] at hg₁
        exact ⟨d, List.mem_cons_of_mem _ hd, g₁, hg₁, htoken⟩
  | case5 e pending max registrations g he ready hready ih =>
    obtain ⟨d, hd, hsource⟩ := ih hevent
    exact ⟨d, List.mem_cons_of_mem _ hd, hsource⟩

end Poll

namespace Kernel

variable {k k' : Kernel} {d e : Int} {g : Registration} {token : UInt64} {n : Nat}

/-! ## The poll set -/

/-- What happens at one stream, pipe or listener is news for the descriptors that stand for it,
and not for one that stands for something else. -/
theorem spares_notifyResource (k : Kernel) {resource : Resource}
    (hd : k.descriptors.get? d ≠ some resource) :
    k.poll.Spares (k.notifyResource resource).poll d token := by
  have hne : ∀ entry ∈ k.descriptors.entries.filter (·.2 = resource), entry.1 ≠ d := by
    rintro ⟨e, r⟩ hentry rfl
    obtain ⟨hmem, hr⟩ := List.mem_filter.mp hentry
    obtain rfl := of_decide_eq_true hr
    exact hd (DescriptorMap.get?_of_mem hmem)
  simp only [notifyResource]
  generalize k.descriptors.entries.filter (·.2 = resource) = entries at hne
  clear hd
  induction entries generalizing k with
  | nil => exact .refl ..
  | cons entry rest ih =>
    have hfirst : k.poll.Spares (k.notify entry.1).poll d token :=
      k.poll.spares_notify (hne entry List.mem_cons_self) _
    exact hfirst.trans (ih (k.notify entry.1) fun e he => hne e (List.mem_cons_of_mem _ he))

/-- A control call is noticed no more than the change it makes. The script may have it fail, in
which case it makes none. -/
theorem spares_control {change : Kernel → Except Errno Unit × Kernel}
    (h : ∀ k' : Kernel, k'.poll = k.poll → k'.poll.Spares (change k').2.poll d token) :
    k.poll.Spares (k.control change).2.poll d token := by
  obtain ⟨k', -, hpoll, ⟨result, heq⟩ | heq⟩ := control_any k change
  · rw [heq, hpoll]
    exact .refl ..
  · rw [heq, ← hpoll]
    exact h k' hpoll

/-- Nothing is added in place of what is registered. -/
theorem spares_pollAdd (hd : e = d → (k.poll.registrations.get? d).isSome)
    (hg : g.oneShot = false → g.token ≠ token) :
    k.poll.Spares (k.pollAdd e g).2.poll d token := by
  refine spares_control fun k' hpoll => ?_
  split
  · exact .refl ..
  · split
    · exact .refl ..
    · next hnone =>
      refine Poll.spares_register _ (fun hed => hnone ?_) hg _
      rw [hpoll, hed]
      exact hd hed

/-- Rearming one registration is not noticed at another. -/
theorem spares_pollModify (k : Kernel) (he : e ≠ d) (hg : g.oneShot = false → g.token ≠ token) :
    k.poll.Spares (k.pollModify e g).2.poll d token := by
  refine spares_control fun k' hpoll => ?_
  split
  · exact .refl ..
  · split
    · exact .refl ..
    · exact Poll.spares_register _ he hg _

/-- Giving up the registration of another descriptor is not noticed. -/
theorem spares_pollDelete (k : Kernel) (he : e ≠ d) :
    k.poll.Spares (k.pollDelete e).2.poll d token := by
  rw [pollDelete_snd]
  refine spares_control fun k' hpoll => ?_
  split
  · exact .refl ..
  · split
    · exact .refl ..
    · exact Poll.spares_remove _ he

/-! ## Opening and closing -/

/-- Closing another descriptor takes its registration along and ends what stood behind it. Only
closing the poll set itself would be noticed everywhere. -/
theorem spares_close (he : e ≠ d) (hpoll : k.descriptors.get? e ≠ some .poll) :
    k.poll.Spares (k.close e).poll d token := by
  cases hr : k.descriptors.get? e with
  | none =>
    rw [close_of_none hr]
    exact .refl ..
  | some r =>
    obtain ⟨-, -, hrest⟩ := endResource_rest (k.without e) r
    rw [close_of_some hr, hrest fun hp => hpoll (hp ▸ hr)]
    exact k.poll.spares_remove he

/-- Giving up a connection is to take back its registration and to close it, and neither is
noticed. -/
theorem spares_discard (he : e ≠ d) (hpoll : k.descriptors.get? e ≠ some .poll) :
    k.poll.Spares (k.discard e).poll d token := by
  obtain ⟨hdescriptors, -⟩ := pollDelete_spec k e
  refine (k.spares_pollDelete he).trans (spares_close he ?_)
  rw [hdescriptors]
  exact hpoll

/-- A new descriptor gets a number that is free, hence not that of one which is open. -/
theorem ne_nextDescriptor (hd : (k.descriptors.get? d).isSome) : d ≠ k.nextDescriptor := by
  rintro rfl
  rw [k.nextDescriptor_free] at hd
  cases hd

theorem descriptor_allocate (hd : (k.descriptors.get? d).isSome) (r : Resource) :
    (k.allocate r).2.descriptors.get? d = k.descriptors.get? d :=
  DescriptorMap.get?_set_ne _ _ (ne_nextDescriptor hd)

/-- Opening a pipe is opening two descriptors, one after the other. -/
theorem descriptor_createPipe (hd : (k.descriptors.get? d).isSome) :
    k.createPipe.2.descriptors.get? d = k.descriptors.get? d := by
  have hends : ∀ (k : Kernel) number, (k.descriptors.get? d).isSome →
      ((k.allocate (.pipeOut number)).2.allocate (.pipeIn number)).2.descriptors.get? d =
        k.descriptors.get? d := by
    intro k number hd
    have hout := descriptor_allocate hd (.pipeOut number)
    exact (descriptor_allocate (by rwa [hout]) _).trans hout
  have htake : (k.takeFault .createPipe).2.descriptors = k.descriptors := rfl
  simp only [createPipe]
  split
  · next h =>
    rw [h] at htake
    rw [htake]
  · next k₁ _ h =>
    rw [h] at htake
    rw [← htake] at hd ⊢
    exact hends { k₁ with pipes := k₁.pipes ++ [({} : Pipe)] } _ hd

/-- A file is opened, mapped and closed, which is not noticed at anything that was open before. -/
theorem spares_locate (hd : (k.descriptors.get? d).isSome) (root url : String) :
    (k.locate root url).2.descriptors.get? d = k.descriptors.get? d ∧
      k.poll.Spares (k.locate root url).2.poll d token := by
  simp only [locate]
  split
  · exact ⟨rfl, .refl ..⟩
  · next content _ =>
    have hself : ((k.allocate .file).2.mapFile content).2.descriptors.get? k.nextDescriptor =
        some .file := DescriptorMap.get?_set_self ..
    have hpoll : ((k.allocate .file).2.mapFile content).2.descriptors.get? k.nextDescriptor ≠
        some .poll := by
      rw [hself]
      rintro ⟨⟩
    have hne := ne_nextDescriptor hd
    have hleaves := leaves_close hne hpoll
    exact ⟨hleaves.descriptor.trans (descriptor_allocate hd .file),
      spares_close (k := ((k.allocate .file).2.mapFile content).2) hne.symm hpoll⟩

/-! ## Calls that are not about the poll set

Calls that read, write or accept change what is to be reported, not what is registered. -/

/-- Accepting a client takes it out of the backlog and opens its descriptor; it is not registered
yet. -/
theorem poll_accept (k : Kernel) (listener : Int) : (k.accept listener).2.poll = k.poll := by
  have hplain : ∀ k : Kernel, (k.plainAccept listener).2.poll = k.poll := by
    intro k
    rw [plainAccept]
    split
    · split
      · rfl
      · dsimp only
        split <;> rfl
    all_goals rfl
  have hunder : ∀ script : Script, (k.acceptUnder listener script).2.poll = k.poll := by
    intro script
    fun_induction acceptUnder k listener script with
    | case1 rest ih => exact ih
    | case2 reason rest hi => rfl
    | case3 script => exact hplain _
  exact hunder _

/-- Emptying the wake-up pipe leaves the poll set as it was. The pipe's readiness is looked up
when events are fetched, not when it changes for the worse. -/
theorem poll_pipeRead (k : Kernel) (d : Int) (room : Nat) :
    (k.pipeRead d room).2.poll = k.poll := by
  have hplain : ∀ (k : Kernel) room, (k.plainPipeRead d room).2.poll = k.poll := by
    intro k room
    rw [plainPipeRead]
    split
    · split
      · dsimp only
        split
        · rfl
        · split <;> rfl
      · rfl
    · rfl
  have hunder : ∀ script : Script, (k.pipeReadUnder d room script).2.poll = k.poll := by
    intro script
    fun_induction pipeReadUnder k d room script with
    | case1 rest ih => exact ih
    | case2 reason rest hi => rfl
    | case3 n rest => exact hplain ..
    | case4 script => exact hplain ..
  exact hunder _

/-- To begin to wait is only to ask the script whether the wait will fail. -/
theorem poll_beginWait (k : Kernel) (max : Nat) : (k.beginWait max).2.poll = k.poll := by
  have htake : (k.takeFault .pollWait).2.poll = k.poll := rfl
  simp only [beginWait]
  split
  all_goals
    next h =>
      rw [h] at htake
      exact htake

/-- Writing to the wake-up pipe is news for the end that is read, and for no other descriptor. -/
theorem spares_wake (k : Kernel) (hd : ∀ n, k.descriptors.get? d ≠ some (.pipeOut n)) (e : Int) :
    k.poll.Spares (k.wake e).poll d token := by
  simp only [wake]
  split
  · split
    · split
      · exact spares_notifyResource (k.updatePipe _ _) (hd _)
      · exact .refl ..
    · exact .refl ..
  · exact .refl ..

/-- What a client does at its end is news for the stream's descriptor alone. -/
theorem spares_asClient {α : Type} (k : Kernel) (hd : ∀ n, k.descriptors.get? d ≠ some (.stream n))
    (number : Nat) (f : Stream → α × Stream) :
    k.poll.Spares (k.asClient number f).2.poll d token := by
  simp only [asClient]
  split
  · exact .refl ..
  · exact spares_notifyResource (k.updateStream _ _) (hd _)

/-! ## Listeners

The listener is registered to have every change reported, so what has to be shown is that each
change is: a client that comes has it looked at. -/

/-- The clients that wait at a listener, in the order in which they have come. -/
def backlog (k : Kernel) (d : Int) : List Nat :=
  match k.descriptors.get? d with
  | some (.listener l) => l.backlog
  | _ => []

theorem backlog_congr (h : k'.descriptors.get? d = k.descriptors.get? d) :
    k'.backlog d = k.backlog d := by
  rw [backlog, backlog, h]

/-- A listener at which clients wait has that to report. -/
theorem readiness_of_backlog (h : k.backlog d ≠ []) : k.readiness d = { input := true } := by
  simp only [backlog] at h
  split at h
  · next l hl => simp [readiness, hl, h]
  · exact absurd rfl h

/-- **A client that connects has the listener looked at.** That is what makes a listener in
edge-triggered mode work: one who comes while nobody is at work on the listener is not
overlooked. -/
theorem pending_connect (h : k.connect d = (some n, k'))
    (hg : k.poll.registrations.get? d = some g) (harmed : g.armed = true)
    (hinterest : g.interest = .read) : d ∈ k'.poll.pending := by
  simp only [connect] at h
  split at h
  · split at h
    · obtain ⟨-, rfl⟩ := Prod.mk.inj h
      refine Poll.mem_notify hg ?_
      rw [readiness_of_backlog (by simp [backlog])]
      simp [Registration.report, Readiness.any, harmed, hinterest]
    · cases (Prod.mk.inj h).1
  · cases (Prod.mk.inj h).1

/-- **A listener that is added to the poll set is looked at if clients wait there.** So those who
have come between `listen` and the registration are not overlooked either. -/
theorem pending_pollAdd (hk : k.Honest) (h : k.pollAdd d g = (.ok (), k')) (hd : k.backlog d ≠ [])
    (harmed : g.armed = true) (hinterest : g.interest = .read) : d ∈ k'.poll.pending := by
  simp only [pollAdd] at h
  rcases control_cases hk _ with ⟨reason, k₁, heq, -⟩ | ⟨k₁, heq, hquiet, -⟩
  · rw [heq] at h
    cases (Prod.mk.inj h).1
  · rw [heq] at h
    split at h
    · cases (Prod.mk.inj h).1
    · split at h
      · cases (Prod.mk.inj h).1
      · obtain ⟨-, rfl⟩ := Prod.mk.inj h
        refine Poll.mem_notify (DescriptorMap.get?_set_self ..) ?_
        rw [readiness_of_backlog (by rwa [backlog_congr (congrArg (·.get? d) hquiet.descriptors)])]
        simp [Registration.report, Readiness.any, harmed, hinterest]

end Kernel

end FileServer
