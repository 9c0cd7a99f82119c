import FileServer.Proofs.Kernel.Pipes
import FileServer.Proofs.Kernel.Watching
import Mathlib.Data.List.Perm.Subperm

/-!
# Where events can come from

If only certain descriptors are ever registered, then only those are looked at, and as each of them
waits once to be looked at, there are no more of them than may be registered (`Poll.Within`).
Fetching looks at one of them at least, and brings no more events than it looks at.

What the calls of a loop that nobody connects to do to that: a listener at which nobody waits has
nothing to accept, and a pipe out of which bytes have been read holds fewer.
-/

namespace FileServer

namespace Poll

variable {p : Poll} {d : Int} {g : Registration} {sources : List (Int × Registration)}

/-- Only certain descriptors are registered and looked at, each once. -/
structure Within (p : Poll) (sources : List (Int × Registration)) : Prop where
  registered : ∀ d g, p.registrations.get? d = some g → (d, g) ∈ sources
  pending : ∀ d ∈ p.pending, d ∈ sources.map Prod.fst
  once : p.pending.Nodup

namespace Within

/-- No descriptor is on the list twice, so it is no longer than that of all who may be. -/
theorem length_le (h : p.Within sources) : p.pending.length ≤ sources.length := by
  have hsub : p.pending ⊆ sources.map Prod.fst := h.pending
  have hle := (List.subperm_of_subset h.once hsub).length_le
  rwa [List.length_map] at hle

theorem empty (sources : List (Int × Registration)) : Poll.Within {} sources :=
  ⟨fun _ _ hg => (nomatch hg), fun _ hd => (nomatch hd), List.nodup_nil⟩

/-- A descriptor is looked at. -/
theorem notify (h : p.Within sources) (d : Int) (now : Readiness) :
    (p.notify d now).Within sources := by
  rw [Poll.notify]
  split
  · next g hg =>
    split
    · next hnew =>
      have hnew : d ∉ p.pending := by simpa using (Bool.and_eq_true_iff.mp hnew).2
      refine ⟨h.registered, fun e he => ?_, ?_⟩
      · rcases List.mem_append.mp he with he | he
        · exact h.pending e he
        · obtain rfl := List.mem_singleton.mp he
          exact List.mem_map_of_mem (h.registered e g hg)
      · refine List.nodup_append.mpr ⟨h.once, List.pairwise_singleton .., fun e he e' he' => ?_⟩
        rintro rfl
        exact hnew (List.mem_singleton.mp he' ▸ he)
    · exact h
  · exact h

/-- One of the descriptors is registered. -/
theorem register (h : p.Within sources) (hsource : (d, g) ∈ sources) (now : Readiness) :
    (p.register d g now).Within sources := by
  have hset : Poll.Within { p with registrations := p.registrations.set d g } sources := by
    refine ⟨fun e g' he => ?_, h.pending, h.once⟩
    by_cases hed : e = d
    · subst hed
      rw [DescriptorMap.get?_set_self] at he
      exact Option.some.inj he ▸ hsource
    · exact h.registered e g' (by rwa [DescriptorMap.get?_set_ne _ _ hed] at he)
  exact hset.notify d now

/-- Events are fetched. -/
theorem collect (h : p.Within sources) (hsources : ∀ source ∈ sources, source.2.oneShot = false)
    (now : Int → Readiness) (max : Nat) : (p.collect now max).2.Within sources := by
  have hsuffix := suffix_collectFrom now p.pending max p.registrations
  refine ⟨fun d g hg => ?_, fun d hd => h.pending d (hsuffix.mem hd),
    h.once.sublist hsuffix.sublist⟩
  rw [Poll.collect, registrations_collectFrom now p.pending max
    fun d g hg => hsources _ (h.registered d g hg)] at hg
  exact h.registered d g hg

/-- An event comes from one of the descriptors. -/
theorem token_of_collect (h : p.Within sources) {now : Int → Readiness} {max : Nat} {e : Event}
    (he : e ∈ (p.collect now max).1) : ∃ source ∈ sources, source.2.token = e.token := by
  obtain ⟨d, -, g, hg, htoken⟩ := source_of_collectFrom he
  exact ⟨(d, g), h.registered d g hg, htoken⟩

end Within

/-- To look at a descriptor makes the list longer by one at most. -/
theorem length_notify (p : Poll) (d : Int) (now : Readiness) :
    (p.notify d now).pending.length ≤ p.pending.length + 1 := by
  rw [notify]
  split
  · split
    · exact Nat.le_of_eq List.length_append
    · exact Nat.le_succ _
  · exact Nat.le_succ _

end Poll

namespace Kernel

variable {k k' : Kernel} {d : Int} {g : Registration} {sources : List (Int × Registration)}

/-! ## The poll set -/

/-- Whatever is looked at because of a resource is one of those that are registered. -/
theorem within_notifyResource (h : k.poll.Within sources) (resource : Resource) :
    (k.notifyResource resource).poll.Within sources := by
  simp only [notifyResource]
  generalize k.descriptors.entries.filter (·.2 = resource) = entries
  induction entries generalizing k with
  | nil => exact h
  | cons entry rest ih => exact ih (k := k.notify entry.1) (h.notify ..)

/-- Whatever is looked at because the loop is woken is one of those that are registered. -/
theorem within_wake (h : k.poll.Within sources) (d : Int) : (k.wake d).poll.Within sources := by
  simp only [wake]
  split
  · split
    · split
      · exact within_notifyResource (k := k.updatePipe _ _) h _
      · exact h
    · exact h
  · exact h

/-- One of the descriptors is added, or not. -/
theorem within_pollAdd (h : k.poll.Within sources) (hsource : (d, g) ∈ sources) :
    (k.pollAdd d g).2.poll.Within sources ∧
      (k.pollAdd d g).2.poll.pending.length ≤ k.poll.pending.length + 1 := by
  obtain ⟨k', -, hpoll, ⟨result, heq⟩ | heq⟩ := control_any k fun k =>
    if (k.descriptors.get? d).isNone then (.error .badDescriptor, k)
    else if (k.poll.registrations.get? d).isSome then (.error .alreadyExists, k)
    else (.ok (), { k with poll := k.poll.register d g (k.readiness d) })
  · rw [pollAdd, heq, hpoll]
    exact ⟨h, Nat.le_succ _⟩
  · rw [pollAdd, heq]
    rw [← hpoll] at h ⊢
    split
    · exact ⟨h, Nat.le_succ _⟩
    · split
      · exact ⟨h, Nat.le_succ _⟩
      · exact ⟨h.register hsource _, Poll.length_notify ..⟩

/-- A wait that is not cut short waits, if it may: there has to be room for an event, and no more
room than the kernel admits. -/
theorem beginWait_of_calm (h : k.scripts.of .pollWait = []) (max : Nat) :
    k.beginWait max = (if max = 0 ∨ maxEvents < max then .failed .invalid else .waits, k) := by
  have htake : k.takeFault .pollWait = (none, k) := by
    simp only [takeFault, Scripts.next, h]
  simp only [beginWait, htake]

/-! ## Accepting -/

/-- Where nobody waits nobody is accepted. -/
theorem accept_of_backlog_eq_nil (hd : k.backlog d = []) :
    (∀ descriptor peer, (k.accept d).1 ≠ .accepted descriptor peer) ∧ k.Quiet (k.accept d).2 := by
  -- an accept that is not made to fail finds nobody
  have hplain : ∀ k : Kernel, k.backlog d = [] →
      (∀ descriptor peer, (k.plainAccept d).1 ≠ .accepted descriptor peer) ∧
        (k.plainAccept d).2 = k := by
    intro k hd
    rw [plainAccept]
    split
    · next l hl =>
      simp only [backlog, hl] at hd
      simp [hd]
    all_goals simp
  have hunder : ∀ script : Script, script <:+ k.scripts.of .accept →
      (∀ descriptor peer, (k.acceptUnder d script).1 ≠ .accepted descriptor peer) ∧
        k.Quiet (k.acceptUnder d script).2 := by
    intro script hs
    fun_induction acceptUnder k d script with
    | case1 rest ih => exact ih ((List.suffix_cons ..).trans hs)
    | case2 reason rest hi =>
      refine ⟨fun _ _ => ?_, quiet_scripts (Scripts.spent_set ((List.suffix_cons ..).trans hs))⟩
      dsimp only
      split <;> exact AcceptResult.noConfusion
    | case3 script =>
      obtain ⟨hnobody, hsame⟩ :=
        hplain { k with scripts := k.scripts.set .accept script.tail } hd
      refine ⟨hnobody, ?_⟩
      rw [hsame]
      exact quiet_scripts (Scripts.spent_set ((List.tail_suffix _).trans hs))
  exact hunder _ (List.suffix_refl _)

/-- Nobody waits at what is no listener. -/
theorem backlog_allocate (hd : k.backlog d = []) {r : Resource} (hr : ∀ l, r ≠ .listener l) :
    (k.allocate r).2.backlog d = [] := by
  by_cases hne : d = k.nextDescriptor
  · have hself : (k.allocate r).2.descriptors.get? d = some r := by
      rw [hne]
      exact DescriptorMap.get?_set_self ..
    rw [backlog, hself]
    cases r with
    | listener l => exact absurd rfl (hr l)
    | _ => rfl
  · rw [backlog_congr (DescriptorMap.get?_set_ne _ _ hne)]
    exact hd

/-- A pipe is no listener, so at none is there anybody more. -/
theorem backlog_createPipe (hd : k.backlog d = []) : k.createPipe.2.backlog d = [] := by
  have htake : (k.takeFault .createPipe).2.backlog d = [] := hd
  simp only [createPipe]
  split
  · next heq =>
    rw [heq] at htake
    exact htake
  · next k₁ _ heq =>
    rw [heq] at htake
    have hadded : Kernel.backlog { k₁ with pipes := k₁.pipes ++ [({} : Pipe)] } d = [] := htake
    exact backlog_allocate (backlog_allocate hadded fun _ => Resource.noConfusion)
      fun _ => Resource.noConfusion

/-- A poll set is no listener, so at none is there anybody more. -/
theorem backlog_createPoll (hd : k.backlog d = []) : k.createPoll.2.backlog d = [] := by
  have htake : (k.takeFault .pollCreate).2.backlog d = [] := hd
  simp only [createPoll]
  split
  · next heq =>
    rw [heq] at htake
    exact htake
  · next k₁ _ heq =>
    rw [heq] at htake
    have hset : Kernel.backlog { k₁ with poll := {} } d = [] := htake
    exact backlog_allocate hset fun _ => Resource.noConfusion

/-- Nobody waits at a listener that has just been opened. -/
theorem backlog_openListener {host : String} {port : UInt16} {listener : Int}
    (h : k.openListener host port = (.ok listener, k')) : k'.backlog listener = [] := by
  -- the last call makes it a listener, with nobody queued
  have hlisten : ∀ (k : Kernel) d, orClose d (k.listen d) = (.ok (), k') → k'.backlog d = [] := by
    intro k d h
    rw [listen] at h
    split at h
    · cases (Prod.mk.inj h).1
    · split at h
      · obtain ⟨-, rfl⟩ := Prod.mk.inj h
        simp [backlog]
      · cases (Prod.mk.inj h).1
  unfold openListener at h
  cases haddress : SocketAddress.parse? (hostAndPort host port) with
  | none =>
    rw [haddress] at h
    cases (Prod.mk.inj h).1
  | some address =>
    rw [haddress] at h
    dsimp only at h
    split at h
    · cases (Prod.mk.inj h).1
    · next k₁ _ _ =>
      generalize k₁.allocate (.socket none) = opened at h
      split at h
      · cases (Prod.mk.inj h).1
      · split at h
        · cases (Prod.mk.inj h).1
        · split at h
          · cases (Prod.mk.inj h).1
          · next hdone =>
            obtain ⟨hlistener, rfl⟩ := Prod.mk.inj h
            obtain rfl := Except.ok.inj hlistener
            exact hlisten _ _ hdone

/-! ## The wake-up pipe -/

/-- To wake the reader puts one byte into the pipe at most. So each request to stop costs the loop
a bounded number of steps. -/
theorem held_wake_le (k : Kernel) (out into : Int) : (k.wake into).held out ≤ k.held out + 1 := by
  have hput : ∀ number, (k.updatePipe number fun p => { p with held := p.held + 1 }).held out ≤
      k.held out + 1 := by
    intro number
    simp only [held, updatePipe]
    split
    · next m _ =>
      by_cases hm : number = m
      · subst hm
        rw [List.getElem?_modify_eq]
        cases k.pipes[number]? with
        | none => exact Nat.zero_le _
        | some p => exact Nat.le_refl _
      · rw [List.getElem?_modify_ne _ _ hm]
        exact Nat.le_succ _
    · exact Nat.zero_le _
  -- noticing the byte makes a descriptor pending, and puts nothing into a pipe
  have hlook : ∀ (k : Kernel) resource, (k.notifyResource resource).held out = k.held out := by
    intro k resource
    rw [held, held, (quiet_notifyResource k resource).descriptors,
      (bypasses_notifyResource k resource).pipes]
  simp only [wake]
  split
  · split
    · split
      · rw [hlook]
        exact hput _
      · exact Nat.le_succ _
    · exact Nat.le_succ _
  · exact Nat.le_succ _

namespace Joined

variable {out into : Int} {n : Nat} {p : Pipe}

/-- What has been read from a pipe is in it no more. -/
theorem pipeRead_data (hj : k.Joined out into n p) {room : Nat} {b : UInt8} {bytes : Bytes}
    (h : k.pipeRead out room = (.data (b :: bytes), k')) :
    ∃ held, held < p.held ∧ k'.Joined out into n { p with held } := by
  have hplain : ∀ (k : Kernel) room, k.Joined out into n p →
      k.plainPipeRead out room = (.data (b :: bytes), k') →
      ∃ held, held < p.held ∧ k'.Joined out into n { p with held } := by
    intro k room hj h
    simp only [Kernel.plainPipeRead, hj.out, hj.pipe] at h
    split at h
    · cases (Prod.mk.inj h).1
    · split at h
      · split at h <;> cases (Prod.mk.inj h).1
      · next hcount =>
        obtain ⟨-, rfl⟩ := Prod.mk.inj h
        refine ⟨p.held - min room p.held, by omega, hj.out, hj.into, ?_, hj.readable, hj.writable⟩
        rw [updatePipe, List.getElem?_modify_eq, hj.pipe]
        rfl
  have hscripts : ∀ scripts, Kernel.Joined { k with scripts } out into n p := fun _ => { hj with }
  have hunder : ∀ script : Script, k.pipeReadUnder out room script = (.data (b :: bytes), k') →
      ∃ held, held < p.held ∧ k'.Joined out into n { p with held } := by
    intro script h
    fun_induction pipeReadUnder k out room script with
    | case1 rest ih => exact ih h
    | case2 reason rest hi => split at h <;> cases (Prod.mk.inj h).1
    | case3 m rest => exact hplain _ _ (hscripts _) h
    | case4 script => exact hplain _ _ (hscripts _) h
  exact hunder _ h

end Joined

end Kernel

end FileServer
