import FileServer.Kernel.Socket
import FileServer.Proofs.Wire

/-!
# What the kernel's operations leave alone

Whatever is done through one descriptor does not concern the others. `Kernel.Leaves` says so of a
descriptor that a change does not name: what is behind it is the same, its registration is the same,
and the streams behind it are untouched, provided they are behind no other descriptor
(`Kernel.Owns`).

`Kernel.Evolves` says what is true of every change: the site is the same, the scripts have only lost
entries at their front, no number of a stream is used before there is such a stream, and nothing
more is written to a stream that is behind no descriptor.
-/

namespace FileServer

/-! ## Scripts

The scripts of what is to fail are used up from the front; a kernel that has followed them has a
last part of each left. -/

/-- Of each script only entries at the front have gone. -/
def Scripts.Spent (scripts scripts' : Scripts) : Prop :=
  ∀ call, scripts'.of call <:+ scripts.of call

namespace Scripts

variable {a b c : Scripts}

theorem Spent.refl (a : Scripts) : a.Spent a := fun _ => List.suffix_refl _

theorem Spent.trans (h : a.Spent b) (h' : b.Spent c) : a.Spent c :=
  fun call => (h' call).trans (h call)

/-- To set a script to its end is to use up its front, and leaves the scripts of other calls
alone. -/
theorem spent_set {call : Call} {script : Script} (h : script <:+ a.of call) :
    a.Spent (a.set call script) := by
  intro other
  by_cases hcall : other = call
  · rw [hcall, of_set_self]
    exact h
  · exact ⟨[], of_set_ne hcall a script⟩

theorem Spent.set (h : a.Spent b) {call : Call} {script : Script} (hs : script <:+ b.of call) :
    a.Spent (b.set call script) :=
  h.trans (spent_set hs)

/-- To look what a script says of the next call uses up the entry that says it. -/
theorem spent_next (a : Scripts) (call : Call) : a.Spent (a.next call).2 := by
  simp only [next]
  split
  · exact Spent.refl a
  · rename_i fault rest h
    exact spent_set (h ▸ List.suffix_cons ..)

/-- The entry taken is one of the script's. -/
theorem mem_of_next {call : Call} {fault : Fault} (h : (a.next call).1 = some fault) :
    some fault ∈ a.of call := by
  simp only [next] at h
  split at h
  · cases h
  · rename_i entry rest heq
    rw [heq]
    exact h ▸ List.mem_cons_self

end Scripts

/-- Of the scripts of a wire only entries at the front have gone. -/
def Wire.Spent (w w' : Wire) : Prop := w'.reads <:+ w.reads ∧ w'.writes <:+ w.writes

theorem Wire.Spent.refl (w : Wire) : w.Spent w := ⟨List.suffix_refl _, List.suffix_refl _⟩

theorem Wire.Spent.trans {u v w : Wire} (h : u.Spent v) (h' : v.Spent w) : u.Spent w :=
  ⟨h'.1.trans h.1, h'.2.trans h.2⟩

/-- A stream goes on without anything being written to it. -/
structure Stream.Silent (s s' : Stream) : Prop where
  outbound : s'.outbound = s.outbound
  dropped : s.dropped = true → s'.dropped = true

theorem Stream.Silent.refl (s : Stream) : s.Silent s := ⟨rfl, id⟩

theorem Stream.Silent.trans {s s' s'' : Stream} (h : s.Silent s') (h' : s'.Silent s'') :
    s.Silent s'' :=
  ⟨h'.outbound.trans h.outbound, fun hs => h'.dropped (h.dropped hs)⟩

theorem Stream.silent_drop (s : Stream) : s.Silent s.drop := ⟨rfl, fun _ => rfl⟩

namespace Kernel

variable {k k' k'' : Kernel} {d e : Int} {n : Nat}

/-! ## Changes

What may happen to a kernel at all (`Kernel.Evolves`), whoever does it, and which descriptors a
change leaves alone. A stream belongs to what is behind its descriptor; once nothing is behind any
descriptor it stays as it is. -/

/-- The streams behind a descriptor: that of a connection, or those that wait to be accepted. -/
def refs (k : Kernel) (d : Int) : List Nat :=
  match k.descriptors.get? d with
  | some (.stream n) => [n]
  | some (.listener l) => l.backlog
  | _ => []

/-- The numbers of streams in use are those of streams. -/
def InRange (k : Kernel) : Prop := ∀ d, ∀ n ∈ k.refs d, n < k.streams.length

/-- A stream that is behind no descriptor. -/
structure Loose (k : Kernel) (n : Nat) : Prop where
  exists_stream : n < k.streams.length
  not_mem : ∀ d, n ∉ k.refs d

/-- Nothing is written to a stream, and the server does not open its end again. -/
def Silent (k k' : Kernel) (n : Nat) : Prop :=
  ∀ s, k.streams[n]? = some s → ∃ s', k'.streams[n]? = some s' ∧ s.Silent s'

theorem Silent.of_eq (h : k'.streams[n]? = k.streams[n]?) : k.Silent k' n :=
  fun s hs => ⟨s, h.trans hs, .refl s⟩

/-- Nothing is written by two changes neither of which writes. -/
theorem Silent.trans (h : k.Silent k' n) (h' : k'.Silent k'' n) : k.Silent k'' n := by
  intro s hs
  obtain ⟨s', hs', hsilent⟩ := h s hs
  obtain ⟨s'', hs'', hsilent'⟩ := h' s' hs'
  exact ⟨s'', hs'', hsilent.trans hsilent'⟩

/-- What every change of the kernel has in common. -/
structure Evolves (k k' : Kernel) : Prop where
  scripts : k.scripts.Spent k'.scripts
  site : k'.site = k.site
  inRange : k.InRange → k'.InRange
  loose : ∀ n, k.Loose n → k'.Loose n ∧ k.Silent k' n

theorem Evolves.refl (k : Kernel) : k.Evolves k :=
  ⟨Scripts.Spent.refl _, rfl, id, fun _ h => ⟨h, .of_eq rfl⟩⟩

/-- Changes follow upon each other. That a stream that is loose stays loose is needed here, for
the second change to be silent on it as well. -/
theorem Evolves.trans (h : k.Evolves k') (h' : k'.Evolves k'') : k.Evolves k'' := by
  refine ⟨h.scripts.trans h'.scripts, h'.site.trans h.site, fun hk => h'.inRange (h.inRange hk),
    fun n hn => ?_⟩
  obtain ⟨hn', hsilent⟩ := h.loose n hn
  obtain ⟨hn'', hsilent'⟩ := h'.loose n hn'
  exact ⟨hn'', hsilent.trans hsilent'⟩

/-- A change that brings no stream, and puts none behind a descriptor that was behind none. -/
theorem Evolves.of_refs (hscripts : k.scripts.Spent k'.scripts) (hsite : k'.site = k.site)
    (hlength : k'.streams.length = k.streams.length)
    (hrefs : ∀ e, ∀ m ∈ k'.refs e, ∃ d, m ∈ k.refs d)
    (hsilent : ∀ n, k.Loose n → k.Silent k' n) : k.Evolves k' := by
  refine ⟨hscripts, hsite, fun hk e m hm => ?_, fun n hn => ⟨⟨?_, fun e he => ?_⟩, hsilent n hn⟩⟩
  · obtain ⟨d, hd⟩ := hrefs e m hm
    rw [hlength]
    exact hk d m hd
  · rw [hlength]
    exact hn.exists_stream
  · obtain ⟨d, hd⟩ := hrefs e n he
    exact hn.not_mem d hd

/-- A stream is behind one descriptor and nowhere else. -/
structure Owns (k : Kernel) (d : Int) (n : Nat) : Prop where
  count_eq : (k.refs d).count n = 1
  only : ∀ e, n ∈ k.refs e → e = d
  exists_stream : n < k.streams.length

theorem Owns.mem (h : k.Owns d n) : n ∈ k.refs d :=
  List.count_pos_iff.mp (h.count_eq ▸ Nat.one_pos)

/-- A change leaves what is behind a descriptor alone. -/
structure Keeps (k k' : Kernel) (d : Int) : Prop where
  descriptor : k'.descriptors.get? d = k.descriptors.get? d
  owned : ∀ n, k.Owns d n → k'.Owns d n ∧ k'.streams[n]? = k.streams[n]?

/-- A change leaves a descriptor alone, its registration included. -/
structure Leaves (k k' : Kernel) (d : Int) : Prop extends k.Keeps k' d where
  registration : k'.poll.registrations.get? d = k.poll.registrations.get? d

theorem Keeps.refl (k : Kernel) (d : Int) : k.Keeps k d := ⟨rfl, fun _ h => ⟨h, rfl⟩⟩

/-- Two changes that leave a descriptor alone. The second one leaves alone what it owns after the
first, and that is what it owned before. -/
theorem Keeps.trans (h : k.Keeps k' d) (h' : k'.Keeps k'' d) : k.Keeps k'' d := by
  refine ⟨h'.descriptor.trans h.descriptor, fun n hn => ?_⟩
  obtain ⟨hn', hstream⟩ := h.owned n hn
  obtain ⟨hn'', hstream'⟩ := h'.owned n hn'
  exact ⟨hn'', hstream'.trans hstream⟩

theorem Leaves.refl (k : Kernel) (d : Int) : k.Leaves k d := ⟨Keeps.refl k d, rfl⟩

theorem Leaves.trans (h : k.Leaves k' d) (h' : k'.Leaves k'' d) : k.Leaves k'' d :=
  ⟨h.toKeeps.trans h'.toKeeps, h'.registration.trans h.registration⟩

theorem streamOf?_congr (h : k'.descriptors.get? d = k.descriptors.get? d) :
    k'.streamOf? d = k.streamOf? d := by
  rw [streamOf?, streamOf?, h]

theorem refs_congr (h : k'.descriptors.get? d = k.descriptors.get? d) : k'.refs d = k.refs d := by
  rw [refs, refs, h]

theorem refs_of_none (h : k.descriptors.get? d = none) : k.refs d = [] := by
  rw [refs, h]

/-- A stream is found behind a descriptor only if the descriptor is that of a connection. -/
theorem get?_of_streamOf? (h : k.streamOf? d = some n) :
    k.descriptors.get? d = some (.stream n) := by
  simp only [streamOf?] at h
  split at h
  · rename_i number hr
    rw [hr, Option.some.inj h]
  · cases h

theorem refs_of_streamOf? (h : k.streamOf? d = some n) : k.refs d = [n] := by
  rw [refs, get?_of_streamOf? h]

/-! ## Changes that open and close nothing

Most changes concern registrations, pipes or bytes, and leave the table of descriptors as it was. -/

/-- The descriptors are the same, and no stream is gone. -/
structure SameDescriptors (k k' : Kernel) : Prop where
  descriptors : k'.descriptors = k.descriptors
  length : k'.streams.length = k.streams.length

theorem SameDescriptors.refs (h : SameDescriptors k k') (d : Int) : k'.refs d = k.refs d :=
  refs_congr (congrArg (·.get? d) h.descriptors)

theorem SameDescriptors.streamOf? (h : SameDescriptors k k') (d : Int) :
    k'.streamOf? d = k.streamOf? d :=
  streamOf?_congr (congrArg (·.get? d) h.descriptors)

theorem SameDescriptors.evolves (h : SameDescriptors k k') (hscripts : k.scripts.Spent k'.scripts)
    (hsite : k'.site = k.site) (hsilent : ∀ n, k.Loose n → k.Silent k' n) : k.Evolves k' :=
  .of_refs hscripts hsite h.length (fun e _ hm => ⟨e, h.refs e ▸ hm⟩) hsilent

theorem SameDescriptors.owns (h : SameDescriptors k k') (hk : k.Owns d n) : k'.Owns d n := by
  refine ⟨h.refs d ▸ hk.count_eq, fun e he => hk.only e ?_, h.length ▸ hk.exists_stream⟩
  rw [h.refs] at he
  exact he

/-- A change that keeps the descriptors leaves alone what is behind one whose streams it does not
touch. -/
theorem SameDescriptors.keeps (h : SameDescriptors k k')
    (hs : ∀ n, k.Owns d n → k'.streams[n]? = k.streams[n]?) : k.Keeps k' d :=
  ⟨congrArg (·.get? d) h.descriptors, fun n hn => ⟨h.owns hn, hs n hn⟩⟩

theorem keeps_poll (k : Kernel) (p : Poll) (d : Int) : k.Keeps { k with poll := p } d :=
  SameDescriptors.keeps ⟨rfl, rfl⟩ fun _ _ => rfl

theorem evolves_poll (k : Kernel) (p : Poll) : k.Evolves { k with poll := p } :=
  SameDescriptors.evolves ⟨rfl, rfl⟩ (.refl _) rfl fun _ _ => .of_eq rfl

/-! ## Changes beside the descriptors

A quiet change is not seen by any connection at all. The calls of the loop that are about the pipe,
and all that is only looked at, are quiet. -/

/-- A change of pipes, of what waits to be looked at, and of scripts that have been followed. -/
structure Quiet (k k' : Kernel) : Prop where
  descriptors : k'.descriptors = k.descriptors
  streams : k'.streams = k.streams
  registrations : k'.poll.registrations = k.poll.registrations
  site : k'.site = k.site
  scripts : k.scripts.Spent k'.scripts

theorem Quiet.refl (k : Kernel) : k.Quiet k := ⟨rfl, rfl, rfl, rfl, Scripts.Spent.refl _⟩

theorem Quiet.trans (h : k.Quiet k') (h' : k'.Quiet k'') : k.Quiet k'' :=
  ⟨h'.descriptors.trans h.descriptors, h'.streams.trans h.streams,
    h'.registrations.trans h.registrations, h'.site.trans h.site, h.scripts.trans h'.scripts⟩

theorem Quiet.same (h : k.Quiet k') : SameDescriptors k k' :=
  ⟨h.descriptors, congrArg List.length h.streams⟩

theorem Quiet.silent (h : k.Quiet k') (n : Nat) : k.Silent k' n := .of_eq (by rw [h.streams])

theorem Quiet.evolves (h : k.Quiet k') : k.Evolves k' :=
  h.same.evolves h.scripts h.site fun n _ => h.silent n

theorem Quiet.leaves (h : k.Quiet k') (d : Int) : k.Leaves k' d :=
  ⟨h.same.keeps fun _ _ => by rw [h.streams], by rw [h.registrations]⟩

theorem quiet_scripts {scripts : Scripts} (h : k.scripts.Spent scripts) :
    k.Quiet { k with scripts } := ⟨rfl, rfl, rfl, rfl, h⟩

theorem quiet_takeFault (k : Kernel) (call : Call) : k.Quiet (k.takeFault call).2 := by
  have hspent := Scripts.spent_next k.scripts call
  exact quiet_scripts hspent

/-- To notify a descriptor changes no registration: that it has something to report is kept beside
them. -/
theorem registrations_notify (p : Poll) (d : Int) (now : Readiness) :
    (p.notify d now).registrations = p.registrations := by
  simp only [Poll.notify]
  split
  · split <;> rfl
  · rfl

theorem quiet_notify (k : Kernel) (d : Int) : k.Quiet (k.notify d) :=
  ⟨rfl, rfl, registrations_notify .., rfl, Scripts.Spent.refl _⟩

/-- also if it is notified of several descriptors that the same thing is behind. -/
theorem quiet_notifyResource (k : Kernel) (resource : Resource) :
    k.Quiet (k.notifyResource resource) := by
  simp only [notifyResource]
  generalize k.descriptors.entries.filter (·.2 = resource) = entries
  induction entries generalizing k with
  | nil => exact Quiet.refl k
  | cons entry rest ih => exact (quiet_notify k entry.1).trans (ih _)

theorem quiet_updatePipe (k : Kernel) (number : Nat) (f : Pipe → Pipe) :
    k.Quiet (k.updatePipe number f) := ⟨rfl, rfl, rfl, rfl, Scripts.Spent.refl _⟩

/-- To write to the wake-up pipe is quiet. It fills the pipe, or finds it full, or fails. -/
theorem quiet_wake (k : Kernel) (d : Int) : k.Quiet (k.wake d) := by
  simp only [wake]
  split
  · split
    · split
      · exact (quiet_updatePipe ..).trans (quiet_notifyResource ..)
      · exact Quiet.refl k
    · exact Quiet.refl k
  · exact Quiet.refl k

/-- Reading from the wake-up pipe is quiet. -/
theorem quiet_plainPipeRead (k : Kernel) (d : Int) (room : Nat) :
    k.Quiet (k.plainPipeRead d room).2 := by
  rw [plainPipeRead]
  split
  · split
    · dsimp only
      split
      · exact Quiet.refl k
      · split
        · exact Quiet.refl k
        · exact quiet_updatePipe ..
    · exact Quiet.refl k
  · exact Quiet.refl k

/-- Reading from the pipe is quiet under whatever script. The induction is on the script, as an
interrupted call is made again. -/
theorem quiet_pipeRead (k : Kernel) (d : Int) (room : Nat) : k.Quiet (k.pipeRead d room).2 := by
  have hunder : ∀ script : Script, script <:+ k.scripts.of (.read (some d)) →
      k.Quiet (k.pipeReadUnder d room script).2 := by
    intro script hs
    fun_induction pipeReadUnder k d room script with
    | case1 rest ih => exact ih ((List.suffix_cons ..).trans hs)
    | case2 reason rest hi =>
      exact quiet_scripts (Scripts.spent_set ((List.suffix_cons ..).trans hs))
    | case3 n rest =>
      exact (quiet_scripts (Scripts.spent_set ((List.suffix_cons ..).trans hs))).trans
        (quiet_plainPipeRead ..)
    | case4 script =>
      exact (quiet_scripts (Scripts.spent_set ((List.tail_suffix _).trans hs))).trans
        (quiet_plainPipeRead ..)
  exact hunder _ (List.suffix_refl _)

/-- Beginning to wait is quiet: it only looks whether waiting is possible. -/
theorem quiet_beginWait (k : Kernel) (max : Nat) : k.Quiet (k.beginWait max).2 := by
  have htake := quiet_takeFault k .pollWait
  simp only [beginWait]
  split
  · rename_i h
    rw [h] at htake
    exact htake
  · rename_i h
    rw [h] at htake
    exact htake
  · rename_i h
    rw [h] at htake
    exact htake

end Kernel

end FileServer
