import FileServer.Proofs.Kernel.Operations
import FileServer.Proofs.Noted
import Mathlib.Order.BooleanAlgebra.Set

/-!
# A ledger follows the kernel

Of the descriptors that are open some are none of the program's; the others are what it holds
(`Kernel.Holds`). Noted operations are followed call by call: their entries are proper for what is
held before, and lead to what is held after, which is what is open then (`Kernel.Tracks`). For a
single call that is a fact about the set of open descriptors; what is built from calls is put
together by `Kernel.Tracks.append`.

There is one equation for each call, which says what it does to `Kernel.openSet`: it adds the number
that it obtains, takes away the one that it closes, or does nothing to the set. A call that may fail
after it has obtained something is a `Noted.Attempt`: what it leads to depends on whether it has
failed, and where it closes what it has obtained, nothing is left of it.
-/

namespace FileServer

namespace Kernel

variable {k k' k'' : Kernel} {d : Int} {base held held' held'' : Set Int} {l l' : Ledger}

/-! ## The open descriptors

Most calls do nothing to the set of open numbers. Those that obtain a descriptor add the next
number to it, and those that close one take its number away. -/

/-- The numbers of the open descriptors, whoever they belong to. Everything that is proved about a
single call here says what the call does to this set. -/
def openSet (k : Kernel) : Set Int := {d | (k.descriptors.get? d).isSome}

theorem mem_openSet : d ∈ k.openSet ↔ (k.descriptors.get? d).isSome := Iff.rfl

theorem openSet_congr (h : k'.descriptors = k.descriptors) : k'.openSet = k.openSet := by
  rw [openSet, openSet, h]

/-- Only whether there is an entry matters, not what it says: binding an address changes what a
descriptor stands for, and opens nothing. -/
theorem openSet_ext (h : ∀ d, (k'.descriptors.get? d).isSome = (k.descriptors.get? d).isSome) :
    k'.openSet = k.openSet := by
  ext d
  rw [mem_openSet, mem_openSet, h]

theorem Quiet.openSet (h : k.Quiet k') : k'.openSet = k.openSet := openSet_congr h.descriptors

/-- The next number to be given out is free: it is the lowest, from those of the standard streams
on, that is not in use. -/
theorem nextDescriptor_notMem (k : Kernel) : k.nextDescriptor ∉ k.openSet := by
  rw [mem_openSet, nextDescriptor_free]
  exact Bool.false_ne_true

/-- **Opening adds one number.** It is the next one, which has not been open before. -/
theorem openSet_allocate (k : Kernel) (r : Resource) :
    (k.allocate r).2.openSet = insert k.nextDescriptor k.openSet := by
  ext d
  by_cases hd : d = k.nextDescriptor
  · have hself : (k.allocate r).2.descriptors.get? k.nextDescriptor = some r :=
      DescriptorMap.get?_set_self ..
    rw [hd, mem_openSet, hself]
    exact ⟨fun _ => Set.mem_insert .., fun _ => rfl⟩
  · have hother : (k.allocate r).2.descriptors.get? d = k.descriptors.get? d :=
      DescriptorMap.get?_set_ne _ _ hd
    rw [Set.mem_insert_iff, mem_openSet, hother, mem_openSet]
    exact ⟨.inr, fun h => h.resolve_left hd⟩

/-- **Closing takes one number away**, and does nothing if it was not open. -/
theorem openSet_close (k : Kernel) (d : Int) : (k.close d).openSet = k.openSet \ {d} := by
  ext e
  rw [Set.mem_sdiff, Set.mem_singleton_iff]
  cases hr : k.descriptors.get? d with
  | none =>
    rw [close_of_none hr]
    refine ⟨fun h => ⟨h, ?_⟩, And.left⟩
    rintro rfl
    rw [mem_openSet, hr] at h
    cases h
  | some r =>
    rw [mem_openSet, close_of_some hr, (same_endResource (k.without d) r).descriptors]
    by_cases he : e = d
    · rw [he, without_self]
      exact iff_of_false Bool.false_ne_true fun h => h.2 rfl
    · rw [without_ne k he]
      exact (and_iff_left he).symm

/-- What stands behind an open descriptor may change. -/
theorem openSet_set (hd : d ∈ k.openSet) (r : Resource)
    (h : k'.descriptors = k.descriptors.set d r) : k'.openSet = k.openSet := by
  refine openSet_ext fun e => ?_
  rw [h]
  by_cases he : e = d
  · rw [he, DescriptorMap.get?_set_self, mem_openSet.mp hd]
    rfl
  · rw [DescriptorMap.get?_set_ne _ _ he]

theorem openSet_pollAdd (k : Kernel) (d : Int) (g : Registration) :
    (k.pollAdd d g).2.openSet = k.openSet := openSet_congr (descriptors_pollAdd k d g)

theorem openSet_pollModify (k : Kernel) (d : Int) (g : Registration) :
    (k.pollModify d g).2.openSet = k.openSet := openSet_congr (descriptors_pollModify k d g)

/-- Taking a registration back closes nothing: that is left to `close`. -/
theorem openSet_pollDelete (k : Kernel) (d : Int) : (k.pollDelete d).2.openSet = k.openSet :=
  openSet_congr (pollDelete_spec k d).1

theorem openSet_putWire (k : Kernel) (d : Int) (w : Wire) : (k.putWire d w).openSet = k.openSet :=
  openSet_congr (putWire_spec k d w).1.descriptors

/-- A client who connects waits in the backlog, and has no descriptor before it is accepted. -/
theorem openSet_connect (k : Kernel) (listener : Int) :
    (k.connect listener).2.openSet = k.openSet := by
  rcases connect_cases k listener with ⟨n, k', heq, hconnects⟩ | heq
  · rw [heq]
    refine openSet_ext fun e => ?_
    by_cases he : e = listener
    · obtain ⟨l, hl⟩ := hconnects.awaits
      obtain ⟨l', hl'⟩ := hconnects.listens
      rw [he, hl, hl']
      rfl
    · rw [hconnects.others e he]
  · rw [heq]

theorem openSet_asClient {α : Type} (k : Kernel) (number : Nat) (f : Stream → α × Stream) :
    (k.asClient number f).2.openSet = k.openSet :=
  openSet_congr (k.asClient_same number f).1.descriptors

/-- Setting an option can only fail, and opens nothing either way. -/
theorem openSet_setOption (k : Kernel) : k.setOption.2.openSet = k.openSet := by
  have htake := (quiet_takeFault k .setOption).openSet
  rw [setOption]
  rcases hfault : k.takeFault .setOption with ⟨fault, k₁⟩
  rw [hfault] at htake
  rcases fault with _ | (n | reason) <;> exact htake

/-- Where an address can be bound, something else stands behind the descriptor. -/
theorem openSet_bind (hd : d ∈ k.openSet) (address : SocketAddress) :
    (k.bind d address).2.openSet = k.openSet := by
  have htake := (quiet_takeFault k .bind).openSet
  rw [bind]
  split
  · next hfault =>
    rw [hfault] at htake
    exact htake
  · next fault k₁ hfail hfault =>
    rw [hfault] at htake
    have hd₁ : d ∈ k₁.openSet := by
      rw [htake]
      exact hd
    split
    · exact htake
    · split
      · exact (openSet_set hd₁ _ rfl).trans htake
      · split
        · exact htake
        · exact (openSet_set hd₁ _ rfl).trans htake

/-- Listening on a bound socket replaces what stands behind its descriptor. -/
theorem openSet_listen (hd : d ∈ k.openSet) : (k.listen d).2.openSet = k.openSet := by
  have htake := (quiet_takeFault k .listen).openSet
  rw [listen]
  split
  · next hfault =>
    rw [hfault] at htake
    exact htake
  · next fault k₁ hfail hfault =>
    rw [hfault] at htake
    have hd₁ : d ∈ k₁.openSet := by
      rw [htake]
      exact hd
    split
    · exact (openSet_set hd₁ _ rfl).trans htake
    · exact htake

/-- What an attempt to accept opens: the number of a client, if there is one. -/
theorem openSet_accept (k : Kernel) (listener : Int) :
    (∃ d peer, (k.accept listener).1 = .accepted d peer ∧ d ∉ k.openSet ∧
        (k.accept listener).2.openSet = insert d k.openSet) ∨
      ((∀ d peer, (k.accept listener).1 ≠ .accepted d peer) ∧
        (k.accept listener).2.openSet = k.openSet) := by
  rcases accept_cases k listener with ⟨d, peer, n, k', heq, haccepts⟩ | ⟨hnone, hquiet⟩
  · rw [heq]
    refine .inl ⟨d, peer, rfl, ?_, ?_⟩
    · rw [mem_openSet, haccepts.free]
      exact Bool.false_ne_true
    · ext e
      by_cases hed : e = d
      · rw [hed, mem_openSet, get?_of_streamOf? haccepts.stream]
        exact ⟨fun _ => Set.mem_insert .., fun _ => rfl⟩
      · have hsame : (k'.descriptors.get? e).isSome = (k.descriptors.get? e).isSome := by
          by_cases hl : e = listener
          · obtain ⟨l, hl₁⟩ := haccepts.awaits
            obtain ⟨l', hl₂⟩ := haccepts.listens
            rw [hl, hl₁, hl₂]
            rfl
          · rw [haccepts.others e hed hl]
        rw [Set.mem_insert_iff, mem_openSet, hsame, mem_openSet]
        exact ⟨.inr, fun h => h.resolve_left hed⟩
  · exact .inr ⟨hnone, hquiet.openSet⟩

/-- A new poll set is one number that has not been open before, or the call has failed and nothing
has been opened. -/
theorem openSet_createPoll (k : Kernel) :
    (∃ d, k.createPoll.1 = .ok d ∧ d ∉ k.openSet ∧ k.createPoll.2.openSet = insert d k.openSet) ∨
      ((∃ reason, k.createPoll.1 = .error reason) ∧ k.createPoll.2.openSet = k.openSet) := by
  have htake := (quiet_takeFault k .pollCreate).openSet
  rw [createPoll]
  rcases hfault : k.takeFault .pollCreate with ⟨fault, k₁⟩
  rw [hfault] at htake
  have hcreated : ∃ d, (Kernel.allocate { k₁ with poll := {} } .poll).1 = d ∧ d ∉ k.openSet ∧
      (Kernel.allocate { k₁ with poll := {} } .poll).2.openSet = insert d k.openSet := by
    have hsame : Kernel.openSet { k₁ with poll := {} } = k.openSet := htake
    refine ⟨_, rfl, ?_, ?_⟩
    · rw [← hsame]
      exact nextDescriptor_notMem _
    · rw [← hsame]
      exact openSet_allocate ..
  rcases fault with _ | (n | reason)
  · obtain ⟨d, rfl, hfree, hopen⟩ := hcreated
    exact .inl ⟨_, rfl, hfree, hopen⟩
  · obtain ⟨d, rfl, hfree, hopen⟩ := hcreated
    exact .inl ⟨_, rfl, hfree, hopen⟩
  · exact .inr ⟨⟨reason, rfl⟩, htake⟩

/-- The two ends of a new pipe are opened one after the other, so that the second number is new
with regard to the first as well. The kernel in between is named for the sake of the ledger, which
enters them in this order. -/
theorem openSet_createPipe (k : Kernel) :
    (∃ out into, ∃ k₁ : Kernel, k.createPipe.1 = .ok (out, into) ∧ out ∉ k.openSet ∧
        k₁.openSet = insert out k.openSet ∧ into ∉ k₁.openSet ∧
        k.createPipe.2.openSet = insert into k₁.openSet) ∨
      ((∃ e, k.createPipe.1 = .error e) ∧ k.createPipe.2.openSet = k.openSet) := by
  have htake := (quiet_takeFault k .createPipe).openSet
  rw [createPipe]
  rcases hfault : k.takeFault .createPipe with ⟨fault, k₁⟩
  rw [hfault] at htake
  have hcreated : ∀ k₂ : Kernel, k₂.openSet = k.openSet → ∀ n,
      (k₂.allocate (.pipeOut n)).1 ∉ k.openSet ∧
      (k₂.allocate (.pipeOut n)).2.openSet = insert (k₂.allocate (.pipeOut n)).1 k.openSet ∧
      ((k₂.allocate (.pipeOut n)).2.allocate (.pipeIn n)).1 ∉ (k₂.allocate (.pipeOut n)).2.openSet ∧
      ((k₂.allocate (.pipeOut n)).2.allocate (.pipeIn n)).2.openSet =
        insert ((k₂.allocate (.pipeOut n)).2.allocate (.pipeIn n)).1
          (k₂.allocate (.pipeOut n)).2.openSet := by
    intro k₂ hsame n
    rw [← hsame]
    exact ⟨nextDescriptor_notMem _, openSet_allocate .., nextDescriptor_notMem _,
      openSet_allocate ..⟩
  rcases fault with _ | (n | reason)
  · exact .inl ⟨_, _, _, rfl, hcreated { k₁ with pipes := k₁.pipes ++ [({} : Pipe)] }
      htake k₁.pipes.length⟩
  · exact .inl ⟨_, _, _, rfl, hcreated { k₁ with pipes := k₁.pipes ++ [({} : Pipe)] }
      htake k₁.pipes.length⟩
  · exact .inr ⟨⟨_, rfl⟩, htake⟩

/-! ## What is held

What a program holds is a set of numbers, apart from those that were open before it. -/

/-- What is open is what the program holds, and `base`, which is none of the program's:
descriptors that were open before it started. The two have nothing in common, so that closing what
is held can never close what belongs to somebody else. -/
structure Holds (k : Kernel) (base held : Set Int) : Prop where
  isOpen : k.openSet = base ∪ held
  apart : ∀ d ∈ base, d ∉ held

namespace Holds

theorem congr (hk : k.Holds base held) (hopen : k'.openSet = k.openSet) : k'.Holds base held :=
  ⟨hopen.trans hk.isOpen, hk.apart⟩

theorem mem (hk : k.Holds base held) (hd : d ∈ held) : d ∈ k.openSet := by
  rw [hk.isOpen]
  exact .inr hd

/-- What is not open is not held, so that a new number is never one that is held already. -/
theorem notMem (hk : k.Holds base held) (hd : d ∉ k.openSet) : d ∉ held := fun h => hd (hk.mem h)

/-- A number that has just been opened is held from then on. -/
theorem insert (hk : k.Holds base held) (hd : d ∉ k.openSet)
    (hopen : k'.openSet = Insert.insert d k.openSet) : k'.Holds base (Insert.insert d held) where
  isOpen := by rw [hopen, hk.isOpen, Set.union_insert]
  apart e he := by
    rintro (rfl | hheld)
    · exact hd (hk.isOpen ▸ .inl he)
    · exact hk.apart e he hheld

/-- What is closed is held no longer, and the descriptors in `base` stay as they are. -/
theorem close (hk : k.Holds base held) (hd : d ∈ held) : (k.close d).Holds base (held \ {d}) where
  isOpen := by
    have hbase : d ∉ base := fun hbase => hk.apart d hbase hd
    rw [openSet_close, hk.isOpen, Set.union_sdiff_distrib, Set.sdiff_singleton_eq_self hbase]
  apart e he hheld := hk.apart e he hheld.1

end Holds

/-- Entries are proper for what is held, and lead to what is held, and open, after them. This is
the judgement that follows a program call by call; the ledger is the list of what the calls have
noted, and the two sets are what is held before and after it. -/
structure Tracks (base held : Set Int) (l : Ledger) (held' : Set Int) (k' : Kernel) : Prop where
  proper : l.Proper held
  after : l.after held = held'
  holds : k'.Holds base held'

namespace Tracks

theorem rest (hk : k.Holds base held) (hopen : k'.openSet = k.openSet) :
    Tracks base held [] held k' :=
  ⟨trivial, rfl, hk.congr hopen⟩

/-- A call on a descriptor that is held is noted as a use, which is proper, and keeps what is
held. -/
theorem used (hk : k.Holds base held) (hd : d ∈ held) (hopen : k'.openSet = k.openSet) :
    Tracks base held [.used d] held k' :=
  ⟨⟨hd, trivial⟩, rfl, hk.congr hopen⟩

theorem opened (hk : k.Holds base held) (hd : d ∉ k.openSet)
    (hopen : k'.openSet = insert d k.openSet) : Tracks base held [.opened d] (insert d held) k' :=
  ⟨⟨hk.notMem hd, trivial⟩, rfl, hk.insert hd hopen⟩

theorem closed (hk : k.Holds base held) (hd : d ∈ held) :
    Tracks base held [.closed d] (held \ {d}) (k.close d) :=
  ⟨⟨hd, trivial⟩, rfl, hk.close hd⟩

theorem congr (h : Tracks base held l held' k') (heq : held'' = held') :
    Tracks base held l held'' k' :=
  heq ▸ h

/-- **Entries one after the other.** What the first lot leads to is what the second starts from;
the ledger of a longer program is put together from those of its calls. -/
theorem append (h : Tracks base held l held' k') (h' : Tracks base held' l' held'' k'') :
    Tracks base held (l ++ l') held'' k'' where
  proper := Ledger.proper_append.mpr ⟨h.proper, h.after.symm ▸ h'.proper⟩
  after := by rw [Ledger.after_append, h.after, h'.after]
  holds := h'.holds

end Tracks

end Kernel

/-! ## What is built from calls

The calls of a function follow one another, and what is held in the end is what the last of them
leads to. -/

namespace Noted

open Kernel (Holds Tracks)

variable {k : Kernel} {d poll : Int} {base held failed : Set Int} {α β ε : Type}

/-- How an attempt ends: what is held then depends on whether it has failed. -/
inductive Attempt (base held : Set Int) (done : α → Set Int) (failed : Set Int)
    (x : Noted (Except ε α × Kernel)) : Prop
  | done {a : α} {k' : Kernel} : x.value = (.ok a, k') →
    Tracks base held x.entries (done a) k' → Attempt base held done failed x
  | failed {e : ε} {k' : Kernel} : x.value = (.error e, k') →
    Tracks base held x.entries failed k' → Attempt base held done failed x

/-- What follows starts from what an attempt that has not failed holds. Where the attempt fails,
what follows is never run, and what is held is what the attempt left. -/
theorem Attempt.andThen {x : Noted (Except ε α × Kernel)}
    {f : α → Kernel → Noted (Except ε β × Kernel)}
    {done : α → Set Int} {done' : β → Set Int} (hx : Attempt base held done failed x)
    (hf : ∀ a k', k'.Holds base (done a) → Attempt base (done a) done' failed (f a k')) :
    Attempt base held done' failed (andThen x f) := by
  cases hx with
  | @failed e k' hvalue htracks =>
    have hstops : Noted.andThen x f = ⟨(.error e, k'), x.entries ++ []⟩ := by
      rw [Noted.andThen, bind_of_value hvalue]
      rfl
    rw [hstops]
    exact .failed rfl (htracks.append (.rest htracks.holds rfl))
  | @done a k' hvalue htracks =>
    have hgoes : Noted.andThen x f = ⟨(f a k').value, x.entries ++ (f a k').entries⟩ := by
      rw [Noted.andThen, bind_of_value hvalue]
    rw [hgoes]
    cases hf a k' htracks.holds with
    | failed hvalue' htracks' => exact .failed hvalue' (htracks.append htracks')
    | done hvalue' htracks' => exact .done hvalue' (htracks.append htracks')

/-- A call on the poll set that concerns a descriptor. -/
theorem tracks_control (hk : k.Holds base held) (hpoll : poll ∈ held) (hd : d ∈ held) {k' : Kernel}
    (hopen : k'.openSet = k.openSet) : Tracks base held [.used poll, .used d] held k' :=
  (Tracks.used hk hpoll rfl).append (Tracks.used hk hd hopen)

/-- Giving a descriptor up uses the poll set and the descriptor, then closes the descriptor.
Whether the registration could be taken back does not matter to what is held. -/
theorem tracks_discard (hk : k.Holds base held) (hpoll : poll ∈ held) (hd : d ∈ held) :
    Tracks base held (discard poll k d).entries (held \ {d}) (k.discard d) :=
  have hdeleted := tracks_control hk hpoll hd (k.openSet_pollDelete d)
  hdeleted.append (.closed hdeleted.holds hd)

/-- A new poll set is held, if there is one. -/
theorem tracks_createPoll (hk : k.Holds base held) :
    (∃ d k', (createPoll k).value = (.ok d, k') ∧ d ∉ held ∧
        Tracks base held (createPoll k).entries (insert d held) k') ∨
      ∃ reason k', (createPoll k).value = (.error reason, k') ∧
        Tracks base held (createPoll k).entries held k' := by
  rcases k.openSet_createPoll with ⟨d, hd, hfree, hopen⟩ | ⟨⟨reason, hreason⟩, hopen⟩
  · refine .inl ⟨d, _, Prod.ext hd rfl, hk.notMem hfree, ?_⟩
    rw [createPoll, hd]
    exact .opened hk hfree hopen
  · refine .inr ⟨reason, _, Prod.ext hreason rfl, ?_⟩
    rw [createPoll, hreason]
    exact .rest hk hopen

/-- The two ends of a new pipe are held, if there is one. -/
theorem tracks_createPipe (hk : k.Holds base held) :
    (∃ out into k', (createPipe k).value = (.ok (out, into), k') ∧ out ∉ held ∧
      into ∉ insert out held ∧
        Tracks base held (createPipe k).entries (insert into (insert out held)) k') ∨
      ∃ e k', (createPipe k).value = (.error e, k') ∧
        Tracks base held (createPipe k).entries held k' := by
  rcases k.openSet_createPipe with ⟨out, into, k₁, hends, hout, hopen, hinto,
    hopen'⟩ | ⟨⟨e, he⟩, hopen⟩
  · have hopened : Tracks base held [.opened out] (insert out held) k₁ := .opened hk hout hopen
    refine .inl ⟨out, into, _, Prod.ext hends rfl, hk.notMem hout, hopened.holds.notMem hinto, ?_⟩
    rw [createPipe, hends]
    exact hopened.append (.opened hopened.holds hinto hopen')
  · refine .inr ⟨e, _, Prod.ext he rfl, ?_⟩
    rw [createPipe, he]
    exact .rest hk hopen

/-- A client who is accepted is held. -/
theorem tracks_accept (hk : k.Holds base held) {listener : Int} (hlistener : listener ∈ held) :
    (∃ d peer k', (accept k listener).value = (.accepted d peer, k') ∧ d ∉ held ∧
        Tracks base held (accept k listener).entries (insert d held) k') ∨
      ∃ result k', (accept k listener).value = (result, k') ∧
        (∀ d peer, result ≠ .accepted d peer) ∧
        Tracks base held (accept k listener).entries held k' := by
  have hcalled : Tracks base held [.used listener] held k := .used hk hlistener rfl
  rcases k.openSet_accept listener with ⟨d, peer, hd, hfree, hopen⟩ | ⟨hnone, hopen⟩
  · refine .inl ⟨d, peer, _, Prod.ext hd rfl, hk.notMem hfree, ?_⟩
    rw [accept, hd]
    exact hcalled.append (.opened hk hfree hopen)
  · refine .inr ⟨_, _, Prod.ext rfl rfl, hnone, ?_⟩
    have hentries : (accept k listener).entries = [.used listener] := by
      rw [accept]
      cases hresult : (k.accept listener).1 with
      | accepted d peer => exact absurd hresult (hnone d peer)
      | wouldBlock => rfl
      | failed reason => rfl
    rw [hentries]
    exact .used hk hlistener hopen

/-- A call on what has just been opened, which is closed if the call fails. So an attempt that
fails halfway holds what was held before it began, and not a descriptor that nobody knows of. -/
theorem attempt_orClose (hk : k.Holds base (insert d held)) (hd : d ∉ held)
    {x : Except Errno Unit × Kernel} (hx : x.2.openSet = k.openSet) :
    Attempt base (insert d held) (fun _ => insert d held) held (call d x >>= orClose d) := by
  obtain ⟨result, k'⟩ := x
  have hcalled : Tracks base (insert d held) [.used d] (insert d held) k' :=
    .used hk (Set.mem_insert ..) hx
  cases result with
  | ok u => exact .done rfl hcalled
  | error reason =>
    have hclosed := Tracks.closed hcalled.holds (Set.mem_insert d held)
    rw [Set.insert_sdiff_self_of_notMem hd] at hclosed
    exact .failed rfl (hcalled.append hclosed)

/-- A new listener is held; where there is none, what has been opened has been closed. Three calls
may fail after the socket is there, and each is an attempt of the kind above. -/
theorem attempt_openListener (hk : k.Holds base held) (host : String) (port : UInt16) :
    Attempt base held (insert · held) held (openListener k host port) := by
  unfold openListener
  cases SocketAddress.parse? (hostAndPort host port) with
  | none => exact .failed rfl (.rest hk rfl)
  | some address =>
    dsimp only
    have htake := (Kernel.quiet_takeFault k .socket).openSet
    split
    · next reason k₁ hfault =>
      rw [hfault] at htake
      exact .failed rfl (.rest hk htake)
    · next fault k₁ hfail hfault =>
      rw [hfault] at htake
      have hfree := Kernel.nextDescriptor_notMem k₁
      have hopened := Tracks.opened (hk.congr htake) hfree
        (Kernel.openSet_allocate k₁ (.socket none))
      have hnew := (hk.congr htake).notMem hfree
      have hmem : ∀ {k' : Kernel}, k'.Holds base (insert k₁.nextDescriptor held) →
          k₁.nextDescriptor ∈ k'.openSet := fun hk' => hk'.mem (Set.mem_insert ..)
      -- each of the calls behind the first closes the socket where it fails
      have hlistens : Attempt base (insert k₁.nextDescriptor held)
          (fun _ => insert k₁.nextDescriptor held) held
          (listenOn (k₁.allocate (.socket none)).2 k₁.nextDescriptor address) := by
        refine Attempt.andThen (attempt_orClose hopened.holds hnew
          (Kernel.openSet_setOption _)) fun _ k₂ hk₂ => ?_
        exact Attempt.andThen (attempt_orClose hk₂ hnew (Kernel.openSet_bind (hmem hk₂) address))
          fun _ k₃ hk₃ => attempt_orClose hk₃ hnew (Kernel.openSet_listen (hmem hk₃))
      have hnumbered : Attempt base (insert k₁.nextDescriptor held) (insert · held) held
          (andThen (listenOn (k₁.allocate (.socket none)).2 k₁.nextDescriptor address) fun _ k =>
            pure ((.ok k₁.nextDescriptor, k) : Except ServerError Int × Kernel)) :=
        hlistens.andThen fun _ _ hk' => .done rfl (.rest hk' rfl)
      cases hnumbered with
      | done hvalue htracks => exact .done hvalue (hopened.append htracks)
      | failed hvalue htracks => exact .failed hvalue (hopened.append htracks)

/-- Looking a file up opens it and closes it again, on each way through: what is held is the same
before and after, and in between the file's number is used while it is open. -/
theorem tracks_locate (hk : k.Holds base held) (root url : String) :
    Tracks base held (locate k root url).entries held (k.locate root url).2 := by
  rw [← value_locate, locate]
  split
  · exact .rest hk rfl
  · next content hcontent =>
    have hfree := Kernel.nextDescriptor_notMem k
    have hopened := Tracks.opened hk hfree (Kernel.openSet_allocate k .file)
    have hmapped := Tracks.used hopened.holds (Set.mem_insert k.nextDescriptor held)
      (Kernel.quiet_mapFile _ content).openSet
    have hclosed := Tracks.closed hmapped.holds (Set.mem_insert k.nextDescriptor held)
    rw [Set.insert_sdiff_self_of_notMem (hk.notMem hfree)] at hclosed
    exact hopened.append (hmapped.append hclosed)

end Noted

end FileServer
