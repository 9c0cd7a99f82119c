import FileServer.Proofs.Kernel.Tracking
import FileServer.Proofs.Hub
import FileServer.Proofs.Server.Life

/-!
# What a server holds

A server holds its listener and its wake-up pipe, while it serves also its poll set and perhaps a
client who is in no slot yet (`Server.fixtures`), and the descriptors of the open connections. What
it holds is open, and besides is open only what is none of its own (`Server.Matches`).

Where entries lead, seen from the hub, is `Hub.Tracks`: whatever else is held is a list, at whose
front things are opened and closed. Closing, visiting and stepping a connection are followed here.

What is done to one connection is `Noted.Confined` if it stays on its descriptor and holds nothing
more in the end: so are reading, resuming and answering, for which a file is opened and closed
again. The lemmas for visits and steps take anything that is confined, and so need not know which of
them it is.
-/

namespace FileServer

/-! ## Connections

From the table: what is held for connections are the descriptors in its open slots, and each step
changes one slot at most. -/

namespace Hub

variable {hub hub' : Hub} {h : Handle} {d : Int} {others others' : List Int} {base held : Set Int}
  {l l' : Ledger}

/-- What a hub holds beside `others`: the descriptors of the open connections. -/
def holdings (hub : Hub) (others : List Int) : Set Int :=
  {d | d ∈ others ∨ (hub.connection? ⟨d⟩).isSome = true}

theorem mem_holdings : d ∈ hub.holdings others ↔ d ∈ others ∨ (hub.connection? ⟨d⟩).isSome = true :=
  Iff.rfl

/-- The other descriptors are different, and none is that of an open connection. -/
structure Apart (hub : Hub) (others : List Int) : Prop where
  nodup : others.Nodup
  connection : ∀ d ∈ others, hub.connection? ⟨d⟩ = none

/-- The same connections are open. -/
def SameOpen (hub hub' : Hub) : Prop :=
  ∀ h, (hub'.connection? h).isSome = (hub.connection? h).isSome

theorem SameOpen.refl (hub : Hub) : hub.SameOpen hub := fun _ => rfl

theorem SameOpen.holdings (h : hub.SameOpen hub') (others : List Int) :
    hub'.holdings others = hub.holdings others := by
  ext d
  rw [mem_holdings, mem_holdings, h]

/-- Where the same connections are open the others are as far apart. -/
theorem SameOpen.apart (h : hub.SameOpen hub') (hs : hub.Apart others) : hub'.Apart others where
  nodup := hs.nodup
  connection d hd := by
    have hnone := h ⟨d⟩
    rw [hs.connection d hd] at hnone
    exact Option.isSome_eq_false_iff.mp hnone |> Option.isNone_iff_eq_none.mp

/-- A connection stays open as long as it stays on its descriptor. -/
theorem sameOpen_put {c c' : Connection} (hc : hub.connection? h = some c)
    (hd : c'.descriptor = c.descriptor) (kernel : Kernel) : hub.SameOpen (hub.put h c' kernel) := by
  intro g
  by_cases hg : g = h
  · rw [hg, connection?_put_self hc hd, hc]
    rfl
  · rw [connection?_put_ne hg]

/-- Where no connection is open the others are all that is held. -/
theorem mem_holdings_of_none (hnone : ∀ h, hub.connection? h = none) :
    d ∈ hub.holdings others ↔ d ∈ others := by
  rw [mem_holdings, hnone]
  exact or_iff_left Bool.false_ne_true

theorem holdings_cons (hub : Hub) (d : Int) (others : List Int) :
    hub.holdings (d :: others) = insert d (hub.holdings others) := by
  ext e
  rw [Set.mem_insert_iff, mem_holdings, mem_holdings, List.mem_cons, or_assoc]

/-- A descriptor that stands in front of the others is not held otherwise, as it stands there once
and belongs to no connection. -/
theorem Apart.notMem_holdings (hs : hub.Apart (d :: others)) : d ∉ hub.holdings others := by
  rintro (hmem | hopen)
  · exact (List.nodup_cons.mp hs.nodup).1 hmem
  · rw [hs.connection d List.mem_cons_self] at hopen
    cases hopen

theorem Apart.tail (hs : hub.Apart (d :: others)) : hub.Apart others :=
  ⟨(List.nodup_cons.mp hs.nodup).2, fun e he => hs.connection e (List.mem_cons_of_mem _ he)⟩

/-- What is not held yet may be put in front. -/
theorem Apart.cons (hs : hub.Apart others) (hd : d ∉ hub.holdings others) :
    hub.Apart (d :: others) where
  nodup := List.nodup_cons.mpr ⟨fun hmem => hd (.inl hmem), hs.nodup⟩
  connection e he := by
    rcases List.mem_cons.mp he with rfl | he
    · exact Option.not_isSome_iff_eq_none.mp fun hopen => hd (.inr hopen)
    · exact hs.connection e he

theorem Apart.holdings_tail (hs : hub.Apart (d :: others)) :
    hub.holdings (d :: others) \ {d} = hub.holdings others := by
  rw [holdings_cons, Set.insert_sdiff_self_of_notMem hs.notMem_holdings]

/-- Closing a connection gives up its descriptor, and no other. -/
theorem holdings_close (hs : hub.Apart others) (hopen : (hub.connection? h).isSome) :
    (hub.close h).holdings others = hub.holdings others \ {h.descriptor} := by
  ext e
  rw [Set.mem_sdiff, Set.mem_singleton_iff, mem_holdings, mem_holdings]
  by_cases he : e = h.descriptor
  · have hnot : e ∉ others := fun hmem => by
      rw [he] at hmem
      rw [hs.connection _ hmem] at hopen
      cases hopen
    rw [he, connection?_close_self]
    rw [he] at hnot
    exact iff_of_false (fun hmem => hmem.elim hnot Bool.false_ne_true) fun hmem => hmem.2 rfl
  · have hne : (⟨e⟩ : Handle) ≠ h := fun heq => he (congrArg Handle.descriptor heq)
    rw [connection?_close_ne hne, and_iff_left he]

/-- Closing a connection brings none of the others closer. -/
theorem apart_close (hs : hub.Apart others) (h : Handle) : (hub.close h).Apart others where
  nodup := hs.nodup
  connection d hd := by
    by_cases heq : ⟨d⟩ = h
    · rw [heq]
      exact connection?_close_self hub h
    · rw [connection?_close_ne heq]
      exact hs.connection d hd

/-- A client who gets a slot is held as a connection then. -/
theorem holdings_enter {hub' : Hub} (hopen : (hub'.connection? ⟨d⟩).isSome)
    (hothers : ∀ g : Handle, g ≠ ⟨d⟩ → hub'.connection? g = hub.connection? g) :
    hub'.holdings others = hub.holdings (d :: others) := by
  rw [holdings_cons]
  ext e
  rw [Set.mem_insert_iff, mem_holdings, mem_holdings]
  by_cases he : e = d
  · rw [he, hopen]
    exact iff_of_true (.inr rfl) (.inl rfl)
  · have hne : (⟨e⟩ : Handle) ≠ ⟨d⟩ := fun heq => he (congrArg Handle.descriptor heq)
    rw [hothers _ hne]
    exact (or_iff_right he).symm

/-- What a hub holds beside what is none of its own is `others`, and the open connections. -/
structure Holds (hub : Hub) (base : Set Int) (others : List Int) : Prop where
  kernel : hub.kernel.Holds base (hub.holdings others)
  apart : hub.Apart others

/-- Some entries lead from what was held to what a hub holds beside `others`. -/
structure Tracks (base held : Set Int) (l : Ledger) (others : List Int) (hub' : Hub) : Prop where
  kernel : Kernel.Tracks base held l (hub'.holdings others) hub'.kernel
  apart : hub'.Apart others

namespace Tracks

theorem holds (h : Hub.Tracks base held l others hub) : hub.Holds base others :=
  ⟨h.kernel.holds, h.apart⟩

theorem append (h : Hub.Tracks base held l others hub)
    (h' : Hub.Tracks base (hub.holdings others) l' others' hub') :
    Hub.Tracks base held (l ++ l') others' hub' :=
  ⟨h.kernel.append h'.kernel, h'.apart⟩

/-- Nothing more is done. -/
theorem done (h : Hub.Tracks base held l others hub) :
    Hub.Tracks base held (l ++ []) others hub := by
  rw [List.append_nil]
  exact h

/-- A change of the kernel that opens and closes no connection is followed if its calls are. -/
theorem same (hs : hub.Holds base others) (hsame : hub.SameOpen hub')
    (h : Kernel.Tracks base (hub.holdings others) l (hub.holdings others) hub'.kernel) :
    Hub.Tracks base (hub.holdings others) l others hub' := by
  refine ⟨?_, hsame.apart hs.apart⟩
  rw [hsame.holdings]
  exact h

/-- Something else is held in addition. -/
theorem opened (hs : hub.Holds base others) (hsame : hub.SameOpen hub')
    (hd : d ∉ hub.holdings others)
    (h : Kernel.Tracks base (hub.holdings others) l (insert d (hub.holdings others)) hub'.kernel) :
    Hub.Tracks base (hub.holdings others) l (d :: others) hub' := by
  refine ⟨?_, hsame.apart (hs.apart.cons hd)⟩
  rw [hsame.holdings, holdings_cons]
  exact h

/-- Something else is held as a connection from now on. -/
theorem entered (hs : hub.Holds base (d :: others)) (hopen : (hub'.connection? ⟨d⟩).isSome)
    (hothers : ∀ g : Handle, g ≠ ⟨d⟩ → hub'.connection? g = hub.connection? g)
    (h : Kernel.Tracks base (hub.holdings (d :: others)) l (hub.holdings (d :: others))
      hub'.kernel) :
    Hub.Tracks base (hub.holdings (d :: others)) l others hub' := by
  refine ⟨?_, hs.apart.tail.nodup, fun e he => ?_⟩
  · rw [holdings_enter hopen hothers]
    exact h
  · have hne : (⟨e⟩ : Handle) ≠ ⟨d⟩ := fun heq =>
      hs.apart.notMem_holdings (.inl (Handle.mk.inj heq ▸ he))
    rw [hothers _ hne]
    exact hs.apart.tail.connection e he

/-- Something else is closed. -/
theorem closed (hs : hub.Holds base (d :: others)) (hsame : hub.SameOpen hub')
    (hkernel : hub'.kernel = hub.kernel.close d) :
    Hub.Tracks base (hub.holdings (d :: others)) [.closed d] others hub' := by
  refine ⟨?_, hsame.apart hs.apart.tail⟩
  rw [hsame.holdings, hkernel, ← hs.apart.holdings_tail]
  exact .closed hs.kernel (.inl List.mem_cons_self)

end Tracks

end Hub

namespace Noted

open Hub (Holds)

variable {hub : Hub} {h : Handle} {poll : Int} {others : List Int} {base : Set Int} {α : Type}

/-- **Closing a connection** gives its descriptor up, if it is open, and does nothing otherwise;
so a second attempt neither uses nor closes anything. -/
theorem tracks_closeHandle (hs : hub.Holds base others) (hpoll : poll ∈ others) (h : Handle) :
    Hub.Tracks base (hub.holdings others) (closeHandle poll hub h).entries others
      (closeHandle poll hub h).value := by
  rw [value_closeHandle]
  refine ⟨?_, Hub.apart_close hs.apart h⟩
  cases hc : hub.connection? h with
  | none =>
    rw [closeHandle, hc, Hub.close_of_none hc]
    exact .rest hs.kernel rfl
  | some c =>
    obtain ⟨-, -, -, hdescriptor⟩ := Hub.connection?_eq_some.mp hc
    have hopen : (hub.connection? h).isSome := by rw [hc]; rfl
    rw [closeHandle, hc, Hub.close_kernel hc, Hub.holdings_close hs.apart hopen, ← hdescriptor]
    refine tracks_discard hs.kernel (.inl hpoll) (.inr ?_)
    rw [hdescriptor]
    exact hopen

/-- What is done to a connection leaves it on its descriptor, and holds nothing more in the end. -/
structure Confined (f : Connection → Kernel → Noted (α × Connection × Kernel)) : Prop where
  stays : ∀ c k, (f c k).value.2.1.descriptor = c.descriptor
  tracks : ∀ {base held : Set Int} c k, k.Holds base held → c.descriptor ∈ held →
    Kernel.Tracks base held (f c k).entries held (f c k).value.2.2

theorem confined_onWire {f : Connection → Wire → α × Connection × Wire} (hf : Connection.Stays f) :
    Confined (onWire f) where
  stays c _ := (hf c _).1
  tracks _ _ hk hc := .used hk hc (Kernel.openSet_putWire ..)

/-- An answer opens a file and closes it again, and then attempts to send. -/
theorem confined_answer (root : String) (outcome : Request.Outcome) :
    Confined (answer root outcome) := by
  have hwire := fun r => confined_onWire (Connection.stays_respond r)
  -- resolving opens and closes the file, and leaves what is held as it was
  have hresolve : ∀ {base held : Set Int} c k, k.Holds base held →
      Kernel.Tracks base held (resolve root outcome c k).entries held
        (resolve root outcome c k).value.2 := by
    intro base held c k hk
    cases outcome with
    | complete =>
      rw [value_resolve]
      exact tracks_locate hk root c.reader.target
    | incomplete => exact .rest hk rfl
    | malformed => exact .rest hk rfl
  by_cases hwait : outcome = .incomplete
  · have hnothing : ∀ c k, answer root outcome c k = pure (.read, c, k) := fun c k => if_pos hwait
    refine ⟨fun c k => ?_, fun c k hk hc => ?_⟩
    · rw [hnothing]
      rfl
    · rw [hnothing]
      exact .rest hk rfl
  · have hanswers : ∀ c k, answer root outcome c k =
        resolve root outcome c k >>= fun r => onWire (·.respond r.1) c r.2 :=
        fun c k => if_neg hwait
    refine ⟨fun c k => ?_, fun c k hk hc => ?_⟩
    · rw [hanswers]
      exact (hwire _).stays c _
    · rw [hanswers]
      exact (hresolve c k hk).append ((hwire _).tracks c _ (hresolve c k hk).holds hc)

/-- A visit uses the descriptor of the connection that it finds, and holds what was held. -/
theorem tracks_visit {f : Connection → Kernel → Noted (α × Connection × Kernel)} (hf : Confined f)
    (hs : hub.Holds base others) (h : Handle) :
    Hub.Tracks base (hub.holdings others) (visit hub h f).entries others
      (visit hub h f).value.2 := by
  rw [visit]
  cases hc : hub.connection? h with
  | none => exact .same hs (.refl hub) (.rest hs.kernel rfl)
  | some c =>
    obtain ⟨-, -, -, hdescriptor⟩ := Hub.connection?_eq_some.mp hc
    have hsame := Hub.sameOpen_put hc (hf.stays c hub.kernel) (f c hub.kernel).value.2.2
    have hmem : c.descriptor ∈ hub.holdings others := by
      refine .inr ?_
      rw [hdescriptor, hc]
      rfl
    have htracks := hf.tracks c hub.kernel hs.kernel hmem
    exact .same hs hsame (htracks.append (.rest htracks.holds rfl))

/-- A step of a connection ends with the connection as it was, or closed. -/
theorem tracks_runStep {f : Connection → Kernel → Noted (Next × Connection × Kernel)}
    (hf : Confined f) (hs : hub.Holds base others) (hpoll : poll ∈ others) (h : Handle) :
    Hub.Tracks base (hub.holdings others) (runStep poll hub h f).entries others
      (runStep poll hub h f).value.2 := by
  have hvisited := tracks_visit hf hs h
  rw [runStep]
  rcases hvalue : (visit hub h f).value with ⟨next, hub'⟩
  rw [hvalue] at hvisited
  rw [bind_of_value hvalue]
  rcases next with _ | (_ | _ | _)
  · exact hvisited.done
  · exact hvisited.done
  · exact hvisited.done
  · exact hvisited.append (tracks_closeHandle hvisited.holds hpoll h).done

end Noted

/-! ## Servers

From the stage: what is held besides depends on how far the server is, and between two stages that
agree on it nothing has to be shown. -/

/-- Whether there is a poll set. -/
def Stage.hasPoll : Stage → Bool
  | .ready | .over _ | .dropped => false
  | _ => true

namespace Server

variable {s t : Server} {d : Int} {h : Handle} {base held : Set Int} {l : Ledger} {choice : Nat}
  {rest : List Event} {task : Task} {others others' : List Int}

/-- What a server holds beside the connections: a client who is in no slot yet, the poll set, the
listener, and the wake-up pipe, which stays as long as the server or somebody who can request a
stop. -/
def fixtures (s : Server) : List Int :=
  s.stage.candidate?.toList ++ (if s.stage.hasPoll then [s.poll] else []) ++
    (if s.isGone then [] else [s.listener]) ++
    (if s.isGone && s.handles = 0 then [] else [s.wakerOut, s.wakerIn])

/-- What a server holds. -/
def holdings (s : Server) : Set Int := s.hub.holdings s.fixtures

/-- What a server holds is open, and so is nothing else but what is none of its own. -/
def Matches (base : Set Int) (s : Server) : Prop := s.hub.Holds base s.fixtures

/-- Some entries lead from what was held to what a server holds. -/
def Tracks (base held : Set Int) (l : Ledger) (t : Server) : Prop :=
  t.hub.Tracks base held l t.fixtures

/-- What a server holds beside the connections while it serves. -/
def equipment (s : Server) : List Int := [s.poll, s.listener, s.wakerOut, s.wakerIn]

/-- While there is a poll set nothing is missing of the equipment. -/
theorem fixtures_of_hasPoll (hpoll : s.stage.hasPoll = true) :
    s.fixtures = s.stage.candidate?.toList ++ s.equipment := by
  have hgone : s.isGone = false := by
    rw [isGone]
    cases hstage : s.stage with
    | _ => first | rfl | (rw [hstage] at hpoll; cases hpoll)
  rw [fixtures, hpoll, hgone, List.append_assoc, List.append_assoc]
  rfl

/-- With no client on its way into a slot, the equipment is all there is. -/
theorem fixtures_idle (hpoll : s.stage.hasPoll = true) (hnone : s.stage.candidate? = none) :
    s.fixtures = s.equipment := by
  rw [fixtures_of_hasPoll hpoll, hnone]
  rfl

/-- A client on its way into a slot is held in front of it. -/
theorem fixtures_candidate (hd : s.stage.candidate? = some d) : s.fixtures = d :: s.equipment := by
  have hpoll : s.stage.hasPoll = true := by
    cases hstage : s.stage with
    | batch rest task => rfl
    | _ => rw [hstage] at hd; cases hd
  rw [fixtures_of_hasPoll hpoll, hd]
  rfl

theorem tracks_of (ht : t.fixtures = others) (h : Hub.Tracks base held l others t.hub) :
    Server.Tracks base held l t := by
  rw [Server.Tracks, ht]
  exact h

/-- What a server holds beside what is none of its own is `others`, and the open connections. -/
structure Has (s : Server) (base : Set Int) (others : List Int) : Prop where
  fixtures : s.fixtures = others
  holds : s.hub.Holds base others

/-- The stage says what is held: nothing but the equipment. -/
theorem Matches.idle {stage : Stage} (hs : s.Matches base) (hstage : s.stage = stage)
    (hpoll : stage.hasPoll = true) (hnone : stage.candidate? = none) : s.Has base s.equipment := by
  rw [← hstage] at hpoll hnone
  exact ⟨fixtures_idle hpoll hnone, fixtures_idle hpoll hnone ▸ hs⟩

theorem Matches.candidate {stage : Stage} (hs : s.Matches base) (hstage : s.stage = stage)
    (hd : stage.candidate? = some d) : s.Has base (d :: s.equipment) := by
  rw [← hstage] at hd
  exact ⟨fixtures_candidate hd, fixtures_candidate hd ▸ hs⟩

namespace Has

/-- The poll set is part of the equipment, and so is the listener, and the end of the pipe that is
read: these three are what calls are made on. -/
theorem poll (_ : s.Has base s.equipment) : s.poll ∈ s.equipment := List.mem_cons_self

theorem listener (_ : s.Has base s.equipment) : s.listener ∈ s.equipment :=
  List.mem_cons_of_mem _ List.mem_cons_self

theorem wakerOut (_ : s.Has base s.equipment) : s.wakerOut ∈ s.equipment :=
  List.mem_cons_of_mem _ (List.mem_cons_of_mem _ List.mem_cons_self)

/-- From the hub to the server. -/
theorem tracks (hs : s.Has base others) (ht : t.fixtures = others')
    (h : Hub.Tracks base (s.hub.holdings others) l others' t.hub) :
    Server.Tracks base s.holdings l t := by
  rw [holdings, hs.fixtures]
  exact tracks_of ht h

/-- A step that opens and closes no connection, and leaves the equipment as it is, is followed if
its calls are. -/
theorem same (hs : s.Has base others) (ht : t.fixtures = others) (hsame : s.hub.SameOpen t.hub)
    (h : Kernel.Tracks base (s.hub.holdings others) l (s.hub.holdings others) t.hub.kernel) :
    Server.Tracks base s.holdings l t :=
  hs.tracks ht (.same hs.holds hsame h)

/-- No call is made on a descriptor. -/
theorem quiet (hs : s.Has base others) (ht : t.fixtures = others) (hsame : s.hub.SameOpen t.hub)
    (hopen : t.hub.kernel.openSet = s.hub.kernel.openSet) : Server.Tracks base s.holdings [] t :=
  hs.same ht hsame (.rest hs.holds.kernel hopen)

/-- A connection is open where it stands. -/
theorem standing (_ : s.Has base others) {τ : Holder} {c : Connection} (h' : s.Standing h τ c) :
    h.descriptor ∈ s.hub.holdings others := by
  refine .inr ?_
  rw [h'.connection]
  rfl

end Has

end Server

end FileServer
