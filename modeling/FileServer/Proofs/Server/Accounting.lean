import FileServer.Proofs.Server.Table
import FileServer.Proofs.Server.Waking

/-!
# The count of open connections

The count that admission goes by is that of the open slots, after every step of every run
(`Server.accounts_balance`): a step opens one connection and counts it, closes one and counts it
off, or does neither, so whoever closes a connection, and however often it is tried, it is counted
off once. The count never passes the limit, a client that is turned away leaves table and count as
they are, and when a server has served nothing is open or counted.

The limit is looked at one step before a client is entered. In between only the loop could open
another connection, and it does not; what others do can only make the count smaller.

Only the table is looked at, by `Server.TableStep`: of the steps listed there one enters a client,
two close a connection, and all others visit one at most. For each of these the count of the slots
is followed through what is put into one slot (`Hub.Counted.enter`, `Hub.Counted.close`,
`Hub.Counted.visit`).
-/

namespace FileServer

/-! ## Counting values

How many entries of a table have a property, and how that changes with one entry. -/

namespace DescriptorMap

variable {α : Type} {p : α → Bool}

/-- How many of the values have a property. -/
def count (m : DescriptorMap α) (p : α → Bool) : Nat := m.entries.countP fun entry => p entry.2

/-- In a list with increasing numbers, a number before the first is not there. -/
theorem lookup_eq_none_of_lt {key : Int} {entries : List (Int × α)}
    (h : ∀ entry ∈ entries, key < entry.1) : entries.lookup key = none := by
  rw [List.lookup_eq_none_iff]
  intro entry hentry
  rw [bne_iff_ne]
  exact Int.ne_of_lt (h entry hentry)

/-- In such a list, each entry is the one that its number leads to. -/
theorem lookup_of_mem {entries : List (Int × α)} (h : Increasing entries) {entry : Int × α}
    (hentry : entry ∈ entries) : entries.lookup entry.1 = some entry.2 := by
  induction entries with
  | nil => cases hentry
  | cons first rest ih =>
    obtain ⟨hfirst, hrest⟩ := List.pairwise_cons.mp h
    rw [lookup_cons_ite]
    rcases List.mem_cons.mp hentry with rfl | hentry
    · rw [if_pos rfl]
    · rw [if_neg (Int.ne_of_gt (hfirst entry hentry)), ih hrest hentry]

/-- A value that is put under a number counts in place of the one that was there. The equation has
both sides added to, since with natural numbers nothing may be taken away that is not there. -/
theorem countP_insert (p : α → Bool) (key : Int) (value : α) {entries : List (Int × α)}
    (h : Increasing entries) :
    (insert key value entries).countP (fun entry => p entry.2) +
        (if (entries.lookup key).any p then 1 else 0) =
      entries.countP (fun entry => p entry.2) + if p value then 1 else 0 := by
  induction entries with
  | nil => simp [insert]
  | cons first rest ih =>
    obtain ⟨k, v⟩ := first
    obtain ⟨hfirst, hrest⟩ := List.pairwise_cons.mp h
    rw [insert]
    by_cases hlt : key < k
    · have hnone : ((k, v) :: rest).lookup key = none := by
        refine lookup_eq_none_of_lt fun entry hentry => ?_
        rcases List.mem_cons.mp hentry with rfl | hentry
        · exact hlt
        · exact Int.lt_trans hlt (hfirst entry hentry)
      rw [if_pos hlt, hnone, List.countP_cons]
      rfl
    · rw [if_neg hlt]
      by_cases heq : key = k
      · rw [if_pos heq, lookup_cons_ite, if_pos heq, List.countP_cons, List.countP_cons,
          Option.any_some]
        dsimp only
        omega
      · rw [if_neg heq, lookup_cons_ite, if_neg heq, List.countP_cons, List.countP_cons]
        have hih := ih hrest
        omega

theorem count_set (m : DescriptorMap α) (p : α → Bool) (key : Int) (value : α) :
    (m.set key value).count p + (if (m.get? key).any p then 1 else 0) =
      m.count p + if p value then 1 else 0 :=
  countP_insert p key value m.increasing

/-- Where the numbers lie between two bounds there are no more values than numbers between them. -/
theorem length_le_of_increasing {a b : Int} {entries : List (Int × α)} (h : Increasing entries)
    (hbounds : ∀ entry ∈ entries, a ≤ entry.1 ∧ entry.1 < b) : entries.length ≤ (b - a).toNat := by
  induction entries generalizing a with
  | nil => exact Nat.zero_le _
  | cons first rest ih =>
    obtain ⟨hfirst, hrest⟩ := List.pairwise_cons.mp h
    obtain ⟨hle, hlt⟩ := hbounds first List.mem_cons_self
    have hlength := ih (a := first.1 + 1) hrest fun entry hentry =>
      ⟨hfirst entry hentry, (hbounds entry (List.mem_cons_of_mem _ hentry)).2⟩
    rw [List.length_cons]
    omega

/-- There are no more values than numbers at which there may be one. -/
theorem count_le (m : DescriptorMap α) (p : α → Bool) {n : Nat}
    (h : ∀ d value, m.get? d = some value → 0 ≤ d ∧ d < n) : m.count p ≤ n := by
  refine Nat.le_trans List.countP_le_length ?_
  have hlength := length_le_of_increasing (a := 0) (b := n) m.increasing fun entry hentry =>
    h _ _ (lookup_of_mem m.increasing hentry)
  omega

/-- Where no value has the property nothing counts. -/
theorem count_eq_zero {m : DescriptorMap α}
    (h : ∀ d value, m.get? d = some value → p value = false) : m.count p = 0 := by
  rw [count, List.countP_eq_zero]
  intro entry hentry hp
  rw [h _ _ (lookup_of_mem m.increasing hentry)] at hp
  cases hp

end DescriptorMap

/-! ## The count of a table

The count that is kept next to the slots, and that it stays right. It is a number of 64 bits, which
cannot wrap as long as there is room for more. -/

namespace Hub

variable {hub : Hub} {h : Handle} {c : Connection} {d : Int}

/-- How many of the slots are open. -/
def openCount (hub : Hub) : Nat := hub.slots.count Connection.isOpen

/-- What is open in a slot has the slot's number, and what is counted are the open slots. The
bound on the capacity keeps the count, a number of 64 bits, from ever wrapping. -/
structure Counted (hub : Hub) : Prop where
  placed : ∀ d c, hub.slots.get? d = some c →
    hub.hasSlot d = true ∧ (c.isOpen = true → c.descriptor = d)
  exact : hub.live.toNat = hub.openCount
  /-- there are no more slots than can be counted -/
  small : hub.capacity < UInt64.size

/-- Nothing is opened or closed, and the count stays. -/
structure Unmoved (hub hub' : Hub) : Prop where
  same : ∀ g, (hub'.connection? g).isSome = (hub.connection? g).isSome
  live : hub'.live = hub.live

/-- One connection is opened, and counted. -/
structure Opened (hub hub' : Hub) (h : Handle) : Prop where
  before : hub.connection? h = none
  after : (hub'.connection? h).isSome = true
  others : ∀ g, g ≠ h → (hub'.connection? g).isSome = (hub.connection? g).isSome
  live : hub'.live.toNat = hub.live.toNat + 1

/-- One connection is closed, and counted off: something was counted before. -/
structure CountedOff (hub hub' : Hub) (h : Handle) : Prop where
  before : (hub.connection? h).isSome = true
  after : hub'.connection? h = none
  others : ∀ g, g ≠ h → (hub'.connection? g).isSome = (hub.connection? g).isSome
  live : hub.live.toNat = hub'.live.toNat + 1

theorem connection?_congr {hub' : Hub} (htable : hub'.table = hub.table) (h : Handle) :
    hub'.connection? h = hub.connection? h := by
  have hslots : hub'.slots = hub.slots := congrArg Table.slots htable
  have hcapacity : hub'.capacity = hub.capacity := congrArg Table.capacity htable
  rw [connection?, connection?, hasSlot, hasSlot, hslots, hcapacity]

theorem Unmoved.congr {hub' hub'' : Hub} (h : hub.Unmoved hub')
    (htable : hub''.table = hub'.table) : hub.Unmoved hub'' :=
  ⟨fun g => (congrArg Option.isSome (connection?_congr htable g)).trans (h.same g),
    (congrArg Table.live htable).trans h.live⟩

/-- Whether a connection was opened is read off the table. -/
theorem Opened.congr {hub' hub'' : Hub} (ho : hub.Opened hub' h)
    (htable : hub''.table = hub'.table) : hub.Opened hub'' h where
  before := ho.before
  after := (congrArg Option.isSome (connection?_congr htable h)).trans ho.after
  others g hne := (congrArg Option.isSome (connection?_congr htable g)).trans (ho.others g hne)
  live := (congrArg (UInt64.toNat ∘ Table.live) htable).trans ho.live

/-- Whether one was counted off is read off the table as well. -/
theorem CountedOff.congr {hub' hub'' : Hub} (ho : hub.CountedOff hub' h)
    (htable : hub''.table = hub'.table) : hub.CountedOff hub'' h where
  before := ho.before
  after := (connection?_congr htable h).trans ho.after
  others g hne := (congrArg Option.isSome (connection?_congr htable g)).trans (ho.others g hne)
  live := ho.live.trans (congrArg (fun table => (Table.live table).toNat + 1) htable).symm

/-- What is opened or closed after nothing has been moved. -/
theorem CountedOff.after_unmoved {hub' hub'' : Hub} (h' : hub.Unmoved hub')
    (ho : hub'.CountedOff hub'' h) : hub.CountedOff hub'' h where
  before := (h'.same h).symm.trans ho.before
  after := ho.after
  others g hne := (ho.others g hne).trans (h'.same g)
  live := h'.live ▸ ho.live

namespace Counted

/-- Whether the count is right depends on the table alone. -/
theorem congr {hub' : Hub} (hs : hub.Counted) (htable : hub'.table = hub.table) : hub'.Counted := by
  have hslots : hub'.slots = hub.slots := congrArg Table.slots htable
  have hlive : hub'.live = hub.live := congrArg Table.live htable
  have hcapacity : hub'.capacity = hub.capacity := congrArg Table.capacity htable
  refine ⟨fun d c hc => ?_, ?_, ?_⟩
  · rw [hslots] at hc
    rw [hasSlot, hcapacity]
    exact hs.placed d c hc
  · rw [hlive, openCount, hslots]
    exact hs.exact
  · rw [hcapacity]
    exact hs.small

/-- A slot is open exactly if its number names an open connection. -/
theorem isSome_connection? (hs : hub.Counted) (h : Handle) :
    (hub.connection? h).isSome = (hub.slots.get? h.descriptor).any Connection.isOpen := by
  cases hslot : hub.slots.get? h.descriptor with
  | none =>
    rw [connection?, hslot]
    split <;> rfl
  | some c =>
    obtain ⟨hhas, hnumber⟩ := hs.placed _ c hslot
    rw [connection?, if_pos hhas, hslot, Option.any_some, Option.filter_some]
    cases hopen : c.isOpen with
    | false => rfl
    | true => rw [hnumber hopen, decide_eq_true rfl]; rfl

/-- What the count is once something else stands in a slot. -/
theorem openCount_set (hs : hub.Counted) (h : Handle) (c : Connection) :
    (hub.slots.set h.descriptor c).count Connection.isOpen +
        (if (hub.connection? h).isSome then 1 else 0) =
      hub.openCount + if c.isOpen then 1 else 0 := by
  rw [hs.isSome_connection? h]
  exact hub.slots.count_set Connection.isOpen h.descriptor c

/-- The slots are still in their places once something else stands in one. -/
theorem placed_set (hs : hub.Counted) (hhas : hub.hasSlot d = true)
    (hc : c.isOpen = true → c.descriptor = d) :
    ∀ e c', (hub.slots.set d c).get? e = some c' →
      hub.hasSlot e = true ∧ (c'.isOpen = true → c'.descriptor = e) := by
  intro e c' hc'
  by_cases he : e = d
  · rw [he, DescriptorMap.get?_set_self] at hc'
    obtain rfl := Option.some.inj hc'
    rw [he]
    exact ⟨hhas, hc⟩
  · rw [DescriptorMap.get?_set_ne _ _ he] at hc'
    exact hs.placed e c' hc'

/-- A visit keeps a connection in its slot. -/
theorem visit (hs : hub.Counted) (h : Handle) {α : Type}
    {f : Connection → Kernel → α × Connection × Kernel}
    (hf : ∀ c k, (f c k).2.1.descriptor = c.descriptor) :
    (hub.visit h f).2.Counted ∧ hub.Unmoved (hub.visit h f).2 := by
  cases hc : hub.connection? h with
  | none =>
    have hnone : (hub.visit h f).2 = hub := by
      rw [Hub.visit, hc]
    rw [hnone]
    exact ⟨hs, fun _ => rfl, rfl⟩
  | some c =>
    obtain ⟨hhas, -, hopen, hnumber⟩ := connection?_eq_some.mp hc
    have hkept := hf c hub.kernel
    have hisOpen : (f c hub.kernel).2.1.isOpen = true := by
      rw [Connection.isOpen, hkept]
      exact hopen
    have hcount := hs.openCount_set h (f c hub.kernel).2.1
    rw [hisOpen, hc, Option.isSome_some] at hcount
    rw [visit_of_some hc]
    refine ⟨⟨hs.placed_set hhas fun _ => hkept.trans hnumber, ?_, hs.small⟩, fun g => ?_, rfl⟩
    · exact hs.exact.trans (Nat.add_right_cancel hcount).symm
    · by_cases hg : g = h
      · rw [hg, connection?_put_self hc hkept, hc, Option.isSome_some, Option.isSome_some]
      · rw [connection?_put_ne hg]

/-- Where a connection is open, closing it counts it off. -/
theorem close (hs : hub.Counted) (h : Handle) :
    (hub.close h).Counted ∧
      ((hub.connection? h).isSome = true → hub.CountedOff (hub.close h) h) := by
  cases hc : hub.connection? h with
  | none =>
    rw [close_of_none hc]
    exact ⟨hs, fun hsome => nomatch hsome⟩
  | some c =>
    obtain ⟨hhas, -, -, -⟩ := connection?_eq_some.mp hc
    have hreleased : c.release.isOpen = false := rfl
    have hcount := hs.openCount_set h c.release
    rw [hreleased, hc, Option.isSome_some, if_pos rfl, if_neg Bool.false_ne_true] at hcount
    -- what is closed has been counted, so the count does not wrap
    have hpos : 1 ≤ hub.live.toNat := by
      rw [hs.exact]
      omega
    have hlive : (hub.live - 1).toNat = hub.live.toNat - 1 :=
      UInt64.toNat_sub_of_le _ _ (UInt64.le_iff_toNat_le.mpr hpos)
    have hexact : (hub.close h).live.toNat = (hub.close h).openCount := by
      have hopen := hs.exact
      rw [close_of_some hc, openCount]
      dsimp only
      omega
    refine ⟨⟨?_, hexact, ?_⟩, fun _ => ⟨by rw [hc]; rfl, connection?_close_self hub h,
      fun g hne => by rw [connection?_close_ne hne], ?_⟩⟩
    · rw [close_of_some hc]
      exact hs.placed_set hhas fun hopen => nomatch hopen
    · rw [close_of_some hc]
      exact hs.small
    · rw [close_of_some hc]
      dsimp only
      omega

/-- A client who gets a slot is counted. -/
theorem enter (hs : hub.Counted) (hfree : hub.connection? ⟨d⟩ = none) (hhas : hub.hasSlot d = true)
    (peer : Option SocketAddress) :
    (hub.enter d peer).2.Counted ∧ hub.Opened (hub.enter d peer).2 ⟨d⟩ := by
  have henter : (hub.enter d peer).2 =
      { hub with
        slots := hub.slots.set d (((hub.slots.get? d).getD {}).start d peer)
        live := hub.live + 1 } := by
    rw [Hub.enter, if_pos hhas]
  have hopen : (((hub.slots.get? d).getD {}).start d peer).isOpen = true := by
    rw [hasSlot, Bool.and_eq_true] at hhas
    exact hhas.1
  have hcount := hs.openCount_set ⟨d⟩ (((hub.slots.get? d).getD {}).start d peer)
  rw [hopen, hfree, Option.isSome_none, if_neg Bool.false_ne_true, if_pos rfl] at hcount
  have hplaced := hs.placed_set (c := ((hub.slots.get? d).getD {}).start d peer) hhas fun _ => rfl
  -- the slots are fewer than what can be counted, and one of them was not open
  have hroom : hub.openCount + 1 ≤ hub.capacity := by
    rw [← hcount]
    refine DescriptorMap.count_le _ _ fun e c hc => ?_
    have hslot := (hplaced e c hc).1
    rw [hasSlot, Bool.and_eq_true, decide_eq_true_eq, decide_eq_true_eq] at hslot
    exact hslot
  have hlive : (hub.live + 1).toNat = hub.live.toNat + 1 := by
    refine (UInt64.toNat_add _ _).trans (Nat.mod_eq_of_lt ?_)
    have hexact := hs.exact
    have hsmall := hs.small
    change hub.live.toNat + 1 < UInt64.size
    omega
  obtain ⟨hnone, -⟩ | ⟨-, hub', heq, -, -, hself, hothers⟩ := enter_cases hub d peer
  · rw [hhas] at hnone
    cases hnone
  · have hhub : hub' = (hub.enter d peer).2 := by rw [heq]
    rw [hhub] at hself hothers
    refine ⟨⟨?_, ?_, ?_⟩, hfree, by rw [hself]; rfl, fun g hne => by rw [hothers g hne], ?_⟩
    · rw [henter]
      exact hplaced
    · rw [henter]
      exact hlive.trans ((congrArg (· + 1) hs.exact).trans hcount.symm)
    · rw [henter]
      exact hs.small
    · rw [henter]
      exact hlive

end Counted

end Hub

/-! ## The accounts of a server -/

namespace Server

variable {s t start : Server} {a : Action} {rest : List Event} {d : Int} {limit : Nat}

/-- What a step of a server comes to: nothing, one more connection, or one less. -/
inductive Account (a : Action) (s : Server) (hub : Hub) : Prop
  | unmoved : s.hub.Unmoved hub → Account a s hub
  | opened {choice : Nat} {rest : List Event} {d : Int} {peer : Option SocketAddress} :
    a = .loop choice → s.stage = .batch rest (.enter d peer) → s.hub.Opened hub ⟨d⟩ →
    Account a s hub
  | closed {h : Handle} : s.hub.CountedOff hub h → Account a s hub

/-- Every way to do something to the table keeps it counted, as long as the number of a client who
is entered is that of no open connection. -/
theorem counted_tableStep {hub : Hub} (hs : s.hub.Counted)
    (hfree : ∀ rest d peer, s.stage = .batch rest (.enter d peer) → s.hub.connection? ⟨d⟩ = none)
    (hstep : TableStep a s hub) : hub.Counted ∧ Account a s hub := by
  -- a visit puts a connection back where it was
  have hvisit : ∀ {hub' : Hub}, hub'.Counted ∧ s.hub.Unmoved hub' → hub.table = hub'.table →
      hub.Counted ∧ Account a s hub :=
    fun ⟨hcounted, hunmoved⟩ htable => ⟨hcounted.congr htable, .unmoved (hunmoved.congr htable)⟩
  have hstill : s.hub.Counted ∧ s.hub.Unmoved s.hub := ⟨hs, fun _ => rfl, rfl⟩
  cases hstep with
  | rest htable => exact hvisit hstill htable
  | read h htable =>
    exact hvisit (hs.visit h fun c k => (Connection.stays_readAll c (k.wire c.descriptor)).1) htable
  | parse h hf htable =>
    refine hvisit (hs.visit h fun c k => ?_) htable
    rw [hf]
    rfl
  | answer h outcome htable =>
    exact hvisit (hs.visit h (Hub.descriptor_answer s.hub.root outcome)) htable
  -- what is left is sent, and a connection at its end is torn down in the same step
  | resume h htable =>
    obtain ⟨hcounted, hunmoved⟩ := hs.visit h (f := Hub.onWire Connection.resume)
      fun c k => (Connection.stays_resume c (k.wire c.descriptor)).1
    rw [Hub.runStep] at htable
    split at htable
    · next hub' heq =>
      rw [heq] at hcounted hunmoved
      obtain ⟨hcounted', hoff⟩ := hcounted.close h
      cases hopen : (hub'.connection? h).isSome with
      | true =>
        exact ⟨hcounted'.congr htable,
          .closed ((hoff hopen).after_unmoved hunmoved |>.congr htable)⟩
      | false =>
        rw [Hub.close_of_none (by simpa using hopen)] at htable
        exact hvisit ⟨hcounted, hunmoved⟩ htable
    · exact hvisit ⟨hcounted, hunmoved⟩ htable
  -- closing what is already closed changes nothing, the count included
  | close h htable =>
    obtain ⟨hcounted, hoff⟩ := hs.close h
    cases hopen : (s.hub.connection? h).isSome with
    | true => exact ⟨hcounted.congr htable, .closed ((hoff hopen).congr htable)⟩
    | false =>
      rw [Hub.close_of_none (by simpa using hopen)] at htable
      exact hvisit hstill htable
  | @enter choice rest d peer ha hstage htable =>
    cases hhas : s.hub.hasSlot d with
    | true =>
      obtain ⟨hcounted, hopened⟩ := hs.enter (hfree rest d peer hstage) hhas peer
      exact ⟨hcounted.congr htable, .opened ha hstage (hopened.congr htable)⟩
    | false =>
      rw [Hub.enter, hhas] at htable
      exact hvisit hstill htable

/-- Nothing changes how many connections may be open. -/
theorem limit_tableStep {hub : Hub} (hstep : TableStep a s hub) : hub.limit = s.hub.limit := by
  have hclose : ∀ (hub : Hub) (h : Handle), (hub.close h).limit = hub.limit := by
    intro hub h
    simp only [Hub.close, Hub.tearDown]
    split <;> rfl
  have hvisit : ∀ {α : Type} (h : Handle) (f : Connection → Kernel → α × Connection × Kernel),
      (s.hub.visit h f).2.limit = s.hub.limit := by
    intro α h f
    simp only [Hub.visit]
    split <;> rfl
  cases hstep with
  | rest htable => exact congrArg Table.limit htable
  | read h htable => exact (congrArg Table.limit htable).trans (hvisit h _)
  | parse h hf htable => exact (congrArg Table.limit htable).trans (hvisit h _)
  | answer h outcome htable => exact (congrArg Table.limit htable).trans (hvisit h _)
  | resume h htable =>
    refine (congrArg Table.limit htable).trans ?_
    have hvisited := hvisit h (Hub.onWire Connection.resume)
    simp only [Hub.table, Hub.runStep]
    split
    · next heq =>
      rw [heq] at hvisited
      exact (hclose _ h).trans hvisited
    · exact hvisited
  | close h htable => exact (congrArg Table.limit htable).trans (hclose _ h)
  | enter ha hstage htable =>
    refine (congrArg Table.limit htable).trans ?_
    simp only [Hub.table, Hub.enter]
    split <;> rfl

/-! ## The limit

Between the step that looks at the limit and the one that enters the client only others take steps,
and these open nothing. -/

/-- No event has a client entered: that comes only after the loop has looked at the limit. -/
theorem taskOf_ne_enter (e : Event) (d : Int) (peer : Option SocketAddress) :
    taskOf e ≠ .enter d peer := by
  simp only [taskOf]
  repeat' split
  all_goals rintro ⟨⟩

/-- A client is entered only after the loop has seen that there may be one more. -/
theorem doTask_enter {choice : Nat} {task : Task} {peer : Option SocketAddress}
    (h : (s.doTask choice task).1 = .enter d peer) :
    task = .consider d peer ∧ s.hub.isFull = false ∧ (s.doTask choice task).2 = s := by
  cases task with
  | consider e peer' =>
    simp only [doTask] at h
    cases hfull : s.hub.isFull with
    | true => rw [hfull] at h; cases h
    | false =>
      rw [hfull] at h
      cases h
      exact ⟨rfl, rfl, rfl⟩
  | accept =>
    simp only [doTask] at h
    split at h <;> cases h
  | enter e peer' =>
    simp only [doTask] at h
    split at h <;> cases h
  | register g =>
    simp only [doTask] at h
    split at h <;> cases h
  | read g =>
    simp only [doTask, afterRead] at h
    split at h <;> cases h
  | submit g =>
    simp only [doTask] at h
    split at h <;> cases h
  | resume g =>
    simp only [doTask, afterResume] at h
    split at h <;> cases h
  | rearm g interest =>
    simp only [doTask] at h
    split at h <;> cases h
  | drain =>
    simp only [doTask] at h
    split at h <;> cases h
  | _ => cases h

/-- A server that has yet to serve does not look at events next. -/
theorem stage_of_ready (hready : s.stage = .ready) (hstep : s.perform? a = some t) (task : Task) :
    t.stage ≠ .batch rest task := by
  intro ht
  -- no action brings a ready server straight into a batch
  have hstill : ∀ {stage : Stage}, stage = s.stage → stage ≠ .batch rest task := by
    rintro stage rfl hbatch
    rw [hready] at hbatch
    cases hbatch
  by_cases ha : a.isOutside = true
  · exact hstill (outside_spec ha hstep).1 ht
  cases perform?_cases hstep with
  | serve =>
    rcases serve_cases s with ⟨k, failure, heq⟩ | ⟨k, poll, heq⟩
    · rw [heq, stage_leave] at ht
      cases ht
    · rw [heq] at ht
      cases ht
  | drop =>
    rw [stage_leave] at ht
    cases ht
  | loop hloop => cases (loopStep_of_ready hready _).symm.trans hloop
  | worker hworker => exact hstill (by rw [workerStep_eq hworker]) ht
  | openPipe => exact hstill rfl ht
  | _ => exact absurd rfl ha

/-- From then on until the client is entered only others take steps. -/
theorem stage_enter {peer : Option SocketAddress} (hstep : s.perform? a = some t)
    (ht : t.stage = .batch rest (.enter d peer)) :
    (t.stage = s.stage ∧ ∀ choice, a ≠ .loop choice) ∨ (s.hub.isFull = false ∧ t.hub = s.hub) := by
  -- only the loop takes on a client, and only behind a check of the limit
  by_cases hloop : ∃ choice, a = .loop choice
  · obtain ⟨choice, rfl⟩ := hloop
    have hleads := (loopStep_leads hstep).1
    rw [ht] at hleads
    generalize hstage : s.stage = stage at hleads
    cases hleads with
    | @works rest' _ task =>
      cases loopStep_cases hstep with
      | done => cases ht
      | @look e => exact absurd (Stage.batch.inj ht).2 (taskOf_ne_enter e d peer)
      | work =>
        obtain ⟨-, hfull, hsame⟩ := doTask_enter (Stage.batch.inj ht).2
        exact .inr ⟨hfull, (congrArg Server.hub hsame :)⟩
      | _ hother => cases hother.symm.trans hstage
    | ends _ hends => cases hends
  · refine .inl ⟨?_, fun choice h => hloop ⟨choice, h⟩⟩
    exact stage_perform (fun hready => stage_of_ready hready hstep _ ht)
      (fun choice h => hloop ⟨choice, h⟩) hstep

/-! ## The invariant

What is needed of a state for the next step to keep the accounts. -/

/-- What holds of the accounts in every state. -/
structure Tallied (limit : Nat) (s : Server) : Prop where
  coherent : s.Coherent
  counted : s.hub.Counted
  allowed : s.hub.limit = limit
  within : s.hub.live.toNat ≤ limit
  /-- a client who is about to be entered has a place -/
  room : ∀ rest d peer, s.stage = .batch rest (.enter d peer) → s.hub.live.toNat < limit

namespace Tallied

/-- The number of a client who is about to be entered is that of no open connection. -/
theorem fresh (hs : s.Tallied limit) {d : Int} (hd : s.stage.candidate? = some d) :
    s.hub.connection? ⟨d⟩ = none := by
  have hserving : s.stage.isServing = true := by
    cases hstage : s.stage with
    | batch rest task => rfl
    | _ => rw [hstage] at hd; cases hd
  exact ((hs.coherent.orderly hserving).1.candidate d hd).connection

/-- What an action does to the table keeps it counted, and is one of the three accounts. -/
theorem tableStep (hs : s.Tallied limit) (hstep : s.perform? a = some t) :
    t.hub.Counted ∧ Account a s t.hub :=
  counted_tableStep hs.counted (fun _ _ _ hstage => hs.fresh (by rw [hstage]; rfl))
    (tableStep_perform hstep)

/-- **Every action keeps the accounts.** Only a client who is entered could break the limit, and
for it the place was seen one step before. -/
theorem step (hs : s.Tallied limit) (hstep : s.perform? a = some t) : t.Tallied limit := by
  obtain ⟨hcounted, haccount⟩ := hs.tableStep hstep
  refine ⟨hs.coherent.step hstep, hcounted,
    (limit_tableStep (tableStep_perform hstep)).trans hs.allowed,
    ?_, fun rest d peer ht => ?_⟩
  · have hwithin := hs.within
    cases haccount with
    | unmoved hunmoved => rw [hunmoved.live]; exact hwithin
    | opened _ hstage hopened =>
      have hroom := hs.room _ _ _ hstage
      rw [hopened.live]
      exact hroom
    | closed hoff =>
      have hlive := hoff.live
      omega
  · rcases stage_enter hstep ht with ⟨hstage, hother⟩ | ⟨hfull, hhub⟩
    · have hroom := hs.room rest d peer (hstage ▸ ht)
      cases haccount with
      | unmoved hunmoved => rw [hunmoved.live]; exact hroom
      | opened ha => exact absurd ha (hother _)
      | closed hoff =>
        have hlive := hoff.live
        omega
    · rw [hhub, ← hs.allowed]
      rw [Hub.isFull, decide_eq_false_iff_not] at hfull
      omega

theorem interrupt (hs : s.Tallied limit) (hstage : s.stage = .waiting) :
    (s.goTo .checking).Tallied limit :=
  ⟨hs.coherent.interrupt hstage, hs.counted, hs.allowed, hs.within, by rintro rest d peer ⟨⟩⟩

/-- The accounts are right in every state that can be reached, signals or not. -/
theorem reachable (hstart : start.Tallied limit) (hs : start.ReachableWithSignals s) :
    s.Tallied limit := by
  induction hs with
  | refl => exact hstart
  | step _ hstep ih => exact ih.step hstep
  | interrupt _ hstage ih => exact ih.interrupt hstage

end Tallied

/-- There are never more slots than can be counted. -/
theorem slotCount_lt (n : Nat) : slotCount n < UInt64.size := by
  have hword : Decimal.wordLimit - 1 < UInt64.size := by decide
  have hleast : minSlots < UInt64.size := by decide
  rw [slotCount]
  omega

/-- A server that has just been set up has nothing open, and counts nothing. -/
theorem tallied_ofListener {k : Kernel} {listener : Int} {config : Config}
    (hstart : ofListener k listener config = .ok start) (hk : k.Honest) :
    start.Tallied config.maxConnections := by
  have hcoherent := coherent_ofListener hstart hk
  simp only [ofListener] at hstart
  split at hstart
  · cases hstart
  · split at hstart
    · cases hstart
    · obtain rfl := Except.ok.inj hstart
      refine ⟨hcoherent, ⟨fun d c hc => ?_, rfl, slotCount_lt _⟩, rfl, Nat.zero_le _,
        by rintro rest d peer ⟨⟩⟩
      cases (show DescriptorMap.get? {} d = none from rfl).symm.trans hc

/-! ## Closing and refusing

Whoever closes a connection, it is done in the same way, and done once. -/

/-- The actions that close a connection, if it is open still: the loop does so when a client is
leaving, a read has failed, the queue is full, or the connection cannot be armed or registered; a
worker when a response is finished or fails, or the connection cannot be armed; and in the end it is
done for every slot. -/
inductive TearsDown (s : Server) (h : Handle) : Action → Prop
  | loop {choice : Nat} {rest : List Event} : s.stage = .batch rest (.close h) →
    TearsDown s h (.loop choice)
  | unregistered {choice : Nat} {rest : List Event} : s.stage = .batch rest (.giveUp h) →
    TearsDown s h (.loop choice)
  | worker {i : Nat} : s.pool.workers[i]? = some (.busy (.close h)) → TearsDown s h (.worker i)
  | unarmed {i : Nat} : s.pool.workers[i]? = some (.busy (.giveUp h)) → TearsDown s h (.worker i)
  | slot {choice : Nat} {slot : Int} {slots : List Int} {result : Except ServerError Unit} :
    h = ⟨slot⟩ → s.stage = .closing (slot :: slots) result → TearsDown s h (.loop choice)

/-- All of them do the same to the hub, so that there is one place at which connections are
counted off. -/
theorem TearsDown.hub {h : Handle} (hdown : s.TearsDown h a) (hstep : s.perform? a = some t) :
    t.hub = s.hub.close h := by
  cases hdown with
  | loop hstage =>
    rw [eq_afterTask hstage (by rintro ⟨⟩) hstep]
    rfl
  | unregistered hstage =>
    rw [eq_afterTask hstage (by rintro ⟨⟩) hstep]
    rfl
  | worker hworker =>
    simp only [perform?, workerStep, hworker, jobStep] at hstep
    exact Option.some.inj hstep ▸ rfl
  | unarmed hworker =>
    simp only [perform?, workerStep, hworker, jobStep] at hstep
    split at hstep
    · cases hstep
    · exact Option.some.inj hstep ▸ rfl
  | slot hslot hstage =>
    simp only [perform?, loopStep, hstage, Option.some.injEq] at hstep
    rw [hslot, ← hstep]
    rfl

/-- The loop is at a client for whom there is no place: as many connections are open as may be, or
its number has no slot. -/
inductive NoPlace (s : Server) (rest : List Event) (d : Int) : Prop
  | full {peer : Option SocketAddress} : s.stage = .batch rest (.consider d peer) →
    s.hub.isFull = true → NoPlace s rest d
  | noSlot {peer : Option SocketAddress} : s.stage = .batch rest (.enter d peer) →
    s.hub.hasSlot d = false → NoPlace s rest d

/-- A client for whom there is no place is to be turned away next, and does not get into the
table. -/
theorem NoPlace.refused {choice : Nat} (hno : s.NoPlace rest d)
    (hstep : s.perform? (.loop choice) = some t) :
    t.stage = .batch rest (.refuse d) ∧ t.hub.table = s.hub.table := by
  cases hno with
  | full hstage hfull =>
    obtain rfl := eq_afterTask hstage (by rintro ⟨⟩) hstep
    simp only [afterTask, doTask, hfull]
    exact ⟨rfl, rfl⟩
  | noSlot hstage hhas =>
    obtain rfl := eq_afterTask hstage (by rintro ⟨⟩) hstep
    simp only [afterTask, doTask, Hub.enter, hhas]
    exact ⟨rfl, rfl⟩

/-- Turning a client away does nothing to the table. -/
theorem table_refuse {choice : Nat} (hstage : s.stage = .batch rest (.refuse d))
    (hstep : s.perform? (.loop choice) = some t) :
    t.stage = .batch rest .accept ∧ t.hub.table = s.hub.table := by
  obtain rfl := eq_afterTask hstage (by rintro ⟨⟩) hstep
  exact ⟨rfl, rfl⟩

/-! ## The accounts balance -/

/-- What the count of open connections is, and what every step makes of it. -/
structure Accounted (limit : Nat) (s : Server) : Prop where
  /-- it is the number of open slots -/
  exact : s.hub.live.toNat = s.hub.openCount
  /-- it never passes the limit -/
  within : s.hub.live.toNat ≤ limit
  /-- what is open in a slot is the connection that the slot's number names -/
  named : ∀ d c, s.hub.slots.get? d = some c → c.isOpen = true → s.hub.connection? ⟨d⟩ = some c
  /-- the slot of a client who has just been accepted is not open -/
  fresh : ∀ d, s.stage.candidate? = some d → s.hub.connection? ⟨d⟩ = none
  /-- a step opens one connection, closes one, or neither, and the count goes along -/
  account : ∀ a t, s.perform? a = some t → Account a s t.hub
  /-- who closes a connection that is open counts it off, and to close it again is to do nothing -/
  closed : ∀ a h t, s.TearsDown h a → s.perform? a = some t →
    t.hub.connection? h = none ∧ ((s.hub.connection? h).isSome = true → s.hub.CountedOff t.hub h) ∧
      (s.hub.connection? h = none → t.hub.table = s.hub.table)
  /-- a client for whom there is no place does not get into the table -/
  refused : ∀ rest d choice t, s.NoPlace rest d → s.perform? (.loop choice) = some t →
    t.stage = .batch rest (.refuse d) ∧ t.hub.table = s.hub.table
  /-- and turning the client away leaves the table as it is -/
  turnedAway : ∀ rest d choice t, s.stage = .batch rest (.refuse d) →
    s.perform? (.loop choice) = some t → t.stage = .batch rest .accept ∧ t.hub.table = s.hub.table
  /-- when a server has served, or has been given up, nothing is open and nothing is counted -/
  ended : s.stage.isEnded = true →
    s.hub.live = 0 ∧ ∀ d c, s.hub.slots.get? d = some c → c.isOpen = false

namespace Tallied

theorem named (hs : s.Tallied limit) {d : Int} {c : Connection}
    (hc : s.hub.slots.get? d = some c) (hopen : c.isOpen = true) :
    s.hub.connection? ⟨d⟩ = some c := by
  obtain ⟨hhas, hnumber⟩ := hs.counted.placed d c hc
  exact Hub.connection?_eq_some.mpr ⟨hhas, hc, hopen, hnumber hopen⟩

/-- **Who closes a connection counts it off, and only the first who tries does.** After the first
time there is nothing open under the handle, and then closing leaves the table alone. -/
theorem closed (hs : s.Tallied limit) {h : Handle} (hdown : s.TearsDown h a)
    (hstep : s.perform? a = some t) :
    t.hub.connection? h = none ∧ ((s.hub.connection? h).isSome = true → s.hub.CountedOff t.hub h) ∧
      (s.hub.connection? h = none → t.hub.table = s.hub.table) := by
  rw [hdown.hub hstep]
  refine ⟨Hub.connection?_close_self s.hub h, (hs.counted.close h).2, fun hnone => ?_⟩
  rw [Hub.close_of_none hnone]

/-- When all connections have been closed, none is counted. -/
theorem ended (hs : s.Tallied limit) (hended : s.stage.isEnded = true) :
    s.hub.live = 0 ∧ ∀ d c, s.hub.slots.get? d = some c → c.isOpen = false := by
  have hnone : ∀ d c, s.hub.slots.get? d = some c → c.isOpen = false := by
    intro d c hc
    cases hopen : c.isOpen with
    | false => rfl
    | true =>
      have hdue := (hs.coherent.finished hended).due ⟨d⟩ (by rw [hs.named hc hopen]; rfl)
      cases hdue
  refine ⟨UInt64.toNat_inj.mp ?_, hnone⟩
  rw [hs.counted.exact, Hub.openCount, DescriptorMap.count_eq_zero hnone]
  rfl

/-- The clauses of the main theorem, each from the invariant. -/
theorem accounted (hs : s.Tallied limit) : s.Accounted limit where
  exact := hs.counted.exact
  within := hs.within
  named _ _ := hs.named
  fresh _ := hs.fresh
  account _ _ hstep := (hs.tableStep hstep).2
  closed _ _ _ := hs.closed
  refused _ _ _ _ := NoPlace.refused
  turnedAway _ _ _ _ := table_refuse
  ended := hs.ended

end Tallied

/-- **The accounts balance** in every state that a server can reach, under every schedule and
whatever fails: as many connections are counted as slots are open, and no more than are allowed;
each is counted off once, by whoever closes it; and in the end none is left. -/
theorem accounts_balance {k : Kernel} {listener : Int} {config : Config}
    (hstart : ofListener k listener config = .ok start) (hk : k.Honest)
    (hs : start.ReachableWithSignals s) : s.Accounted config.maxConnections :=
  ((tallied_ofListener hstart hk).reachable hs).accounted

/-- Two clients come to a server that has room for one: the first is in the table, and the loop is
at the second. -/
def oneTooMany : List Action := [.serve, .connect, .connect] ++ List.replicate 13 (.loop 0)

/-- The second client has been accepted and finds the only place taken: it is turned away, and
table and count are as they were. -/
theorem accounts_balance_one_too_many : ∃ start, ofListener listening 3 smallest = .ok start ∧
    listening.Honest ∧ start.ReachableWithSignals (start.after oneTooMany) ∧
    (start.after oneTooMany).hub.live = 1 ∧ (start.after oneTooMany).NoPlace [] 8 ∧
    (start.after oneTooMany).Accounted 1 := by
  have hstart : ofListener listening 3 smallest = .ok _ := rfl
  have hk : listening.Honest := fun fault hfault => absurd hfault List.not_mem_nil
  have hs : ∀ start, ReachableWithSignals start (start.after oneTooMany) := fun _ =>
    (Reachable.refl.after oneTooMany).withSignals
  have hfull : ∀ start, ofListener listening 3 smallest = .ok start →
      (start.after oneTooMany).NoPlace [] 8 := by
    intro start h
    obtain rfl := Except.ok.inj h
    exact .full rfl rfl
  exact ⟨_, hstart, hk, hs _, by decide +kernel, hfull _ hstart, accounts_balance hstart hk (hs _)⟩

end Server

end FileServer
