import FileServer.Hub
import FileServer.Proofs.Delivery
import FileServer.Proofs.Kernel.Operations
import FileServer.Proofs.Reading

/-!
# Visits

A visit to a connection changes its slot and whatever it does through its descriptor, and nothing of
the other slots; closing a connection empties its slot and discards its descriptor. Nothing that a
connection does through its descriptor takes it off that descriptor, and the scripts of a wire only
lose entries while they are followed.
-/

namespace FileServer

/-! ## Following the scripts

Whatever a connection does on its wire, it takes from the scripts what its calls ask for and nothing
else. -/

namespace Request.Reader

/-- Filling the buffer follows the scripts. -/
theorem fill_spent (r : Reader) (w : Wire) : w.Spent (r.fill w).2.2 := by
  have hread : ∀ (v v' : Wire) (room : Nat) (result : ReadResult),
      v.read room = (result, v') → v.Spent v' := by
    intro v v' room result h
    have hscripts := v.read_scripts room
    rw [h] at hscripts
    exact ⟨hscripts.1, hscripts.2 ▸ List.suffix_refl _⟩
  fun_induction fill r w with
  | case1 => exact Wire.Spent.refl _
  | case2 r w hroom w' h => exact hread _ _ _ _ h
  | case3 r w hroom b bytes w' h ih => exact (hread _ _ _ _ h).trans ih
  | case4 r w hroom w' h => exact hread _ _ _ _ h
  | case5 r w hroom reason w' h => exact hread _ _ _ _ h

end Request.Reader

/-- Sending follows the scripts. -/
theorem Delivery.send_spent (d : Delivery) (w : Wire) : w.Spent (d.send w).2.2 := by
  have hwrite : ∀ (v v' : Wire) (pieces : List Bytes) (result : WriteResult),
      v.write pieces = (result, v') → v.Spent v' := by
    intro v v' pieces result h
    have hscripts := v.write_scripts pieces
    rw [h] at hscripts
    exact ⟨hscripts.1 ▸ List.suffix_refl _, hscripts.2⟩
  fun_induction send d w with
  | case1 => exact Wire.Spent.refl _
  | case2 d w hc w' h => exact hwrite _ _ _ _ h
  | case3 d w hc n w' h ih => exact (hwrite _ _ _ _ h).trans ih
  | case4 d w hc w' h => exact hwrite _ _ _ _ h
  | case5 d w hc reason w' h => exact hwrite _ _ _ _ h

namespace Connection

variable {c : Connection} {w : Wire}

/-- What a connection does through its descriptor keeps it there, and follows the scripts. -/
def Stays (f : Connection → Wire → α × Connection × Wire) : Prop :=
  ∀ c w, (f c w).2.1.descriptor = c.descriptor ∧ w.Spent (f c w).2.2

/-- Reading keeps the descriptor of a connection, and follows the scripts. -/
theorem stays_readAll : Stays readAll := by
  intro c w
  simp only [readAll]
  split
  · exact ⟨rfl, Wire.Spent.refl _⟩
  · exact ⟨rfl, Request.Reader.fill_spent ..⟩

/-- Sending follows the scripts, and keeps the descriptor, also when it takes the connection back
to its start. -/
theorem stays_send : Stays send := by
  intro c w
  have hspent := c.delivery.send_spent w
  rw [send]
  split
  · rename_i h
    rw [h] at hspent
    dsimp only
    split
    · exact ⟨rfl, hspent⟩
    · exact ⟨rfl, hspent⟩
  · rename_i h
    rw [h] at hspent
    exact ⟨rfl, hspent⟩
  · rename_i h
    rw [h] at hspent
    exact ⟨rfl, hspent⟩

theorem stays_resume : Stays resume := fun c w => stays_send c w

/-- To respond leaves a connection on its descriptor, also where a response does not fit and is
not sent at all. -/
theorem stays_respond (r : Resolution) : Stays (·.respond r) := by
  intro c w
  dsimp only
  simp only [respond]
  split
  · exact ⟨rfl, Wire.Spent.refl _⟩
  · exact stays_resume { c with delivery := _ } w

end Connection

/-! ## Slots

A handle names the connection in its slot, if that is open. What is put into one slot is not seen
through another handle. -/

namespace Hub

variable {hub : Hub} {h g : Handle} {c c' : Connection}

/-- What it takes for a handle to name a connection: a slot, in which there is one that is open and
has the descriptor of the handle. -/
theorem connection?_eq_some :
    hub.connection? h = some c ↔
      hub.hasSlot h.descriptor ∧ hub.slots.get? h.descriptor = some c ∧ c.isOpen ∧
        c.descriptor = h.descriptor := by
  simp only [connection?]
  split
  · rename_i hslot
    rw [Option.filter_eq_some_iff]
    simp [hslot]
  · rename_i hslot
    simp [hslot]

/-- The hub after the slot of a connection has been written. -/
def put (hub : Hub) (h : Handle) (c : Connection) (kernel : Kernel) : Hub :=
  { hub with kernel, slots := hub.slots.set h.descriptor c }

/-- What has been written to a slot is found there, as long as it is open. -/
theorem connection?_put_self (hc : hub.connection? h = some c) (hd : c'.descriptor = c.descriptor)
    (kernel : Kernel) : (hub.put h c' kernel).connection? h = some c' := by
  obtain ⟨hslot, -, hopen, hdescriptor⟩ := connection?_eq_some.mp hc
  refine connection?_eq_some.mpr ⟨hslot, DescriptorMap.get?_set_self .., ?_, hd.trans hdescriptor⟩
  rw [Connection.isOpen, hd]
  exact hopen

theorem connection?_put_ne (hne : g ≠ h) (c : Connection) (kernel : Kernel) :
    (hub.put h c kernel).connection? g = hub.connection? g := by
  have hd : g.descriptor ≠ h.descriptor := fun heq => hne (congrArg Handle.mk heq)
  rw [connection?, connection?, hasSlot, hasSlot, put, DescriptorMap.get?_set_ne _ _ hd]

/-- A visit to a connection that is open. -/
theorem visit_of_some {f : Connection → Kernel → α × Connection × Kernel}
    (hc : hub.connection? h = some c) :
    hub.visit h f = (some (f c hub.kernel).1,
      hub.put h (f c hub.kernel).2.1 (f c hub.kernel).2.2) := by
  rw [visit, hc]
  rfl

/-- What is done on a wire. -/
theorem onWire_eq (f : Connection → Wire → α × Connection × Wire) (c : Connection) (k : Kernel) :
    onWire f c k = ((f c (k.wire c.descriptor)).1, (f c (k.wire c.descriptor)).2.1,
      k.putWire c.descriptor (f c (k.wire c.descriptor)).2.2) := rfl

/-- An answer leaves the connection on its descriptor. -/
theorem descriptor_answer (root : String) (outcome : Request.Outcome) (c : Connection)
    (k : Kernel) :
    (answer root outcome c k).2.1.descriptor = c.descriptor := by
  rw [answer]
  split
  · rfl
  · exact (Connection.stays_respond _ c _).1

/-! ## Closing

Closing through a handle that names no open connection does nothing, so it can be tried any number
of times. -/

/-- To close what is not open does nothing. So nothing is closed twice. -/
theorem close_of_none (hc : hub.connection? h = none) : hub.close h = hub := by
  rw [close, hc]

/-- What it is to close a connection: its slot is emptied, its descriptor is discarded, and one
fewer is counted. -/
theorem close_of_some (hc : hub.connection? h = some c) :
    hub.close h =
      { hub with
        kernel := hub.kernel.discard h.descriptor
        slots := hub.slots.set h.descriptor c.release
        live := hub.live - 1 } := by
  obtain ⟨-, -, -, hdescriptor⟩ := connection?_eq_some.mp hc
  rw [close, hc]
  dsimp only
  rw [tearDown, hdescriptor]

/-- A connection that has been closed is not found any more. -/
theorem connection?_close_self (hub : Hub) (h : Handle) : (hub.close h).connection? h = none := by
  cases hc : hub.connection? h with
  | none => rw [close_of_none hc, hc]
  | some c =>
    rw [close_of_some hc, connection?]
    dsimp only
    rw [DescriptorMap.get?_set_self]
    split
    · rfl
    · rfl

/-- All others are. -/
theorem connection?_close_ne (hne : g ≠ h) : (hub.close h).connection? g = hub.connection? g := by
  have hd : g.descriptor ≠ h.descriptor := fun heq => hne (congrArg Handle.mk heq)
  cases hc : hub.connection? h with
  | none => rw [close_of_none hc]
  | some c =>
    rw [close_of_some hc, connection?, connection?, hasSlot, hasSlot]
    dsimp only
    rw [DescriptorMap.get?_set_ne _ _ hd]

/-- Of the kernel only the descriptor of the connection is concerned. -/
theorem close_kernel (hc : hub.connection? h = some c) :
    (hub.close h).kernel = hub.kernel.discard h.descriptor := by
  rw [close_of_some hc]

theorem close_root (hub : Hub) (h : Handle) : (hub.close h).root = hub.root := by
  simp only [close, tearDown]
  split <;> rfl

/-! ## Opening -/

/-- **What it is to enter a connection**: if there is a slot for its descriptor the connection in it
is started for the client, and nothing else changes; if there is none nothing at all does. -/
theorem enter_cases (hub : Hub) (d : Int) (peer : Option SocketAddress) :
    (hub.hasSlot d = false ∧ ∃ e, hub.enter d peer = (.error e, hub)) ∨
      (hub.hasSlot d = true ∧ ∃ hub', hub.enter d peer = (.ok ⟨d⟩, hub') ∧
        hub'.kernel = hub.kernel ∧ hub'.root = hub.root ∧
        hub'.connection? ⟨d⟩ = some (((hub.slots.get? d).getD {}).start d peer) ∧
        ∀ g : Handle, g ≠ ⟨d⟩ → hub'.connection? g = hub.connection? g) := by
  simp only [enter]
  split
  · rename_i hslot
    refine .inr ⟨hslot, _, rfl, rfl, rfl, ?_, fun g hne => ?_⟩
    · refine connection?_eq_some.mpr ⟨hslot, DescriptorMap.get?_set_self .., ?_, rfl⟩
      rw [hasSlot, Bool.and_eq_true] at hslot
      exact hslot.1
    · have hd : g.descriptor ≠ d := fun heq => hne (congrArg Handle.mk heq)
      rw [connection?, connection?, hasSlot, hasSlot]
      dsimp only
      rw [DescriptorMap.get?_set_ne _ _ hd]
  · rename_i hslot
    exact .inl ⟨by simpa using hslot, _, rfl⟩

end Hub

end FileServer
