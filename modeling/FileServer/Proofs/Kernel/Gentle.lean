import FileServer.Proofs.Kernel.Operations
import FileServer.Proofs.Reference

/-!
# A kernel that is merely slow

What a server may ask of a kernel is that it does not fail: that reads and writes are at worst
short, interrupted or blocked, that the poll set can be changed, and that files can be mapped
(`Kernel.Gentle`). Such a kernel stays so, and it answers a request for a path as the sequential
server does (`Kernel.Gentle.locate`).
-/

namespace FileServer.Kernel

variable {k k' : Kernel}

/-- Reads and writes are at worst short, interrupted or blocked, and no change of the poll set and
no mapping of a file fails. Nothing is said of how long a client is made to wait, nor of
accepting, which may fail in any way. -/
structure Gentle (k : Kernel) : Prop where
  reads : ∀ d, (k.scripts.of (.read d)).Only Fault.isGentleRead
  writes : ∀ d, (k.scripts.of (.write d)).Only Fault.isGentleWrite
  honest : k.Honest
  control : (k.scripts.of .pollControl).Only Fault.succeeds
  maps : (k.scripts.of .mapFile).Only Fault.succeeds

namespace Gentle

/-- Without scripts everything succeeds. -/
theorem of_unscripted (h : k.scripts = {}) : k.Gentle := by
  have hnone : ∀ {p : Fault → Prop} call, (k.scripts.of call).Only p := by
    intro p call
    rw [h]
    rintro fault ⟨⟩
  exact ⟨fun d => hnone _, fun d => hnone _, hnone _, hnone _, hnone _⟩

/-- Scripts are only ever used up from the front, and what is left of a gentle script is
gentle. -/
theorem spent (hk : k.Gentle) (h : k.scripts.Spent k'.scripts) : k'.Gentle :=
  ⟨fun d => (hk.reads d).suffix (h _), fun d => (hk.writes d).suffix (h _), hk.honest.suffix (h _),
    hk.control.suffix (h _), hk.maps.suffix (h _)⟩

theorem evolves (hk : k.Gentle) (h : k.Evolves k') : k'.Gentle := hk.spent h.scripts

/-- No call on the poll set is going to fail, so the premise of what happens after such a failure
is never met. -/
theorem not_controlFails (hk : k.Gentle) : ¬ k.ControlFails := by
  rintro ⟨reason, hfails⟩
  exact hk.control _ hfails

/-- What a connection meets when it reads is gentle. A descriptor that stands for no stream has no
script at all. -/
theorem wire_reads (hk : k.Gentle) (d : Int) : (k.wire d).reads.Only Fault.isGentleRead := by
  simp only [wire, governing]
  split
  · exact hk.reads (some d)
  · exact hk.reads none

/-- What a connection meets when it writes is gentle. -/
theorem wire_writes (hk : k.Gentle) (d : Int) : (k.wire d).writes.Only Fault.isGentleWrite := by
  simp only [wire, governing]
  split
  · exact hk.writes (some d)
  · exact hk.writes none

/-- **A file that is asked for is found as if nobody else had asked for one.** A script for
mapping files is the only thing that one lookup could spoil for another, and here it holds no
failure; so the answer is that of a lookup on the site alone. -/
theorem locate (hk : k.Gentle) (root url : String) :
    (k.locate root url).1 = (DocumentRoot.locate k.site root url []).1 := by
  have hscript : (k.locate root url).1 =
      (DocumentRoot.locate k.site root url (k.scripts.of .mapFile)).1 := by
    simp only [Kernel.locate, DocumentRoot.locate]
    cases DocumentRoot.lookUp k.site root url with
    | error r => rfl
    | ok content => rfl
  rw [hscript]
  exact DocumentRoot.locate_undisturbed hk.maps k.site root url

end Gentle

/-- What is seen through the descriptor of a stream is that stream, as the kernel has it. -/
theorem wire_stream {d : Int} {n : Nat} {s : Stream} (hd : k.streamOf? d = some n)
    (hs : k.streams[n]? = some s) : (k.wire d).stream = some s := by
  rw [wire, hd]
  exact hs

end FileServer.Kernel
