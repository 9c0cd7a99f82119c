import FileServer.Kernel.Socket
import FileServer.Proofs.Site

/-!
# The kernel over another site

What is in the files is of no concern to any call but the one that answers a request. Put another
site under the kernel (`Kernel.withSite`), and every call does the same to all the rest and gives
the same result: there is one lemma for each call, which takes the site through it. Answering a
request looks at the site; it does the same if the two sites differ in hidden files only
(`Kernel.locate_withSite`).
-/

namespace FileServer.Kernel

/-- The kernel with other files. Everything else is kept: descriptors, streams, pipes, the poll
set and the scripts of what is to fail. -/
def withSite (k : Kernel) (site : Site) : Kernel := { k with site }

variable {α : Type} {b : Site} (k : Kernel)

@[simp] theorem site_withSite : (k.withSite b).site = b := rfl

@[simp] theorem descriptors_withSite : (k.withSite b).descriptors = k.descriptors := rfl

@[simp] theorem streams_withSite : (k.withSite b).streams = k.streams := rfl

@[simp] theorem pipes_withSite : (k.withSite b).pipes = k.pipes := rfl

@[simp] theorem poll_withSite : (k.withSite b).poll = k.poll := rfl

/-- What is done for each entry of a list goes through if each of its steps does. Having all the
descriptors of a stream looked at is of this kind. -/
theorem foldl_withSite {f : Kernel → α → Kernel}
    (hf : ∀ k a, f (k.withSite b) a = (f k a).withSite b) (l : List α) :
    l.foldl f (k.withSite b) = (l.foldl f k).withSite b := by
  induction l generalizing k with
  | nil => rfl
  | cons a l ih => rw [List.foldl_cons, List.foldl_cons, hf, ih]

/-! ## Descriptors, streams and pipes -/

/-- Which call is to fail next is read off the scripts, in which files play no part. -/
theorem takeFault_withSite (call : Call) :
    (k.withSite b).takeFault call = ((k.takeFault call).1, (k.takeFault call).2.withSite b) := rfl

theorem allocate_withSite (resource : Resource) :
    (k.withSite b).allocate resource =
      ((k.allocate resource).1, (k.allocate resource).2.withSite b) := rfl

theorem updateStream_withSite (number : Nat) (f : Stream → Stream) :
    (k.withSite b).updateStream number f = (k.updateStream number f).withSite b := rfl

theorem updatePipe_withSite (number : Nat) (f : Pipe → Pipe) :
    (k.withSite b).updatePipe number f = (k.updatePipe number f).withSite b := rfl

/-- The descriptors of a resource are looked at in the order of the table; this is the fold
above. -/
theorem notifyResource_withSite (resource : Resource) :
    (k.withSite b).notifyResource resource = (k.notifyResource resource).withSite b :=
  foldl_withSite k (fun _ _ => rfl) _

theorem endResource_withSite (resource : Resource) :
    (k.withSite b).endResource resource = (k.endResource resource).withSite b := by
  cases resource with
  | listener l => exact foldl_withSite k (fun _ _ => rfl) _
  | _ => rfl

theorem close_withSite (d : Int) : (k.withSite b).close d = (k.close d).withSite b := by
  rw [close, close, descriptors_withSite]
  cases k.descriptors.get? d with
  | none => rfl
  | some resource =>
    exact endResource_withSite { k with
      descriptors := k.descriptors.erase d
      poll := k.poll.remove d } resource

theorem putWire_withSite (d : Int) (w : Wire) :
    (k.withSite b).putWire d w = (k.putWire d w).withSite b := by
  unfold putWire streamOf? withSite
  dsimp only
  rcases k.descriptors.get? d with _ | _ | _ | n | _ | _ | _ | _ <;> try rfl
  cases w.stream <;> rfl

theorem through_withSite (d : Int) (f : Wire → α × Wire) :
    (k.withSite b).through d f = ((k.through d f).1, (k.through d f).2.withSite b) := by
  have hwire : (k.withSite b).wire d = k.wire d := rfl
  rw [through, through, hwire]
  exact congrArg (Prod.mk _) (k.putWire_withSite d _)

/-! ## The poll set -/

theorem createPoll_withSite :
    (k.withSite b).createPoll = (k.createPoll.1, k.createPoll.2.withSite b) := by
  rw [createPoll, createPoll, takeFault_withSite]
  generalize k.takeFault .pollCreate = x
  obtain ⟨_ | _ | _, k⟩ := x <;> rfl

/-- A change of the poll set goes through if it does where the script lets it happen. -/
theorem control_withSite {change : Kernel → Except Errno Unit × Kernel}
    (hchange : ∀ k, change (k.withSite b) = ((change k).1, (change k).2.withSite b)) :
    (k.withSite b).control change = ((k.control change).1, (k.control change).2.withSite b) := by
  rw [control, control, takeFault_withSite]
  generalize k.takeFault .pollControl = x
  obtain ⟨_ | (_ | _) | _, k⟩ := x
  · exact hchange k
  · rfl
  · exact hchange k
  · rfl

theorem pollAdd_withSite (d : Int) (g : Registration) :
    (k.withSite b).pollAdd d g = ((k.pollAdd d g).1, (k.pollAdd d g).2.withSite b) := by
  refine control_withSite k fun k => ?_
  rw [descriptors_withSite, poll_withSite]
  split
  · rfl
  · split <;> rfl

theorem pollModify_withSite (d : Int) (g : Registration) :
    (k.withSite b).pollModify d g = ((k.pollModify d g).1, (k.pollModify d g).2.withSite b) := by
  refine control_withSite k fun k => ?_
  rw [descriptors_withSite, poll_withSite]
  split
  · rfl
  · split <;> rfl

theorem pollDelete_withSite (d : Int) :
    (k.withSite b).pollDelete d = ((k.pollDelete d).1, (k.pollDelete d).2.withSite b) := by
  rw [pollDelete, control_withSite, pollDelete]
  · generalize k.control _ = x
    obtain ⟨_ | _, k⟩ := x <;> rfl
  · intro k
    rw [descriptors_withSite, poll_withSite]
    split
    · rfl
    · split <;> rfl

theorem discard_withSite (d : Int) : (k.withSite b).discard d = (k.discard d).withSite b := by
  rw [discard, pollDelete_withSite, close_withSite, discard]

theorem beginWait_withSite (max : Nat) :
    (k.withSite b).beginWait max = ((k.beginWait max).1, (k.beginWait max).2.withSite b) := by
  rw [beginWait, beginWait, takeFault_withSite]
  generalize k.takeFault .pollWait = x
  obtain ⟨_ | (_ | _) | _, k⟩ := x <;> rfl

/-! ## Clients and the wake-up pipe -/

theorem connect_withSite (d : Int) :
    (k.withSite b).connect d = ((k.connect d).1, (k.connect d).2.withSite b) := by
  have hreachable : (k.withSite b).reachable = k.reachable := rfl
  rw [connect, connect, descriptors_withSite, hreachable]
  split
  · split <;> rfl
  · rfl

theorem asClient_withSite (number : Nat) (f : Stream → α × Stream) :
    (k.withSite b).asClient number f =
      ((k.asClient number f).1, (k.asClient number f).2.withSite b) := by
  rw [asClient, asClient, streams_withSite]
  cases k.streams[number]? with
  | none => rfl
  | some s =>
    dsimp only
    rw [updateStream_withSite, notifyResource_withSite]

theorem plainAccept_withSite (d : Int) :
    (k.withSite b).plainAccept d = ((k.plainAccept d).1, (k.plainAccept d).2.withSite b) := by
  rw [plainAccept, plainAccept, descriptors_withSite]
  dsimp only
  split
  · split
    · rfl
    · split <;> rfl
  all_goals rfl

/-- The script may have an attempt to accept fail in several ways, none of which looks at a
file. -/
theorem accept_withSite (d : Int) :
    (k.withSite b).accept d = ((k.accept d).1, (k.accept d).2.withSite b) := by
  have hplain := fun scripts => plainAccept_withSite (b := b) { k with scripts } d
  have hunder : ∀ script : Script, (k.withSite b).acceptUnder d script =
      ((k.acceptUnder d script).1, (k.acceptUnder d script).2.withSite b) := by
    intro script
    induction script with
    | nil => exact hplain _
    | cons entry rest ih =>
      rcases entry with _ | _ | reason
      · exact hplain _
      · exact hplain _
      · rw [acceptUnder, acceptUnder]
        split
        · exact ih
        · rfl
  exact hunder _

theorem plainPipeRead_withSite (d : Int) (room : Nat) :
    (k.withSite b).plainPipeRead d room =
      ((k.plainPipeRead d room).1, (k.plainPipeRead d room).2.withSite b) := by
  rw [plainPipeRead, plainPipeRead, descriptors_withSite, pipes_withSite]
  split
  · split
    · dsimp only
      split
      · rfl
      · split <;> rfl
    · rfl
  · rfl

theorem pipeRead_withSite (d : Int) (room : Nat) :
    (k.withSite b).pipeRead d room = ((k.pipeRead d room).1, (k.pipeRead d room).2.withSite b) := by
  have hplain := fun scripts => plainPipeRead_withSite (b := b) { k with scripts } d
  have hunder : ∀ script : Script, (k.withSite b).pipeReadUnder d room script =
      ((k.pipeReadUnder d room script).1, (k.pipeReadUnder d room script).2.withSite b) := by
    intro script
    induction script with
    | nil => exact hplain _ room
    | cons entry rest ih =>
      rcases entry with _ | n | reason
      · exact hplain _ room
      · exact hplain _ (min room n)
      · rw [pipeReadUnder, pipeReadUnder]
        split
        · exact ih
        · rfl
  exact hunder _

theorem wake_withSite (d : Int) : (k.withSite b).wake d = (k.wake d).withSite b := by
  rw [wake, wake, descriptors_withSite, pipes_withSite]
  split
  · split
    · split
      · rw [updatePipe_withSite, notifyResource_withSite]
      · rfl
    · rfl
  · rfl

/-! ## Files

The one call that looks at the site. It is the only place where it matters by how much the two sites
differ. -/

/-- A mapping is of the bytes it is given; it is the lookup that finds them in the site. -/
theorem mapFile_withSite (content : Bytes) :
    (k.withSite b).mapFile content = ((k.mapFile content).1, (k.mapFile content).2.withSite b) :=
  rfl

/-- **A request is answered the same if the sites differ in hidden files only.** Both sites have
the same file at the end of the path, or one whose mode has it refused before it is opened; so
either the same bytes are mapped or none are. -/
theorem locate_withSite (h : k.site.Alike b) (root url : String) :
    (k.withSite b).locate root url = ((k.locate root url).1, (k.locate root url).2.withSite b) := by
  rw [locate, locate, site_withSite, DocumentRoot.lookUp_alike h]
  split
  · rfl
  · rw [allocate_withSite]
    dsimp only
    rw [mapFile_withSite]
    dsimp only
    rw [close_withSite]

end FileServer.Kernel
