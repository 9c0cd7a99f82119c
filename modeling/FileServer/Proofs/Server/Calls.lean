import FileServer.Proofs.Server.Ownership

/-!
# What is done for clients

What the loop and the workers do for a client comes down to a few calls of the kernel: its stream is
read and written, what it asks for is looked up, and its descriptor is armed and in the end dropped.
So a relation between kernels that each of these calls keeps within (`Kernel.CoversCalls`) is one
that a whole task keeps within (`Server.Orderly.covers_task`), and a whole job of a worker
(`Server.Orderly.covers_worker`). Two tasks are for no client: to accept is about the listener, and
to drain is about the wake-up pipe.
-/

namespace FileServer

variable {R : Kernel → Kernel → Prop}

/-- A relation between the kernel before and after, that every call made for a client keeps
within. -/
structure Kernel.CoversCalls (R : Kernel → Kernel → Prop) : Prop where
  refl (k : Kernel) : R k k
  trans {k k' k'' : Kernel} : R k k' → R k' k'' → R k k''
  /-- its stream is read and written -/
  putWire (k : Kernel) (d : Int) (w : Wire) : R k (k.putWire d w)
  /-- what it asks for is looked up -/
  locate (k : Kernel) (root url : String) : R k (k.locate root url).2
  /-- it is turned away -/
  close {k : Kernel} {d : Int} {n : Nat} : k.streamOf? d = some n → R k (k.close d)
  /-- it is dropped -/
  discard {k : Kernel} {d : Int} {n : Nat} : k.streamOf? d = some n → R k (k.discard d)
  /-- its descriptor is added to the poll set, for one event -/
  pollAdd {k : Kernel} {d : Int} {n : Nat} {g : Registration} : k.streamOf? d = some n →
    g.oneShot = true → R k (k.pollAdd d g).2
  /-- its descriptor is armed for another event -/
  pollModify {k : Kernel} {d : Int} {n : Nat} {g : Registration} : k.streamOf? d = some n →
    g.oneShot = true → R k (k.pollModify d g).2

namespace Kernel.CoversCalls

variable {hub : Hub} {h : Handle}

/-- What is done to the connection of a slot is done within the relation, if what is done to a
connection is; with no connection there, nothing is done. -/
theorem visit (hR : CoversCalls R) {α : Type} {f : Connection → Kernel → α × Connection × Kernel}
    (hf : ∀ c (k : Kernel), R k (f c k).2.2) (hub : Hub) (h : Handle) :
    R hub.kernel (hub.visit h f).2.kernel := by
  cases hc : hub.connection? h with
  | none =>
    rw [Hub.visit, hc]
    exact hR.refl _
  | some c =>
    rw [Hub.visit_of_some hc]
    exact hf c hub.kernel

theorem onWire (hR : CoversCalls R) {α : Type} (f : Connection → Wire → α × Connection × Wire)
    (c : Connection) (k : Kernel) : R k (Hub.onWire f c k).2.2 := by
  rw [Hub.onWire_eq]
  exact hR.putWire ..

/-- An answer is a lookup, if the request is complete, and an attempt to send. -/
theorem answer (hR : CoversCalls R) (root : String) (outcome : Request.Outcome) (c : Connection)
    (k : Kernel) : R k (Hub.answer root outcome c k).2.2 := by
  have hresolve : R k (Hub.resolve root outcome c k).2 := by
    cases outcome with
    | complete => exact hR.locate ..
    | incomplete => exact hR.refl k
    | malformed => exact hR.refl k
  simp only [Hub.answer]
  split
  · exact hR.refl k
  · exact hR.trans hresolve (hR.onWire ..)

/-- To close a connection is to drop its descriptor, which has a stream behind it. -/
theorem hubClose (hR : CoversCalls R) (hstream : ∀ c, hub.connection? h = some c →
    ∃ n, hub.kernel.streamOf? h.descriptor = some n) : R hub.kernel (hub.close h).kernel := by
  cases hc : hub.connection? h with
  | none =>
    rw [Hub.close_of_none hc]
    exact hR.refl _
  | some c =>
    obtain ⟨n, hn⟩ := hstream c hc
    rw [Hub.close_kernel hc]
    exact hR.discard hn

end Kernel.CoversCalls

namespace Server.Orderly

variable {s t : Server} {rest : List Event} {task : Task} {h : Handle}

/-- There is a stream behind every connection. -/
theorem streamOf? (hs : s.Orderly) {c : Connection} (hc : s.hub.connection? h = some c) :
    ∃ n, s.hub.kernel.streamOf? h.descriptor = some n := by
  obtain ⟨τ, c', hstanding⟩ := hs.placed (h := h) (by rw [hc]; rfl)
  exact hstanding.stream

theorem covers_close (hs : s.Orderly) (hR : Kernel.CoversCalls R) (h : Handle) :
    R s.hub.kernel (s.hub.close h).kernel := hR.hubClose fun _ hc => hs.streamOf? hc

/-- A connection that is resumed may be closed in the same step. -/
theorem covers_runStep (hs : s.Orderly) (hR : Kernel.CoversCalls R) (h : Handle) :
    R s.hub.kernel (s.hub.runStep h (Hub.onWire Connection.resume)).2.kernel := by
  have hvisit := hR.visit (hR.onWire Connection.resume) s.hub h
  -- what is sent leaves the descriptor as it is, so that the stream is still there to be closed
  have hstream : ∀ c, (s.hub.visit h (Hub.onWire Connection.resume)).2.connection? h = some c →
      ∃ n, (s.hub.visit h (Hub.onWire Connection.resume)).2.kernel.streamOf? h.descriptor =
        some n := by
    intro c hc
    cases hconnection : s.hub.connection? h with
    | none =>
      rw [Hub.visit, hconnection] at hc
      exact absurd (hconnection.symm.trans hc) (by rintro ⟨⟩)
    | some c' =>
      obtain ⟨n, hn⟩ := hs.streamOf? hconnection
      rw [Hub.visit_of_some hconnection, Hub.onWire_eq]
      obtain ⟨hsame, -⟩ := Kernel.putWire_spec s.hub.kernel c'.descriptor
        (c'.resume (s.hub.kernel.wire c'.descriptor)).2.2
      exact ⟨n, (hsame.streamOf? _).trans hn⟩
  simp only [Hub.runStep]
  split
  · next hub heq =>
    rw [heq] at hvisit hstream
    exact hR.trans hvisit (hR.hubClose hstream)
  · exact hvisit

/-- **What the loop does for a client** is done within the relation. The cases are those of the
task. -/
theorem covers_task (hs : s.Orderly) (hR : Kernel.CoversCalls R)
    (hstage : s.stage = .batch rest task)
    (haccept : task ≠ .accept) (hdrain : task ≠ .drain) (choice : Nat) :
    R s.hub.kernel (s.afterTask choice rest task).hub.kernel := by
  -- every connection the loop works on has a stream behind its descriptor
  have hstream : ∀ h, task.handle? = some h → ∃ n,
      s.hub.kernel.streamOf? h.descriptor = some n := by
    intro h hh
    obtain ⟨c, hstanding⟩ := hs.standing_task hstage hh
    exact hstanding.stream
  cases task with
  | next => exact hR.refl _
  | consider d peer => exact hR.refl _
  | announce => exact hR.refl _
  | accept => exact absurd rfl haccept
  | drain => exact absurd rfl hdrain
  | enter d peer =>
    rcases Hub.enter_cases s.hub d peer with ⟨-, e, heq⟩ | ⟨-, hub, heq, hkernel, -⟩
    · simp only [afterTask, doTask, heq]
      exact hR.refl _
    · simp only [afterTask, doTask, heq, goTo, hkernel]
      exact hR.refl _
  | refuse d =>
    obtain ⟨n, hn⟩ := (hs.candidate d (by rw [hstage]; rfl)).stream
    exact hR.close hn
  | register h =>
    obtain ⟨n, hn⟩ := hstream h rfl
    have hadd := hR.pollAdd (g := h.registration .read) hn rfl
    simp only [afterTask, doTask, Hub.register]
    split <;> next heq =>
      obtain ⟨-, rfl⟩ := Prod.mk.inj heq
      exact hadd
  | rearm h interest =>
    obtain ⟨n, hn⟩ := hstream h rfl
    have hmodify := hR.pollModify (g := h.registration interest) hn rfl
    simp only [afterTask, doTask, Hub.rearm]
    split <;> next heq =>
      obtain ⟨-, rfl⟩ := Prod.mk.inj heq
      exact hmodify
  | giveUp h => exact hs.covers_close hR h
  | close h => exact hs.covers_close hR h
  | read h => exact hR.visit (hR.onWire Connection.readAll) s.hub h
  | resume h => exact hs.covers_runStep hR h
  | submit h =>
    simp only [afterTask, doTask]
    split <;> exact hR.refl _

/-- **What a worker does** is done within the relation. The cases are those of its progress. -/
theorem covers_worker (hs : s.Orderly) (hR : Kernel.CoversCalls R) {i : Nat}
    (hstep : s.workerStep i = some t) : R s.hub.kernel t.hub.kernel := by
  simp only [Server.workerStep] at hstep
  split at hstep
  · next job hw =>
    -- the job's connection is open, so the calls are made on a socket and not on anything else
    obtain ⟨c, hstanding⟩ := hs.standing_job hw
    obtain ⟨n, hn⟩ := hstanding.stream
    cases job with
    | parse h =>
      have hvisit := hR.visit (f := fun c kernel =>
        ((c.parse.1, s.awaitedPipe? c.parse.1 c.parse.2), c.parse.2, kernel))
        (fun _ k => hR.refl k) s.hub h
      simp only [Server.jobStep] at hstep
      split at hstep
      · cases hstep
      · split at hstep
        · obtain rfl := Option.some.inj hstep
          exact hR.refl _
        · next heq =>
          obtain rfl := Option.some.inj hstep
          rw [heq] at hvisit
          exact hvisit
    | answer h outcome awaited =>
      have hvisit := hR.visit (hR.answer s.hub.root outcome) s.hub h
      simp only [Server.jobStep] at hstep
      split at hstep
      · cases hstep
      · split at hstep
        · obtain rfl := Option.some.inj hstep
          exact hR.refl _
        · next heq =>
          obtain rfl := Option.some.inj hstep
          rw [heq] at hvisit
          exact hvisit
    | close h =>
      obtain rfl := Option.some.inj hstep
      exact hs.covers_close hR h
    | rearm h interest =>
      have hmodify := hR.pollModify (g := h.registration interest) hn rfl
      simp only [Server.jobStep, Hub.rearm] at hstep
      split at hstep <;> next heq =>
        obtain ⟨-, rfl⟩ := Prod.mk.inj heq
        obtain rfl := Option.some.inj hstep
        exact hmodify
    | giveUp h =>
      simp only [Server.jobStep] at hstep
      split at hstep
      · cases hstep
      · obtain rfl := Option.some.inj hstep
        exact hs.covers_close hR h
  · obtain ⟨-, -, rfl⟩ := Option.map_eq_some_iff.mp hstep
    exact hR.refl _

end Server.Orderly

end FileServer
