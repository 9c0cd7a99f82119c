import FileServer.Proofs.Pool

/-!
# Shutting a pool down

A shutdown tells the workers to stop and then posts as many permits as there are to be workers.
Submits go on meanwhile, workers are anywhere between waiting for a permit and taking an item, and
some of them may never have been started.

No worker is left behind (`shutdown_releases`). From the moment at which the pool is told to stop,
who takes a permit comes to its end by it, so no permit is lost: those that a shutdown has yet to
post, those that are left and those with which a worker parts are together enough for all workers
(`Sound.enough`). Once a shutdown has posted all of its permits, one is left for each worker that
waits.

What workers take after that moment is the beginning of what waited in it, one item for each worker
that had looked before and is not there yet (`Remainder`).
-/

namespace FileServer

/-- The worker has come to its end, or has a permit and has yet to look whether to. -/
def Worker.parts {ρ : Type} (w : Worker ρ) : Bool := w matches .permitted | .exited

/-- The worker is about to take an item. -/
def Worker.fetches {ρ : Type} (w : Worker ρ) : Bool := w matches .fetching

/-- How many steps a worker takes at most until it comes to its end, once it finds a permit whenever
it looks for one. -/
def Worker.stepsLeft {ρ : Type} : Option (Worker ρ) → Nat
  | some .exited => 0
  | some .permitted => 1
  | none | some .waiting => 2
  | some (.busy _) => 3
  | some .fetching => 4

namespace Pool

variable {α ρ : Type}

/-! ## Counting those that part, and those that take an item -/

/-- How many workers have come to their end or have a permit and have yet to look whether to. -/
def parting (workers : List (Worker ρ)) : Nat := workers.countP Worker.parts

/-- How many workers are about to take an item. -/
def fetching (workers : List (Worker ρ)) : Nat := workers.countP Worker.fetches

section Counting

variable {workers : List (Worker ρ)} {i : Nat} {v w : Worker ρ}

theorem parting_set (hv : workers[i]? = some v) :
    parting (workers.set i w) + v.parts.toNat = parting workers + w.parts.toNat :=
  countP_set Worker.parts hv

theorem fetching_set (hv : workers[i]? = some v) :
    fetching (workers.set i w) + v.fetches.toNat = fetching workers + w.fetches.toNat :=
  countP_set Worker.fetches hv

theorem fetching_pos (hw : workers[i]? = some .fetching) : 0 < fetching workers :=
  List.countP_pos_iff.mpr ⟨.fetching, List.mem_of_getElem? hw, rfl⟩

theorem idle_pos (hw : workers[i]? = some .waiting) : 0 < idle workers :=
  List.countP_pos_iff.mpr ⟨.waiting, List.mem_of_getElem? hw, rfl⟩

/-- Who is about to take an item has a permit for it. -/
theorem fetching_le_holding : fetching workers ≤ holding workers :=
  List.countP_mono_left fun w _ hw => by cases w <;> first | rfl | cases hw

/-- Who waits for a permit does not part. -/
theorem idle_add_parting_le : idle workers + parting workers ≤ workers.length := by
  have hdisjoint : parting workers ≤ workers.countP fun w => !w.waits :=
    List.countP_mono_left fun w _ hw => by cases w <;> first | rfl | cases hw
  have hsplit := List.length_eq_countP_add_countP Worker.waits (l := workers)
  simp only [Bool.not_eq_true, Bool.decide_eq_false] at hsplit
  unfold idle
  omega

/-- When a worker turns to something else but to taking an item, only the others may be about to. -/
theorem fetching_set_iff {j : Nat} (hw : w.fetches = false) :
    (workers.set i w)[j]? = some .fetching ↔ j ≠ i ∧ workers[j]? = some .fetching := by
  rcases eq_or_ne j i with rfl | hne
  · refine ⟨fun h => ?_, fun h => absurd rfl h.1⟩
    rw [List.getElem?_set_self'] at h
    obtain ⟨_, -, rfl⟩ := Option.map_eq_some_iff.mp h
    cases hw
  · rw [List.getElem?_set_ne hne.symm]
    exact (and_iff_right hne).symm

/-- A worker that has just been started is not about to take an item. -/
theorem fetching_append_iff :
    (workers ++ [.waiting])[i]? = some .fetching ↔ workers[i]? = some .fetching := by
  rcases Nat.lt_or_ge i workers.length with hlt | hge
  · rw [List.getElem?_append_left hlt]
  · rw [List.getElem?_append_right hge, List.getElem?_eq_none hge, List.getElem?_singleton]
    split <;> simp

/-- A worker turns to something from which it is fewer steps to its end. -/
theorem stepsLeft_set {n : Nat} (hv : workers[i]? = some v)
    (h : Worker.stepsLeft (some w) + n ≤ Worker.stepsLeft (some v)) (j : Nat) :
    Worker.stepsLeft (workers.set i w)[j]? + (if j = i then n else 0) ≤
      Worker.stepsLeft workers[j]? := by
  split
  · next heq =>
    subst heq
    rwa [List.getElem?_set_self', hv]
  · next hne =>
    exact Nat.le_of_eq (congrArg Worker.stepsLeft (List.getElem?_set_ne (Ne.symm hne)))

end Counting

/-! ## A pool and those who shut it down

A shutdown is a stop, and then a permit for each worker; both are steps of their own, between which
workers and submits take theirs. -/

/-- Traffic in a pool that is shut down meanwhile, maybe more than once. -/
structure Course (α ρ : Type) extends Traffic α ρ where
  /-- how many permits each shutdown has yet to post -/
  owed : List Nat := []
  /-- the workers that took the items, in the order of these -/
  takers : List Nat := []

/-- What may happen next. -/
inductive Event (α ρ : Type)
  /-- a submit or a worker goes on -/
  | move (move : Move α ρ)
  /-- a shutdown tells the workers to come to their end -/
  | stop
  /-- one of the shutdowns posts a permit; the second number chooses the sleeper that is woken -/
  | release (call choice : Nat)

/-- Whether it is a step of this worker. What it does with its item in between does not count. -/
def Event.isStepOf (i : Nat) : Event α ρ → Bool
  | .move (.work j) | .move (.finish j) => i = j
  | _ => false

namespace Course

/-- The state after an event, if that is possible. -/
def perform? (start : α → ρ) (s : Course α ρ) : Event α ρ → Option (Course α ρ)
  | .move move =>
    (s.toTraffic.perform? start move).map fun t =>
      { s with toTraffic := t, takers := s.takers ++ (s.toTraffic.taker? start move).toList }
  | .stop => some { s with pool := s.pool.stop, owed := s.owed ++ [s.pool.size] }
  | .release call choice =>
    match s.owed[call]? with
    | some (left + 1) =>
      some { s with pool := s.pool.post choice, owed := s.owed.set call left }
    | _ => none

/-- The state after some events, if they are possible. -/
def run (start : α → ρ) (s : Course α ρ) : List (Event α ρ) → Option (Course α ρ)
  | [] => some s
  | event :: events => (s.perform? start event).bind fun s => s.run start events

/-- What comes of an event. -/
inductive Step (start : α → ρ) (s : Course α ρ) : Event α ρ → Course α ρ → Prop
  | move {move : Move α ρ} {taker : Option Nat} {t : Traffic α ρ} :
    s.Performs start move taker t →
    Step start s (.move move) { s with toTraffic := t, takers := s.takers ++ taker.toList }
  | stop : Step start s .stop { s with pool := s.pool.stop, owed := s.owed ++ [s.pool.size] }
  | release {call left : Nat} (choice : Nat) : s.owed[call]? = some (left + 1) →
    Step start s (.release call choice)
      { s with pool := s.pool.post choice, owed := s.owed.set call left }

variable {start : α → ρ} {capacity : Nat} {s t : Course α ρ} {event : Event α ρ}

/-- What comes of an event is one of the listed things. -/
theorem perform?_cases (h : s.perform? start event = some t) : Step start s event t := by
  cases event with
  | move move =>
    obtain ⟨r, hperform, rfl⟩ := Option.map_eq_some_iff.mp h
    exact .move (Traffic.perform?_cases hperform)
  | stop =>
    obtain rfl := Option.some.inj h
    exact .stop
  | release call choice =>
    simp only [perform?] at h
    split at h
    · next howed =>
      obtain rfl := Option.some.inj h
      exact .release choice howed
    · cases h

/-- Each of them does come of it. -/
theorem Step.eq_some (h : Step start s event t) : s.perform? start event = some t := by
  cases h with
  | move hmove =>
    obtain ⟨hperform, htaker⟩ := hmove.eq_some
    simp only [perform?, hperform, htaker, Option.map_some]
  | stop => rfl
  | release choice howed => simp only [perform?, howed]

theorem Step.run (h : Step start s event t) : s.run start [event] = some t := by
  rw [Course.run, h.eq_some]
  rfl

/-- Events one after the other. -/
theorem run_append (s : Course α ρ) (events more : List (Event α ρ)) :
    s.run start (events ++ more) = (s.run start events).bind (·.run start more) := by
  induction events generalizing s with
  | nil => rfl
  | cons event events ih =>
    rw [List.cons_append, run, run, Option.bind_assoc]
    exact congrArg _ (funext ih)

theorem run_cons {events : List (Event α ρ)} (h : s.run start (event :: events) = some t) :
    ∃ r, Step start s event r ∧ r.run start events = some t := by
  obtain ⟨r, hstep, hrest⟩ := Option.bind_eq_some_iff.mp h
  exact ⟨r, perform?_cases hstep, hrest⟩

/-- The first of several permits is posted as the others are. -/
theorem repeat_post (n : Nat) (p : Pool α ρ) :
    n.repeat (·.post 0) (p.post 0) = (n.repeat (·.post 0) p).post 0 := by
  induction n with
  | zero => rfl
  | succ n ih => exact congrArg (·.post 0) ih

/-- A shutdown that nothing comes between. -/
theorem run_shutdown (s : Course α ρ) :
    s.run start (.stop :: List.replicate s.pool.size (.release s.owed.length 0)) =
      some { s with pool := s.pool.shutdown, owed := s.owed ++ [0] } := by
  have hposts : ∀ (n : Nat) (p : Pool α ρ),
      run start { s with pool := p, owed := s.owed ++ [n] }
          (List.replicate n (.release s.owed.length 0)) =
        some { s with pool := n.repeat (·.post 0) p, owed := s.owed ++ [0] } := by
    intro n
    induction n with
    | zero => intro p; rfl
    | succ n ih =>
      intro p
      simp only [List.replicate_succ, run, perform?, List.getElem?_concat_length, Option.bind_some]
      rw [List.set_append_right _ _ (Nat.le_refl _), Nat.sub_self, List.set_cons_zero, ih,
        repeat_post]
      rfl
  exact hposts s.pool.size s.pool.stop

/-- Several workers go on with what they are at, one after the other. -/
theorem run_handle {g : Worker ρ → Worker ρ}
    (hg : ∀ w, g w = w ∨ ∃ progress next, w = .busy progress ∧ g w = .busy next) (s : Course α ρ)
    (done todo : List (Worker ρ)) (hworkers : s.pool.workers = done ++ todo) :
    ∃ events, s.run start events =
      some { s with pool := { s.pool with workers := done ++ todo.map g } } := by
  induction todo generalizing s done with
  | nil =>
    rw [List.map_nil, ← hworkers]
    exact ⟨[], rfl⟩
  | cons w todo ih =>
    rw [List.map_cons, List.append_cons]
    rcases hg w with hsame | ⟨progress, next, rfl, hnext⟩
    · rw [hsame]
      exact ih s (done ++ [w]) (hworkers.trans (List.append_cons ..))
    · have hw : s.pool.workers[done.length]? = some (.busy progress) := by
        rw [hworkers, List.getElem?_append_right (Nat.le_refl _), Nat.sub_self]
        rfl
      let t : Course α ρ :=
        { s with pool := s.pool.setWorker done.length (.busy next), takers := s.takers ++ [] }
      have hfirst : Step start s (.move (.handle done.length next)) t := .move (.handle next hw)
      have ht : t.pool.workers = done ++ [.busy next] ++ todo := by
        dsimp only [t, workers_setWorker]
        rw [hworkers, List.set_append_right _ _ (Nat.le_refl _), Nat.sub_self, List.set_cons_zero,
          List.append_cons]
      obtain ⟨events, hrest⟩ := ih t _ ht
      refine ⟨[.move (.handle done.length next)] ++ events, ?_⟩
      rw [run_append, hfirst.run, Option.bind_some, hrest, hnext]
      dsimp only [t]
      rw [List.append_nil]
      rfl

end Course

/-! ## Permits

How a step changes what is counted: permits that are left, workers that have one, workers that part,
and items that wait. -/

section Permits

variable {start : α → ρ} {p q : Pool α ρ} {i : Nat} {item : Option α}

/-- The steps of a worker do not change what the pool is told, nor how many workers there are. -/
theorem WorkerStep.frame (h : WorkerStep start p i item q) :
    q.size = p.size ∧ q.stopping = p.stopping ∧ q.workers.length = p.workers.length ∧
      q.capacity = p.capacity := by
  cases h <;> exact ⟨rfl, rfl, by simp only [workers_setWorker, List.length_set], rfl⟩

/-- Who takes a permit of a pool that is told to stop parts with it. -/
theorem WorkerStep.enough (h : WorkerStep start p i item q) (hstop : p.stopping = true) :
    p.available.permits + parting p.workers ≤ q.available.permits + parting q.workers := by
  cases h with
  | pass hw _ hn =>
    have hparting := parting_set (w := .permitted) hw
    simp only [Worker.parts, Bool.toNat_true, Bool.toNat_false] at hparting
    simp only [workers_setWorker, available_setWorker]
    omega
  | sleep => exact Nat.le_refl _
  | look hw hgoing =>
    rw [hstop] at hgoing
    cases hgoing
  | exit hw =>
    have hparting := parting_set (w := .exited) hw
    simp only [Worker.parts, Bool.toNat_true] at hparting
    simp only [workers_setWorker, available_setWorker]
    omega
  | miss hw =>
    have hparting := parting_set (w := .waiting) hw
    simp only [Worker.parts, Bool.toNat_false] at hparting
    simp only [workers_setWorker, available_setWorker]
    omega
  | @take first rest hw =>
    have hparting := parting_set (w := .busy (start first)) hw
    simp only [Worker.parts, Bool.toNat_false] at hparting
    simp only [workers_setWorker, available_setWorker]
    omega

/-- A worker takes an item with a permit, and no permit serves twice. -/
theorem WorkerStep.posts (h : WorkerStep start p i item q) :
    q.available.permits + holding q.workers + p.queue.length ≤
      p.available.permits + holding p.workers + q.queue.length := by
  cases h with
  | pass hw _ hn =>
    have hholding := holding_set (w := .permitted) hw
    simp only [Worker.holds, Bool.toNat_true, Bool.toNat_false] at hholding
    simp only [workers_setWorker, available_setWorker, queue_setWorker]
    omega
  | sleep => exact Nat.le_refl _
  | look hw =>
    have hholding := holding_set (w := .fetching) hw
    simp only [Worker.holds, Bool.toNat_true] at hholding
    simp only [workers_setWorker, available_setWorker, queue_setWorker]
    omega
  | exit hw =>
    have hholding := holding_set (w := .exited) hw
    simp only [Worker.holds, Bool.toNat_true, Bool.toNat_false] at hholding
    simp only [workers_setWorker, available_setWorker, queue_setWorker]
    omega
  | miss hw =>
    have hholding := holding_set (w := .waiting) hw
    simp only [Worker.holds, Bool.toNat_true, Bool.toNat_false] at hholding
    simp only [workers_setWorker, available_setWorker, queue_setWorker]
    omega
  | @take first rest hw hq =>
    have hholding := holding_set (w := .busy (start first)) hw
    simp only [Worker.holds, Bool.toNat_true, Bool.toNat_false] at hholding
    simp only [workers_setWorker, available_setWorker, queue_setWorker, hq, List.length_cons]
    omega

end Permits

namespace Traffic

variable {start : α → ρ} {s t : Traffic α ρ} {move : Move α ρ} {taker : Option Nat}

theorem Performs.frame (h : s.Performs start move taker t) :
    t.pool.size = s.pool.size ∧ t.pool.stopping = s.pool.stopping ∧
      t.pool.capacity = s.pool.capacity := by
  cases h with
  | work hstep => exact ⟨hstep.frame.1, hstep.frame.2.1, hstep.frame.2.2.2⟩
  | _ => exact ⟨rfl, rfl, rfl⟩

/-- No more workers are started than there are to be. -/
theorem Performs.crew (h : s.Performs start move taker t)
    (hs : s.pool.workers.length ≤ s.pool.size) : t.pool.workers.length ≤ t.pool.size := by
  cases h with
  | spawn hlt =>
    simp only [Pool.spawn, List.length_append, List.length_singleton]
    exact hlt
  | work hstep =>
    obtain ⟨hsize, -, hlength, -⟩ := hstep.frame
    dsimp only
    rw [hsize, hlength]
    exact hs
  | handle | finish => exact Nat.le_trans (Nat.le_of_eq (List.length_set ..)) hs
  | _ => exact hs

/-- In a pool that is told to stop, permits and workers that part do not become fewer, whoever
moves: a submit adds a permit, and a worker that takes one parts. -/
theorem Performs.enough (h : s.Performs start move taker t) (hstop : s.pool.stopping = true) :
    s.pool.available.permits + parting s.pool.workers ≤
      t.pool.available.permits + parting t.pool.workers := by
  cases h with
  | spawn => simp [Pool.spawn, parting, Worker.parts]
  | announce choice =>
    simp only [post, Semaphore.post]
    omega
  | work hstep => exact hstep.enough hstop
  | handle next hw =>
    have hparting := parting_set (w := .busy next) hw
    simp only [Worker.parts] at hparting
    simp only [workers_setWorker, available_setWorker]
    omega
  | finish hw =>
    have hparting := parting_set (w := .waiting) hw
    simp only [Worker.parts] at hparting
    simp only [workers_setWorker, available_setWorker]
    omega
  | _ => exact Nat.le_refl _

/-- The permits that are left, those that workers have and those that submits are about to post. -/
def permits (s : Traffic α ρ) : Nat :=
  s.pool.available.permits + holding s.pool.workers + s.announcing

/-- There is an item for each permit that is not of a shutdown. -/
theorem Performs.posts (h : s.Performs start move taker t) :
    t.permits + s.pool.queue.length ≤ s.permits + t.pool.queue.length := by
  unfold permits
  cases h with
  | spawn => simp [Pool.spawn, holding, Worker.holds]
  | accept item hroom =>
    simp only [List.length_append, List.length_singleton]
    omega
  | announce choice hn =>
    simp only [post, Semaphore.post]
    omega
  | work hstep =>
    have hposts := hstep.posts
    dsimp only
    omega
  | handle next hw =>
    have hholding := holding_set (w := .busy next) hw
    simp only [Worker.holds] at hholding
    simp only [workers_setWorker, available_setWorker, queue_setWorker]
    omega
  | finish hw =>
    have hholding := holding_set (w := .waiting) hw
    simp only [Worker.holds] at hholding
    simp only [workers_setWorker, available_setWorker, queue_setWorker]
    omega
  | _ => exact Nat.le_refl _

/-- No more items wait than may. -/
theorem Performs.bounded (h : s.Performs start move taker t)
    (hs : s.pool.queue.length ≤ s.pool.capacity) : t.pool.queue.length ≤ t.pool.capacity := by
  cases h with
  | accept item hroom =>
    simp only [List.length_append, List.length_singleton]
    exact hroom
  | work hstep =>
    cases hstep with
    | take hw hq =>
      rw [hq, List.length_cons] at hs
      exact Nat.le_of_succ_le hs
    | _ => exact hs
  | _ => exact hs

end Traffic

/-! ## What holds at every moment

Enough permits are left, or owed, for all workers that have not parted. -/

namespace Course

/-- Where the permits are, whatever has happened. -/
structure Sound (size capacity : Nat) (s : Course α ρ) : Prop where
  attentive : s.pool.Attentive
  size_eq : s.pool.size = size
  capacity_eq : s.pool.capacity = capacity
  crew : s.pool.workers.length ≤ s.pool.size
  bounded : s.pool.queue.length ≤ s.pool.capacity
  /-- until the pool is told to stop it delivers -/
  going : s.pool.stopping = false → Traffic.Balanced capacity s.toTraffic ∧ s.owed = []
  /-- what a shutdown has yet to post, what is left and what workers part with is enough for all -/
  enough : ∀ left ∈ s.owed, s.pool.size ≤
    left + (s.pool.available.permits + parting s.pool.workers)
  /-- permits do not outgrow the items that wait and those of the shutdowns -/
  counted : s.permits + s.owed.sum ≤ s.pool.queue.length + s.owed.length * size

variable {start : α → ρ} {size capacity : Nat} {s t : Course α ρ} {event : Event α ρ}

/-- One of several numbers is lowered by one. -/
theorem sum_set_pred {l : List Nat} {i n : Nat} (h : l[i]? = some (n + 1)) :
    (l.set i n).sum + 1 = l.sum := by
  have hset := sum_set (n := n) h
  omega

/-- **Whatever happens, the permits are where they should be.** The cases are those of an event: a
move is followed by the lemmas above, to stop adds as many permits to be posted as there are to be
workers, and to release posts one of them. -/
theorem Sound.step (h : Sound size capacity s) (hstep : Step start s event t) :
    Sound size capacity t := by
  cases hstep with
  -- a worker's step, or a connection put into the queue
  | @move _ taker r hmove =>
    obtain ⟨hsize, hstopping, hcapacity⟩ := hmove.frame
    have hposts := hmove.posts
    refine ⟨hmove.attentive h.attentive, hsize.trans h.size_eq, hcapacity.trans h.capacity_eq,
      hmove.crew h.crew, hmove.bounded h.bounded, fun hgoing => ?_, fun left hleft => ?_, ?_⟩
    · obtain ⟨hbalanced, howed⟩ := h.going (hstopping.symm.trans hgoing)
      exact ⟨hmove.balanced hbalanced, howed⟩
    · cases hstop : s.pool.stopping with
      | false =>
        obtain ⟨-, howed⟩ := h.going hstop
        exact absurd (howed ▸ hleft) List.not_mem_nil
      | true =>
        have henough := h.enough left hleft
        have hmore := hmove.enough hstop
        dsimp only at hsize ⊢
        omega
    · have hcounted := h.counted
      dsimp only
      omega
  -- the stop itself posts nothing; it is owed one permit for each worker
  | stop =>
    refine { h with
      attentive := { h.attentive with }
      going := ?_
      enough := fun left hleft => ?_
      counted := ?_ }
    · rintro ⟨⟩
    · rcases List.mem_append.mp hleft with hleft | hleft
      · exact h.enough left hleft
      · rw [List.mem_singleton.mp hleft]
        exact Nat.le_add_right ..
    · have hcounted := h.counted
      have hsize := h.size_eq
      simp only [List.sum_append, List.sum_singleton, List.length_append, List.length_singleton,
        Nat.add_mul, Nat.one_mul, Traffic.permits, Pool.stop] at hcounted ⊢
      omega
  -- one of the permits owed is posted
  | @release call left choice howed =>
    have hmem : left + 1 ∈ s.owed := List.mem_of_getElem? howed
    refine { h with
      attentive := h.attentive.post choice, going := fun hgoing => ?_,
      enough := fun other hother => ?_, counted := ?_ }
    · obtain ⟨-, hnil⟩ := h.going hgoing
      exact absurd (hnil ▸ hmem) List.not_mem_nil
    · simp only [post, Semaphore.post]
      rcases List.mem_or_eq_of_mem_set hother with hother | rfl
      · have henough := h.enough other hother
        omega
      · have henough := h.enough _ hmem
        omega
    · have hcounted := h.counted
      have hsum := sum_set_pred howed
      simp only [Traffic.permits, post, Semaphore.post, List.length_set] at hcounted ⊢
      omega

/-- What every event keeps, a run keeps. -/
theorem Sound.run {events : List (Event α ρ)} (h : Sound size capacity s)
    (hrun : s.run start events = some t) : Sound size capacity t := by
  induction events generalizing s with
  | nil =>
    obtain rfl := Option.some.inj hrun
    exact h
  | cons event events ih =>
    obtain ⟨r, hstep, hrest⟩ := run_cons hrun
    exact ih (h.step hstep) hrest

/-- A pool that has been set up. -/
theorem sound_new (size capacity : Nat) :
    Sound size capacity ({ pool := { size, capacity } } : Course α ρ) where
  attentive := ⟨fun _ hasleep => absurd hasleep List.not_mem_nil, List.nodup_nil, .inl rfl⟩
  size_eq := rfl
  capacity_eq := rfl
  crew := Nat.zero_le _
  bounded := Nat.zero_le _
  going := fun _ => ⟨⟨rfl, rfl, Nat.zero_le _, rfl, rfl⟩, rfl⟩
  enough := fun _ hleft => absurd hleft List.not_mem_nil
  counted := Nat.zero_le _

/-- No worker has come to its end unless the pool has been told to stop. -/
def Loyal (s : Course α ρ) : Prop := .exited ∈ s.pool.workers → s.pool.stopping = true

/-- A worker comes to its end only where it sees that it is to stop. -/
theorem Loyal.step (h : s.Loyal) (hstep : Step start s event t) : t.Loyal := by
  -- a worker turns to something that is not its end
  have hset : ∀ {i : Nat} {w : Worker ρ}, w ≠ .exited → .exited ∈ s.pool.workers.set i w →
      s.pool.stopping = true :=
    fun hw hmem => h ((List.mem_or_eq_of_mem_set hmem).resolve_right fun heq => hw heq.symm)
  intro hmem
  cases hstep with
  | @move _ _ r hmove =>
    rw [hmove.frame.2.1]
    cases hmove with
    | spawn =>
      rcases List.mem_append.mp hmem with hmem | hmem
      · exact h hmem
      · cases List.mem_singleton.mp hmem
    | work hwork =>
      cases hwork with
      | sleep => exact h hmem
      | exit _ hstop => exact hstop
      | pass | look | miss | take => exact hset (by rintro ⟨⟩) hmem
    | handle | finish => exact hset (by rintro ⟨⟩) hmem
    | _ => exact h hmem
  | stop => rfl
  | release => exact h hmem

/-- What every event keeps of loyalty, a run keeps. -/
theorem Loyal.run {events : List (Event α ρ)} (h : s.Loyal) (hrun : s.run start events = some t) :
    t.Loyal := by
  induction events generalizing s with
  | nil =>
    obtain rfl := Option.some.inj hrun
    exact h
  | cons event events ih =>
    obtain ⟨r, hstep, hrest⟩ := run_cons hrun
    exact ih (h.step hstep) hrest

/-! ## What is left in the queue

After the stop a worker takes an item only if it had looked before, so the items taken are a first
part of those that waited. -/

/-- What has become of the items since the pool was told to stop, in the state `s₀`: `late` lists
the workers that have taken one, and `fresh` what was accepted. The queue is cut at the front by
the one and goes on behind with the other, and the middle never changes. -/
structure Remainder (s₀ : Course α ρ) (late : List Nat) (fresh : List α) (s : Course α ρ) :
    Prop where
  stopping : s.pool.stopping = true
  takers : s.takers = s₀.takers ++ late
  taken : s.taken = s₀.taken ++ s₀.pool.queue.take late.length
  queue : s.pool.queue = s₀.pool.queue.drop late.length ++ fresh
  accepted : s.accepted = s₀.accepted ++ fresh
  once : late.Nodup
  /-- who has taken an item was about to, and is not about to take another -/
  looked : ∀ i ∈ late, s₀.pool.workers[i]? = some .fetching ∧ s.pool.workers[i]? ≠ some .fetching
  /-- who is about to take an item was about to from the start -/
  still : ∀ i : Nat, s.pool.workers[i]? = some .fetching → s₀.pool.workers[i]? = some .fetching
  counted : fetching s.pool.workers + late.length = fetching s₀.pool.workers
  /-- there was an item for each of them -/
  found : fetching s₀.pool.workers ≤ s₀.pool.queue.length

namespace Remainder

variable {s₀ : Course α ρ} {late : List Nat} {fresh : List α} {i : Nat}

/-- What remains is counted from the moment at which the pool is told to stop. -/
theorem begin (h : Sound size capacity s) (hgoing : s.pool.stopping = false) :
    Remainder s [] [] { s with pool := s.pool.stop, owed := s.owed ++ [s.pool.size] } := by
  obtain ⟨hbalanced, -⟩ := h.going hgoing
  have hcounted := hbalanced.counted
  have hle : fetching s.pool.workers ≤ holding s.pool.workers := fetching_le_holding
  exact {
    stopping := rfl
    takers := (List.append_nil _).symm
    taken := (List.append_nil _).symm
    queue := (List.append_nil _).symm
    accepted := (List.append_nil _).symm
    once := List.nodup_nil
    looked := fun _ hmem => absurd hmem List.not_mem_nil
    still := fun _ hw => hw
    counted := rfl
    found := by omega }

/-- A worker that is not about to take an item turns to something else, and not to that. -/
theorem turn (h : Remainder s₀ late fresh s) {v w : Worker ρ} (hv : s.pool.workers[i]? = some v)
    (hfrom : v.fetches = false) (hto : w.fetches = false) {available : Semaphore} :
    Remainder s₀ late fresh
      { s with pool := { s.pool with available }.setWorker i w } := by
  have hcount := fetching_set (w := w) hv
  have hcounted := h.counted
  rw [hfrom, hto] at hcount
  refine { h with
    looked := fun j hj => ⟨(h.looked j hj).1, fun hw => ?_⟩
    still := fun j hw => h.still j ((fetching_set_iff hto).mp hw).2
    counted := ?_ }
  · exact (h.looked j hj).2 ((fetching_set_iff hto).mp hw).2
  · simp only [workers_setWorker]
    omega

/-- Who is about to take an item finds one. -/
theorem queue_ne_nil (h : Remainder s₀ late fresh s) (hw : s.pool.workers[i]? = some .fetching) :
    ∃ first, s₀.pool.queue[late.length]? = some first ∧
      s.pool.queue = first :: (s₀.pool.queue.drop (late.length + 1) ++ fresh) := by
  have hpos := fetching_pos hw
  have hlt : late.length < s₀.pool.queue.length := by
    have hcounted := h.counted
    have hfound := h.found
    omega
  refine ⟨s₀.pool.queue[late.length], List.getElem?_eq_getElem hlt, ?_⟩
  rw [h.queue, List.drop_eq_getElem_cons hlt, List.cons_append]

/-- A worker takes an item. -/
theorem take (h : Remainder s₀ late fresh s) {first : α} {rest : List α} {progress : ρ}
    (hw : s.pool.workers[i]? = some .fetching) (hq : s.pool.queue = first :: rest) :
    Remainder s₀ (late ++ [i]) fresh
      { s with
        pool := { s.pool with queue := rest }.setWorker i (.busy progress)
        taken := s.taken ++ [first]
        takers := s.takers ++ [i] } := by
  obtain ⟨first', hget, hq'⟩ := h.queue_ne_nil hw
  obtain ⟨rfl, rfl⟩ := List.cons.inj (hq.symm.trans hq')
  have hnew : i ∉ late := fun hmem => (h.looked i hmem).2 hw
  have hcount := fetching_set (w := .busy progress) hw
  simp only [Worker.fetches, Bool.toNat_true, Bool.toNat_false] at hcount
  refine { h with
    takers := ?_, taken := ?_, queue := ?_, once := ?_, looked := fun j hj => ?_,
    still := fun j hwj => h.still j ((fetching_set_iff rfl).mp hwj).2, counted := ?_ }
  · rw [h.takers, List.append_assoc]
  · rw [h.taken, List.append_assoc, List.length_append, List.length_singleton, List.take_add_one,
      hget, Option.toList_some]
  · rw [List.length_append, List.length_singleton]
    rfl
  · exact List.nodup_append.mpr ⟨h.once, List.pairwise_singleton .., by
      rintro a ha b hb rfl
      exact hnew (List.mem_singleton.mp hb ▸ ha)⟩
  · rcases List.mem_append.mp hj with hj | hj
    · exact ⟨(h.looked j hj).1, fun hwj => (h.looked j hj).2 ((fetching_set_iff rfl).mp hwj).2⟩
    · obtain rfl := List.mem_singleton.mp hj
      exact ⟨h.still j hw, fun hwj => ((fetching_set_iff rfl).mp hwj).1 rfl⟩
  · have hcounted := h.counted
    simp only [workers_setWorker, List.length_append, List.length_singleton]
    omega

/-- A worker takes an item and joins those who were late, or takes none. -/
theorem work (h : Remainder s₀ late fresh s) {item : Option α} {q : Pool α ρ}
    (hstep : WorkerStep start s.pool i item q) :
    ∃ late fresh, Remainder s₀ late fresh
      { s with
        pool := q
        taken := s.taken ++ item.toList
        takers := s.takers ++ (item.map fun _ => i).toList } := by
  cases hstep with
  | pass hw =>
    refine ⟨late, fresh, ?_⟩
    simpa using h.turn hw rfl rfl
  | sleep =>
    refine ⟨late, fresh, ?_⟩
    simpa using { h with }
  | look _ hgoing =>
    rw [h.stopping] at hgoing
    cases hgoing
  | exit hw =>
    refine ⟨late, fresh, ?_⟩
    simpa using h.turn hw rfl rfl
  | miss hw hq =>
    obtain ⟨_, -, hq'⟩ := h.queue_ne_nil hw
    rw [hq] at hq'
    cases hq'
  | take hw hq => exact ⟨late ++ [i], fresh, h.take hw hq⟩

/-- **What remains goes on to remain**, whatever happens. -/
theorem step (h : Remainder s₀ late fresh s) (hstep : Step start s event t) :
    ∃ late fresh, Remainder s₀ late fresh t := by
  cases hstep with
  | @move move taker r hmove =>
    cases hmove with
    | spawn =>
      have hcount : fetching s.pool.spawn.workers = fetching s.pool.workers := by
        simp [Pool.spawn, fetching, Worker.fetches]
      exact ⟨late, fresh, { h with
        takers := (List.append_nil _).trans h.takers
        looked := fun i hi =>
          ⟨(h.looked i hi).1, fun hw => (h.looked i hi).2 (fetching_append_iff.mp hw)⟩
        still := fun i hw => h.still i (fetching_append_iff.mp hw)
        counted := hcount ▸ h.counted }⟩
    -- items put in behind the stop lie behind everything that was queued at it
    | accept item =>
      refine ⟨late, fresh ++ [item], { h with takers := ?_, queue := ?_, accepted := ?_ }⟩
      · exact (List.append_nil _).trans h.takers
      · simp only [h.queue, List.append_assoc]
      · simp only [h.accepted, List.append_assoc]
    | work hstep => exact h.work hstep
    | handle next hw =>
      refine ⟨late, fresh, ?_⟩
      simpa using h.turn hw rfl rfl
    | finish hw =>
      refine ⟨late, fresh, ?_⟩
      simpa using h.turn hw rfl rfl
    | _ => exact ⟨late, fresh, { h with takers := (List.append_nil _).trans h.takers }⟩
  | stop => exact ⟨late, fresh, { h with stopping := rfl }⟩
  | release => exact ⟨late, fresh, { h with }⟩

/-- **What remains goes on to remain** all through a run, by induction on its events. -/
theorem run {events : List (Event α ρ)} (h : Remainder s₀ late fresh s)
    (hrun : s.run start events = some t) : ∃ late fresh, Remainder s₀ late fresh t := by
  induction events generalizing s late fresh with
  | nil =>
    obtain rfl := Option.some.inj hrun
    exact ⟨late, fresh, h⟩
  | cons event events ih =>
    obtain ⟨r, hstep, hrest⟩ := run_cons hrun
    obtain ⟨late, fresh, h⟩ := h.step hstep
    exact ih h hrest

end Remainder

/-! ## After a shutdown has returned

No more permits are owed, so there is one for every worker that waits, and none of them has far to
go. -/

/-- A shutdown has posted all of its permits. -/
def Returned (s : Course α ρ) : Prop := 0 ∈ s.owed

/-- What a shutdown has posted stays posted. -/
theorem Returned.step (h : Returned s) (hstep : Step start s event t) : Returned t := by
  cases hstep with
  | move => exact h
  | stop => exact List.mem_append_left _ h
  | @release call left choice howed =>
    obtain ⟨i, hi⟩ := List.mem_iff_getElem?.mp h
    have hne : call ≠ i := by
      rintro rfl
      rw [hi] at howed
      cases howed
    exact List.mem_iff_getElem?.mpr ⟨i, (List.getElem?_set_ne hne).trans hi⟩

namespace Sound

variable {i : Nat}

/-- The pool has been told to stop before. -/
theorem stopping (h : Sound size capacity s) (hreturned : s.Returned) : s.pool.stopping = true := by
  by_contra hgoing
  obtain ⟨-, hnil⟩ := h.going (Bool.eq_false_iff.mpr hgoing)
  rw [Returned, hnil] at hreturned
  cases hreturned

/-- There is a permit for each worker that waits. -/
theorem idle_le (h : Sound size capacity s) (hreturned : s.Returned) :
    idle s.pool.workers ≤ s.pool.available.permits := by
  have henough := h.enough 0 hreturned
  have hcrew := h.crew
  have hdisjoint : idle s.pool.workers + parting s.pool.workers ≤ s.pool.workers.length :=
    idle_add_parting_le
  omega

/-- Nobody sleeps. -/
theorem awake (h : Sound size capacity s) (hreturned : s.Returned) :
    s.pool.available.asleep = [] := by
  have hidle := h.idle_le hreturned
  refine h.attentive.noticed.elim id fun hnoticed => List.eq_nil_of_length_eq_zero ?_
  omega

/-- A worker that waits takes a permit when it looks. -/
theorem passes (h : Sound size capacity s) (hreturned : s.Returned)
    (hw : s.pool.workers[i]? = some .waiting) : ∃ n, s.pool.available.permits = n + 1 :=
  Nat.exists_eq_succ_of_ne_zero
    (Nat.ne_of_gt (Nat.lt_of_lt_of_le (idle_pos hw) (h.idle_le hreturned)))

/-- No worker is stuck: it has come to its end, is at an item, or can take a step. -/
theorem proceeds (h : Sound size capacity s) (hreturned : s.Returned)
    (hi : i < s.pool.workers.length) :
    s.pool.workers[i]? = some .exited ∨ s.pool.isBusy i = true ∨
      (s.pool.workerStep start i).isSome = true := by
  obtain ⟨w, hw⟩ : ∃ w, s.pool.workers[i]? = some w := ⟨_, List.getElem?_eq_getElem hi⟩
  cases w with
  | waiting =>
    obtain ⟨n, hn⟩ := h.passes hreturned hw
    right; right
    simp [workerStep, hw, Semaphore.look?, h.awake hreturned, hn]
  | permitted => exact .inr (.inr (by simp [workerStep, hw]))
  | fetching =>
    right; right
    cases hq : s.pool.queue <;> simp [workerStep, hw, hq]
  | busy progress => exact .inr (.inl (isBusy_iff.mpr ⟨progress, hw⟩))
  | exited => exact .inl hw

/-- A worker comes one step closer to its end with each step, and what others do does not put it
off: the permit that it is going to find is not taken by more workers than there are permits. -/
theorem stepsLeft (h : Sound size capacity s) (hreturned : s.Returned)
    (hstep : Step start s event t) (i : Nat) :
    Worker.stepsLeft t.pool.workers[i]? + (if event.isStepOf i then 1 else 0) ≤
      Worker.stepsLeft s.pool.workers[i]? := by
  cases hstep with
  | @move move taker r hmove =>
    cases hmove with
    | spawn =>
      simp only [Event.isStepOf, Bool.false_eq_true, if_false, Nat.add_zero, Pool.spawn]
      rcases Nat.lt_or_ge i s.pool.workers.length with hlt | hge
      · exact Nat.le_of_eq (congrArg _ (List.getElem?_append_left hlt))
      · rw [List.getElem?_append_right hge, List.getElem?_eq_none hge, List.getElem?_singleton]
        split <;> exact Nat.le_refl _
    | work hwork =>
      simp only [Event.isStepOf, decide_eq_true_eq]
      cases hwork with
      | pass hw => exact stepsLeft_set hw (Nat.le_refl 2) i
      -- nobody sleeps any more: there is a permit for every worker that would wait
      | sleep hw _ hnone =>
        obtain ⟨n, hn⟩ := h.passes hreturned hw
        rw [hnone] at hn
        cases hn
      | look _ hgoing =>
        rw [h.stopping hreturned] at hgoing
        cases hgoing
      | exit hw => exact stepsLeft_set hw (Nat.le_refl 1) i
      | miss hw => exact stepsLeft_set hw (Nat.le_succ 3) i
      | take hw => exact stepsLeft_set hw (Nat.le_refl 4) i
    | handle next hw =>
      have hle := stepsLeft_set (n := 0) (w := .busy next) hw (Nat.le_refl 3) i
      rwa [ite_self] at hle
    | finish hw =>
      simp only [Event.isStepOf, decide_eq_true_eq]
      exact stepsLeft_set hw (Nat.le_refl 3) i
    | _ => exact Nat.le_refl _
  | stop => exact Nat.le_refl _
  | release => exact Nat.le_refl _

/-- A worker takes no more steps than are left, by induction on the run. -/
theorem run_stepsLeft {events : List (Event α ρ)} (h : Sound size capacity s)
    (hreturned : s.Returned) (hrun : s.run start events = some t) (i : Nat) :
    Worker.stepsLeft t.pool.workers[i]? + events.countP (·.isStepOf i) ≤
      Worker.stepsLeft s.pool.workers[i]? := by
  induction events generalizing s with
  | nil =>
    obtain rfl := Option.some.inj hrun
    exact Nat.le_refl _
  | cons event events ih =>
    obtain ⟨r, hstep, hrest⟩ := run_cons hrun
    have hfirst := h.stepsLeft hreturned hstep i
    have hothers := ih (h.step hstep) (hreturned.step hstep) hrest
    rw [List.countP_cons]
    omega

end Sound

/-! ## Items that are under way

A worker that has an item finishes it, stop or no stop. -/

/-- A worker that is at an item stays at it until it is done with it. -/
theorem Step.busy {i : Nat} (hstep : Step start s event t) (hbusy : s.pool.isBusy i = true) :
    t.pool.isBusy i = true ∨ event = .move (.finish i) := by
  obtain ⟨progress, hw⟩ := isBusy_iff.mp hbusy
  -- what another worker turns to does not matter
  have hother : ∀ {j : Nat} {w : Worker ρ}, j ≠ i →
      (s.pool.workers.set j w)[i]? = some (.busy progress) :=
    fun hne => (List.getElem?_set_ne hne).trans hw
  cases hstep with
  | @move move taker r hmove =>
    cases hmove with
    | spawn =>
      obtain ⟨hlt, -⟩ := List.getElem?_eq_some_iff.mp hw
      exact .inl (isBusy_iff.mpr ⟨progress, (List.getElem?_append_left hlt).trans hw⟩)
    | work hwork =>
      left
      refine isBusy_iff.mpr ⟨progress, ?_⟩
      cases hwork with
      | sleep => exact hw
      | pass hv | look hv | exit hv | miss hv | take hv =>
        refine hother ?_
        rintro rfl
        rw [hw] at hv
        cases hv
    | @handle j _ next hv =>
      left
      rcases eq_or_ne j i with rfl | hne
      · exact isBusy_iff.mpr ⟨next, List.getElem?_set_self (List.getElem?_eq_some_iff.mp hv).1⟩
      · exact isBusy_iff.mpr ⟨progress, hother hne⟩
    | @finish j _ hv =>
      rcases eq_or_ne j i with rfl | hne
      · exact .inr rfl
      · exact .inl (isBusy_iff.mpr ⟨progress, hother hne⟩)
    | _ => exact .inl hbusy
  | stop => exact .inl hbusy
  | release => exact .inl hbusy

/-- A worker that is at an item is at it until a run has a step in which it is done with it. -/
theorem run_busy {i : Nat} {events : List (Event α ρ)} (hrun : s.run start events = some t)
    (hbusy : s.pool.isBusy i = true) :
    t.pool.isBusy i = true ∨ .move (.finish i) ∈ events := by
  induction events generalizing s with
  | nil =>
    obtain rfl := Option.some.inj hrun
    exact .inl hbusy
  | cons event events ih =>
    obtain ⟨r, hstep, hrest⟩ := run_cons hrun
    rcases hstep.busy hbusy with hbusy | rfl
    · exact (ih hrest hbusy).imp_right (List.mem_cons_of_mem _)
    · exact .inr List.mem_cons_self

/-! ## Shutting down -/

/-- What becomes of a pool that is told to stop in one state and has come to another by some
events. -/
structure ShutsDown (start : α → ρ) (size capacity : Nat) (s : Course α ρ)
    (events : List (Event α ρ)) (t : Course α ρ) : Prop where
  /-- a worker takes at most one more item, and only if it had looked before; these are the items
  that had waited longest, and all others, as well as those that have been accepted since, still
  wait -/
  remains : ∃ late fresh, late.Nodup ∧ (∀ i ∈ late, s.pool.workers[i]? = some .fetching) ∧
    t.takers = s.takers ++ late ∧ t.taken = s.taken ++ s.pool.queue.take late.length ∧
    t.pool.queue = s.pool.queue.drop late.length ++ fresh ∧ t.accepted = s.accepted ++ fresh
  /-- an item that was accepted was taken or waits -/
  inOrder : t.accepted = t.taken ++ t.pool.queue
  /-- a worker that was at an item stays at it until it is done with it -/
  finishes : ∀ i, s.pool.isBusy i = true → t.pool.isBusy i = true ∨ .move (.finish i) ∈ events
  /-- once a shutdown has returned, there is a permit for each worker that waits, and none sleeps -/
  released : t.Returned →
    idle t.pool.workers ≤ t.pool.available.permits ∧ t.pool.available.asleep = []
  /-- each worker that has not come to its end is then at an item, or can go on -/
  proceeds : t.Returned → ∀ i < t.pool.workers.length,
    t.pool.workers[i]? = some .exited ∨ t.pool.isBusy i = true ∨
      (t.pool.workerStep start i).isSome = true
  /-- and whatever else happens, it takes no more steps than are left to it -/
  ends : t.Returned → ∀ more u, t.run start more = some u → ∀ i,
    Worker.stepsLeft u.pool.workers[i]? + more.countP (·.isStepOf i) ≤
      Worker.stepsLeft t.pool.workers[i]?
  /-- permits do not outgrow the items that may wait and those of the shutdowns -/
  counted : t.permits + t.owed.sum ≤ capacity + t.owed.length * size

end Course

/-- **No worker is left behind.** However submits, shutdowns and workers interleave, and however
many of the workers have been started: from the moment at which the pool is told to stop, a worker
takes at most one more item, and only if it had looked before, finishes the item it is at, and all
other items stay in the queue; once a shutdown has returned, no worker waits for a permit that is
not there, and each comes to its end in at most four steps, of which one is that it is done with its
item. -/
theorem shutdown_releases {start : α → ρ} {size capacity itemBytes : Nat} {p : Pool α ρ}
    {s t : Course α ρ} {before after : List (Event α ρ)}
    (hcreate : create size capacity itemBytes = .ok p)
    (hbefore : Course.run start { pool := p } before = some s)
    (hgoing : s.pool.stopping = false)
    (hafter : Course.run start s (.stop :: after) = some t) :
    s.ShutsDown start size capacity after t := by
  obtain rfl := create_eq_ok hcreate
  have hs := (Course.sound_new size capacity).run hbefore
  have ht := hs.run hafter
  obtain ⟨hbalanced, -⟩ := hs.going hgoing
  obtain ⟨_, hstop, hrest⟩ := Course.run_cons hafter
  cases hstop
  obtain ⟨late, fresh, hremainder⟩ := (Course.Remainder.begin hs hgoing).run hrest
  exact {
    remains := ⟨late, fresh, hremainder.once, fun i hi => (hremainder.looked i hi).1,
      hremainder.takers, hremainder.taken, hremainder.queue, hremainder.accepted⟩
    inOrder := by
      rw [hremainder.accepted, hbalanced.order, hremainder.taken, hremainder.queue]
      rw [List.append_assoc, List.append_assoc, ← List.append_assoc (List.take ..),
        List.take_append_drop]
    finishes := fun i hbusy => Course.run_busy hrest hbusy
    released := fun hreturned => ⟨ht.idle_le hreturned, ht.awake hreturned⟩
    proceeds := fun hreturned i hi => ht.proceeds hreturned hi
    ends := fun hreturned more u hmore i => ht.run_stepsLeft hreturned hmore i
    counted := by
      have hcounted := ht.counted
      have hbounded := ht.bounded
      rw [ht.capacity_eq] at hbounded
      omega }

/-- Two of three workers have been started. One is at an item, and the other has looked whether to
stop and is about to take the second of three. -/
def beforeShutdown : List (Event Nat Nat) :=
  [.move .spawn, .move .spawn, .move (.put 7), .move (.announce 0), .move (.put 8),
    .move (.announce 0), .move (.work 0), .move (.work 0), .move (.work 0), .move (.work 1),
    .move (.work 1), .move (.put 9)]

/-- One more item is accepted while the permits are posted, and both workers come to their end. -/
def duringShutdown : List (Event Nat Nat) :=
  [.release 0 0, .move (.announce 0), .move (.work 1), .move (.put 10), .release 0 0,
    .move (.finish 0), .move (.work 0), .release 0 0, .move (.work 0), .move (.finish 1),
    .move (.work 1), .move (.work 1)]

/-- The pool when it is told to stop. -/
def partlyStarted : Course Nat Nat where
  pool := {
    size := 3, capacity := 2, queue := [8, 9], workers := [.busy 7, .fetching] }
  announcing := 1
  accepted := [7, 8, 9]
  taken := [7]
  takers := [0]

/-- The pool when it has been shut down. -/
def shutDown : Course Nat Nat where
  pool := {
    size := 3, capacity := 2, queue := [9, 10], stopping := true
    available := { permits := 2 }, workers := [.exited, .exited] }
  announcing := 1
  accepted := [7, 8, 9, 10]
  taken := [7, 8]
  takers := [0, 1]
  owed := [0]

/-- The worker that had looked before takes the second item, and the third stays in the queue;
both workers come to their end, and the permit of the third, which was never started, is left. -/
theorem shutdown_releases_partly_started :
    Course.run id { pool := { size := 3, capacity := 2 } } beforeShutdown = some partlyStarted ∧
      Course.run id partlyStarted (.stop :: duringShutdown) = some shutDown ∧
      partlyStarted.ShutsDown id 3 2 duringShutdown shutDown := by
  have hcreate : create 3 2 4 = .ok ({ size := 3, capacity := 2 } : Pool Nat Nat) := rfl
  have hbefore : Course.run id { pool := { size := 3, capacity := 2 } } beforeShutdown =
      some partlyStarted := rfl
  have hafter : Course.run id partlyStarted (.stop :: duringShutdown) = some shutDown := rfl
  exact ⟨hbefore, hafter, shutdown_releases hcreate hbefore rfl hafter⟩

end Pool

end FileServer
