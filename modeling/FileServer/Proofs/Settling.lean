import FileServer.Proofs.Pool

/-!
# Letting the workers go on

While nobody submits, workers go on until each of them sleeps, is at an item, or has come to its
end. `Pool.settle` lets them, in one of the orders that there are (`Pool.Traffic.run_settle`). Each
of their steps takes something off what they have yet to do before that
(`Pool.WorkerStep.effort_lt`), so the number of steps that is allowed is enough, and nobody can go
on any more in the end (`Pool.settle_still`).

Then no item waits while a worker is free for it (`Pool.Traffic.Balanced.not_waiting`).
-/

namespace FileServer

/-- How many steps a worker takes at most until it waits for a permit again and sleeps, is at an
item, or has come to its end. -/
def Worker.effort {ρ : Type} : Worker ρ → Nat
  | .permitted => 3
  | .fetching => 2
  | .waiting => 1
  | .busy _ | .exited => 0

namespace Pool

variable {α ρ : Type} {start : α → ρ} {p q : Pool α ρ} {i : Nat} {item : Option α}

/-! ## Workers that cannot go on

Where a worker stands that has no step to take. -/

/-- A worker that cannot go on by itself sleeps, is at an item, or has come to its end. -/
theorem workerStep_eq_none {w : Worker ρ} (hw : p.workers[i]? = some w) :
    p.workerStep start i = none ↔
      w = .waiting ∧ i ∈ p.available.asleep ∨ (∃ progress, w = .busy progress) ∨ w = .exited := by
  cases w with
  | waiting =>
    by_cases hasleep : i ∈ p.available.asleep
    · simp [workerStep, hw, Semaphore.look?, hasleep]
    · cases hpermits : p.available.permits <;>
        simp [workerStep, hw, Semaphore.look?, hasleep, hpermits]
  | permitted => simp [workerStep, hw]
  | fetching => cases hqueue : p.queue <;> simp [workerStep, hw, hqueue]
  | busy progress => simp [workerStep, hw]
  | exited => simp [workerStep, hw]

theorem workerStep_of_length_le (hi : p.workers.length ≤ i) : p.workerStep start i = none := by
  simp only [workerStep, List.getElem?_eq_none hi]

/-- There is no first worker that can go on just if none of them can. -/
theorem firstStep_eq_none {n : Nat} :
    p.firstStep start n = none ↔ ∀ i < n, p.workerStep start i = none := by
  induction n with
  | zero => simp [firstStep]
  | succ n ih =>
    rw [firstStep, Option.or_eq_none_iff, ih]
    exact ⟨fun ⟨hfirst, hlast⟩ i hi => (Nat.lt_succ_iff_lt_or_eq.mp hi).elim (hfirst i) (· ▸ hlast),
      fun hall => ⟨fun i hi => hall i (Nat.lt_succ_of_lt hi), hall n (Nat.lt_succ_self n)⟩⟩

/-- The first that can go on is one of them. -/
theorem exists_of_firstStep {n : Nat} (h : p.firstStep start n = some (item, q)) :
    ∃ i, p.workerStep start i = some (item, q) := by
  induction n with
  | zero => cases h
  | succ n ih =>
    rcases Option.or_eq_some_iff.mp h with hfirst | ⟨-, hlast⟩
    · exact ih hfirst
    · exact ⟨n, hlast⟩

/-! ## What is left to do

Every step of a worker takes something off a sum over all workers. -/

/-- What all workers have yet to do. A permit that is left lets one of them take more steps, and
who sleeps takes none. It goes down with every step of a worker, which is why settling comes to an
end. -/
def effort (p : Pool α ρ) : Nat :=
  4 * p.available.permits + (p.workers.map Worker.effort).sum - p.available.asleep.length

theorem sum_effort_set {workers : List (Worker ρ)} {v w : Worker ρ} (hv : workers[i]? = some v) :
    ((workers.set i w).map Worker.effort).sum + v.effort =
      (workers.map Worker.effort).sum + w.effort := by
  rw [List.map_set]
  exact sum_set (by rw [List.getElem?_map, hv, Option.map_some])

/-- Each worker that waits has at least one step to take. -/
theorem idle_le_sum_effort (workers : List (Worker ρ)) :
    idle workers ≤ (workers.map Worker.effort).sum := by
  induction workers with
  | nil => exact Nat.le_refl 0
  | cons w workers ih =>
    rw [idle, List.countP_cons, ← idle, List.map_cons, List.sum_cons]
    cases w <;> simp only [Worker.waits, Worker.effort] <;> simp <;> omega

/-- No worker has more than three. -/
theorem sum_effort_le (workers : List (Worker ρ)) :
    (workers.map Worker.effort).sum ≤ 3 * workers.length := by
  induction workers with
  | nil => exact Nat.le_refl 0
  | cons w workers ih =>
    have hw : w.effort ≤ 3 := by cases w <;> simp only [Worker.effort] <;> omega
    rw [List.map_cons, List.sum_cons, List.length_cons]
    omega

/-- Those who sleep wait, so that what is taken off for them is there. -/
theorem Attentive.asleep_le (h : p.Attentive) :
    p.available.asleep.length ≤ (p.workers.map Worker.effort).sum :=
  Nat.le_trans (length_le_idle h.once h.waiting) (idle_le_sum_effort _)

/-- **Each step takes something off** what is left to do. -/
theorem WorkerStep.effort_lt (h : WorkerStep start p i item q) (hp : p.Attentive) :
    q.effort < p.effort := by
  have hle := hp.asleep_le
  have hle' := (hp.work h).asleep_le
  unfold effort
  cases h with
  | pass hw _ hn =>
    have hset := sum_effort_set (w := .permitted) hw
    simp only [Worker.effort, workers_setWorker, available_setWorker] at hset hle' ⊢
    omega
  -- its worker stays as it is; falling asleep is what lessens the effort
  | sleep =>
    simp only [List.length_append, List.length_singleton] at hle' ⊢
    omega
  | look hw =>
    have hset := sum_effort_set (w := .fetching) hw
    simp only [Worker.effort, workers_setWorker, available_setWorker] at hset hle' ⊢
    omega
  | exit hw =>
    have hset := sum_effort_set (w := .exited) hw
    simp only [Worker.effort, workers_setWorker, available_setWorker] at hset hle' ⊢
    omega
  | miss hw =>
    have hset := sum_effort_set (w := .waiting) hw
    simp only [Worker.effort, workers_setWorker, available_setWorker] at hset hle' ⊢
    omega
  | @take first _ hw =>
    have hset := sum_effort_set (w := .busy (start first)) hw
    simp only [Worker.effort, workers_setWorker, available_setWorker] at hset hle' ⊢
    omega

/-- A worker that is started has a step to take. -/
theorem effort_spawn_le (p : Pool α ρ) : p.spawn.effort ≤ p.effort + 1 := by
  simp only [effort, spawn, List.map_append, List.sum_append, List.map_singleton,
    List.sum_singleton, Worker.effort]
  omega

/-- A permit that is posted has a worker take four steps, or five if it slept. -/
theorem effort_post_le (p : Pool α ρ) (choice : Nat) : (p.post choice).effort ≤ p.effort + 5 := by
  have hone := p.available.asleep.le_length_eraseIdx (choice % p.available.asleep.length)
  simp only [effort, post, Semaphore.post]
  omega

/-- The number of steps that is allowed is no less than what is left to do. -/
theorem effort_le_stepBound (p : Pool α ρ) : p.effort ≤ p.stepBound := by
  have hle := sum_effort_le p.workers
  unfold effort stepBound
  omega

/-! ## Settling

To let the workers go on until none can, in one of the orders. -/

/-- As many steps as there is left to do are enough. The induction is on the steps: each that is
taken takes something off, and where none can be taken nobody can go on. -/
theorem settleFor_still {steps : Nat} (hp : p.Attentive) (hsteps : p.effort ≤ steps) (i : Nat) :
    (p.settleFor start steps).2.workerStep start i = none := by
  induction steps generalizing p with
  | zero =>
    rw [settleFor, Option.eq_none_iff_forall_ne_some]
    rintro ⟨item, q⟩ hstep
    have hlt : q.effort < p.effort := (workerStep_cases hstep).effort_lt hp
    omega
  | succ steps ih =>
    rw [settleFor]
    split
    · next hnone =>
      rcases Nat.lt_or_ge i p.workers.length with hlt | hge
      · exact firstStep_eq_none.mp hnone i hlt
      · exact workerStep_of_length_le hge
    · next item q hfirst =>
      obtain ⟨j, hstep⟩ := exists_of_firstStep hfirst
      have hwork := workerStep_cases hstep
      have hlt := hwork.effort_lt hp
      exact ih (hp.work hwork) (by omega)

/-- **The workers settle**: in the end nobody can go on. -/
theorem settle_still (hp : p.Attentive) (i : Nat) : (p.settle start).2.workerStep start i = none :=
  settleFor_still hp p.effort_le_stepBound i

namespace Traffic

variable {capacity : Nat} {s : Traffic α ρ}

/-- To let the workers take some steps is a run of the pool. -/
theorem run_settleFor (s : Traffic α ρ) (steps : Nat) : ∃ workers : List Nat,
    s.run start (workers.map .work) = some { s with
      pool := (s.pool.settleFor start steps).2
      taken := s.taken ++ (s.pool.settleFor start steps).1 } := by
  induction steps generalizing s with
  | zero => exact ⟨[], by rw [settleFor, List.append_nil]; rfl⟩
  | succ steps ih =>
    rw [settleFor]
    split
    · exact ⟨[], by rw [List.append_nil]; rfl⟩
    · next item q hfirst =>
      obtain ⟨i, hstep⟩ := exists_of_firstStep hfirst
      obtain ⟨workers, hrest⟩ := ih { s with pool := q, taken := s.taken ++ item.toList }
      refine ⟨i :: workers, ?_⟩
      rw [List.map_cons, run, perform?, hstep, Option.map_some, Option.bind_some, hrest]
      dsimp only
      rw [List.append_assoc]

/-- To let the workers settle is a run in which nobody else moves. -/
theorem run_settle (s : Traffic α ρ) : ∃ workers : List Nat,
    s.run start (workers.map .work) = some { s with
      pool := (s.pool.settle start).2
      taken := s.taken ++ (s.pool.settle start).1 } :=
  run_settleFor s s.pool.stepBound

end Traffic

/-- If all that wait for a permit sleep, then there are no more of them than sleepers. -/
theorem idle_le_length {workers : List (Worker ρ)} {asleep : List Nat}
    (h : ∀ i : Nat, workers[i]? = some .waiting → i ∈ asleep) : idle workers ≤ asleep.length := by
  induction asleep generalizing workers with
  | nil =>
    refine Nat.le_of_eq (List.countP_eq_zero.mpr fun w hmem hwaits => ?_)
    obtain ⟨i, hi⟩ := List.mem_iff_getElem?.mp hmem
    cases w with
    | waiting => cases h i hi
    | _ => cases hwaits
  | cons j asleep ih =>
    -- the first sleeper is taken away
    have hrest : idle (workers.set j .exited) ≤ asleep.length := by
      refine ih fun i hi => ?_
      have hne : j ≠ i := by
        rintro rfl
        rw [List.getElem?_set_self'] at hi
        cases hw : workers[j]? <;> simp [hw] at hi
      rw [List.getElem?_set_ne hne] at hi
      exact (List.mem_cons.mp (h i hi)).resolve_left hne.symm
    rw [List.length_cons]
    cases hw : workers[j]? with
    | none =>
      rw [List.set_eq_of_length_le (List.getElem?_eq_none_iff.mp hw)] at hrest
      omega
    | some w =>
      have hidle := idle_set (w := .exited) hw
      have hone : w.waits.toNat ≤ 1 := Bool.toNat_le _
      omega

/-- **No item waits while a worker is free**: when nobody can go on and no submit is about to
announce an item, an item waits only if every worker is at one. -/
theorem Traffic.Balanced.not_waiting {capacity : Nat} {s : Traffic α ρ} (hb : Balanced capacity s)
    (hp : s.pool.Attentive) (hstill : ∀ i, s.pool.workerStep start i = none)
    (hsubmits : s.announcing = 0) (hqueue : s.pool.queue ≠ []) (i : Nat) :
    s.pool.workers[i]? ≠ some .waiting := by
  intro hi
  have hasleep : ∀ j : Nat, s.pool.workers[j]? = some .waiting → j ∈ s.pool.available.asleep := by
    intro j hj
    rcases (workerStep_eq_none hj).mp (hstill j) with ⟨-, hasleep⟩ | ⟨_, hbusy⟩ | hexited
    · exact hasleep
    · cases hbusy
    · cases hexited
  -- nobody has a permit, and as somebody sleeps none is left
  have hholding : holding s.pool.workers = 0 := by
    refine List.countP_eq_zero.mpr fun w hmem hholds => ?_
    obtain ⟨j, hj⟩ := List.mem_iff_getElem?.mp hmem
    rcases (workerStep_eq_none hj).mp (hstill j) with ⟨rfl, -⟩ | ⟨_, rfl⟩ | rfl <;> cases hholds
  have hnoticed := hp.noticed.resolve_left (List.ne_nil_of_mem (hasleep i hi))
  have hidle := idle_le_length hasleep
  have hcounted := hb.counted
  have hpos := List.length_pos_iff.mpr hqueue
  omega

end Pool

end FileServer
