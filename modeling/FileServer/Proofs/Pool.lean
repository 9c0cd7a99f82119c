import FileServer.Pool
import Mathlib.Algebra.BigOperators.Group.List.Basic
import Mathlib.Algebra.GroupWithZero.Nat
import Mathlib.Data.List.Perm.Subperm

/-!
# What a pool delivers

Any number of threads submit to a pool while its workers run. A submit puts its item into the queue
and only then announces it, and a worker takes a permit and only then an item, so permits and items
do not agree at every moment. They agree once those are counted who are in between
(`Traffic.Balanced`): each item that waits is announced by a permit that is left, is what a worker
with a permit is about to take, or is about to be announced by the submit that put it there.

A permit that is left is never overlooked by all: as long as somebody sleeps, there are at least as
many workers awake that have yet to look (`Attentive`). So when all of them sleep, no permit is
left, and with nobody in between no item is (`delivery`).
-/

namespace FileServer

/-- A thread that sleeps wakes up, though nobody has posted. -/
def Semaphore.rouse (s : Semaphore) (thread : Nat) : Semaphore :=
  { s with asleep := s.asleep.erase thread }

/-- A thread that is awake takes a permit. -/
theorem Semaphore.look?_eq_passed {s t : Semaphore} {i : Nat} (h : s.look? i = some (.passed t)) :
    i ∉ s.asleep ∧ ∃ n, s.permits = n + 1 ∧ t = { s with permits := n } := by
  unfold look? at h
  split at h
  · cases h
  · next hawake =>
    split at h
    · cases h
    · next n hn => exact ⟨hawake, n, hn, (Look.passed.inj (Option.some.inj h)).symm⟩

/-- A thread that is awake falls asleep, as there is no permit. -/
theorem Semaphore.look?_eq_slept {s t : Semaphore} {i : Nat} (h : s.look? i = some (.slept t)) :
    i ∉ s.asleep ∧ s.permits = 0 ∧ t = { s with asleep := s.asleep ++ [i] } := by
  unfold look? at h
  split at h
  · cases h
  · next hawake =>
    split at h
    · next hn => exact ⟨hawake, hn, (Look.slept.inj (Option.some.inj h)).symm⟩
    · cases h

/-- The worker waits for a permit, awake or asleep. -/
def Worker.waits {ρ : Type} (w : Worker ρ) : Bool := w matches .waiting

/-- The worker has a permit and has not taken an item for it. -/
def Worker.holds {ρ : Type} (w : Worker ρ) : Bool := w matches .permitted | .fetching

namespace Pool

variable {α ρ : Type}

/-! ## Counting workers

What a worker does changes its own entry, and so each count by what that entry counted before and
counts afterwards. -/

/-- How many workers wait for a permit, awake or asleep. Those that sleep are among them, so this
bounds how many can sleep. -/
def idle (workers : List (Worker ρ)) : Nat := workers.countP Worker.waits

/-- How many workers have a permit and have not taken an item for it. -/
def holding (workers : List (Worker ρ)) : Nat := workers.countP Worker.holds

section Counting

variable {workers : List (Worker ρ)} {i : Nat} {v w : Worker ρ}

/-- A worker that turns from one thing to another is no longer counted with those that do the first,
and is counted with those that do the second. -/
theorem countP_set (f : Worker ρ → Bool) (hv : workers[i]? = some v) :
    (workers.set i w).countP f + (f v).toNat = workers.countP f + (f w).toNat := by
  obtain ⟨hi, hv⟩ := List.getElem?_eq_some_iff.mp hv
  have hcount : f v = true → 0 < workers.countP f :=
    fun h => List.countP_pos_iff.mpr ⟨v, hv ▸ List.getElem_mem hi, h⟩
  rw [List.countP_set hi, hv]
  cases hf : f v <;> cases f w <;>
    simp only [hf, Bool.toNat_true, Bool.toNat_false, if_true, if_false,
    Bool.false_eq_true, forall_const] at hcount ⊢
  all_goals omega

/-- One of several numbers is changed. -/
theorem sum_set {l : List Nat} {m n : Nat} (h : l[i]? = some m) :
    (l.set i n).sum + m = l.sum + n := by
  induction l generalizing i with
  | nil => cases h
  | cons first l ih =>
    cases i with
    | zero =>
      obtain rfl := Option.some.inj h
      simp only [List.set_cons_zero, List.sum_cons]
      omega
    | succ i =>
      have hrest := ih h
      simp only [List.set_cons_succ, List.sum_cons]
      omega

theorem idle_set (hv : workers[i]? = some v) :
    idle (workers.set i w) + v.waits.toNat = idle workers + w.waits.toNat :=
  countP_set Worker.waits hv

theorem holding_set (hv : workers[i]? = some v) :
    holding (workers.set i w) + v.holds.toNat = holding workers + w.holds.toNat :=
  countP_set Worker.holds hv

theorem holding_pos (hv : workers[i]? = some v) (hholds : v.holds = true) : 0 < holding workers :=
  List.countP_pos_iff.mpr ⟨v, List.mem_of_getElem? hv, hholds⟩

/-- Workers that are told apart and wait are no more than those that wait. -/
theorem length_le_idle {l : List Nat} (hnodup : l.Nodup)
    (hwait : ∀ i ∈ l, workers[i]? = some .waiting) : l.length ≤ idle workers := by
  induction l generalizing workers with
  | nil => exact Nat.zero_le _
  | cons i l ih =>
    obtain ⟨hi, hnodup⟩ := List.nodup_cons.mp hnodup
    have hfirst := hwait i List.mem_cons_self
    -- the first of them is taken away, and the others still wait
    have hrest : l.length ≤ idle (workers.set i .exited) := by
      refine ih hnodup fun j hj => ?_
      have hne : i ≠ j := by
        rintro rfl
        exact hi hj
      rw [List.getElem?_set_ne hne]
      exact hwait j (List.mem_cons_of_mem _ hj)
    have hidle := idle_set (w := .exited) hfirst
    simp only [Worker.waits, Bool.toNat_true, Bool.toNat_false] at hidle
    rw [List.length_cons]
    omega

end Counting

@[simp] theorem workers_setWorker (p : Pool α ρ) (i : Nat) (w : Worker ρ) :
    (p.setWorker i w).workers = p.workers.set i w := rfl

@[simp] theorem queue_setWorker (p : Pool α ρ) (i : Nat) (w : Worker ρ) :
    (p.setWorker i w).queue = p.queue := rfl

@[simp] theorem available_setWorker (p : Pool α ρ) (i : Nat) (w : Worker ρ) :
    (p.setWorker i w).available = p.available := rfl

/-- Whether a worker is at an item. -/
def isBusy (p : Pool α ρ) (i : Nat) : Bool := p.workers[i]? matches some (.busy _)

/-- Being busy is to have an item and some progress with it. -/
theorem isBusy_iff {p : Pool α ρ} {i : Nat} :
    p.isBusy i = true ↔ ∃ progress, p.workers[i]? = some (.busy progress) := by
  unfold isBusy
  constructor
  · intro h
    split at h
    · exact ⟨_, ‹_›⟩
    · cases h
  · rintro ⟨progress, h⟩
    rw [h]

/-! ## What a worker does

The steps of a worker as an inductive type, and that it has no others. A worker takes a permit or
falls asleep, looks whether to stop, and takes an item or finds none. -/

/-- The steps of a worker, each with the item that is taken. -/
inductive WorkerStep (start : α → ρ) (p : Pool α ρ) (i : Nat) : Option α → Pool α ρ → Prop
  /-- it takes a permit -/
  | pass {n : Nat} : p.workers[i]? = some .waiting → i ∉ p.available.asleep →
    p.available.permits = n + 1 →
    WorkerStep start p i none
      ({ p with available := { p.available with permits := n } }.setWorker i .permitted)
  /-- it falls asleep, as there is no permit -/
  | sleep : p.workers[i]? = some .waiting → i ∉ p.available.asleep → p.available.permits = 0 →
    WorkerStep start p i none
      { p with available := { p.available with asleep := p.available.asleep ++ [i] } }
  /-- it sees that it is not to stop -/
  | look : p.workers[i]? = some .permitted → p.stopping = false →
    WorkerStep start p i none (p.setWorker i .fetching)
  /-- it sees that it is to stop, and comes to its end -/
  | exit : p.workers[i]? = some .permitted → p.stopping = true →
    WorkerStep start p i none (p.setWorker i .exited)
  /-- it finds no item -/
  | miss : p.workers[i]? = some .fetching → p.queue = [] →
    WorkerStep start p i none (p.setWorker i .waiting)
  /-- it takes the oldest item -/
  | take {first : α} {rest : List α} : p.workers[i]? = some .fetching → p.queue = first :: rest →
    WorkerStep start p i (some first)
      ({ p with queue := rest }.setWorker i (.busy (start first)))

/-- **What a step of a worker can be.** All that is proved of workers goes by these cases, and
none of it opens the definition again. -/
theorem workerStep_cases {start : α → ρ} {p q : Pool α ρ} {i : Nat} {item : Option α}
    (h : p.workerStep start i = some (item, q)) : WorkerStep start p i item q := by
  unfold workerStep at h
  split at h
  · next hw =>
    split at h
    · next hlook =>
      obtain ⟨hawake, n, hn, rfl⟩ := Semaphore.look?_eq_passed hlook
      obtain ⟨rfl, rfl⟩ := Prod.mk.inj (Option.some.inj h)
      exact .pass hw hawake hn
    · next hlook =>
      obtain ⟨hawake, hn, rfl⟩ := Semaphore.look?_eq_slept hlook
      obtain ⟨rfl, rfl⟩ := Prod.mk.inj (Option.some.inj h)
      exact .sleep hw hawake hn
    · cases h
  · next hw =>
    obtain ⟨rfl, rfl⟩ := Prod.mk.inj (Option.some.inj h)
    split
    · next hstop => exact .exit hw hstop
    · next hgoing => exact .look hw (Bool.eq_false_iff.mpr hgoing)
  · next hw =>
    split at h
    · next hq =>
      obtain ⟨rfl, rfl⟩ := Prod.mk.inj (Option.some.inj h)
      exact .miss hw hq
    · next first rest hq =>
      obtain ⟨rfl, rfl⟩ := Prod.mk.inj (Option.some.inj h)
      exact .take hw hq
  · cases h

/-- Each of the cases does happen where its conditions are met. -/
theorem WorkerStep.eq_some {start : α → ρ} {p q : Pool α ρ} {i : Nat} {item : Option α}
    (h : WorkerStep start p i item q) : p.workerStep start i = some (item, q) := by
  cases h with
  | pass hw hawake hn => simp only [workerStep, hw, Semaphore.look?, if_neg hawake, hn]
  | sleep hw hawake hn => simp only [workerStep, hw, Semaphore.look?, if_neg hawake, hn]
  | look hw hgoing => simp only [workerStep, hw, hgoing, Bool.false_eq_true, if_false]
  | exit hw hstop => simp only [workerStep, hw, hstop, if_true]
  | miss hw hq => simp only [workerStep, hw, hq]
  | take hw hq => simp only [workerStep, hw, hq]

/-! ## Attention

Workers fall asleep only when they find no permit, and whoever posts one wakes a sleeper up. So
permits that are left are matched by workers who are awake and will look. -/

/-- The workers that sleep do wait, and if one does, then a permit that is left will be seen by
another that waits and is awake. The last field is the condition that counts: with `n` permits
left and somebody asleep, at least `n` of those who wait are awake. -/
structure Attentive (p : Pool α ρ) : Prop where
  waiting : ∀ i ∈ p.available.asleep, p.workers[i]? = some .waiting
  once : p.available.asleep.Nodup
  noticed : p.available.asleep = [] ∨
    p.available.permits + p.available.asleep.length ≤ idle p.workers

namespace Attentive

variable {p : Pool α ρ} {i : Nat}

/-- A worker that is started waits, and is awake. -/
theorem spawn (h : p.Attentive) : p.spawn.Attentive where
  waiting i hi := by
    have hw := h.waiting i hi
    obtain ⟨hlt, -⟩ := List.getElem?_eq_some_iff.mp hw
    exact (List.getElem?_append_left hlt).trans hw
  once := h.once
  noticed := by
    have hnew : idle p.spawn.workers = idle p.workers + 1 := by
      simp [Pool.spawn, idle, Worker.waits]
    exact h.noticed.imp_right fun hle => hnew ▸ Nat.le_succ_of_le hle

/-- A post wakes one of the sleepers, so the permit it adds will be seen. -/
theorem post (h : p.Attentive) (choice : Nat) : (p.post choice).Attentive := by
  have hsub : (p.post choice).available.asleep.Sublist p.available.asleep :=
    List.eraseIdx_sublist ..
  refine ⟨fun i hi => h.waiting i (hsub.subset hi), h.once.sublist hsub, ?_⟩
  rcases h.noticed with hnone | hnoticed
  · left
    exact List.sublist_nil.mp (hnone ▸ hsub)
  · rcases Nat.eq_zero_or_pos p.available.asleep.length with hzero | hpos
    · left
      exact List.sublist_nil.mp (List.eq_nil_of_length_eq_zero hzero ▸ hsub)
    · right
      have hchoice := Nat.mod_lt choice hpos
      simp only [Pool.post, Semaphore.post, List.length_eraseIdx, if_pos hchoice]
      omega

/-- A worker that does not wait turns to something else. -/
theorem turn {v w : Worker ρ} (h : p.Attentive) (hv : p.workers[i]? = some v)
    (hwaits : v.waits = false) : (p.setWorker i w).Attentive where
  waiting j hj := by
    have hw := h.waiting j hj
    have hne : i ≠ j := by
      rintro rfl
      rw [hv] at hw
      obtain rfl := Option.some.inj hw
      cases hwaits
    exact (List.getElem?_set_ne hne).trans hw
  once := h.once
  noticed := by
    have hidle := idle_set (w := w) hv
    rw [hwaits, Bool.toNat_false] at hidle
    refine h.noticed.imp_right fun hle => ?_
    simp only [workers_setWorker, available_setWorker]
    omega

/-- **A worker's step keeps attention.** One that takes a permit leaves one permit fewer and one
fewer that waits; one that falls asleep does so only where there is no permit to be overlooked. -/
theorem work {start : α → ρ} {item : Option α} {q : Pool α ρ} (h : p.Attentive)
    (hstep : WorkerStep start p i item q) : q.Attentive := by
  cases hstep with
  | @pass n hw hawake hn =>
    have hidle := idle_set (w := .permitted) hw
    simp only [Worker.waits, Bool.toNat_true, Bool.toNat_false] at hidle
    refine ⟨fun j hj => ?_, h.once, ?_⟩
    · have hne : i ≠ j := by
        rintro rfl
        exact hawake hj
      exact (List.getElem?_set_ne hne).trans (h.waiting j hj)
    · refine h.noticed.imp_right fun hle => ?_
      simp only [workers_setWorker, available_setWorker]
      omega
  -- a worker sleeps only with no permits left, so none is overlooked
  | sleep hw hawake hn =>
    have hwaiting : ∀ j ∈ p.available.asleep ++ [i], p.workers[j]? = some .waiting := by
      intro j hj
      rcases List.mem_append.mp hj with hj | hj
      · exact h.waiting j hj
      · rw [List.mem_singleton.mp hj]
        exact hw
    have honce : (p.available.asleep ++ [i]).Nodup :=
      List.nodup_append.mpr ⟨h.once, List.pairwise_singleton .., by
        rintro a ha b hb rfl
        exact hawake (List.mem_singleton.mp hb ▸ ha)⟩
    refine ⟨hwaiting, honce, .inr ?_⟩
    dsimp only
    rw [hn, Nat.zero_add]
    exact length_le_idle honce hwaiting
  | look hw => exact h.turn hw rfl
  | exit hw => exact h.turn hw rfl
  | miss hw => exact h.turn hw rfl
  | take hw => exact { h.turn hw rfl with }

/-- Waking up for no reason adds to those who are awake. -/
theorem rouse (h : p.Attentive) (i : Nat) :
    Attentive { p with available := p.available.rouse i } := by
  have hsub : (p.available.asleep.erase i).Sublist p.available.asleep := List.erase_sublist
  refine ⟨fun j hj => h.waiting j (hsub.subset hj), h.once.sublist hsub, ?_⟩
  rcases h.noticed with hnone | hnoticed
  · left
    exact List.sublist_nil.mp (hnone ▸ hsub)
  · right
    exact Nat.le_trans (Nat.add_le_add_left hsub.length_le _) hnoticed

/-- When all workers sleep, no permit is left. -/
theorem permits_eq_zero (h : p.Attentive) (hsome : p.workers ≠ [])
    (hasleep : ∀ i < p.workers.length, i ∈ p.available.asleep) :
    p.available.permits = 0 := by
  have hpos := List.length_pos_iff.mpr hsome
  have hne : p.available.asleep ≠ [] := List.ne_nil_of_mem (hasleep 0 hpos)
  have hnoticed := h.noticed.resolve_left hne
  have hidle : idle p.workers ≤ p.workers.length := List.countP_le_length
  have hall : p.workers.length ≤ p.available.asleep.length := by
    have hsub : List.range p.workers.length ⊆ p.available.asleep :=
      fun i hi => hasleep i (List.mem_range.mp hi)
    have hle := (List.nodup_range.subperm hsub).length_le
    rwa [List.length_range] at hle
  omega

/-- When all workers sleep, none of them has a permit: those who sleep wait, and who waits has
none. -/
theorem holding_eq_zero (h : p.Attentive)
    (hasleep : ∀ i < p.workers.length, i ∈ p.available.asleep) :
    holding p.workers = 0 := by
  refine List.countP_eq_zero.mpr fun w hw => ?_
  obtain ⟨i, hi, rfl⟩ := List.getElem_of_mem hw
  have hwaiting := h.waiting i (hasleep i hi)
  rw [List.getElem?_eq_getElem hi] at hwaiting
  rw [Option.some.inj hwaiting]
  exact Bool.false_ne_true

end Attentive

/-! ## Traffic

Submits and workers interleave at the grain of single steps: to put an item into the queue and to
announce it are two, and so are to take a permit and to take an item. -/

/-- A pool to which any number of threads submit while its workers run, together with what has
become of the items so far. -/
structure Traffic (α ρ : Type) where
  pool : Pool α ρ
  /-- how many submits have put an item into the queue and not announced it yet -/
  announcing : Nat := 0
  /-- the items that were accepted, the oldest first -/
  accepted : List α := []
  /-- the items that workers have taken, the one taken first first -/
  taken : List α := []

/-- What may happen next to a pool, but that it is told to stop. -/
inductive Move (α ρ : Type)
  /-- one more worker is started -/
  | spawn
  /-- a submit puts its item into the queue, or finds the queue full -/
  | put (item : α)
  /-- a submit announces its item; the number chooses the sleeper that is woken -/
  | announce (choice : Nat)
  /-- a worker takes a permit, falls asleep, looks whether to stop or takes an item -/
  | work (i : Nat)
  /-- a worker goes on with its item -/
  | handle (i : Nat) (progress : ρ)
  /-- a worker is done with its item -/
  | finish (i : Nat)
  /-- a worker that sleeps wakes up, though nobody has posted -/
  | rouse (i : Nat)

namespace Traffic

/-- A submit puts its item into the queue. The result tells whether it was accepted. -/
def put (s : Traffic α ρ) (item : α) : Except ServerError Unit × Traffic α ρ :=
  match s.pool.push item with
  | .error e => (.error e, s)
  | .ok pool =>
    (.ok (), { s with pool, announcing := s.announcing + 1, accepted := s.accepted ++ [item] })

/-- The state after a move, if that is possible. `start` is where a worker begins with an item. -/
def perform? (start : α → ρ) (s : Traffic α ρ) : Move α ρ → Option (Traffic α ρ)
  | .spawn =>
    if s.pool.workers.length < s.pool.size then some { s with pool := s.pool.spawn } else none
  | .put item => some (s.put item).2
  | .announce choice =>
    match s.announcing with
    | 0 => none
    | announcing + 1 => some { s with pool := s.pool.post choice, announcing }
  | .work i =>
    (s.pool.workerStep start i).map fun (item, pool) =>
      { s with pool, taken := s.taken ++ item.toList }
  | .handle i progress =>
    if s.pool.isBusy i then some { s with pool := s.pool.setWorker i (.busy progress) } else none
  | .finish i => if s.pool.isBusy i then some { s with pool := s.pool.finish i } else none
  | .rouse i =>
    some { s with pool := { s.pool with available := s.pool.available.rouse i } }

/-- The state after some moves, if they are possible. -/
def run (start : α → ρ) (s : Traffic α ρ) : List (Move α ρ) → Option (Traffic α ρ)
  | [] => some s
  | move :: moves => (s.perform? start move).bind fun s => s.run start moves

/-! ## Items and permits

The balance, kept by every move, and what it says once nobody is in between. -/

/-- The items that wait, and the permits and those in between that account for them. The equation
holds at every moment, in the middle of a submit and between a worker's permit and its item, which
is where the number of items and that of permits differ. -/
structure Balanced (capacity : Nat) (s : Traffic α ρ) : Prop where
  going : s.pool.stopping = false
  capacity_eq : s.pool.capacity = capacity
  bounded : s.pool.queue.length ≤ capacity
  order : s.accepted = s.taken ++ s.pool.queue
  counted :
    s.pool.queue.length = s.pool.available.permits + holding s.pool.workers + s.announcing

variable {start : α → ρ} {capacity : Nat} {s t : Traffic α ρ} {i : Nat}

/-- A submit is accepted where the queue is not full. -/
theorem put_of_room (h : s.pool.queue.length < s.pool.capacity) (item : α) :
    s.put item = (.ok (), { s with
      pool := { s.pool with queue := s.pool.queue ++ [item] }
      announcing := s.announcing + 1
      accepted := s.accepted ++ [item] }) := by
  simp only [put, push, if_neg (Nat.not_le_of_lt h)]

/-- A submit is refused where the queue is full, and changes nothing. -/
theorem put_of_full (h : s.pool.capacity ≤ s.pool.queue.length) (item : α) :
    s.put item = (.error .queueFull, s) := by
  simp only [put, push, if_pos h]

/-! ### Balance -/

namespace Balanced

/-- A worker that is started has no permit, and leaves the queue alone. -/
theorem spawn (h : Balanced capacity s) : Balanced capacity { s with pool := s.pool.spawn } := by
  refine { h with counted := ?_ }
  have hnew : holding s.pool.spawn.workers = holding s.pool.workers := by
    simp [Pool.spawn, holding, Worker.holds]
  dsimp only
  rw [hnew]
  exact h.counted

/-- A submit that is accepted has put one item more into the queue, and is one more that is about
to announce. -/
theorem accept (h : Balanced capacity s) (hroom : s.pool.queue.length < s.pool.capacity)
    (item : α) :
    Balanced capacity { s with
      pool := { s.pool with queue := s.pool.queue ++ [item] }
      announcing := s.announcing + 1
      accepted := s.accepted ++ [item] } := by
  refine { h with bounded := ?_, order := ?_, counted := ?_ }
  · rw [List.length_append, List.length_singleton, ← h.capacity_eq]
    exact hroom
  · rw [h.order, List.append_assoc]
  · rw [List.length_append, List.length_singleton, h.counted]
    exact Nat.add_assoc ..

/-- To announce an item is to turn a submit that is about to announce into a permit. -/
theorem announce (h : Balanced capacity s) {n : Nat} (hn : s.announcing = n + 1) (choice : Nat) :
    Balanced capacity { s with pool := s.pool.post choice, announcing := n } := by
  refine { h with counted := ?_ }
  have hcounted := h.counted
  simp only [post, Semaphore.post]
  omega

/-- What a worker with a permit is about to take is there. -/
theorem queue_ne_nil (h : Balanced capacity s) {w : Worker ρ}
    (hw : s.pool.workers[i]? = some w) (hholds : w.holds = true) : s.pool.queue ≠ [] := by
  intro hnil
  have hpos := holding_pos hw hholds
  have hcounted := h.counted
  rw [hnil, List.length_nil] at hcounted
  omega

/-- A worker turns from one thing to another, and has a permit neither before nor after. -/
theorem turn (h : Balanced capacity s) {v w : Worker ρ} (hv : s.pool.workers[i]? = some v)
    (hholds : v.holds = w.holds) :
    Balanced capacity { s with pool := s.pool.setWorker i w } := by
  have hholding := holding_set (w := w) hv
  refine { h with counted := ?_ }
  have hcounted := h.counted
  simp only [workers_setWorker, queue_setWorker, available_setWorker]
  rw [hholds] at hholding
  omega

/-- A worker turns a permit that is left into one that it has, and that one into an item that it
has taken. What it takes is the oldest of what waits, which keeps the items in their order. -/
theorem work (h : Balanced capacity s) {item : Option α} {q : Pool α ρ}
    (hstep : WorkerStep start s.pool i item q) :
    Balanced capacity { s with pool := q, taken := s.taken ++ item.toList } := by
  have hcounted := h.counted
  cases hstep with
  | pass hw _ hn =>
    -- one permit less, and one more worker that has one
    have hholding := holding_set (w := .permitted) hw
    simp only [Worker.holds, Bool.toNat_true, Bool.toNat_false] at hholding
    refine { h with order := by simpa using h.order, counted := ?_ }
    simp only [workers_setWorker, queue_setWorker, available_setWorker]
    omega
  | sleep => exact { h with order := by simpa using h.order }
  | look hw =>
    have hturn := h.turn (w := .fetching) hw rfl
    exact { hturn with order := by simpa using h.order }
  | exit _ hstop =>
    rw [h.going] at hstop
    cases hstop
  | miss hw hq => exact absurd hq (h.queue_ne_nil hw rfl)
  | @take first rest hw hq =>
    -- one item less, and one worker less that has a permit
    have hholding := holding_set (w := .busy (start first)) hw
    simp only [Worker.holds, Bool.toNat_true, Bool.toNat_false] at hholding
    have hbounded := h.bounded
    rw [hq, List.length_cons] at hbounded hcounted
    refine { h with bounded := ?_, order := ?_, counted := ?_ }
    · exact Nat.le_of_succ_le hbounded
    · simpa [hq] using h.order
    · simp only [workers_setWorker, queue_setWorker, available_setWorker]
      omega

/-- A submit that is about to announce its item can: permits do not run out of numbers. -/
theorem canPost (h : Balanced capacity s) (hannouncing : 0 < s.announcing)
    (hcapacity : capacity ≤ Semaphore.maxPermits) : s.pool.available.canPost = true := by
  have hcounted := h.counted
  have hbounded := h.bounded
  exact decide_eq_true (by omega)

end Balanced

/-! ### Moves and runs -/

/-- The worker that takes an item by a move. -/
def taker? (start : α → ρ) (s : Traffic α ρ) : Move α ρ → Option Nat
  | .work i => (s.pool.workerStep start i).bind fun (item, _) => item.map fun _ => i
  | _ => none

/-- What comes of a move, and who takes an item by it. -/
inductive Performs (start : α → ρ) (s : Traffic α ρ) : Move α ρ → Option Nat → Traffic α ρ → Prop
  | spawn : s.pool.workers.length < s.pool.size →
    Performs start s .spawn none { s with pool := s.pool.spawn }
  | accept (item : α) : s.pool.queue.length < s.pool.capacity →
    Performs start s (.put item) none { s with
      pool := { s.pool with queue := s.pool.queue ++ [item] }
      announcing := s.announcing + 1
      accepted := s.accepted ++ [item] }
  | refuse (item : α) : s.pool.capacity ≤ s.pool.queue.length →
    Performs start s (.put item) none s
  | announce {n : Nat} (choice : Nat) : s.announcing = n + 1 →
    Performs start s (.announce choice) none { s with pool := s.pool.post choice, announcing := n }
  | work {i : Nat} {item : Option α} {q : Pool α ρ} : WorkerStep start s.pool i item q →
    Performs start s (.work i) (item.map fun _ => i)
      { s with pool := q, taken := s.taken ++ item.toList }
  | handle {i : Nat} {progress : ρ} (next : ρ) : s.pool.workers[i]? = some (.busy progress) →
    Performs start s (.handle i next) none { s with pool := s.pool.setWorker i (.busy next) }
  | finish {i : Nat} {progress : ρ} : s.pool.workers[i]? = some (.busy progress) →
    Performs start s (.finish i) none { s with pool := s.pool.setWorker i .waiting }
  | rouse (i : Nat) :
    Performs start s (.rouse i) none
      { s with pool := { s.pool with available := s.pool.available.rouse i } }

/-- What a move can be, along with who takes an item by it. -/
theorem perform?_cases {move : Move α ρ} (h : s.perform? start move = some t) :
    Performs start s move (s.taker? start move) t := by
  cases move with
  | spawn =>
    simp only [perform?] at h
    split at h
    · next hlt =>
      obtain rfl := Option.some.inj h
      exact .spawn hlt
    · cases h
  -- there is room, or the item is handed back
  | put item =>
    obtain rfl := Option.some.inj h
    rcases Nat.lt_or_ge s.pool.queue.length s.pool.capacity with hroom | hfull
    · rw [put_of_room hroom]
      exact .accept item hroom
    · rw [put_of_full hfull]
      exact .refuse item hfull
  | announce choice =>
    simp only [perform?] at h
    split at h
    · cases h
    · next n hn =>
      obtain rfl := Option.some.inj h
      exact .announce choice hn
  | work i =>
    obtain ⟨⟨item, q⟩, hstep, rfl⟩ := Option.map_eq_some_iff.mp h
    have htaker : s.taker? start (.work i) = item.map fun _ => i := by
      simp only [taker?, hstep, Option.bind_some]
    exact htaker ▸ .work (workerStep_cases hstep)
  | handle i progress =>
    simp only [perform?] at h
    split at h
    · next hbusy =>
      obtain ⟨_, hw⟩ := isBusy_iff.mp hbusy
      obtain rfl := Option.some.inj h
      exact .handle progress hw
    · cases h
  | finish i =>
    simp only [perform?] at h
    split at h
    · next hbusy =>
      obtain ⟨_, hw⟩ := isBusy_iff.mp hbusy
      obtain rfl := Option.some.inj h
      exact .finish hw
    · cases h
  | rouse i =>
    obtain rfl := Option.some.inj h
    exact .rouse i

/-- Each of these does happen, so the two descriptions of a move agree. -/
theorem Performs.eq_some {move : Move α ρ} {taker : Option Nat}
    (h : Performs start s move taker t) :
    s.perform? start move = some t ∧ s.taker? start move = taker := by
  cases h with
  | spawn hlt => exact ⟨if_pos hlt, rfl⟩
  | accept item hroom => exact ⟨by rw [perform?, put_of_room hroom], rfl⟩
  | refuse item hfull => exact ⟨by rw [perform?, put_of_full hfull], rfl⟩
  | announce choice hn => exact ⟨by simp only [perform?, hn], rfl⟩
  | work hstep =>
    simp only [perform?, taker?, hstep.eq_some, Option.map_some, Option.bind_some, and_self]
  | handle next hw => exact ⟨if_pos (isBusy_iff.mpr ⟨_, hw⟩), rfl⟩
  | finish hw => exact ⟨if_pos (isBusy_iff.mpr ⟨_, hw⟩), rfl⟩
  | rouse i => exact ⟨rfl, rfl⟩

/-- Attention is kept by every move. It does not depend on whether the pool is told to stop. -/
theorem Performs.attentive {move : Move α ρ} {taker : Option Nat}
    (h : Performs start s move taker t) (ha : s.pool.Attentive) : t.pool.Attentive := by
  cases h with
  | spawn => exact ha.spawn
  | accept => exact { ha with }
  | refuse => exact ha
  | announce choice => exact ha.post choice
  | work hstep => exact ha.work hstep
  | handle next hw => exact ha.turn hw rfl
  | finish hw => exact ha.turn hw rfl
  | rouse i => exact ha.rouse i

/-- **Every move keeps the balance.** -/
theorem Performs.balanced {move : Move α ρ} {taker : Option Nat}
    (h : Performs start s move taker t) (hb : Balanced capacity s) : Balanced capacity t := by
  cases h with
  | spawn => exact hb.spawn
  | accept item hroom => exact hb.accept hroom item
  | refuse => exact hb
  | announce choice hn => exact hb.announce hn choice
  | work hstep => exact hb.work hstep
  | handle next hw => exact hb.turn hw rfl
  | finish hw => exact hb.turn hw rfl
  | rouse => exact { hb with }

/-- What every move keeps, a run keeps; by induction on its moves. -/
theorem run_preserves {moves : List (Move α ρ)} (hb : Balanced capacity s) (ha : s.pool.Attentive)
    (h : s.run start moves = some t) : Balanced capacity t ∧ t.pool.Attentive := by
  induction moves generalizing s with
  | nil =>
    obtain rfl := Option.some.inj h
    exact ⟨hb, ha⟩
  | cons move moves ih =>
    obtain ⟨r, hstep, hrest⟩ := Option.bind_eq_some_iff.mp h
    have hperforms := perform?_cases hstep
    exact ih (hperforms.balanced hb) (hperforms.attentive ha) hrest

/-! ### Delivery -/

/-- What a pool that may hold so many items does with them. The clauses are what those who submit,
those who write workers and those who look after a pool may rely on, and all of them follow from
the balance and from attention. -/
structure Delivers (start : α → ρ) (capacity : Nat) (s : Traffic α ρ) : Prop where
  /-- no more items wait than may -/
  bounded : s.pool.queue.length ≤ capacity
  /-- a submit is refused just where as many items wait as may -/
  refused : ∀ item, (s.put item).1 = .error .queueFull ↔ s.pool.queue.length = capacity
  /-- a submit that fails has been refused so, and changes nothing -/
  unchanged : ∀ item e, (s.put item).1 = .error e → e = .queueFull ∧ (s.put item).2 = s
  /-- the items that were taken are the first that were accepted, each once and in their order -/
  inOrder : s.accepted = s.taken ++ s.pool.queue
  /-- an item waits for each worker that has a permit -/
  finds : holding s.pool.workers ≤ s.pool.queue.length
  /-- a worker that is about to take an item takes the oldest that waits -/
  takes : ∀ i, s.pool.workers[i]? = some .fetching → ∃ first rest, s.pool.queue = first :: rest ∧
    s.pool.workerStep start i =
      some (some first, { s.pool with queue := rest }.setWorker i (.busy (start first)))
  /-- no item waits when all workers sleep and no submit is about to announce one -/
  stranded : s.announcing = 0 → s.pool.workers ≠ [] →
    (∀ i < s.pool.workers.length, i ∈ s.pool.available.asleep) → s.pool.queue = []

/-- From the invariants to what they are for. Refusal and acceptance come from the bound, order
from the way the queue is written, and that nothing is left behind from both invariants
together. -/
theorem Balanced.delivers (hb : Balanced capacity s) (ha : s.pool.Attentive) :
    Delivers start capacity s where
  bounded := hb.bounded
  refused item := by
    rcases Nat.lt_or_ge s.pool.queue.length s.pool.capacity with hroom | hfull
    · rw [put_of_room hroom, ← hb.capacity_eq]
      exact ⟨by rintro ⟨⟩, fun heq => absurd heq (Nat.ne_of_lt hroom)⟩
    · rw [put_of_full hfull]
      exact ⟨fun _ => Nat.le_antisymm hb.bounded (hb.capacity_eq ▸ hfull), fun _ => rfl⟩
  unchanged item e he := by
    rcases Nat.lt_or_ge s.pool.queue.length s.pool.capacity with hroom | hfull
    · rw [put_of_room hroom] at he
      cases he
    · rw [put_of_full hfull] at he ⊢
      obtain rfl := Except.error.inj he
      exact ⟨rfl, rfl⟩
  inOrder := hb.order
  finds := by
    have hcounted := hb.counted
    omega
  takes i hw := by
    have hne := hb.queue_ne_nil hw rfl
    obtain ⟨first, rest, hq⟩ := List.exists_cons_of_ne_nil hne
    exact ⟨first, rest, hq, by simp only [workerStep, hw, hq]⟩
  stranded hsubmits hsome hasleep := by
    have hcounted := hb.counted
    rw [ha.permits_eq_zero hsome hasleep, ha.holding_eq_zero hasleep, hsubmits] at hcounted
    exact List.eq_nil_of_length_eq_zero hcounted

end Traffic

/-- A pool that has been set up holds nothing, and nobody sleeps. -/
theorem create_eq_ok {size capacity itemBytes : Nat} {p : Pool α ρ}
    (h : create size capacity itemBytes = .ok p) : p = { size, capacity } := by
  unfold create at h
  split at h
  · cases h
  · split at h
    · cases h
    · split at h
      · cases h
      · exact (Except.ok.inj h).symm

/-- **What a pool delivers.** However the submits and the workers interleave, until the pool is told
to stop, no more items wait than may, a submit is refused just where the queue is full, items are
taken in the order in which they were accepted, a worker with a permit finds an item, and no item is
left behind when all workers sleep. -/
theorem delivery {start : α → ρ} {size capacity itemBytes : Nat} {p : Pool α ρ} {s : Traffic α ρ}
    {moves : List (Move α ρ)} (hcreate : create size capacity itemBytes = .ok p)
    (hrun : Traffic.run start { pool := p } moves = some s) : s.Delivers start capacity := by
  obtain rfl := create_eq_ok hcreate
  have hbalanced : Traffic.Balanced capacity
      ({ pool := { size, capacity } } : Traffic α ρ) :=
    ⟨rfl, rfl, Nat.zero_le _, rfl, rfl⟩
  have hattentive : Attentive ({ size, capacity } : Pool α ρ) :=
    ⟨fun _ hasleep => absurd hasleep List.not_mem_nil, List.nodup_nil, .inl rfl⟩
  obtain ⟨hbalanced, hattentive⟩ := Traffic.run_preserves hbalanced hattentive hrun
  exact hbalanced.delivers hattentive

/-- The only worker sleeps; an item is put into the queue, which is full then, so that another is
refused; a third is accepted while the worker is at the first. The worker handles both and
sleeps. -/
def twoItems : List (Move Nat Nat) :=
  [.spawn, .work 0, .put 7, .put 8, .announce 0, .work 0, .work 0, .work 0, .put 9, .announce 0,
    .finish 0, .work 0, .work 0, .work 0, .finish 0, .work 0]

/-- What has become of it. -/
def afterTwoItems : Traffic Nat Nat where
  pool := { size := 1, capacity := 1, available := { asleep := [0] }, workers := [.waiting] }
  accepted := [7, 9]
  taken := [7, 9]

/-- In the run above the bound is reached, a submit is refused, and both items arrive, in their
order. -/
theorem delivery_two_items :
    Traffic.run id { pool := { size := 1, capacity := 1 } } twoItems = some afterTwoItems ∧
      afterTwoItems.Delivers id 1 := by
  have hcreate : create 1 1 4 = .ok ({ size := 1, capacity := 1 } : Pool Nat Nat) := rfl
  have hrun : Traffic.run id { pool := { size := 1, capacity := 1 } } twoItems =
      some afterTwoItems := rfl
  exact ⟨hrun, delivery hcreate hrun⟩

end Pool

end FileServer
