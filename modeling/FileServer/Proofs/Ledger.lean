import Mathlib.Data.List.Basic
import Mathlib.Data.Set.Insert

/-!
# A ledger of descriptors

What a program does to descriptors, in order: it opens them, uses them and closes them. A ledger is
proper for what is held at its start if nothing is opened that is held already, and nothing is used
or closed that is not (`Ledger.Proper`). In a proper ledger every descriptor is closed as often as
it is opened, but for those held at the start and those still held at the end
(`Ledger.count_closed`), and what has been closed is neither used nor closed again before it is
opened again (`Ledger.Proper.once`).
-/

namespace FileServer

/-- What is done to a descriptor. -/
inductive Ledger.Entry
  /-- it is obtained -/
  | opened (descriptor : Int)
  /-- a call is made on it -/
  | used (descriptor : Int)
  /-- it is closed -/
  | closed (descriptor : Int)
  deriving DecidableEq, Repr

/-- What is done to descriptors, the first first. -/
abbrev Ledger := List Ledger.Entry

namespace Ledger

variable {held : Set Int} {l l' : Ledger} {d : Int}

/-- What is held after some entries. -/
def after (held : Set Int) : Ledger → Set Int
  | [] => held
  | .opened d :: rest => after (insert d held) rest
  | .used _ :: rest => after held rest
  | .closed d :: rest => after (held \ {d}) rest

/-- Only what is not held is opened, and only what is held is used and closed. -/
def Proper (held : Set Int) : Ledger → Prop
  | [] => True
  | .opened d :: rest => d ∉ held ∧ Proper (insert d held) rest
  | .used d :: rest => d ∈ held ∧ Proper held rest
  | .closed d :: rest => d ∈ held ∧ Proper (held \ {d}) rest

/-- What is held after two ledgers is what is held after the second, from what the first has
left. -/
theorem after_append (held : Set Int) (l l' : Ledger) :
    after held (l ++ l') = after (after held l) l' := by
  induction l generalizing held with
  | nil => rfl
  | cons entry rest ih =>
    cases entry with
    | opened d => exact ih _
    | used d => exact ih _
    | closed d => exact ih _

/-- A ledger that is cut in two is proper if its parts are, the second one for what the first has
left. By this the proof that a run is proper goes step by step. -/
theorem proper_append : Proper held (l ++ l') ↔ Proper held l ∧ Proper (after held l) l' := by
  induction l generalizing held with
  | nil => exact ⟨fun h => ⟨trivial, h⟩, fun h => h.2⟩
  | cons entry rest ih =>
    cases entry with
    | opened d => exact (and_congr_right fun _ => ih).trans and_assoc.symm
    | used d => exact (and_congr_right fun _ => ih).trans and_assoc.symm
    | closed d => exact (and_congr_right fun _ => ih).trans and_assoc.symm

open scoped Classical in
/-- How often a descriptor is held. -/
noncomputable def times (held : Set Int) (d : Int) : Nat := if d ∈ held then 1 else 0

theorem times_of_mem (h : d ∈ held) : times held d = 1 := if_pos h

theorem times_of_notMem (h : d ∉ held) : times held d = 0 := if_neg h

theorem times_congr {held' : Set Int} (h : d ∈ held ↔ d ∈ held') :
    times held d = times held' d := by
  by_cases hd : d ∈ held
  · rw [times_of_mem hd, times_of_mem (h.mp hd)]
  · rw [times_of_notMem hd, times_of_notMem fun hd' => hd (h.mpr hd')]

/-- To open a descriptor that is not held has it held once more, and leaves all others as they
are. -/
theorem times_insert (h : d ∉ held) (e : Int) :
    times (insert d held) e = times held e + if d = e then 1 else 0 := by
  by_cases heq : d = e
  · rw [← heq, times_of_mem (Set.mem_insert ..), times_of_notMem h, if_pos rfl]
  · have hiff : e ∈ insert d held ↔ e ∈ held :=
      ⟨fun hmem => hmem.resolve_left fun hed => heq hed.symm, Set.mem_insert_of_mem _⟩
    rw [if_neg heq, Nat.add_zero]
    exact times_congr hiff

/-- To close one that is held has it held once less. -/
theorem times_diff (h : d ∈ held) (e : Int) :
    times held e = times (held \ {d}) e + if d = e then 1 else 0 := by
  by_cases heq : d = e
  · rw [← heq, times_of_mem h, times_of_notMem fun hmem => hmem.2 rfl, if_pos rfl]
  · have hiff : e ∈ held \ {d} ↔ e ∈ held :=
      ⟨fun hmem => hmem.1, fun hmem => ⟨hmem, fun hed => heq hed.symm⟩⟩
    rw [if_neg heq, Nat.add_zero]
    exact times_congr hiff.symm

/-- What is held at the start or opened is closed or held at the end, each once for each time. -/
theorem count_closed (h : Proper held l) (d : Int) :
    times held d + l.count (.opened d) = l.count (.closed d) + times (after held l) d := by
  induction l generalizing held with
  | nil => simp [after]
  | cons entry rest ih =>
    cases entry with
    | opened e =>
      have hrest := ih h.2
      rw [times_insert h.1] at hrest
      simp only [List.count_cons, after, beq_iff_eq, Entry.opened.injEq, reduceCtorEq, if_false]
      omega
    | used e =>
      have hrest := ih h.2
      simp only [List.count_cons, after, beq_iff_eq, reduceCtorEq, if_false]
      omega
    | closed e =>
      have hrest := ih h.2
      have hheld := times_diff h.1 d
      simp only [List.count_cons, after, beq_iff_eq, Entry.closed.injEq, reduceCtorEq, if_false]
      omega

/-- As long as it is not opened, what is not held is neither used nor closed. -/
theorem Proper.untouched (h : Proper held l) (hd : d ∉ held) (hopen : Entry.opened d ∉ l) :
    Entry.used d ∉ l ∧ Entry.closed d ∉ l := by
  induction l generalizing held with
  | nil => exact ⟨List.not_mem_nil, List.not_mem_nil⟩
  | cons entry rest ih =>
    have hfirst := List.ne_of_not_mem_cons hopen
    have hrest := List.not_mem_of_not_mem_cons hopen
    cases entry with
    | opened e =>
      have hne : d ≠ e := fun heq => hfirst (congrArg Entry.opened heq)
      obtain ⟨hused, hclosed⟩ := ih h.2 (fun hmem => hmem.elim hne hd) hrest
      exact ⟨List.not_mem_cons_of_ne_of_not_mem (by rintro ⟨⟩) hused,
        List.not_mem_cons_of_ne_of_not_mem (by rintro ⟨⟩) hclosed⟩
    | used e =>
      have hne : d ≠ e := fun heq => hd (heq ▸ h.1)
      obtain ⟨hused, hclosed⟩ := ih h.2 hd hrest
      exact ⟨List.not_mem_cons_of_ne_of_not_mem (fun heq => hne (Entry.used.inj heq)) hused,
        List.not_mem_cons_of_ne_of_not_mem (by rintro ⟨⟩) hclosed⟩
    | closed e =>
      have hne : d ≠ e := fun heq => hd (heq ▸ h.1)
      obtain ⟨hused, hclosed⟩ := ih h.2 (fun hmem => hd hmem.1) hrest
      exact ⟨List.not_mem_cons_of_ne_of_not_mem (by rintro ⟨⟩) hused,
        List.not_mem_cons_of_ne_of_not_mem (fun heq => hne (Entry.closed.inj heq)) hclosed⟩

/-- What has been closed is neither used nor closed again, unless its number is obtained anew. -/
theorem Proper.once (h : Proper held (l ++ .closed d :: l')) (hopen : Entry.opened d ∉ l') :
    Entry.used d ∉ l' ∧ Entry.closed d ∉ l' :=
  (proper_append.mp h).2.2.untouched (fun hmem => hmem.2 rfl) hopen

end Ledger

end FileServer
