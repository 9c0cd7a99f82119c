/-!
# Maps from descriptors

A finite map whose keys are descriptor numbers, kept as a list of pairs in increasing order of the
numbers. `get?` is the view of a map; what each operation does to it is said by the lemmas below.
-/

namespace FileServer

/-- Pairs whose first parts increase. -/
def Increasing {α : Type} (entries : List (Int × α)) : Prop := entries.Pairwise (·.1 < ·.1)

theorem increasing_nil {α : Type} : Increasing ([] : List (Int × α)) := .nil

/-- A finite map from descriptor numbers, in increasing order. -/
structure DescriptorMap (α : Type) where
  /-- the pairs -/
  entries : List (Int × α) := []
  increasing : Increasing entries := by exact increasing_nil
  deriving DecidableEq, Repr

namespace DescriptorMap

variable {α : Type}

instance : Inhabited (DescriptorMap α) := ⟨{}⟩

/-- The value under a number. -/
def get? (m : DescriptorMap α) (key : Int) : Option α := m.entries.lookup key

/-- The numbers that have a value, in increasing order. -/
def keys (m : DescriptorMap α) : List Int := m.entries.map (·.1)

/-- The pairs after a value has been put under a number. -/
def insert (key : Int) (value : α) : List (Int × α) → List (Int × α)
  | [] => [(key, value)]
  | (k, v) :: rest =>
    if key < k then (key, value) :: (k, v) :: rest
    else if key = k then (key, value) :: rest
    else (k, v) :: insert key value rest

theorem fst_of_mem_insert {key : Int} {value : α} {entries : List (Int × α)} {entry : Int × α}
    (h : entry ∈ insert key value entries) : entry.1 = key ∨ entry ∈ entries := by
  induction entries with
  | nil =>
    rw [insert, List.mem_singleton] at h
    exact .inl (h ▸ rfl)
  | cons first rest ih =>
    simp only [insert] at h
    split at h
    · rcases List.mem_cons.mp h with rfl | h
      · exact .inl rfl
      · exact .inr h
    · split at h
      · rcases List.mem_cons.mp h with rfl | h
        · exact .inl rfl
        · exact .inr (List.mem_cons_of_mem _ h)
      · rcases List.mem_cons.mp h with rfl | h
        · exact .inr List.mem_cons_self
        · rcases ih h with h | h
          · exact .inl h
          · exact .inr (List.mem_cons_of_mem _ h)

theorem increasing_insert (key : Int) (value : α) {entries : List (Int × α)}
    (h : Increasing entries) : Increasing (insert key value entries) := by
  induction entries with
  | nil => exact List.pairwise_singleton ..
  | cons first rest ih =>
    obtain ⟨hfirst, hrest⟩ := List.pairwise_cons.mp h
    simp only [insert]
    split
    · rename_i hlt
      refine List.pairwise_cons.mpr ⟨fun entry hentry => ?_, h⟩
      rcases List.mem_cons.mp hentry with rfl | hentry
      · exact hlt
      · exact Int.lt_trans hlt (hfirst entry hentry)
    · split
      · rename_i heq
        exact List.pairwise_cons.mpr ⟨fun entry hentry => heq ▸ hfirst entry hentry, hrest⟩
      · refine List.pairwise_cons.mpr ⟨fun entry hentry => ?_, ih hrest⟩
        rcases fst_of_mem_insert hentry with hkey | hentry
        · rw [hkey]
          dsimp only at *
          omega
        · exact hfirst entry hentry

/-- Puts a value under a number. -/
def set (m : DescriptorMap α) (key : Int) (value : α) : DescriptorMap α :=
  ⟨insert key value m.entries, increasing_insert key value m.increasing⟩

/-- Takes away what is under a number. -/
def erase (m : DescriptorMap α) (key : Int) : DescriptorMap α :=
  ⟨m.entries.filter (·.1 != key), m.increasing.filter _⟩

theorem lookup_cons_ite (k key : Int) (value : α) (rest : List (Int × α)) :
    ((key, value) :: rest).lookup k = if k = key then some value else rest.lookup k := by
  by_cases h : k = key
  · rw [List.lookup_cons, h, beq_self_eq_true, if_pos rfl]
  · rw [List.lookup_cons, beq_false_of_ne h, if_neg h]

theorem lookup_insert (key k : Int) (value : α) (entries : List (Int × α)) :
    (insert key value entries).lookup k = if k = key then some value else entries.lookup k := by
  induction entries with
  | nil => exact lookup_cons_ite k key value []
  | cons entry rest ih =>
    simp only [insert]
    split
    · exact lookup_cons_ite k key value _
    · split
      · grind [lookup_cons_ite]
      · grind [lookup_cons_ite]

@[simp]
theorem get?_set_self (m : DescriptorMap α) (key : Int) (value : α) :
    (m.set key value).get? key = some value := by
  simp [get?, set, lookup_insert]

theorem get?_set_ne (m : DescriptorMap α) {key k : Int} (value : α) (h : k ≠ key) :
    (m.set key value).get? k = m.get? k := by
  simp [get?, set, lookup_insert, h]

theorem lookup_filter_ne (key k : Int) (entries : List (Int × α)) :
    (entries.filter (·.1 != key)).lookup k = if k = key then none else entries.lookup k := by
  induction entries with
  | nil => simp
  | cons entry rest ih =>
    by_cases h : entry.1 = key
    · rw [List.filter_cons_of_neg (by simp [h]), ih]
      grind [lookup_cons_ite]
    · rw [List.filter_cons_of_pos (by simp [h])]
      grind [lookup_cons_ite]

@[simp]
theorem get?_erase_self (m : DescriptorMap α) (key : Int) : (m.erase key).get? key = none := by
  simp [get?, erase, lookup_filter_ne]

theorem get?_erase_ne (m : DescriptorMap α) {key k : Int} (h : k ≠ key) :
    (m.erase key).get? k = m.get? k := by
  simp [get?, erase, lookup_filter_ne, h]

/-- The first number from `n` on that is none of the keys, which are in increasing order. -/
def firstGap (n : Int) : List Int → Int
  | [] => n
  | key :: rest => if n < key then n else firstGap (max n (key + 1)) rest

/-- The lowest number from `n` on that has no value. -/
def firstFree (m : DescriptorMap α) (n : Int) : Int := firstGap n m.keys

theorem get?_eq_none {m : DescriptorMap α} {key : Int} (h : key ∉ m.keys) : m.get? key = none := by
  rw [get?, List.lookup_eq_none_iff]
  intro entry hentry
  rw [bne_iff_ne, Ne, eq_comm]
  intro heq
  exact h (heq ▸ List.mem_map_of_mem hentry)

/-- What has a value is among the keys. -/
theorem mem_keys_of_get? {m : DescriptorMap α} {key : Int} {value : α}
    (h : m.get? key = some value) : key ∈ m.keys := by
  refine Classical.byContradiction fun hkey => ?_
  rw [get?_eq_none hkey] at h
  cases h

/-- A number is in one pair only. -/
theorem get?_of_mem {m : DescriptorMap α} {key : Int} {value : α} (h : (key, value) ∈ m.entries) :
    m.get? key = some value := by
  obtain ⟨entries, hincreasing⟩ := m
  simp only [get?] at h ⊢
  induction entries with
  | nil => cases h
  | cons entry rest ih =>
    obtain ⟨hfirst, hrest⟩ := List.pairwise_cons.mp hincreasing
    obtain ⟨k, v⟩ := entry
    rw [lookup_cons_ite]
    rcases List.mem_cons.mp h with heq | h
    · obtain ⟨rfl, rfl⟩ := Prod.mk.inj heq
      rw [if_pos rfl]
    · rw [if_neg (Int.ne_of_lt (hfirst _ h)).symm]
      exact ih hrest h

theorem nodup_keys (m : DescriptorMap α) : m.keys.Nodup :=
  (List.pairwise_map.mpr m.increasing).imp Int.ne_of_lt

theorem le_firstGap (n : Int) (keys : List Int) : n ≤ firstGap n keys := by
  induction keys generalizing n with
  | nil => exact Int.le_refl n
  | cons key rest ih =>
    simp only [firstGap]
    split
    · exact Int.le_refl n
    · exact Int.le_trans (Int.le_max_left ..) (ih _)

theorem firstGap_notMem (n : Int) {keys : List Int} (h : keys.Pairwise (· < ·)) :
    firstGap n keys ∉ keys := by
  induction keys generalizing n with
  | nil => exact List.not_mem_nil
  | cons key rest ih =>
    obtain ⟨hkey, hrest⟩ := List.pairwise_cons.mp h
    simp only [firstGap]
    split
    · rename_i hlt
      intro hmem
      rcases List.mem_cons.mp hmem with rfl | hmem
      · exact Int.lt_irrefl _ hlt
      · exact Int.lt_irrefl _ (Int.lt_trans hlt (hkey n hmem))
    · intro hmem
      rcases List.mem_cons.mp hmem with heq | hmem
      · have hle := le_firstGap (max n (key + 1)) rest
        omega
      · exact ih _ hrest hmem

/-- What is found to be free is free. -/
theorem get?_firstFree (m : DescriptorMap α) (n : Int) : m.get? (m.firstFree n) = none :=
  get?_eq_none (firstGap_notMem n (List.pairwise_map.mpr m.increasing))

theorem le_firstFree (m : DescriptorMap α) (n : Int) : n ≤ m.firstFree n := le_firstGap ..

end DescriptorMap

end FileServer
