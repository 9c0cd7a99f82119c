import FileServer.Decimal
import Mathlib.Data.Nat.Digits.Defs
import Mathlib.Data.Option.Basic

/-!
# The numbers that digits spell

The length that a request announces is read digit by digit, and after each of them the number has to
fit in a machine word. As the number only grows, it fits at every step if it does in the end
(`Decimal.foldlM_appendDigit?_eq_some`). So what is read is the numeral that the digits are, the
last of which counts the ones and each of which counts ten times as much as the next
(`Decimal.numeral`), and only what is no numeral, or one that is no machine word, is refused
(`Decimal.word?_exact`).
-/

namespace FileServer.Decimal

variable {n m : Nat} {digits : Bytes}

/-- The number that some more digits make of `n`. -/
def continued (n : Nat) (digits : Bytes) : Nat :=
  digits.foldl (fun n b => n * 10 + (b.toNat - 48)) n

/-- The number that digits spell. -/
def value (digits : Bytes) : Nat := continued 0 digits

theorem wordLimit_pos : 0 < wordLimit := by decide

theorem continued_cons (n : Nat) (b : UInt8) (digits : Bytes) :
    continued n (b :: digits) = continued (n * 10 + (b.toNat - 48)) digits := by
  rw [continued, continued, List.foldl_cons]

/-- More digits never make a number smaller. -/
theorem le_continued (n : Nat) (digits : Bytes) : n ≤ continued n digits := by
  induction digits generalizing n with
  | nil => exact Nat.le_refl n
  | cons b digits ih =>
    rw [continued_cons]
    have hmore := ih (n * 10 + (b.toNat - 48))
    omega

/-- A byte is a digit exactly if it is between the signs of zero and nine, and counts as many as it
stands behind that of zero. -/
theorem digit?_eq_some {b : UInt8} {d : Nat} :
    digit? b = some d ↔ isDigit b = true ∧ d = b.toNat - 48 := by
  rw [digit?]
  by_cases hb : isDigit b = true
  · have hvalue : (b - 48).toNat = b.toNat - 48 := by
      have hle : (48 : UInt8) ≤ b := by
        simp only [isDigit, Bool.and_eq_true, decide_eq_true_eq] at hb
        exact hb.1
      exact UInt8.toNat_sub_of_le _ _ hle
    rw [if_pos hb, hvalue]
    simp [hb, eq_comm]
  · simp [hb]

/-- A number is let through if it is below the limit, and is not changed. -/
theorem below?_eq_some {limit : Nat} : below? limit n = some m ↔ m = n ∧ n < limit := by
  rw [below?]
  split
  · next hn => simp [hn, eq_comm]
  · next hn => simp [hn]

/-- A digit is added if the number it makes fits: the number with a zero in its place is not
greater. -/
theorem appendDigit?_eq_some {b : UInt8} :
    appendDigit? n b = some m ↔ isDigit b = true ∧ m = n * 10 + (b.toNat - 48) ∧ m < wordLimit := by
  simp only [appendDigit?, Option.bind_eq_bind, Option.bind_eq_some_iff, digit?_eq_some,
    below?_eq_some]
  constructor
  · rintro ⟨d, ⟨hb, rfl⟩, tens, ⟨rfl, htens⟩, rfl, hm⟩
    exact ⟨hb, rfl, hm⟩
  · rintro ⟨hb, rfl, hm⟩
    exact ⟨_, ⟨hb, rfl⟩, _, ⟨rfl, by omega⟩, rfl, hm⟩

/-- Digits are read, behind those of `n`, exactly if the number that they make of it fits. -/
theorem foldlM_appendDigit?_eq_some (hn : n < wordLimit) :
    digits.foldlM appendDigit? n = some m ↔
      (∀ b ∈ digits, isDigit b = true) ∧ m = continued n digits ∧ m < wordLimit := by
  induction digits generalizing n with
  | nil =>
    simp only [List.foldlM_nil, Option.pure_def, Option.some.injEq]
    constructor
    · rintro rfl
      exact ⟨List.forall_mem_nil _, rfl, hn⟩
    · intro h
      exact h.2.1.symm
  | cons b digits ih =>
    rw [List.foldlM_cons, Option.bind_eq_bind, Option.bind_eq_some_iff, continued_cons]
    constructor
    · rintro ⟨n', hb, hrest⟩
      obtain ⟨hdigit, rfl, hfits⟩ := appendDigit?_eq_some.mp hb
      obtain ⟨hdigits, hm⟩ := (ih hfits).mp hrest
      exact ⟨List.forall_mem_cons.mpr ⟨hdigit, hdigits⟩, hm⟩
    · rintro ⟨hall, rfl, hm⟩
      obtain ⟨hdigit, hdigits⟩ := List.forall_mem_cons.mp hall
      -- what has been read so far is no more than what is read in the end
      have hfits := Nat.lt_of_le_of_lt (le_continued _ digits) hm
      exact ⟨_, appendDigit?_eq_some.mpr ⟨hdigit, rfl, hfits⟩, (ih hfits).mpr ⟨hdigits, rfl, hm⟩⟩

/-- Digits are read, from the first on, exactly if there is one and the number that they spell
fits. -/
theorem word?_eq_some :
    word? digits = some m ↔
      digits ≠ [] ∧ (∀ b ∈ digits, isDigit b = true) ∧ m = value digits ∧ m < wordLimit := by
  by_cases hnil : digits = []
  · simp [word?, hnil]
  · rw [word?, if_neg (by simpa using hnil), foldlM_appendDigit?_eq_some wordLimit_pos, value]
    simp [hnil]

/-- What is read off digits is the number that they spell. -/
theorem value_of_word? (h : word? digits = some n) : n = value digits := by
  obtain ⟨-, -, hvalue, -⟩ := word?_eq_some.mp h
  exact hvalue

/-! ## Numerals -/

/-- The number whose decimal numeral some digits are: the last one counts the ones. -/
def numeral (digits : Bytes) : Nat := Nat.ofDigits 10 (digits.reverse.map fun b => b.toNat - 48)

/-- Digits behind those of `n` set it off by as many places. -/
theorem continued_eq (n : Nat) (digits : Bytes) :
    continued n digits = numeral digits + 10 ^ digits.length * n := by
  induction digits generalizing n with
  | nil => simp [continued, numeral]
  | cons b rest ih =>
    rw [continued_cons, ih]
    simp only [numeral, List.reverse_cons, List.map_append, List.map_cons, List.map_nil,
      Nat.ofDigits_append, Nat.ofDigits_singleton, List.length_map, List.length_reverse,
      List.length_cons]
    ring

/-- To take in the digits from the first on is to read the numeral. -/
theorem value_eq_numeral (digits : Bytes) : value digits = numeral digits := by
  rw [value, continued_eq, Nat.mul_zero, Nat.add_zero]

/-- What some digits spell is continued by those behind them. -/
theorem value_append (first rest : Bytes) :
    value (first ++ rest) = continued (value first) rest := by
  rw [value, continued, List.foldl_append, value, continued, continued]

/-- A numeral is its end and, set off by as many places, its start. -/
theorem numeral_append (first rest : Bytes) :
    numeral (first ++ rest) = numeral rest + 10 ^ rest.length * numeral first := by
  rw [← value_eq_numeral, value_append, continued_eq, value_eq_numeral]

/-- Zeros count nothing. -/
theorem numeral_replicate_zero (n : Nat) : numeral (List.replicate n 48) = 0 := by
  induction n with
  | zero => rfl
  | succ n ih =>
    rw [List.replicate_succ', numeral_append, ih]
    rfl

theorem numeral_zeros_append (n : Nat) (digits : Bytes) :
    numeral (List.replicate n 48 ++ digits) = numeral digits := by
  rw [numeral_append, numeral_replicate_zero, Nat.mul_zero, Nat.add_zero]

/-- The number behind a digit is no more than the number in the end. -/
theorem le_numeral (first : Bytes) (b : UInt8) (rest : Bytes) :
    numeral first * 10 + (b.toNat - 48) ≤ numeral (first ++ b :: rest) := by
  rw [← value_eq_numeral, ← value_eq_numeral, value_append, continued_cons]
  exact le_continued ..

/-- What is read is the number whose numeral the digits are. -/
theorem word?_eq_some_numeral :
    word? digits = some n ↔
      digits ≠ [] ∧ (∀ b ∈ digits, isDigit b = true) ∧ numeral digits = n ∧ n < 2 ^ 64 := by
  rw [word?_eq_some, value_eq_numeral, eq_comm (a := n)]
  rfl

/-- What is read of a text as a length. -/
structure ReadExactly (text : Bytes) : Prop where
  /-- a number is read exactly if the text is a numeral of it, of at least one digit, and it is
  below 2 ^ 64 -/
  read : ∀ n, word? text = some n ↔
    text ≠ [] ∧ (∀ b ∈ text, isDigit b = true) ∧ numeral text = n ∧ n < 2 ^ 64
  /-- zeros in front of a text do not matter -/
  zeros : ∀ n, text ≠ [] → word? (List.replicate n 48 ++ text) = word? text
  /-- where the number is below 2 ^ 64 in the end, so it is behind every digit before, ten times and
  together with the next digit -/
  steps : (∀ b ∈ text, isDigit b = true) → numeral text < 2 ^ 64 →
    ∀ first b rest, text = first ++ b :: rest → first.foldlM appendDigit? 0 = some (numeral first) ∧
      below? wordLimit (numeral first * 10) = some (numeral first * 10) ∧
      below? wordLimit (numeral first * 10 + (b.toNat - 48)) =
        some (numeral first * 10 + (b.toNat - 48))

/-- **A length is read exactly**: a text gives a number if and only if it is the number's numeral
and the number is a machine word, and no step on the way overflows or refuses what would fit in the
end. -/
theorem word?_exact (text : Bytes) : ReadExactly text := by
  constructor
  · intro n
    exact word?_eq_some_numeral
  · intro zeros hne
    refine Option.ext fun n => ?_
    rw [word?_eq_some_numeral, word?_eq_some_numeral, numeral_zeros_append]
    simp [hne, List.mem_append, List.mem_replicate, or_imp, forall_and, isDigit]
  · intro hdigits hfits first b rest htext
    have hnext := le_numeral first b rest
    rw [← htext] at hnext
    have hlimit : wordLimit = 2 ^ 64 := rfl
    refine ⟨?_, below?_eq_some.mpr ⟨rfl, by omega⟩, below?_eq_some.mpr ⟨rfl, by omega⟩⟩
    refine (foldlM_appendDigit?_eq_some wordLimit_pos).mpr ⟨fun d hd => ?_, ?_, by omega⟩
    · apply hdigits
      simp [htext, hd]
    · rw [← value, value_eq_numeral]

/-- The largest machine word, behind zeros, and the number above it. -/
example : word? (.ofText "000018446744073709551615") = some (2 ^ 64 - 1) ∧
    word? (.ofText "18446744073709551616") = none := by
  decide +kernel

end FileServer.Decimal
