import Mathlib.Logic.Function.Basic
import ChipEight.Text.Hex

/-!
# Hexadecimal numerals read back

A numeral with upper-case digits is read as the integer that it was written from, whatever width it
was padded to: zeros in front of the digits change nothing, and a sign stands in front of them all.

## Main definitions

* `Hex.value`, `Hex.read`: the number that digits stand for, and the integer that a numeral does.
-/

namespace ChipEight.Text.Hex

/-- The upper-case digits, from zero up. -/
def alphabet : List Char := "0123456789ABCDEF".toList

/-- The number that digits stand for. -/
def value (ds : List Char) : Nat := ds.foldl (fun v d => 16 * v + alphabet.idxOf d) 0

/-- The integer that digits stand for, a sign being in front of them or not. -/
def read (cs : List Char) : Int := if '-' ∈ cs then -(value cs.tail : Int) else value cs

variable {n w : Nat} {c : Char}

theorem digits_of_lt (h : n < 16) : digits .upper n = [n.digitChar.toUpper] := by
  rw [digits, Nat.toDigits_of_lt_base h, List.map_singleton]

theorem digits_of_le (h : 16 ≤ n) :
    digits .upper n = digits .upper (n / 16) ++ [(n % 16).digitChar.toUpper] := by
  rw [digits, digits, Nat.toDigits_of_base_le (by decide) h, List.map_append, List.map_singleton]

theorem digit_spec : ∀ d < 16,
    d.digitChar.toUpper ∈ alphabet ∧ alphabet.idxOf d.digitChar.toUpper = d := by
  decide

theorem mem_alphabet_of_mem_digits (h : c ∈ digits .upper n) : c ∈ alphabet := by
  induction n using Nat.strongRecOn with
  | _ n ih =>
    by_cases hn : n < 16
    · rw [digits_of_lt hn, List.mem_singleton] at h
      exact h ▸ (digit_spec n hn).1
    · rw [digits_of_le (Nat.le_of_not_lt hn), List.mem_append, List.mem_singleton] at h
      obtain h | rfl := h
      · exact ih (n / 16) (by omega) h
      · exact (digit_spec (n % 16) (by omega)).1

/-! ## Digits -/

theorem value_concat (ds : List Char) (d : Char) :
    value (ds ++ [d]) = 16 * value ds + alphabet.idxOf d := by
  rw [value, List.foldl_append]
  rfl

theorem value_digits (n : Nat) : value (digits .upper n) = n := by
  induction n using Nat.strongRecOn with
  | _ n ih =>
    by_cases hn : n < 16
    · rw [digits_of_lt hn, ← List.nil_append [n.digitChar.toUpper], value_concat,
        (digit_spec n hn).2]
      exact Nat.zero_add n
    · rw [digits_of_le (Nat.le_of_not_lt hn), value_concat, ih (n / 16) (by omega),
        (digit_spec (n % 16) (by omega)).2]
      omega

theorem value_replicate_append (k : Nat) (ds : List Char) :
    value (List.replicate k '0' ++ ds) = value ds := by
  induction k with
  | zero => rfl
  | succ k ih => exact ih

/-! ## Numerals -/

/-- A sign if there is one, zeros and the digits. -/
theorem toList_padded (w : Nat) (n : Int) :
    ∃ k, (padded w n).toList =
      (if n < 0 then ['-'] else []) ++ (List.replicate k '0' ++ digits .upper n.natAbs) := by
  let sign : List Char := if n < 0 then ['-'] else []
  refine ⟨w - (sign.length + (digits .upper n.natAbs).length), ?_⟩
  simp [padded, numeral, sign]

theorem notMem_replicate_append (hc : c ∉ alphabet) (k n : Nat) :
    c ∉ List.replicate k '0' ++ digits .upper n := by
  intro h
  obtain h | h := List.mem_append.1 h
  · obtain rfl := List.eq_of_mem_replicate h
    exact hc (by decide)
  · exact hc (mem_alphabet_of_mem_digits h)

/-- A numeral holds nothing but digits and a sign. -/
theorem notMem_padded (hsign : c ≠ '-') (hc : c ∉ alphabet) (w : Nat) (n : Int) :
    c ∉ (padded w n).toList := by
  obtain ⟨k, hk⟩ := toList_padded w n
  rw [hk, List.mem_append, not_or]
  refine ⟨?_, notMem_replicate_append hc k n.natAbs⟩
  split <;> simp [hsign]

theorem read_padded (w : Nat) (n : Int) : read (padded w n).toList = n := by
  obtain ⟨k, hk⟩ := toList_padded w n
  have hvalue : value (List.replicate k '0' ++ digits .upper n.natAbs) = n.natAbs := by
    rw [value_replicate_append, value_digits]
  rw [hk, read]
  by_cases hn : n < 0
  · rw [if_pos hn, if_pos (List.mem_append_left _ (List.mem_singleton.2 rfl))]
    simp only [List.singleton_append, List.tail_cons, hvalue]
    omega
  · rw [if_neg hn, List.nil_append, if_neg (notMem_replicate_append (by decide) k n.natAbs), hvalue]
    omega

theorem padded_injective (w : Nat) : Function.Injective (padded w) :=
  Function.LeftInverse.injective (g := fun text : String => read text.toList) (read_padded w)

end ChipEight.Text.Hex
