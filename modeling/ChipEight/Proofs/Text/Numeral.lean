import ChipEight.Text.Integer

/-!
# Integers read back

An integer that is written in decimal is read as the same integer, unless its numeral has more
digits than any that is read.

## Main definitions

* `Integer.Readable`: an integer whose numeral is not too long.
-/

namespace ChipEight.Text

/-- The value of one of the ten usual digits. -/
theorem DecimalDigit.value?_of_isDigit {c : Char} (h : c.isDigit = true) :
    value? c = some (c.toNat - '0'.toNat) := by
  have hrange : 48 ≤ c.toNat ∧ c.toNat ≤ 57 := Char.isDigit_iff_toNat.1 h
  have hzero : (decide (0x30 ≤ c.toNat) && decide (c.toNat < 0x30 + 10)) = true := by
    simp
    omega
  have hfind : zeros.find? (fun z => z ≤ c.toNat && c.toNat < z + 10) = some 0x30 :=
    List.find?_cons_of_pos hzero
  rw [value?, hfind]
  rfl

namespace Integer

/-- The decimal numeral of the integer has no more digits than are read. -/
def Readable (n : Int) : Prop := (Nat.toDigits 10 n.natAbs).length ≤ digitLimit

instance (n : Int) : Decidable (Readable n) := inferInstanceAs (Decidable (_ ≤ _))

theorem readable_iff {n : Int} : Readable n ↔ n.natAbs < Nat.pow 10 digitLimit := by
  have h (k : Nat) (hk : 0 < k) :
      (Nat.toDigits 10 n.natAbs).length ≤ k ↔ n.natAbs < Nat.pow 10 k :=
    Nat.length_toDigits_le_iff (by decide) hk
  exact h digitLimit (by decide)

variable {c : Char} {cs : List Char}

theorem isBlank_of_isDigit (h : c.isDigit = true) : isBlank c = false := by
  have hrange : 48 ≤ c.toNat ∧ c.toNat ≤ 57 := Char.isDigit_iff_toNat.1 h
  simp [isBlank]
  omega

theorem strip_of_no_blank (h : ∀ c ∈ cs, isBlank c = false) : strip cs = cs := by
  have hdrop : ∀ ds : List Char, (∀ c ∈ ds, isBlank c = false) → ds.dropWhile isBlank = ds := by
    intro ds hds
    cases ds with
    | nil => rfl
    | cons d ds => simp [hds d]
  have hreverse : ∀ c ∈ cs.reverse, isBlank c = false := fun c hc => h c (List.mem_reverse.1 hc)
  rw [strip, hdrop cs h, hdrop _ hreverse, List.reverse_reverse]

theorem digitsAfter?_of_isDigit (h : ∀ c ∈ cs, c.isDigit = true) :
    digitsAfter? cs = some (cs.map fun c => c.toNat - '0'.toNat) := by
  induction cs with
  | nil => rfl
  | cons c cs ih =>
    obtain ⟨hc, hcs⟩ := List.forall_mem_cons.1 h
    have hne : c ≠ '_' := by
      rintro rfl
      cases hc
    rw [digitsAfter?.eq_3]
    · simp [DecimalDigit.value?_of_isDigit hc, ih hcs]
    · rintro d rest rfl
      exact absurd rfl hne

theorem digits?_of_isDigit (hne : cs ≠ []) (h : ∀ c ∈ cs, c.isDigit = true) :
    digits? cs = some (cs.map fun c => c.toNat - '0'.toNat) := by
  cases cs with
  | nil => contradiction
  | cons c cs =>
    obtain ⟨hc, hcs⟩ := List.forall_mem_cons.1 h
    simp [digits?, DecimalDigit.value?_of_isDigit hc, digitsAfter?_of_isDigit hcs]

theorem isDigit_of_mem_toDigits {n : Nat} : ∀ c ∈ Nat.toDigits 10 n, c.isDigit = true :=
  fun _ => Nat.isDigit_of_mem_toDigits (by decide) (by decide)

/-- The digits of a number give the number again, if there are not too many. -/
theorem magnitude?_natAbs (n : Int) :
    magnitude? (Nat.toDigits 10 n.natAbs) = if Readable n then some n.natAbs else none := by
  have hvalue : ofDigits ((Nat.toDigits 10 n.natAbs).map fun c => c.toNat - '0'.toNat) =
      n.natAbs := by
    rw [ofDigits, List.foldl_map]
    exact Nat.ofDigitChars_toDigits (by decide) (by decide)
  rw [magnitude?, digits?_of_isDigit Nat.toDigits_ne_nil isDigit_of_mem_toDigits]
  simp only [List.length_map, hvalue]
  rfl

/-- Numbers are told from their numerals. -/
theorem repr_injective : Function.Injective Nat.repr := by
  intro m n h
  have hvalue (k : Nat) : Nat.ofDigitChars 10 k.repr.toList 0 = k := by
    rw [Nat.toList_repr, Nat.ofDigitChars_toDigits (by decide) (by decide)]
  rw [← hvalue m, h, hvalue n]

theorem toList_toString_natCast (n : Nat) : (toString (n : Int)).toList = Nat.toDigits 10 n :=
  Nat.toList_repr

theorem toList_toString_negSucc (n : Nat) :
    (toString (Int.negSucc n)).toList = '-' :: Nat.toDigits 10 (n + 1) := by
  have h : toString (Int.negSucc n) = "-" ++ (n + 1).repr := rfl
  rw [h, String.toList_append, Nat.toList_repr]
  rfl

/-- The integer that was written is the one that is read, unless its numeral is too long. -/
theorem read?_toString (n : Int) : read? (toString n) = if Readable n then some n else none := by
  have hm := magnitude?_natAbs n
  cases n with
  | ofNat n =>
    have hstrip : strip (toString (n : Int)).toList = Nat.toDigits 10 n := by
      rw [toList_toString_natCast]
      exact strip_of_no_blank fun c hc => isBlank_of_isDigit (isDigit_of_mem_toDigits c hc)
    obtain ⟨c, cs, hcs⟩ := List.exists_cons_of_ne_nil (Nat.toDigits_ne_nil (n := n) (b := 10))
    have hc : c.isDigit = true := isDigit_of_mem_toDigits (n := n) c (by simp [hcs])
    simp only [Int.ofNat_eq_natCast, Int.natAbs_natCast] at hm ⊢
    rw [hcs] at hstrip hm
    rw [read?, hstrip]
    split
    · simp_all
    · simp_all
    · rw [hm]
      split <;> rfl
  | negSucc n =>
    have hstrip : strip (toString (Int.negSucc n)).toList = '-' :: Nat.toDigits 10 (n + 1) := by
      rw [toList_toString_negSucc]
      refine strip_of_no_blank (List.forall_mem_cons.2 ⟨by decide, fun c hc => ?_⟩)
      exact isBlank_of_isDigit (isDigit_of_mem_toDigits c hc)
    simp only [Int.natAbs_negSucc, Nat.succ_eq_add_one] at hm
    rw [read?, hstrip]
    simp only [hm]
    split <;> rfl

end Integer

end ChipEight.Text
