import Mathlib.Data.List.Forall2
import ChipEight.Proofs.Instruction.Decoding

/-!
# Words and the patterns of opcodes

The pattern of an opcode shows which words encode it and where their operands stand. Decoding is
held against the patterns here: it finds the opcode whose pattern a word fits, no word fits two of
them, and the operands that were decoded fill the pattern up to the word again. Only a jump with an
offset has another target than its word.

## Main definitions

* `Word.Fits`: the words that a pattern stands for.
* `Instruction.assembled`: the pattern of an instruction, filled with its operands.
* `Opcode.instruction`: the instruction of a kind whose operands are those of a word.
-/

namespace ChipEight

/-! ## Patterns -/

namespace Pattern

/-- The value of a hexadecimal digit. -/
@[simp] def literal? (c : Char) : Option Nat :=
  if '0' ≤ c ∧ c ≤ '9' then some (c.toNat - '0'.toNat)
  else if 'A' ≤ c ∧ c ≤ 'F' then some (c.toNat - 'A'.toNat + 10)
  else none

/-- A letter admits every digit, and a hexadecimal digit admits itself. -/
@[simp] def Admits (c : Char) (d : Nat) : Prop :=
  c = 'X' ∨ c = 'Y' ∨ c = 'N' ∨ literal? c = some d

instance : DecidableRel Admits := fun _ _ => inferInstanceAs (Decidable (_ ∨ _ ∨ _ ∨ _))

end Pattern

namespace Word

/-- The four digits of a word, the highest first. -/
@[simp] def digits (w : Word) : List Nat := [w.family, w.x, w.y, w.n]

/-- The word has a digit for every place of the pattern, and each of them is admitted there. -/
def Fits (w : Word) (pattern : String) : Prop :=
  List.Forall₂ Pattern.Admits pattern.toList w.digits

instance (w : Word) (pattern : String) : Decidable (w.Fits pattern) :=
  inferInstanceAs (Decidable (List.Forall₂ _ _ _))

theorem toNat_eq_digits (w : Word) :
    w.toNat = 4096 * w.family + 256 * w.x.val + 16 * w.y.val + w.n.val := by
  simp only [family, x, y, n]
  omega

theorem toNat_nn (w : Word) : w.nn.toNat = 16 * w.y.val + w.n.val := by
  have hlt : w.toNat % 0x100 < 256 := Nat.mod_lt _ (by decide)
  simp only [nn, y, n, UInt8.toNat_ofNat']
  omega

theorem val_nnn (w : Word) : w.nnn.val = 256 * w.x.val + w.nn.toNat := by
  simp only [toNat_nn, nnn, x, y, n]
  omega

/-- Only the address of a word counts for its target with an offset. -/
theorem val_offsetTarget (w : Word) (v0 : Int) :
    ((w.offsetTarget v0).val : Int) = (v0 + w.nnn.val) % 4096 := by
  simp only [offsetTarget, nnn]
  omega

end Word

/-! ## Operands in their places -/

namespace Instruction

/-- The number that fills a run of `N`, by the length of the run. -/
def number (i : Instruction) : Nat → Nat
  | 1 => i.n
  | 2 => i.nn
  | 3 => i.nnn
  | _ => 0

/-- The digit that fills a place which is no `N`. -/
def place (i : Instruction) (c : Char) : Nat :=
  if c = 'X' then i.x else if c = 'Y' then i.y else (Pattern.literal? c).getD 0

/-- The pattern of the instruction, read as a number in base sixteen with the operands in the
places of their letters. A run of `N` stands at the end. -/
def assembled (i : Instruction) : Nat :=
  let places := i.opcode.pattern.toList
  let run := places.count 'N'
  let front := (places.take (4 - run)).foldl (fun v c => 16 * v + i.place c) 0
  (front <<< (4 * run)) + i.number run

/-- Operands whose letters do not occur in a pattern are zero. -/
structure KeepsTo (i : Instruction) (pattern : String) : Prop where
  x : 'X' ∉ pattern.toList → i.x = 0
  y : 'Y' ∉ pattern.toList → i.y = 0
  n : pattern.toList.count 'N' ≠ 1 → i.n = 0
  nn : pattern.toList.count 'N' ≠ 2 → i.nn = 0
  nnn : pattern.toList.count 'N' ≠ 3 → i.nnn = 0

end Instruction

/-- The instruction of a kind with the operands that the word has in their places. -/
def Opcode.instruction (v0 : Int) (w : Word) : Opcode → Instruction
  | .invalid => .invalid w
  | .clearScreen => .clearScreen
  | .ret => .ret
  | .jump => .jump w.nnn
  | .call => .call w.nnn
  | .skipEqualByte => .skipEqualByte w.x w.nn
  | .skipUnequalByte => .skipUnequalByte w.x w.nn
  | .skipEqual => .skipEqual w.x w.y
  | .setByte => .setByte w.x w.nn
  | .addByte => .addByte w.x w.nn
  | .arithmetic op => .arithmetic op w.x w.y
  | .skipUnequal => .skipUnequal w.x w.y
  | .setIndex => .setIndex w.nnn
  | .jumpOffset => .jumpOffset (w.offsetTarget v0)
  | .random => .random w.x w.nn
  | .draw => .draw w.x w.y w.n
  | .skipPressed => .skipPressed w.x
  | .skipReleased => .skipReleased w.x
  | .getDelay => .getDelay w.x
  | .waitKey => .waitKey w.x
  | .setDelay => .setDelay w.x
  | .setSound => .setSound w.x
  | .addIndex => .addIndex w.x
  | .indexGlyph => .indexGlyph w.x
  | .storeDecimal => .storeDecimal w.x
  | .saveRegisters => .saveRegisters w.x
  | .loadRegisters => .loadRegisters w.x

namespace Instruction

variable {v0 : Int} {w : Word} {op op' : Opcode}

theorem opcode_instruction (v0 : Int) (w : Word) (op : Opcode) :
    (op.instruction v0 w).opcode = op := by
  cases op <;> rfl

theorem keepsTo_pattern (i : Instruction) : i.KeepsTo i.opcode.pattern := by
  cases i with
  | arithmetic op a b =>
    cases op <;>
      constructor <;> simp [x, y, n, nn, nnn, opcode, Opcode.pattern, Arithmetic.pattern]
  | _ => constructor <;> simp [x, y, n, nn, nnn, opcode, Opcode.pattern]

/-! ## Words that fit -/

theorem not_fits_invalid (w : Word) : ¬w.Fits Opcode.invalid.pattern := by
  simp [Word.Fits, Opcode.pattern]

/-- A word that fits a pattern is decoded to its opcode, with the operands in their places. -/
theorem decode_of_fits (h : w.Fits op.pattern) : decode v0 w = op.instruction v0 w := by
  cases op with
  | invalid => exact absurd h (not_fits_invalid w)
  | clearScreen | ret =>
    -- The digits of these patterns leave one word.
    have hw := w.toNat_eq_digits
    simp [Word.Fits, Opcode.pattern] at h
    obtain ⟨hf, hx, hy, hn⟩ := h
    rw [← hf, ← hx, ← hy, ← hn] at hw
    have hword : w = UInt16.ofNat _ := UInt16.ofNat_toNat.symm.trans (congrArg UInt16.ofNat hw)
    rw [hword]
    rfl
  | arithmetic op =>
    cases op <;>
      simp [Word.Fits, Opcode.pattern, Arithmetic.pattern] at h <;>
      simp [decode, ← h, Arithmetic.ofDigit?, Opcode.instruction]
  | _ =>
    simp [Word.Fits, Opcode.pattern] at h
    simp [decode, ← h, Opcode.instruction, Word.toNat_nn]

/-- Whatever a word is decoded to, it fits the pattern of that, unless it encodes nothing. -/
theorem fits_decode (v0 : Int) (w : Word) :
    decode v0 w = .invalid w ∨ w.Fits (decode v0 w).opcode.pattern := by
  have hlt := w.family_lt
  have hnn := w.toNat_nn
  unfold decode
  split
  case h_1 =>
    split
    · subst w
      exact .inr (by decide)
    · split
      · subst w
        exact .inr (by decide)
      · exact .inl rfl
  case h_6 | h_10 =>
    split
    · right
      simp [Word.Fits, opcode, Opcode.pattern, *]
    · exact .inl rfl
  case h_9 =>
    split
    · rename_i op hop
      rw [Arithmetic.ofDigit?_eq_some_iff] at hop
      right
      cases op <;> simp [Word.Fits, opcode, Opcode.pattern, Arithmetic.pattern, Arithmetic.digit, *]
    · exact .inl rfl
  case h_15 hf =>
    split
    case h_3 => exact .inl rfl
    all_goals
      right
      simp [Word.Fits, opcode, Opcode.pattern, hf]
      omega
  case h_16 =>
    have hF : w.family = 0xF := by
      simp only [imp_false] at *
      omega
    split
    case h_10 => exact .inl rfl
    all_goals
      right
      simp [Word.Fits, opcode, Opcode.pattern, hF]
      omega
  -- The families that a first digit is enough for.
  all_goals
    right
    simp [Word.Fits, opcode, Opcode.pattern, *]

theorem opcode_decode_of_fits (h : w.Fits op.pattern) : (decode v0 w).opcode = op := by
  rw [decode_of_fits h, opcode_instruction]

theorem opcode_decode_eq_iff (hop : op ≠ .invalid) :
    (decode v0 w).opcode = op ↔ w.Fits op.pattern := by
  refine ⟨?_, opcode_decode_of_fits⟩
  rintro rfl
  obtain hi | hfits := fits_decode v0 w
  · rw [hi] at hop
    exact absurd rfl hop
  · exact hfits

theorem eq_of_fits (h : w.Fits op.pattern) (h' : w.Fits op'.pattern) : op = op' := by
  have hop : (decode 0 w).opcode = op := opcode_decode_of_fits h
  exact hop.symm.trans (opcode_decode_of_fits h')

theorem opcode_decode_eq_invalid_iff :
    (decode v0 w).opcode = .invalid ↔ ∀ op : Opcode, ¬w.Fits op.pattern := by
  constructor
  · intro hi op hfits
    rw [opcode_decode_of_fits hfits] at hi
    subst hi
    exact not_fits_invalid w hfits
  · intro hnone
    obtain hi | hfits := fits_decode v0 w
    · rw [hi]
      rfl
    · exact absurd hfits (hnone _)

theorem assembled_instruction (h : w.Fits op.pattern) (hop : op ≠ .jumpOffset) :
    (op.instruction v0 w).assembled = w.toNat := by
  have hw := w.toNat_eq_digits
  have hnn := w.toNat_nn
  have hnnn := w.val_nnn
  cases op with
  | invalid => exact absurd h (not_fits_invalid w)
  | jumpOffset => exact absurd rfl hop
  | arithmetic op =>
    cases op <;>
      simp [Word.Fits, Opcode.pattern, Arithmetic.pattern] at h <;>
      simp [assembled, place, number, Opcode.instruction, opcode, Opcode.pattern,
        Arithmetic.pattern, x, y, Nat.shiftLeft_eq] <;>
      omega
  | _ =>
    simp [Word.Fits, Opcode.pattern] at h
    simp [assembled, place, number, Opcode.instruction, opcode, Opcode.pattern, x, y, n, nn, nnn,
      Nat.shiftLeft_eq]
    omega

/-- The operands of a word that is decoded fill its pattern up to the word again. -/
theorem assembled_decode (hi : (decode v0 w).opcode ≠ .invalid)
    (hj : (decode v0 w).opcode ≠ .jumpOffset) : (decode v0 w).assembled = w.toNat := by
  have hfits : w.Fits (decode v0 w).opcode.pattern := (opcode_decode_eq_iff hi).1 rfl
  have hdecode : decode v0 w = _ := decode_of_fits hfits
  calc
    (decode v0 w).assembled = ((decode v0 w).opcode.instruction v0 w).assembled :=
      congrArg assembled hdecode
    _ = w.toNat := assembled_instruction hfits hj

theorem nnn_decode_of_jumpOffset (h : (decode v0 w).opcode = .jumpOffset) :
    ((decode v0 w).nnn : Int) = (v0 + w.nnn.val) % 4096 := by
  have hfits : w.Fits Opcode.jumpOffset.pattern := (opcode_decode_eq_iff (by decide)).1 h
  rw [decode_of_fits hfits]
  exact w.val_offsetTarget v0

theorem word_of_decode_eq_invalid {w' : Word} (h : decode v0 w = .invalid w') : w' = w := by
  obtain hi | hfits := fits_decode v0 w
  · rw [hi] at h
    cases h
    rfl
  · rw [h] at hfits
    exact absurd hfits (not_fits_invalid w)

end Instruction

/-! ## Fetching by patterns -/

theorem Memory.instruction_of_fits {m : Memory} {pc v0 : Int} {f : Fetched} (op : Opcode)
    (hf : m.fetch pc v0 = .ok f) (h : f.word.Fits op.pattern) :
    f.instruction = op.instruction v0 f.word := by
  unfold fetch at hf
  split at hf <;> cases hf
  exact Instruction.decode_of_fits h

/-- Whatever memory and `V0` hold, an instruction can be fetched from wherever a word lies, and it
is the one whose pattern the word fits: no word fits two patterns, and one that fits none is
invalid. With its operands in the places of their letters the pattern reads as the word, but for a
jump with an offset, whose target is moved by `V0`. Operands without a letter are zero. -/
theorem Memory.fetch_fits_pattern (m : Memory) (v0 : Int) {pc : Nat} (h : pc ≤ 4094) :
    ∃ f, m.fetch pc v0 = .ok f ∧
      f.word.toNat = 256 * (m.byte pc).toNat + (m.byte (pc + 1)).toNat ∧
      (∀ w, f.instruction = .invalid w → w = f.word) ∧
      (∀ op ≠ .invalid, f.instruction.opcode = op ↔ f.word.Fits op.pattern) ∧
      (f.instruction.opcode = .invalid ↔ ∀ op : Opcode, ¬f.word.Fits op.pattern) ∧
      (∀ (w : Word) (op op' : Opcode), w.Fits op.pattern → w.Fits op'.pattern → op = op') ∧
      (f.instruction.opcode ≠ .invalid → f.instruction.opcode ≠ .jumpOffset →
        f.instruction.assembled = f.word.toNat) ∧
      (f.instruction.opcode = .jumpOffset →
        (f.instruction.nnn : Int) = (v0 + f.word.nnn.val) % 4096) ∧
      f.instruction.KeepsTo f.instruction.opcode.pattern := by
  obtain ⟨w, hw, hvalue⟩ : ∃ w, m.word pc = .ok w ∧
      w.toNat = 256 * (m.byte pc).toNat + (m.byte (pc + 1)).toNat := by
    have hhigh : (m.byte pc).toNat < 256 := UInt8.toNat_lt _
    have hlow : (m.byte (pc + 1)).toNat < 256 := UInt8.toNat_lt _
    refine ⟨_, if_pos ⟨by omega, by simp only [size]; omega⟩, ?_⟩
    rw [Int.toNat_natCast, UInt16.toNat_ofNat']
    omega
  have hfetch : m.fetch pc v0 = .ok ⟨w, .decode v0 w⟩ := by rw [fetch, hw]
  exact ⟨_, hfetch, hvalue, fun _ => Instruction.word_of_decode_eq_invalid,
    fun op => Instruction.opcode_decode_eq_iff, Instruction.opcode_decode_eq_invalid_iff,
    fun _ _ _ => Instruction.eq_of_fits, Instruction.assembled_decode,
    Instruction.nnn_decode_of_jumpOffset, Instruction.keepsTo_pattern _⟩

/-- A shift keeps the register that it does not use in its word, and a jump with a negative offset
wraps around. -/
theorem Memory.shift_and_wrapped_jump :
    let m := Memory.fresh.overlay [0x8A, 0xBE, 0xB1, 0x00]
    (∃ f, m.fetch 0x200 7 = .ok f ∧ f.instruction = .arithmetic .shiftLeft 0xA 0xB ∧
      f.instruction.assembled = 0x8ABE) ∧
    ∃ f, m.fetch 0x202 (-0x101) = .ok f ∧ f.instruction.nnn = 0xFFF := by
  intro m
  have hfirst : 0x200 ≤ 4094 := by decide
  have hsecond : 0x202 ≤ 4094 := by decide
  obtain ⟨f, hf, -, -, -, -, -, hassembled, -⟩ := m.fetch_fits_pattern 7 hfirst
  obtain ⟨g, hg, -, -, -, -, -, -, htarget, -⟩ := m.fetch_fits_pattern (-0x101) hsecond
  have hshift : m.fetch 0x200 7 = .ok ⟨0x8ABE, .arithmetic .shiftLeft 0xA 0xB⟩ := by
    decide +kernel
  have hjump : m.fetch 0x202 (-0x101) = .ok ⟨0xB100, .jumpOffset 0xFFF⟩ := by decide +kernel
  obtain rfl := Except.ok.inj (hf.symm.trans hshift)
  obtain rfl := Except.ok.inj (hg.symm.trans hjump)
  have hnnn := htarget rfl
  refine ⟨⟨_, hf, rfl, hassembled (by decide) (by decide)⟩, _, hg, ?_⟩
  exact Int.ofNat.inj hnnn

end ChipEight
