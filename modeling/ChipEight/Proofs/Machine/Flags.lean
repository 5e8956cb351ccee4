import ChipEight.Proofs.Instruction.Patterns
import ChipEight.Proofs.Machine.Footprint
import ChipEight.Proofs.Machine.Requests

/-!
# Results and flags

Arithmetic on two registers reads both before it writes anything, and writes the flag before the
result. So the result is always that of the old operands, whichever of the registers are the same,
and the flag is lost only where the result goes to the flag register itself. Where it is not, result
and flag together account for the operands: nothing of a sum, a difference or a shift to the right
gets lost.

## Main definitions

* `Arithmetic.value`: the number that an operation leaves in `VX`.
* `Arithmetic.FlagLaw`: how the flag register stands to the result and the operands.
-/

namespace ChipEight

namespace Arithmetic

/-- The number that the operation leaves in `VX`, of the numbers `a` in `VX` and `b` in `VY`. -/
def value : Arithmetic → (a b : Nat) → Int
  | .copy, _, b => b
  | .or, a, b => (a ||| b : Nat)
  | .and, a, b => (a &&& b : Nat)
  | .xor, a, b => (a ^^^ b : Nat)
  | .add, a, b => (a + b) % 256
  | .sub, a, b => (a - b) % 256
  | .shiftRight, a, _ => a / 2
  | .subFrom, a, b => (b - a) % 256
  | .shiftLeft, a, _ => 2 * a % 256

/-- How the number `flag` in the flag register stands to the result and the operands of the
operation; operations on single bits leave there what was there before. -/
def FlagLaw : Arithmetic → (a b result before flag : Int) → Prop
  | .add, a, b, result, _, flag => 256 * flag + result = a + b
  | .sub, a, b, result, _, flag => result + b = a + 256 * (1 - flag)
  | .subFrom, a, b, result, _, flag => result + a = b + 256 * (1 - flag)
  | .shiftRight, a, _, result, _, flag => 2 * result + flag = a
  | .shiftLeft, a, _, _, _, flag => flag = a / 8 % 2
  | _, _, _, _, before, flag => flag = before

variable (op : Arithmetic) (a b before : UInt8)

/-- What the operation leaves in the flag register where its result does not go there. -/
def flagByte : UInt8 := (op.flag? a b).elim before fun c => if c then 1 else 0

theorem toNat_result : ((op.result a b).toNat : Int) = op.value a.toNat b.toNat := by
  have ha : a.toNat < 256 := a.toNat_lt
  have hb : b.toNat < 256 := b.toNat_lt
  cases op with
  | copy => rfl
  | or => rw [result, value, UInt8.toNat_or]
  | and => rw [result, value, UInt8.toNat_and]
  | xor => rw [result, value, UInt8.toNat_xor]
  | add =>
    rw [result, value, UInt8.toNat_add]
    omega
  | sub =>
    rw [result, value, UInt8.toNat_sub]
    omega
  | subFrom =>
    rw [result, value, UInt8.toNat_sub]
    omega
  | shiftRight =>
    have hshift : (a >>> 1).toNat = a.toNat / 2 := by
      rw [UInt8.toNat_shiftRight, Nat.shiftRight_eq_div_pow]
      rfl
    rw [result, value, hshift]
    omega
  | shiftLeft =>
    have hshift : (a <<< 1).toNat = a.toNat * 2 % 256 := by
      rw [UInt8.toNat_shiftLeft, Nat.shiftLeft_eq]
      rfl
    rw [result, value, hshift]
    omega

theorem toNat_bit (c : Bool) : (if c then 1 else 0 : UInt8).toNat = if c then 1 else 0 := by
  cases c <;> rfl

/-- Result and flag account for the operands. -/
theorem flagLaw_flagByte :
    op.FlagLaw a.toNat b.toNat (op.result a b).toNat before.toNat
      (op.flagByte a b before).toNat := by
  have ha : a.toNat < 256 := a.toNat_lt
  have hb : b.toNat < 256 := b.toNat_lt
  rw [toNat_result]
  cases op with
  | copy | or | and | xor => rfl
  | add =>
    simp only [FlagLaw, value, flagByte, flag?, Option.elim_some, toNat_bit]
    simp only [decide_eq_true_eq]
    split <;> omega
  | sub | subFrom =>
    simp only [FlagLaw, value, flagByte, flag?, Option.elim_some, toNat_bit]
    simp only [decide_eq_true_eq, UInt8.le_iff_toNat_le]
    split <;> omega
  | shiftRight =>
    simp only [FlagLaw, value, flagByte, flag?, Option.elim_some, toNat_bit]
    simp only [Nat.testBit_zero, decide_eq_true_eq]
    split <;> omega
  | shiftLeft =>
    simp only [FlagLaw, flagByte, flag?, Option.elim_some, toNat_bit]
    simp only [Nat.testBit_eq_decide_div_mod_eq, decide_eq_true_eq]
    split <;> omega

end Arithmetic

namespace Machine

variable {m t : Machine} {keys : Keys} {f : Fetched} {op : Arithmetic} {x y r : Nibble}

/-! ## Registers behind an instruction -/

theorem reg_calculate_self (m : Machine) (op : Arithmetic) (x y : Nibble) :
    (m.calculate op x y).reg x = op.result (m.reg x) (m.reg y) := by
  unfold calculate
  dsimp only
  rw [reg_setReg_self]

theorem reg_calculate_flag (m : Machine) (op : Arithmetic) (y : Nibble)
    (hx : x ≠ Processor.flag) :
    (m.calculate op x y).reg Processor.flag =
      op.flagByte (m.reg x) (m.reg y) (m.reg Processor.flag) := by
  unfold calculate Arithmetic.flagByte
  dsimp only
  rw [reg_setReg_of_ne _ _ hx.symm]
  cases op.flag? (m.reg x) (m.reg y) with
  | none => rfl
  | some c => exact reg_setReg_self _ _ _

/-! ## Registers behind a tick -/

/-- The registers behind a tick that calculates, whichever of the three are the same. -/
theorem reg_tick_arithmetic (hf : m.fetch = .ok f) (hi : f.instruction = .arithmetic op x y)
    (keys : Keys) :
    let t := (m.tick keys).state
    (m.tick keys).fault? = none ∧ t.reg x = op.result (m.reg x) (m.reg y) ∧
      (x ≠ Processor.flag →
        t.reg Processor.flag = op.flagByte (m.reg x) (m.reg y) (m.reg Processor.flag)) ∧
      ∀ r, r ≠ x → r ≠ Processor.flag → t.reg r = m.reg r := by
  intro t
  have hx : m.quieten.execute keys f.instruction =
      .done (m.quieten.advance.calculate op x y) () := by
    rw [hi]
    rfl
  obtain ⟨hok, hp⟩ := processor_tick_of_done hf hx
  have hreg (r : Nibble) : t.reg r = (m.quieten.advance.calculate op x y).reg r :=
    congrArg (·.reg r) hp
  refine ⟨hok, ?_, fun hne => ?_, fun r hr hflag => ?_⟩
  · rw [hreg, reg_calculate_self]
    rfl
  · rw [hreg, reg_calculate_flag _ _ _ hne]
    rfl
  · rw [hreg, reg_calculate _ _ hr fun hboth => hflag hboth.1]
    rfl

theorem reg_tick_addByte {nn : UInt8} (hf : m.fetch = .ok f)
    (hi : f.instruction = .addByte x nn) (keys : Keys) :
    (m.tick keys).fault? = none ∧ (m.tick keys).state.reg x = m.reg x + nn ∧
      ∀ r, r ≠ x → (m.tick keys).state.reg r = m.reg r := by
  have hx : m.quieten.execute keys f.instruction =
      .done (m.quieten.advance.setReg x (m.quieten.reg x + nn)) () := by
    rw [hi]
    rfl
  obtain ⟨hok, hp⟩ := processor_tick_of_done hf hx
  have hreg (r : Nibble) : (m.tick keys).state.reg r =
      (m.quieten.advance.setReg x (m.quieten.reg x + nn)).reg r := congrArg (·.reg r) hp
  refine ⟨hok, ?_, fun r hr => ?_⟩
  · rw [hreg, reg_setReg_self]
    rfl
  · rw [hreg, reg_setReg_of_ne _ _ hr]
    rfl

theorem tick_addIndex (hf : m.fetch = .ok f) (hi : f.instruction = .addIndex x) (keys : Keys) :
    let total := (m.reg x).toNat + m.processor.index.toNat
    let t := (m.tick keys).state
    (m.tick keys).fault? = none ∧ t.processor.index.toNat = total % 65536 ∧
      t.reg Processor.flag = (if 4095 < total then 1 else 0) ∧
      ∀ r, r ≠ Processor.flag → t.reg r = m.reg r := by
  intro total t
  have hx : m.quieten.execute keys f.instruction =
      .done ((m.quieten.setFlag (0xFFF < total)).setIndex total).advance () := by
    rw [hi]
    rfl
  obtain ⟨hok, hp⟩ := processor_tick_of_done hf hx
  have hreg (r : Nibble) : t.reg r = (m.quieten.setFlag (0xFFF < total)).reg r :=
    congrArg (·.reg r) hp
  refine ⟨hok, ?_, ?_, fun r hr => ?_⟩
  · rw [hp]
    have hindex := (m.quieten.setFlag (0xFFF < total)).toNat_index_setIndex total
    exact hindex.trans (by omega)
  · rw [hreg, setFlag, reg_setReg_self]
    simp
  · rw [hreg, setFlag, reg_setReg_of_ne _ _ hr]
    rfl

/-- Arithmetic on two registers gives the number of the old operands, also where `VX` and `VY` are
the same register, or one of them is the flag register. Where the result does not go to the flag
register, the flag stands to it and to the operands as the operation has it. The index register is
added to in the same way. No register changes but those that are meant. -/
theorem flags_account_for_operands (hf : m.fetch = .ok f) (keys : Keys) :
    let w := f.word
    let t := (m.tick keys).state
    let a := (m.reg w.x).toNat
    let b := (m.reg w.y).toNat
    let i := m.processor.index.toNat
    (∀ op : Arithmetic, w.Fits op.pattern →
      (m.tick keys).fault? = none ∧ ((t.reg w.x).toNat : Int) = op.value a b ∧
      (w.x ≠ Processor.flag → op.FlagLaw a b (t.reg w.x).toNat (m.reg Processor.flag).toNat
        (t.reg Processor.flag).toNat) ∧
      (∀ r, r ≠ w.x → r ≠ Processor.flag → t.reg r = m.reg r)) ∧
    (w.Fits "7XNN" →
      (m.tick keys).fault? = none ∧ (t.reg w.x).toNat = (a + w.nn.toNat) % 256 ∧
      ∀ r, r ≠ w.x → t.reg r = m.reg r) ∧
    (w.Fits "FX1E" →
      (m.tick keys).fault? = none ∧ t.processor.index.toNat = (i + a) % 65536 ∧
      t.reg Processor.flag = (if 4095 < i + a then 1 else 0) ∧
      ∀ r, r ≠ Processor.flag → t.reg r = m.reg r) := by
  intro w t a b i
  refine ⟨fun op hw => ?_, fun hw => ?_, fun hw => ?_⟩
  · have hi : f.instruction = .arithmetic op w.x w.y :=
      Memory.instruction_of_fits (.arithmetic op) hf hw
    obtain ⟨hok, hresult, hflag, hothers⟩ := reg_tick_arithmetic hf hi keys
    refine ⟨hok, ?_, fun hx => ?_, hothers⟩
    · rw [hresult, Arithmetic.toNat_result]
    · rw [hresult, hflag hx]
      exact op.flagLaw_flagByte _ _ _
  · have hi : f.instruction = .addByte w.x w.nn :=
      Memory.instruction_of_fits .addByte hf hw
    obtain ⟨hok, hresult, hothers⟩ := reg_tick_addByte hf hi keys
    refine ⟨hok, ?_, hothers⟩
    rw [hresult, UInt8.toNat_add]
  · have hi : f.instruction = .addIndex w.x :=
      Memory.instruction_of_fits .addIndex hf hw
    obtain ⟨hok, hindex, hflag, hothers⟩ := tick_addIndex hf hi keys
    rw [Nat.add_comm] at hindex hflag
    exact ⟨hok, hindex, hflag, hothers⟩

/-- The flag register is the second operand of a sum with a carry, and the carry replaces it. -/
theorem carry_over_operand :
    let m := ([.load [0x6F, 0xFF, 0x6A, 0x02, 0x8A, 0xF4], .run .none 2] : List Request).foldl
      perform (fresh (.tape [] 0))
    let t := (m.tick .none).state
    m.Reachable ∧ m.fetch = .ok ⟨0x8AF4, .arithmetic .add 0xA 0xF⟩ ∧
      (m.reg 0xA).toNat = 2 ∧ (m.reg 0xF).toNat = 255 ∧ ((t.reg 0xA).toNat : Int) = 1 ∧
      256 * ((t.reg 0xF).toNat : Int) + (t.reg 0xA).toNat = 2 + 255 := by
  intro m t
  have hm : m.Reachable := (Reachable.fresh _).foldl_perform _
  obtain ⟨hf, hten, hflag⟩ : m.fetch = .ok ⟨0x8AF4, .arithmetic .add 0xA 0xF⟩ ∧
      (m.reg 0xA).toNat = 2 ∧ (m.reg 0xF).toNat = 255 := by decide +kernel
  clear_value m
  obtain ⟨-, hresult, hlaw, -⟩ := (flags_account_for_operands hf .none).1 .add (by decide)
  have hsum := hlaw (by decide)
  rw [show (Word.x 0x8AF4) = 0xA from rfl, show (Word.y 0x8AF4) = 0xF from rfl, hten,
    hflag] at hresult hsum
  exact ⟨hm, hf, hten, hflag, hresult, hsum⟩

end Machine

end ChipEight
