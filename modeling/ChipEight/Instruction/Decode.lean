import ChipEight.Instruction.Basic
import ChipEight.Memory.Basic

/-!
# Decoding

The first digit of a word picks a family; the families 0, 5, 8, 9, E and F look at the last digit
or the last two as well. Decoding needs the register `V0` besides the word, since a jump with an
offset computes its target at once. Nothing is changed by it.
-/

namespace ChipEight

namespace Arithmetic

def ofDigit? : Nat → Option Arithmetic
  | 0x0 => some .copy
  | 0x1 => some .or
  | 0x2 => some .and
  | 0x3 => some .xor
  | 0x4 => some .add
  | 0x5 => some .sub
  | 0x6 => some .shiftRight
  | 0x7 => some .subFrom
  | 0xE => some .shiftLeft
  | _ => none

def digit : Arithmetic → Nat
  | .copy => 0x0
  | .or => 0x1
  | .and => 0x2
  | .xor => 0x3
  | .add => 0x4
  | .sub => 0x5
  | .shiftRight => 0x6
  | .subFrom => 0x7
  | .shiftLeft => 0xE

theorem ofDigit?_eq_some_iff {d : Nat} {op : Arithmetic} : ofDigit? d = some op ↔ d = op.digit := by
  constructor
  · intro h
    unfold ofDigit? at h
    split at h <;> simp_all [digit] <;> subst h <;> rfl
  · rintro rfl
    cases op <;> rfl

end Arithmetic

namespace Instruction

/-- The instruction that a word encodes, with `v0` in the register `V0`. -/
def decode (v0 : Int) (w : Word) : Instruction :=
  match w.family with
  | 0x0 =>
    if w = 0x00E0 then .clearScreen
    else if w = 0x00EE then .ret
    else .invalid w
  | 0x1 => .jump w.nnn
  | 0x2 => .call w.nnn
  | 0x3 => .skipEqualByte w.x w.nn
  | 0x4 => .skipUnequalByte w.x w.nn
  | 0x5 => if w.n.val = 0 then .skipEqual w.x w.y else .invalid w
  | 0x6 => .setByte w.x w.nn
  | 0x7 => .addByte w.x w.nn
  | 0x8 =>
    match Arithmetic.ofDigit? w.n with
    | some op => .arithmetic op w.x w.y
    | none => .invalid w
  | 0x9 => if w.n.val = 0 then .skipUnequal w.x w.y else .invalid w
  | 0xA => .setIndex w.nnn
  | 0xB => .jumpOffset (w.offsetTarget v0)
  | 0xC => .random w.x w.nn
  | 0xD => .draw w.x w.y w.n
  | 0xE =>
    match w.nn.toNat with
    | 0x9E => .skipPressed w.x
    | 0xA1 => .skipReleased w.x
    | _ => .invalid w
  | _ =>
    match w.nn.toNat with
    | 0x07 => .getDelay w.x
    | 0x0A => .waitKey w.x
    | 0x15 => .setDelay w.x
    | 0x18 => .setSound w.x
    | 0x1E => .addIndex w.x
    | 0x29 => .indexGlyph w.x
    | 0x33 => .storeDecimal w.x
    | 0x55 => .saveRegisters w.x
    | 0x65 => .loadRegisters w.x
    | _ => .invalid w

end Instruction

/-- The instruction at `pc`, with `v0` in the register `V0`. -/
def Memory.fetch (m : Memory) (pc v0 : Int) : Except Fault Fetched :=
  match m.word pc with
  | .ok w => .ok ⟨w, .decode v0 w⟩
  | .error e => .error e

end ChipEight
