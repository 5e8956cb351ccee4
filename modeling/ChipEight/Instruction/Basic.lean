import ChipEight.Instruction.Opcode
import ChipEight.Text.Hex
import ChipEight.Word

/-!
# Instructions

An instruction carries exactly the operands that it uses. A jump with an offset carries the target
that was computed when it was decoded. `Fetched` is an instruction together with the word that
encodes it, which is what logs and listings show.
-/

namespace ChipEight

open Text

inductive Instruction where
  /-- The word encodes nothing. -/
  | invalid (word : Word)
  | clearScreen
  | ret
  | jump (target : Address)
  | call (target : Address)
  | skipEqualByte (x : Nibble) (nn : UInt8)
  | skipUnequalByte (x : Nibble) (nn : UInt8)
  | skipEqual (x y : Nibble)
  | setByte (x : Nibble) (nn : UInt8)
  | addByte (x : Nibble) (nn : UInt8)
  | arithmetic (op : Arithmetic) (x y : Nibble)
  | skipUnequal (x y : Nibble)
  | setIndex (target : Address)
  | jumpOffset (target : Address)
  | random (x : Nibble) (nn : UInt8)
  | draw (x y n : Nibble)
  | skipPressed (x : Nibble)
  | skipReleased (x : Nibble)
  | getDelay (x : Nibble)
  | waitKey (x : Nibble)
  | setDelay (x : Nibble)
  | setSound (x : Nibble)
  | addIndex (x : Nibble)
  | indexGlyph (x : Nibble)
  | storeDecimal (x : Nibble)
  | saveRegisters (x : Nibble)
  | loadRegisters (x : Nibble)
  deriving DecidableEq, Repr

namespace Instruction

def opcode : Instruction → Opcode
  | .invalid _ => .invalid
  | .clearScreen => .clearScreen
  | .ret => .ret
  | .jump _ => .jump
  | .call _ => .call
  | .skipEqualByte _ _ => .skipEqualByte
  | .skipUnequalByte _ _ => .skipUnequalByte
  | .skipEqual _ _ => .skipEqual
  | .setByte _ _ => .setByte
  | .addByte _ _ => .addByte
  | .arithmetic op _ _ => .arithmetic op
  | .skipUnequal _ _ => .skipUnequal
  | .setIndex _ => .setIndex
  | .jumpOffset _ => .jumpOffset
  | .random _ _ => .random
  | .draw _ _ _ => .draw
  | .skipPressed _ => .skipPressed
  | .skipReleased _ => .skipReleased
  | .getDelay _ => .getDelay
  | .waitKey _ => .waitKey
  | .setDelay _ => .setDelay
  | .setSound _ => .setSound
  | .addIndex _ => .addIndex
  | .indexGlyph _ => .indexGlyph
  | .storeDecimal _ => .storeDecimal
  | .saveRegisters _ => .saveRegisters
  | .loadRegisters _ => .loadRegisters

/-- The first register, zero if the instruction has none. -/
def x : Instruction → Nat
  | .skipEqualByte x _ | .skipUnequalByte x _ | .setByte x _ | .addByte x _ | .random x _
  | .skipEqual x _ | .skipUnequal x _ | .arithmetic _ x _ | .draw x _ _
  | .skipPressed x | .skipReleased x | .getDelay x | .waitKey x | .setDelay x | .setSound x
  | .addIndex x | .indexGlyph x | .storeDecimal x | .saveRegisters x | .loadRegisters x => x
  | _ => 0

/-- The second register, zero if the instruction has none. -/
def y : Instruction → Nat
  | .skipEqual _ y | .skipUnequal _ y | .arithmetic _ _ y | .draw _ y _ => y
  | _ => 0

/-- The number of one digit, zero if the instruction has none. -/
def n : Instruction → Nat
  | .draw _ _ n => n
  | _ => 0

/-- The number of two digits, zero if the instruction has none. -/
def nn : Instruction → Nat
  | .skipEqualByte _ nn | .skipUnequalByte _ nn | .setByte _ nn | .addByte _ nn
  | .random _ nn => nn.toNat
  | _ => 0

/-- The address, zero if the instruction has none. -/
def nnn : Instruction → Nat
  | .jump a | .call a | .setIndex a | .jumpOffset a => a
  | _ => 0

end Instruction

/-- An instruction and the word that encodes it. -/
structure Fetched where
  word : Word
  instruction : Instruction
  deriving DecidableEq, Repr

/-- The name of the instruction and its word in parentheses. -/
def Fetched.text (f : Fetched) : String :=
  match f.instruction.opcode with
  | .invalid => "INVALID(" ++ Hex.marked 6 f.word.toNat ++ ")"
  | op => op.name ++ "(" ++ Hex.padded 4 f.word.toNat ++ ")"

end ChipEight
