/-!
# Opcodes

The kinds of instructions, each with its name and the pattern of the words that encode it. In a
pattern a hexadecimal digit stands for itself, `X` and `Y` for the number of a register, and a run
of `N` for a number of as many digits.
-/

namespace ChipEight

/-- What is done with the registers `VX` and `VY`. -/
inductive Arithmetic where
  | copy
  | or
  | and
  | xor
  | add
  | sub
  | shiftRight
  | subFrom
  | shiftLeft
  deriving DecidableEq, Repr

inductive Opcode where
  | invalid
  | clearScreen
  | ret
  | jump
  | call
  | skipEqualByte
  | skipUnequalByte
  | skipEqual
  | setByte
  | addByte
  | arithmetic (op : Arithmetic)
  | skipUnequal
  | setIndex
  | jumpOffset
  | random
  | draw
  | skipPressed
  | skipReleased
  | getDelay
  | waitKey
  | setDelay
  | setSound
  | addIndex
  | indexGlyph
  | storeDecimal
  | saveRegisters
  | loadRegisters
  deriving DecidableEq, Repr

namespace Arithmetic

def all : List Arithmetic :=
  [.copy, .or, .and, .xor, .add, .sub, .shiftRight, .subFrom, .shiftLeft]

def name : Arithmetic → String
  | .copy => "VX_SET_VY"
  | .or => "VX_OR_VY"
  | .and => "VX_AND_VY"
  | .xor => "VX_XOR_VY"
  | .add => "VX_ADD_VY"
  | .sub => "VX_SUB_VY"
  | .shiftRight => "VX_SHR"
  | .subFrom => "VX_SUBN_VY"
  | .shiftLeft => "VX_SHL"

def pattern : Arithmetic → String
  | .copy => "8XY0"
  | .or => "8XY1"
  | .and => "8XY2"
  | .xor => "8XY3"
  | .add => "8XY4"
  | .sub => "8XY5"
  | .shiftRight => "8XY6"
  | .subFrom => "8XY7"
  | .shiftLeft => "8XYE"

end Arithmetic

namespace Opcode

def all : List Opcode :=
  [.invalid, .clearScreen, .ret, .jump, .call, .skipEqualByte, .skipUnequalByte, .skipEqual,
    .setByte, .addByte] ++ Arithmetic.all.map .arithmetic ++
  [.skipUnequal, .setIndex, .jumpOffset, .random, .draw, .skipPressed, .skipReleased, .getDelay,
    .waitKey, .setDelay, .setSound, .addIndex, .indexGlyph, .storeDecimal, .saveRegisters,
    .loadRegisters]

def name : Opcode → String
  | .invalid => "INVALID"
  | .clearScreen => "CLEAR_SCREEN"
  | .ret => "RETURN"
  | .jump => "JUMP"
  | .call => "CALL"
  | .skipEqualByte => "SKIP_VX_EQ_NN"
  | .skipUnequalByte => "SKIP_VX_NE_NN"
  | .skipEqual => "SKIP_VX_EQ_VY"
  | .setByte => "SET_VX_NN"
  | .addByte => "ADD_VX_NN"
  | .arithmetic op => op.name
  | .skipUnequal => "SKIP_VX_NE_VY"
  | .setIndex => "SET_INDEX"
  | .jumpOffset => "JUMP_V0"
  | .random => "RAND"
  | .draw => "DRAW"
  | .skipPressed => "SKIP_KEY"
  | .skipReleased => "SKIP_NOT_KEY"
  | .getDelay => "GET_DELAY"
  | .waitKey => "WAIT_KEY"
  | .setDelay => "SET_DELAY"
  | .setSound => "SET_SOUND"
  | .addIndex => "ADD_INDEX_VX"
  | .indexGlyph => "SET_INDEX_FONT"
  | .storeDecimal => "BCD"
  | .saveRegisters => "REG_DUMP"
  | .loadRegisters => "REG_LOAD"

/-- The words that encode an instruction of this kind; no word is `????`. -/
def pattern : Opcode → String
  | .invalid => "????"
  | .clearScreen => "00E0"
  | .ret => "00EE"
  | .jump => "1NNN"
  | .call => "2NNN"
  | .skipEqualByte => "3XNN"
  | .skipUnequalByte => "4XNN"
  | .skipEqual => "5XY0"
  | .setByte => "6XNN"
  | .addByte => "7XNN"
  | .arithmetic op => op.pattern
  | .skipUnequal => "9XY0"
  | .setIndex => "ANNN"
  | .jumpOffset => "BNNN"
  | .random => "CXNN"
  | .draw => "DXYN"
  | .skipPressed => "EX9E"
  | .skipReleased => "EXA1"
  | .getDelay => "FX07"
  | .waitKey => "FX0A"
  | .setDelay => "FX15"
  | .setSound => "FX18"
  | .addIndex => "FX1E"
  | .indexGlyph => "FX29"
  | .storeDecimal => "FX33"
  | .saveRegisters => "FX55"
  | .loadRegisters => "FX65"

theorem mem_all (op : Opcode) : op ∈ all := by
  cases op with
  | arithmetic a => cases a <;> decide
  | _ => decide

end Opcode

end ChipEight
