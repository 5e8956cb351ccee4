import ChipEight.Machine.Basic

/-!
# Executing an instruction

Each instruction decides for itself when the program counter moves. Most move it before they act;
those that read or write a timer, the index register from a register, or memory move it last, so
that a fault leaves it where it was.
-/

namespace ChipEight

/-! ## Arithmetic on two registers -/

namespace Arithmetic

/-- What `VX` becomes, with `a` in `VX` and `b` in `VY`. -/
def result : Arithmetic → UInt8 → UInt8 → UInt8
  | .copy, _, b => b
  | .or, a, b => a ||| b
  | .and, a, b => a &&& b
  | .xor, a, b => a ^^^ b
  | .add, a, b => a + b
  | .sub, a, b => a - b
  | .shiftRight, a, _ => a >>> 1
  | .subFrom, a, b => b - a
  | .shiftLeft, a, _ => a <<< 1

/-- The flag that goes with the result: a carry, the absence of a borrow, or a bit. A shift to the
left looks at bit 3. Operations on single bits have no flag. -/
def flag? : Arithmetic → UInt8 → UInt8 → Option Bool
  | .add, a, b => some (255 < a.toNat + b.toNat)
  | .sub, a, b => some (b ≤ a)
  | .subFrom, a, b => some (a ≤ b)
  | .shiftRight, a, _ => some (a.toNat.testBit 0)
  | .shiftLeft, a, _ => some (a.toNat.testBit 3)
  | _, _, _ => none

end Arithmetic

namespace Machine

/-- The flag is set first, so that the result wins where `VX` is the flag register. -/
def calculate (m : Machine) (op : Arithmetic) (x y : Nibble) : Machine :=
  let a := m.reg x
  let b := m.reg y
  let flagged := match op.flag? a b with
    | some c => m.setFlag c
    | none => m
  flagged.setReg x (op.result a b)

/-! ## Keys -/

/-- Whether the key that a register names is pressed; `none` if it names no key. -/
def keyIn (m : Machine) (keys : Keys) (x : Nibble) : Option Bool :=
  if (m.reg x).toNat < 16 then some (keys.held (m.reg x).toNat) else none

/-! ## Registers and memory -/

/-- The three decimal digits of a byte. -/
def decimalDigits (b : UInt8) : List UInt8 := [b / 100, b / 10 % 10, b % 10]

/-- The registers `V0` to `VX`. -/
def registersUpTo (x : Nibble) : List Nibble := (List.finRange 16).take (x.val + 1)

/-- Writes bytes from the index register up, then goes on as `after` says. -/
def store (m : Machine) (bytes : List UInt8) (after : Machine → Machine) :
    Outcome Fault Machine Unit :=
  let o := m.memory.writeAll m.processor.index.toNat bytes
  let stored := { m with memory := o.state }
  match o.answer with
  | .ok _ => .done (after stored) ()
  | .error e => .stopped stored e

/-- Reads registers from memory, one byte each from `addr` up. -/
def readRegisters (mem : Memory) (p : Processor) (addr : Int) :
    List Nibble → Outcome Fault Processor Unit
  | [] => .done p ()
  | x :: xs =>
    match mem.read addr with
    | .error e => .stopped p e
    | .ok b => readRegisters mem (p.setReg x b) (addr + 1) xs

/-- Reads registers from the index register up, then goes on as `after` says. -/
def restore (m : Machine) (xs : List Nibble) (after : Machine → Machine) :
    Outcome Fault Machine Unit :=
  let o := readRegisters m.memory m.processor m.processor.index.toNat xs
  let loaded := { m with processor := o.state }
  match o.answer with
  | .ok _ => .done (after loaded) ()
  | .error e => .stopped loaded e

/-- Moves the index register behind `V0` to `VX` and goes on. -/
def passRegisters (x : Nibble) (m : Machine) : Machine :=
  (m.setIndex (m.processor.index.toNat + x.val + 1)).advance

/-! ## All instructions -/

/-- Draws a sprite of `n` rows at `(VX, VY)`. -/
def drawSprite (m : Machine) (x y n : Nibble) : Outcome Fault Machine Unit :=
  let m := m.advance
  let o := m.screen.draw m.memory (m.reg x).toNat (m.reg y).toNat n.val
    m.processor.index.toNat
  let drawn := { m with screen := o.state }
  match o.answer with
  | .ok hit =>
    .done { drawn.setFlag hit with signals := { drawn.signals with redraw := true } } ()
  | .error e => .stopped drawn e

/-- Executes an instruction with what is known of the keys. -/
def execute (m : Machine) (keys : Keys) : Instruction → Outcome Fault Machine Unit
  | .invalid _ => .done { m.advance with unknown := m.unknown + 1 } ()
  | .clearScreen =>
    .done { m.advance with
      screen := m.screen.clear
      signals := { m.signals with redraw := true } } ()
  | .ret => (Outcome.ofExcept m.processor m.processor.ret).inside ({ m with processor := · })
  | .jump target => .done (m.jump target.val) ()
  | .call target =>
    (Outcome.ofExcept m.processor (m.processor.call target.val)).inside
      ({ m with processor := · })
  | .skipEqualByte x nn => .done (m.skipIf (m.reg x = nn)) ()
  | .skipUnequalByte x nn => .done (m.skipIf (m.reg x ≠ nn)) ()
  | .skipEqual x y => .done (m.skipIf (m.reg x = m.reg y)) ()
  | .skipUnequal x y => .done (m.skipIf (m.reg x ≠ m.reg y)) ()
  | .setByte x nn => .done (m.advance.setReg x nn) ()
  | .addByte x nn => .done (m.advance.setReg x (m.reg x + nn)) ()
  | .arithmetic op x y => .done (m.advance.calculate op x y) ()
  | .setIndex target => .done (m.advance.setIndex target.val) ()
  | .jumpOffset target => .done (m.jump target.val) ()
  | .random x nn =>
    let (b, random) := m.random.next
    .done { m.advance.setReg x (nn &&& b) with random } ()
  | .draw x y n => m.drawSprite x y n
  | .skipPressed x => .done (m.skipIf (m.keyIn keys x = some true)) ()
  | .skipReleased x => .done (m.skipIf (m.keyIn keys x = some false)) ()
  | .getDelay x => .done (m.setReg x m.delay.value).advance ()
  | .waitKey x =>
    match keys.greatest? with
    | some k => .done (m.setReg x (UInt8.ofNat k.val)).advance ()
    | none => .done m ()
  | .setDelay x => .done { m.advance with delay := ⟨m.reg x⟩ } ()
  | .setSound x => .done { m.advance with sound := ⟨m.reg x⟩ } ()
  | .addIndex x =>
    let total := (m.reg x).toNat + m.processor.index.toNat
    .done ((m.setFlag (0xFFF < total)).setIndex total).advance ()
  | .indexGlyph x => .done (m.setIndex (m.reg x * UInt8.ofNat Font.glyphHeight).toNat).advance ()
  | .storeDecimal x => m.store (decimalDigits (m.reg x)) advance
  | .saveRegisters x => m.store ((registersUpTo x).map m.reg) (passRegisters x)
  | .loadRegisters x => m.restore (registersUpTo x) (passRegisters x)

end Machine

end ChipEight
