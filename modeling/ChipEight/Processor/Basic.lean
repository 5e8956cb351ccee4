import ChipEight.Processor.CallStack
import ChipEight.Word

/-!
# The processor

The program counter, the call stack, the index register and sixteen byte registers. The program
counter is an integer, as nothing but a fetch checks it. Registers are numbered by a digit within
an instruction and by an integer from outside, where a number may name no register.
-/

namespace ChipEight

structure Processor where
  pc : Int
  calls : CallStack
  index : UInt16
  v : Vector UInt8 16
  deriving DecidableEq

namespace Processor

/-- About to run the first instruction of a program. -/
def fresh : Processor := ⟨0x200, .empty, 0, Vector.replicate 16 0⟩

/-! ## Registers -/

/-- The register that flags carries, borrows and collisions. -/
def flag : Nibble := ⟨0xF, by decide⟩

/-- The register that is added to the target of a jump with an offset. -/
def offset : Nibble := ⟨0x0, by decide⟩

def reg (p : Processor) (x : Nibble) : UInt8 := p.v[x]

def setReg (p : Processor) (x : Nibble) (b : UInt8) : Processor := { p with v := p.v.set x b }

/-- The register that an integer names. -/
def register? (number : Int) : Except Fault Nibble :=
  match Nibble.ofInt? number with
  | some x => .ok x
  | none => .error (.noRegister number)

def getRegister (p : Processor) (number : Int) : Except Fault UInt8 :=
  (register? number).map p.reg

/-- Puts a value modulo 256 into a register. -/
def setRegister (p : Processor) (number value : Int) : Except Fault Processor :=
  (register? number).map fun x => p.setReg x (UInt8.ofInt value)

/-- Puts a value modulo 65536 into the index register. -/
def setIndex (p : Processor) (value : Int) : Processor := { p with index := UInt16.ofInt value }

/-! ## The program counter -/

/-- On to the next instruction. -/
def advance (p : Processor) : Processor := { p with pc := p.pc + 2 }

def jump (p : Processor) (target : Int) : Processor := { p with pc := target }

/-- Keeps the address of the call and goes to the target, of which twelve bits count. -/
def call (p : Processor) (target : Int) : Except Fault Processor :=
  match p.calls.push? p.pc with
  | some calls => .ok { p with calls, pc := target % 0x1000 }
  | none => .error (.callOverflow p.pc)

/-- Goes on behind the latest call. -/
def ret (p : Processor) : Except Fault Processor :=
  match p.calls.pop? with
  | some (addr, calls) => .ok { p with calls, pc := addr + 2 }
  | none => .error (.callUnderflow p.pc)

theorem reg_setReg (p : Processor) (x y : Nibble) (b : UInt8) :
    (p.setReg x b).reg y = if x = y then b else p.reg y := by
  simp [reg, setReg, Vector.getElem_set, Fin.ext_iff]

end Processor

end ChipEight
