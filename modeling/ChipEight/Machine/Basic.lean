import ChipEight.FileTree
import ChipEight.Instruction.Decode
import ChipEight.Keypad
import ChipEight.Log
import ChipEight.Processor.Basic
import ChipEight.Random.Source
import ChipEight.Screen.Sprite
import ChipEight.Timer

/-!
# The machine

A processor with memory, a screen, a delay timer, a sound timer and a source of random bytes.
Besides them the machine counts its ticks and the words that encoded no instruction, and keeps
what the latest tick signalled to the host.
-/

namespace ChipEight

/-- What a tick tells the host. -/
structure Signals where
  /-- The screen was drawn on or cleared. -/
  redraw : Bool
  /-- The sound timer is about to run out. -/
  tone : Bool
  deriving DecidableEq, Repr

structure Machine where
  processor : Processor
  memory : Memory
  screen : Screen
  delay : Timer
  sound : Timer
  random : Random.Source
  ticks : Nat
  /-- Words met that encode no instruction. -/
  unknown : Nat
  signals : Signals
  /-- Whether every instruction is logged. -/
  trace : Bool

namespace Machine

/-- A machine without a program. -/
def fresh (random : Random.Source) : Machine where
  processor := .fresh
  memory := .fresh
  screen := .usual
  delay := .idle
  sound := .idle
  random
  ticks := 0
  unknown := 0
  signals := ⟨false, false⟩
  trace := false

/-- Everything but memory, the random source and the wish for a trace as it was at first. -/
def reset (m : Machine) : Machine where
  processor := .fresh
  memory := m.memory
  screen := m.screen.clear
  delay := .idle
  sound := .idle
  random := m.random
  ticks := 0
  unknown := 0
  signals := ⟨false, false⟩
  trace := m.trace

/-- Places a program in memory. -/
def load (m : Machine) (program : List UInt8) : Except LoadFault Machine :=
  (m.memory.load program).map fun memory => { m with memory }

/-- Places the content of a file in memory. The answer is its size. -/
def loadFile (m : Machine) (files : Files) (path : String) : Except LoadFault (Machine × Nat) :=
  if path.toList.contains (Char.ofNat 0) then .error .badPath
  else
    match files path with
    | .error cause => .error (.unreadable path cause)
    | .ok program =>
      if programLimit < program.length then .error (.fileTooLong path program.length)
      else (m.load program).map fun m => (m, program.length)

/-- What is logged when a file of a size has been loaded. -/
def loadedLine (path : String) (size : Nat) : Log.Line :=
  ⟨.info, .machine, "Loaded " ++ toString size ++ " bytes from " ++ path⟩

/-! ## Access to the parts -/

def reg (m : Machine) (x : Nibble) : UInt8 := m.processor.reg x

def setReg (m : Machine) (x : Nibble) (b : UInt8) : Machine :=
  { m with processor := m.processor.setReg x b }

/-- One in the flag register if a condition holds, else zero. -/
def setFlag (m : Machine) (c : Bool) : Machine := m.setReg Processor.flag (if c then 1 else 0)

/-- Puts a value modulo 65536 into the index register. -/
def setIndex (m : Machine) (value : Int) : Machine :=
  { m with processor := m.processor.setIndex value }

/-- On to the next instruction. -/
def advance (m : Machine) : Machine := { m with processor := m.processor.advance }

/-- On to the next instruction, or over it if a condition holds. -/
def skipIf (m : Machine) (c : Bool) : Machine := if c then m.advance.advance else m.advance

def jump (m : Machine) (target : Int) : Machine :=
  { m with processor := m.processor.jump target }

/-- The instruction at the program counter. -/
def fetch (m : Machine) : Except Fault Fetched :=
  m.memory.fetch m.processor.pc (m.reg Processor.offset).toNat

end Machine

end ChipEight
