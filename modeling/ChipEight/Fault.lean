import ChipEight.Text.Hex

/-!
# Faults

A fault is what the machine cannot do: reach an address outside memory, call or return beyond its
call stack, use a register that it does not have, or take a coordinate modulo an empty side.
-/

namespace ChipEight

open Text

inductive Fault where
  /-- The address is outside memory. -/
  | bus (addr : Int)
  /-- A call at `pc` found the call stack full. -/
  | callOverflow (pc : Int)
  /-- A return at `pc` found the call stack empty. -/
  | callUnderflow (pc : Int)
  /-- There is no register with this number. -/
  | noRegister (number : Int)
  /-- A coordinate was taken modulo a side of length zero. -/
  | emptySide
  deriving DecidableEq, Repr

/-- Return addresses that the call stack holds at most. -/
abbrev callDepth : Nat := 64

def Fault.message : Fault → String
  | .bus addr => "Bus fault @ " ++ Hex.marked 6 addr
  | .callOverflow pc =>
    "Call stack overflow at pc " ++ Hex.marked 5 pc ++ " (depth " ++ toString callDepth ++ ")"
  | .callUnderflow pc => "Return with empty call stack at pc " ++ Hex.marked 5 pc
  | .noRegister number => "No register V" ++ toString number
  | .emptySide => "integer modulo by zero"

/-- Whether the fault is one of the machine itself. A division by zero is none: nobody waits for it,
so it ends whatever goes on. -/
def Fault.isReported : Fault → Bool
  | .emptySide => false
  | _ => true

end ChipEight
