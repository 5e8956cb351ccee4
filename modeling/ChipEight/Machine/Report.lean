import ChipEight.Machine.Basic

/-!
# The report on a machine

A text of several lines with the registers, the addresses that wait to be returned to if there are
any, the timers and the counts.
-/

namespace ChipEight.Machine

open Text

/-- Eight registers with their names. -/
def registerLine (m : Machine) (xs : List Nibble) : String :=
  "  " ++ "  ".intercalate
    (xs.map fun x => "V" ++ Hex.padded 1 x.val ++ "=" ++ Hex.padded 2 (m.reg x).toNat)

def pointerLine (m : Machine) : String :=
  "  PC=" ++ Hex.padded 3 m.processor.pc ++ "  I=" ++ Hex.padded 4 m.processor.index.toNat ++
    "  SP=" ++ toString m.processor.calls.depth

/-- The addresses on the call stack, the oldest first; no line if there are none. -/
def stackLines (m : Machine) : List String :=
  match m.processor.calls.live with
  | [] => []
  | live => ["  Stack: " ++ " ".intercalate (live.map (Hex.padded 3))]

def deviceLines (m : Machine) : List String :=
  ["  Delay: " ++ toString m.delay.value.toNat ++ "  Sound: " ++ toString m.sound.value.toNat,
    "  Screen: " ++ toString m.screen.lit ++ " pixels lit",
    "  Ticks: " ++ toString m.ticks ++ "  Unknown opcodes: " ++ toString m.unknown]

def reportLines (m : Machine) : List String :=
  ["=== Registers ===", m.registerLine ((List.finRange 16).take 8),
    m.registerLine ((List.finRange 16).drop 8), m.pointerLine] ++ m.stackLines ++
  ["", "=== Devices ==="] ++ m.deviceLines

def report (m : Machine) : String := "\n".intercalate m.reportLines

end ChipEight.Machine
