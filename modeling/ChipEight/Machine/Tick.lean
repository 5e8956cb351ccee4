import ChipEight.Machine.Execute

/-!
# Ticks and runs

A tick fetches one instruction, executes it and then counts both timers down by one. If a fault
cuts it short, the count-down does not happen, and the tick is not counted. A run is a number of
ticks with the same report on the keys.

What a tick logs follows from the state before it, so the log is a function of its own.
-/

namespace ChipEight.Machine

/-- No redraw is signalled. -/
def quieten (m : Machine) : Machine := { m with signals := { m.signals with redraw := false } }

/-- The end of a tick: the tone is signalled if the sound timer is at one before it counts. -/
def countDown (m : Machine) : Machine :=
  { m with
    delay := m.delay.tick
    sound := m.sound.tick
    signals := { m.signals with tone := m.sound.value = 1 }
    ticks := m.ticks + 1 }

/-- One instruction and one step of the timers. -/
def tick (m : Machine) (keys : Keys) : Outcome Fault Machine Signals :=
  let m := m.quieten
  match m.fetch with
  | .error e => .stopped m e
  | .ok fetched =>
    match m.execute keys fetched.instruction with
    | ⟨m, .error e⟩ => .stopped m e
    | ⟨m, .ok _⟩ => .done m.countDown m.countDown.signals

/-- Ticks as often as asked, unless a fault stops it. The answer counts the redraws signalled, on
top of those given. -/
def runTicks (m : Machine) (keys : Keys) (redraws : Nat) : Nat → Outcome Fault Machine Nat
  | 0 => .done m redraws
  | n + 1 =>
    match m.tick keys with
    | ⟨m, .error e⟩ => .stopped m e
    | ⟨m, .ok signals⟩ => m.runTicks keys (if signals.redraw then redraws + 1 else redraws) n

/-- Ticks as often as asked; a negative number is no ticks at all. The answer counts the redraws
signalled. -/
def run (m : Machine) (keys : Keys) (n : Int) : Outcome Fault Machine Nat :=
  m.runTicks keys 0 n.toNat

/-! ## The log -/

/-- What is logged about a code without a report. -/
def missingKey (code : Nat) : Log.Line :=
  ⟨.debug, .machine,
    "Key " ++ Text.Hex.padded 1 code ++ " not in snapshot, treating as released"⟩

/-- What is logged while an instruction executes. -/
def remarks (m : Machine) (keys : Keys) : Instruction → List Log.Line
  | .invalid w =>
    [⟨.warning, .machine, "Unknown opcode " ++ Text.Hex.marked 6 w.toNat ++ " at pc " ++
      Text.Hex.marked 5 m.processor.pc⟩]
  | .skipPressed x | .skipReleased x =>
    let code := (m.reg x).toNat
    if code < 16 && (keys.get? code).isNone then [missingKey code] else []
  | .waitKey _ => ((List.range 16).filter fun (k : Nat) => (keys.get? k).isNone).map missingKey
  | _ => []

/-- What a tick logs. -/
def tickLog (m : Machine) (keys : Keys) : List Log.Line :=
  match m.fetch with
  | .error _ => []
  | .ok fetched =>
    (if m.trace then
      [⟨.debug, .machine, Text.Hex.padded 3 m.processor.pc ++ ": " ++ fetched.text⟩]
    else []) ++ m.remarks keys fetched.instruction

/-- What a number of ticks log, behind the lines that are there already. -/
def logTicks (m : Machine) (keys : Keys) (lines : Array Log.Line) : Nat → Array Log.Line
  | 0 => lines
  | n + 1 =>
    let lines := lines ++ m.tickLog keys
    match m.tick keys with
    | ⟨_, .error _⟩ => lines
    | ⟨m, .ok _⟩ => m.logTicks keys lines n

/-- What a run logs. -/
def runLog (m : Machine) (keys : Keys) (n : Int) : List Log.Line :=
  (m.logTicks keys #[] n.toNat).toList

end ChipEight.Machine
