import ChipEight.Machine.Tick

/-!
# Runs without a window

A recorder keeps a copy of the screen after every tick that signalled a redraw, and counts the
ticks that signalled a tone. It can record several runs one after another.
-/

namespace ChipEight

structure Recorder where
  snapshots : Array Screen
  toneTicks : Nat

namespace Recorder

def empty : Recorder := ⟨#[], 0⟩

/-- What a completed tick adds to the record. -/
def note (r : Recorder) (m : Machine) (signals : Signals) : Recorder where
  snapshots := if signals.redraw then r.snapshots.push m.screen else r.snapshots
  toneTicks := if signals.tone then r.toneTicks + 1 else r.toneTicks

/-- Records a number of ticks, unless a fault stops them. -/
def recordTicks (r : Recorder) (m : Machine) (keys : Keys) :
    Nat → Outcome Fault (Recorder × Machine) Unit
  | 0 => .done (r, m) ()
  | n + 1 =>
    match m.tick keys with
    | ⟨m, .error e⟩ => .stopped (r, m) e
    | ⟨m, .ok signals⟩ => (r.note m signals).recordTicks m keys n

/-- Records a run. The answer is the number that was asked for. -/
def record (r : Recorder) (m : Machine) (keys : Keys) (n : Int) :
    Outcome Fault (Recorder × Machine) Int :=
  let o := r.recordTicks m keys n.toNat
  ⟨o.state, o.answer.map fun _ => n⟩

end Recorder

end ChipEight
