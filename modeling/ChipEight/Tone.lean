import ChipEight.Numeric.Quantity

/-!
# The tone

One period of a square wave in signed samples of 16 bits: the first half, rounded down, is at the
amplitude and the rest at its negative.
-/

namespace ChipEight

open Numeric

structure Tone where
  /-- The number of samples. -/
  period : Nat
  amplitude : Int
  deriving DecidableEq, Repr

/-- Why there is no tone. -/
inductive ToneFault where
  | quantity (e : QuantityFault)
  /-- There is no room for the samples. -/
  | noRoom (reason : String)
  /-- The amplitude or its negative is not a sample. -/
  | sampleOutOfRange
  /-- The host makes no sound of the samples. -/
  | refused (reason : String)
  deriving DecidableEq, Repr

def ToneFault.message : ToneFault → String
  | .quantity e => e.message
  | .noRoom reason | .refused reason => reason
  | .sampleOutOfRange => ""

namespace Tone

/-- The greatest sample, which a volume of one reaches. -/
def fullScale : Nat := 32767

def isSample (n : Int) : Bool := -32768 ≤ n && n ≤ 32767

/-- Nothing, if there is room for so many samples. `shortage?` tells for any number of samples why
there is none. -/
def takeRoom (shortage? : Nat → Option String) (samples : Nat) : Except ToneFault Unit :=
  match shortage? samples with
  | some reason => .error (.noRoom reason)
  | none => .ok ()

/-- The wave for a sample rate, a frequency and a volume. Its period is the nearest number of
samples, but two at least, and room is taken for it; its amplitude is cut to a whole number. -/
def square (shortage? : Nat → Option String) (rate frequency volume : Quantity) :
    Except ToneFault Tone := do
  let quotient ← (rate.divide frequency).mapError .quantity
  let nearest ← (Quantity.nearest quotient).mapError .quantity
  let amplitude ← (volume.scaled fullScale).mapError .quantity
  let period := (max 2 nearest).toNat
  takeRoom shortage? period
  if isSample (-amplitude) && isSample amplitude then return ⟨period, amplitude⟩
  else throw .sampleOutOfRange

def samples (t : Tone) : List Int :=
  List.replicate (t.period / 2) t.amplitude ++
    List.replicate (t.period - t.period / 2) (-t.amplitude)

/-- The samples as values with the number of their repetitions. -/
def runs (t : Tone) : List (Int × Nat) :=
  if t.amplitude = 0 then [(0, t.period)]
  else [(t.amplitude, t.period / 2), (-t.amplitude, t.period - t.period / 2)]

theorem flatMap_runs (t : Tone) :
    t.runs.flatMap (fun run => List.replicate run.2 run.1) = t.samples := by
  unfold runs samples
  split
  · rename_i h
    simp [h, Nat.add_sub_of_le (Nat.div_le_self t.period 2)]
  · simp

end Tone

end ChipEight
