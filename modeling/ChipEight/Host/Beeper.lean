import ChipEight.Host.Basic
import ChipEight.Outcome

/-!
# The beeper

A tone that repeats while it is switched on. A beeper makes no sound until it is opened, and it
keeps silent if the host has no mixer. The mixer may settle on another sample rate than the one
asked for; the tone is made for the rate that it settles on, and once for every channel.
-/

namespace ChipEight.Host

open Numeric

structure Beeper where
  sampleRate : Int
  frequency : Quantity
  volume : Quantity
  playing : Bool
  /-- The tone that is ready to be played. -/
  sound : Option Tone
  deriving DecidableEq, Repr

namespace Beeper

def usualRate : Int := 44100

def usualFrequency : Quantity := .whole 440

/-- A quarter of the full scale. -/
def usualVolume : Quantity := .real (.ofDecimal 25 (-2))

/-- A beeper that has not been opened. -/
def closed (sampleRate : Int) (frequency volume : Quantity) : Beeper :=
  ⟨sampleRate, frequency, volume, false, none⟩

def soundOf (t : Tone) (channels : Int) : Sound :=
  ⟨t.period, if 1 < channels then some channels.toNat else none, t.runs⟩

/-- The tone for the rate of a mixer, if there is room for it in every channel. -/
def tone (b : Beeper) (platform : Platform) (rate channels : Int) : Except ToneFault Tone := do
  let tone ← Tone.square platform.shortage? (.whole rate) b.frequency b.volume
  if 1 < channels then Tone.takeRoom platform.shortage? (tone.period * channels.toNat)
  return tone

/-- Asks for the mixer and makes the tone, behind other calls. The answer is whether there is a
mixer. -/
def openOn (b : Beeper) (platform : Platform) (before : Array Call) :
    Effects × Outcome ToneFault Beeper Bool :=
  let asked := Effects.none.call (.mixerInit b.sampleRate (-16) 1)
  match platform.mixer with
  | .absent reason =>
    (asked.note ⟨.warning, .host, "Audio unavailable, running silent: " ++ reason⟩,
      .done b false)
  | .device rate channels =>
    match b.tone platform rate channels with
    | .error e => (asked, .stopped b e)
    | .ok tone =>
      let making := Call.makeSound (soundOf tone channels)
      let made := asked.call making
      match platform.refusal? (before ++ asked.calls) making with
      | some reason => (made, .stopped b (.refused reason))
      | none =>
        (made.note
          ⟨.info, .host, "Audio open: " ++ toString rate ++ " Hz, " ++
            toString b.frequency.wholePart ++ " Hz tone"⟩,
          .done { b with sound := some tone } true)

/-- Switches the tone on or off, with the calls that this takes. -/
def update (b : Beeper) (on : Bool) : List Call × Beeper :=
  if b.sound = none ∨ on = b.playing then ([], b)
  else ([if on then .play (-1) else .stop], { b with playing := on })

/-- Switches the tone off and gives it up. -/
def close (b : Beeper) : List Call × Beeper :=
  let (calls, b) := b.update false
  (calls, { b with sound := none })

end Beeper

end ChipEight.Host
