import ChipEight.Screen.Basic
import ChipEight.Screen.Table
import ChipEight.Text.Hex

/-!
# Pictures

A picture is what a host shows: for every column, from left to right, the colours of its pixels
from the top down. It is made from a screen and a palette of two colours with the same number of
channels, the first for dark pixels and the second for lit ones. The pixels are cut into rows, the
rows are turned into columns, and every pixel is the index of its colour.
-/

namespace ChipEight

open Text

/-- A byte for every channel. -/
abbrev Colour := List UInt8

/-- The two colours as they are asked for, before their channels are checked. -/
structure Palette where
  dark : List Int
  lit : List Int
  deriving DecidableEq, Repr

/-- Why a screen cannot be shown. -/
inductive PictureFault where
  /-- Both sides of the screen are negative. -/
  | unknownSides
  /-- One side is empty and the other, which is the height if `tall`, is negative. -/
  | emptySide (tall : Bool)
  /-- The two colours differ in their number of channels. -/
  | unequalColours
  /-- A channel is not a byte. -/
  | channelOutOfRange
  /-- A pixel is neither dark nor lit. -/
  | noColour
  deriving DecidableEq, Repr

def PictureFault.message : PictureFault → String
  | .unknownSides => "can only specify one unknown dimension"
  | .emptySide tall =>
    "cannot reshape array of size 0 into shape " ++ if tall then "(0)" else "(0,newaxis)"
  | .unequalColours =>
    "setting an array element with a sequence. The requested array has an inhomogeneous shape " ++
      "after 1 dimensions. The detected shape was (2,) + inhomogeneous part."
  | .channelOutOfRange => ""
  | .noColour => ""

structure Picture where
  width : Nat
  height : Nat
  channels : Nat
  columns : List (List Colour)
  deriving DecidableEq, Repr

namespace Palette

/-- White on black. -/
def usual : Palette := ⟨[0, 0, 0], [255, 255, 255]⟩

def isByte (n : Int) : Bool := 0 ≤ n && n < 256

/-- The dark colour and behind it the lit one, if they can be told. -/
def colours (p : Palette) : Except PictureFault (List Colour) :=
  if p.dark.length ≠ p.lit.length then .error .unequalColours
  else if (p.dark ++ p.lit).all isByte = false then .error .channelOutOfRange
  else .ok [p.dark.map UInt8.ofInt, p.lit.map UInt8.ofInt]

end Palette

namespace Picture

/-- The pixels of a screen as a table of its rows, if its sides are those of a table. -/
def pixelTable (s : Screen) :
    Except PictureFault (Table UInt8 s.height.toNat s.width.toNat) :=
  if h : 0 ≤ s.width ∧ 0 ≤ s.height then
    .ok (.ofEntries _ _ s.grid (by
      rw [s.length_grid, Screen.area, Int.toNat_mul h.1 h.2, Nat.mul_comm]))
  else if s.width < 0 ∧ s.height < 0 then .error .unknownSides
  else .error (.emptySide (s.height < 0))

/-- The colours that pixels stand for, if each of them stands for one. -/
def paint? (colours : List Colour) (columns : List (List UInt8)) : Option (List (List Colour)) :=
  columns.mapM fun column => column.mapM fun p => colours[p.toNat]?

def ofScreen (s : Screen) (p : Palette) : Except PictureFault Picture :=
  match pixelTable s with
  | .error e => .error e
  | .ok pixels =>
    match p.colours with
    | .error e => .error e
    | .ok colours =>
      match paint? colours pixels.transpose.rows with
      | none => .error .noColour
      | some columns =>
        .ok ⟨s.width.toNat, s.height.toNat, p.dark.length, columns⟩

/-- All pixels, column by column. -/
def flat (p : Picture) : List Colour := p.columns.flatten

/-- The code of a colour, two digits for each channel. -/
def code (c : Colour) : String := Hex.bytes c

/-- How often every colour occurs, in the order of their codes. -/
def counts (p : Picture) : List (String × Nat) :=
  let flat := p.flat
  (flat.eraseDups.map fun c => (code c, flat.count c)).mergeSort fun a b => a.1 ≤ b.1

end Picture

end ChipEight
