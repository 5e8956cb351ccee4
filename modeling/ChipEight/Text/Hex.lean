/-!
# Hexadecimal numerals

A numeral is a sign, a mark, padding zeros and the digits of the magnitude, in this order. The
width that a caller asks for counts all of them, so a sign or a mark takes the place of zeros, and
a magnitude that needs more room is never cut.
-/

namespace ChipEight.Text

/-- The letters that stand for the digits ten to fifteen. -/
inductive LetterCase where
  | lower
  | upper
  deriving DecidableEq, Repr

namespace Hex

/-- The digits of a magnitude, without leading zeros. -/
def digits : LetterCase → Nat → List Char
  | .lower, n => Nat.toDigits 16 n
  | .upper, n => (Nat.toDigits 16 n).map Char.toUpper

/-- A numeral at least `width` characters wide, its sign and its mark included. -/
def numeral (mark : String) (letters : LetterCase) (width : Nat) (n : Int) : String :=
  let head := (if n < 0 then ['-'] else []) ++ mark.toList
  let tail := digits letters n.natAbs
  String.ofList (head ++ List.replicate (width - (head.length + tail.length)) '0' ++ tail)

/-- Upper-case digits, padded to `width`. -/
def padded (width : Nat) (n : Int) : String := numeral "" .upper width n

/-- Lower-case digits behind `0x`, padded to `width`. -/
def marked (width : Nat) (n : Int) : String := numeral "0x" .lower width n

/-- The two lower-case digits of a byte. -/
def byte (b : UInt8) : String := numeral "" .lower 2 b.toNat

/-- The bytes one after another, two digits each. -/
def bytes (bs : List UInt8) : String := String.join (bs.map byte)

theorem digits_ne_nil (letters : LetterCase) (n : Nat) : digits letters n ≠ [] := by
  cases letters <;> simp [digits]

/-- A numeral fills its width exactly, unless its digits need more room. -/
theorem length_numeral (mark : String) (letters : LetterCase) (width : Nat) (n : Int) :
    (numeral mark letters width n).length =
      max width ((if n < 0 then 1 else 0) + mark.length + (digits letters n.natAbs).length) := by
  rw [← String.length_toList, ← String.length_toList]
  simp only [numeral, String.toList_ofList, List.length_append, List.length_replicate]
  split <;> simp <;> omega

end Hex

end ChipEight.Text
