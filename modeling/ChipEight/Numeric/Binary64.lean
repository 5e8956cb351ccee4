import ChipEight.Numeric.Rounding

/-!
# Double-precision numbers

Every finite number of the binary interchange format with 64 bits is a whole multiple of its least
positive number, `2 ^ (-1074)`, so the multiple alone says which number it is, and its arithmetic
is arithmetic of integers followed by one rounding. Zero has no sign here, since nothing that the
library computes can tell the two zeros apart.
-/

namespace ChipEight.Numeric

inductive Binary64 where
  /-- The multiple of the least positive number. -/
  | finite (units : Int)
  | infinite (negative : Bool)
  | notANumber
  deriving DecidableEq, Repr

namespace Binary64

/-- The number of least positive numbers in one. -/
def one : Nat := 1 <<< 1074

/-- The first power of two that is too large to be finite, in least positive numbers. -/
def limit : Nat := 1 <<< (1024 + 1074)

/-- The magnitude `n / d`, in least positive numbers, rounded to 53 significant bits. -/
def roundUnits (n d : Nat) : Nat :=
  let shift := (n / d).log2 + 1 - 53
  roundDiv n (d <<< shift) <<< shift

/-- The quotient `n / d` rounded to the nearest number, ties to even. -/
def ofRatio (n : Int) (d : Nat) : Binary64 :=
  let units := roundUnits (n.natAbs * one) d
  if limit ≤ units then .infinite (n < 0)
  else .finite (if n < 0 then -(units : Int) else units)

def ofInt (n : Int) : Binary64 := ofRatio n 1

/-- The number written `mantissa · 10 ^ exponent`. Outside the powers of ten that the format
reaches the result does not depend on the exponent any more. -/
def ofDecimal (mantissa exponent : Int) : Binary64 :=
  let size : Int := (Nat.toDigits 10 mantissa.natAbs).length
  if mantissa = 0 then .finite 0
  else if 310 < exponent + size then .infinite (mantissa < 0)
  else if exponent + size < -330 then .finite 0
  else if 0 ≤ exponent then ofRatio (mantissa * Nat.pow 10 exponent.toNat) 1
  else ofRatio mantissa (Nat.pow 10 (-exponent).toNat)

def isZero : Binary64 → Bool
  | .finite units => units = 0
  | _ => false

/-- The quotient of two numbers, the divisor not being zero. -/
def divide : Binary64 → Binary64 → Binary64
  | .finite a, .finite b => ofRatio (a * b.sign) b.natAbs
  | .finite _, .infinite _ => .finite 0
  | .infinite negative, .finite b => .infinite (negative != (b < 0 : Bool))
  | _, _ => .notANumber

/-- The product of a number and a positive integer. -/
def scale (a : Binary64) (k : Nat) : Binary64 :=
  match a with
  | .finite units => ofRatio (units * k) one
  | x => x

/-- The nearest whole number, a half going to the even neighbour. -/
def round? : Binary64 → Option Int
  | .finite units => some (units.sign * roundDiv units.natAbs one)
  | _ => none

/-- The whole part. -/
def truncate? : Binary64 → Option Int
  | .finite units => some (units.tdiv one)
  | _ => none

end Binary64

end ChipEight.Numeric
