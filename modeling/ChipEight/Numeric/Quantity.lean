import ChipEight.Numeric.Binary64

/-!
# Quantities

A frequency, a rate or a volume is given as an exact integer or as a double-precision number.
Integers stay exact as long as they meet integers; beside a double they become one first.
-/

namespace ChipEight.Numeric

inductive Quantity where
  | whole (n : Int)
  | real (x : Binary64)
  deriving DecidableEq, Repr

/-- Why a computation with quantities has no answer. -/
inductive QuantityFault where
  /-- A division by zero; `exact` if both numbers are integers. -/
  | divisionByZero (exact : Bool)
  /-- The quotient of two integers is beyond the largest double. -/
  | quotientTooLarge
  /-- An integer beside a double is beyond the largest double. -/
  | integerTooLarge
  /-- A whole number was wanted of an infinite one. -/
  | infinite
  /-- A whole number was wanted of no number. -/
  | notANumber
  deriving DecidableEq, Repr

def QuantityFault.message : QuantityFault → String
  | .divisionByZero true => "division by zero"
  | .divisionByZero false => "float division by zero"
  | .quotientTooLarge => "integer division result too large for a float"
  | .integerTooLarge => "int too large to convert to float"
  | .infinite => "cannot convert float infinity to integer"
  | .notANumber => "cannot convert float NaN to integer"

namespace Quantity

/-- The double nearest to the quantity. -/
def toReal : Quantity → Except QuantityFault Binary64
  | .real x => .ok x
  | .whole n =>
    match Binary64.ofInt n with
    | .infinite _ => .error .integerTooLarge
    | x => .ok x

/-- The double nearest to the quotient. Of two integers it is rounded once only. -/
def divide : Quantity → Quantity → Except QuantityFault Binary64
  | .whole a, .whole b =>
    if b = 0 then .error (.divisionByZero true)
    else
      match Binary64.ofRatio (a * b.sign) b.natAbs with
      | .infinite _ => .error .quotientTooLarge
      | x => .ok x
  | a, b => do
    let x ← a.toReal
    let y ← b.toReal
    if y.isZero then .error (.divisionByZero false) else .ok (x.divide y)

/-- Why a double has no whole part. -/
def unbounded : Binary64 → QuantityFault
  | .notANumber => .notANumber
  | _ => .infinite

/-- The whole number nearest to a double, a half going to the even neighbour. -/
def nearest (x : Binary64) : Except QuantityFault Int :=
  match x.round? with
  | some n => .ok n
  | none => .error (unbounded x)

/-- The whole part of the product of the quantity and a positive integer. -/
def scaled (k : Nat) : Quantity → Except QuantityFault Int
  | .whole n => .ok (n * k)
  | .real x =>
    match (x.scale k).truncate? with
    | some n => .ok n
    | none => .error (unbounded x)

/-- The whole part, which is how a quantity is shown; zero where there is none. -/
def wholePart : Quantity → Int
  | .whole n => n
  | .real x => x.truncate?.getD 0

end Quantity

end ChipEight.Numeric
