import ChipEight.Text.DecimalDigit

/-!
# Integers as people type them

Blanks may stand on both sides. Between them come an optional sign and decimal digits of any
script, of which any two neighbours may be parted by one underscore. A text of more than 4300
digits is refused.
-/

namespace ChipEight.Text.Integer

/-- Blanks that may surround a number. The four separators below the blank are not among them. -/
def isBlank (c : Char) : Bool :=
  [0x09, 0x0A, 0x0B, 0x0C, 0x0D, 0x20, 0x85, 0xA0, 0x1680, 0x2028, 0x2029, 0x202F, 0x205F,
    0x3000].contains c.toNat || (0x2000 ≤ c.toNat && c.toNat ≤ 0x200A)

def digitLimit : Nat := 4300

/-- The blanks on both sides taken off. -/
def strip (text : List Char) : List Char :=
  ((text.dropWhile isBlank).reverse.dropWhile isBlank).reverse

/-- Digits behind a digit, an underscore allowed in front of each. -/
def digitsAfter? : List Char → Option (List Nat)
  | [] => some []
  | '_' :: c :: rest => do
    let d ← DecimalDigit.value? c
    return d :: (← digitsAfter? rest)
  | c :: rest => do
    let d ← DecimalDigit.value? c
    return d :: (← digitsAfter? rest)

/-- One digit or more. -/
def digits? : List Char → Option (List Nat)
  | [] => none
  | c :: rest => do
    let d ← DecimalDigit.value? c
    return d :: (← digitsAfter? rest)

def ofDigits (ds : List Nat) : Nat := ds.foldl (fun n d => 10 * n + d) 0

def magnitude? (text : List Char) : Option Nat :=
  match digits? text with
  | some ds => if ds.length ≤ digitLimit then some (ofDigits ds) else none
  | none => none

/-- The integer that the text stands for, if it stands for one. -/
def read? (text : String) : Option Int :=
  match strip text.toList with
  | '-' :: rest => (magnitude? rest).map fun n => -(n : Int)
  | '+' :: rest => (magnitude? rest).map Int.ofNat
  | rest => (magnitude? rest).map Int.ofNat

end ChipEight.Text.Integer
