import ChipEight.Text.Hex
import ChipEight.Word

/-!
# The keypad

Sixteen keys, numbered by a hexadecimal digit. A tick is told about keys by `Keys`: reports that a
code is pressed or released, where the last report on a code counts and a code without a report is
released. A `Keypad` says it of all sixteen keys.
-/

namespace ChipEight

open Text

abbrev Key := Fin 16

/-- The code is not that of a key. -/
structure NotAKey where
  code : Int
  deriving DecidableEq, Repr

def NotAKey.message (e : NotAKey) : String := toString e.code ++ " is not a valid Key"

namespace Key

def all : List Key := List.finRange 16

def ofInt (code : Int) : Except NotAKey Key :=
  match Nibble.ofInt? code with
  | some k => .ok k
  | none => .error ⟨code⟩

def name (k : Key) : String := "K" ++ Hex.padded 1 k.val

end Key

/-! ## Reports on keys -/

/-- Codes with whether they are pressed, the earliest report first. -/
structure Keys where
  reports : List (Int × Bool)
  deriving DecidableEq, Repr

namespace Keys

/-- No reports at all. -/
def none : Keys := ⟨[]⟩

/-- The last report on a code. -/
def get? (keys : Keys) (code : Int) : Option Bool :=
  (keys.reports.findRev? fun report => report.1 = code).map (·.2)

/-- Whether a code is pressed. -/
def held (keys : Keys) (code : Int) : Bool := (keys.get? code).getD false

/-- The greatest key that is pressed. -/
def greatest? (keys : Keys) : Option Key := Key.all.findRev? fun k => keys.held k.val

end Keys

/-- What a host may hand over on keys: nothing at all, or codes with flags of any kind. -/
abbrev KeyFlags (φ : Type) := Option (List (Int × φ))

/-- The reports that flags amount to, by what counts as set. Nothing at all is no reports. -/
def Keys.ofFlags {φ : Type} (isSet : φ → Bool) (flags : KeyFlags φ) : Keys :=
  ⟨(flags.getD []).map fun entry => (entry.1, isSet entry.2)⟩

/-! ## The state of all keys -/

structure Keypad where
  down : Vector Bool 16
  deriving DecidableEq

namespace Keypad

def released : Keypad := ⟨Vector.replicate 16 false⟩

def get (pad : Keypad) (k : Key) : Bool := pad.down[k]

def set (pad : Keypad) (k : Key) (pressed : Bool) : Keypad := ⟨pad.down.set k pressed⟩

/-- The keys with whether they are pressed, in order. -/
def toList (pad : Keypad) : List (Key × Bool) := Key.all.map fun k => (k, pad.get k)

/-- The keys that are pressed. -/
def held (pad : Keypad) : List Key := Key.all.filter pad.get

/-- A report on every key. -/
def toKeys (pad : Keypad) : Keys := ⟨pad.toList.map fun (k, pressed) => ((k.val : Int), pressed)⟩

/-- What reports say of all keys. A report on anything else is refused. -/
def ofKeys (keys : Keys) : Except NotAKey Keypad :=
  match keys.reports.find? fun report => ¬(0 ≤ report.1 ∧ report.1 < 16) with
  | some report => .error ⟨report.1⟩
  | none => .ok ⟨Vector.ofFn fun k => keys.held k.val⟩

/-! ## Where the keys are on a host keyboard

```text
1 2 3 4      1 2 3 C
Q W E R  ->  4 5 6 D
A S D F      7 8 9 E
Z X C V      A 0 B F
```
-/

/-- The host keys, named by the character on them. -/
def layout : List (Char × Key) :=
  [('x', 0x0), ('1', 0x1), ('2', 0x2), ('3', 0x3), ('q', 0x4), ('w', 0x5), ('e', 0x6), ('a', 0x7),
    ('s', 0x8), ('d', 0x9), ('z', 0xA), ('c', 0xB), ('4', 0xC), ('r', 0xD), ('f', 0xE), ('v', 0xF)]

example : ∀ k : Key, ∃ entry ∈ layout, entry.2 = k := by decide

theorem get_set (pad : Keypad) (k l : Key) (pressed : Bool) :
    (pad.set k pressed).get l = if k = l then pressed else pad.get l := by
  simp [get, set, Vector.getElem_set, Fin.ext_iff]

end Keypad

end ChipEight
