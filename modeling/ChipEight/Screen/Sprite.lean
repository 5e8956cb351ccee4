import ChipEight.Memory.Basic
import ChipEight.Screen.Basic

/-!
# Sprites

A sprite is eight pixels wide and has one byte of memory for each row, the leftmost pixel in the
highest bit. Drawing it turns over the pixels under its set bits, row by row from the top and from
left to right; a hit is a pixel that was lit when it was turned over. The byte of a row is read
before its pixels are drawn, so a sprite that runs out of memory has its upper rows drawn.
-/

namespace ChipEight.Screen

/-- The columns in which a row of a sprite has a pixel. -/
def columns (bits : UInt8) : List Nat := (List.range 8).filter fun c => bits.toNat.testBit (7 - c)

/-- The positions of the pixels of a row of a sprite. -/
def rowPositions (s : Screen) (bits : UInt8) (x y : Int) : List Nat :=
  (columns bits).map fun (c : Nat) => s.position (x + c) y

/-- Draws one row; the answer says whether there was a hit. -/
def drawRow (s : Screen) (bits : UInt8) (x y : Int) : Outcome Fault Screen Bool :=
  if s.height = 0 ∨ (s.width = 0 ∧ bits ≠ 0) then .stopped s .emptySide
  else
    let (t, hit) := s.toggleAll (s.rowPositions bits x y)
    .done t hit

/-- Draws rows from `addr` and `y` on; `hit` tells of the rows above them. -/
def drawRows (s : Screen) (mem : Memory) (x y addr : Int) (hit : Bool) :
    Nat → Outcome Fault Screen Bool
  | 0 => .done s hit
  | n + 1 =>
    match mem.read addr with
    | .error e => .stopped s e
    | .ok bits =>
      match s.drawRow bits x y with
      | ⟨t, .error e⟩ => .stopped t e
      | ⟨t, .ok hit'⟩ => t.drawRows mem x (y + 1) (addr + 1) (hit || hit') n

/-- Draws a sprite of `height` rows, none if that is negative. -/
def draw (s : Screen) (mem : Memory) (x y height addr : Int) : Outcome Fault Screen Bool :=
  s.drawRows mem x y addr false height.toNat

/-- The pixel with the given coordinates. -/
def get (s : Screen) (x y : Int) : Except Fault UInt8 :=
  if s.width = 0 ∨ s.height = 0 then .error .emptySide else .ok (s.pixel (s.position x y))

theorem columns_eq_nil_iff (bits : UInt8) : columns bits = [] ↔ bits = 0 := by
  have h : ∀ b : Fin 256, columns (UInt8.ofNat b) = [] ↔ b = 0 := by decide +kernel
  have hb := h ⟨bits.toNat, bits.toNat_lt⟩
  simpa [Fin.ext_iff, ← UInt8.toNat_inj] using hb

end ChipEight.Screen
