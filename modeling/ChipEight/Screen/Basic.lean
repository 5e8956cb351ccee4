/-!
# The screen

A grid of pixels, row by row, each a byte that is zero for dark and one for lit. Coordinates are
any integers and are taken modulo the sides, so the grid has no edge. The usual screen is 64 by 32;
other sides are allowed, even negative ones as long as their product is not.
-/

namespace ChipEight

structure Screen where
  width : Int
  height : Int
  /-- The rows one after another. -/
  pixels : Vector UInt8 (width * height).toNat
  deriving DecidableEq

/-- Why there is no screen with the sides that were asked for. -/
inductive SizeFault where
  | negative
  | tooLarge
  deriving DecidableEq, Repr

def SizeFault.message : SizeFault → String
  | .negative => "negative count"
  | .tooLarge => "cannot fit 'int' into an index-sized integer"

/-- Why a byte could not be put into the grid. -/
inductive PokeFault where
  /-- The position needs more than 64 bits. -/
  | positionTooLarge
  | notAByte
  | outside
  deriving DecidableEq, Repr

def PokeFault.message : PokeFault → String
  | .positionTooLarge => "cannot fit 'int' into an index-sized integer"
  | .notAByte => "byte must be in range(0, 256)"
  | .outside => "bytearray index out of range"

namespace Screen

def usualWidth : Nat := 64

def usualHeight : Nat := 32

/-- All pixels dark. -/
def blank (width height : Int) : Screen := ⟨width, height, Vector.replicate _ 0⟩

/-- A dark screen of 64 by 32. -/
def usual : Screen := blank usualWidth usualHeight

/-- Whether an integer is a signed number of 64 bits. -/
def isIndex (n : Int) : Bool := -0x8000000000000000 ≤ n && n < 0x8000000000000000

/-- A dark screen with sides of a product that is a count. -/
def ofSides (width height : Int) : Except SizeFault Screen :=
  if isIndex (width * height) = false then .error .tooLarge
  else if width * height < 0 then .error .negative
  else .ok (blank width height)

/-! ## Positions -/

/-- The number of pixels. -/
abbrev area (s : Screen) : Nat := (s.width * s.height).toNat

/-- All pixels, row by row. -/
def grid (s : Screen) : List UInt8 := s.pixels.toList

/-- The pixel at a position in the grid, zero outside. -/
def pixel (s : Screen) (i : Nat) : UInt8 := s.pixels[i]?.getD 0

/-- An index from the end, if it is negative. -/
def fromEnd (s : Screen) (i : Int) : Int := if i < 0 then i + s.area else i

/-- The position of the pixel with the given coordinates, each taken modulo its side. -/
def position (s : Screen) (x y : Int) : Nat :=
  (s.fromEnd (x.fmod s.width + y.fmod s.height * s.width)).toNat

/-! ## Operations -/

def clear (s : Screen) : Screen := blank s.width s.height

/-- A byte put at a position, if it is in the grid. -/
def setPixel (s : Screen) (i : Nat) (p : UInt8) : Screen :=
  if h : i < s.area then { s with pixels := s.pixels.set i p h } else s

/-- One pixel with its lowest bit turned over. -/
def toggle (s : Screen) (i : Nat) : Screen := s.setPixel i (s.pixel i ^^^ 1)

/-- Turns pixels over one after another, and says whether one of them was lit when its turn
came. -/
def toggleAll (s : Screen) : List Nat → Screen × Bool
  | [] => (s, false)
  | i :: is =>
    let (t, hit) := (s.toggle i).toggleAll is
    (t, s.pixel i = 1 || hit)

/-- Puts a byte at a position, which counts from the end if it is negative. -/
def poke (s : Screen) (index value : Int) : Except PokeFault Screen :=
  let i := s.fromEnd index
  if isIndex index = false then .error .positionTooLarge
  else if value < 0 ∨ 256 ≤ value then .error .notAByte
  else if i < 0 ∨ s.area ≤ i then .error .outside
  else .ok (s.setPixel i.toNat (UInt8.ofInt value))

/-- The rows from top to bottom. -/
def rows (s : Screen) : List (List UInt8) :=
  let grid := s.grid
  (List.range s.height.toNat).map fun r => (grid.drop (r * s.width.toNat)).take s.width.toNat

/-- The sum of all pixels: how many are lit, if none is above one. -/
def lit (s : Screen) : Nat := s.grid.foldl (fun n p => n + p.toNat) 0

/-- Every row as a text, with one glyph for lit pixels and one for dark ones. -/
def lines (s : Screen) (on off : String) : List String :=
  s.rows.map fun row => String.join (row.map fun p => if p = 0 then off else on)

/-- The lines as one text. -/
def render (s : Screen) (on off : String) : String := "\n".intercalate (s.lines on off)

/-! ## What the operations do to a pixel -/

theorem length_grid (s : Screen) : s.grid.length = s.area := Vector.length_toList

@[simp] theorem area_setPixel (s : Screen) (i : Nat) (p : UInt8) :
    (s.setPixel i p).area = s.area := by
  unfold setPixel
  split <;> rfl

@[simp] theorem area_toggle (s : Screen) (i : Nat) : (s.toggle i).area = s.area :=
  area_setPixel s i _

theorem pixel_of_area_le (s : Screen) {i : Nat} (h : s.area ≤ i) : s.pixel i = 0 := by
  simp only [pixel, Vector.getElem?_eq_none h]
  rfl

theorem pixel_setPixel (s : Screen) (i : Nat) (p : UInt8) (j : Nat) :
    (s.setPixel i p).pixel j = if i = j ∧ i < s.area then p else s.pixel j := by
  unfold setPixel
  split
  · rename_i h
    by_cases hj : i = j
    · subst hj
      simp [pixel, h]
    · simp [pixel, hj, h]
  · simp [*]

theorem pixel_toggle (s : Screen) (i j : Nat) :
    (s.toggle i).pixel j = if i = j ∧ j < s.area then s.pixel j ^^^ 1 else s.pixel j := by
  rw [toggle, pixel_setPixel]
  by_cases h : i = j
  · subst h
    rfl
  · simp [h]

theorem pixel_blank (width height : Int) (i : Nat) : (blank width height).pixel i = 0 := by
  by_cases h : i < (blank width height).area
  · rw [pixel, Vector.getElem?_eq_getElem h]
    exact Vector.getElem_replicate h
  · exact pixel_of_area_le _ (Nat.le_of_not_lt h)

theorem pixel_clear (s : Screen) (i : Nat) : s.clear.pixel i = 0 := pixel_blank _ _ i

theorem toggleAll_append (s : Screen) (is js : List Nat) :
    s.toggleAll (is ++ js) =
      (((s.toggleAll is).1.toggleAll js).1,
        (s.toggleAll is).2 || ((s.toggleAll is).1.toggleAll js).2) := by
  induction is generalizing s with
  | nil => simp [toggleAll]
  | cons i is ih => simp [toggleAll, ih, Bool.or_assoc]

end Screen

end ChipEight
