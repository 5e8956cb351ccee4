import ChipEight.Proofs.Memory.Stretch
import ChipEight.Screen.Sprite

/-!
# Drawing on a screen

What every drawing keeps: the sides of the screen, and that all of its pixels are dark or lit. On
a screen with pixels only memory can stop a sprite, at the first row whose byte lies outside; the
rows above it are drawn as if the sprite ended there.
-/

namespace ChipEight.Screen

/-- Every pixel is dark or lit. -/
def Binary (s : Screen) : Prop := ∀ i, s.pixel i = 0 ∨ s.pixel i = 1

/-- There is a pixel on the screen. -/
def HasPixels (s : Screen) : Prop := 0 < s.width ∧ 0 < s.height

/-! ## Positions -/

/-- Every coordinates lead into the grid. -/
theorem position_lt {s : Screen} (h : s.HasPixels) (x y : Int) : s.position x y < s.area := by
  obtain ⟨hw, hh⟩ := h
  have hx : 0 ≤ x.fmod s.width := Int.fmod_nonneg_of_pos x hw
  have hx' : x.fmod s.width < s.width := Int.fmod_lt_of_pos x hw
  have hy : 0 ≤ y.fmod s.height := Int.fmod_nonneg_of_pos y hh
  have hy' : y.fmod s.height ≤ s.height - 1 := Int.le_sub_one_of_lt (Int.fmod_lt_of_pos y hh)
  have hrow : 0 ≤ y.fmod s.height * s.width := Int.mul_nonneg hy (Int.le_of_lt hw)
  have hrow' : y.fmod s.height * s.width ≤ (s.height - 1) * s.width :=
    Int.mul_le_mul_of_nonneg_right hy' (Int.le_of_lt hw)
  rw [Int.sub_mul, Int.one_mul, Int.mul_comm s.height] at hrow'
  rw [position, fromEnd, if_neg (by omega), area]
  omega

theorem lt_area_of_mem_rowPositions {s : Screen} (h : s.HasPixels) {bits : UInt8} {x y : Int}
    {i : Nat} (hi : i ∈ s.rowPositions bits x y) : i < s.area := by
  obtain ⟨c, -, rfl⟩ := List.mem_map.1 hi
  exact position_lt h _ _

/-! ## What drawing keeps -/

/-- The second screen has the sides of the first, and no pixel that is neither dark nor lit unless
the first has one. -/
structure Keeps (s t : Screen) : Prop where
  width : t.width = s.width
  height : t.height = s.height
  binary : s.Binary → t.Binary

theorem Keeps.refl (s : Screen) : s.Keeps s := ⟨rfl, rfl, id⟩

theorem Keeps.trans {s t u : Screen} (h : s.Keeps t) (g : t.Keeps u) : s.Keeps u :=
  ⟨g.width.trans h.width, g.height.trans h.height, g.binary ∘ h.binary⟩

theorem Keeps.hasPixels {s t : Screen} (h : s.Keeps t) (hs : s.HasPixels) : t.HasPixels := by
  rw [HasPixels, h.width, h.height]
  exact hs

theorem Binary.clear (s : Screen) : s.clear.Binary := fun i => .inl (pixel_clear s i)

theorem keeps_clear (s : Screen) : s.Keeps s.clear := ⟨rfl, rfl, fun _ => .clear s⟩

theorem keeps_toggle (s : Screen) (i : Nat) : s.Keeps (s.toggle i) := by
  refine ⟨?_, ?_, fun h j => ?_⟩
  · unfold toggle setPixel
    split <;> rfl
  · unfold toggle setPixel
    split <;> rfl
  · rw [pixel_toggle]
    split
    · obtain h | h := h j <;> simp [h]
    · exact h j

theorem keeps_toggleAll (s : Screen) (is : List Nat) : s.Keeps (s.toggleAll is).1 := by
  induction is generalizing s with
  | nil => exact .refl s
  | cons i is ih => exact (keeps_toggle s i).trans (ih _)

theorem keeps_drawRow (s : Screen) (bits : UInt8) (x y : Int) :
    s.Keeps (s.drawRow bits x y).state := by
  unfold drawRow
  split
  · exact .refl s
  · exact keeps_toggleAll s _

theorem keeps_drawRows (s : Screen) (mem : Memory) (x y addr : Int) (hit : Bool) (n : Nat) :
    s.Keeps (s.drawRows mem x y addr hit n).state := by
  induction n generalizing s y addr hit with
  | zero => exact .refl s
  | succ n ih =>
    rw [drawRows]
    split
    · exact .refl s
    · have hrow := keeps_drawRow s ‹_› x y
      split <;> rename_i heq <;> rw [heq] at hrow
      · exact hrow
      · exact hrow.trans (ih _ _ _ _)

theorem keeps_draw (s : Screen) (mem : Memory) (x y height addr : Int) :
    s.Keeps (s.draw mem x y height addr).state := keeps_drawRows s mem x y addr false _

/-! ## Where drawing stops -/

theorem drawRow_of_hasPixels {s : Screen} (h : s.HasPixels) (bits : UInt8) (x y : Int) :
    s.drawRow bits x y =
      .done (s.toggleAll (s.rowPositions bits x y)).1
        (s.toggleAll (s.rowPositions bits x y)).2 := by
  obtain ⟨hw, hh⟩ := h
  rw [drawRow, if_neg (by omega)]

theorem drawRows_succ (s : Screen) {mem : Memory} {addr : Nat} (x y : Int) (hit : Bool) (n : Nat)
    (ha : addr < Memory.size) :
    s.drawRows mem x y addr hit (n + 1) =
      match s.drawRow (mem.byte addr) x y with
      | ⟨t, .error e⟩ => .stopped t e
      | ⟨t, .ok hit'⟩ => t.drawRows mem x (y + 1) ((addr + 1 : Nat) : Int) (hit || hit') n := by
  rw [drawRows, Memory.read_ofNat ha]
  rfl

theorem drawRows_succ_of_lt {s : Screen} (h : s.HasPixels) {mem : Memory} {addr : Nat}
    (x y : Int) (hit : Bool) (n : Nat) (ha : addr < Memory.size) :
    let row := s.toggleAll (s.rowPositions (mem.byte addr) x y)
    s.drawRows mem x y addr hit (n + 1) =
      row.1.drawRows mem x (y + 1) ((addr + 1 : Nat) : Int) (hit || row.2) n := by
  rw [drawRows_succ s x y hit n ha, drawRow_of_hasPixels h]
  rfl

theorem drawRows_succ_of_size_le {s : Screen} {mem : Memory} {addr : Nat} (x y : Int)
    (hit : Bool) (n : Nat) (ha : Memory.size ≤ addr) :
    s.drawRows mem x y addr hit (n + 1) = .stopped s (.bus addr) := by
  rw [drawRows, Memory.read_of_size_le ha]

/-- A sprite is cut short exactly if its bytes reach over the end of memory. -/
theorem fault?_drawRows {s : Screen} (h : s.HasPixels) (mem : Memory) (x y : Int) (addr : Nat)
    (hit : Bool) (n : Nat) :
    (s.drawRows mem x y addr hit n).fault? =
      if n = 0 ∨ addr + n ≤ Memory.size then none
      else some (.bus (max addr Memory.size : Nat)) := by
  induction n generalizing s y addr hit with
  | zero => rfl
  | succ n ih =>
    by_cases ha : addr < Memory.size
    · rw [drawRows_succ_of_lt h x y hit n ha, ih ((keeps_toggleAll s _).hasPixels h)]
      by_cases hl : addr + (n + 1) ≤ Memory.size
      · rw [if_pos (.inr (by omega)), if_pos (.inr hl)]
      · rw [if_neg (by omega), if_neg (by omega), Nat.max_eq_right (by omega),
          Nat.max_eq_right (by omega)]
    · have ha := Nat.le_of_not_lt ha
      rw [drawRows_succ_of_size_le x y hit n ha, if_neg (by omega), Nat.max_eq_left ha]
      rfl

/-- A sprite that is cut short leaves what a sprite leaves that ends with memory. -/
theorem state_drawRows_min {s : Screen} (h : s.HasPixels) (mem : Memory) (x y : Int) (addr : Nat)
    (hit : Bool) (n : Nat) :
    (s.drawRows mem x y addr hit n).state =
      (s.drawRows mem x y addr hit (min n (Memory.size - addr))).state := by
  induction n generalizing s y addr hit with
  | zero => rw [Nat.zero_min]
  | succ n ih =>
    by_cases ha : addr < Memory.size
    · have hmin : min (n + 1) (Memory.size - addr) = min n (Memory.size - (addr + 1)) + 1 := by
        omega
      rw [hmin, drawRows_succ_of_lt h x y hit _ ha, drawRows_succ_of_lt h x y hit _ ha]
      exact ih ((keeps_toggleAll s _).hasPixels h) _ _ _
    · have ha := Nat.le_of_not_lt ha
      rw [drawRows_succ_of_size_le x y hit n ha, Nat.sub_eq_zero_of_le ha, Nat.min_zero]
      rfl

end ChipEight.Screen
