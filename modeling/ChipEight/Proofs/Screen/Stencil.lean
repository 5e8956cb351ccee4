import Mathlib.Data.List.ProdSigma
import ChipEight.Proofs.Screen.Drawing

/-!
# Sprites as stencils

A sprite is a stencil: the rows and columns in which it has a pixel. Drawing turns over the pixel
of the screen under each of them. As the screen has no edge, a sprite can lie on itself in several
layers, and then a pixel is turned over once for every layer. What a sprite leaves can therefore be
told from the number of layers on each pixel, and so can the hit, even though it is found while the
pixels are being turned over.

## Main definitions

* `Memory.stencil`: the pixels of a sprite, by their rows and columns.
* `Screen.under`: the positions under a stencil.
* `Screen.layers`: how many pixels of a sprite lie on a pixel of the screen.
-/

namespace ChipEight

/-- The rows and columns in which the sprite of `n` rows at an address has a pixel. -/
def Memory.stencil (mem : Memory) (addr : Int) (n : Nat) : List (Nat × Nat) :=
  (List.range n ×ˢ List.range 8).filter fun (r, c) =>
    (mem.byte (addr + r).toNat).toNat.testBit (7 - c)

namespace Screen

variable {s t : Screen} {mem : Memory}

/-! ## Pixels turned over -/

/-- To turn a pixel over once more is to count one more. -/
theorem one_xor_ofNat_mod_two (k : Nat) :
    (1 : UInt8) ^^^ UInt8.ofNat (k % 2) = UInt8.ofNat ((k + 1) % 2) := by
  obtain h | h := Nat.mod_two_eq_zero_or_one k
  · rw [Nat.add_mod, h]
    rfl
  · rw [Nat.add_mod, h]
    rfl

/-- Pixels that are turned over an odd number of times are turned over in the end. -/
theorem pixel_toggleAll (s : Screen) (is : List Nat) {i : Nat} (hi : i < s.area) :
    (s.toggleAll is).1.pixel i = s.pixel i ^^^ UInt8.ofNat (is.count i % 2) := by
  induction is generalizing s with
  | nil => simp [toggleAll]
  | cons j is ih =>
    have hrest : (s.toggleAll (j :: is)).1.pixel i =
        (s.toggle j).pixel i ^^^ UInt8.ofNat (is.count i % 2) := ih (s.toggle j) (by simpa using hi)
    rw [hrest, pixel_toggle]
    by_cases hj : j = i
    · rw [if_pos ⟨hj, hi⟩, UInt8.xor_assoc, one_xor_ofNat_mod_two, hj, List.count_cons_self]
    · rw [if_neg fun h => hj h.1, List.count_cons_of_ne hj]

/-- On a screen of dark and lit pixels there is a hit if one of the pixels was lit before, or if
one is turned over twice. -/
theorem hit_toggleAll_iff (hb : s.Binary) {is : List Nat} (his : ∀ i ∈ is, i < s.area) :
    (s.toggleAll is).2 = true ↔ ∃ i ∈ is, s.pixel i = 1 ∨ 2 ≤ is.count i := by
  induction is generalizing s with
  | nil => simp [toggleAll]
  | cons j is ih =>
    have hpixel (i : Nat) (hi : i < s.area) :
        (s.toggle j).pixel i = if j = i then s.pixel i ^^^ 1 else s.pixel i := by
      simp [pixel_toggle, hi]
    have hrest := ih (s := s.toggle j) ((keeps_toggle s j).binary hb) fun i hi => by
      simpa using his i (List.mem_cons_of_mem j hi)
    have hhit : (s.toggleAll (j :: is)).2 = true ↔
        s.pixel j = 1 ∨ ((s.toggle j).toggleAll is).2 = true := by
      simp [toggleAll]
    rw [hhit, hrest]
    constructor
    · rintro (hlit | ⟨i, hi, hlit | htwice⟩)
      · exact ⟨j, List.mem_cons_self, .inl hlit⟩
      · -- A pixel that is lit behind the first one was lit before, or it is the first one again.
        rw [hpixel i (his i (List.mem_cons_of_mem j hi))] at hlit
        refine ⟨i, List.mem_cons_of_mem j hi, ?_⟩
        by_cases hj : j = i
        · have : 0 < is.count i := List.count_pos_iff.2 hi
          right
          grind
        · exact .inl (by simpa [hj] using hlit)
      · exact ⟨i, List.mem_cons_of_mem j hi, .inr (by grind)⟩
    · rintro ⟨i, hi, h⟩
      by_cases hlit : s.pixel j = 1
      · exact .inl hlit
      · -- The first pixel was dark and is lit from now on, so that it is hit if it comes again.
        have hdark : s.pixel j = 0 := (hb j).resolve_right hlit
        right
        by_cases hj : j = i
        · subst hj
          have htwice : 2 ≤ (j :: is).count j := h.resolve_left hlit
          have hmem : j ∈ is := List.count_pos_iff.1 (by grind)
          refine ⟨j, hmem, .inl ?_⟩
          rw [hpixel j (his j List.mem_cons_self), if_pos rfl, hdark]
          rfl
        · have hmem : i ∈ is := (List.mem_cons.1 hi).resolve_left (Ne.symm hj)
          refine ⟨i, hmem, ?_⟩
          rw [hpixel i (his i hi), if_neg hj]
          grind

/-! ## Positions -/

theorem position_eq (h : s.HasPixels) (x y : Int) :
    s.position x y = (x % s.width + y % s.height * s.width).toNat := by
  obtain ⟨hw, hh⟩ := h
  have hx := Int.emod_nonneg x (Int.ne_of_gt hw)
  have hy := Int.mul_nonneg (Int.emod_nonneg y (Int.ne_of_gt hh)) (Int.le_of_lt hw)
  rw [position, Int.fmod_eq_emod_of_nonneg x (Int.le_of_lt hw),
    Int.fmod_eq_emod_of_nonneg y (Int.le_of_lt hh), fromEnd, if_neg (by omega)]

/-- Coordinates lead to the same pixel if they agree modulo the sides. -/
theorem position_eq_iff (h : s.HasPixels) {x y p q : Int} :
    s.position x y = s.position p q ↔ x % s.width = p % s.width ∧ y % s.height = q % s.height := by
  constructor
  · rw [position_eq h, position_eq h]
    obtain ⟨hw, hh⟩ := h
    intro heq
    have hx := Int.emod_nonneg x (Int.ne_of_gt hw)
    have hp := Int.emod_nonneg p (Int.ne_of_gt hw)
    have hy := Int.mul_nonneg (Int.emod_nonneg y (Int.ne_of_gt hh)) (Int.le_of_lt hw)
    have hq := Int.mul_nonneg (Int.emod_nonneg q (Int.ne_of_gt hh)) (Int.le_of_lt hw)
    have heq : x % s.width + y % s.height * s.width = p % s.width + q % s.height * s.width := by
      omega
    -- The column is what remains of a position modulo the width, and the row is what is left.
    have hcolumn : x % s.width = p % s.width := by
      have := congrArg (· % s.width) heq
      simpa using this
    exact ⟨hcolumn, Int.eq_of_mul_eq_mul_right (Int.ne_of_gt hw) (by omega)⟩
  · rintro ⟨hx, hy⟩
    rw [position_eq h, position_eq h, hx, hy]

/-- Every position in the grid has coordinates. -/
theorem exists_position_eq (h : s.HasPixels) {i : Nat} (hi : i < s.area) :
    ∃ x y, s.position x y = i := by
  refine ⟨i % s.width, i / s.width, ?_⟩
  rw [position_eq h]
  obtain ⟨hw, hh⟩ := h
  have hrow : (i : Int) / s.width < s.height := by
    have hi : i < (s.height * s.width).toNat := by rwa [Int.mul_comm]
    exact Int.ediv_lt_of_lt_mul hw (by omega)
  have hrow' : (i : Int) / s.width % s.height = i / s.width :=
    Int.emod_eq_of_lt (Int.ediv_nonneg (by omega) (Int.le_of_lt hw)) hrow
  rw [hrow', Int.emod_emod_of_dvd _ (Int.dvd_refl _), Int.mul_comm, Int.emod_add_mul_ediv]
  rfl

theorem Keeps.position (h : s.Keeps t) (x y : Int) : t.position x y = s.position x y := by
  simp only [Screen.position, fromEnd, area, h.width, h.height]

theorem Keeps.area (h : s.Keeps t) : t.area = s.area := by
  simp only [Screen.area, h.width, h.height]

/-! ## What lies under a stencil -/

/-- The positions under the pixels of a stencil whose corner lies at `(x, y)`. -/
def under (s : Screen) (x y : Int) (pixels : List (Nat × Nat)) : List Nat :=
  pixels.map fun (r, c) => s.position (x + c) (y + r)

theorem Keeps.under (h : s.Keeps t) (x y : Int) (pixels : List (Nat × Nat)) :
    t.under x y pixels = s.under x y pixels :=
  List.map_congr_left fun _ _ => h.position _ _

theorem lt_area_of_mem_under (h : s.HasPixels) {x y : Int} {pixels : List (Nat × Nat)} {i : Nat}
    (hi : i ∈ s.under x y pixels) : i < s.area := by
  obtain ⟨_, -, rfl⟩ := List.mem_map.1 hi
  exact position_lt h _ _

/-- A stencil is its first row and the stencil of the rows below. -/
theorem stencil_succ (mem : Memory) (addr : Int) (n : Nat) :
    mem.stencil addr (n + 1) =
      (columns (mem.byte addr.toNat)).map (fun c => (0, c)) ++
        (mem.stencil (addr + 1) n).map fun (r, c) => (r + 1, c) := by
  have hrows : List.range (n + 1) ×ˢ List.range 8 =
      (List.range 8).map (fun c => (0, c)) ++
        (List.range n ×ˢ List.range 8).map fun (r, c) => (r + 1, c) := by
    rw [List.range_succ_eq_map, List.product_cons]
    congr 1
    simp [SProd.sprod, List.product, List.flatMap_map, List.map_flatMap, Function.comp_def]
  rw [Memory.stencil, hrows, List.filter_append, List.filter_map, List.filter_map]
  congr 2
  · simp [columns, Function.comp_def]
  · simp only [Memory.stencil, Function.comp_def]
    congr 1
    funext ⟨r, c⟩
    have haddr : addr + (r + 1 : Nat) = addr + 1 + r := by omega
    rw [haddr]

theorem under_stencil_succ (s : Screen) (mem : Memory) (x y addr : Int) (n : Nat) :
    s.under x y (mem.stencil addr (n + 1)) =
      s.rowPositions (mem.byte addr.toNat) x y ++ s.under x (y + 1) (mem.stencil (addr + 1) n) := by
  rw [stencil_succ, under, List.map_append]
  congr 1
  · simp [rowPositions]
  · rw [under, List.map_map]
    refine List.map_congr_left fun ⟨r, c⟩ _ => ?_
    have hrow : y + ((r + 1 : Nat) : Int) = y + 1 + r := by omega
    simp only [Function.comp_apply, hrow]

/-! ## Layers -/

/-- How many pixels of the sprite of `n` rows at `addr`, drawn at `(x, y)`, lie on the pixel
`(p, q)`. -/
def layers (s : Screen) (mem : Memory) (x y addr : Int) (n : Nat) (p q : Int) : Nat :=
  (List.range n ×ˢ List.range 8).countP fun (r, c) =>
    (mem.byte (addr + r).toNat).toNat.testBit (7 - c) ∧
      (x + c) % s.width = p % s.width ∧ (y + r) % s.height = q % s.height

theorem count_under_stencil (h : s.HasPixels) (mem : Memory) (x y addr : Int) (n : Nat)
    (p q : Int) :
    (s.under x y (mem.stencil addr n)).count (s.position p q) =
      s.layers mem x y addr n p q := by
  rw [under, List.count, List.countP_map, Memory.stencil, List.countP_filter, layers]
  refine List.countP_congr fun ⟨r, c⟩ _ => ?_
  simp [position_eq_iff h, and_comm]

/-! ## Drawing through a stencil -/

/-- A sprite inside memory turns over what lies under its stencil. -/
theorem drawRows_eq_toggleAll (h : s.HasPixels) {addr : Int} {n : Nat}
    (hc : 0 < n → Memory.Covers addr n) (x y : Int) (hit : Bool) :
    s.drawRows mem x y addr hit n =
      .done (s.toggleAll (s.under x y (mem.stencil addr n))).1
        (hit || (s.toggleAll (s.under x y (mem.stencil addr n))).2) := by
  induction n generalizing s y addr hit with
  | zero => simp [drawRows, Memory.stencil, under, toggleAll]
  | succ n ih =>
    obtain ⟨hlow, hhigh⟩ := hc (Nat.succ_pos n)
    obtain ⟨a, rfl⟩ := Int.eq_ofNat_of_zero_le hlow
    have hrow := keeps_toggleAll s (s.rowPositions (mem.byte a) x y)
    have hcovers : 0 < n → Memory.Covers ((a + 1 : Nat) : Int) n := fun _ =>
      ⟨by omega, by omega⟩
    have hrest := ih (hrow.hasPixels h) hcovers (y + 1)
    rw [drawRows_succ_of_lt h x y hit n (by omega), hrest, hrow.under, under_stencil_succ,
      toggleAll_append, Bool.or_assoc]
    rfl

theorem draw_eq_toggleAll (h : s.HasPixels) (mem : Memory) (x y : Int) {height addr : Int}
    (hc : 0 < height → Memory.Covers addr height.toNat) :
    s.draw mem x y height addr =
      .done (s.toggleAll (s.under x y (mem.stencil addr height.toNat))).1
        (s.toggleAll (s.under x y (mem.stencil addr height.toNat))).2 := by
  rw [draw, drawRows_eq_toggleAll h fun hn => hc (by omega)]
  rfl

/-- A sprite inside memory is drawn to its end. It turns over the pixels on which it lies in an odd
number of layers, and there is a hit if it lies on a pixel that was lit or on a pixel of its own. -/
theorem draw_by_layers (h : s.HasPixels) (hb : s.Binary) (mem : Memory) (x y height addr : Int)
    (hc : 0 < height → Memory.Covers addr height.toNat) :
    let layers := s.layers mem x y addr height.toNat
    ∃ (t : Screen) (hit : Bool), s.draw mem x y height addr = .done t hit ∧
      t.width = s.width ∧ t.height = s.height ∧
      (∀ p q, t.pixel (s.position p q) =
        s.pixel (s.position p q) ^^^ UInt8.ofNat (layers p q % 2)) ∧
      (hit = true ↔ ∃ p q,
        (1 ≤ layers p q ∧ s.pixel (s.position p q) = 1) ∨ 2 ≤ layers p q) := by
  intro layers
  let covered := s.under x y (mem.stencil addr height.toNat)
  have hcount (p q : Int) : covered.count (s.position p q) = layers p q :=
    count_under_stencil h mem x y addr _ p q
  have hinside : ∀ i ∈ covered, i < s.area := fun i hi => lt_area_of_mem_under h hi
  have hkeeps := keeps_toggleAll s covered
  refine ⟨_, _, draw_eq_toggleAll h mem x y hc, hkeeps.width, hkeeps.height, fun p q => ?_, ?_⟩
  · rw [← hcount]
    exact pixel_toggleAll s covered (position_lt h p q)
  · rw [hit_toggleAll_iff hb hinside]
    constructor
    · rintro ⟨i, hi, hlit⟩
      obtain ⟨p, q, rfl⟩ := exists_position_eq h (hinside i hi)
      have hpos : 0 < covered.count (s.position p q) := List.count_pos_iff.2 hi
      refine ⟨p, q, ?_⟩
      rw [← hcount]
      exact hlit.imp (fun hlit => ⟨hpos, hlit⟩) id
    · rintro ⟨p, q, hlayers⟩
      rw [← hcount] at hlayers
      have hpos : 0 < covered.count (s.position p q) := by omega
      exact ⟨_, List.count_pos_iff.1 hpos, hlayers.imp And.right id⟩

/-- A bar of eight pixels on a screen of three by two lies on itself in three layers at the left and
the right edge and in two between them. The pixel on the right was lit. -/
theorem bar_wrapped_onto_itself :
    let s := (blank 3 2).toggle 5
    let mem := Memory.fresh.set 0x300 0xFF
    s.HasPixels ∧ s.Binary ∧ Memory.Covers 0x300 1 ∧
      ∃ t, s.draw mem (-1) 5 1 0x300 = .done t true ∧ t.pixel (s.position 0 1) = 1 ∧
        t.pixel (s.position 1 1) = 0 ∧ t.pixel (s.position 2 1) = 0 := by
  intro s mem
  have h : s.HasPixels := ⟨by decide, by decide⟩
  have hb : s.Binary := (keeps_toggle _ 5).binary fun i => .inl (pixel_blank 3 2 i)
  have hc : Memory.Covers 0x300 1 := by decide
  have hlit : s.pixel (s.position 2 1) = 1 := by decide +kernel
  obtain ⟨t, hit, hdraw, -, -, hpixel, hhit⟩ :=
    draw_by_layers h hb mem (-1) 5 1 0x300 fun _ => hc
  have hleft : s.layers mem (-1) 5 0x300 (Int.toNat 1) 0 1 = 3 := by decide +kernel
  have hmiddle : s.layers mem (-1) 5 0x300 (Int.toNat 1) 1 1 = 2 := by decide +kernel
  have hright : s.layers mem (-1) 5 0x300 (Int.toNat 1) 2 1 = 3 := by decide +kernel
  refine ⟨h, hb, hc, t, ?_, ?_, ?_, ?_⟩
  · rw [hdraw, hhit.2 ⟨2, 1, .inr (by rw [hright]; decide)⟩]
  · rw [hpixel, hleft]
    decide +kernel
  · rw [hpixel, hmiddle]
    decide +kernel
  · rw [hpixel, hright, hlit]
    decide +kernel

end Screen

end ChipEight
