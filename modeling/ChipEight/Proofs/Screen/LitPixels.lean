import Mathlib.Algebra.GroupWithZero.Nat
import Mathlib.Data.List.Nodup
import ChipEight.Proofs.Screen.Stencil

/-!
# Counting lit pixels

Turning over pixels that are all different lights the dark ones among them and darkens the lit
ones, so the count of lit pixels can be told from before. The pixels of a sprite are all different
on a screen that is no smaller than the sprite, and then there are as many of them as there are set
bits in its bytes, and a hit is one of them that was lit.

## Main definitions

* `Memory.setBits`: the set bits of bytes in memory.
* `Screen.litUnder`: the lit pixels under a stencil.
-/

namespace ChipEight

/-- How many bits are set in the `n` bytes from an address up. -/
def Memory.setBits (mem : Memory) (addr n : Nat) : Nat :=
  ((List.range n).map fun k => (mem.byte (addr + k)).toBitVec.cpop.toNat).sum

namespace Screen

/-- How many pixels of a stencil whose corner lies at `(x, y)` lie on lit pixels. -/
def litUnder (s : Screen) (x y : Int) (pixels : List (Nat × Nat)) : Nat :=
  pixels.countP fun (r, c) => s.pixel (s.position (x + c) (y + r)) = 1

variable {s : Screen} {mem : Memory} {is : List Nat} {x y addr : Int} {n : Nat}

/-! ## Pixels that are all different -/

theorem lit_eq_sum (s : Screen) : s.lit = (s.grid.map UInt8.toNat).sum := by
  rw [lit, List.sum_eq_foldl, List.foldl_map]

/-- Of a sum over a list, one summand is exchanged. -/
theorem sum_map_set {α : Type} (f : α → Nat) (as : List α) {i : Nat} (hi : i < as.length) (a : α) :
    ((as.set i a).map f).sum + f as[i] = (as.map f).sum + f a := by
  induction as generalizing i with
  | nil => simp at hi
  | cons b as ih =>
    cases i with
    | zero => simp [Nat.add_comm, Nat.add_left_comm]
    | succ i =>
      have hrest := ih (by simpa using hi)
      simp only [List.set_cons_succ, List.map_cons, List.sum_cons, List.getElem_cons_succ]
      omega

theorem lit_setPixel (s : Screen) {i : Nat} (hi : i < s.area) (p : UInt8) :
    (s.setPixel i p).lit + (s.pixel i).toNat = s.lit + p.toNat := by
  have hgrid : (s.setPixel i p).grid = s.grid.set i p := by
    rw [setPixel, dif_pos hi, grid, Vector.toList_set]
    rfl
  have hlen : i < s.grid.length := by simpa [grid] using hi
  have hpixel : s.pixel i = s.grid[i] := by simp [pixel, grid, hi]
  rw [lit_eq_sum, lit_eq_sum, hgrid, hpixel]
  exact sum_map_set UInt8.toNat s.grid hlen p

/-- A dark pixel is lit, or a lit one darkened. -/
theorem lit_toggle (hb : s.Binary) {i : Nat} (hi : i < s.area) :
    (s.toggle i).lit + 2 * (if s.pixel i = 1 then 1 else 0) = s.lit + 1 := by
  have hset := s.lit_setPixel hi (s.pixel i ^^^ 1)
  obtain hp | hp := hb i <;> rw [toggle] <;> simp [hp] at hset ⊢ <;> omega

/-- Pixels that are all different are turned over once each. -/
theorem lit_toggleAll (hb : s.Binary) (his : ∀ i ∈ is, i < s.area) (hn : is.Nodup) :
    (s.toggleAll is).1.lit + 2 * is.countP (fun i => s.pixel i = 1) = s.lit + is.length := by
  induction is generalizing s with
  | nil => simp [toggleAll]
  | cons i is ih =>
    obtain ⟨hi, his⟩ := List.forall_mem_cons.1 his
    obtain ⟨hnot, hn⟩ := List.nodup_cons.1 hn
    have hrest := ih ((keeps_toggle s i).binary hb) (by simpa using his) hn
    have hstep := lit_toggle hb hi
    -- The pixels behind the first one are other ones, so they are as they were.
    have hcount : is.countP (fun j => (s.toggle i).pixel j = 1) =
        is.countP (fun j => s.pixel j = 1) := by
      refine List.countP_congr fun j hj => ?_
      have hne : i ≠ j := fun h => hnot (h ▸ hj)
      simp [pixel_toggle, hne]
    rw [hcount] at hrest
    simp only [toggleAll, List.countP_cons, List.length_cons, decide_eq_true_eq]
    omega

theorem hit_toggleAll_iff_of_nodup (hb : s.Binary) (his : ∀ i ∈ is, i < s.area) (hn : is.Nodup) :
    (s.toggleAll is).2 = true ↔ 0 < is.countP (fun i => s.pixel i = 1) := by
  rw [hit_toggleAll_iff hb his, List.countP_pos_iff]
  refine exists_congr fun i => and_congr_right fun hi => ?_
  have honce : is.count i = 1 := List.count_eq_one_of_mem hn hi
  simp [honce]

/-- The pixels that are turned over are those that change. -/
theorem pixel_toggleAll_ne_iff (hb : s.Binary) (his : ∀ i ∈ is, i < s.area) (hn : is.Nodup)
    (i : Nat) : (s.toggleAll is).1.pixel i ≠ s.pixel i ↔ i ∈ is := by
  by_cases hmem : i ∈ is
  · have honce : is.count i = 1 := List.count_eq_one_of_mem hn hmem
    rw [pixel_toggleAll s is (his i hmem), honce]
    obtain hp | hp := hb i <;> simp [hp, hmem]
  · by_cases hi : i < s.area
    · rw [pixel_toggleAll s is hi, List.count_eq_zero_of_not_mem hmem]
      simp [hmem]
    · have hout : (s.toggleAll is).1.area ≤ i := by
        rw [(keeps_toggleAll s is).area]
        exact Nat.le_of_not_lt hi
      rw [pixel_of_area_le _ hout, pixel_of_area_le s (Nat.le_of_not_lt hi)]
      simp [hmem]

/-! ## The pixels of a sprite -/

theorem lt_of_mem_stencil {r c : Nat} (h : (r, c) ∈ mem.stencil addr n) : r < n ∧ c < 8 := by
  have hmem := (List.mem_filter.1 h).1
  simpa using hmem

theorem nodup_stencil (mem : Memory) (addr : Int) (n : Nat) : (mem.stencil addr n).Nodup :=
  (List.nodup_range.product List.nodup_range).filter _

theorem length_columns (bits : UInt8) : (columns bits).length = bits.toBitVec.cpop.toNat := by
  have h : ∀ b : Fin 256, (columns (UInt8.ofNat b)).length =
      (UInt8.ofNat b).toBitVec.cpop.toNat := by decide +kernel
  simpa using h ⟨bits.toNat, bits.toNat_lt⟩

theorem setBits_succ (mem : Memory) (addr n : Nat) :
    mem.setBits addr (n + 1) =
      (mem.byte addr).toBitVec.cpop.toNat + mem.setBits (addr + 1) n := by
  rw [Memory.setBits, List.range_succ_eq_map, List.map_cons, List.sum_cons, List.map_map]
  refine congrArg (_ + List.sum ·) (List.map_congr_left fun k _ => ?_)
  have hshift : addr + (k + 1) = addr + 1 + k := by omega
  simp only [Function.comp_apply, Nat.succ_eq_add_one, hshift]

/-- A stencil has a pixel for each set bit. -/
theorem length_stencil (mem : Memory) (addr n : Nat) :
    (mem.stencil addr n).length = mem.setBits addr n := by
  induction n generalizing addr with
  | zero => rfl
  | succ n ih =>
    rw [stencil_succ, setBits_succ, ← ih]
    simp [length_columns]

/-- On a screen that is wide and high enough no two pixels of a sprite lie on the same pixel,
wherever its corner lies. -/
theorem nodup_under_stencil (h : s.HasPixels) (hw : 8 ≤ s.width) (hh : (n : Int) ≤ s.height)
    (mem : Memory) (x y addr : Int) : (s.under x y (mem.stencil addr n)).Nodup := by
  refine List.Nodup.map_on ?_ (nodup_stencil mem addr n)
  rintro ⟨r, c⟩ hrc ⟨r', c'⟩ hrc' heq
  obtain ⟨hx, hy⟩ := (position_eq_iff h).1 heq
  obtain ⟨hr, hc⟩ := lt_of_mem_stencil hrc
  obtain ⟨hr', hc'⟩ := lt_of_mem_stencil hrc'
  rw [Int.emod_add_cancel_left, Int.emod_eq_of_lt (by omega) (by omega),
    Int.emod_eq_of_lt (by omega) (by omega)] at hx hy
  simp only [Prod.mk.injEq]
  omega

/-- What a sprite does to a screen that is no smaller than it: it turns over the pixels on which it
lies, of which there are as many as set bits, and there is a hit if one of them was lit. -/
theorem draw_counts (h : s.HasPixels) (hb : s.Binary) (hw : 8 ≤ s.width)
    (hh : (n : Int) ≤ s.height) (mem : Memory) (x y : Int) {addr : Nat}
    (hc : n = 0 ∨ addr + n ≤ Memory.size) :
    let pixels := mem.stencil addr n
    ∃ (t : Screen) (hit : Bool), s.draw mem x y n addr = .done t hit ∧
      t.lit + 2 * s.litUnder x y pixels = s.lit + mem.setBits addr n ∧
      (hit = true ↔ 0 < s.litUnder x y pixels) ∧
      ∀ i, t.pixel i ≠ s.pixel i ↔ i ∈ s.under x y pixels := by
  intro pixels
  have hcovers : 0 < (n : Int) → Memory.Covers addr (n : Int).toNat := fun hn =>
    ⟨by omega, by omega⟩
  have hnodup : (s.under x y pixels).Nodup := nodup_under_stencil h hw hh mem x y addr
  have hinside : ∀ i ∈ s.under x y pixels, i < s.area := fun i => lt_area_of_mem_under h
  have hlit : (s.under x y pixels).countP (fun i => s.pixel i = 1) = s.litUnder x y pixels :=
    List.countP_map
  have hlength : (s.under x y pixels).length = mem.setBits addr n := by
    rw [under, List.length_map, length_stencil]
  have hcount := lit_toggleAll hb hinside hnodup
  have hhit := hit_toggleAll_iff_of_nodup hb hinside hnodup
  rw [hlit] at hcount hhit
  exact ⟨_, _, draw_eq_toggleAll h mem x y hcovers, hlength ▸ hcount, hhit,
    pixel_toggleAll_ne_iff hb hinside hnodup⟩

end Screen

end ChipEight
