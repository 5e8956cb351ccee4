import Mathlib.Algebra.BigOperators.Group.Finset.Basic
import ChipEight.Proofs.Outcome.Sequence
import ChipEight.Proofs.Screen.Stencil

/-!
# Sprites in any order

Several sprites turn over what lies under all their stencils, so a pixel depends on nothing but how
many of their pixels lie on it, and of that number only on whether it is odd. It follows that
sprites can be drawn in any order, and that two sprites which are the same up to whole turns around
the screen cancel each other. No pixel has to be dark or lit for this.

## Main definitions

* `Sprite`: what is to be drawn, and where.
* `Screen.drawAll`: sprites drawn one after another.
-/

namespace ChipEight

open Outcome

/-- A number of rows to be read from an address and drawn at `(x, y)`. -/
structure Sprite where
  x : Int
  y : Int
  height : Int
  addr : Int
  deriving DecidableEq

namespace Sprite

/-- All rows of the sprite can be read. -/
def InMemory (d : Sprite) : Prop := 0 < d.height → Memory.Covers d.addr d.height.toNat

/-- The same sprite with its coordinates on the screen. -/
def wrapped (s : Screen) (d : Sprite) : Sprite := { d with x := d.x % s.width, y := d.y % s.height }

end Sprite

namespace Screen

/-- Draws sprites one after another, unless a fault stops it, and tells of every sprite whether
there was a hit. -/
def drawAll (s : Screen) (mem : Memory) (ds : List Sprite) :
    Outcome Fault (Screen × List Bool) Unit :=
  inTurn (fun (s : Screen) d => s.draw mem d.x d.y d.height d.addr) s ds

variable {s t : Screen} {mem : Memory} {d : Sprite} {ds as bs : List Sprite}

/-! ## One sprite -/

theorem ext_pixel (hw : t.width = s.width) (hh : t.height = s.height)
    (hp : ∀ i < s.area, t.pixel i = s.pixel i) : t = s := by
  obtain ⟨width, height, pixels⟩ := s
  obtain ⟨width', height', pixels'⟩ := t
  obtain rfl : width' = width := hw
  obtain rfl : height' = height := hh
  congr
  refine Vector.ext fun i hi => ?_
  simpa [pixel, hi] using hp i hi

theorem fault?_draw_eq_none_iff (h : s.HasPixels) :
    (s.draw mem d.x d.y d.height d.addr).fault? = none ↔ d.InMemory := by
  constructor
  · intro hok hheight
    obtain ⟨n, hn⟩ : ∃ n, d.height.toNat = n + 1 := ⟨d.height.toNat - 1, by omega⟩
    rw [draw, hn] at hok
    rw [hn]
    by_cases haddr : 0 ≤ d.addr
    · obtain ⟨a, ha⟩ := Int.eq_ofNat_of_zero_le haddr
      rw [ha, fault?_drawRows h] at hok
      rw [ha]
      split at hok
      · exact ⟨by omega, by omega⟩
      · cases hok
    · -- An address below zero stops the very first row.
      have hread : mem.read d.addr = .error (.bus d.addr) :=
        if_neg fun hc => haddr hc.1
      rw [drawRows, hread] at hok
      cases hok
  · intro hd
    rw [draw_eq_toggleAll h mem d.x d.y hd]
    rfl

/-- The positions under a sprite. -/
def coveredBy (s : Screen) (mem : Memory) (d : Sprite) : List Nat :=
  s.under d.x d.y (mem.stencil d.addr d.height.toNat)

theorem Keeps.coveredBy (h : s.Keeps t) (mem : Memory) : t.coveredBy mem = s.coveredBy mem :=
  funext fun d => h.under d.x d.y _

/-- A whole turn around the screen makes no difference. -/
theorem coveredBy_wrapped (h : s.HasPixels) (mem : Memory) (d : Sprite) :
    s.coveredBy mem (d.wrapped s) = s.coveredBy mem d := by
  refine List.map_congr_left fun ⟨r, c⟩ _ => ?_
  rw [position_eq_iff h]
  simp [Sprite.wrapped]

/-! ## Sprites one after another -/

theorem drawAll_eq_toggleAll (h : s.HasPixels) (hds : ∀ d ∈ ds, d.InMemory) :
    (s.drawAll mem ds).fault? = none ∧
      (s.drawAll mem ds).state.1 = (s.toggleAll (ds.flatMap (s.coveredBy mem))).1 := by
  induction ds generalizing s with
  | nil => exact ⟨rfl, rfl⟩
  | cons d ds ih =>
    obtain ⟨hd, hds⟩ := List.forall_mem_cons.1 hds
    have hdraw := draw_eq_toggleAll h mem d.x d.y hd
    have hkeeps := keeps_toggleAll s (s.coveredBy mem d)
    obtain ⟨hok, hstate⟩ := ih (hkeeps.hasPixels h) hds
    rw [hkeeps.coveredBy] at hstate
    rw [drawAll, inTurn_cons_of_done hdraw, List.flatMap_cons, toggleAll_append]
    exact ⟨hok, hstate⟩

/-- Sprites are drawn to the end of the last one exactly if all of them are in memory. -/
theorem fault?_drawAll_eq_none_iff (h : s.HasPixels) :
    (s.drawAll mem ds).fault? = none ↔ ∀ d ∈ ds, d.InMemory := by
  constructor
  · intro hok
    induction ds generalizing s with
    | nil => simp
    | cons d ds ih =>
      rcases hdraw : s.draw mem d.x d.y d.height d.addr with ⟨t, e | hit⟩
      · rw [drawAll, inTurn_cons_of_stopped hdraw] at hok
        cases hok
      · have hd : d.InMemory := (fault?_draw_eq_none_iff h).1 (by rw [hdraw]; rfl)
        have hkeeps : s.Keeps t := by simpa [hdraw] using keeps_draw s mem d.x d.y d.height d.addr
        rw [drawAll, inTurn_cons_of_done hdraw] at hok
        exact List.forall_mem_cons.2 ⟨hd, ih (hkeeps.hasPixels h) hok⟩
  · exact fun hds => (drawAll_eq_toggleAll h hds).1

/-! ## Odd and even -/

/-- Whether a sum over a list is odd depends only on which items are in the list an odd number of
times. -/
theorem sum_map_mod_two_congr {α : Type} [DecidableEq α] (f : α → Nat) {as bs : List α}
    (h : ∀ a, as.count a % 2 = bs.count a % 2) : (as.map f).sum % 2 = (bs.map f).sum % 2 := by
  let items := as.toFinset ∪ bs.toFinset
  have sum_eq {l : List α} (hl : l.toFinset ⊆ items) :
      (l.map f).sum = ∑ a ∈ items, l.count a * f a := by
    rw [Finset.sum_list_map_count]
    refine Finset.sum_subset hl fun a _ ha => ?_
    simp [List.count_eq_zero.2 (mt List.mem_toFinset.2 ha)]
  rw [sum_eq Finset.subset_union_left, sum_eq Finset.subset_union_right, Finset.sum_nat_mod,
    Finset.sum_nat_mod items 2 fun a => bs.count a * f a]
  congr 1
  refine Finset.sum_congr rfl fun a _ => ?_
  rw [Nat.mul_mod, h a, ← Nat.mul_mod]

/-- Sprites leave the same screen if, up to whole turns around it, the same ones are drawn an odd
number of times. -/
theorem state_drawAll_congr (h : s.HasPixels) (ha : (s.drawAll mem as).fault? = none)
    (hb : (s.drawAll mem bs).fault? = none)
    (hc : ∀ d, (as.map (·.wrapped s)).count d % 2 = (bs.map (·.wrapped s)).count d % 2) :
    (s.drawAll mem as).state.1 = (s.drawAll mem bs).state.1 := by
  rw [(drawAll_eq_toggleAll h ((fault?_drawAll_eq_none_iff h).1 ha)).2,
    (drawAll_eq_toggleAll h ((fault?_drawAll_eq_none_iff h).1 hb)).2]
  have hkeepsA := keeps_toggleAll s (as.flatMap (s.coveredBy mem))
  have hkeepsB := keeps_toggleAll s (bs.flatMap (s.coveredBy mem))
  have hcount (ds : List Sprite) (i : Nat) : (ds.flatMap (s.coveredBy mem)).count i =
      ((ds.map (·.wrapped s)).map fun d => (s.coveredBy mem d).count i).sum := by
    rw [List.count_flatMap, List.map_map]
    refine congrArg List.sum (List.map_congr_left fun d _ => ?_)
    simp [coveredBy_wrapped h]
  refine ext_pixel (hkeepsA.width.trans hkeepsB.width.symm)
    (hkeepsA.height.trans hkeepsB.height.symm) fun i hi => ?_
  rw [hkeepsB.area] at hi
  rw [pixel_toggleAll s _ hi, pixel_toggleAll s _ hi, hcount, hcount,
    sum_map_mod_two_congr _ hc]

/-- Lists of sprites, all of which can be read, leave the same screen if they have every sprite the
same number of times modulo two, its coordinates being taken modulo the sides of the screen. So the
order in which sprites are drawn makes no difference, and a sprite that is drawn twice might as
well not have been drawn at all, whatever is drawn between and besides. -/
theorem drawings_cancel_in_pairs (h : s.HasPixels) (mem : Memory) :
    (∀ as bs, (s.drawAll mem as).fault? = none → (s.drawAll mem bs).fault? = none →
      (∀ d, (as.map (·.wrapped s)).count d % 2 = (bs.map (·.wrapped s)).count d % 2) →
      (s.drawAll mem as).state.1 = (s.drawAll mem bs).state.1) ∧
    (∀ as bs, (s.drawAll mem as).fault? = none → as.Perm bs →
      (s.drawAll mem bs).fault? = none ∧
      (s.drawAll mem as).state.1 = (s.drawAll mem bs).state.1) ∧
    ∀ d before between after,
      (s.drawAll mem (before ++ d :: (between ++ d :: after))).fault? = none →
      (s.drawAll mem (before ++ between ++ after)).fault? = none ∧
      (s.drawAll mem (before ++ d :: (between ++ d :: after))).state.1 =
        (s.drawAll mem (before ++ between ++ after)).state.1 := by
  refine ⟨fun as bs ha hb hc => state_drawAll_congr h ha hb hc, fun as bs ha hperm => ?_,
    fun d before between after ha => ?_⟩
  · have hb : (s.drawAll mem bs).fault? = none := by
      rw [fault?_drawAll_eq_none_iff h] at ha ⊢
      exact fun d hd => ha d (hperm.mem_iff.2 hd)
    exact ⟨hb, state_drawAll_congr h ha hb fun d => by rw [(hperm.map _).count_eq]⟩
  · have hb : (s.drawAll mem (before ++ between ++ after)).fault? = none := by
      rw [fault?_drawAll_eq_none_iff h] at ha ⊢
      intro d hd
      exact ha d (by grind)
    refine ⟨hb, state_drawAll_congr h ha hb fun d' => ?_⟩
    simp only [List.map_append, List.map_cons, List.count_append, List.count_cons]
    omega

/-- On a screen of three by two, with a byte in it that is neither dark nor lit, the bar is drawn
twice, once a whole turn to the left and two turns down, and the glyph that is drawn between lies
where it would a turn to the right and a turn up. -/
theorem glyph_left_without_bar :
    let s := (blank 3 2).setPixel 0 5
    let bar : Sprite := ⟨0, 1, 1, 0x300⟩
    let bar' : Sprite := ⟨-3, 5, 1, 0x300⟩
    let glyph : Sprite := ⟨1, 0, 5, 0⟩
    let glyph' : Sprite := ⟨4, -2, 5, 0⟩
    let mem := Memory.fresh.set 0x300 0xFF
    (s.drawAll mem [bar, glyph, bar']).fault? = none ∧ (s.drawAll mem [glyph']).fault? = none ∧
      (s.drawAll mem [bar, glyph, bar']).state.1 = (s.drawAll mem [glyph']).state.1 := by
  intro s bar bar' glyph glyph' mem
  have h : s.HasPixels := ⟨by decide, by decide⟩
  have hbars : (s.drawAll mem [bar, glyph, bar']).fault? = none := by decide +kernel
  have hglyph : (s.drawAll mem [glyph']).fault? = none := by decide +kernel
  have hturn : bar'.wrapped s = bar.wrapped s ∧ glyph'.wrapped s = glyph.wrapped s := by decide
  refine ⟨hbars, hglyph, (drawings_cancel_in_pairs h mem).1 _ _ hbars hglyph fun d => ?_⟩
  simp only [List.map_cons, List.map_nil, List.count_cons, List.count_nil, hturn]
  omega

end Screen

end ChipEight
