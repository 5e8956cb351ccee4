import Mathlib.Data.List.Basic
import ChipEight.Proofs.Screen.DrawingOrder
import ChipEight.Proofs.Text.Pieces
import ChipEight.Screen.Picture

/-!
# The screen as it is presented

A screen is read one pixel at a time, row by row or all at once, and it is presented as a picture,
column by column, or as a text, line by line. Each of these finds its way through the grid on its
own, and all of them come to the same pixel for the same column and row. A text gives the whole
screen away, if its two glyphs are as long as each other and neither of them ends a line.

## Main definitions

* `Screen.glyphs`: the glyphs of a text, line by line.
* `Screen.Shows`: whoever looks at a column and a row finds the same pixel.
* `Palette.Proper`: two colours that a picture can be made in.
* `Picture.HasShape`: the sides of a picture and the channels of its colours.
-/

namespace ChipEight

namespace Screen

variable {s t : Screen} {x y : Nat}

/-! ## The grid -/

theorem area_eq (h : s.HasPixels) : s.area = s.width.toNat * s.height.toNat :=
  Int.toNat_mul (Int.le_of_lt h.1) (Int.le_of_lt h.2)

/-- A row ends in the grid. -/
theorem row_end_le (h : s.HasPixels) (hy : y < s.height.toNat) :
    (y + 1) * s.width.toNat ≤ s.area := by
  rw [area_eq h, Nat.mul_comm s.width.toNat]
  exact Nat.mul_le_mul_right _ hy

/-- Column and row lead into the grid. -/
theorem index_lt (h : s.HasPixels) (hx : x < s.width.toNat) (hy : y < s.height.toNat) :
    x + y * s.width.toNat < s.area := by
  have hend := row_end_le h hy
  rw [Nat.succ_mul] at hend
  omega

theorem getElem?_grid (s : Screen) {i : Nat} (hi : i < s.area) : s.grid[i]? = some (s.pixel i) := by
  rw [grid, Vector.getElem?_toList, pixel, Vector.getElem?_eq_getElem hi, Option.getD_some]

/-- Coordinates that are away from a column and a row by whole sides lead to them. -/
theorem position_shifted (h : s.HasPixels) (hx : x < s.width.toNat) (hy : y < s.height.toNat)
    (i j : Int) : s.position (x + i * s.width) (y + j * s.height) = x + y * s.width.toNat := by
  obtain ⟨hw, hh⟩ := h
  have hcolumn : ((x : Int) + i * s.width) % s.width = x := by
    rw [Int.add_mul_emod_self_right]
    exact Int.emod_eq_of_lt (Int.natCast_nonneg x) (by omega)
  have hrow : ((y : Int) + j * s.height) % s.height = y := by
    rw [Int.add_mul_emod_self_right]
    exact Int.emod_eq_of_lt (Int.natCast_nonneg y) (by omega)
  have hside : s.width = s.width.toNat := (Int.toNat_of_nonneg (Int.le_of_lt hw)).symm
  rw [position_eq ⟨hw, hh⟩, hcolumn, hrow, hside]
  exact Int.toNat_natCast _

theorem get_shifted (h : s.HasPixels) (hx : x < s.width.toNat) (hy : y < s.height.toNat)
    (i j : Int) : s.get (x + i * s.width) (y + j * s.height) =
      .ok (s.pixel (x + y * s.width.toNat)) := by
  have hsides : ¬(s.width = 0 ∨ s.height = 0) := by
    obtain ⟨hw, hh⟩ := h
    omega
  rw [get, if_neg hsides, position_shifted h hx hy]

/-! ## Rows -/

theorem length_rows (s : Screen) : s.rows.length = s.height.toNat := by
  simp [rows]

theorem getElem?_rows (s : Screen) (hy : y < s.height.toNat) :
    s.rows[y]? = some ((s.grid.drop (y * s.width.toNat)).take s.width.toNat) := by
  rw [rows, List.getElem?_map, List.getElem?_range hy, Option.map_some]

/-- Stretches of the same length, one behind another, are the list up to where they end. -/
theorem flatMap_stretches {α : Type} (as : List α) (width n : Nat) :
    ((List.range n).flatMap fun r => (as.drop (r * width)).take width) = as.take (n * width) := by
  induction n with
  | zero => simp
  | succ n ih =>
    rw [List.range_succ, List.flatMap_append, ih, Nat.succ_mul, List.take_add]
    simp

/-- One row behind another is the grid. -/
theorem flatten_rows (h : s.HasPixels) : s.rows.flatten = s.grid := by
  have hlength : s.grid.length = s.height.toNat * s.width.toNat := by
    rw [length_grid, area_eq h, Nat.mul_comm]
  rw [rows, ← List.flatMap_def, flatMap_stretches, ← hlength, List.take_length]

theorem length_of_mem_rows (h : s.HasPixels) {row : List UInt8} (hrow : row ∈ s.rows) :
    row.length = s.width.toNat := by
  obtain ⟨y, hy, rfl⟩ := List.mem_map.1 hrow
  have hend := row_end_le h (List.mem_range.1 hy)
  rw [Nat.succ_mul] at hend
  rw [List.length_take, List.length_drop, length_grid]
  omega

theorem binary_of_mem_grid (hb : s.Binary) {p : UInt8} (hp : p ∈ s.grid) : p = 0 ∨ p = 1 := by
  obtain ⟨i, hi, rfl⟩ := List.mem_iff_getElem.1 hp
  have hpixel := getElem?_grid s (s.length_grid ▸ hi)
  rw [List.getElem?_eq_getElem hi] at hpixel
  rw [Option.some.inj hpixel]
  exact hb i

theorem binary_of_mem_rows (h : s.HasPixels) (hb : s.Binary) {row : List UInt8}
    (hrow : row ∈ s.rows) : ∀ p ∈ row, p = 0 ∨ p = 1 := by
  intro p hp
  exact binary_of_mem_grid hb (flatten_rows h ▸ List.mem_flatten_of_mem hrow hp)

theorem getElem?_row (h : s.HasPixels) (hx : x < s.width.toNat) (hy : y < s.height.toNat) :
    ((s.grid.drop (y * s.width.toNat)).take s.width.toNat)[x]? =
      some (s.pixel (x + y * s.width.toNat)) := by
  rw [List.getElem?_take_of_lt hx, List.getElem?_drop, Nat.add_comm,
    getElem?_grid s (index_lt h hx hy)]

/-- The rows tell the whole screen. -/
theorem eq_of_rows_eq (hs : s.HasPixels) (ht : t.HasPixels) (h : s.rows = t.rows) : s = t := by
  have hheight : s.height.toNat = t.height.toNat := by rw [← length_rows, h, length_rows]
  have hwidth : s.width.toNat = t.width.toNat := by
    have hy : 0 < s.height.toNat := Int.pos_iff_toNat_pos.1 hs.2
    have hrow := List.mem_of_getElem? (getElem?_rows s hy)
    rw [← length_of_mem_rows hs hrow, ← length_of_mem_rows ht (h ▸ hrow)]
  have hgrid : s.grid = t.grid := by rw [← flatten_rows hs, ← flatten_rows ht, h]
  have harea : s.area = t.area := by rw [← length_grid, hgrid, length_grid]
  obtain ⟨hsw, hsh⟩ := hs
  obtain ⟨htw, hth⟩ := ht
  refine ext_pixel (by omega) (by omega) fun i hi => ?_
  have hpixel := getElem?_grid s (harea ▸ hi)
  rw [hgrid, getElem?_grid t hi] at hpixel
  exact (Option.some.inj hpixel).symm

end Screen

/-! ## Pictures -/

namespace Palette

/-- Two colours with the same number of channels, all of them bytes. -/
def Proper (p : Palette) : Prop :=
  p.dark.length = p.lit.length ∧ ∀ n ∈ p.dark ++ p.lit, 0 ≤ n ∧ n < 256

variable {palette : Palette}

theorem colours_of_proper (h : palette.Proper) :
    palette.colours = .ok [palette.dark.map UInt8.ofInt, palette.lit.map UInt8.ofInt] := by
  obtain ⟨hlength, hbytes⟩ := h
  have hall : (palette.dark ++ palette.lit).all isByte = true :=
    List.all_eq_true.2 fun n hn => by simpa [isByte] using hbytes n hn
  rw [colours, if_neg (not_not_intro hlength), if_neg (by simp [hall])]

/-- There are two colours, and both have as many channels as the dark one. -/
theorem exists_of_colours {colours : List Colour} (h : palette.colours = .ok colours) :
    ∃ dark lit, colours = [dark, lit] ∧ dark.length = palette.dark.length ∧
      lit.length = palette.dark.length := by
  unfold Palette.colours at h
  split at h
  · cases h
  · rename_i hlength
    split at h
    · cases h
    · cases h
      exact ⟨_, _, rfl, List.length_map .., by rw [List.length_map]; omega⟩

theorem map_toNat_ofInt {colour : List Int} (h : ∀ n ∈ colour, 0 ≤ n ∧ n < 256) :
    (colour.map UInt8.ofInt).map (fun b => (b.toNat : Int)) = colour := by
  rw [List.map_map]
  refine (List.map_congr_left fun n hn => ?_).trans (List.map_id colour)
  obtain ⟨h₀, hlt⟩ := h n hn
  rw [Function.comp_apply, toNat_ofInt, id]
  omega

end Palette

namespace Picture

variable {s : Screen} {palette : Palette} {colours : List Colour} {picture : Picture} {x y : Nat}

/-- The sides of a picture, and how many channels its colours have. -/
structure HasShape (p : Picture) (width height channels : Nat) : Prop where
  sides : p.width = width ∧ p.height = height ∧ p.channels = channels
  columns : p.columns.length = width
  column : ∀ column ∈ p.columns, column.length = height
  colour : ∀ column ∈ p.columns, ∀ colour ∈ column, colour.length = channels

/-! ### Every item or none -/

section mapM

variable {α β : Type} {f : α → Option β} {as : List α} {bs : List β}

theorem mapM_eq_some_iff : as.mapM f = some bs ↔ as.map f = bs.map some := by
  induction as generalizing bs with
  | nil => cases bs <;> simp
  | cons a as ih =>
    rw [List.mapM_cons]
    cases bs <;> simp [Option.bind_eq_some_iff, ih]

theorem length_of_mapM (h : as.mapM f = some bs) : bs.length = as.length := by
  simpa using congrArg List.length (mapM_eq_some_iff.1 h).symm

theorem exists_of_mem_mapM (h : as.mapM f = some bs) {b : β} (hb : b ∈ bs) :
    ∃ a ∈ as, f a = some b := by
  have hmem : some b ∈ as.map f := mapM_eq_some_iff.1 h ▸ List.mem_map_of_mem hb
  exact List.mem_map.1 hmem

theorem getElem?_of_mapM (h : as.mapM f = some bs) {i : Nat} {a : α} (ha : as[i]? = some a) :
    ∃ b, bs[i]? = some b ∧ f a = some b := by
  have hget := congrArg (·[i]?) (mapM_eq_some_iff.1 h)
  simp only [List.getElem?_map, ha, Option.map_some] at hget
  obtain ⟨b, hb, hf⟩ := Option.map_eq_some_iff.1 hget.symm
  exact ⟨b, hb, hf.symm⟩

theorem exists_mapM (h : ∀ a ∈ as, ∃ b, f a = some b) : ∃ bs, as.mapM f = some bs := by
  induction as with
  | nil => exact ⟨[], rfl⟩
  | cons a as ih =>
    obtain ⟨⟨b, hb⟩, has⟩ := List.forall_mem_cons.1 h
    obtain ⟨bs, hbs⟩ := ih has
    exact ⟨b :: bs, by simp [hb, hbs]⟩

end mapM

/-! ### From pixels to colours -/

theorem exists_of_ofScreen (h : ofScreen s palette = .ok picture) :
    ∃ pixels colours columns, pixelTable s = .ok pixels ∧ palette.colours = .ok colours ∧
      paint? colours pixels.transpose.rows = some columns ∧
      picture = ⟨s.width.toNat, s.height.toNat, palette.dark.length, columns⟩ := by
  unfold ofScreen at h
  split at h
  · cases h
  · rename_i pixels hpixels
    split at h
    · cases h
    · rename_i colours hcolours
      split at h
      · cases h
      · rename_i columns hcolumns
        cases h
        exact ⟨pixels, colours, columns, hpixels, hcolours, hcolumns, rfl⟩

theorem cell?_pixelTable (h : s.HasPixels) {pixels : Table UInt8 s.height.toNat s.width.toNat}
    (hpixels : pixelTable s = .ok pixels) (hx : x < s.width.toNat) (hy : y < s.height.toNat) :
    pixels.cell? y x = some (s.pixel (x + y * s.width.toNat)) := by
  unfold pixelTable at hpixels
  split at hpixels
  · cases hpixels
    rw [Table.cell?_ofEntries _ hx hy, Screen.getElem?_grid s (Screen.index_lt h hx hy)]
  · split at hpixels <;> cases hpixels

/-- In column `x` and row `y` of a picture there is the colour that the pixel at `x + y * width`
stands for. -/
theorem getElem?_columns (h : s.HasPixels) (hc : palette.colours = .ok colours)
    (hp : ofScreen s palette = .ok picture) (hx : x < s.width.toNat) (hy : y < s.height.toNat) :
    ∃ column colour, picture.columns[x]? = some column ∧ column[y]? = some colour ∧
      colours[(s.pixel (x + y * s.width.toNat)).toNat]? = some colour := by
  obtain ⟨pixels, colours', columns, hpixels, hc', hpaint, rfl⟩ := exists_of_ofScreen hp
  obtain rfl : colours = colours' := Except.ok.inj (hc.symm.trans hc')
  have hcell := pixels.cell?_transpose x y
  rw [cell?_pixelTable h hpixels hx hy] at hcell
  obtain ⟨pixelColumn, hpixelColumn, hpixel⟩ := Option.bind_eq_some_iff.1 hcell
  obtain ⟨column, hcolumn, hcolours⟩ := getElem?_of_mapM hpaint hpixelColumn
  obtain ⟨colour, hcolour, hget⟩ := getElem?_of_mapM hcolours hpixel
  exact ⟨column, colour, hcolumn, hcolour, hget⟩

theorem hasShape_ofScreen (hp : ofScreen s palette = .ok picture) :
    picture.HasShape s.width.toNat s.height.toNat palette.dark.length := by
  obtain ⟨pixels, colours, columns, -, hc, hpaint, rfl⟩ := exists_of_ofScreen hp
  refine ⟨⟨rfl, rfl, rfl⟩, ?_, fun column hcolumn => ?_, fun column hcolumn colour hcolour => ?_⟩
  · rw [length_of_mapM hpaint, pixels.transpose.length_rows]
  · obtain ⟨pixelColumn, hmem, hcolours⟩ := exists_of_mem_mapM hpaint hcolumn
    rw [length_of_mapM hcolours, pixels.transpose.length_of_mem _ hmem]
  · obtain ⟨pixelColumn, -, hcolours⟩ := exists_of_mem_mapM hpaint hcolumn
    obtain ⟨p, -, hget⟩ := exists_of_mem_mapM hcolours hcolour
    obtain ⟨dark, lit, rfl, hdark, hlit⟩ := Palette.exists_of_colours hc
    obtain rfl | rfl : colour = dark ∨ colour = lit := by
      simpa using List.mem_of_getElem? hget
    · exact hdark
    · exact hlit

/-- A screen of dark and lit pixels can be shown in any two colours. -/
theorem exists_ofScreen_of_colours (h : s.HasPixels) (hb : s.Binary)
    (hc : palette.colours = .ok colours) : ∃ picture, ofScreen s palette = .ok picture := by
  obtain ⟨pixels, hpixels⟩ : ∃ pixels, pixelTable s = .ok pixels :=
    ⟨_, dif_pos ⟨Int.le_of_lt h.1, Int.le_of_lt h.2⟩⟩
  obtain ⟨dark, lit, rfl, -⟩ := Palette.exists_of_colours hc
  obtain ⟨columns, hpaint⟩ :
      ∃ columns, paint? [dark, lit] pixels.transpose.rows = some columns := by
    refine exists_mapM fun column hcolumn => exists_mapM fun p hp => ?_
    obtain ⟨x, hx, y, hy, hcell⟩ := pixels.transpose.exists_cell_of_mem hcolumn hp
    rw [Table.cell?_transpose, cell?_pixelTable h hpixels hx hy] at hcell
    obtain rfl := Option.some.inj hcell
    obtain hpixel | hpixel := hb (x + y * s.width.toNat) <;> rw [hpixel]
    · exact ⟨dark, rfl⟩
    · exact ⟨lit, rfl⟩
  refine ⟨⟨s.width.toNat, s.height.toNat, palette.dark.length, columns⟩, ?_⟩
  simp only [ofScreen, hpixels, hc, hpaint]

/-- Proper colours make a picture of a screen, with a column for each of its columns. -/
theorem exists_ofScreen (h : s.HasPixels) (hb : s.Binary) (hp : palette.Proper) :
    ∃ picture, ofScreen s palette = .ok picture ∧
      picture.HasShape s.width.toNat s.height.toNat palette.lit.length := by
  obtain ⟨picture, hpicture⟩ := exists_ofScreen_of_colours h hb (Palette.colours_of_proper hp)
  exact ⟨picture, hpicture, hp.1 ▸ hasShape_ofScreen hpicture⟩

end Picture

/-! ## Texts -/

namespace Screen

open Text

variable {s t : Screen} {on off : String} {x y : Nat}

/-- What stands for a pixel in a text. -/
def glyph (on off : String) (p : UInt8) : String := if p = 0 then off else on

/-- What stands for the pixels, line by line. -/
def glyphs (s : Screen) (on off : String) : List (List String) :=
  s.rows.map (List.map (glyph on off))

theorem lines_eq (s : Screen) (on off : String) :
    s.lines on off = (s.glyphs on off).map String.join := by
  rw [glyphs, List.map_map]
  rfl

theorem glyph_injOn (h : on ≠ off) : Set.InjOn (glyph on off) {p | p = 0 ∨ p = 1} := by
  rintro _ (rfl | rfl) _ (rfl | rfl) heq
  · rfl
  · exact absurd heq.symm h
  · exact absurd heq h
  · rfl

/-- Lists are the same if a function that tells their elements apart makes the same of them. -/
theorem eq_of_map_eq {α β : Type} {f : α → β} {S : Set α} (hf : Set.InjOn f S) {as bs : List α}
    (ha : ∀ a ∈ as, a ∈ S) (hb : ∀ b ∈ bs, b ∈ S) (h : as.map f = bs.map f) : as = bs := by
  induction as generalizing bs with
  | nil => exact (List.map_eq_nil_iff.1 h.symm).symm
  | cons a as ih =>
    cases bs with
    | nil => cases h
    | cons b bs =>
      obtain ⟨ha, has⟩ := List.forall_mem_cons.1 ha
      obtain ⟨hb, hbs⟩ := List.forall_mem_cons.1 hb
      obtain ⟨hhead, htail⟩ := List.cons.inj h
      rw [hf ha hb hhead, ih has hbs htail]

theorem of_mem_glyphs {P : String → Prop} (hon : P on) (hoff : P off) {line : List String}
    (hline : line ∈ s.glyphs on off) : ∀ g ∈ line, P g := by
  obtain ⟨row, -, rfl⟩ := List.mem_map.1 hline
  refine List.forall_mem_map.2 fun p hp => ?_
  unfold glyph
  split
  · exact hoff
  · exact hon

theorem length_glyphs (s : Screen) (on off : String) :
    (s.glyphs on off).length = s.height.toNat := by
  rw [glyphs, List.length_map, length_rows]

theorem length_of_mem_glyphs (h : s.HasPixels) {line : List String}
    (hline : line ∈ s.glyphs on off) : line.length = s.width.toNat := by
  obtain ⟨row, hrow, rfl⟩ := List.mem_map.1 hline
  rw [List.length_map, length_of_mem_rows h hrow]

/-- A text of glyphs that are as long as each other, and do not hold the end of a line, tells the
glyphs. -/
theorem glyphs_eq_of_render_eq (hs : s.HasPixels) (ht : t.HasPixels) (hpos : 0 < on.length)
    (hlength : on.length = off.length) (hon : '\n' ∉ on.toList) (hoff : '\n' ∉ off.toList)
    (h : s.render on off = t.render on off) : s.glyphs on off = t.glyphs on off := by
  have hnonempty {u : Screen} (hu : u.HasPixels) : u.lines on off ≠ [] := by
    rw [lines_eq, ne_eq, List.map_eq_nil_iff, ← List.length_eq_zero_iff, length_glyphs]
    exact (Int.pos_iff_toNat_pos.1 hu.2).ne'
  have hnoEnd (u : Screen) : ∀ line ∈ u.lines on off, '\n' ∉ line.toList := by
    rw [lines_eq]
    exact List.forall_mem_map.2 fun line hline => notMem_join (of_mem_glyphs hon hoff hline)
  have hlines : s.lines on off = t.lines on off :=
    eq_of_intercalate_eq rfl (hnonempty hs) (hnonempty ht) (hnoEnd s) (hnoEnd t) h
  rw [lines_eq, lines_eq] at hlines
  have hsame (u : Screen) : ∀ line ∈ u.glyphs on off, ∀ g ∈ line, g.length = on.length :=
    fun line hline => of_mem_glyphs (P := fun g => g.length = on.length) rfl hlength.symm hline
  have hinj : Set.InjOn String.join {line | ∀ g ∈ line, g.length = on.length} :=
    fun a ha b hb => eq_of_join_eq hpos ha hb
  exact eq_of_map_eq hinj (hsame s) (hsame t) hlines

/-- Glyphs that are not the same tell the pixels. -/
theorem rows_eq_of_glyphs_eq (hs : s.HasPixels) (hsb : s.Binary) (ht : t.HasPixels)
    (htb : t.Binary) (hne : on ≠ off) (h : s.glyphs on off = t.glyphs on off) :
    s.rows = t.rows := by
  have hinj : Set.InjOn (List.map (glyph on off)) {row | ∀ p ∈ row, p = 0 ∨ p = 1} :=
    fun a ha b hb => eq_of_map_eq (glyph_injOn hne) ha hb
  exact eq_of_map_eq hinj (fun row => binary_of_mem_rows hs hsb)
    (fun row => binary_of_mem_rows ht htb) h

/-- Screens of dark and lit pixels that make the same text are the same. -/
theorem eq_of_render_eq (hs : s.HasPixels) (hsb : s.Binary) (ht : t.HasPixels) (htb : t.Binary)
    (hne : on ≠ off) (hlength : on.length = off.length) (hon : '\n' ∉ on.toList)
    (hoff : '\n' ∉ off.toList) (h : s.render on off = t.render on off) : s = t := by
  have hpos : 0 < on.length := by
    rw [Nat.pos_iff_ne_zero]
    intro hzero
    have hempty : off = "" := String.length_eq_zero_iff.1 (hlength ▸ hzero)
    exact hne ((String.length_eq_zero_iff.1 hzero).trans hempty.symm)
  have hglyphs := glyphs_eq_of_render_eq hs ht hpos hlength hon hoff h
  exact eq_of_rows_eq hs ht (rows_eq_of_glyphs_eq hs hsb ht htb hne hglyphs)

/-! ## All of them -/

/-- Whoever looks at column `x` and row `y` of the screen finds the pixel `p` there. -/
structure Shows (s : Screen) (x y : Nat) (p : UInt8) : Prop where
  get : ∀ i j : Int, s.get (x + i * s.width) (y + j * s.height) = .ok p
  row : ∃ row, s.rows[y]? = some row ∧ row[x]? = some p
  grid : s.grid[x + y * s.width.toNat]? = some p
  picture : ∀ (palette : Palette) (picture : Picture), palette.Proper →
    Picture.ofScreen s palette = .ok picture →
    ∃ column colour, picture.columns[x]? = some column ∧ column[y]? = some colour ∧
      colour.map (fun b => (b.toNat : Int)) = if p = 1 then palette.lit else palette.dark
  glyph : ∀ on off : String, ∃ gs, (s.glyphs on off)[y]? = some gs ∧
    gs[x]? = some (if p = 1 then on else off)

theorem shows_pixel (h : s.HasPixels) (hb : s.Binary) (hx : x < s.width.toNat)
    (hy : y < s.height.toNat) : s.Shows x y (s.pixel (x + y * s.width.toNat)) where
  get := get_shifted h hx hy
  row := ⟨_, getElem?_rows s hy, getElem?_row h hx hy⟩
  grid := getElem?_grid s (index_lt h hx hy)
  picture palette picture hpalette hpicture := by
    obtain ⟨column, colour, hcolumn, hcolour, hget⟩ :=
      Picture.getElem?_columns h (Palette.colours_of_proper hpalette) hpicture hx hy
    refine ⟨column, colour, hcolumn, hcolour, ?_⟩
    obtain ⟨hdark, hlit⟩ := List.forall_mem_append.1 hpalette.2
    obtain hp | hp := hb (x + y * s.width.toNat) <;> rw [hp] at hget ⊢ <;>
      obtain rfl := Option.some.inj hget
    · exact Palette.map_toNat_ofInt hdark
    · exact Palette.map_toNat_ofInt hlit
  glyph on off := by
    have hrow := getElem?_rows s hy
    have hpixel := getElem?_row h hx hy
    refine ⟨_, by rw [glyphs, List.getElem?_map, hrow, Option.map_some], ?_⟩
    rw [List.getElem?_map, hpixel, Option.map_some]
    obtain hp | hp := hb (x + y * s.width.toNat) <;> rw [hp] <;> rfl

end Screen

end ChipEight
