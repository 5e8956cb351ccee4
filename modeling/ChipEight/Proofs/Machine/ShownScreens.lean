import ChipEight.Proofs.Machine.Requests
import ChipEight.Proofs.Screen.Presenting

/-!
# Shown screens

The screen of a machine in use has pixels, and all of them are dark or lit. So whatever presents it
shows the same as everything else that does, as with any such screen.
-/

namespace ChipEight.Machine

/-- On a screen of dark and lit pixels, coordinates, rows, the grid, a picture and a text agree on
every pixel, and each of them shows the whole screen. The screen can be told from its text if the
two glyphs are not the same but as long as each other, and neither ends a line. The screen of a
machine in use is one of these, and has 32 rows of 64 pixels. -/
theorem presenters_agree :
    (∀ s : Screen, s.HasPixels → s.Binary →
      s.rows.flatten = s.grid ∧
      (∀ x y : Nat, x < s.width → y < s.height → ∃ p, (p = 0 ∨ p = 1) ∧ s.Shows x y p) ∧
      (∀ palette : Palette, palette.Proper → ∃ picture, Picture.ofScreen s palette = .ok picture ∧
        picture.HasShape s.width.toNat s.height.toNat palette.lit.length) ∧
      (∀ on off : String,
        s.render on off = "\n".intercalate ((s.glyphs on off).map String.join) ∧
        (s.glyphs on off).length = s.height.toNat ∧
        ∀ line ∈ s.glyphs on off, line.length = s.width.toNat) ∧
      ∀ on off : String, on ≠ off → on.length = off.length →
        '\n' ∉ on.toList → '\n' ∉ off.toList →
        ∀ t : Screen, t.HasPixels → t.Binary → s.render on off = t.render on off → s = t) ∧
    ∀ m : Machine, m.Reachable →
      m.screen.HasPixels ∧ m.screen.Binary ∧ m.screen.width = 64 ∧ m.screen.height = 32 := by
  constructor
  · intro s h hb
    refine ⟨Screen.flatten_rows h, fun x y hx hy => ?_,
      fun palette => Picture.exists_ofScreen h hb,
      fun on off => ⟨?_, s.length_glyphs on off, fun line => Screen.length_of_mem_glyphs h⟩,
      fun on off hne hlength hon hoff t ht htb =>
        Screen.eq_of_render_eq h hb ht htb hne hlength hon hoff⟩
    · exact ⟨_, hb _, Screen.shows_pixel h hb (by omega) (by omega)⟩
    · rw [Screen.render, Screen.lines_eq]
  · intro m hm
    have hbounded := hm.bounded
    exact ⟨hbounded.hasPixels, hbounded.binary, hbounded.width, hbounded.height⟩

/-- A machine draws a zero into the corner of its screen. Its lit upper right pixel is found by all
who look for it, and its text is not that of a dark screen. -/
theorem zero_presented :
    let m := ([.load [0xD0, 0x05], .run .none 1] : List Request).foldl perform
      (fresh (.tape [] 0))
    m.Reachable ∧ m.screen.Shows 3 0 1 ∧ m.screen.rows.flatten = m.screen.grid ∧
      (∃ picture, Picture.ofScreen m.screen .usual = .ok picture ∧ picture.HasShape 64 32 3) ∧
      m.screen.render "##" ".." ≠ Screen.usual.render "##" ".." := by
  intro m
  have hm : m.Reachable := (Reachable.fresh _).foldl_perform _
  have hlit : m.screen.grid[3]? = some 1 := by decide +kernel
  have hdark : Screen.usual.grid[3]? = some 0 := by decide +kernel
  clear_value m
  obtain ⟨hagree, hmachine⟩ := presenters_agree
  obtain ⟨hpixels, hbinary, hwidth, hheight⟩ := hmachine m hm
  obtain ⟨hrows, hshows, hpicture, -, htext⟩ := hagree m.screen hpixels hbinary
  obtain ⟨p, -, hp⟩ := hshows 3 0 (by omega) (by omega)
  obtain rfl : p = 1 := by
    have hgrid := hp.grid
    rw [Nat.zero_mul, hlit] at hgrid
    exact (Option.some.inj hgrid).symm
  have husual : (fresh (.tape [] 0)).screen.HasPixels ∧ (fresh (.tape [] 0)).screen.Binary :=
    ⟨(hmachine _ (.fresh _)).1, (hmachine _ (.fresh _)).2.1⟩
  rw [hwidth, hheight] at hpicture
  refine ⟨hm, hp, hrows, hpicture .usual ⟨rfl, by decide⟩, fun hsame => ?_⟩
  have hscreen := htext "##" ".." (by decide) rfl (by decide) (by decide) Screen.usual husual.1
    husual.2 hsame
  rw [hscreen, hdark] at hlit
  cases hlit

end ChipEight.Machine
