import ChipEight.Proofs.Machine.Footprint
import ChipEight.Proofs.Machine.Requests
import ChipEight.Proofs.Machine.Ticks
import ChipEight.Proofs.Screen.LitPixels

/-!
# Pixels drawn by a tick

The screen of a machine in use is larger than any sprite, so a sprite never lies on itself, not
even where it is wrapped around the edges. What a completed drawing does to the count of lit
pixels, and what it flags, can therefore be told from the bytes of the sprite and from the pixels
that were lit under it.
-/

namespace ChipEight.Machine

variable {m : Machine} {keys : Keys} {x y n : Nibble}

theorem fits_of_tick_draw (hp : m.screen.HasPixels) (hnext : m.next? = some (.draw x y n))
    (hok : (m.tick keys).fault? = none) :
    n.val = 0 ∨ m.processor.index.toNat + n.val ≤ Memory.size := by
  obtain ⟨w, hf⟩ := next?_eq_some_iff.1 hnext
  rw [fault?_tick_of_fetch hf] at hok
  exact overrun_eq_none_iff.1 ((fault?_drawSprite (m := m.quieten) hp x y n).symm.trans hok)

/-- A completed drawing leaves the screen with the sprite, and one or zero in the flag register. -/
theorem tick_draw (hp : m.screen.HasPixels) (hnext : m.next? = some (.draw x y n))
    (hok : (m.tick keys).fault? = none) {s : Screen} {hit : Bool}
    (hs : m.sprite x y n.val = .done s hit) :
    (m.tick keys).state.screen = s ∧
      (m.tick keys).state.reg Processor.flag = if hit then 1 else 0 := by
  obtain ⟨w, hf⟩ := next?_eq_some_iff.1 hnext
  obtain ⟨hit', ha, hd⟩ :=
    drawSprite_of_fits (m := m.quieten) hp (fits_of_tick_draw hp hnext hok) (x := x) (y := y)
  have hq : m.quieten.sprite x y n.val = .done s hit := hs
  obtain rfl : hit = hit' := by
    rw [hq] at ha
    exact Except.ok.inj ha
  rw [tick_of_done hf hd]
  exact ⟨congrArg Outcome.state hs, reg_setReg_self _ _ _⟩

/-- A completed drawing accounts for every pixel. The sprite turns over the pixels on which it lies
with its corner at the coordinates that the two registers held, be they the flag register or not;
each set bit of its bytes lights a pixel, or darkens one that was lit; and the flag register says
whether there was such a one, so that it is zero exactly if every set bit has lit a pixel. -/
theorem drawing_accounts_for_pixels (h : m.Reachable) (hnext : m.next? = some (.draw x y n))
    (hok : (m.tick keys).fault? = none) :
    let t := (m.tick keys).state
    let column : Int := (m.reg x).toNat
    let row : Int := (m.reg y).toNat
    let start := m.processor.index.toNat
    let pixels := m.memory.stencil start n.val
    let bits := m.memory.setBits start n.val
    let hits := m.screen.litUnder column row pixels
    (t.screen.lit : Int) = m.screen.lit + bits - 2 * hits ∧
      t.reg Processor.flag = (if 0 < hits then 1 else 0) ∧
      (t.reg Processor.flag = 0 ↔ t.screen.lit = m.screen.lit + bits) ∧
      ∀ i, t.screen.pixel i ≠ m.screen.pixel i ↔ i ∈ m.screen.under column row pixels := by
  intro t column row start pixels bits hits
  have hb := h.bounded
  have hwidth : 8 ≤ m.screen.width := by
    rw [hb.width]
    decide
  have hheight : (n.val : Int) ≤ m.screen.height := by
    have hlt := n.isLt
    rw [hb.height]
    simp only [Screen.usualHeight]
    omega
  obtain ⟨s, hit, hdraw, hlit, hhit, hpixel⟩ :=
    Screen.draw_counts hb.hasPixels hb.binary hwidth hheight m.memory column row
      (fits_of_tick_draw hb.hasPixels hnext hok)
  have hlit : s.lit + 2 * hits = m.screen.lit + bits := hlit
  obtain ⟨hscreen, hflag⟩ : t.screen = s ∧ t.reg Processor.flag = if hit then 1 else 0 :=
    tick_draw hb.hasPixels hnext hok hdraw
  have hflag : t.reg Processor.flag = if 0 < hits then 1 else 0 := by
    rw [hflag]
    exact if_congr hhit rfl rfl
  rw [hscreen, hflag]
  refine ⟨by omega, rfl, ?_, hpixel⟩
  by_cases hpos : 0 < hits <;> simp [hpos] <;> omega

/-- Two rows of a glyph around a corner of the screen, and the same rows one row above them, which
the flag register says. Of the six pixels that are drawn, two lie on lit ones. -/
theorem glyph_over_wrapped_glyph :
    let m := [.load [0xD0, 0xF2, 0xD0, 0xF2], .setRegister 0x0 62, .setRegister 0xF 31,
      .tick .none, .setRegister 0xF 30].foldl perform (fresh (.tape [] 0))
    let t := (m.tick .none).state
    m.Reachable ∧ m.next? = some (.draw 0x0 0xF 2) ∧ (m.tick .none).fault? = none ∧
      m.screen.lit = 6 ∧ t.screen.lit = 8 ∧ t.reg Processor.flag = 1 := by
  intro m t
  have hm : m.Reachable := (Reachable.fresh _).foldl_perform _
  obtain ⟨hnext, hok, hlit, hbits, hhits⟩ : m.next? = some (.draw 0x0 0xF 2) ∧
      (m.tick .none).fault? = none ∧ m.screen.lit = 6 ∧
      m.memory.setBits m.processor.index.toNat (2 : Nibble).val = 6 ∧
      m.screen.litUnder (m.reg 0x0).toNat (m.reg 0xF).toNat
        (m.memory.stencil m.processor.index.toNat (2 : Nibble).val) = 2 := by decide +kernel
  clear_value m
  obtain ⟨hcount, hflag, -⟩ := drawing_accounts_for_pixels hm hnext hok
  rw [hlit, hbits, hhits] at hcount
  rw [hhits] at hflag
  exact ⟨hm, hnext, hok, hlit, Int.ofNat_inj.1 hcount, hflag⟩

end ChipEight.Machine
