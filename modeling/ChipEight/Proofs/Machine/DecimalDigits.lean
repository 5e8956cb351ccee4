import ChipEight.Proofs.Machine.SavedRegisters

/-!
# A digit of a number

Three instructions one behind another lead from a byte to the glyph of one of its decimal digits.
The first writes the digits to memory, the second loads them into the first three registers, and the
third moves the index register to where the glyph of the digit in a register starts. The glyph is
there as long as the font is, and the digits are not written over that.

## Main definitions

* `Font.glyph`: the rows of the glyph of a digit.
* `Memory.HoldsFont`: the font lies at the bottom of memory.
* `Machine.EncodesDigit`: the three instructions are in memory and are not written over.
* `Machine.FindsDigit`: what they leave.
-/

namespace ChipEight

/-- The rows of the glyph of a digit. -/
def Font.glyph (digit : Nat) : List UInt8 := (bytes.drop (glyphStart digit)).take glyphHeight

/-! ## The font in memory -/

namespace Memory

/-- The font lies at the bottom of memory. -/
def HoldsFont (m : Memory) : Prop := m.readAll 0 Font.bytes.length = .ok Font.bytes

instance (m : Memory) : Decidable m.HoldsFont := inferInstanceAs (Decidable (_ = _))

variable {m n : Memory}

theorem holdsFont_iff :
    m.HoldsFont ↔ (List.range Font.bytes.length).map m.byte = Font.bytes := by
  have hread : m.readAll 0 Font.bytes.length = .ok _ := @readAll_ofNat m 0 _ (by decide)
  simp [HoldsFont, hread]

theorem HoldsFont.congr (h : m.HoldsFont)
    (hsame : ∀ a < Font.bytes.length, n.byte a = m.byte a) : n.HoldsFont := by
  rw [holdsFont_iff] at h ⊢
  rw [← h]
  exact List.map_congr_left fun a ha => hsame a (List.mem_range.1 ha)

/-- Every digit has its glyph in the font. -/
theorem HoldsFont.readAll_glyph (h : m.HoldsFont) {digit : Nat} (hd : digit < 16) :
    m.readAll (Font.glyphStart digit) Font.glyphHeight = .ok (Font.glyph digit) := by
  have hend : Font.glyphStart digit + Font.glyphHeight ≤ Font.bytes.length := by
    rw [Font.length_bytes]
    simp only [Font.glyphStart, Font.glyphHeight]
    omega
  rw [readAll_ofNat (Nat.le_trans hend (by decide)), Font.glyph, ← holdsFont_iff.1 h]
  refine congrArg Except.ok (List.ext_getElem? fun k => ?_)
  by_cases hk : k < Font.glyphHeight
  · have hlt : Font.glyphStart digit + k < Font.bytes.length := by omega
    simp [hk, List.getElem?_range hlt]
  · have hle := Nat.le_of_not_lt hk
    rw [List.getElem?_eq_none (by simpa using hle), List.getElem?_take_eq_none hle]

end Memory

namespace Machine

/-- The word at the program counter and the two behind it have the byte in `VX` written out in
decimal, the digits loaded and the glyph of the one in `VD` looked up, and the digits are not
written over the words that are still to come. -/
structure EncodesDigit (m : Machine) (x d : Nibble) : Prop where
  store : ∃ w, m.memory.word m.processor.pc = .ok w ∧ w.Fits "FX33" ∧ w.x = x
  load : m.memory.word (m.processor.pc + 2) = .ok 0xF265
  glyph : ∃ w, m.memory.word (m.processor.pc + 4) = .ok w ∧ w.Fits "FX29" ∧ w.x = d
  spares : ∀ a : Nat, m.processor.index.toNat ≤ a → a ≤ m.processor.index.toNat + 2 →
    (a : Int) < m.processor.pc + 2 ∨ m.processor.pc + 6 ≤ a

/-- The first three registers of `t` hold the decimal digits of the byte that `VX` held in `m`, and
the glyph of the digit in `VD` lies at the index register. -/
structure FindsDigit (m t : Machine) (x d : Nibble) : Prop where
  digit : ∀ r : Nibble, r ≤ 2 → (t.reg r).toNat ≤ 9
  value : 100 * (t.reg 0).toNat + 10 * (t.reg 1).toNat + (t.reg 2).toNat = (m.reg x).toNat
  glyph : t.memory.readAll t.processor.index.toNat Font.glyphHeight =
    .ok (Font.glyph (t.reg d).toNat)

variable {m : Machine} {keys : Keys} {x d r : Nibble}

/-! ## The three instructions -/

theorem tick_storeDecimal (hnext : m.next? = some (.storeDecimal x))
    (hfits : m.processor.index.toNat + 3 ≤ 4096) (keys : Keys) :
    (m.tick keys).fault? = none ∧ (m.tick keys).state.processor = m.processor.advance := by
  have hx : m.quieten.execute keys (.storeDecimal x) =
      .done (m.quieten.stored (decimalDigits (m.reg x))).advance () :=
    execute_storeDecimal.trans (store_of_fits advance hfits)
  obtain ⟨hok, hprocessor⟩ := processor_tick_of_next? hnext hx
  exact ⟨hok, hprocessor.trans (congrArg Processor.advance (processor_stored _ _))⟩

/-- There is room for three registers where the three digits were written. -/
theorem fits_behind_storeDecimal (hnext : m.next? = some (.storeDecimal x))
    (hfits : m.processor.index.toNat + 3 ≤ 4096) (keys : Keys) :
    (m.tick keys).state.processor.index.toNat + (2 : Nibble).val + 1 ≤ 4096 := by
  rw [(tick_storeDecimal hnext hfits keys).2]
  exact hfits

theorem byte_tick_storeDecimal (hnext : m.next? = some (.storeDecimal x)) (keys : Keys) (a : Nat) :
    (m.tick keys).state.memory.byte a =
      (m.memory.writeAll m.processor.index.toNat (decimalDigits (m.reg x))).state.byte a := by
  rw [memory_tick_eq, pending, hnext]
  rfl

theorem pc_tick_loadRegisters (hnext : m.next? = some (.loadRegisters x))
    (hfits : m.processor.index.toNat + x.val + 1 ≤ 4096) (keys : Keys) :
    (m.tick keys).state.processor.pc = m.processor.pc + 2 := by
  have hx := execute_loadRegisters_of_fits (m := m.quieten) hfits keys
  obtain ⟨-, hpc, -⟩ := tick_of_passRegisters hnext hx
  rw [hpc, processor_restored]
  rfl

/-- The product of a decimal digit and the height of a glyph is a byte. -/
theorem toNat_glyphStart {digit : UInt8} (h : digit.toNat ≤ 9) :
    (digit * UInt8.ofNat Font.glyphHeight).toNat = Font.glyphStart digit.toNat := by
  have hheight : (UInt8.ofNat Font.glyphHeight).toNat = 5 := rfl
  rw [UInt8.toNat_mul, hheight, Font.glyphStart, Font.glyphHeight]
  omega

theorem tick_indexGlyph (hnext : m.next? = some (.indexGlyph x)) (hdigit : (m.reg x).toNat ≤ 9)
    (keys : Keys) :
    (m.tick keys).fault? = none ∧ (m.tick keys).state.reg = m.reg ∧
      (m.tick keys).state.memory = m.memory ∧
      (m.tick keys).state.processor.index.toNat = Font.glyphStart (m.reg x).toNat := by
  have hx : m.quieten.execute keys (.indexGlyph x) = .done _ () := rfl
  obtain ⟨hok, hprocessor⟩ := processor_tick_of_next? hnext hx
  have hindex := m.quieten.toNat_index_setIndex (m.reg x * UInt8.ofNat Font.glyphHeight).toNat
  have hmemory : (m.tick keys).state.memory = m.memory := by
    rw [memory_tick_eq, pending, hnext]
    rfl
  refine ⟨hok, funext fun r => ?_, hmemory, ?_⟩
  · have hreg := congrArg (·.reg r) hprocessor
    exact hreg
  · rw [hprocessor]
    refine hindex.trans ?_
    rw [toNat_glyphStart hdigit, Font.glyphStart, Font.glyphHeight]
    omega

theorem exists_decimalDigits_eq (b : UInt8) :
    ∃ hundreds tens ones : UInt8, decimalDigits b = [hundreds, tens, ones] ∧
      (hundreds.toNat ≤ 9 ∧ tens.toNat ≤ 9 ∧ ones.toNat ≤ 9) ∧
      100 * hundreds.toNat + 10 * tens.toNat + ones.toNat = b.toNat := by
  have hb : b.toNat < 256 := b.toNat_lt
  refine ⟨_, _, _, rfl, ?_⟩
  simp only [UInt8.toNat_div, UInt8.toNat_mod, UInt8.reduceToNat]
  omega

/-! ## All three -/

/-- The digits come into the registers, and memory is as they were written to it. -/
theorem digits_loaded {first : Keys} (hstore : m.next? = some (.storeDecimal x))
    (hload : (m.tick first).state.next? = some (.loadRegisters 2))
    (hfits : m.processor.index.toNat + 3 ≤ 4096) (second : Keys) :
    let t := ((m.tick first).state.tick second).state
    ((m.tick first).fault? = none ∧ ((m.tick first).state.tick second).fault? = none) ∧
      (∀ r : Nibble, r ≤ 2 → (t.reg r).toNat ≤ 9) ∧
      100 * (t.reg 0).toNat + 10 * (t.reg 1).toNat + (t.reg 2).toNat = (m.reg x).toNat ∧
      t.memory = (m.tick first).state.memory := by
  intro t
  obtain ⟨hok, hprocessor⟩ := tick_storeDecimal hstore hfits first
  have hindex : (m.tick first).state.processor.index = m.processor.index := by
    rw [hprocessor]
    rfl
  have hfits' := fits_behind_storeDecimal hstore hfits first
  obtain ⟨hundreds, tens, ones, hdigits, ⟨hh, ht, ho⟩, hvalue⟩ :=
    exists_decimalDigits_eq (m.reg x)
  have hreg (r : Nibble) (hr : r ≤ 2) (b : UInt8) (hb : [hundreds, tens, ones][r.val]? = some b) :
      t.reg r = b := by
    have hbyte := (reg_tick_loadRegisters hload hfits' second).1 r hr
    have hr' : r.val ≤ 2 := hr
    rw [hindex, byte_tick_storeDecimal hstore, hdigits, Memory.byte_writeAll,
      if_pos ⟨Nat.le_add_right _ _, by simp only [Memory.size]; omega⟩, Nat.add_sub_cancel_left,
      hb] at hbyte
    exact hbyte
  have h0 := hreg 0 (by decide) hundreds rfl
  have h1 := hreg 1 (by decide) tens rfl
  have h2 := hreg 2 (by decide) ones rfl
  refine ⟨⟨hok, (fault?_tick_registers_eq_none_iff (.inr hload)).2 hfits'⟩, fun r hr => ?_, ?_,
    memory_tick_loadRegisters hload second⟩
  · obtain rfl | rfl | rfl : r = 0 ∨ r = 1 ∨ r = 2 := by revert r; decide
    · exact h0 ▸ hh
    · exact h1 ▸ ht
    · exact h2 ▸ ho
  · rw [h0, h1, h2, hvalue]

/-- Digits above the font leave it as it is. -/
theorem holdsFont_tick_storeDecimal (hfont : m.memory.HoldsFont)
    (habove : Font.bytes.length ≤ m.processor.index.toNat)
    (hstore : m.next? = some (.storeDecimal x)) (keys : Keys) :
    (m.tick keys).state.memory.HoldsFont := by
  refine hfont.congr fun a ha => ?_
  rw [byte_tick_storeDecimal hstore]
  exact Memory.byte_writeAll_of_outside _ (by omega)

theorem findsDigit_of_next {first second : Keys} (hd : d ≤ 2) (hfont : m.memory.HoldsFont)
    (habove : 80 ≤ m.processor.index.toNat) (hfits : m.processor.index.toNat ≤ 4093)
    (hstore : m.next? = some (.storeDecimal x))
    (hload : (m.tick first).state.next? = some (.loadRegisters 2))
    (hglyph : ((m.tick first).state.tick second).state.next? = some (.indexGlyph d))
    (third : Keys) :
    m.completed [first, second, third] = 3 ∧
      m.FindsDigit (m.tickThrough [first, second, third]) x d := by
  obtain ⟨⟨hok, hok'⟩, hdigits, hvalue, hmemory⟩ :=
    digits_loaded hstore hload (by omega) second
  have hholds := holdsFont_tick_storeDecimal hfont habove hstore first
  rw [← hmemory] at hholds
  obtain ⟨hok'', hreg, hmemory', hindex⟩ := tick_indexGlyph hglyph (hdigits d hd) third
  refine ⟨by simp [completed, hok, hok', hok''], ?_⟩
  simp only [tickThrough_cons, tickThrough_nil]
  constructor
  · rw [hreg]
    exact hdigits
  · rw [hreg]
    exact hvalue
  · have hlt : (((m.tick first).state.tick second).state.reg d).toNat < 16 :=
      Nat.lt_of_le_of_lt (hdigits d hd) (by decide)
    rw [hreg, hmemory', hindex]
    exact hholds.readAll_glyph hlt

/-- Instructions that are not written over are executed. -/
theorem EncodesDigit.next? (h : m.EncodesDigit x d)
    (hfits : m.processor.index.toNat + 3 ≤ 4096) (first second : Keys) :
    m.next? = some (.storeDecimal x) ∧ (m.tick first).state.next? = some (.loadRegisters 2) ∧
      ((m.tick first).state.tick second).state.next? = some (.indexGlyph d) := by
  obtain ⟨⟨w, hw, hfits₁, rfl⟩, hload, ⟨w', hw', hfits₃, rfl⟩, hspares⟩ := h
  have hstore : m.next? = some (.storeDecimal w.x) := next?_of_fits .storeDecimal hw hfits₁
  have hpc : (m.tick first).state.processor.pc = m.processor.pc + 2 := by
    rw [(tick_storeDecimal hstore hfits first).2]
    rfl
  -- The words that are still to come are read from memory as it was.
  have hword {addr : Int} (hlow : m.processor.pc + 2 ≤ addr) (hhigh : addr ≤ m.processor.pc + 4) :
      (m.tick first).state.memory.word addr = m.memory.word addr := by
    refine Memory.word_congr fun a _ ha => ?_
    have hlength : (decimalDigits (m.reg w.x)).length = 3 := rfl
    rw [byte_tick_storeDecimal hstore]
    refine Memory.byte_writeAll_of_outside _ fun hin => ?_
    have hspared := hspares a hin.1 (by omega)
    omega
  have hload' : (m.tick first).state.next? = some (.loadRegisters 2) := by
    refine next?_of_fits .loadRegisters ?_ (by decide : Word.Fits 0xF265 "FX65")
    rw [hpc, hword (by omega) (by omega), hload]
  refine ⟨hstore, hload', ?_⟩
  have hpc' := pc_tick_loadRegisters hload' (fits_behind_storeDecimal hstore hfits first) second
  refine next?_of_fits .indexGlyph ?_ hfits₃
  rw [hpc', hpc, memory_tick_loadRegisters hload' second, Int.add_assoc,
    hword (by omega) (by omega)]
  exact hw'

/-- The font being in memory, and the index register above it and at least three bytes below the
end: if the next three ticks execute the three instructions, then they are completed, the digits of
the byte are in the registers, and the glyph of the one that was asked for is at the index register.
They execute them if they are in memory and are not written over, whatever keys are pressed. -/
theorem decimal_digit_found (hd : d ≤ 2) (hfont : m.memory.HoldsFont)
    (habove : 80 ≤ m.processor.index.toNat) (hfits : m.processor.index.toNat ≤ 4093)
    (first second third : Keys) :
    let reports := [first, second, third]
    let executed := (m.visits reports).map Machine.next?
    let instructions := [.storeDecimal x, .loadRegisters 2, .indexGlyph d]
    (executed = instructions.map some →
      m.completed reports = 3 ∧ m.FindsDigit (m.tickThrough reports) x d) ∧
    (m.EncodesDigit x d → executed = instructions.map some) := by
  intro reports executed instructions
  constructor
  · intro hexecuted
    simp only [executed, reports, instructions, visits, List.map_cons, List.map_nil,
      List.cons.injEq, and_true] at hexecuted
    obtain ⟨hstore, hload, hglyph⟩ := hexecuted
    exact findsDigit_of_next hd hfont habove hfits hstore hload hglyph third
  · intro hencodes
    obtain ⟨hstore, hload, hglyph⟩ := hencodes.next? (by omega) first second
    simp only [executed, reports, instructions, visits, List.map_cons, List.map_nil, hstore, hload,
      hglyph]

/-- 234 is written out to `0x300`, and the glyph of its second digit is found. -/
theorem three_in_two_hundred_thirty_four :
    let m := [Request.load [0xA3, 0x00, 0xF3, 0x33, 0xF2, 0x65, 0xF1, 0x29], .setRegister 3 234,
      .tick .none].foldl perform (fresh (.tape [] 0))
    let t := m.tickThrough [.none, .none, .none]
    m.Reachable ∧ m.reg 3 = 234 ∧ m.completed [.none, .none, .none] = 3 ∧ t.reg 1 = 3 ∧
      t.memory.readAll t.processor.index.toNat 5 = .ok [0xF0, 0x10, 0xF0, 0x10, 0xF0] := by
  intro m t
  have hm : m.Reachable := (Reachable.fresh _).foldl_perform _
  have hstart : m.processor.pc = 0x202 ∧ m.processor.index.toNat = 0x300 ∧ m.reg 3 = 234 ∧
      m.memory.word 0x202 = .ok 0xF333 ∧ m.memory.word 0x204 = .ok 0xF265 ∧
      m.memory.word 0x206 = .ok 0xF129 := by decide +kernel
  have hfont : m.memory.HoldsFont := by decide +kernel
  have hthree : t.reg 1 = 3 := by decide +kernel
  clear_value m
  obtain ⟨hpc, hindex, hvalue, hstore, hload, hglyph⟩ := hstart
  have hencodes : m.EncodesDigit 3 1 := by
    refine ⟨⟨0xF333, ?_, by decide, rfl⟩, ?_, ⟨0xF129, ?_, by decide, rfl⟩, fun a hlow hhigh => ?_⟩
    · rw [hpc, hstore]
    · rw [hpc]
      exact hload
    · rw [hpc]
      exact hglyph
    · omega
  obtain ⟨hfound, hexecuted⟩ := decimal_digit_found (x := 3) (d := 1) (by decide) hfont (by omega)
    (by omega) .none .none .none
  obtain ⟨hok, hdigit⟩ := hfound (hexecuted hencodes)
  have hglyph' := hdigit.glyph
  rw [hthree] at hglyph'
  exact ⟨hm, hvalue, hok, hthree, hglyph'⟩

end Machine

end ChipEight
