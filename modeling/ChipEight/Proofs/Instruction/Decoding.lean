import ChipEight.Instruction.Decode

/-!
# Words of the instructions that can fault

Six instructions can stop at a fault. Their words are read off the table of families here, once,
so that nothing else has to look at it to say which words are safe.
-/

namespace ChipEight

theorem Word.family_lt (w : Word) : w.family < 16 := by
  have h : w.toNat < 65536 := w.toNat_lt
  rw [family]
  omega

namespace Instruction

variable {v0 : Int} {w : Word}

/-- Whether there is a state in which the instruction stops at a fault. -/
def canFault : Instruction → Bool
  | .ret | .call _ | .draw _ _ _ | .storeDecimal _ | .saveRegisters _ | .loadRegisters _ => true
  | _ => false

theorem decode_ret : decode v0 0x00EE = .ret := rfl

theorem decode_call (h : w.family = 0x2) : decode v0 w = .call w.nnn := by
  simp only [decode, h]

theorem decode_draw (h : w.family = 0xD) : decode v0 w = .draw w.x w.y w.n := by
  simp only [decode, h]

theorem decode_storeDecimal (h : w.family = 0xF) (hn : w.nn = 0x33) :
    decode v0 w = .storeDecimal w.x := by
  simp only [decode, h, hn]
  rfl

theorem decode_saveRegisters (h : w.family = 0xF) (hn : w.nn = 0x55) :
    decode v0 w = .saveRegisters w.x := by
  simp only [decode, h, hn]
  rfl

theorem decode_loadRegisters (h : w.family = 0xF) (hn : w.nn = 0x65) :
    decode v0 w = .loadRegisters w.x := by
  simp only [decode, h, hn]
  rfl

theorem cases_of_canFault (h : (decode v0 w).canFault = true) :
    w = 0x00EE ∨ w.family = 0x2 ∨ w.family = 0xD ∨
      w.family = 0xF ∧ (w.nn = 0x33 ∨ w.nn = 0x55 ∨ w.nn = 0x65) := by
  have hlt := w.family_lt
  unfold decode at h
  split at h
  case h_1 =>
    split at h
    · cases h
    · split at h
      · exact .inl ‹_›
      · cases h
  case h_3 => exact .inr (.inl ‹_›)
  case h_14 => exact .inr (.inr (.inl ‹_›))
  case h_16 =>
    -- The last case of the table is all that is left, and that is one family.
    have hF : w.family = 0xF := by
      simp only [imp_false] at *
      omega
    refine .inr (.inr (.inr ⟨hF, ?_⟩))
    split at h
    case h_7 hn => exact .inl (UInt8.toNat_inj.1 hn)
    case h_8 hn => exact .inr (.inl (UInt8.toNat_inj.1 hn))
    case h_9 hn => exact .inr (.inr (UInt8.toNat_inj.1 hn))
    all_goals cases h
  -- Families that look at more digits, but have no instruction that can fault.
  case h_6 | h_9 | h_10 | h_15 => split at h <;> cases h
  all_goals cases h

end Instruction

end ChipEight
