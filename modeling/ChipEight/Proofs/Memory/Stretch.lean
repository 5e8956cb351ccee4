import ChipEight.Memory.Basic

/-!
# Stretches of memory

What remains in memory when bytes are written one after another from an address up, be it that
they all fit or that the end of memory cuts them short: every byte that fits is stored, and the
fault names the first address outside.
-/

namespace ChipEight.Memory

theorem covers_one_iff {a : Nat} : Covers a 1 ↔ a < size := by
  simp only [Covers]
  omega

theorem read_ofNat {m : Memory} {a : Nat} (h : a < size) : m.read a = .ok (m.byte a) := by
  rw [read, if_pos (covers_one_iff.2 h), Int.toNat_natCast]

theorem read_of_size_le {m : Memory} {a : Nat} (h : size ≤ a) :
    m.read a = .error (.bus a) := by
  rw [read, if_neg (mt covers_one_iff.1 (Nat.not_lt.2 h))]

theorem write_ofNat {m : Memory} {a : Nat} (b : UInt8) (h : a < size) :
    m.write a b.toNat = .ok (m.set a b) := by
  have hb : UInt8.ofInt b.toNat = b := by
    have hlt : b.toNat < 256 := b.toNat_lt
    rw [← UInt8.toNat_inj, toNat_ofInt]
    omega
  rw [write, if_pos (covers_one_iff.2 h), Int.toNat_natCast, hb]

theorem write_of_size_le {m : Memory} {a : Nat} (value : Int) (h : size ≤ a) :
    m.write a value = .error (.bus a) := by
  rw [write, if_neg (mt covers_one_iff.1 (Nat.not_lt.2 h))]

theorem writeAll_cons_of_lt (m : Memory) {addr : Nat} (b : UInt8) (bs : List UInt8)
    (h : addr < size) :
    m.writeAll addr (b :: bs) = (m.set addr b).writeAll ((addr + 1 : Nat) : Int) bs := by
  rw [writeAll, write_ofNat b h]
  rfl

theorem writeAll_cons_of_size_le (m : Memory) {addr : Nat} (b : UInt8) (bs : List UInt8)
    (h : size ≤ addr) : m.writeAll addr (b :: bs) = .stopped m (.bus addr) := by
  rw [writeAll, write_of_size_le _ h]

/-- Every byte that has a place in memory is stored there, and nothing else changes. -/
theorem byte_writeAll (m : Memory) (addr : Nat) (bs : List UInt8) (a : Nat) :
    (m.writeAll addr bs).state.byte a =
      if addr ≤ a ∧ a < size then bs[a - addr]?.getD (m.byte a) else m.byte a := by
  induction bs generalizing m addr with
  | nil => simp [writeAll]
  | cons b bs ih =>
    by_cases h : addr < size
    · rw [writeAll_cons_of_lt m b bs h, ih, byte_set]
      by_cases ha : addr = a
      · subst ha
        rw [if_neg (by omega), if_pos ⟨rfl, h⟩, if_pos ⟨Nat.le_refl _, h⟩, Nat.sub_self]
        rfl
      · rw [if_neg (c := addr = a ∧ addr < size) (by omega)]
        by_cases hl : addr + 1 ≤ a ∧ a < size
        · obtain ⟨k, rfl⟩ : ∃ k, a = addr + 1 + k := ⟨a - (addr + 1), by omega⟩
          rw [if_pos hl, if_pos ⟨by omega, hl.2⟩, Nat.add_sub_cancel_left,
            show addr + 1 + k - addr = k + 1 by omega, List.getElem?_cons_succ]
        · rw [if_neg hl, if_neg (by omega)]
    · rw [writeAll_cons_of_size_le m b bs (Nat.le_of_not_lt h)]
      rw [if_neg (by omega)]
      rfl

theorem byte_writeAll_of_outside (m : Memory) {addr : Nat} {bs : List UInt8} {a : Nat}
    (h : ¬(addr ≤ a ∧ a < addr + bs.length)) : (m.writeAll addr bs).state.byte a = m.byte a := by
  rw [byte_writeAll]
  split
  · rw [List.getElem?_eq_none (by omega), Option.getD_none]
  · rfl

/-- The write is cut short exactly if the bytes reach over the end of memory. -/
theorem fault?_writeAll (m : Memory) (addr : Nat) (bs : List UInt8) :
    (m.writeAll addr bs).fault? =
      if bs = [] ∨ addr + bs.length ≤ size then none else some (.bus (max addr size : Nat)) := by
  induction bs generalizing m addr with
  | nil => rfl
  | cons b bs ih =>
    by_cases h : addr < size
    · rw [writeAll_cons_of_lt m b bs h, ih, List.length_cons]
      by_cases hl : addr + 1 + bs.length ≤ size
      · rw [if_pos (.inr hl), if_pos (.inr (by omega))]
      · have hne : bs ≠ [] := by
          rintro rfl
          simp at hl
          omega
        rw [if_neg (by simp [hne, hl]), if_neg (by simp; omega)]
        congr 3
        omega
    · rw [writeAll_cons_of_size_le m b bs (Nat.le_of_not_lt h)]
      rw [if_neg (by simp; omega), Nat.max_eq_left (Nat.le_of_not_lt h)]
      rfl

/-- Bytes that lie in memory are read one after another. -/
theorem readAll_ofNat {m : Memory} {addr n : Nat} (h : addr + n ≤ size) :
    m.readAll addr n = .ok ((List.range n).map fun k => m.byte (addr + k)) := by
  induction n generalizing addr with
  | zero => rfl
  | succ n ih =>
    have hread : m.read addr = .ok (m.byte addr) := read_ofNat (by omega)
    have hrest : m.readAll ((addr : Int) + 1) n =
        .ok ((List.range n).map fun k => m.byte (addr + 1 + k)) :=
      ih (Nat.succ_add_eq_add_succ addr n ▸ h)
    rw [readAll, hread, hrest, List.range_succ_eq_map, List.map_cons, List.map_map]
    simp only [Function.comp_def, Nat.succ_eq_add_one, Nat.add_assoc, Nat.add_comm 1]
    rfl

end ChipEight.Memory
