import ChipEight.Proofs.Machine.Faults
import ChipEight.Proofs.Machine.Locality
import ChipEight.Proofs.Machine.Requests

/-!
# Registers saved and loaded

Registers are saved to the bytes from the index register up, and loaded from there, and both move
the index register behind the last of them. In between a machine may do whatever it likes, faults
included: what matters is that no tick writes over the bytes, on the way from the registers to
memory and back, or that the registers come back to what they were, on the way from memory to the
registers and back.

## Main definitions

* `Machine.Spares`: ticks that write to none of the addresses of a stretch of memory.
-/

namespace ChipEight

open Memory (size)

namespace Machine

/-- None of the ticks writes to an address from the first to the last. -/
def Spares (m : Machine) (first last : Nat) (reports : List Keys) : Prop :=
  ∀ v ∈ m.visits reports, ∀ a, first ≤ a → a ≤ last → ¬v.Writes a

variable {m : Machine} {keys : Keys} {reports : List Keys} {x r : Nibble}

/-! ## Bytes that are not written to -/

theorem byte_tick {a : Nat} (h : ¬m.Writes a) (keys : Keys) :
    (m.tick keys).state.memory.byte a = m.memory.byte a := by
  rw [writes_iff] at h
  rw [memory_tick_eq]
  exact Memory.byte_writeAll_of_outside _ h

theorem Spares.byte_tickThrough {first last a : Nat} (h : m.Spares first last reports)
    (hfirst : first ≤ a) (hlast : a ≤ last) :
    (m.tickThrough reports).memory.byte a = m.memory.byte a := by
  refine tickThrough_keeps (P := fun u => u.memory.byte a = m.memory.byte a) rfl ?_
  intro v hv keys hbyte
  rw [byte_tick (h v hv a hfirst hlast), hbyte]

/-! ## One tick that passes over registers -/

theorem lt_size_of_fits {start : Nat} (hfits : start + x.val + 1 ≤ 4096) (hr : r ≤ x) :
    start + r.val < size := by
  grind

/-- Saving and loading fault in the same way. -/
theorem fault?_tick_registers
    (hnext : m.next? = some (.saveRegisters x) ∨ m.next? = some (.loadRegisters x)) :
    (m.tick keys).fault? = m.overrun (x.val + 1) := by
  obtain hnext | hnext := hnext
  · obtain ⟨w, hf⟩ := next?_eq_some_iff.1 hnext
    have hne : (registersUpTo x).map m.quieten.reg ≠ [] := by
      rw [ne_eq, List.map_eq_nil_iff]
      exact registersUpTo_ne_nil x
    rw [fault?_tick_of_fetch hf, execute_saveRegisters, fault?_store _ hne, List.length_map,
      length_registersUpTo]
    rfl
  · obtain ⟨w, hf⟩ := next?_eq_some_iff.1 hnext
    rw [fault?_tick_of_fetch hf, execute_loadRegisters, fault?_restore _ (registersUpTo_ne_nil x),
      length_registersUpTo]
    rfl

theorem fault?_tick_registers_eq_none_iff
    (hnext : m.next? = some (.saveRegisters x) ∨ m.next? = some (.loadRegisters x)) :
    (m.tick keys).fault? = none ↔ m.processor.index.toNat + x.val + 1 ≤ 4096 := by
  rw [fault?_tick_registers hnext, overrun_eq_none_iff, size]
  omega

theorem execute_saveRegisters_of_fits (hfits : m.processor.index.toNat + x.val + 1 ≤ 4096)
    (keys : Keys) :
    m.execute keys (.saveRegisters x) =
      .done (passRegisters x (m.stored ((registersUpTo x).map m.reg))) () := by
  have hlen : ((registersUpTo x).map m.reg).length = x.val + 1 := by
    rw [List.length_map, length_registersUpTo]
  rw [execute_saveRegisters]
  exact store_of_fits _ (by rw [hlen]; exact hfits)

theorem execute_loadRegisters_of_fits (hfits : m.processor.index.toNat + x.val + 1 ≤ 4096)
    (keys : Keys) :
    m.execute keys (.loadRegisters x) =
      .done (passRegisters x (m.restored (registersUpTo x))) () := by
  rw [execute_loadRegisters]
  exact restore_of_fits _ (by rw [length_registersUpTo]; exact hfits)

/-- The bytes that fit into memory leave the index register far below its own end. -/
theorem index_passRegisters {u : Machine} (h : u.processor.index.toNat + x.val + 1 ≤ 4096) :
    (passRegisters x u).processor.index.toNat = u.processor.index.toNat + x.val + 1 := by
  have hindex := u.toNat_index_setIndex (u.processor.index.toNat + x.val + 1)
  exact hindex.trans (by omega)

/-- What passing over registers leaves at the end of a tick. -/
theorem tick_of_passRegisters {i : Instruction} {u : Machine} (hnext : m.next? = some i)
    (hx : m.quieten.execute keys i = .done (passRegisters x u) ()) :
    (m.tick keys).state.reg = u.reg ∧
      (m.tick keys).state.processor.pc = u.processor.pc + 2 ∧
      (u.processor.index.toNat + x.val + 1 ≤ 4096 →
        (m.tick keys).state.processor.index.toNat = u.processor.index.toNat + x.val + 1) := by
  rw [tick_of_next? hnext hx]
  exact ⟨rfl, rfl, index_passRegisters⟩

theorem index_tick_registers
    (hnext : m.next? = some (.saveRegisters x) ∨ m.next? = some (.loadRegisters x))
    (hfits : m.processor.index.toNat + x.val + 1 ≤ 4096) (keys : Keys) :
    (m.tick keys).state.processor.index.toNat = m.processor.index.toNat + x.val + 1 := by
  obtain hnext | hnext := hnext
  · have hx := execute_saveRegisters_of_fits (m := m.quieten) hfits keys
    obtain ⟨-, -, hindex⟩ := tick_of_passRegisters hnext hx
    rw [processor_stored] at hindex
    exact hindex hfits
  · have hx := execute_loadRegisters_of_fits (m := m.quieten) hfits keys
    obtain ⟨-, -, hindex⟩ := tick_of_passRegisters hnext hx
    rw [processor_restored] at hindex
    exact hindex hfits

/-- Every register that is saved has its byte, as far as memory reaches. -/
theorem byte_tick_saveRegisters (hnext : m.next? = some (.saveRegisters x)) (hr : r ≤ x)
    (hin : m.processor.index.toNat + r.val < size) (keys : Keys) :
    (m.tick keys).state.memory.byte (m.processor.index.toNat + r.val) = m.reg r := by
  have hpending : m.pending = (registersUpTo x).map m.reg := by
    rw [pending, hnext]
    rfl
  have hbyte : ((registersUpTo x).map m.reg)[r.val]? = some (m.reg r) := by
    rw [List.getElem?_map, getElem?_registersUpTo hr]
    rfl
  rw [memory_tick_eq, Memory.byte_writeAll, if_pos ⟨Nat.le_add_right _ _, hin⟩,
    Nat.add_sub_cancel_left, hpending, hbyte]
  rfl

/-- Every register that is loaded has the byte that was saved for it, and the others are as they
were. -/
theorem reg_tick_loadRegisters (hnext : m.next? = some (.loadRegisters x))
    (hfits : m.processor.index.toNat + x.val + 1 ≤ 4096) (keys : Keys) :
    (∀ r ≤ x, (m.tick keys).state.reg r = m.memory.byte (m.processor.index.toNat + r.val)) ∧
      ∀ r, x < r → (m.tick keys).state.reg r = m.reg r := by
  have hx := execute_loadRegisters_of_fits (m := m.quieten) hfits keys
  rw [(tick_of_passRegisters hnext hx).1]
  refine ⟨fun r hr => ?_, fun r hr => m.quieten.reg_restored_of_lt hr⟩
  exact (m.quieten.reg_restored_of_le hr).trans (if_pos (lt_size_of_fits hfits hr))

theorem memory_tick_loadRegisters (hnext : m.next? = some (.loadRegisters x)) (keys : Keys) :
    (m.tick keys).state.memory = m.memory := by
  rw [memory_tick_eq, pending, hnext]
  rfl

/-! ## There and back -/

/-- A tick of `u` is completed and loads back into the registers up to `y` what they held in `m`,
and changes neither the other registers nor memory. -/
structure LoadsBack (m u : Machine) (keys : Keys) (y : Nibble) : Prop where
  completed : (u.tick keys).fault? = none
  loaded : ∀ r ≤ y, (u.tick keys).state.reg r = m.reg r
  others : ∀ r, y < r → (u.tick keys).state.reg r = u.reg r
  memory : (u.tick keys).state.memory = u.memory
  index : (u.tick keys).state.processor.index.toNat = m.processor.index.toNat + y.val + 1

/-- A tick of `u` is completed and saves back to the bytes up to that of the register `x` what they
held in `m`. -/
structure SavesBack (m u : Machine) (keys : Keys) (x : Nibble) : Prop where
  completed : (u.tick keys).fault? = none
  saved : ∀ a, m.processor.index.toNat ≤ a → a ≤ m.processor.index.toNat + x.val →
    (u.tick keys).state.memory.byte a = m.memory.byte a

/-- Registers come back from bytes that nothing has written to since they were saved, however few
of them are loaded. -/
theorem loadsBack_of_spares {y : Nibble} (hnext : m.next? = some (.saveRegisters x))
    (hfits : m.processor.index.toNat + x.val + 1 ≤ 4096)
    (hspares : (m.tick keys).state.Spares m.processor.index.toNat
      (m.processor.index.toNat + x.val) reports)
    (hload : ((m.tick keys).state.tickThrough reports).next? = some (.loadRegisters y))
    (hy : y ≤ x)
    (hindex : ((m.tick keys).state.tickThrough reports).processor.index = m.processor.index)
    (keys' : Keys) :
    m.LoadsBack ((m.tick keys).state.tickThrough reports) keys' y := by
  have hle : y.val ≤ x.val := hy
  have hsaved (r : Nibble) (hr : r ≤ x) :
      ((m.tick keys).state.tickThrough reports).memory.byte
        (m.processor.index.toNat + r.val) = m.reg r := by
    rw [hspares.byte_tickThrough (Nat.le_add_right _ _) (Nat.add_le_add_left hr _)]
    exact byte_tick_saveRegisters hnext hr (lt_size_of_fits hfits hr) keys
  generalize (m.tick keys).state.tickThrough reports = u at hload hindex hsaved ⊢
  have hfits' : u.processor.index.toNat + y.val + 1 ≤ 4096 := by
    rw [hindex]
    omega
  obtain ⟨hloaded, hothers⟩ := reg_tick_loadRegisters hload hfits' keys'
  exact {
    completed := (fault?_tick_registers_eq_none_iff (.inr hload)).2 hfits'
    loaded := fun r hr => by
      rw [hloaded r hr, hindex]
      exact hsaved r (Nat.le_trans hr hy)
    others := hothers
    memory := memory_tick_loadRegisters hload keys'
    index := by rw [index_tick_registers (.inr hload) hfits', hindex] }

/-- Memory comes back from registers that hold again what was loaded into them. -/
theorem savesBack_of_reg {u : Machine} (hnext : m.next? = some (.loadRegisters x))
    (hfits : m.processor.index.toNat + x.val + 1 ≤ 4096)
    (hreg : ∀ r ≤ x, u.reg r = (m.tick keys).state.reg r)
    (hsave : u.next? = some (.saveRegisters x))
    (hindex : u.processor.index = m.processor.index) (keys' : Keys) :
    m.SavesBack u keys' x := by
  have hfits' : u.processor.index.toNat + x.val + 1 ≤ 4096 := hindex ▸ hfits
  refine ⟨(fault?_tick_registers_eq_none_iff (.inl hsave)).2 hfits', fun a hfirst hlast => ?_⟩
  -- Every address of the stretch belongs to a register.
  obtain ⟨k, rfl⟩ := Nat.exists_eq_add_of_le hfirst
  have hk : k ≤ x.val := by omega
  let r : Nibble := ⟨k, by omega⟩
  calc (u.tick keys').state.memory.byte (m.processor.index.toNat + k)
    _ = (u.tick keys').state.memory.byte (u.processor.index.toNat + r.val) := by rw [hindex]
    _ = u.reg r := byte_tick_saveRegisters hsave hk (lt_size_of_fits hfits' hk) keys'
    _ = (m.tick keys).state.reg r := hreg r hk
    _ = m.memory.byte (m.processor.index.toNat + k) :=
      (reg_tick_loadRegisters hnext hfits keys).1 r hk

/-- Saving registers and loading them undo one another. Registers that were saved come back from
the same place, all or the first few of them, after any ticks that do not write there; and bytes
that were loaded come back when the registers are saved to the same place, after any ticks that
leave these registers with what was loaded. Either way the index register ends behind the last of
the bytes, which is not behind the end of memory. -/
theorem saved_registers_come_back (hok : (m.tick keys).fault? = none) :
    let t := (m.tick keys).state
    let start := m.processor.index.toNat
    (∀ x, m.next? = some (.saveRegisters x) →
      (∀ r ≤ x, t.memory.byte (start + r.val) = m.reg r) ∧
      t.processor.index.toNat = start + x.val + 1 ∧ start + x.val + 1 ≤ 4096 ∧
      ∀ reports, t.Spares start (start + x.val) reports →
        let u := t.tickThrough reports
        ∀ y ≤ x, u.next? = some (.loadRegisters y) → u.processor.index = m.processor.index →
          ∀ keys', m.LoadsBack u keys' y) ∧
    ∀ x, m.next? = some (.loadRegisters x) →
      ∀ reports,
        let u := t.tickThrough reports
        (∀ r ≤ x, u.reg r = t.reg r) → u.next? = some (.saveRegisters x) →
          u.processor.index = m.processor.index → ∀ keys', m.SavesBack u keys' x := by
  intro t start
  constructor
  · intro x hnext
    have hfits := (fault?_tick_registers_eq_none_iff (.inl hnext)).1 hok
    refine ⟨fun r hr => ?_, index_tick_registers (.inl hnext) hfits keys, hfits, ?_⟩
    · exact byte_tick_saveRegisters hnext hr (lt_size_of_fits hfits hr) keys
    · intro reports hspares u y hy hload hindex
      exact loadsBack_of_spares hnext hfits hspares hload hy hindex
  · intro x hnext reports u hreg hsave hindex
    have hfits := (fault?_tick_registers_eq_none_iff (.inr hnext)).1 hok
    exact savesBack_of_reg hnext hfits hreg hsave hindex

/-- Three registers are saved, two of them overwritten and the first two loaded; then their bytes
are overwritten with decimal digits and saved again. -/
theorem registers_there_and_back :
    let m := ((fresh (.tape [] 0)).perform (.load [0x60, 0x05, 0x61, 0x09, 0x62, 0x07, 0xA3, 0x00,
      0xF2, 0x55, 0x60, 0x00, 0x62, 0x00, 0xA3, 0x00, 0xF1, 0x65, 0xA3, 0x00, 0xF2, 0x33,
      0xF1, 0x55])).perform (.run .none 4)
    let u := (m.tick .none).state.tickThrough [.none, .none, .none]
    let v := (u.tick .none).state.tickThrough [.none, .none]
    m.Reachable ∧
      ((u.reg 0 = 0 ∧ u.reg 2 = 0) ∧ (u.tick .none).state.reg 0 = 5 ∧
        (u.tick .none).state.reg 2 = 0) ∧
      v.memory.byte 0x300 = 0 ∧ (v.tick .none).state.memory.byte 0x300 = 5 := by
  intro m u v
  have hm : m.Reachable := ((Reachable.fresh _).perform _).perform _
  have hfirst : m.processor.index.toNat = 0x300 ∧ m.reg 0 = 5 ∧
      (m.tick .none).fault? = none ∧ m.next? = some (.saveRegisters 2) := by decide +kernel
  have hquiet : ∀ w ∈ (m.tick .none).state.visits [.none, .none, .none], w.pending = [] := by
    decide +kernel
  have hsecond : u.processor.index = m.processor.index ∧ u.reg 0 = 0 ∧ u.reg 2 = 0 ∧
      u.memory.byte 0x300 = 5 ∧ (u.tick .none).fault? = none ∧
      u.next? = some (.loadRegisters 1) := by decide +kernel
  have hthird : v.processor.index = u.processor.index ∧ v.memory.byte 0x300 = 0 ∧
      (∀ r : Nibble, r ≤ 1 → v.reg r = (u.tick .none).state.reg r) ∧
      v.next? = some (.saveRegisters 1) := by decide +kernel
  clear_value m
  obtain ⟨hstart, hfive, hok, hsave⟩ := hfirst
  obtain ⟨hindex, hzero, htwo, hbyte, hok', hload⟩ := hsecond
  obtain ⟨hindex', hover, hreg, hsave'⟩ := hthird
  have hspares : (m.tick .none).state.Spares m.processor.index.toNat
      (m.processor.index.toNat + 2) [.none, .none, .none] := by
    intro w hw a _ _ hwrites
    obtain ⟨hlow, hhigh⟩ := (w.writes_iff a).1 hwrites
    rw [hquiet w hw] at hhigh
    exact Nat.lt_irrefl a (Nat.lt_of_lt_of_le hhigh hlow)
  obtain ⟨-, -, -, hthere⟩ := (saved_registers_come_back hok).1 2 hsave
  have hloads : m.LoadsBack u .none 1 := hthere _ hspares 1 (by decide) hload hindex .none
  have hsaves : u.SavesBack v .none 1 :=
    (saved_registers_come_back hok').2 1 hload _ hreg hsave' hindex' .none
  have hu : u.processor.index.toNat = 0x300 := by rw [hindex, hstart]
  have hback := hsaves.saved 0x300 (by omega) (by omega)
  exact ⟨hm, ⟨⟨hzero, htwo⟩, (hloads.loaded 0 (by decide)).trans hfive,
    (hloads.others 2 (by decide)).trans htwo⟩, hover, hback.trans hbyte⟩

end Machine

end ChipEight
