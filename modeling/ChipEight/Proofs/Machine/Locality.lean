import ChipEight.Proofs.Machine.Footprint
import ChipEight.Proofs.Machine.Ticks

/-!
# What a tick sees of memory

A tick looks at the two bytes at the program counter and at the bytes that its instruction reads
from the index register up, and at no others. So two machines that differ in memory only, and there
only where the tick does not look, go through the same tick: it ends in the same way, leaves the
same of everything but memory, and writes the same bytes to the same addresses.

## Main definitions

* `Instruction.ReadsByte`: the operands that an instruction has in memory.
* `Memory.AgreeOn`: memories with the same bytes at certain addresses.
* `Machine.withMemory`: the same machine with another memory.
* `Machine.Reads`, `Machine.Writes`: the addresses that the next tick looks at and writes to.
* `Machine.pending`: the bytes that the next tick writes.
-/

namespace ChipEight

/-- The instruction reads from an address, with `index` in the index register. -/
def Instruction.ReadsByte (index a : Nat) : Instruction → Prop
  | .draw _ _ n => index ≤ a ∧ a < index + n.val
  | .loadRegisters x => index ≤ a ∧ a ≤ index + x.val
  | _ => False

namespace Memory

/-- The second memory has the bytes of the first at certain addresses. -/
def AgreeOn (P : Nat → Prop) (first second : Memory) : Prop :=
  ∀ a < size, P a → second.byte a = first.byte a

variable {P Q : Nat → Prop} {first second : Memory}

theorem AgreeOn.mono (h : first.AgreeOn P second) (hQ : ∀ a, Q a → P a) : first.AgreeOn Q second :=
  fun a ha hq => h a ha (hQ a hq)

theorem word_congr {addr : Int}
    (h : first.AgreeOn (fun a => (a : Int) = addr ∨ (a : Int) = addr + 1) second) :
    second.word addr = first.word addr := by
  unfold word
  split
  · rename_i hc
    obtain ⟨hlow, hhigh⟩ := hc
    have hsize : (size : Int) = 4096 := rfl
    have hfirst := h addr.toNat (by omega) (.inl (by omega))
    have hsecond := h (addr.toNat + 1) (by omega) (.inr (by omega))
    rw [hfirst, hsecond]
  · rfl

/-- Whether bytes can be written depends on where they go, not on what is there. -/
theorem answer_writeAll_congr (first second : Memory) (addr : Nat) (bs : List UInt8) :
    (second.writeAll addr bs).answer = (first.writeAll addr bs).answer := by
  apply Outcome.answer_congr
  rw [fault?_writeAll, fault?_writeAll]

/-- Bytes written over two memories are in both of them, and what is outside stays in both. -/
theorem byte_writeAll_congr (first second : Memory) (addr : Nat) (bs : List UInt8) (a : Nat) :
    ((first.writeAll addr bs).state.byte a = first.byte a ∧
        (second.writeAll addr bs).state.byte a = second.byte a) ∨
      ((addr ≤ a ∧ a < addr + bs.length) ∧
        (second.writeAll addr bs).state.byte a = (first.writeAll addr bs).state.byte a) := by
  by_cases hin : addr ≤ a ∧ a < addr + bs.length
  · by_cases ha : a < size
    · obtain ⟨b, hb⟩ : ∃ b, bs[a - addr]? = some b :=
        ⟨_, List.getElem?_eq_getElem (by omega)⟩
      refine .inr ⟨hin, ?_⟩
      rw [byte_writeAll, byte_writeAll, if_pos ⟨hin.1, ha⟩, if_pos ⟨hin.1, ha⟩, hb]
      rfl
    · have hz := fun m : Memory => m.byte_of_size_le (Nat.le_of_not_lt ha)
      exact .inl ⟨by rw [hz, hz], by rw [hz, hz]⟩
  · exact .inl ⟨byte_writeAll_of_outside _ hin, byte_writeAll_of_outside _ hin⟩

end Memory

/-- A sprite looks at the bytes of its rows. -/
theorem Screen.drawRows_congr {first second : Memory} (s : Screen) (x y : Int) {addr : Nat}
    (hit : Bool) {n : Nat} (h : first.AgreeOn (fun a => addr ≤ a ∧ a < addr + n) second) :
    s.drawRows second x y addr hit n = s.drawRows first x y addr hit n := by
  induction n generalizing s y addr hit with
  | zero => rfl
  | succ n ih =>
    by_cases ha : addr < Memory.size
    · have hbyte : second.byte addr = first.byte addr := h addr ha ⟨by omega, by omega⟩
      have hrest : first.AgreeOn (fun a => addr + 1 ≤ a ∧ a < addr + 1 + n) second :=
        h.mono fun a ⟨hl, hr⟩ => ⟨by omega, by omega⟩
      rw [drawRows_succ s x y hit n ha, drawRows_succ s x y hit n ha, hbyte]
      rcases s.drawRow (first.byte addr) x y with ⟨t, e | hit'⟩
      · rfl
      · exact ih t (y + 1) (hit || hit') hrest
    · have ha := Nat.le_of_not_lt ha
      rw [drawRows_succ_of_size_le x y hit n ha, drawRows_succ_of_size_le x y hit n ha]

namespace Machine

/-- Reading registers looks at a byte for each of them. -/
theorem readRegisters_congr {first second : Memory} (p : Processor) {addr : Nat}
    {xs : List Nibble} (h : first.AgreeOn (fun a => addr ≤ a ∧ a < addr + xs.length) second) :
    readRegisters second p addr xs = readRegisters first p addr xs := by
  induction xs generalizing p addr with
  | nil => rfl
  | cons x xs ih =>
    rw [List.length_cons] at h
    by_cases ha : addr < Memory.size
    · have hbyte : second.byte addr = first.byte addr := h addr ha ⟨by omega, by omega⟩
      have hrest : first.AgreeOn (fun a => addr + 1 ≤ a ∧ a < addr + 1 + xs.length) second :=
        h.mono fun a ⟨hl, hr⟩ => ⟨by omega, by omega⟩
      rw [readRegisters_cons_of_lt p x xs ha, readRegisters_cons_of_lt p x xs ha, hbyte, ih _ hrest]
    · have ha := Nat.le_of_not_lt ha
      rw [readRegisters_cons_of_size_le p x xs ha, readRegisters_cons_of_size_le p x xs ha]

/-- The machine with another memory. -/
def withMemory (m : Machine) (memory : Memory) : Machine := { m with memory }

variable {m t : Machine} {keys : Keys} {i : Instruction} {memory : Memory}

@[simp] theorem processor_withMemory : (m.withMemory memory).processor = m.processor := rfl

@[simp] theorem memory_withMemory : (m.withMemory memory).memory = memory := rfl

@[simp] theorem reg_withMemory : (m.withMemory memory).reg = m.reg := rfl

theorem skipIf_withMemory (m : Machine) (c : Bool) :
    (m.withMemory memory).skipIf c = (m.skipIf c).withMemory memory := by
  cases c <;> rfl

theorem calculate_withMemory (m : Machine) (op : Arithmetic) (x y : Nibble) :
    (m.withMemory memory).calculate op x y = (m.calculate op x y).withMemory memory := by
  simp only [calculate, reg_withMemory]
  cases op.flag? (m.reg x) (m.reg y) <;> rfl

/-- A store writes the same bytes to any memory, and stops at the same address. -/
theorem store_withMemory (m : Machine) (bytes : List UInt8) {after : Machine → Machine}
    (h : ∀ t memory, after (withMemory t memory) = (after t).withMemory memory) :
    (m.withMemory memory).store bytes after =
      (m.store bytes after).inside
        (·.withMemory (memory.writeAll m.processor.index.toNat bytes).state) := by
  have hs : (m.withMemory memory).stored bytes =
      (m.stored bytes).withMemory (memory.writeAll m.processor.index.toNat bytes).state := rfl
  have ha := m.memory.answer_writeAll_congr memory m.processor.index.toNat bytes
  simp only [store_eq, hs, h, processor_withMemory, memory_withMemory, ha]
  cases (m.memory.writeAll m.processor.index.toNat bytes).answer <;> rfl

theorem restore_withMemory (m : Machine) {xs : List Nibble} {after : Machine → Machine}
    (hagree : m.memory.AgreeOn (fun a => m.processor.index.toNat ≤ a ∧
      a < m.processor.index.toNat + xs.length) memory)
    (h : ∀ t, after (withMemory t memory) = (after t).withMemory memory) :
    (m.withMemory memory).restore xs after =
      (m.restore xs after).inside (·.withMemory memory) := by
  have hread := readRegisters_congr m.processor hagree
  have hs : (m.withMemory memory).restored xs = (m.restored xs).withMemory memory := by
    simp only [restored, processor_withMemory, memory_withMemory, hread]
    rfl
  simp only [restore_eq, hs, h, processor_withMemory, memory_withMemory, hread]
  cases (readRegisters m.memory m.processor m.processor.index.toNat xs).answer <;> rfl

theorem drawSprite_withMemory (m : Machine) (x y : Nibble) {n : Nibble}
    (hagree : m.memory.AgreeOn (fun a => m.processor.index.toNat ≤ a ∧
      a < m.processor.index.toNat + n.val) memory) :
    (m.withMemory memory).drawSprite x y n =
      (m.drawSprite x y n).inside (·.withMemory memory) := by
  have hs : (m.withMemory memory).sprite x y n.val = m.sprite x y n.val :=
    m.screen.drawRows_congr _ _ _ hagree
  have hd : (m.withMemory memory).drawn x y n = (m.drawn x y n).withMemory memory := by
    simp only [drawn, hs]
    rfl
  simp only [drawSprite_eq, hs, hd]
  cases (m.sprite x y n.val).answer <;> rfl

/-- Two machines whose memories agree where an instruction reads execute it in the same way. -/
theorem execute_withMemory (keys : Keys)
    (h : m.memory.AgreeOn (i.ReadsByte m.processor.index.toNat) memory) :
    ∃ memory', (m.withMemory memory).execute keys i =
      (m.execute keys i).inside (·.withMemory memory') := by
  cases i with
  | storeDecimal x =>
    rw [execute_storeDecimal, execute_storeDecimal, reg_withMemory]
    exact ⟨_, store_withMemory m _ fun t memory => rfl⟩
  | saveRegisters x =>
    rw [execute_saveRegisters, execute_saveRegisters, reg_withMemory]
    exact ⟨_, store_withMemory m _ fun t memory => rfl⟩
  | loadRegisters x =>
    rw [execute_loadRegisters, execute_loadRegisters]
    refine ⟨memory, restore_withMemory m (h.mono fun a ha => ?_) fun t => rfl⟩
    rw [length_registersUpTo] at ha
    exact ⟨ha.1, by omega⟩
  | draw x y n => exact ⟨memory, drawSprite_withMemory m x y h⟩
  | skipEqualByte | skipUnequalByte | skipEqual | skipUnequal | skipPressed | skipReleased =>
    exact ⟨memory, congrArg (Outcome.done · ()) (skipIf_withMemory m _)⟩
  | arithmetic op x y =>
    exact ⟨memory, congrArg (Outcome.done · ()) (calculate_withMemory m.advance op x y)⟩
  | waitKey x =>
    refine ⟨memory, ?_⟩
    rw [execute_waitKey, execute_waitKey]
    cases keys.greatest? <;> rfl
  | ret =>
    refine ⟨memory, ?_⟩
    rw [execute_ret, execute_ret, processor_withMemory]
    rfl
  | call target =>
    refine ⟨memory, ?_⟩
    rw [execute_call, execute_call, processor_withMemory]
    rfl
  | _ => exact ⟨memory, rfl⟩

/-! ## Ticks -/

/-- The next tick looks at an address: at the word at the program counter, or at an operand of the
instruction there. -/
def Reads (m : Machine) (a : Nat) : Prop :=
  ((a : Int) = m.processor.pc ∨ (a : Int) = m.processor.pc + 1) ∨
    ∃ i ∈ m.next?, i.ReadsByte m.processor.index.toNat a

/-- The next tick writes to an address. -/
def Writes (m : Machine) (a : Nat) : Prop :=
  ∃ i ∈ m.next?, i.WritesByte m.processor.index.toNat a

theorem fetch_withMemory (h : m.memory.AgreeOn m.Reads memory) :
    (m.withMemory memory).fetch = m.fetch := by
  have hw : memory.word m.processor.pc = m.memory.word m.processor.pc :=
    Memory.word_congr (h.mono fun a ha => .inl ha)
  simp only [fetch, Memory.fetch, memory_withMemory, processor_withMemory, reg_withMemory, hw]

/-- Two machines whose memories agree where the next tick looks go through the same tick. -/
theorem tick_withMemory (keys : Keys) (h : m.memory.AgreeOn m.Reads memory) :
    ∃ memory', (m.withMemory memory).tick keys =
      (m.tick keys).inside (·.withMemory memory') := by
  have hfetch := fetch_withMemory h
  obtain ⟨e, hf, ht⟩ | ⟨f, t, e, hf, hx, ht⟩ | ⟨f, t, hf, hx, ht⟩ := m.tick_cases keys
  · rw [ht, tick_of_fetch_error (hfetch.trans hf)]
    exact ⟨memory, rfl⟩
  all_goals
    have hagree : m.quieten.memory.AgreeOn
        (f.instruction.ReadsByte m.quieten.processor.index.toNat) memory :=
      h.mono fun a ha => .inr ⟨_, next?_of_fetch hf, ha⟩
    obtain ⟨memory', hx'⟩ := execute_withMemory keys hagree
    rw [hx] at hx'
  · rw [ht, tick_of_stopped (hfetch.trans hf) hx']
    exact ⟨memory', rfl⟩
  · rw [ht, tick_of_done (hfetch.trans hf) hx']
    exact ⟨memory', rfl⟩

/-- What the next tick puts into memory, from the index register up. -/
def pending (m : Machine) : List UInt8 := m.next?.elim [] m.bytesWritten

theorem memory_tick_eq (m : Machine) (keys : Keys) :
    (m.tick keys).state.memory =
      (m.memory.writeAll m.processor.index.toNat m.pending).state := by
  rw [part_tick memory (fun m => rfl) (fun m => rfl), pending]
  cases m.next? with
  | none => rfl
  | some i => exact memory_execute_eq m.quieten keys i

theorem writes_iff (m : Machine) (a : Nat) :
    m.Writes a ↔
      m.processor.index.toNat ≤ a ∧ a < m.processor.index.toNat + m.pending.length := by
  unfold Writes pending
  cases m.next? with
  | none => simp
  | some i => simpa using writesByte_iff m i a

/-- What is written is told by the registers, so it is the same with another memory. -/
theorem pending_withMemory (h : m.memory.AgreeOn m.Reads memory) :
    (m.withMemory memory).pending = m.pending := by
  have hnext : (m.withMemory memory).next? = m.next? := by
    unfold next?
    rw [fetch_withMemory h]
  have hbytes : (m.withMemory memory).bytesWritten = m.bytesWritten := rfl
  rw [pending, pending, hnext, hbytes]

/-- A tick depends on the bytes that it looks at alone. With the same bytes there and any others
elsewhere it ends in the same way and leaves the same of everything but memory; and every address
either keeps its own byte in both memories or is written to and holds the same byte in both. -/
theorem tick_of_agreeing_memories (h : m.memory.AgreeOn m.Reads memory) (keys : Keys) :
    let o := m.tick keys
    let o' := ({ m with memory } : Machine).tick keys
    o'.answer = o.answer ∧ o'.state = { o.state with memory := o'.state.memory } ∧
      ∀ a,
        (o.state.memory.byte a = m.memory.byte a ∧ o'.state.memory.byte a = memory.byte a) ∨
          (m.Writes a ∧ o'.state.memory.byte a = o.state.memory.byte a) := by
  intro o o'
  obtain ⟨memory', ht⟩ := tick_withMemory keys h
  have ho : o' = o.inside (·.withMemory memory') := ht
  refine ⟨by rw [ho]; rfl, by rw [ho]; rfl, fun a => ?_⟩
  have hm : o.state.memory = _ := memory_tick_eq m keys
  have hm' : o'.state.memory = _ := memory_tick_eq (m.withMemory memory) keys
  rw [pending_withMemory h] at hm'
  rw [writes_iff, hm, hm']
  exact Memory.byte_writeAll_congr m.memory memory _ m.pending a

/-- Two registers are stored over bytes that differ, while a byte far away goes on to differ. -/
theorem save_over_other_bytes :
    let m := { fresh (.tape [] 0) with memory := Memory.fresh.overlay [0xF1, 0x55] }
    let memory := (m.memory.set 0 7).set 0x300 7
    m.memory.AgreeOn m.Reads memory ∧
      let o := m.tick .none
      let o' := ({ m with memory } : Machine).tick .none
      (o'.answer = o.answer ∧ o'.state = { o.state with memory := o'.state.memory }) ∧
        (m.memory.byte 0 = 0xF0 ∧ o.state.memory.byte 0 = 0 ∧ o'.state.memory.byte 0 = 0) ∧
        o.state.memory.byte 0x300 = 0 ∧ o'.state.memory.byte 0x300 = 7 := by
  intro m memory
  have hnext : m.next? = some (.saveRegisters 1) := by decide +kernel
  have hagree : m.memory.AgreeOn m.Reads memory := by
    intro a ha hreads
    have hpc : m.processor.pc = 0x200 := rfl
    have hne : a ≠ 0 ∧ a ≠ 0x300 := by
      obtain hw | ⟨i, hi, hr⟩ := hreads
      · omega
      · obtain rfl : i = .saveRegisters 1 := Option.some.inj (hi.symm.trans hnext)
        cases hr
    simp only [memory, Memory.byte_set, hne.1.symm, hne.2.symm, false_and, if_false]
  obtain ⟨ha, hs, -⟩ := tick_of_agreeing_memories hagree .none
  exact ⟨hagree, ⟨ha, hs⟩, by decide +kernel, by decide +kernel⟩

end Machine

end ChipEight
