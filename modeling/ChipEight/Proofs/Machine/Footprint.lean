import ChipEight.Proofs.Machine.Frame

/-!
# What a tick can change

Every instruction has a footprint: the addresses, registers and other parts of a machine that it
can change. A tick changes nothing outside the footprint of its instruction, be it completed or cut
short, and what is counted and signalled of it is exact.

## Main definitions

* `Instruction.WritesByte`, `Instruction.WritesRegister`, `Instruction.WritesIndex` and the like:
  the footprint of an instruction, part by part.
* `Machine.KeepsFootprint`: a machine after an instruction, compared with the one before it.
-/

namespace ChipEight

/-! ## Footprints -/

/-- Whether the operation has a flag besides its result. -/
def Arithmetic.setsFlag : Arithmetic → Bool
  | .add | .sub | .subFrom | .shiftRight | .shiftLeft => true
  | _ => false

namespace Instruction

/-- The instruction writes to an address, with `index` in the index register. -/
def WritesByte (index a : Nat) : Instruction → Prop
  | .storeDecimal _ => index ≤ a ∧ a ≤ index + 2
  | .saveRegisters x => index ≤ a ∧ a ≤ index + x.val
  | _ => False

/-- The instruction writes to a register. Waiting for a key writes to none until one is pressed. -/
def WritesRegister (keys : Keys) (r : Nibble) : Instruction → Prop
  | .setByte x _ | .addByte x _ | .random x _ | .getDelay x => r = x
  | .arithmetic op x _ => r = x ∨ r = Processor.flag ∧ op.setsFlag = true
  | .waitKey x => r = x ∧ ∃ k : Key, keys.held k.val = true
  | .addIndex _ | .draw _ _ _ => r = Processor.flag
  | .loadRegisters x => r ≤ x
  | _ => False

/-- The instruction writes to the index register. Those that pass over registers in memory do so at
their end only. -/
def WritesIndex (completed : Prop) : Instruction → Prop
  | .setIndex _ | .addIndex _ | .indexGlyph _ => True
  | .saveRegisters _ | .loadRegisters _ => completed
  | _ => False

/-- Whether the instruction moves the top of the call stack. -/
def movesTop : Instruction → Bool
  | .call _ | .ret => true
  | _ => false

/-- Whether the instruction writes to the call stack. -/
def isCall : Instruction → Bool
  | .call _ => true
  | _ => false

/-- Whether the instruction reaches the screen. -/
def drawsScreen : Instruction → Bool
  | .clearScreen | .draw _ _ _ => true
  | _ => false

/-- Whether the instruction stands for a word that encodes nothing. -/
def isInvalid : Instruction → Bool
  | .invalid _ => true
  | _ => false

end Instruction

namespace CallStack

theorem entries_of_push? {s t : CallStack} {addr : Int} (h : s.push? addr = some t)
    {k : Fin callDepth} (hk : k.val ≠ s.depth) : t.entries[k] = s.entries[k] := by
  rw [push?] at h
  split at h <;> cases h
  simp [hk.symm]

theorem entries_of_pop? {s t : CallStack} {addr : Int} (h : s.pop? = some (addr, t)) :
    t.entries = s.entries := by
  obtain ⟨entries, depth, hd⟩ := s
  cases depth with
  | zero => cases h
  | succ n =>
    cases h
    rfl

end CallStack

namespace Machine

/-- Behind an instruction nothing has changed but in its footprint. Words that encode nothing are
counted, and a redraw is signalled by a completed instruction that reaches the screen, and only by
such a one. -/
structure KeepsFootprint (m t : Machine) (keys : Keys) (completed : Prop) (i : Instruction) :
    Prop where
  memory : ∀ a, ¬i.WritesByte m.processor.index.toNat a → t.memory.byte a = m.memory.byte a
  screen : i.drawsScreen = false → t.screen = m.screen
  depth : i.movesTop = false → t.processor.calls.depth = m.processor.calls.depth
  entries : ∀ k : Fin callDepth, ¬(i.isCall = true ∧ k.val = m.processor.calls.depth) →
    t.processor.calls.entries[k] = m.processor.calls.entries[k]
  index : ¬i.WritesIndex completed → t.processor.index = m.processor.index
  registers : ∀ r, ¬i.WritesRegister keys r → t.reg r = m.reg r
  unknown : t.unknown = m.unknown + if i.isInvalid then 1 else 0
  redraw : t.signals.redraw = true ↔ completed ∧ i.drawsScreen = true

variable {m t : Machine} {keys : Keys} {i : Instruction}

/-! ## Memory -/

/-- The bytes that an instruction writes from the index register up, as far as memory reaches. -/
def bytesWritten (m : Machine) : Instruction → List UInt8
  | .storeDecimal x => decimalDigits (m.reg x)
  | .saveRegisters x => (registersUpTo x).map m.reg
  | _ => []

theorem memory_store (m : Machine) (bytes : List UInt8) {after : Machine → Machine}
    (h : ∀ t, (after t).memory = t.memory) :
    (m.store bytes after).state.memory =
      (m.memory.writeAll m.processor.index.toNat bytes).state := by
  obtain hs | hs := m.state_store bytes after <;> simp [hs, h]

/-- All that an instruction does to memory is to write its bytes. -/
theorem memory_execute_eq (m : Machine) (keys : Keys) (i : Instruction) :
    (m.execute keys i).state.memory =
      (m.memory.writeAll m.processor.index.toNat (m.bytesWritten i)).state := by
  cases h : i.writesMemory with
  | false =>
    rw [memory_execute h]
    cases i with
    | storeDecimal | saveRegisters => cases h
    | _ => rfl
  | true =>
    cases i with
    | storeDecimal x =>
      rw [execute_storeDecimal]
      exact memory_store m _ fun t => rfl
    | saveRegisters x =>
      rw [execute_saveRegisters]
      exact memory_store m _ fun t => rfl
    | _ => cases h

theorem writesByte_iff (m : Machine) (i : Instruction) (a : Nat) :
    i.WritesByte m.processor.index.toNat a ↔
      m.processor.index.toNat ≤ a ∧
        a < m.processor.index.toNat + (m.bytesWritten i).length := by
  cases i with
  | storeDecimal x =>
    simp [Instruction.WritesByte, bytesWritten, decimalDigits]
    omega
  | saveRegisters x =>
    simp [Instruction.WritesByte, bytesWritten, length_registersUpTo]
    omega
  | _ => simp [Instruction.WritesByte, bytesWritten]

theorem byte_execute {a : Nat} (h : ¬i.WritesByte m.processor.index.toNat a) :
    (m.execute keys i).state.memory.byte a = m.memory.byte a := by
  rw [writesByte_iff] at h
  rw [memory_execute_eq]
  exact Memory.byte_writeAll_of_outside _ h

/-! ## The call stack -/

/-- Calls and returns change nothing but the program counter and the call stack. -/
theorem exists_state_of_movesTop (m : Machine) (keys : Keys) (h : i.movesTop = true) :
    ∃ pc calls, (m.execute keys i).state =
      { m with processor := { m.processor with pc, calls } } := by
  cases i with
  | ret =>
    rcases hp : m.processor.calls.pop? with _ | ⟨addr, calls⟩
    · exact ⟨_, _, congrArg Outcome.state (execute_ret_of_pop?_none hp)⟩
    · exact ⟨_, _, congrArg Outcome.state (execute_ret_of_pop? hp)⟩
  | call target =>
    rcases hp : m.processor.calls.push? m.processor.pc with _ | calls
    · exact ⟨_, _, congrArg Outcome.state (execute_call_of_push?_none hp)⟩
    · exact ⟨_, _, congrArg Outcome.state (execute_call_of_push? hp)⟩
  | _ => cases h

theorem depth_execute (h : i.movesTop = false) :
    (m.execute keys i).state.processor.calls.depth = m.processor.calls.depth := by
  cases ht : i.transfersControl with
  | false => rw [(stepsOn_execute ht).calls]
  | true =>
    cases i with
    | ret | call => cases h
    | jump | jumpOffset => rfl
    | _ => cases ht

theorem entries_execute {k : Fin callDepth}
    (h : ¬(i.isCall = true ∧ k.val = m.processor.calls.depth)) :
    (m.execute keys i).state.processor.calls.entries[k] = m.processor.calls.entries[k] := by
  cases ht : i.transfersControl with
  | false => rw [(stepsOn_execute ht).calls]
  | true =>
    cases i with
    | ret =>
      rcases hp : m.processor.calls.pop? with _ | ⟨addr, calls⟩
      · rw [execute_ret_of_pop?_none hp]
        rfl
      · rw [execute_ret_of_pop? hp]
        simp [CallStack.entries_of_pop? hp]
    | call target =>
      have hk : k.val ≠ m.processor.calls.depth := fun hk => h ⟨rfl, hk⟩
      rcases hp : m.processor.calls.push? m.processor.pc with _ | calls
      · rw [execute_call_of_push?_none hp]
        rfl
      · rw [execute_call_of_push? hp]
        exact CallStack.entries_of_push? hp hk
    | jump | jumpOffset => rfl
    | _ => cases ht

/-! ## Registers -/

theorem reg_setReg (m : Machine) (x r : Nibble) (b : UInt8) :
    (m.setReg x b).reg r = if x = r then b else m.reg r :=
  Processor.reg_setReg _ _ _ _

theorem reg_setReg_self (m : Machine) (x : Nibble) (b : UInt8) : (m.setReg x b).reg x = b := by
  rw [reg_setReg, if_pos rfl]

theorem reg_setReg_of_ne (m : Machine) {x r : Nibble} (b : UInt8) (h : r ≠ x) :
    (m.setReg x b).reg r = m.reg r := by
  rw [reg_setReg, if_neg h.symm]

theorem reg_skipIf (m : Machine) (c : Bool) (r : Nibble) : (m.skipIf c).reg r = m.reg r := by
  rw [skipIf_eq]
  rfl

theorem setsFlag_of_flag? {op : Arithmetic} {a b : UInt8} {c : Bool}
    (h : op.flag? a b = some c) : op.setsFlag = true := by
  cases op <;> simp_all [Arithmetic.setsFlag, Arithmetic.flag?]

theorem reg_calculate {op : Arithmetic} {x r : Nibble} (m : Machine) (y : Nibble) (hx : r ≠ x)
    (hf : ¬(r = Processor.flag ∧ op.setsFlag = true)) :
    (m.calculate op x y).reg r = m.reg r := by
  unfold calculate
  dsimp only
  rw [reg_setReg_of_ne _ _ hx]
  split
  · rename_i c hc
    exact reg_setReg_of_ne _ _ fun hr => hf ⟨hr, setsFlag_of_flag? hc⟩
  · rfl

theorem reg_store (m : Machine) (bytes : List UInt8) {after : Machine → Machine} {r : Nibble}
    (h : ∀ t, (after t).reg r = t.reg r) : (m.store bytes after).state.reg r = m.reg r := by
  obtain hs | hs := m.state_store bytes after <;> rw [hs]
  · rw [h]
    rfl
  · rfl

theorem reg_restore {x r : Nibble} (m : Machine) {after : Machine → Machine} (hr : x < r)
    (h : ∀ t, (after t).reg r = t.reg r) :
    (m.restore (registersUpTo x) after).state.reg r = m.reg r := by
  obtain hs | hs := m.state_restore (registersUpTo x) after <;>
    simp [hs, h, reg_restored_of_lt m hr]

theorem held_of_greatest? {k : Key} (h : keys.greatest? = some k) : keys.held k.val = true := by
  rw [Keys.greatest?, List.findRev?_eq_find?_reverse] at h
  exact List.find?_some (p := fun k : Key => keys.held k.val) h

theorem reg_execute {r : Nibble} (h : ¬i.WritesRegister keys r) :
    (m.execute keys i).state.reg r = m.reg r := by
  cases i with
  | setByte x nn | addByte x nn | random x nn => exact reg_setReg_of_ne _ _ h
  | getDelay x => exact reg_setReg_of_ne _ _ h
  | arithmetic op x y =>
    obtain ⟨hx, hf⟩ := not_or.1 h
    exact reg_calculate m.advance y hx hf
  | skipEqualByte | skipUnequalByte | skipEqual | skipUnequal | skipPressed | skipReleased =>
    exact reg_skipIf m _ r
  | waitKey x =>
    rw [execute_waitKey]
    cases hk : keys.greatest? with
    | none => rfl
    | some k =>
      exact reg_setReg_of_ne _ _ fun hr => h ⟨hr, k, held_of_greatest? hk⟩
  | addIndex x => exact reg_setReg_of_ne _ _ h
  | draw x y n =>
    rw [execute_draw]
    obtain ⟨hit, hs⟩ | hs := m.state_drawSprite x y n <;> rw [hs]
    · exact reg_setReg_of_ne _ _ h
    · rfl
  | storeDecimal x =>
    rw [execute_storeDecimal]
    exact reg_store m _ fun t => rfl
  | saveRegisters x =>
    rw [execute_saveRegisters]
    exact reg_store m _ fun t => rfl
  | loadRegisters x =>
    rw [execute_loadRegisters]
    exact reg_restore m (Nat.lt_of_not_le h) fun t => rfl
  | ret =>
    obtain ⟨pc, calls, hs⟩ := exists_state_of_movesTop m keys (i := .ret) rfl
    rw [hs]
    rfl
  | call target =>
    obtain ⟨pc, calls, hs⟩ := exists_state_of_movesTop m keys (i := .call target) rfl
    rw [hs]
    rfl
  | _ => rfl

/-! ## The index register -/

theorem index_execute (h : ¬i.WritesIndex ((m.execute keys i).fault? = none)) :
    (m.execute keys i).state.processor.index = m.processor.index := by
  cases i with
  | setIndex | addIndex | indexGlyph => exact absurd trivial h
  | skipEqualByte | skipUnequalByte | skipEqual | skipUnequal | skipPressed | skipReleased =>
    exact congrArg (·.processor.index) (skipIf_eq m _)
  | arithmetic op x y => exact congrArg (·.processor.index) (calculate_eq m.advance op x y)
  | waitKey x =>
    rw [execute_waitKey]
    cases keys.greatest? <;> rfl
  | draw x y n =>
    rw [execute_draw]
    obtain ⟨hit, hs⟩ | hs := m.state_drawSprite x y n <;> rw [hs] <;> rfl
  | storeDecimal x =>
    rw [execute_storeDecimal]
    obtain hs | hs := m.state_store (decimalDigits (m.reg x)) advance <;> rw [hs] <;> rfl
  | saveRegisters | loadRegisters =>
    -- The index register moves at the end, which was not reached.
    obtain ⟨e, he⟩ := Option.ne_none_iff_exists'.1 h
    have hx := Outcome.eq_stopped_of_fault? he
    rw [eq_residue_of_stopped hx, index_residue]
  | ret =>
    obtain ⟨pc, calls, hs⟩ := exists_state_of_movesTop m keys (i := .ret) rfl
    rw [hs]
  | call target =>
    obtain ⟨pc, calls, hs⟩ := exists_state_of_movesTop m keys (i := .call target) rfl
    rw [hs]
  | _ => rfl

/-! ## Screen and counts -/

theorem screen_execute (h : i.drawsScreen = false) :
    (m.execute keys i).state.screen = m.screen := by
  cases hi : i.touchesDevices with
  | false => exact (sameDevices_execute hi).screen
  | true =>
    cases i with
    | clearScreen | draw => cases h
    | invalid | random | setDelay | setSound => rfl
    | _ => cases hi

theorem unknown_execute (m : Machine) (keys : Keys) (i : Instruction) :
    (m.execute keys i).state.unknown = m.unknown + if i.isInvalid then 1 else 0 := by
  cases hi : i.touchesDevices with
  | false =>
    rw [(sameDevices_execute hi).unknown]
    cases i with
    | invalid => cases hi
    | _ => rfl
  | true =>
    cases i with
    | draw x y n =>
      rw [execute_draw]
      obtain ⟨hit, hs⟩ | hs := m.state_drawSprite x y n <;> rw [hs] <;> rfl
    | invalid | clearScreen | random | setDelay | setSound => rfl
    | _ => cases hi

theorem redraw_execute (h : m.signals.redraw = false) (keys : Keys) (i : Instruction) :
    (m.execute keys i).state.signals.redraw = true ↔
      (m.execute keys i).fault? = none ∧ i.drawsScreen = true := by
  cases hi : i.touchesDevices with
  | false =>
    have hd : i.drawsScreen = false := by
      cases i with
      | clearScreen | draw => cases hi
      | _ => rfl
    simp [(sameDevices_execute hi).signals, h, hd]
  | true =>
    cases i with
    | clearScreen => exact ⟨fun _ => ⟨rfl, rfl⟩, fun _ => rfl⟩
    | draw x y n =>
      rw [execute_draw, drawSprite_eq]
      split
      · simp [Instruction.drawsScreen]
      · simp [drawn, advance, h]
    | invalid | random | setDelay | setSound =>
      exact ⟨fun hr => absurd (h.symm.trans hr) Bool.false_ne_true,
        fun hd => absurd hd.2 Bool.false_ne_true⟩
    | _ => cases hi

/-! ## Ticks -/

theorem keepsFootprint_execute (h : m.signals.redraw = false) (keys : Keys) (i : Instruction) :
    let o := m.execute keys i
    m.KeepsFootprint o.state keys (o.fault? = none) i where
  memory _ := byte_execute
  screen := screen_execute
  depth := depth_execute
  entries _ := entries_execute
  index := index_execute
  registers _ := reg_execute
  unknown := unknown_execute m keys i
  redraw := redraw_execute h keys i

theorem KeepsFootprint.of_quieten {completed : Prop}
    (h : m.quieten.KeepsFootprint t keys completed i) : m.KeepsFootprint t keys completed i :=
  ⟨h.memory, h.screen, h.depth, h.entries, h.index, h.registers, h.unknown, h.redraw⟩

theorem KeepsFootprint.countDown {completed : Prop} (h : m.KeepsFootprint t keys completed i) :
    m.KeepsFootprint t.countDown keys completed i :=
  ⟨h.memory, h.screen, h.depth, h.entries, h.index, h.registers, h.unknown, h.redraw⟩

/-- A tick changes nothing outside the footprint of its instruction, and one that fetches none
changes nothing but that no redraw is signalled. A redraw is signalled exactly if an instruction
that reaches the screen was completed. -/
theorem tick_keeps_footprint (m : Machine) (keys : Keys) :
    let o := m.tick keys
    match m.fetch with
    | .error _ => o.state = m.quieten
    | .ok f => m.KeepsFootprint o.state keys (o.fault? = none) f.instruction := by
  intro o
  obtain ⟨e, hf, ht⟩ | ⟨f, t, e, hf, hx, ht⟩ | ⟨f, t, hf, hx, ht⟩ := m.tick_cases keys
  · rw [hf]
    exact congrArg Outcome.state ht
  · have hk := keepsFootprint_execute (m := m.quieten) rfl keys f.instruction
    rw [hx] at hk
    simp only [hf, o, ht]
    exact hk.of_quieten
  · have hk := keepsFootprint_execute (m := m.quieten) rfl keys f.instruction
    rw [hx] at hk
    simp only [hf, o, ht]
    exact hk.of_quieten.countDown

end Machine

end ChipEight
