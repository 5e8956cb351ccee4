import ChipEight.Proofs.Machine.Execution

/-!
# What instructions leave alone

For each part of a machine, how far an instruction can change it at all, be it completed or cut
short: where the program counter goes, what becomes of the call stack, and what is kept of the
screen.
-/

namespace ChipEight

/-- Whether the instruction can reach a device or one of the counts of a machine. -/
def Instruction.touchesDevices : Instruction → Bool
  | .invalid _ | .clearScreen | .random _ _ | .draw _ _ _ | .setDelay _ | .setSound _ => true
  | _ => false

/-- Whether the instruction can write to memory. -/
def Instruction.writesMemory : Instruction → Bool
  | .storeDecimal _ | .saveRegisters _ => true
  | _ => false

/-- Whether the instruction takes a random byte. -/
def Instruction.takesByte : Instruction → Bool
  | .random _ _ => true
  | _ => false

/-- Whether the instruction can go on anywhere but at one of the next two. -/
def Instruction.transfersControl : Instruction → Bool
  | .ret | .jump _ | .call _ | .jumpOffset _ => true
  | _ => false

namespace Machine

variable {m t : Machine} {keys : Keys} {i : Instruction} {e : Fault}

/-! ## States after the instructions that can be cut short -/

theorem state_store (m : Machine) (bytes : List UInt8) (after : Machine → Machine) :
    (m.store bytes after).state = after (m.stored bytes) ∨
      (m.store bytes after).state = m.stored bytes := by
  rw [store_eq]
  split
  · exact .inl rfl
  · exact .inr rfl

theorem state_restore (m : Machine) (xs : List Nibble) (after : Machine → Machine) :
    (m.restore xs after).state = after (m.restored xs) ∨
      (m.restore xs after).state = m.restored xs := by
  rw [restore_eq]
  split
  · exact .inl rfl
  · exact .inr rfl

theorem state_drawSprite (m : Machine) (x y n : Nibble) :
    (∃ hit, (m.drawSprite x y n).state =
      { (m.drawn x y n).setFlag hit with signals := ⟨true, m.signals.tone⟩ }) ∨
    (m.drawSprite x y n).state = m.drawn x y n := by
  rw [drawSprite_eq]
  split
  · exact .inl ⟨_, rfl⟩
  · exact .inr rfl

/-! ## Instructions that were cut short -/

/-- What an instruction leaves if it is cut short: a sprite, a write and a read from the index
register up do what memory has room for, and everything else has not begun. -/
def residue (m : Machine) : Instruction → Machine
  | .draw x y n => m.drawn x y n
  | .storeDecimal x => m.stored (decimalDigits (m.reg x))
  | .saveRegisters x => m.stored ((registersUpTo x).map m.reg)
  | .loadRegisters x => m.restored (registersUpTo x)
  | _ => m

theorem eq_stored_of_stopped {bytes : List UInt8} {after : Machine → Machine}
    (h : m.store bytes after = .stopped t e) : t = m.stored bytes := by
  rw [store_eq] at h
  split at h <;> cases h
  rfl

theorem eq_restored_of_stopped {xs : List Nibble} {after : Machine → Machine}
    (h : m.restore xs after = .stopped t e) : t = m.restored xs := by
  rw [restore_eq] at h
  split at h <;> cases h
  rfl

theorem eq_residue_of_stopped (h : m.execute keys i = .stopped t e) : t = m.residue i := by
  cases hc : i.canFault with
  | false =>
    have hf := fault?_execute_of_canFault_eq_false m keys hc
    rw [h] at hf
    cases hf
  | true =>
    cases i with
    | ret =>
      rcases hp : m.processor.calls.pop? with _ | ⟨addr, calls⟩
      · rw [execute_ret_of_pop?_none hp] at h
        cases h
        rfl
      · rw [execute_ret_of_pop? hp] at h
        cases h
    | call target =>
      rcases hp : m.processor.calls.push? m.processor.pc with _ | calls
      · rw [execute_call_of_push?_none hp] at h
        cases h
        rfl
      · rw [execute_call_of_push? hp] at h
        cases h
    | draw x y n =>
      rw [execute_draw, drawSprite_eq] at h
      split at h <;> cases h
      rfl
    | storeDecimal x =>
      rw [execute_storeDecimal] at h
      rw [eq_stored_of_stopped h, residue]
    | saveRegisters x =>
      rw [execute_saveRegisters] at h
      rw [eq_stored_of_stopped h, residue]
    | loadRegisters x =>
      rw [execute_loadRegisters] at h
      rw [eq_restored_of_stopped h, residue]
    | _ => cases hc

theorem calls_residue (m : Machine) (i : Instruction) :
    (m.residue i).processor.calls = m.processor.calls := by
  cases i with
  | storeDecimal | saveRegisters => rw [residue, processor_stored]
  | loadRegisters x => rw [residue, processor_restored]
  | _ => rfl

theorem index_residue (m : Machine) (i : Instruction) :
    (m.residue i).processor.index = m.processor.index := by
  cases i with
  | storeDecimal | saveRegisters => rw [residue, processor_stored]
  | loadRegisters x => rw [residue, processor_restored]
  | _ => rfl

/-! ## Devices -/

/-- The two machines differ in processor and memory at most. -/
structure SameDevices (m t : Machine) : Prop where
  screen : t.screen = m.screen
  delay : t.delay = m.delay
  sound : t.sound = m.sound
  random : t.random = m.random
  ticks : t.ticks = m.ticks
  unknown : t.unknown = m.unknown
  signals : t.signals = m.signals
  trace : t.trace = m.trace

namespace SameDevices

theorem refl (m : Machine) : m.SameDevices m := ⟨rfl, rfl, rfl, rfl, rfl, rfl, rfl, rfl⟩

theorem trans {m t u : Machine} (h : m.SameDevices t) (g : t.SameDevices u) :
    m.SameDevices u :=
  ⟨g.screen.trans h.screen, g.delay.trans h.delay, g.sound.trans h.sound,
    g.random.trans h.random, g.ticks.trans h.ticks, g.unknown.trans h.unknown,
    g.signals.trans h.signals, g.trace.trans h.trace⟩

theorem processor (m : Machine) (processor : Processor) :
    m.SameDevices { m with processor } := ⟨rfl, rfl, rfl, rfl, rfl, rfl, rfl, rfl⟩

theorem stored (m : Machine) (bytes : List UInt8) : m.SameDevices (m.stored bytes) :=
  ⟨rfl, rfl, rfl, rfl, rfl, rfl, rfl, rfl⟩

theorem restored (m : Machine) (xs : List Nibble) : m.SameDevices (m.restored xs) :=
  .processor m _

theorem advance (m : Machine) : m.SameDevices m.advance := .processor m _

theorem passRegisters (m : Machine) (x : Nibble) : m.SameDevices (m.passRegisters x) :=
  .processor m _

theorem skipIf (m : Machine) (c : Bool) : m.SameDevices (m.skipIf c) := by
  rw [skipIf_eq]
  exact .processor m _

theorem calculate (m : Machine) (op : Arithmetic) (x y : Nibble) :
    m.SameDevices (m.calculate op x y) := by
  rw [calculate_eq]
  exact .processor m _

theorem store (m : Machine) (bytes : List UInt8) {after : Machine → Machine}
    (h : ∀ t, SameDevices t (after t)) : m.SameDevices (m.store bytes after).state := by
  obtain hs | hs := m.state_store bytes after <;> rw [hs]
  · exact (stored m bytes).trans (h _)
  · exact stored m bytes

theorem restore (m : Machine) (xs : List Nibble) {after : Machine → Machine}
    (h : ∀ t, SameDevices t (after t)) : m.SameDevices (m.restore xs after).state := by
  obtain hs | hs := m.state_restore xs after <;> rw [hs]
  · exact (restored m xs).trans (h _)
  · exact restored m xs

end SameDevices

/-- Six instructions reach a device or a count; no other one does. -/
theorem sameDevices_execute (h : i.touchesDevices = false) :
    m.SameDevices (m.execute keys i).state := by
  cases i with
  | invalid | clearScreen | random | draw | setDelay | setSound => cases h
  | ret => exact .processor m _
  | call => exact .processor m _
  | skipEqualByte | skipUnequalByte | skipEqual | skipUnequal | skipPressed | skipReleased =>
    exact .skipIf m _
  | arithmetic op x y => exact (SameDevices.advance m).trans (.calculate _ op x y)
  | waitKey x =>
    rw [execute_waitKey]
    cases keys.greatest?
    · exact .refl m
    · exact .processor m _
  | storeDecimal x =>
    rw [execute_storeDecimal]
    exact .store m _ .advance
  | saveRegisters x =>
    rw [execute_saveRegisters]
    exact .store m _ (.passRegisters · x)
  | loadRegisters x =>
    rw [execute_loadRegisters]
    exact .restore m _ (.passRegisters · x)
  | _ => exact .processor m _

/-- No instruction changes the sides of the screen, or makes a pixel neither dark nor lit. -/
theorem keeps_execute (m : Machine) (keys : Keys) (i : Instruction) :
    m.screen.Keeps (m.execute keys i).state.screen := by
  cases h : i.touchesDevices with
  | false =>
    rw [(sameDevices_execute h).screen]
    exact .refl _
  | true =>
    cases i with
    | clearScreen => exact m.screen.keeps_clear
    | draw x y n =>
      have hdraw : m.screen.Keeps (m.drawn x y n).screen := Screen.keeps_draw _ _ _ _ _ _
      rw [execute_draw]
      obtain ⟨hit, hs⟩ | hs := m.state_drawSprite x y n <;> rw [hs] <;> exact hdraw
    | invalid | random | setDelay | setSound => exact .refl _
    | _ => cases h

/-- A completed instruction that touches the screen signals a redraw. -/
theorem screen_of_execute (h : m.execute keys i = .done t ()) (hr : t.signals.redraw = false) :
    t.screen = m.screen := by
  cases hi : i.touchesDevices with
  | false =>
    have hs : m.SameDevices (m.execute keys i).state := sameDevices_execute hi
    rw [h] at hs
    exact hs.screen
  | true =>
    cases i with
    | clearScreen =>
      cases h
      cases hr
    | draw x y n =>
      rw [execute_draw, drawSprite_eq] at h
      split at h <;> cases h
      cases hr
    | invalid | random | setDelay | setSound =>
      cases h
      rfl
    | _ => cases hi

/-- A completed tick that signals no redraw leaves the screen alone. -/
theorem screen_of_tick {signals : Signals} (h : m.tick keys = .done t signals)
    (hr : signals.redraw = false) : t.screen = m.screen := by
  obtain ⟨e, -, ht⟩ | ⟨f, u, e, -, -, ht⟩ | ⟨f, u, -, hx, ht⟩ := m.tick_cases keys
  · rw [h] at ht
    cases ht
  · rw [h] at ht
    cases ht
  · rw [h] at ht
    cases ht
    have hu : u.screen = m.quieten.screen := screen_of_execute hx hr
    exact hu

/-! ## Memory, random bytes and the wish for a trace -/

theorem memory_skipIf (m : Machine) (c : Bool) : (m.skipIf c).memory = m.memory := by
  rw [skipIf_eq]

theorem memory_calculate (m : Machine) (op : Arithmetic) (x y : Nibble) :
    (m.calculate op x y).memory = m.memory := by
  rw [calculate_eq]

theorem memory_restore (m : Machine) (xs : List Nibble) {after : Machine → Machine}
    (h : ∀ t, (after t).memory = t.memory) : (m.restore xs after).state.memory = m.memory := by
  obtain hs | hs := m.state_restore xs after <;> rw [hs]
  · rw [h, memory_restored]
  · rw [memory_restored]

theorem memory_execute (h : i.writesMemory = false) :
    (m.execute keys i).state.memory = m.memory := by
  cases i with
  | storeDecimal | saveRegisters => cases h
  | skipEqualByte | skipUnequalByte | skipEqual | skipUnequal | skipPressed | skipReleased =>
    exact memory_skipIf m _
  | arithmetic op x y => exact memory_calculate m.advance op x y
  | waitKey x =>
    rw [execute_waitKey]
    cases keys.greatest? <;> rfl
  | draw x y n =>
    rw [execute_draw]
    obtain ⟨hit, hs⟩ | hs := m.state_drawSprite x y n <;> rw [hs] <;> rfl
  | loadRegisters x =>
    rw [execute_loadRegisters]
    exact memory_restore m _ fun t => rfl
  | _ => rfl

/-- One byte is taken by the instruction that takes one, and none by the others; none of them
changes the wish for a trace. -/
theorem random_trace_execute (m : Machine) (keys : Keys) (i : Instruction) :
    (m.execute keys i).state.random = (if i.takesByte then m.random.next.2 else m.random) ∧
      (m.execute keys i).state.trace = m.trace := by
  cases h : i.touchesDevices with
  | false =>
    have hs : m.SameDevices (m.execute keys i).state := sameDevices_execute h
    refine ⟨hs.random.trans ?_, hs.trace⟩
    cases i with
    | random => cases h
    | _ => rfl
  | true =>
    cases i with
    | draw x y n =>
      rw [execute_draw]
      obtain ⟨hit, hs⟩ | hs := m.state_drawSprite x y n <;> rw [hs] <;> exact ⟨rfl, rfl⟩
    | invalid | clearScreen | random | setDelay | setSound => exact ⟨rfl, rfl⟩
    | _ => cases h

/-! ## The call stack and the program counter -/

/-- The call stack is as before, and the program counter has moved by zero, two or four. -/
structure StepsOn (m t : Machine) : Prop where
  calls : t.processor.calls = m.processor.calls
  pc : t.processor.pc = m.processor.pc ∨ t.processor.pc = m.processor.pc + 2 ∨
    t.processor.pc = m.processor.pc + 4

namespace StepsOn

theorem refl (m : Machine) : m.StepsOn m := ⟨rfl, .inl rfl⟩

/-- The program counter moves by two, and only registers change besides. -/
theorem next (m : Machine) (index : UInt16) (v : Vector UInt8 16) :
    m.StepsOn { m with processor := ⟨m.processor.pc + 2, m.processor.calls, index, v⟩ } :=
  ⟨rfl, .inr (.inl rfl)⟩

theorem skipIf (m : Machine) (c : Bool) : m.StepsOn (m.skipIf c) := by
  rw [skipIf_eq]
  refine ⟨rfl, ?_⟩
  cases c
  · exact .inr (.inl rfl)
  · exact .inr (.inr rfl)

theorem calculate (m : Machine) (op : Arithmetic) (x y : Nibble) :
    m.StepsOn (m.advance.calculate op x y) := by
  rw [calculate_eq]
  exact ⟨rfl, .inr (.inl rfl)⟩

theorem store (m : Machine) (bytes : List UInt8) {after : Machine → Machine}
    (h : ∀ t, StepsOn t (after t)) : m.StepsOn (m.store bytes after).state := by
  obtain hs | hs := m.state_store bytes after <;> rw [hs]
  · exact ⟨(h _).calls, (h _).pc⟩
  · exact ⟨rfl, .inl rfl⟩

theorem restore (m : Machine) (xs : List Nibble) {after : Machine → Machine}
    (h : ∀ t, StepsOn t (after t)) : m.StepsOn (m.restore xs after).state := by
  have hx : m.StepsOn (m.restored xs) := by
    refine ⟨?_, .inl ?_⟩ <;> rw [processor_restored]
  obtain hs | hs := m.state_restore xs after <;> rw [hs]
  · refine ⟨(h _).calls.trans hx.calls, ?_⟩
    have hpc : (m.restored xs).processor.pc = m.processor.pc := by rw [processor_restored]
    rw [← hpc]
    exact (h _).pc
  · exact hx

end StepsOn

theorem stepsOn_execute (h : i.transfersControl = false) :
    m.StepsOn (m.execute keys i).state := by
  cases i with
  | ret | jump | call | jumpOffset => cases h
  | skipEqualByte | skipUnequalByte | skipEqual | skipUnequal | skipPressed | skipReleased =>
    exact .skipIf m _
  | arithmetic op x y => exact .calculate m op x y
  | draw x y n =>
    rw [execute_draw]
    obtain ⟨hit, hs⟩ | hs := m.state_drawSprite x y n <;> rw [hs] <;>
      exact ⟨rfl, .inr (.inl rfl)⟩
  | waitKey x =>
    rw [execute_waitKey]
    cases keys.greatest?
    · exact .refl m
    · exact .next m _ _
  | storeDecimal x =>
    rw [execute_storeDecimal]
    exact .store m _ fun t => .next t _ _
  | saveRegisters x =>
    rw [execute_saveRegisters]
    exact .store m _ fun t => .next t _ _
  | loadRegisters x =>
    rw [execute_loadRegisters]
    exact .restore m _ fun t => .next t _ _
  | invalid | clearScreen | random | setDelay | setSound => exact ⟨rfl, .inr (.inl rfl)⟩
  | _ => exact .next m _ _

end Machine

end ChipEight
