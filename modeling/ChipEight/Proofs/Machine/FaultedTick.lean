import ChipEight.Proofs.Machine.Requests

/-!
# Ticks that are cut short

When a tick of a machine in use is cut short, and what it leaves behind then. The fault can be
told from the program counter, the word at it, the index register and the depth of the call
stack. A sprite, a write and a read from the index register up do the part that memory has room
for; any other fault comes before anything is done.

## Main definitions

* `Memory.WrittenUp`: memory with values written from an address up, as far as it reaches.
* `Machine.CutShort`: the cases in which a tick is cut short.
* `Machine.Uncounted`: what no faulted tick changes.
* `Machine.LeftBy`: what a faulted instruction leaves of the processor, memory and screen.
-/

namespace ChipEight

namespace Memory

/-- From `start` up to the end of memory, the second memory holds the values, one after another;
below it is as the first. There are values enough for that. -/
def WrittenUp (before after : Memory) (start : Nat) (values : List UInt8) : Prop :=
  ∀ a < size,
    if start ≤ a then values[a - start]? = some (after.byte a)
    else after.byte a = before.byte a

/-- Bytes that reach over the end of memory fill it. -/
theorem writtenUp_writeAll (m : Memory) {start : Nat} {values : List UInt8}
    (h : size < start + values.length) :
    m.WrittenUp (m.writeAll start values).state start values := by
  intro a ha
  rw [byte_writeAll]
  split
  · rename_i hs
    have hlen : a - start < values.length := by omega
    rw [if_pos ⟨hs, ha⟩, List.getElem?_eq_getElem hlen, Option.getD_some]
  · rename_i hs
    rw [if_neg fun hc => hs hc.1]

end Memory

namespace Machine

variable {m t : Machine} {keys : Keys} {e : Fault} {i : Instruction}

/-! ## When a tick is cut short -/

/-- The cases in which a tick is cut short, each with its fault. Where bytes from the index
register up are missing, the fault names the first of them. -/
inductive CutShort (m : Machine) : Fault → Prop where
  | fetch (h : 4094 < m.processor.pc) : CutShort m (.bus m.processor.pc)
  | call (h : m.processor.pc ≤ 4094) (hw : m.wordAtPc.family = 0x2)
      (hd : m.processor.calls.depth = 64) : CutShort m (.callOverflow m.processor.pc)
  | ret (h : m.processor.pc ≤ 4094) (hw : m.wordAtPc = 0x00EE)
      (hd : m.processor.calls.depth = 0) : CutShort m (.callUnderflow m.processor.pc)
  | draw (h : m.processor.pc ≤ 4094) (hw : m.wordAtPc.family = 0xD)
      (hx : 1 ≤ m.wordAtPc.n.val ∧ 4096 < m.processor.index.toNat + m.wordAtPc.n.val) :
      CutShort m (.bus (max m.processor.index.toNat 4096 : Nat))
  | storeDecimal (h : m.processor.pc ≤ 4094) (hw : m.wordAtPc.family = 0xF)
      (hn : m.wordAtPc.nn = 0x33) (hx : 4096 < m.processor.index.toNat + 3) :
      CutShort m (.bus (max m.processor.index.toNat 4096 : Nat))
  | registers (h : m.processor.pc ≤ 4094) (hw : m.wordAtPc.family = 0xF)
      (hn : m.wordAtPc.nn = 0x55 ∨ m.wordAtPc.nn = 0x65)
      (hx : 4096 < m.processor.index.toNat + m.wordAtPc.x.val + 1) :
      CutShort m (.bus (max m.processor.index.toNat 4096 : Nat))

/-- Of the word at the program counter, only what these cases say can make it fault. -/
theorem CutShort.of_faultOf {v0 : Int} (hpc : m.processor.pc ≤ 4094)
    (h : m.faultOf (.decode v0 m.wordAtPc) = some e) : m.CutShort e := by
  cases hc : (Instruction.decode v0 m.wordAtPc).canFault with
  | false =>
    rw [faultOf_of_canFault_eq_false hc] at h
    cases h
  | true =>
    obtain hw | hw | hw | ⟨hw, hn | hn | hn⟩ := Instruction.cases_of_canFault hc
    · rw [hw, Instruction.decode_ret] at h
      obtain ⟨hd, rfl⟩ := faultOf_ret_eq_some_iff.1 h
      exact .ret hpc hw hd
    · rw [Instruction.decode_call hw] at h
      obtain ⟨hd, rfl⟩ := faultOf_call_eq_some_iff.1 h
      exact .call hpc hw hd
    · rw [Instruction.decode_draw hw] at h
      obtain ⟨hx, rfl⟩ := overrun_eq_some_iff.1 h
      exact .draw hpc hw hx
    · rw [Instruction.decode_storeDecimal hw hn] at h
      obtain ⟨hx, rfl⟩ := overrun_eq_some_iff.1 h
      exact .storeDecimal hpc hw hn hx.2
    · rw [Instruction.decode_saveRegisters hw hn] at h
      obtain ⟨hx, rfl⟩ := overrun_eq_some_iff.1 h
      exact .registers hpc hw (.inl hn) hx.2
    · rw [Instruction.decode_loadRegisters hw hn] at h
      obtain ⟨hx, rfl⟩ := overrun_eq_some_iff.1 h
      exact .registers hpc hw (.inr hn) hx.2

theorem CutShort.faultOf {v0 : Int} (hpc : m.processor.pc ≤ 4094) (h : m.CutShort e) :
    m.faultOf (.decode v0 m.wordAtPc) = some e := by
  cases h with
  | fetch h => omega
  | call _ hw hd =>
    rw [Instruction.decode_call hw]
    exact faultOf_call_eq_some_iff.2 ⟨hd, rfl⟩
  | ret _ hw hd =>
    rw [hw]
    exact faultOf_ret_eq_some_iff.2 ⟨hd, rfl⟩
  | draw _ hw hx =>
    rw [Instruction.decode_draw hw]
    exact overrun_eq_some_iff.2 ⟨hx, rfl⟩
  | storeDecimal _ hw hn hx =>
    rw [Instruction.decode_storeDecimal hw hn]
    exact overrun_eq_some_iff.2 ⟨⟨by decide, hx⟩, rfl⟩
  | registers _ hw hn hx =>
    obtain hn | hn := hn
    · rw [Instruction.decode_saveRegisters hw hn]
      exact overrun_eq_some_iff.2 ⟨⟨Nat.le_add_left 1 _, hx⟩, rfl⟩
    · rw [Instruction.decode_loadRegisters hw hn]
      exact overrun_eq_some_iff.2 ⟨⟨Nat.le_add_left 1 _, hx⟩, rfl⟩

theorem Bounded.fault?_tick_eq_some_iff (h : m.Bounded) :
    (m.tick keys).fault? = some e ↔ m.CutShort e := by
  rw [fault?_tick h.hasPixels h.pc_nonneg]
  split
  · rename_i hpc
    exact ⟨.of_faultOf hpc, fun hc => hc.faultOf hpc⟩
  · rename_i hpc
    constructor
    · rintro ⟨⟩
      exact .fetch (Int.lt_of_not_ge hpc)
    · intro hc
      cases hc with
      | fetch => rfl
      | _ => omega

/-- A tick of a machine in use is cut short in the cases of `CutShort`, with the faults of these
cases, and in all other cases it is completed. -/
theorem answer_tick_eq_error_iff (h : m.Reachable) (keys : Keys) :
    (∀ e, (m.tick keys).answer = .error e ↔ m.CutShort e) ∧
    ((∃ signals, (m.tick keys).answer = .ok signals) ↔ ∀ e, ¬m.CutShort e) := by
  have hiff (e : Fault) : (m.tick keys).answer = .error e ↔ m.CutShort e := by
    rw [Outcome.answer_eq_error_iff, h.bounded.fault?_tick_eq_some_iff]
  refine ⟨hiff, ?_, fun hc => ?_⟩
  · rintro ⟨signals, ha⟩ e hc
    rw [(hiff e).2 hc] at ha
    cases ha
  · cases ha : (m.tick keys).answer with
    | ok signals => exact ⟨signals, rfl⟩
    | error e => exact absurd ((hiff e).1 ha) (hc e)

/-- Four registers are to be read, and there are two bytes for them. -/
theorem error_of_registers_at_end :
    let m := ((fresh (.tape [] 0)).perform (.load [0xAF, 0xFE, 0xF3, 0x65])).perform (.tick .none)
    m.Reachable ∧ (m.tick .none).answer = .error (.bus 4096) := by
  intro m
  have hm : m.Reachable := ((Reachable.fresh _).perform _).perform _
  have hw : m.wordAtPc.family = 0xF ∧ m.wordAtPc.nn = 0x65 := by decide +kernel
  have hx : 4096 < m.processor.index.toNat + m.wordAtPc.x.val + 1 := by decide +kernel
  have hbus : max m.processor.index.toNat 4096 = 4096 := by decide +kernel
  have hc : m.CutShort (.bus (max m.processor.index.toNat 4096 : Nat)) :=
    .registers (by decide +kernel) hw.1 (.inr hw.2) hx
  rw [hbus] at hc
  exact ⟨hm, ((answer_tick_eq_error_iff hm .none).1 (.bus 4096)).2 hc⟩

/-! ## What is left behind -/

/-- What no faulted tick changes but for the signal of a redraw, which is off after it. -/
structure Uncounted (m t : Machine) : Prop where
  ticks : t.ticks = m.ticks
  unknown : t.unknown = m.unknown
  delay : t.delay = m.delay
  sound : t.sound = m.sound
  random : t.random = m.random
  trace : t.trace = m.trace
  index : t.processor.index = m.processor.index
  calls : t.processor.calls = m.processor.calls
  tone : t.signals.tone = m.signals.tone
  redraw : t.signals.redraw = false

/-- Processor, memory and screen are as before. -/
def Undone (m t : Machine) : Prop :=
  t.processor = m.processor ∧ t.memory = m.memory ∧ t.screen = m.screen

/-- What a faulted instruction leaves of processor, memory and screen. -/
def LeftBy (m t : Machine) : Instruction → Prop
  | .ret | .call _ => m.Undone t
  | .draw x y _ =>
    let height : Int := max 0 (4096 - (m.processor.index.toNat : Int))
    let shortened := m.screen.draw m.memory (m.reg x).toNat (m.reg y).toNat height
      m.processor.index.toNat
    t.processor = { m.processor with pc := m.processor.pc + 2 } ∧ t.memory = m.memory ∧
      shortened.fault? = none ∧ t.screen = shortened.state
  | .storeDecimal x =>
    t.processor = m.processor ∧ t.screen = m.screen ∧
      m.memory.WrittenUp t.memory m.processor.index.toNat (decimalDigits (m.reg x))
  | .saveRegisters x =>
    t.processor = m.processor ∧ t.screen = m.screen ∧
      m.memory.WrittenUp t.memory m.processor.index.toNat ((registersUpTo x).map m.reg)
  | .loadRegisters _ =>
    t.processor = { m.processor with v := t.processor.v } ∧ t.memory = m.memory ∧
      t.screen = m.screen ∧
      ∀ r : Nibble, t.reg r =
        if m.processor.index.toNat + r.val < 4096 then
          m.memory.byte (m.processor.index.toNat + r.val)
        else m.reg r
  | _ => False

/-- A sprite that reaches over the end of memory leaves what one leaves that ends there, and that
one is drawn to its end. -/
theorem screen_drawn (hp : m.screen.HasPixels) {x y n : Nibble}
    (h : 4096 < m.processor.index.toNat + n.val) :
    let shortened := m.sprite x y (max 0 (4096 - (m.processor.index.toNat : Int)))
    shortened.fault? = none ∧ (m.drawn x y n).screen = shortened.state := by
  intro shortened
  have hheight : (max 0 (4096 - (m.processor.index.toNat : Int))).toNat =
      4096 - m.processor.index.toNat := by omega
  have hmin : min n.val (4096 - m.processor.index.toNat) = 4096 - m.processor.index.toNat := by
    omega
  have hshort : shortened = m.screen.drawRows m.memory (m.reg x).toNat (m.reg y).toNat
      m.processor.index.toNat false (4096 - m.processor.index.toNat) := by
    rw [← hheight]
    rfl
  constructor
  · rw [hshort, Screen.fault?_drawRows hp]
    exact if_pos (by simp only [Memory.size]; omega)
  · rw [hshort, ← hmin]
    exact Screen.state_drawRows_min hp m.memory _ _ m.processor.index.toNat false n.val

/-- Registers that reach over the end of memory are read as far as there are bytes for them. -/
theorem reg_restored {x : Nibble}
    (h : 4096 < m.processor.index.toNat + (x.val + 1)) (r : Nibble) :
    (m.restored (registersUpTo x)).reg r =
      if m.processor.index.toNat + r.val < 4096 then
        m.memory.byte (m.processor.index.toNat + r.val)
      else m.reg r := by
  by_cases hx : r ≤ x
  · exact reg_restored_of_le m hx
  · have hlt : x.val < r.val := Nat.lt_of_not_le hx
    rw [reg_restored_of_lt m hlt, if_neg (by omega)]

theorem leftBy_residue (hp : m.screen.HasPixels) (h : m.faultOf i = some e) :
    m.LeftBy (m.residue i) i := by
  cases i with
  | ret | call => exact ⟨rfl, rfl, rfl⟩
  | draw x y n =>
    obtain ⟨⟨-, hx⟩, -⟩ := overrun_eq_some_iff.1 h
    obtain ⟨hok, hs⟩ := screen_drawn hp (x := x) (y := y) hx
    exact ⟨rfl, rfl, hok, hs⟩
  | storeDecimal x =>
    obtain ⟨⟨-, hx⟩, -⟩ := overrun_eq_some_iff.1 h
    rw [residue, LeftBy, processor_stored, memory_stored]
    exact ⟨rfl, (SameDevices.stored _ _).screen, m.memory.writtenUp_writeAll hx⟩
  | saveRegisters x =>
    obtain ⟨⟨-, hx⟩, -⟩ := overrun_eq_some_iff.1 h
    have hlen : ((registersUpTo x).map m.reg).length = x.val + 1 := by
      rw [List.length_map, length_registersUpTo]
    rw [residue, LeftBy, processor_stored, memory_stored]
    exact ⟨rfl, (SameDevices.stored _ _).screen, m.memory.writtenUp_writeAll (hlen ▸ hx)⟩
  | loadRegisters x =>
    obtain ⟨⟨-, hx⟩, -⟩ := overrun_eq_some_iff.1 h
    rw [residue, LeftBy, memory_restored]
    exact ⟨processor_restored _ _, rfl, (SameDevices.restored _ _).screen,
      reg_restored hx⟩
  | _ => cases h

theorem Uncounted.of_sameDevices (h : m.SameDevices t) (hr : m.signals.redraw = false)
    (hi : t.processor.index = m.processor.index)
    (hc : t.processor.calls = m.processor.calls) : m.Uncounted t where
  ticks := h.ticks
  unknown := h.unknown
  delay := h.delay
  sound := h.sound
  random := h.random
  trace := h.trace
  index := hi
  calls := hc
  tone := congrArg Signals.tone h.signals
  redraw := (congrArg Signals.redraw h.signals).trans hr

theorem uncounted_residue (h : m.signals.redraw = false) (i : Instruction) :
    m.Uncounted (m.residue i) := by
  cases i with
  | draw => exact ⟨rfl, rfl, rfl, rfl, rfl, rfl, rfl, rfl, rfl, h⟩
  | storeDecimal | saveRegisters =>
    rw [residue]
    refine .of_sameDevices (.stored m _) h ?_ ?_ <;> rw [processor_stored]
  | loadRegisters =>
    rw [residue]
    refine .of_sameDevices (.restored m _) h ?_ ?_ <;> rw [processor_restored]
  | _ => exact .of_sameDevices (.refl m) h rfl rfl

/-- A tick that is cut short is not counted, leaves the devices, the index register and the call
stack alone, and signals no redraw. If there was an instruction to fetch, only a sprite, a write
or a read from the index register up has begun, and it has done exactly the part that memory had
room for. -/
theorem state_tick_of_error (h : m.Reachable) (he : (m.tick keys).answer = .error e) :
    let t := (m.tick keys).state
    m.Uncounted t ∧
      match m.fetch with
      | .error _ => m.Undone t
      | .ok fetched => m.LeftBy t fetched.instruction := by
  intro t
  have hp : m.quieten.screen.HasPixels := h.bounded.hasPixels
  obtain ⟨e', hf, ht⟩ | ⟨f, t', e', hf, hx, ht⟩ | ⟨f, t', -, -, ht⟩ := m.tick_cases keys
  · have hs : t = m.quieten := congrArg Outcome.state ht
    rw [hs, hf]
    exact ⟨⟨rfl, rfl, rfl, rfl, rfl, rfl, rfl, rfl, rfl, rfl⟩, rfl, rfl, rfl⟩
  · have hs : t = m.quieten.residue f.instruction :=
      (congrArg Outcome.state ht).trans (eq_residue_of_stopped hx)
    have hfault : m.quieten.faultOf f.instruction = some e' := by
      rw [← fault?_execute hp keys, hx, Outcome.fault?_stopped]
    have hu : m.quieten.Uncounted t := hs ▸ uncounted_residue rfl f.instruction
    have hl : m.quieten.LeftBy t f.instruction := hs ▸ leftBy_residue hp hfault
    rw [hf]
    exact ⟨⟨hu.ticks, hu.unknown, hu.delay, hu.sound, hu.random, hu.trace, hu.index, hu.calls,
      hu.tone, hu.redraw⟩, hl⟩
  · rw [ht] at he
    cases he

/-- Four registers are to be read, and two of them get their bytes. -/
theorem registers_left_at_end :
    let m := (((fresh (.tape [] 0)).perform (.load [0x63, 0x05, 0xAF, 0xFE, 0xF3, 0x65])).perform
      (.write 0xFFF 7)).perform (.run .none 2)
    let t := (m.tick .none).state
    m.Reachable ∧ (m.tick .none).answer = .error (.bus 4096) ∧
      t.reg 1 = 7 ∧ t.reg 2 = 0 ∧ t.reg 3 = 5 := by
  intro m
  have hm : m.Reachable := (((Reachable.fresh _).perform _).perform _).perform _
  have he : (m.tick .none).answer = .error (.bus 4096) :=
    Outcome.answer_eq_error_iff.2 (by decide +kernel)
  have hf : m.fetch = .ok ⟨0xF365, .loadRegisters 3⟩ := by
    have hw : m.wordAtPc = 0xF365 := by decide +kernel
    rw [fetch_of_inside (by decide +kernel) (by decide +kernel), hw]
    rfl
  have hi : m.processor.index.toNat = 4094 := by decide +kernel
  have hbytes : m.memory.byte 4095 = 7 ∧ m.reg 2 = 0 ∧ m.reg 3 = 5 := by decide +kernel
  clear_value m
  have hl := (state_tick_of_error hm he).2
  rw [hf] at hl
  have hreg := hl.2.2.2
  simp only [hi] at hreg
  exact ⟨hm, he, (hreg 1).trans hbytes.1, (hreg 2).trans hbytes.2.1, (hreg 3).trans hbytes.2.2⟩

end Machine

end ChipEight
