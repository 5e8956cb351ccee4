import ChipEight.Proofs.Machine.Locality
import ChipEight.Proofs.Machine.Requests

/-!
# Ticks repeated after a fault

A host that goes on ticking after a fault meets the same instruction again, as long as the part of
it that was done has moved neither the program counter nor the word there. What was done is then
done once more, over itself: the same bytes are written to the same addresses, and the same
registers are read from bytes that have not changed. So nothing moves any more, and every further
tick stops at the same fault. Only a sprite is different, since it passes its instruction before it
draws.
-/

namespace ChipEight

/-- Bytes written a second time change nothing. -/
theorem Memory.writeAll_writeAll (m : Memory) (addr : Nat) (bs : List UInt8) :
    ((m.writeAll addr bs).state.writeAll addr bs).state = (m.writeAll addr bs).state := by
  apply Memory.ext
  intro a ha
  rw [byte_writeAll, byte_writeAll]
  split
  · cases bs[a - addr]? <;> rfl
  · rfl

/-- An instruction that can fault is decoded without a look at `V0`. -/
theorem Instruction.decode_eq_of_canFault {v0 : Int} {w : Word}
    (h : (decode v0 w).canFault = true) (v0' : Int) : decode v0' w = decode v0 w := by
  obtain rfl | hf | hf | ⟨hf, hn | hn | hn⟩ := cases_of_canFault h
  · rw [decode_ret, decode_ret]
  · rw [decode_call hf, decode_call hf]
  · rw [decode_draw hf, decode_draw hf]
  · rw [decode_storeDecimal hf hn, decode_storeDecimal hf hn]
  · rw [decode_saveRegisters hf hn, decode_saveRegisters hf hn]
  · rw [decode_loadRegisters hf hn, decode_loadRegisters hf hn]

theorem Processor.ext_reg {p q : Processor} (hpc : q.pc = p.pc) (hcalls : q.calls = p.calls)
    (hindex : q.index = p.index) (hreg : ∀ r, q.reg r = p.reg r) : q = p := by
  obtain ⟨pc, calls, index, v⟩ := p
  obtain ⟨pc', calls', index', v'⟩ := q
  cases hpc
  cases hcalls
  cases hindex
  congr
  exact Vector.ext fun k hk => hreg ⟨k, hk⟩

namespace Machine

variable {m t : Machine} {keys : Keys} {i : Instruction} {e : Fault} {reports : List Keys}

/-! ## What is left by an instruction that is cut short twice -/

theorem stored_stored (m : Machine) (bytes : List UInt8) :
    (m.stored bytes).stored bytes = m.stored bytes := by
  have hm := m.memory.writeAll_writeAll m.processor.index.toNat bytes
  exact congrArg (fun memory => { m with memory }) hm

theorem reg_stored (m : Machine) (bytes : List UInt8) : (m.stored bytes).reg = m.reg :=
  funext fun _ => rfl

/-- Reading registers moves neither the program counter nor the call stack nor the index
register. -/
theorem position_restored (m : Machine) (xs : List Nibble) :
    (m.restored xs).processor.pc = m.processor.pc ∧
      (m.restored xs).processor.calls = m.processor.calls ∧
      (m.restored xs).processor.index = m.processor.index := by
  rw [processor_restored]
  exact ⟨rfl, rfl, rfl⟩

/-- Registers that are read twice from the same place find the same bytes there. -/
theorem restored_restored (m : Machine) {xs : List Nibble} (hxs : xs.Nodup) :
    (m.restored xs).restored xs = m.restored xs := by
  obtain ⟨-, -, hindex⟩ := m.position_restored xs
  obtain ⟨hpc, hcalls, hindex'⟩ := (m.restored xs).position_restored xs
  have hreg (r : Nibble) : ((m.restored xs).restored xs).reg r = (m.restored xs).reg r := by
    by_cases hr : r ∈ xs
    · obtain ⟨k, hk⟩ := List.getElem?_of_mem hr
      have hfirst := reg_readRegisters m.memory m.processor m.processor.index.toNat hxs hk
      have hsecond := reg_readRegisters m.memory (m.restored xs).processor
        m.processor.index.toNat hxs hk
      rw [reg_restored_eq, memory_restored, hindex, hsecond, reg_restored_eq, hfirst]
      split
      · rfl
      · exact hfirst.trans (if_neg ‹_›)
    · rw [reg_restored_eq, reg_readRegisters_of_notMem _ _ _ hr]
      rfl
  have hp := Processor.ext_reg hpc hcalls hindex' hreg
  exact congrArg (fun processor => { m.restored xs with processor }) hp

/-- Whatever but a sprite is cut short a second time leaves nothing new. -/
theorem residue_residue (m : Machine) (hi : i.opcode ≠ .draw) :
    (m.residue i).residue i = m.residue i := by
  cases i with
  | draw => exact absurd rfl hi
  | storeDecimal | saveRegisters => simp only [residue, reg_stored, stored_stored]
  | loadRegisters x => simp only [residue, restored_restored m (nodup_registersUpTo x)]
  | _ => rfl

theorem pc_residue (m : Machine) (hi : i.opcode ≠ .draw) :
    (m.residue i).processor.pc = m.processor.pc := by
  cases i with
  | draw => exact absurd rfl hi
  | storeDecimal | saveRegisters => rw [residue, processor_stored]
  | loadRegisters x => rw [residue, processor_restored]
  | _ => rfl

theorem sameDevices_residue (m : Machine) (hi : i.opcode ≠ .draw) :
    m.SameDevices (m.residue i) := by
  cases i with
  | draw => exact absurd rfl hi
  | storeDecimal | saveRegisters => exact .stored m _
  | loadRegisters => exact .restored m _
  | _ => exact .refl m

theorem quieten_residue (m : Machine) (hi : i.opcode ≠ .draw) :
    (m.quieten.residue i).quieten = m.quieten.residue i := by
  have hquiet : (m.quieten.residue i).signals.redraw = false :=
    congrArg Signals.redraw (m.quieten.sameDevices_residue hi).signals
  rw [quieten, ← hquiet]

/-- The fault of an instruction depends on nothing that it changes if it is cut short. -/
theorem faultOf_residue (m : Machine) (hi : i.opcode ≠ .draw) :
    (m.residue i).faultOf i = m.faultOf i := by
  have hindex := m.index_residue i
  cases i with
  | draw => exact absurd rfl hi
  | storeDecimal | saveRegisters | loadRegisters => simp only [faultOf, overrun, hindex]
  | _ => rfl

theorem memory_residue (m : Machine) (i : Instruction) :
    (m.residue i).memory =
      (m.memory.writeAll m.processor.index.toNat (m.bytesWritten i)).state := by
  cases i with
  | storeDecimal | saveRegisters => rw [residue, memory_stored, bytesWritten]
  | loadRegisters x =>
    rw [residue, memory_restored]
    rfl
  | _ => rfl

theorem byte_residue {a : Nat} (h : ¬i.WritesByte m.processor.index.toNat a) :
    (m.residue i).memory.byte a = m.memory.byte a := by
  rw [writesByte_iff] at h
  rw [memory_residue]
  exact Memory.byte_writeAll_of_outside _ h

/-! ## The same tick again -/

/-- The word of an instruction that is cut short can be fetched again if it has not been written
over. -/
theorem fetch_residue {f : Fetched} (hf : m.fetch = .ok f)
    (he : m.faultOf f.instruction = some e) (hi : f.instruction.opcode ≠ .draw)
    (hw : ∀ a, f.instruction.WritesByte m.processor.index.toNat a →
      (a : Int) ≠ m.processor.pc ∧ (a : Int) ≠ m.processor.pc + 1) :
    (m.residue f.instruction).fetch = .ok f := by
  obtain ⟨w, hword, rfl⟩ : ∃ w, m.memory.word m.processor.pc = .ok w ∧
      f = ⟨w, .decode (m.reg Processor.offset).toNat w⟩ := by
    rw [fetch, Memory.fetch] at hf
    split at hf
    · exact ⟨_, ‹_›, (Except.ok.inj hf).symm⟩
    · cases hf
  -- `V0` may have been read anew, but only jumps are decoded with it, and they do not fault.
  have hcan : (Instruction.decode (m.reg Processor.offset).toNat w).canFault = true := by
    rw [← Bool.not_eq_false]
    intro hnever
    rw [faultOf_of_canFault_eq_false hnever] at he
    cases he
  have hsame : (m.residue (.decode (m.reg Processor.offset).toNat w)).memory.word m.processor.pc =
      .ok w := by
    rw [← hword]
    refine Memory.word_congr fun a _ ha => byte_residue fun hwrites => ?_
    obtain ⟨hlow, hhigh⟩ := hw a hwrites
    exact ha.elim hlow hhigh
  rw [fetch, Memory.fetch, pc_residue m hi, hsame]
  simp only [Instruction.decode_eq_of_canFault hcan]

/-- What was cut short is cut short in the same way again. -/
theorem execute_residue (hp : m.screen.HasPixels) (he : m.faultOf i = some e)
    (hi : i.opcode ≠ .draw) (keys : Keys) :
    (m.residue i).execute keys i = .stopped (m.residue i) e := by
  have hp' : (m.residue i).screen.HasPixels := by
    rwa [(m.sameDevices_residue hi).screen]
  have hfault : ((m.residue i).execute keys i).fault? = some e := by
    rw [fault?_execute hp', faultOf_residue m hi, he]
  have hstopped := Outcome.eq_stopped_of_fault? hfault
  rwa [eq_residue_of_stopped hstopped, residue_residue m hi] at hstopped

/-- Behind a fault that is no sprite's, any tick is cut short at the same fault and changes
nothing. -/
theorem tick_after_fault (hp : m.screen.HasPixels) (he : (m.tick keys).fault? = some e)
    (hi : ∀ i ∈ m.next?, i.opcode ≠ .draw)
    (hw : ∀ a, m.Writes a → (a : Int) ≠ m.processor.pc ∧ (a : Int) ≠ m.processor.pc + 1)
    (keys' : Keys) :
    (m.tick keys).state.tick keys' = .stopped (m.tick keys).state e := by
  have hq : m.quieten.screen.HasPixels := hp
  obtain ⟨e', hf, ht⟩ | ⟨f, t, e', hf, hx, ht⟩ | ⟨f, t, -, -, ht⟩ := m.tick_cases keys
  · rw [ht] at he ⊢
    cases he
    exact tick_of_fetch_error hf
  · rw [ht] at he
    cases he
    have hnext := next?_of_fetch hf
    have hopcode : f.instruction.opcode ≠ .draw := hi _ hnext
    have hfault : m.quieten.faultOf f.instruction = some e := by
      rw [← fault?_execute hq keys, hx, Outcome.fault?_stopped]
    obtain rfl := eq_residue_of_stopped hx
    have hfetch : (m.quieten.residue f.instruction).fetch = .ok f :=
      fetch_residue hf hfault hopcode fun a ha => hw a ⟨_, hnext, ha⟩
    rw [ht, Outcome.state_stopped]
    refine tick_of_stopped hfetch ?_
    rw [quieten_residue m hopcode]
    exact execute_residue hq hfault hopcode keys'
  · rw [ht] at he
    cases he

/-! ## Any number of ticks -/

/-- Where every tick is cut short at the same fault and changes nothing, any number of them is. -/
theorem outcomes_of_fixed (h : ∀ keys, m.tick keys = .stopped m e) (reports : List Keys) :
    m.outcomes reports = List.replicate reports.length (.stopped m e) ∧
      m.tickThrough reports = m := by
  induction reports with
  | nil => exact ⟨rfl, rfl⟩
  | cons keys reports ih =>
    obtain ⟨houtcomes, hstate⟩ := ih
    rw [outcomes, tickThrough_cons, h keys, Outcome.state_stopped, houtcomes]
    exact ⟨rfl, hstate⟩

/-- A tick that is cut short at anything but a sprite, and does not write over its own word, is
cut short for good: every further tick, with whatever keys, stops at the same fault and leaves the
machine as the first one left it. -/
theorem fault_stays (h : m.Reachable) (he : (m.tick keys).fault? = some e)
    (hi : ∀ i ∈ m.next?, i.opcode ≠ .draw)
    (hw : ∀ a, m.Writes a → (a : Int) ≠ m.processor.pc ∧ (a : Int) ≠ m.processor.pc + 1)
    (reports : List Keys) :
    let t := (m.tick keys).state
    t.outcomes reports = List.replicate reports.length (.stopped t e) ∧
      t.tickThrough reports = t := by
  intro t
  exact outcomes_of_fixed (tick_after_fault h.bounded.hasPixels he hi hw) reports

/-- Four registers are to be saved over the last two bytes of memory, three times. -/
theorem save_at_end_repeated :
    let m := ((fresh (.tape [] 0)).perform
      (.load [0x60, 0x09, 0x61, 0x07, 0xAF, 0xFE, 0xF3, 0x55])).perform (.run .none 3)
    let t := (m.tick .none).state
    m.Reachable ∧ (m.memory.byte 4094 = 0 ∧ m.memory.byte 4095 = 0) ∧
      (t.memory.byte 4094 = 9 ∧ t.memory.byte 4095 = 7) ∧
      t.outcomes [.none, ⟨[(3, true)]⟩] =
        [.stopped t (.bus 4096), .stopped t (.bus 4096)] ∧
      t.tickThrough [.none, ⟨[(3, true)]⟩] = t := by
  intro m
  have hm : m.Reachable := ((Reachable.fresh _).perform _).perform _
  have hnext : m.next? = some (.saveRegisters 3) := by decide +kernel
  have hat : m.processor.pc = 0x206 ∧ m.processor.index.toNat = 4094 := by decide +kernel
  have hbytes : (m.memory.byte 4094 = 0 ∧ m.memory.byte 4095 = 0) ∧
      (m.tick .none).state.memory.byte 4094 = 9 ∧ (m.tick .none).state.memory.byte 4095 = 7 ∧
      (m.tick .none).fault? = some (.bus 4096) := by decide +kernel
  clear_value m
  obtain ⟨hbefore, hfirst, hsecond, he⟩ := hbytes
  have hi : ∀ i ∈ m.next?, i.opcode ≠ .draw := by simp [hnext, Instruction.opcode]
  have hw (a : Nat) (ha : m.Writes a) :
      (a : Int) ≠ m.processor.pc ∧ (a : Int) ≠ m.processor.pc + 1 := by
    obtain ⟨hlow, -⟩ := (m.writes_iff a).1 ha
    omega
  obtain ⟨houtcomes, hstate⟩ := fault_stays hm he hi hw [.none, ⟨[(3, true)]⟩]
  exact ⟨hm, hbefore, ⟨hfirst, hsecond⟩, houtcomes, hstate⟩

/-- Two registers are to be saved from the second half of their own word up: it becomes another
word before the fault, and that one is executed. -/
example :
    let m := ((((fresh (.tape [] 0)).perform
      (.load [0x60, 0x07, 0xAF, 0xFF, 0x1F, 0xFE])).perform (.write 0xFFE 0xF1)).perform
      (.write 0xFFF 0x55)).perform (.run .none 3)
    (m.tick .none).fault? = some (.bus 4096) ∧
      ((m.tick .none).state.tick .none).fault? = none := by
  decide +kernel

end Machine

end ChipEight
