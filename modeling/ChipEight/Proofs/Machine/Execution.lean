import ChipEight.Machine.Tick
import ChipEight.Proofs.Instruction.Decoding
import ChipEight.Proofs.Screen.Drawing

/-!
# Executing instructions

What a tick and an instruction do, said once: a tick fetches, executes and counts down, or stops
at the first fault; of all instructions only six can fault; and each of these six is either
complete or has done the part that the end of memory left to it.
-/

namespace ChipEight.Machine

variable {m t : Machine} {keys : Keys} {f : Fetched} {e : Fault}

/-! ## The shape of a tick -/

/-- The word at the program counter, as far as it lies in memory. -/
def wordAtPc (m : Machine) : Word :=
  UInt16.ofNat (256 * (m.memory.byte m.processor.pc.toNat).toNat +
    (m.memory.byte (m.processor.pc.toNat + 1)).toNat)

theorem fetch_of_inside (h₀ : 0 ≤ m.processor.pc) (h : m.processor.pc ≤ 4094) :
    m.fetch = .ok ⟨m.wordAtPc, .decode (m.reg Processor.offset).toNat m.wordAtPc⟩ := by
  have hc : Memory.Covers m.processor.pc 2 := ⟨h₀, by simp only [Memory.size]; omega⟩
  rw [fetch, Memory.fetch, Memory.word, if_pos hc]
  rfl

theorem fetch_of_outside (h : 4094 < m.processor.pc) :
    m.fetch = .error (.bus m.processor.pc) := by
  have hc : ¬Memory.Covers m.processor.pc 2 := by
    rintro ⟨-, hle⟩
    simp only [Memory.size] at hle
    omega
  rw [fetch, Memory.fetch, Memory.word, if_neg hc]

theorem pc_of_fetch (h : m.fetch = .ok f) : 0 ≤ m.processor.pc ∧ m.processor.pc ≤ 4094 := by
  by_cases hc : Memory.Covers m.processor.pc 2
  · obtain ⟨h₀, hle⟩ := hc
    simp only [Memory.size] at hle
    omega
  · rw [fetch, Memory.fetch, Memory.word, if_neg hc] at h
    cases h

theorem tick_of_fetch_error (h : m.fetch = .error e) : m.tick keys = .stopped m.quieten e := by
  have hq : m.quieten.fetch = .error e := h
  simp only [tick, hq]

theorem tick_of_stopped (h : m.fetch = .ok f)
    (hx : m.quieten.execute keys f.instruction = .stopped t e) : m.tick keys = .stopped t e := by
  have hq : m.quieten.fetch = .ok f := h
  simp only [tick, hq, hx]
  rfl

theorem tick_of_done (h : m.fetch = .ok f)
    (hx : m.quieten.execute keys f.instruction = .done t ()) :
    m.tick keys = .done t.countDown t.countDown.signals := by
  have hq : m.quieten.fetch = .ok f := h
  simp only [tick, hq, hx]
  rfl

/-- The end of a tick leaves the processor alone. -/
theorem processor_tick_of_done (h : m.fetch = .ok f)
    (hx : m.quieten.execute keys f.instruction = .done t ()) :
    (m.tick keys).fault? = none ∧ (m.tick keys).state.processor = t.processor := by
  rw [tick_of_done h hx]
  exact ⟨rfl, rfl⟩

/-- A tick stops at the fetch, stops while it executes, or is completed. -/
theorem tick_cases (m : Machine) (keys : Keys) :
    (∃ e, m.fetch = .error e ∧ m.tick keys = .stopped m.quieten e) ∨
    (∃ f t e, m.fetch = .ok f ∧ m.quieten.execute keys f.instruction = .stopped t e ∧
      m.tick keys = .stopped t e) ∨
    (∃ f t, m.fetch = .ok f ∧ m.quieten.execute keys f.instruction = .done t () ∧
      m.tick keys = .done t.countDown t.countDown.signals) := by
  cases hf : m.fetch with
  | error e => exact .inl ⟨e, rfl, tick_of_fetch_error hf⟩
  | ok f =>
    rcases hx : m.quieten.execute keys f.instruction with ⟨t, e | ⟨⟩⟩
    · exact .inr (.inl ⟨f, t, e, rfl, hx, tick_of_stopped hf hx⟩)
    · exact .inr (.inr ⟨f, t, rfl, hx, tick_of_done hf hx⟩)

/-- A completed tick answers with the signals that it leaves. -/
theorem signals_of_tick {signals : Signals} (h : m.tick keys = .done t signals) :
    t.signals = signals := by
  obtain ⟨_, -, ht⟩ | ⟨_, _, _, -, -, ht⟩ | ⟨_, _, -, -, ht⟩ := tick_cases m keys <;>
    rw [ht] at h <;> cases h
  rfl

/-! ## Calls and returns -/

theorem execute_ret : m.execute keys .ret =
    (Outcome.ofExcept m.processor m.processor.ret).inside ({ m with processor := · }) := rfl

theorem execute_call {target : Address} : m.execute keys (.call target) =
    (Outcome.ofExcept m.processor (m.processor.call target.val)).inside
      ({ m with processor := · }) := rfl

theorem execute_ret_of_pop? {addr : Int} {calls : CallStack}
    (h : m.processor.calls.pop? = some (addr, calls)) :
    m.execute keys .ret =
      .done { m with processor := { m.processor with calls, pc := addr + 2 } } () := by
  have hr : m.processor.ret = .ok { m.processor with calls, pc := addr + 2 } := by
    rw [Processor.ret, h]
  rw [execute_ret, hr]
  rfl

theorem execute_ret_of_pop?_none (h : m.processor.calls.pop? = none) :
    m.execute keys .ret = .stopped m (.callUnderflow m.processor.pc) := by
  have hr : m.processor.ret = .error (.callUnderflow m.processor.pc) := by
    rw [Processor.ret, h]
  rw [execute_ret, hr]
  rfl

theorem execute_call_of_push? {target : Address} {calls : CallStack}
    (h : m.processor.calls.push? m.processor.pc = some calls) :
    m.execute keys (.call target) =
      .done { m with processor := { m.processor with calls, pc := target.val } } () := by
  have ht : ((target.val : Nat) : Int) % 0x1000 = target.val := by omega
  have hc : m.processor.call target.val =
      .ok { m.processor with calls, pc := target.val } := by
    rw [Processor.call, h, ht]
  rw [execute_call, hc]
  rfl

theorem execute_call_of_push?_none {target : Address}
    (h : m.processor.calls.push? m.processor.pc = none) :
    m.execute keys (.call target) = .stopped m (.callOverflow m.processor.pc) := by
  have hc : m.processor.call target.val = .error (.callOverflow m.processor.pc) := by
    rw [Processor.call, h]
  rw [execute_call, hc]
  rfl

/-! ## Writing to memory -/

theorem execute_storeDecimal {x : Nibble} :
    m.execute keys (.storeDecimal x) = m.store (decimalDigits (m.reg x)) advance := rfl

theorem execute_saveRegisters {x : Nibble} :
    m.execute keys (.saveRegisters x) =
      m.store ((registersUpTo x).map m.reg) (passRegisters x) := rfl

/-- The machine with bytes written from the index register up, as far as memory reaches. -/
def stored (m : Machine) (bytes : List UInt8) : Machine :=
  { m with memory := (m.memory.writeAll m.processor.index.toNat bytes).state }

@[simp] theorem processor_stored (m : Machine) (bytes : List UInt8) :
    (m.stored bytes).processor = m.processor := rfl

@[simp] theorem memory_stored (m : Machine) (bytes : List UInt8) :
    (m.stored bytes).memory = (m.memory.writeAll m.processor.index.toNat bytes).state := rfl

theorem store_eq (m : Machine) (bytes : List UInt8) (after : Machine → Machine) :
    m.store bytes after =
      match (m.memory.writeAll m.processor.index.toNat bytes).answer with
      | .ok _ => .done (after (m.stored bytes)) ()
      | .error e => .stopped (m.stored bytes) e := rfl

theorem store_of_fits {bytes : List UInt8} (after : Machine → Machine)
    (h : m.processor.index.toNat + bytes.length ≤ Memory.size) :
    m.store bytes after = .done (after (m.stored bytes)) () := by
  have hw := Memory.fault?_writeAll m.memory m.processor.index.toNat bytes
  rw [if_pos (.inr h)] at hw
  obtain ⟨⟨⟩, ho⟩ := Outcome.exists_eq_done_of_fault? hw
  rw [store_eq, ho, Outcome.done]

theorem store_of_exceeds {bytes : List UInt8} (after : Machine → Machine) (hne : bytes ≠ [])
    (h : Memory.size < m.processor.index.toNat + bytes.length) :
    m.store bytes after =
      .stopped (m.stored bytes) (.bus (max m.processor.index.toNat Memory.size : Nat)) := by
  have hw := Memory.fault?_writeAll m.memory m.processor.index.toNat bytes
  rw [if_neg (by simp only [hne, false_or]; omega)] at hw
  rw [store_eq, Outcome.answer_eq_error_iff.2 hw]

/-! ## Reading from memory -/

theorem execute_loadRegisters {x : Nibble} :
    m.execute keys (.loadRegisters x) = m.restore (registersUpTo x) (passRegisters x) := rfl

theorem readRegisters_cons_of_lt {mem : Memory} (p : Processor) {addr : Nat} (x : Nibble)
    (xs : List Nibble) (h : addr < Memory.size) :
    readRegisters mem p addr (x :: xs) =
      readRegisters mem (p.setReg x (mem.byte addr)) ((addr + 1 : Nat) : Int) xs := by
  rw [readRegisters, Memory.read_ofNat h]
  rfl

theorem readRegisters_cons_of_size_le {mem : Memory} (p : Processor) {addr : Nat} (x : Nibble)
    (xs : List Nibble) (h : Memory.size ≤ addr) :
    readRegisters mem p addr (x :: xs) = .stopped p (.bus addr) := by
  rw [readRegisters, Memory.read_of_size_le h]

/-- Only registers are read into. -/
theorem state_readRegisters (mem : Memory) (p : Processor) (addr : Nat) (xs : List Nibble) :
    (readRegisters mem p addr xs).state =
      { p with v := (readRegisters mem p addr xs).state.v } := by
  induction xs generalizing p addr with
  | nil => rfl
  | cons x xs ih =>
    by_cases h : addr < Memory.size
    · rw [readRegisters_cons_of_lt p x xs h, ih]
      rfl
    · rw [readRegisters_cons_of_size_le p x xs (Nat.le_of_not_lt h)]
      rfl

theorem reg_readRegisters_of_notMem (mem : Memory) (p : Processor) (addr : Nat)
    {xs : List Nibble} {r : Nibble} (h : r ∉ xs) :
    (readRegisters mem p addr xs).state.reg r = p.reg r := by
  induction xs generalizing p addr with
  | nil => rfl
  | cons x xs ih =>
    obtain ⟨hne, hxs⟩ := not_or.1 (mt List.mem_cons.2 h)
    by_cases ha : addr < Memory.size
    · rw [readRegisters_cons_of_lt p x xs ha, ih _ _ hxs, Processor.reg_setReg,
        if_neg (Ne.symm hne)]
    · rw [readRegisters_cons_of_size_le p x xs (Nat.le_of_not_lt ha)]
      rfl

/-- Every register of the list holds its byte if that lies in memory, and is as before if not. -/
theorem reg_readRegisters (mem : Memory) (p : Processor) (addr : Nat) {xs : List Nibble}
    (hxs : xs.Nodup) {k : Nat} {r : Nibble} (hk : xs[k]? = some r) :
    (readRegisters mem p addr xs).state.reg r =
      if addr + k < Memory.size then mem.byte (addr + k) else p.reg r := by
  induction xs generalizing p addr k with
  | nil => cases hk
  | cons x xs ih =>
    obtain ⟨hx, hxs⟩ := List.nodup_cons.1 hxs
    by_cases ha : addr < Memory.size
    · rw [readRegisters_cons_of_lt p x xs ha]
      cases k with
      | zero =>
        obtain rfl : x = r := Option.some.inj hk
        rw [reg_readRegisters_of_notMem mem _ _ hx, Processor.reg_setReg, if_pos rfl]
        exact (if_pos ha).symm
      | succ k =>
        have hr : r ∈ xs := List.mem_of_getElem? hk
        have hne : x ≠ r := fun hxr => hx (hxr ▸ hr)
        rw [ih _ _ hxs hk, Processor.reg_setReg, if_neg hne, Nat.add_right_comm, Nat.add_assoc]
    · have ha := Nat.le_of_not_lt ha
      rw [readRegisters_cons_of_size_le p x xs ha, if_neg (by omega)]
      rfl

/-- Reading is cut short exactly if the registers reach over the end of memory. -/
theorem fault?_readRegisters (mem : Memory) (p : Processor) (addr : Nat) (xs : List Nibble) :
    (readRegisters mem p addr xs).fault? =
      if xs = [] ∨ addr + xs.length ≤ Memory.size then none
      else some (.bus (max addr Memory.size : Nat)) := by
  induction xs generalizing p addr with
  | nil => rfl
  | cons x xs ih =>
    by_cases h : addr < Memory.size
    · rw [readRegisters_cons_of_lt p x xs h, ih, List.length_cons]
      by_cases hl : addr + 1 + xs.length ≤ Memory.size
      · rw [if_pos (.inr hl), if_pos (.inr (by omega))]
      · have hne : xs ≠ [] := by
          rintro rfl
          simp only [List.length_nil] at hl
          omega
        rw [if_neg (by simp [hne, hl]), if_neg (by simp; omega), Nat.max_eq_right (by omega),
          Nat.max_eq_right (by omega)]
    · have h := Nat.le_of_not_lt h
      rw [readRegisters_cons_of_size_le p x xs h, if_neg (by simp; omega), Nat.max_eq_left h]
      rfl

theorem length_registersUpTo (x : Nibble) : (registersUpTo x).length = x.val + 1 := by
  rw [registersUpTo, List.length_take, List.length_finRange]
  omega

theorem nodup_registersUpTo (x : Nibble) : (registersUpTo x).Nodup :=
  (List.nodup_finRange 16).sublist (List.take_sublist _ _)

theorem mem_registersUpTo_iff {x r : Nibble} : r ∈ registersUpTo x ↔ r ≤ x := by
  revert x r
  decide +kernel

theorem getElem?_registersUpTo {x r : Nibble} (h : r ≤ x) :
    (registersUpTo x)[r.val]? = some r := by
  revert x r
  decide +kernel

/-- The machine with registers read from the index register up, as far as memory reaches. -/
def restored (m : Machine) (xs : List Nibble) : Machine :=
  { m with
    processor := (readRegisters m.memory m.processor m.processor.index.toNat xs).state }

/-- Restoring registers changes nothing else in the processor. -/
theorem processor_restored (m : Machine) (xs : List Nibble) :
    (m.restored xs).processor = { m.processor with v := (m.restored xs).processor.v } :=
  state_readRegisters m.memory m.processor m.processor.index.toNat xs

@[simp] theorem memory_restored (m : Machine) (xs : List Nibble) :
    (m.restored xs).memory = m.memory := rfl

theorem reg_restored_eq (m : Machine) (xs : List Nibble) (r : Nibble) :
    (m.restored xs).reg r =
      (readRegisters m.memory m.processor m.processor.index.toNat xs).state.reg r := rfl

theorem reg_restored_of_le (m : Machine) {x r : Nibble} (h : r ≤ x) :
    (m.restored (registersUpTo x)).reg r =
      if m.processor.index.toNat + r.val < Memory.size then
        m.memory.byte (m.processor.index.toNat + r.val)
      else m.reg r := by
  rw [reg_restored_eq, reg_readRegisters _ _ _ (nodup_registersUpTo x) (getElem?_registersUpTo h)]
  rfl

theorem reg_restored_of_lt (m : Machine) {x r : Nibble} (h : x < r) :
    (m.restored (registersUpTo x)).reg r = m.reg r := by
  have hr : r ∉ registersUpTo x := fun hr => Nat.not_le_of_lt h (mem_registersUpTo_iff.1 hr)
  rw [reg_restored_eq, reg_readRegisters_of_notMem _ _ _ hr]
  rfl

theorem restore_eq (m : Machine) (xs : List Nibble) (after : Machine → Machine) :
    m.restore xs after =
      match (readRegisters m.memory m.processor m.processor.index.toNat xs).answer with
      | .ok _ => .done (after (m.restored xs)) ()
      | .error e => .stopped (m.restored xs) e := rfl

theorem restore_of_fits {xs : List Nibble} (after : Machine → Machine)
    (h : m.processor.index.toNat + xs.length ≤ Memory.size) :
    m.restore xs after = .done (after (m.restored xs)) () := by
  have hr := fault?_readRegisters m.memory m.processor m.processor.index.toNat xs
  rw [if_pos (.inr h)] at hr
  obtain ⟨⟨⟩, ho⟩ := Outcome.exists_eq_done_of_fault? hr
  rw [restore_eq, ho, Outcome.done]

theorem restore_of_exceeds {xs : List Nibble} (after : Machine → Machine) (hne : xs ≠ [])
    (h : Memory.size < m.processor.index.toNat + xs.length) :
    m.restore xs after =
      .stopped (m.restored xs) (.bus (max m.processor.index.toNat Memory.size : Nat)) := by
  have hr := fault?_readRegisters m.memory m.processor m.processor.index.toNat xs
  rw [if_neg (by simp only [hne, false_or]; omega)] at hr
  rw [restore_eq, Outcome.answer_eq_error_iff.2 hr]

/-! ## Drawing -/

theorem execute_draw {x y n : Nibble} :
    m.execute keys (.draw x y n) = m.drawSprite x y n := rfl

/-- A sprite of a height drawn at `(VX, VY)` from the index register up. -/
def sprite (m : Machine) (x y : Nibble) (height : Int) : Outcome Fault Screen Bool :=
  m.screen.draw m.memory (m.reg x).toNat (m.reg y).toNat height m.processor.index.toNat

/-- The machine with the rows of a sprite drawn that lie in memory, and the instruction passed. -/
def drawn (m : Machine) (x y n : Nibble) : Machine :=
  { m.advance with screen := (m.sprite x y n.val).state }

theorem drawSprite_eq (m : Machine) (x y n : Nibble) :
    m.drawSprite x y n =
      match (m.sprite x y n.val).answer with
      | .ok hit =>
        .done { (m.drawn x y n).setFlag hit with signals := ⟨true, m.signals.tone⟩ } ()
      | .error e => .stopped (m.drawn x y n) e := rfl

theorem drawSprite_of_fits (hp : m.screen.HasPixels) {x y n : Nibble}
    (h : n.val = 0 ∨ m.processor.index.toNat + n.val ≤ Memory.size) :
    ∃ hit, (m.sprite x y n.val).answer = .ok hit ∧
      m.drawSprite x y n =
        .done { (m.drawn x y n).setFlag hit with signals := ⟨true, m.signals.tone⟩ } () := by
  have hf : (m.sprite x y n.val).fault? = none := by
    rw [sprite, Screen.draw, Screen.fault?_drawRows hp, if_pos (by simpa using h)]
  obtain ⟨hit, ho⟩ := Outcome.exists_eq_done_of_fault? hf
  have ha : (m.sprite x y n.val).answer = .ok hit := by rw [ho, Outcome.done]
  refine ⟨hit, ha, ?_⟩
  rw [drawSprite_eq, ha]

theorem drawSprite_of_exceeds (hp : m.screen.HasPixels) {x y n : Nibble} (hn : 0 < n.val)
    (h : Memory.size < m.processor.index.toNat + n.val) :
    m.drawSprite x y n =
      .stopped (m.drawn x y n) (.bus (max m.processor.index.toNat Memory.size : Nat)) := by
  have hf : (m.sprite x y n.val).fault? =
      some (.bus (max m.processor.index.toNat Memory.size : Nat)) := by
    rw [sprite, Screen.draw, Screen.fault?_drawRows hp, if_neg (by simp; omega)]
  rw [drawSprite_eq, Outcome.answer_eq_error_iff.2 hf]

/-! ## All other instructions -/

theorem calculate_eq (m : Machine) (op : Arithmetic) (x y : Nibble) :
    m.calculate op x y =
      { m with processor := { m.processor with v := (m.calculate op x y).processor.v } } := by
  unfold calculate
  dsimp only
  cases op.flag? (m.reg x) (m.reg y) <;> rfl

theorem toNat_index_setIndex (m : Machine) (value : Int) :
    (m.setIndex value).processor.index.toNat = (value % 65536).toNat := by
  show (UInt16.ofNat (value % 2 ^ 16).toNat).toNat = _
  rw [UInt16.toNat_ofNat']
  omega

theorem skipIf_eq (m : Machine) (c : Bool) :
    m.skipIf c =
      { m with
        processor := { m.processor with pc := m.processor.pc + if c then 4 else 2 } } := by
  cases c
  · rfl
  · have h : m.processor.pc + 2 + 2 = m.processor.pc + 4 := by omega
    simp only [skipIf, advance, Processor.advance, h]
    rfl

/-- Waiting for a key takes the greatest one that is pressed and goes on, or does nothing. -/
theorem execute_waitKey (m : Machine) (keys : Keys) (x : Nibble) :
    m.execute keys (.waitKey x) =
      .done (keys.greatest?.elim m fun k => (m.setReg x (UInt8.ofNat k.val)).advance) () := by
  unfold execute
  dsimp only
  cases keys.greatest? <;> rfl

theorem fault?_execute_of_canFault_eq_false (m : Machine) (keys : Keys) {i : Instruction}
    (h : i.canFault = false) :
    (m.execute keys i).fault? = none := by
  cases i with
  | ret | call | draw | storeDecimal | saveRegisters | loadRegisters => cases h
  | waitKey x => rw [execute_waitKey, Outcome.fault?_done]
  | _ => rfl

end ChipEight.Machine
