import ChipEight.Proofs.Machine.Frame

/-!
# The faults of instructions

Which fault an instruction stops at is a function of the instruction, the depth of the call stack,
the program counter and the index register. `faultOf` is that function, and on a screen with
pixels it is exact.
-/

namespace ChipEight

open Memory (size)

namespace Machine

variable {m : Machine} {keys : Keys} {e : Fault}

/-- The fault of using `n` bytes from the index register up, if they reach over the end of
memory: it names the first address outside. -/
def overrun (m : Machine) (n : Nat) : Option Fault :=
  if 0 < n ∧ size < m.processor.index.toNat + n then
    some (.bus (max m.processor.index.toNat size : Nat))
  else none

/-- The fault at which an instruction stops, if there is one. -/
def faultOf (m : Machine) : Instruction → Option Fault
  | .ret =>
    if m.processor.calls.depth = 0 then some (.callUnderflow m.processor.pc) else none
  | .call _ =>
    if m.processor.calls.depth = callDepth then some (.callOverflow m.processor.pc) else none
  | .draw _ _ n => m.overrun n.val
  | .storeDecimal _ => m.overrun 3
  | .saveRegisters x | .loadRegisters x => m.overrun (x.val + 1)
  | _ => none

theorem overrun_of_fits {n : Nat} (h : n = 0 ∨ m.processor.index.toNat + n ≤ size) :
    m.overrun n = none := if_neg (by omega)

theorem overrun_of_exceeds {n : Nat} (hn : 0 < n) (h : size < m.processor.index.toNat + n) :
    m.overrun n = some (.bus (max m.processor.index.toNat size : Nat)) := if_pos ⟨hn, h⟩

theorem overrun_eq_some_iff {n : Nat} :
    m.overrun n = some e ↔
      (1 ≤ n ∧ size < m.processor.index.toNat + n) ∧
        e = .bus (max m.processor.index.toNat size : Nat) := by
  simp only [overrun, Option.ite_none_right_eq_some, Option.some.injEq, eq_comm (a := e)]
  rfl

theorem overrun_eq_none_iff {n : Nat} :
    m.overrun n = none ↔ n = 0 ∨ m.processor.index.toNat + n ≤ size := by
  simp only [overrun, ite_eq_right_iff, reduceCtorEq, imp_false]
  omega

theorem faultOf_ret_eq_some_iff :
    m.faultOf .ret = some e ↔
      m.processor.calls.depth = 0 ∧ e = .callUnderflow m.processor.pc := by
  simp only [faultOf, Option.ite_none_right_eq_some, Option.some.injEq, eq_comm (a := e)]

theorem faultOf_call_eq_some_iff {target : Address} :
    m.faultOf (.call target) = some e ↔
      m.processor.calls.depth = callDepth ∧ e = .callOverflow m.processor.pc := by
  simp only [faultOf, Option.ite_none_right_eq_some, Option.some.injEq, eq_comm (a := e)]

theorem faultOf_of_canFault_eq_false {i : Instruction} (h : i.canFault = false) :
    m.faultOf i = none := by
  cases i with
  | ret | call | draw | storeDecimal | saveRegisters | loadRegisters => cases h
  | _ => rfl

theorem cases_of_faultOf {i : Instruction} (h : m.faultOf i = some e) :
    (∃ addr, e = .bus addr) ∨ (∃ pc, e = .callOverflow pc) ∨ ∃ pc, e = .callUnderflow pc := by
  cases i with
  | ret => exact .inr (.inr ⟨_, (faultOf_ret_eq_some_iff.1 h).2⟩)
  | call target => exact .inr (.inl ⟨_, (faultOf_call_eq_some_iff.1 h).2⟩)
  | draw | storeDecimal | saveRegisters | loadRegisters =>
    exact .inl ⟨_, (overrun_eq_some_iff.1 h).2⟩
  | _ => cases h

theorem fault?_store {bytes : List UInt8} (after : Machine → Machine) (hne : bytes ≠ []) :
    (m.store bytes after).fault? = m.overrun bytes.length := by
  have hlen : 0 < bytes.length := List.length_pos_iff.2 hne
  by_cases h : m.processor.index.toNat + bytes.length ≤ size
  · rw [store_of_fits after h, overrun_of_fits (.inr h)]
    rfl
  · rw [store_of_exceeds after hne (Nat.lt_of_not_le h),
      overrun_of_exceeds hlen (Nat.lt_of_not_le h)]
    rfl

theorem fault?_restore {xs : List Nibble} (after : Machine → Machine) (hne : xs ≠ []) :
    (m.restore xs after).fault? = m.overrun xs.length := by
  have hlen : 0 < xs.length := List.length_pos_iff.2 hne
  by_cases h : m.processor.index.toNat + xs.length ≤ size
  · rw [restore_of_fits after h, overrun_of_fits (.inr h)]
    rfl
  · rw [restore_of_exceeds after hne (Nat.lt_of_not_le h),
      overrun_of_exceeds hlen (Nat.lt_of_not_le h)]
    rfl

theorem fault?_drawSprite (hp : m.screen.HasPixels) (x y n : Nibble) :
    (m.drawSprite x y n).fault? = m.overrun n.val := by
  by_cases h : n.val = 0 ∨ m.processor.index.toNat + n.val ≤ size
  · obtain ⟨hit, -, hd⟩ := drawSprite_of_fits hp (x := x) (y := y) h
    rw [hd, overrun_of_fits h]
    rfl
  · have hn : 0 < n.val := by omega
    have hx : size < m.processor.index.toNat + n.val := by omega
    rw [drawSprite_of_exceeds hp hn hx, overrun_of_exceeds hn hx]
    rfl

theorem registersUpTo_ne_nil (x : Nibble) : registersUpTo x ≠ [] := by
  rw [← List.length_pos_iff, length_registersUpTo]
  exact Nat.succ_pos _

theorem fault?_execute_ret : (m.execute keys .ret).fault? = m.faultOf .ret := by
  cases h : m.processor.calls.pop? with
  | none =>
    rw [execute_ret_of_pop?_none h, faultOf, if_pos]
    · rfl
    · rw [← CallStack.length_live, CallStack.pop?_eq_none_iff.1 h, List.length_nil]
  | some popped =>
    rw [execute_ret_of_pop? h, faultOf, if_neg]
    · rfl
    · rw [← CallStack.length_live, List.length_eq_zero_iff, ← CallStack.pop?_eq_none_iff, h]
      exact Option.some_ne_none _

theorem fault?_execute_call (target : Address) :
    (m.execute keys (.call target)).fault? = m.faultOf (.call target) := by
  cases h : m.processor.calls.push? m.processor.pc with
  | none =>
    rw [execute_call_of_push?_none h, faultOf, if_pos]
    · rfl
    · rw [← CallStack.length_live, CallStack.push?_eq_none_iff.1 h]
  | some pushed =>
    rw [execute_call_of_push? h, faultOf, if_neg]
    · rfl
    · rw [← CallStack.length_live, ← CallStack.push?_eq_none_iff, h]
      exact Option.some_ne_none _

theorem fault?_execute (hp : m.screen.HasPixels) (keys : Keys) (i : Instruction) :
    (m.execute keys i).fault? = m.faultOf i := by
  cases hi : i.canFault with
  | false =>
    rw [fault?_execute_of_canFault_eq_false m keys hi, faultOf_of_canFault_eq_false hi]
  | true =>
    cases i with
    | ret => exact fault?_execute_ret
    | call target => exact fault?_execute_call target
    | draw x y n => exact fault?_drawSprite hp x y n
    | storeDecimal x =>
      rw [execute_storeDecimal]
      exact fault?_store _ (List.cons_ne_nil _ _)
    | saveRegisters x =>
      have hne : (registersUpTo x).map m.reg ≠ [] := by
        rw [ne_eq, List.map_eq_nil_iff]
        exact registersUpTo_ne_nil x
      rw [execute_saveRegisters, fault?_store _ hne, List.length_map, length_registersUpTo]
      rfl
    | loadRegisters x =>
      rw [execute_loadRegisters, fault?_restore _ (registersUpTo_ne_nil x), length_registersUpTo]
      rfl
    | _ => cases hi

theorem fault?_tick_of_fetch {f : Fetched} (h : m.fetch = .ok f) :
    (m.tick keys).fault? = (m.quieten.execute keys f.instruction).fault? := by
  rcases hx : m.quieten.execute keys f.instruction with ⟨t, e | ⟨⟩⟩
  · rw [tick_of_stopped h hx]
    rfl
  · rw [tick_of_done h hx]
    rfl

/-- The fault of a tick, for a program counter that is not negative. -/
theorem fault?_tick (hp : m.screen.HasPixels) (h₀ : 0 ≤ m.processor.pc) :
    (m.tick keys).fault? =
      if m.processor.pc ≤ 4094 then
        m.faultOf (.decode (m.reg Processor.offset).toNat m.wordAtPc)
      else some (.bus m.processor.pc) := by
  split
  · have hf := fetch_of_inside h₀ ‹_›
    rw [fault?_tick_of_fetch hf]
    exact fault?_execute (m := m.quieten) hp keys _
  · rw [tick_of_fetch_error (fetch_of_outside (Int.lt_of_not_ge ‹_›))]
    rfl

end Machine

end ChipEight
