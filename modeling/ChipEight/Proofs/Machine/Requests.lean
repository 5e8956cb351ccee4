import ChipEight.Proofs.Machine.Faults

/-!
# Machines in use

A host builds a machine and asks things of it, one after another; a request that is refused or
cut short leaves what it leaves, and the next one follows. The machines that come up in this way
are the reachable ones, and all of them are within bounds: the program counter can leave the
words of memory by a few bytes only, since it must be fetched from before it moves on, and the
call stack holds nothing but addresses that were fetched from.

## Main definitions

* `Request`, `Machine.perform`: what a host can ask for, and the machine after it.
* `Machine.Reachable`: the machines that come up in use.
* `Machine.Bounded`: the bounds that no type of a part of a machine carries already.
* `Machine.InRange`: the range of every part of a machine.
-/

namespace ChipEight

inductive Request where
  | load (program : List UInt8)
  | loadFile (files : Files) (path : String)
  | tick (keys : Keys)
  | run (keys : Keys) (n : Int)
  | reset
  | setRegister (number value : Int)
  | setIndex (value : Int)
  | write (addr value : Int)
  | setDelay (value : Int)
  | setSound (value : Int)

namespace Machine

/-- The machine after a request, which is the machine before it if the request is refused. -/
def perform (m : Machine) : Request → Machine
  | .load program =>
    match m.load program with
    | .ok t => t
    | .error _ => m
  | .loadFile files path =>
    match m.loadFile files path with
    | .ok (t, _) => t
    | .error _ => m
  | .tick keys => (m.tick keys).state
  | .run keys n => (m.run keys n).state
  | .reset => m.reset
  | .setRegister number value =>
    match m.processor.setRegister number value with
    | .ok processor => { m with processor }
    | .error _ => m
  | .setIndex value => m.setIndex value
  | .write addr value =>
    match m.memory.write addr value with
    | .ok memory => { m with memory }
    | .error _ => m
  | .setDelay value => { m with delay := .ofInt value }
  | .setSound value => { m with sound := .ofInt value }

/-- The machines that come up when a fresh machine is used. -/
inductive Reachable : Machine → Prop where
  | fresh (random : Random.Source) : Reachable (.fresh random)
  | perform {m : Machine} (h : Reachable m) (r : Request) : Reachable (m.perform r)

theorem Reachable.foldl_perform {m : Machine} (h : m.Reachable) (requests : List Request) :
    (requests.foldl Machine.perform m).Reachable := by
  induction requests generalizing m with
  | nil => exact h
  | cons r requests ih => exact ih (h.perform r)

end Machine

/-! ## Bounds -/

/-- Every entry, be it live or stale, is the address of a word in memory. -/
def CallStack.Bounded (s : CallStack) : Prop := ∀ a ∈ s.entries.toList, 0 ≤ a ∧ a ≤ 4094

namespace CallStack.Bounded

theorem empty : CallStack.empty.Bounded := by
  intro a ha
  rw [CallStack.empty, Vector.toList_replicate] at ha
  obtain rfl := List.eq_of_mem_replicate ha
  decide

theorem push? {s t : CallStack} {addr : Int} (hs : s.Bounded) (h₀ : 0 ≤ addr) (h : addr ≤ 4094)
    (ht : s.push? addr = some t) : t.Bounded := by
  intro a ha
  rw [CallStack.push?] at ht
  split at ht
  · cases ht
    rw [Vector.toList_set] at ha
    obtain hm | rfl := List.mem_or_eq_of_mem_set ha
    · exact hs a hm
    · exact ⟨h₀, h⟩
  · cases ht

theorem pop? {s t : CallStack} {addr : Int} (hs : s.Bounded) (ht : s.pop? = some (addr, t)) :
    t.Bounded ∧ 0 ≤ addr ∧ addr ≤ 4094 := by
  obtain ⟨entries, depth, hd⟩ := s
  cases depth with
  | zero => cases ht
  | succ n =>
    cases ht
    exact ⟨hs, hs _ (by simp)⟩

end CallStack.Bounded

namespace Machine

variable {m : Machine} {keys : Keys}

structure Bounded (m : Machine) : Prop where
  pc_nonneg : 0 ≤ m.processor.pc
  pc_le : m.processor.pc ≤ 4098
  calls : m.processor.calls.Bounded
  width : m.screen.width = Screen.usualWidth
  height : m.screen.height = Screen.usualHeight
  binary : m.screen.Binary

namespace Bounded

theorem hasPixels (h : m.Bounded) : m.screen.HasPixels := by
  rw [Screen.HasPixels, h.width, h.height]
  decide

theorem fresh (random : Random.Source) : (Machine.fresh random).Bounded where
  pc_nonneg := (by decide : (0 : Int) ≤ 0x200)
  pc_le := (by decide : (0x200 : Int) ≤ 4098)
  calls := .empty
  width := rfl
  height := rfl
  binary := .clear .usual

theorem reset (h : m.Bounded) : m.reset.Bounded where
  pc_nonneg := (by decide : (0 : Int) ≤ 0x200)
  pc_le := (by decide : (0x200 : Int) ≤ 4098)
  calls := .empty
  width := h.width
  height := h.height
  binary := .clear m.screen

/-- Bounds are about the program counter, the call stack and the screen alone. -/
theorem congr {t : Machine} (h : m.Bounded) (hpc : t.processor.pc = m.processor.pc)
    (hcalls : t.processor.calls = m.processor.calls) (hscreen : t.screen = m.screen) :
    t.Bounded where
  pc_nonneg := hpc ▸ h.pc_nonneg
  pc_le := hpc ▸ h.pc_le
  calls := hcalls ▸ h.calls
  width := hscreen ▸ h.width
  height := hscreen ▸ h.height
  binary := hscreen ▸ h.binary

/-- An instruction that was fetched keeps the bounds, be it completed or cut short. -/
theorem execute (h : m.Bounded) (hpc : m.processor.pc ≤ 4094) (keys : Keys)
    (i : Instruction) :
    (m.execute keys i).state.Bounded := by
  have hk := keeps_execute m keys i
  have hw := hk.width.trans h.width
  have hh := hk.height.trans h.height
  have hb := hk.binary h.binary
  have h₀ := h.pc_nonneg
  cases ht : i.transfersControl with
  | false =>
    have hs : m.StepsOn (m.execute keys i).state := stepsOn_execute ht
    have hm := hs.pc
    exact ⟨by omega, by omega, hs.calls ▸ h.calls, hw, hh, hb⟩
  | true =>
    cases i with
    | ret =>
      cases hp : m.processor.calls.pop? with
      | none =>
        rw [execute_ret_of_pop?_none hp]
        exact h
      | some popped =>
        obtain ⟨hc, ha₀, ha⟩ := h.calls.pop? hp
        rw [execute_ret_of_pop? hp] at hw hh hb ⊢
        exact ⟨by simp only [Outcome.state_done]; omega, by simp only [Outcome.state_done]; omega,
          hc, hw, hh, hb⟩
    | call target =>
      cases hp : m.processor.calls.push? m.processor.pc with
      | none =>
        rw [execute_call_of_push?_none hp]
        exact h
      | some pushed =>
        have hlt := target.isLt
        rw [execute_call_of_push? hp] at hw hh hb ⊢
        exact ⟨Int.natCast_nonneg _, by simp only [Outcome.state_done]; omega,
          h.calls.push? h₀ hpc hp, hw, hh, hb⟩
    | jump target | jumpOffset target =>
      have hlt := target.isLt
      have hle : (target.val : Int) ≤ 4098 := by omega
      exact ⟨Int.natCast_nonneg _, hle, h.calls, hw, hh, hb⟩
    | _ => cases ht

theorem tick (h : m.Bounded) (keys : Keys) : (m.tick keys).state.Bounded := by
  have hq : m.quieten.Bounded := h.congr rfl rfl rfl
  obtain ⟨e, -, ht⟩ | ⟨f, t, e, hf, hx, ht⟩ | ⟨f, t, hf, hx, ht⟩ := m.tick_cases keys
  · rw [ht]
    exact hq
  · have hs := hq.execute (pc_of_fetch hf).2 keys f.instruction
    rw [hx] at hs
    rw [ht]
    exact hs
  · have hs := hq.execute (pc_of_fetch hf).2 keys f.instruction
    rw [hx] at hs
    rw [ht]
    exact hs.congr rfl rfl rfl

end Bounded

/-- What every tick keeps, a run of ticks keeps, be it completed or cut short. -/
theorem runTicks_keeps {P : Machine → Prop} (step : ∀ m, P m → P (m.tick keys).state)
    (h : P m) (redraws n : Nat) : P (m.runTicks keys redraws n).state := by
  induction n generalizing m redraws with
  | zero => exact h
  | succ n ih =>
    have hs := step m h
    rw [runTicks]
    rcases ht : m.tick keys with ⟨t, e | signals⟩
    · rw [ht] at hs
      exact hs
    · rw [ht] at hs
      exact ih hs _

namespace Bounded

theorem load {t : Machine} {program : List UInt8} (h : m.Bounded)
    (ht : m.load program = .ok t) : t.Bounded := by
  rw [Machine.load] at ht
  cases hl : m.memory.load program with
  | error e =>
    rw [hl] at ht
    cases ht
  | ok memory =>
    rw [hl] at ht
    cases ht
    exact h.congr rfl rfl rfl

theorem loadFile {t : Machine} {files : Files} {path : String} {size : Nat} (h : m.Bounded)
    (ht : m.loadFile files path = .ok (t, size)) : t.Bounded := by
  rw [Machine.loadFile] at ht
  split at ht
  · cases ht
  · split at ht
    · cases ht
    · split at ht
      · cases ht
      · rename_i program _ _
        cases hl : m.load program with
        | error e =>
          rw [hl] at ht
          cases ht
        | ok t =>
          rw [hl] at ht
          cases ht
          exact h.load hl

theorem perform (h : m.Bounded) (r : Request) : (m.perform r).Bounded := by
  cases r with
  | load program =>
    rw [Machine.perform]
    split
    · exact h.load ‹_›
    · exact h
  | loadFile files path =>
    rw [Machine.perform]
    split
    · exact h.loadFile ‹_›
    · exact h
  | tick keys => exact h.tick keys
  | run keys n => exact runTicks_keeps (fun m h => h.tick keys) h 0 n.toNat
  | reset => exact h.reset
  | setRegister number value =>
    rw [Machine.perform, Processor.setRegister]
    cases Processor.register? number with
    | error e => exact h
    | ok x => exact h.congr rfl rfl rfl
  | write addr value =>
    rw [Machine.perform]
    split <;> exact h.congr rfl rfl rfl
  | setIndex value | setDelay value | setSound value => exact h.congr rfl rfl rfl

end Bounded

theorem Reachable.bounded (h : m.Reachable) : m.Bounded := by
  induction h with
  | fresh random => exact .fresh random
  | perform _ r ih => exact ih.perform r

/-! ## Ranges -/

/-- Every part of the machine has its size, and its values are in their range. -/
structure InRange (m : Machine) : Prop where
  registers : m.processor.v.toList.length = 16 ∧ ∀ b ∈ m.processor.v.toList, b.toNat ≤ 255
  index : m.processor.index.toNat ≤ 65535
  stack : m.processor.calls.entries.toList.length = 64 ∧
    ∀ a ∈ m.processor.calls.entries.toList, 0 ≤ a ∧ a ≤ 4094
  depth : m.processor.calls.depth ≤ 64
  pc : 0 ≤ m.processor.pc ∧ m.processor.pc ≤ 4098
  memory : m.memory.cells.toList.length = 4096 ∧ ∀ b ∈ m.memory.cells.toList, b.toNat ≤ 255
  screen : m.screen.grid.length = 2048 ∧ ∀ p ∈ m.screen.grid, p = 0 ∨ p = 1
  timers : m.delay.value.toNat ≤ 255 ∧ m.sound.value.toNat ≤ 255

theorem le_of_byte (b : UInt8) : b.toNat ≤ 255 := Nat.le_of_lt_succ b.toNat_lt

theorem Bounded.area (h : m.Bounded) : m.screen.area = 2048 := by
  rw [Screen.area, h.width, h.height]
  rfl

theorem Bounded.inRange (h : m.Bounded) : m.InRange where
  registers := ⟨Vector.length_toList, fun b _ => le_of_byte b⟩
  index := Nat.le_of_lt_succ m.processor.index.toNat_lt
  stack := ⟨Vector.length_toList, h.calls⟩
  depth := m.processor.calls.depth_le
  pc := ⟨h.pc_nonneg, h.pc_le⟩
  memory := ⟨Vector.length_toList, fun b _ => le_of_byte b⟩
  screen := by
    refine ⟨Vector.length_toList.trans h.area, fun p hp => ?_⟩
    obtain ⟨i, hi, rfl⟩ := List.getElem_of_mem hp
    have hb := h.binary i
    rw [Screen.grid, Vector.length_toList] at hi
    rwa [Screen.pixel, Vector.getElem?_eq_getElem hi] at hb
  timers := ⟨le_of_byte _, le_of_byte _⟩

/-- A tick uses no register that the machine does not have, and no side of length zero. -/
theorem Bounded.fault_tick (h : m.Bounded) {e : Fault} (he : (m.tick keys).fault? = some e) :
    (∃ addr, e = .bus addr) ∨ (∃ pc, e = .callOverflow pc) ∨ ∃ pc, e = .callUnderflow pc := by
  rw [fault?_tick h.hasPixels h.pc_nonneg] at he
  split at he
  · exact cases_of_faultOf he
  · cases he
    exact .inl ⟨_, rfl⟩

/-- A tick never divides by zero, so its fault is one that is reported. -/
theorem Bounded.isReported_tick (h : m.Bounded) {e : Fault}
    (he : (m.tick keys).fault? = some e) : e.isReported = true := by
  obtain ⟨addr, rfl⟩ | ⟨pc, rfl⟩ | ⟨pc, rfl⟩ := h.fault_tick he
  · rfl
  · rfl
  · rfl

/-- Whatever is asked of a fresh machine, in whatever order and with whatever success, every part
of it stays in its range. So a tick can only fault at an address or at the call stack, and no
sprite leaves the grid. -/
theorem inRange_foldl_perform (random : Random.Source) (requests : List Request) :
    let m := requests.foldl perform (fresh random)
    m.InRange ∧
    (∀ keys e, (m.tick keys).answer = .error e →
      (∃ addr, e = .bus addr) ∨ (∃ pc, e = .callOverflow pc) ∨ ∃ pc, e = .callUnderflow pc) ∧
    ∀ bits x y, ∀ i ∈ m.screen.rowPositions bits x y, i < m.screen.area := by
  intro m
  have h : m.Bounded := ((Reachable.fresh random).foldl_perform requests).bounded
  refine ⟨h.inRange, fun keys e he => ?_, fun bits x y i hi => ?_⟩
  · exact h.fault_tick (Outcome.answer_eq_error_iff.1 he)
  · exact Screen.lt_area_of_mem_rowPositions h.hasPixels hi

end Machine

end ChipEight
