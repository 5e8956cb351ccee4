import ChipEight.Proofs.Machine.Requests
import ChipEight.Proofs.Machine.Ticks

/-!
# Runs that repeat after a reset

A reset keeps memory, the source of random bytes and the wish for a trace, and puts everything else
back, so whatever a tick leaves elsewhere is forgotten by it. A run whose instructions neither
write to memory nor take a random byte is therefore undone by a reset as a whole, and the same
ticks give the same outcomes once more.
-/

namespace ChipEight.Machine

variable {m t : Machine} {keys : Keys} {i : Instruction} {program : List UInt8}

/-! ## What a reset forgets -/

/-- Two machines are the same after a reset if they have the parts in common that a reset keeps. -/
theorem reset_congr (hmemory : t.memory = m.memory) (hrandom : t.random = m.random)
    (htrace : t.trace = m.trace) (hwidth : t.screen.width = m.screen.width)
    (hheight : t.screen.height = m.screen.height) : t.reset = m.reset := by
  simp only [reset, Screen.clear, hmemory, hrandom, htrace, hwidth, hheight]

theorem reset_execute (hw : i.writesMemory = false) (hb : i.takesByte = false) :
    (m.execute keys i).state.reset = m.reset := by
  have hk : m.screen.Keeps (m.execute keys i).state.screen := keeps_execute m keys i
  obtain ⟨hrandom, htrace⟩ := random_trace_execute m keys i
  rw [hb] at hrandom
  exact reset_congr (memory_execute hw) hrandom htrace hk.width hk.height

/-- A reset after a tick does as much as a reset before it, unless the tick writes to memory or
takes a random byte. -/
theorem reset_tick (h : ∀ i ∈ m.next?, i.writesMemory = false ∧ i.takesByte = false) :
    (m.tick keys).state.reset = m.reset := by
  rw [part_tick reset (fun m => rfl) (fun m => rfl)]
  cases hi : m.next? with
  | none => rfl
  | some i =>
    obtain ⟨hw, hb⟩ := h i hi
    exact reset_execute hw hb

/-- A machine that has only been loaded is as a reset leaves it. -/
theorem reset_load {random : Random.Source} (h : (fresh random).load program = .ok m) :
    m.reset = m := by
  rw [load] at h
  cases hl : (fresh random).memory.load program with
  | error e =>
    rw [hl] at h
    cases h
  | ok memory =>
    rw [hl] at h
    cases h
    rfl

theorem exists_load (random : Random.Source) (h : program.length ≤ programLimit) :
    ∃ m, (fresh random).load program = .ok m := by
  rw [load, Memory.load, if_pos h]
  exact ⟨_, rfl⟩

/-! ## The second pass -/

/-- A program that fits can be loaded. If no tick of a run of it writes to memory or takes a random
byte, then a reset leads back to the machine as it was loaded, and the ticks of a second run give
outcome by outcome what the first ones gave: the same signals, the same faults and the same
machines. -/
theorem outcomes_after_reset (random : Random.Source) (h : program.length ≤ programLimit) :
    ∃ m, (fresh random).load program = .ok m ∧
      ∀ reports : List Keys,
        (∀ u ∈ m.visits reports, ∀ i ∈ u.next?, i.writesMemory = false ∧ i.takesByte = false) →
        (m.tickThrough reports).reset = m ∧
          (m.tickThrough reports).reset.outcomes reports = m.outcomes reports := by
  obtain ⟨m, hm⟩ := exists_load random h
  refine ⟨m, hm, fun reports hquiet => ?_⟩
  have hback : (m.tickThrough reports).reset = m.reset := by
    apply tickThrough_keeps (P := fun u => u.reset = m.reset) rfl
    intro u hu keys hkept
    exact (reset_tick (hquiet u hu)).trans hkept
  rw [hback, reset_load hm]
  exact ⟨rfl, rfl⟩

/-- Two ticks that fault stand at the end of this run, which draws a glyph, sets the delay timer and
leaves the site of a call on the stack; the second pass is as the first. -/
theorem outcomes_behind_returned_call :
    let program : List UInt8 :=
      [0x60, 0x05, 0xF0, 0x15, 0xD0, 0x05, 0x22, 0x0A, 0x00, 0xEE, 0x00, 0xEE]
    let m := (fresh (.tape [] 0)).perform (.load program)
    let reports := List.replicate 7 Keys.none
    let t := m.tickThrough reports
    (t.ticks = 5 ∧ t.screen.lit = 14 ∧ t.delay.value = 1 ∧
      t.processor.calls.entries[0]? = some 0x206) ∧
    t.reset.outcomes reports = m.outcomes reports := by
  intro program m reports t
  have hlength : program.length ≤ programLimit := by decide
  have hload : (fresh (.tape [] 0)).load program = .ok m := rfl
  have hquiet : ∀ u ∈ m.visits reports, ∀ i ∈ u.next?,
      i.writesMemory = false ∧ i.takesByte = false := by decide +kernel
  have hleft : t.ticks = 5 ∧ t.screen.lit = 14 ∧ t.delay.value = 1 ∧
      t.processor.calls.entries[0]? = some 0x206 := by decide +kernel
  obtain ⟨m', hm', hsame⟩ := outcomes_after_reset (.tape [] 0) hlength
  obtain rfl : m' = m := Except.ok.inj (hm'.symm.trans hload)
  exact ⟨hleft, (hsame reports hquiet).2⟩

end ChipEight.Machine
