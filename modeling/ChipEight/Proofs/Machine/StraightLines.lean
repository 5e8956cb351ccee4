import ChipEight.Proofs.Machine.Requests
import ChipEight.Proofs.Machine.Ticks

/-!
# Ticks without jumps

An instruction that goes straight on leaves the program counter two or four bytes further up. No
instruction looks whether the program counter has left memory, but the next fetch does. So a
program that neither jumps, calls nor returns, and does not wait for a key that is not pressed, runs
out of memory: how many ticks can be completed before that is told by where they start.

## Main definitions

* `Instruction.goesStraight`: instructions that pass themselves, with or without the one behind.
* `Machine.StraightOn`: ticks that execute no other instructions for as long as none is cut short.
* `Machine.StopsWithin`: a tick is cut short behind a number of completed ones at most.
-/

namespace ChipEight

theorem Keys.greatest?_eq_none_iff {keys : Keys} :
    keys.greatest? = Option.none ↔ ∀ k : Key, keys.held k.val = false := by
  simp [greatest?, List.findRev?_eq_find?_reverse, Key.all]

/-- Whether the instruction goes on with one of the next two once it is completed. Waiting for a key
does if one is pressed. -/
def Instruction.goesStraight (keys : Keys) : Instruction → Bool
  | .waitKey _ => Key.all.any fun k => keys.held k.val
  | i => !i.transfersControl

namespace Machine

/-- Every tick that is completed goes straight on, up to the first one that is cut short. -/
def StraightOn (m : Machine) : List Keys → Prop
  | [] => True
  | keys :: reports =>
    (m.tick keys).fault? = none →
      (∀ i ∈ m.next?, i.goesStraight keys = true) ∧ (m.tick keys).state.StraightOn reports

instance decidableStraightOn :
    (m : Machine) → (reports : List Keys) → Decidable (m.StraightOn reports)
  | _, [] => inferInstanceAs (Decidable True)
  | m, keys :: reports =>
    have := (m.tick keys).state.decidableStraightOn reports
    inferInstanceAs (Decidable (_ → _ ∧ _))

/-- One of the ticks is cut short, and those before it are completed and not more than `n`. -/
def StopsWithin (m : Machine) (n : Int) (reports : List Keys) : Prop :=
  ∃ before keys after e, reports = before ++ keys :: after ∧ before.length ≤ n ∧
    m.completed before = before.length ∧ ((m.tickThrough before).tick keys).fault? = some e

variable {m t : Machine} {keys : Keys} {i : Instruction} {reports before after : List Keys}

/-! ## One tick -/

theorem pc_skipIf (m : Machine) (c : Bool) :
    (m.skipIf c).processor.pc = m.processor.pc + 2 ∨
      (m.skipIf c).processor.pc = m.processor.pc + 4 := by
  grind [skipIf_eq]

theorem pc_of_store {bytes : List UInt8} {after : Machine → Machine}
    (hafter : ∀ u, (after u).processor.pc = u.processor.pc + 2)
    (hx : m.store bytes after = .done t ()) : t.processor.pc = m.processor.pc + 2 := by
  rw [store_eq] at hx
  split at hx <;> cases hx
  rw [hafter, processor_stored]

theorem pc_of_restore {xs : List Nibble} {after : Machine → Machine}
    (hafter : ∀ u, (after u).processor.pc = u.processor.pc + 2)
    (hx : m.restore xs after = .done t ()) : t.processor.pc = m.processor.pc + 2 := by
  rw [restore_eq] at hx
  split at hx <;> cases hx
  rw [hafter, processor_restored]

/-- A completed instruction that goes straight on moves the program counter by two or four. -/
theorem pc_of_goesStraight (hx : m.execute keys i = .done t ())
    (hi : i.goesStraight keys = true) :
    t.processor.pc = m.processor.pc + 2 ∨ t.processor.pc = m.processor.pc + 4 := by
  cases i with
  | ret | jump | call | jumpOffset => cases hi
  | skipEqualByte | skipUnequalByte | skipEqual | skipUnequal | skipPressed | skipReleased =>
    cases hx
    exact pc_skipIf m _
  | arithmetic op x y =>
    cases hx
    exact .inl (congrArg (·.processor.pc) (calculate_eq m.advance op x y))
  | draw x y n =>
    rw [execute_draw, drawSprite_eq] at hx
    split at hx <;> cases hx
    exact .inl rfl
  | waitKey x =>
    rw [execute_waitKey] at hx
    cases hk : keys.greatest? with
    | none =>
      have hnone := Keys.greatest?_eq_none_iff.1 hk
      simp [Instruction.goesStraight, hnone] at hi
    | some k =>
      rw [hk] at hx
      cases hx
      exact .inl rfl
  | storeDecimal x =>
    rw [execute_storeDecimal] at hx
    exact .inl (pc_of_store (fun u => rfl) hx)
  | saveRegisters x =>
    rw [execute_saveRegisters] at hx
    exact .inl (pc_of_store (fun u => rfl) hx)
  | loadRegisters x =>
    rw [execute_loadRegisters] at hx
    exact .inl (pc_of_restore (fun u => rfl) hx)
  | _ =>
    cases hx
    exact .inl rfl

/-- A completed tick that goes straight on was fetched inside of memory. -/
theorem pc_tick (hok : (m.tick keys).fault? = none)
    (hi : ∀ i ∈ m.next?, i.goesStraight keys = true) :
    m.processor.pc ≤ 4094 ∧
      ((m.tick keys).state.processor.pc = m.processor.pc + 2 ∨
        (m.tick keys).state.processor.pc = m.processor.pc + 4) := by
  obtain ⟨e, -, ht⟩ | ⟨f, t, e, -, -, ht⟩ | ⟨f, t, hf, hx, ht⟩ := m.tick_cases keys
  · rw [ht] at hok
    cases hok
  · rw [ht] at hok
    cases hok
  · rw [ht]
    have hstraight : f.instruction.goesStraight keys = true := hi _ (next?_of_fetch hf)
    have hmoved := pc_of_goesStraight hx hstraight
    exact ⟨(pc_of_fetch hf).2, hmoved⟩

/-! ## Many ticks -/

/-- All ticks are completed, or there is a first one that is not. -/
theorem completed_eq_length_or_stops (m : Machine) (reports : List Keys) :
    m.completed reports = reports.length ∨ m.StopsWithin reports.length reports := by
  induction reports generalizing m with
  | nil => exact .inl rfl
  | cons keys reports ih =>
    cases he : (m.tick keys).fault? with
    | some e => exact .inr ⟨[], keys, reports, e, rfl, Int.natCast_nonneg _, rfl, he⟩
    | none =>
      obtain hall | ⟨before, keys', after, e, rfl, -, hc, he'⟩ := ih (m.tick keys).state
      · exact .inl (completed_cons_eq_length_iff.2 ⟨he, hall⟩)
      · have hc' := completed_cons_eq_length_iff.2 ⟨he, hc⟩
        exact .inr ⟨keys :: before, keys', after, e, rfl, by simp; omega, hc', he'⟩

theorem StraightOn.append (hs : m.StraightOn (before ++ after)) :
    m.StraightOn before ∧
      (m.completed before = before.length → (m.tickThrough before).StraightOn after) := by
  induction before generalizing m with
  | nil => exact ⟨trivial, fun _ => hs⟩
  | cons keys before ih =>
    constructor
    · intro hok
      obtain ⟨hi, hrest⟩ := hs hok
      exact ⟨hi, (ih hrest).1⟩
    · intro hc
      obtain ⟨hok, hc⟩ := completed_cons_eq_length_iff.1 hc
      exact (ih (hs hok).2).2 hc

/-- Over completed ticks that go straight on the program counter moves up, each time by an even
number, and all of them but the last leave it inside of memory. -/
theorem StraightOn.pc_tickThrough (hs : m.StraightOn reports)
    (hc : m.completed reports = reports.length) :
    let q := (m.tickThrough reports).processor.pc
    q % 2 = m.processor.pc % 2 ∧ m.processor.pc + 2 * reports.length ≤ q ∧
      q ≤ m.processor.pc + 4 * reports.length ∧
      (reports ≠ [] → m.processor.pc + 2 * reports.length ≤ 4096) := by
  induction reports generalizing m with
  | nil => simp
  | cons keys reports ih =>
    obtain ⟨hok, hc⟩ := completed_cons_eq_length_iff.1 hc
    obtain ⟨hi, hrest⟩ := hs hok
    obtain ⟨hinside, hmoved⟩ := pc_tick hok hi
    obtain ⟨hparity, hlow, hhigh, hlast⟩ := ih hrest hc
    rw [tickThrough_cons, List.length_cons]
    refine ⟨by omega, by omega, by omega, fun _ => ?_⟩
    -- The bound comes from the last fetch, and that is this one or one of those behind it.
    cases reports with
    | nil => simp; omega
    | cons keys' reports =>
      have hroom := hlast (List.cons_ne_nil keys' reports)
      omega

/-- From a program counter inside of memory, so many ticks can be completed on the way to its
end. -/
theorem StraightOn.length_le (hs : m.StraightOn reports) (hp : m.processor.pc ≤ 4094)
    (hc : m.completed reports = reports.length) :
    (reports.length : Int) ≤ (4096 - m.processor.pc) / 2 := by
  obtain ⟨-, -, -, hlast⟩ := hs.pc_tickThrough hc
  cases reports with
  | nil => simp; omega
  | cons keys reports =>
    have hroom := hlast (List.cons_ne_nil keys reports)
    omega

theorem StraightOn.stopsWithin (hs : m.StraightOn reports) (hp : m.processor.pc ≤ 4094)
    (hlong : (4096 - m.processor.pc) / 2 < (reports.length : Int)) :
    m.StopsWithin ((4096 - m.processor.pc) / 2) reports := by
  obtain hc | ⟨before, keys, after, e, rfl, -, hc, he⟩ := m.completed_eq_length_or_stops reports
  · have hle := hs.length_le hp hc
    omega
  · exact ⟨before, keys, after, e, rfl, hs.append.1.length_le hp hc, hc, he⟩

/-- Completed ticks that go straight on move the program counter by two or four each, so there are
at most half as many of them as there are bytes from it to the end of memory. A machine that goes on
in this way is therefore cut short behind that many ticks: behind 1792, if it starts where programs
start. -/
theorem straight_ticks_leave_memory (hp : m.processor.pc ≤ 4094) (hs : m.StraightOn reports) :
    let p := m.processor.pc
    let q := (m.tickThrough reports).processor.pc
    let n := reports.length
    (m.completed reports = n →
      (∀ before keys after, reports = before ++ keys :: after →
        let u := m.tickThrough before
        (u.tick keys).state.processor.pc = u.processor.pc + 2 ∨
          (u.tick keys).state.processor.pc = u.processor.pc + 4) ∧
      q % 2 = p % 2 ∧ p + 2 * n ≤ q ∧ q ≤ p + 4 * n ∧ (n : Int) ≤ (4096 - p) / 2) ∧
    ((4096 - p) / 2 < n → m.StopsWithin ((4096 - p) / 2) reports) ∧
    (p = 0x200 →
      (m.completed reports = n → n ≤ 1792) ∧ (1792 < n → m.StopsWithin 1792 reports)) := by
  intro p q n
  refine ⟨fun hc => ?_, hs.stopsWithin hp, fun hstart => ⟨fun hc => ?_, fun hlong => ?_⟩⟩
  · obtain ⟨hparity, hlow, hhigh, -⟩ := hs.pc_tickThrough hc
    refine ⟨?_, hparity, hlow, hhigh, hs.length_le hp hc⟩
    rintro before keys after rfl
    obtain ⟨hbefore, hafter⟩ := completed_append_eq_length_iff.1 hc
    obtain ⟨hok, -⟩ := completed_cons_eq_length_iff.1 hafter
    obtain ⟨hi, -⟩ := hs.append.2 hbefore hok
    exact (pc_tick hok hi).2
  · have hle := hs.length_le hp hc
    omega
  · have hbound : (4096 - m.processor.pc) / 2 = 1792 := by omega
    have hstops := hs.stopsWithin hp (by omega)
    rwa [hbound] at hstops

/-- A key is waited for and pressed, and the next instruction skips the last one in memory, so two
ticks are completed of the three that there is room for. -/
theorem wait_and_skip_leave_memory :
    let key : Keys := ⟨[(0, true)]⟩
    let m := ((((((fresh (.tape [] 0)).perform (.load [0x1F, 0xFA])).perform
      (.write 0xFFA 0xF0)).perform (.write 0xFFB 0x0A)).perform (.write 0xFFC 0x30)).perform
      (.write 0xFFD 0x00)).perform (.tick .none)
    m.Reachable ∧ m.processor.pc = 0xFFA ∧
      m.StraightOn [key, .none] ∧ m.completed [key, .none] = 2 ∧
      (m.tickThrough [key, .none]).processor.pc ≤ 0xFFA + 4 * 2 ∧
      m.StraightOn [key, .none, .none, .none] ∧ m.StopsWithin 3 [key, .none, .none, .none] := by
  intro key m
  have hm : m.Reachable :=
    ((((((Reachable.fresh _).perform _).perform _).perform _).perform _).perform _).perform _
  have hpc : m.processor.pc = 0xFFA := by decide +kernel
  have hticks : m.StraightOn [key, .none] ∧ m.completed [key, .none] = 2 ∧
      m.StraightOn [key, .none, .none, .none] := by decide +kernel
  clear_value m
  obtain ⟨hshort, hc, hlong⟩ := hticks
  have hp : m.processor.pc ≤ 4094 := by omega
  obtain ⟨-, -, -, hhigh, -⟩ := (straight_ticks_leave_memory hp hshort).1 hc
  have hstops := (straight_ticks_leave_memory hp hlong).2.1
  rw [hpc] at hhigh hstops
  exact ⟨hm, hpc, hshort, hc, hhigh, hlong, hstops (by decide)⟩

end Machine

end ChipEight
