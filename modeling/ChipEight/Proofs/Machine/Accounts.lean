import ChipEight.Proofs.Machine.Frame
import ChipEight.Proofs.Machine.Runs
import ChipEight.Proofs.Machine.Ticks

/-!
# What is told of a run

A machine counts its completed ticks, and a run logs what each of its ticks has to say, the one that
faults included. At the level of warnings that is one line for every word that encodes nothing.

## Main definitions

* `Machine.warning?`: the warning that the next tick gives.
-/

namespace ChipEight.Machine

open Outcome Text

variable {m t : Machine} {keys : Keys} {i : Instruction}

/-! ## Completed ticks -/

theorem ticks_execute (m : Machine) (keys : Keys) (i : Instruction) :
    (m.execute keys i).state.ticks = m.ticks := by
  cases h : i.touchesDevices with
  | false => exact (sameDevices_execute h).ticks
  | true =>
    cases i with
    | draw x y n =>
      rw [execute_draw]
      obtain ⟨hit, hs⟩ | hs := m.state_drawSprite x y n <;> rw [hs] <;> rfl
    | invalid | clearScreen | random | setDelay | setSound => rfl
    | _ => cases h

theorem ticks_of_stopped {e : Fault} (h : m.tick keys = .stopped t e) : t.ticks = m.ticks := by
  obtain ⟨e, -, ht⟩ | ⟨f, u, e, -, hx, ht⟩ | ⟨f, u, -, -, ht⟩ := m.tick_cases keys <;>
    rw [h] at ht <;> cases ht
  · rfl
  · have hu := m.quieten.ticks_execute keys f.instruction
    rw [hx] at hu
    exact hu

theorem ticks_of_done {signals : Signals} (h : m.tick keys = .done t signals) :
    t.ticks = m.ticks + 1 := by
  obtain ⟨e, -, ht⟩ | ⟨f, u, e, -, hx, ht⟩ | ⟨f, u, -, hx, ht⟩ := m.tick_cases keys <;>
    rw [h] at ht <;> cases ht
  have hu := m.quieten.ticks_execute keys f.instruction
  rw [hx] at hu
  exact congrArg (· + 1) hu

/-- A machine counts the ticks that it completed. -/
theorem ticks_tickAll (m : Machine) (reports : List Keys) :
    (m.tickAll reports).state.1.ticks = m.ticks + (m.tickAll reports).state.2.length := by
  induction reports generalizing m with
  | nil => rfl
  | cons keys reports ih =>
    rcases ht : m.tick keys with ⟨t, e | signals⟩
    · rw [tickAll_cons_of_stopped ht]
      exact ticks_of_stopped ht
    · rw [tickAll_cons_of_done ht]
      simp only [state_inside, List.length_cons, ih, ticks_of_done ht]
      omega

/-! ## The log -/

/-- A run logs what the ticks log that it attempts. -/
theorem toList_logTicks (m : Machine) (keys : Keys) (lines : Array Log.Line) (n : Nat) :
    (m.logTicks keys lines n).toList =
      lines.toList ++ (m.visits (m.attempted keys n)).flatMap (·.tickLog keys) := by
  induction n generalizing m lines with
  | zero => simp [logTicks, attempted, visits]
  | succ n ih =>
    rw [logTicks]
    rcases ht : m.tick keys with ⟨t, e | signals⟩
    · rw [attempted_succ_of_stopped ht]
      simp [visits]
    · rw [attempted_succ_of_done ht]
      simp [visits, ih, ht]

/-- The line that warns of the next tick, as it is shown. -/
def warning? (m : Machine) : Option String :=
  match m.next? with
  | some (.invalid w) =>
    some ("WARNING system: " ++ ("Unknown opcode " ++ Hex.marked 6 w.toNat ++ " at pc " ++
      Hex.marked 5 m.processor.pc))
  | _ => none

theorem atLeast_append (level : Log.Level) (first second : List Log.Line) :
    Log.atLeast level (first ++ second) = Log.atLeast level first ++ Log.atLeast level second :=
  List.filter_append ..

theorem renderAligned_warning (text : String) :
    (Log.Line.mk .warning .machine text).renderAligned = "WARNING system: " ++ text := by
  have h : String.ofList (Log.Level.warning.label.toList.rightpad 7 ' ') ++ " " ++
      Log.Component.machine.label ++ ": " = "WARNING system: " := by decide
  exact congrArg (· ++ text) h

/-- Lines for debugging are not shown among the warnings. -/
theorem atLeast_warning_of_debug {lines : List Log.Line} (h : ∀ l ∈ lines, l.level = .debug) :
    Log.atLeast .warning lines = [] := by
  refine List.filter_eq_nil_iff.2 fun l hl => ?_
  rw [h l hl]
  decide

/-- Of what a tick logs, only a word that encodes nothing is a warning. -/
theorem warnings_tickLog (m : Machine) (keys : Keys) :
    (Log.atLeast .warning (m.tickLog keys)).map Log.Line.renderAligned = m.warning?.toList := by
  unfold tickLog warning? next?
  cases m.fetch with
  | error e => rfl
  | ok f =>
    dsimp only
    have htrace : Log.atLeast .warning (if m.trace then
        [⟨.debug, .machine, Hex.padded 3 m.processor.pc ++ ": " ++ f.text⟩] else []) = [] := by
      apply atLeast_warning_of_debug
      intro l hl
      split at hl <;> simp_all
    rw [atLeast_append, htrace, List.nil_append]
    obtain ⟨w, i⟩ := f
    cases i with
    | invalid w => exact congrArg ([·]) (renderAligned_warning _)
    | skipPressed x | skipReleased x =>
      rw [remarks, atLeast_warning_of_debug]
      · rfl
      · intro l hl
        split at hl <;> simp_all [missingKey]
    | waitKey x =>
      rw [remarks, atLeast_warning_of_debug]
      · rfl
      · intro l hl
        obtain ⟨k, -, rfl⟩ := List.mem_map.1 hl
        rfl
    | _ => rfl

/-- The warnings of a run are those of the ticks that it attempts. -/
theorem warnings_runLog (m : Machine) (keys : Keys) (n : Int) :
    (Log.atLeast .warning (m.runLog keys n)).map Log.Line.renderAligned =
      (m.visits (m.attempted keys n.toNat)).filterMap warning? := by
  rw [runLog, toList_logTicks, Array.toList_empty, List.nil_append]
  generalize m.visits (m.attempted keys n.toNat) = visited
  induction visited with
  | nil => rfl
  | cons u visited ih =>
    rw [List.flatMap_cons, atLeast_append, List.map_append, ih, warnings_tickLog,
      List.filterMap_cons]
    cases u.warning? <;> rfl

end ChipEight.Machine
