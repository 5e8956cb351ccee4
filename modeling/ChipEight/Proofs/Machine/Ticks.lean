import ChipEight.Proofs.Instruction.Patterns
import ChipEight.Proofs.Machine.Execution

/-!
# Ticks that go on

A fault stops a tick, but a host may go on with the next one, and with the next run. Ticks of which
any may fault are followed here one by one: where they lead, which machines they visit, how many of
them are completed, and what each of them gives. A run, which stops at its first fault, is as many
such ticks as it attempts.

## Main definitions

* `Machine.next?`: the instruction that the next tick executes.
* `Machine.tickThrough`, `Machine.visits`, `Machine.completed`, `Machine.outcomes`: ticks of which
  some may fault.
* `Machine.attempted`: the ticks of a run.
-/

namespace ChipEight.Machine

/-- The instruction that the next tick executes, if it can be fetched. -/
def next? (m : Machine) : Option Instruction :=
  match m.fetch with
  | .ok f => some f.instruction
  | .error _ => none

/-- The machine after ticks that follow one another even if some of them fault. -/
def tickThrough (m : Machine) (reports : List Keys) : Machine :=
  reports.foldl (fun m keys => (m.tick keys).state) m

/-- The machine before each of the ticks. -/
def visits (m : Machine) : List Keys → List Machine
  | [] => []
  | keys :: reports => m :: (m.tick keys).state.visits reports

/-- How many of the ticks are completed. -/
def completed (m : Machine) : List Keys → Nat
  | [] => 0
  | keys :: reports =>
    (if (m.tick keys).fault? = none then 1 else 0) + (m.tick keys).state.completed reports

/-- What each of the ticks gives: the machine after it, with its signals or its fault. -/
def outcomes (m : Machine) : List Keys → List (Outcome Fault Machine Signals)
  | [] => []
  | keys :: reports => m.tick keys :: (m.tick keys).state.outcomes reports

/-- The reports that the ticks of a run see, the one that stops it included. -/
def attempted (m : Machine) (keys : Keys) : Nat → List Keys
  | 0 => []
  | n + 1 =>
    keys ::
      match m.tick keys with
      | ⟨_, .error _⟩ => []
      | ⟨m, .ok _⟩ => m.attempted keys n

variable {m t : Machine} {keys : Keys} {reports before after : List Keys}

theorem next?_eq_some_iff {i : Instruction} :
    m.next? = some i ↔ ∃ w, m.fetch = .ok ⟨w, i⟩ := by
  unfold next?
  rcases m.fetch with e | ⟨w, j⟩ <;> simp

theorem next?_of_fetch {f : Fetched} (h : m.fetch = .ok f) : m.next? = some f.instruction := by
  rw [next?, h]

/-- The next tick executes what the word at the program counter encodes. -/
theorem next?_of_fits {w : Word} (op : Opcode) (hw : m.memory.word m.processor.pc = .ok w)
    (hfits : w.Fits op.pattern) :
    m.next? = some (op.instruction (m.reg Processor.offset).toNat w) := by
  have hf : m.fetch = .ok ⟨w, .decode (m.reg Processor.offset).toNat w⟩ := by
    rw [fetch, Memory.fetch, hw]
  rw [next?_of_fetch hf]
  exact congrArg some (Memory.instruction_of_fits op hf hfits)

theorem next?_of_fetch_error {e : Fault} (h : m.fetch = .error e) : m.next? = none := by
  rw [next?, h]

theorem tick_of_next? {i : Instruction} (hi : m.next? = some i)
    (hx : m.quieten.execute keys i = .done t ()) :
    m.tick keys = .done t.countDown t.countDown.signals := by
  obtain ⟨w, hf⟩ := next?_eq_some_iff.1 hi
  exact tick_of_done hf hx

theorem processor_tick_of_next? {i : Instruction} (hi : m.next? = some i)
    (hx : m.quieten.execute keys i = .done t ()) :
    (m.tick keys).fault? = none ∧ (m.tick keys).state.processor = t.processor := by
  obtain ⟨w, hf⟩ := next?_eq_some_iff.1 hi
  exact processor_tick_of_done hf hx

/-- A part of the machine that neither the start nor the end of a tick changes is left by the tick
as its instruction leaves it. -/
theorem part_tick {α : Type} (part : Machine → α) (hstart : ∀ m, part m.quieten = part m)
    (hend : ∀ m, part m.countDown = part m) (m : Machine) (keys : Keys) :
    part (m.tick keys).state =
      match m.next? with
      | none => part m
      | some i => part (m.quieten.execute keys i).state := by
  obtain ⟨e, hf, ht⟩ | ⟨f, t, e, hf, hx, ht⟩ | ⟨f, t, hf, hx, ht⟩ := m.tick_cases keys
  · rw [ht, next?_of_fetch_error hf]
    exact hstart m
  · rw [ht, next?_of_fetch hf]
    simp [hx]
  · rw [ht, next?_of_fetch hf]
    simp [hx, hend]

/-! ## Ticks one after another -/

@[simp] theorem tickThrough_nil (m : Machine) : m.tickThrough [] = m := rfl

@[simp] theorem tickThrough_cons (m : Machine) (keys : Keys) (reports : List Keys) :
    m.tickThrough (keys :: reports) = (m.tick keys).state.tickThrough reports := rfl

@[simp] theorem completed_nil (m : Machine) : m.completed [] = 0 := rfl

theorem tickThrough_append (m : Machine) (before after : List Keys) :
    m.tickThrough (before ++ after) = (m.tickThrough before).tickThrough after :=
  List.foldl_append

theorem visits_append (m : Machine) (before after : List Keys) :
    m.visits (before ++ after) = m.visits before ++ (m.tickThrough before).visits after := by
  induction before generalizing m with
  | nil => rfl
  | cons keys before ih => simp [visits, ih]

theorem completed_append (m : Machine) (before after : List Keys) :
    m.completed (before ++ after) =
      m.completed before + (m.tickThrough before).completed after := by
  induction before generalizing m with
  | nil => simp [completed]
  | cons keys before ih => simp [completed, ih, Nat.add_assoc]

theorem completed_le_length (m : Machine) (reports : List Keys) :
    m.completed reports ≤ reports.length := by
  induction reports generalizing m with
  | nil => exact Nat.le_refl 0
  | cons keys reports ih => grind [completed]

/-- All ticks are completed if the first one is and all others are. -/
theorem completed_cons_eq_length_iff :
    m.completed (keys :: reports) = (keys :: reports).length ↔
      (m.tick keys).fault? = none ∧
        (m.tick keys).state.completed reports = reports.length := by
  have hrest := (m.tick keys).state.completed_le_length reports
  grind [completed]

theorem completed_append_eq_length_iff :
    m.completed (before ++ after) = (before ++ after).length ↔
      m.completed before = before.length ∧
        (m.tickThrough before).completed after = after.length := by
  have hbefore := m.completed_le_length before
  have hafter := (m.tickThrough before).completed_le_length after
  rw [completed_append, List.length_append]
  omega

/-- What each of the ticks keeps, all of them keep. -/
theorem tickThrough_keeps {P : Machine → Prop} (h : P m)
    (step : ∀ u ∈ m.visits reports, ∀ keys, P u → P (u.tick keys).state) :
    P (m.tickThrough reports) := by
  induction reports generalizing m with
  | nil => exact h
  | cons keys reports ih =>
    obtain ⟨hm, hrest⟩ := List.forall_mem_cons.1 step
    exact ih (hm keys h) hrest

/-! ## Runs -/

theorem attempted_succ_of_stopped {e : Fault} (h : m.tick keys = .stopped t e) (n : Nat) :
    m.attempted keys (n + 1) = [keys] := by
  rw [attempted, h, Outcome.stopped]

theorem attempted_succ_of_done {signals : Signals} (h : m.tick keys = .done t signals) (n : Nat) :
    m.attempted keys (n + 1) = keys :: t.attempted keys n := by
  rw [attempted, h, Outcome.done]

/-- A run leads where the ticks lead that it attempts. -/
theorem state_runTicks (m : Machine) (keys : Keys) (redraws n : Nat) :
    (m.runTicks keys redraws n).state = m.tickThrough (m.attempted keys n) := by
  induction n generalizing m redraws with
  | zero => rfl
  | succ n ih =>
    rw [runTicks]
    rcases ht : m.tick keys with ⟨t, e | signals⟩
    · rw [attempted_succ_of_stopped ht, tickThrough_cons, ht]
      rfl
    · rw [attempted_succ_of_done ht, tickThrough_cons, ht]
      exact ih t _

end ChipEight.Machine
