import ChipEight.Proofs.Machine.Execution
import ChipEight.Proofs.Outcome.Sequence
import ChipEight.Recorder

/-!
# Runs as ticks

A run of a machine and a recorded run each have a loop of their own. Both come down to ticks in
turn: the machine is where the ticks leave it, the fault is theirs, and what is counted and kept
besides can be told from the signals of the completed ticks.

## Main definitions

* `Machine.tickAll`: ticks in turn, each with its own report on the keys.
* `Keys.Agree`: reports that say the same about every key.
-/

namespace ChipEight

open Outcome

/-! ## What a tick sees of the keys -/

namespace Keys

/-- The two reports say the same about every key, be it in different words. -/
def Agree (a b : Keys) : Prop := ∀ k : Key, a.held k.val = b.held k.val

theorem Agree.greatest? {a b : Keys} (h : a.Agree b) : a.greatest? = b.greatest? := by
  have hf : (fun k : Key => a.held k.val) = fun k : Key => b.held k.val := funext h
  rw [Keys.greatest?, Keys.greatest?, hf]

/-- Nothing reported is as good as all keys reported released. -/
theorem agree_released : Keypad.released.toKeys.Agree none := by
  unfold Agree
  decide +kernel

end Keys

namespace Machine

variable {m t : Machine} {keys : Keys}

theorem keyIn_congr {a b : Keys} (h : a.Agree b) (m : Machine) (x : Nibble) :
    m.keyIn a x = m.keyIn b x := by
  unfold keyIn
  split
  · rename_i hlt
    exact congrArg some (h ⟨_, hlt⟩)
  · rfl

theorem execute_congr {a b : Keys} (h : a.Agree b) (m : Machine) (i : Instruction) :
    m.execute a i = m.execute b i := by
  unfold execute
  cases i with
  | skipPressed x | skipReleased x => simp only [keyIn_congr h]
  | waitKey x => simp only [h.greatest?]
  | _ => rfl

/-- A tick looks at the keys alone, not at the way in which they were reported. -/
theorem tick_congr {a b : Keys} (h : a.Agree b) (m : Machine) : m.tick a = m.tick b := by
  simp only [tick, execute_congr h]

/-! ## Ticks in turn -/

/-- One tick for every report on the keys, until a fault stops them. -/
def tickAll (m : Machine) (reports : List Keys) : Outcome Fault (Machine × List Signals) Unit :=
  inTurn tick m reports

theorem tickAll_cons_of_stopped {e : Fault} (h : m.tick keys = .stopped t e)
    (reports : List Keys) : m.tickAll (keys :: reports) = .stopped (t, []) e :=
  inTurn_cons_of_stopped h

theorem tickAll_cons_of_done {signals : Signals} (h : m.tick keys = .done t signals)
    (reports : List Keys) :
    m.tickAll (keys :: reports) =
      (t.tickAll reports).inside fun r => (r.1, signals :: r.2) :=
  inTurn_cons_of_done h

theorem tickAll_replicate_congr {a b : Keys} (h : a.Agree b) (m : Machine) (n : Nat) :
    m.tickAll (List.replicate n a) = m.tickAll (List.replicate n b) := by
  induction n generalizing m with
  | zero => rfl
  | succ n ih =>
    rw [List.replicate_succ, List.replicate_succ]
    rcases ht : m.tick b with ⟨t, e | signals⟩
    · rw [tickAll_cons_of_stopped ht, tickAll_cons_of_stopped ((tick_congr h m).trans ht)]
    · rw [tickAll_cons_of_done ht, tickAll_cons_of_done ((tick_congr h m).trans ht), ih]

/-! ## Runs -/

/-- A run is ticks in turn, and its answer counts the redraws among their signals. -/
theorem runTicks_eq (m : Machine) (keys : Keys) (redraws n : Nat) :
    let ticks := m.tickAll (List.replicate n keys)
    m.runTicks keys redraws n =
      ⟨ticks.state.1, ticks.answer.map fun _ => redraws + ticks.state.2.countP (·.redraw)⟩ := by
  induction n generalizing m redraws with
  | zero => rfl
  | succ n ih =>
    rw [runTicks, List.replicate_succ]
    rcases ht : m.tick keys with ⟨t, e | signals⟩
    · rw [tickAll_cons_of_stopped ht]
      rfl
    · rw [tickAll_cons_of_done ht]
      simp only [ih, state_inside, answer_inside, List.countP_cons]
      split <;> simp [*, Nat.add_assoc, Nat.add_comm 1]

theorem madeOf_run (keys : Keys) :
    MadeOf (fun m (n : Nat) => m.run keys n) tick id fun n => List.replicate n keys where
  state m n := by rw [run, runTicks_eq]; rfl
  fault? m n := by
    rw [run, runTicks_eq]
    simp only [fault?, id, tickAll, Int.toNat_natCast]
    cases (inTurn tick m (List.replicate n keys)).answer <;> rfl

theorem redraws_of_run {n k : Nat} (h : (m.run keys n).answer = .ok k) :
    k = (m.tickAll (List.replicate n keys)).state.2.countP (·.redraw) := by
  rw [run, runTicks_eq] at h
  simp only [Int.toNat_natCast] at h
  revert h
  cases (m.tickAll (List.replicate n keys)).answer with
  | error e => rintro ⟨⟩
  | ok _ =>
    rintro ⟨⟩
    exact Nat.zero_add _

end Machine

/-! ## Recorded runs -/

namespace Recorder

open Machine

/-- A recorded run is ticks in turn, and what it records besides is as many snapshots and ticks
with a tone as their signals say. -/
theorem recordTicks_eq (r : Recorder) (m : Machine) (keys : Keys) (n : Nat) :
    let ticks := m.tickAll (List.replicate n keys)
    let o := r.recordTicks m keys n
    o.state.2 = ticks.state.1 ∧ o.answer = ticks.answer ∧
      o.state.1.snapshots.size = r.snapshots.size + ticks.state.2.countP (·.redraw) ∧
      o.state.1.toneTicks = r.toneTicks + ticks.state.2.countP (·.tone) := by
  induction n generalizing r m with
  | zero => exact ⟨rfl, rfl, rfl, rfl⟩
  | succ n ih =>
    rw [recordTicks, List.replicate_succ]
    rcases ht : m.tick keys with ⟨t, e | signals⟩
    · rw [tickAll_cons_of_stopped ht]
      exact ⟨rfl, rfl, rfl, rfl⟩
    · obtain ⟨hs, ha, hn, ht'⟩ := ih (r.note t signals) t
      rw [tickAll_cons_of_done ht]
      refine ⟨hs, ha, hn.trans ?_, ht'.trans ?_⟩
      · simp only [note, state_inside, List.countP_cons]
        split <;> simp [*, Nat.add_assoc, Nat.add_comm 1]
      · simp only [note, state_inside, List.countP_cons]
        split <;> simp [*, Nat.add_assoc, Nat.add_comm 1]

/-- Recorded runs of a recorder and a machine, as one operation on both. -/
def recordBoth (keys : Keys) (s : Recorder × Machine) (n : Nat) :
    Outcome Fault (Recorder × Machine) Int := s.1.record s.2 keys n

theorem madeOf_recordBoth (keys : Keys) :
    MadeOf (recordBoth keys) tick Prod.snd fun n => List.replicate n keys where
  state s n := (recordTicks_eq s.1 s.2 keys n).1
  fault? s n := by
    have ha := (recordTicks_eq s.1 s.2 keys n).2.1
    simp only [recordBoth, record, fault?, Int.toNat_natCast, ha, tickAll]
    cases (inTurn tick s.2 (List.replicate n keys)).answer <;> rfl

end Recorder

end ChipEight
