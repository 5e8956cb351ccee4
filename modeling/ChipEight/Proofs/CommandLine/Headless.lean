import ChipEight.CommandLine.Run
import ChipEight.Proofs.CommandLine.Arguments
import ChipEight.Proofs.Machine.Accounts
import ChipEight.Proofs.Machine.Requests

/-!
# What a run without a window prints

A run without a window prints where the ticks of a machine got: the screen and a report if all of
them were completed, else the report and the fault. If the file cannot be loaded, all that is
printed is why. No other fault than one that is reported can end the ticks.

## Main definitions

* `Result.ofTicks`: what is printed of the ticks of a machine.
* `Result.Reports`: a result that tells of the machine that a file was loaded into.
-/

namespace ChipEight.CommandLine

open Text

/-- What is printed of ticks without keys, be they all completed or cut short by a fault. The
warnings of the ticks stand above the fault, that of the last one included. -/
def Result.ofTicks (m : Machine) (n : Nat) : Result :=
  let ticks := m.tickAll (List.replicate n .none)
  let final := ticks.state.1
  let signals := ticks.state.2
  let warnings := (m.visits (m.attempted .none n)).filterMap Machine.warning?
  match ticks.answer with
  | .ok _ =>
    { ending := .returned 0
      out := [final.screen.render "#" ".", "",
        toString (signals.countP (·.redraw)) ++ " redraws, sound on for " ++
          toString (signals.countP (·.tone)) ++ " ticks",
        final.report]
      err := warnings
      calls := [] }
  | .error e =>
    { ending := .returned 1
      out := [final.report]
      err := warnings ++ ["Fault after " ++ toString signals.length ++ " ticks: " ++ e.message]
      calls := [] }

/-- The result tells of the machine that a file was loaded into, or why it was not loaded. -/
def Result.Reports (r : Result) (files : Files) (file : String) (steps seed : Int) : Prop :=
  match files file with
  | .error cause =>
    r = ⟨.returned 1, [], ["ERROR: " ++ (LoadFault.unreadable file cause).message], []⟩
  | .ok program =>
    if programLimit < program.length then
      r = ⟨.returned 1, [], ["ERROR: " ++ (LoadFault.fileTooLong file program.length).message], []⟩
    else
      ∃ m, (Machine.fresh (.ofSeed seed)).load program = .ok m ∧
        r = .behind [loaded file program.length] [] (.ofTicks m steps.toNat)

variable {file : String} {files : Files} {program : List UInt8} {steps seed : Int} {m : Machine}

/-! ## Loading -/

theorem loadFile_of_unreadable {cause : ReadFault} (hnul : Char.ofNat 0 ∉ file.toList)
    (h : files file = .error cause) : m.loadFile files file = .error (.unreadable file cause) := by
  rw [Machine.loadFile, if_neg (by simpa using hnul), h]

theorem loadFile_of_too_long (hnul : Char.ofNat 0 ∉ file.toList) (h : files file = .ok program)
    (hlong : programLimit < program.length) :
    m.loadFile files file = .error (.fileTooLong file program.length) := by
  rw [Machine.loadFile, if_neg (by simpa using hnul), h]
  exact if_pos hlong

/-- A file that is not too long is not too long for the machine either. -/
theorem loadFile_of_fits (hnul : Char.ofNat 0 ∉ file.toList) (h : files file = .ok program)
    (hfits : ¬programLimit < program.length) (m : Machine) :
    ∃ memory, m.load program = .ok { m with memory } ∧
      m.loadFile files file = .ok ({ m with memory }, program.length) := by
  have hload : m.load program = .ok { m with memory := m.memory.overlay program } := by
    rw [Machine.load, Memory.load, if_pos (Nat.le_of_not_lt hfits)]
    rfl
  refine ⟨_, hload, ?_⟩
  rw [Machine.loadFile, if_neg (by simpa using hnul), h]
  simp only [if_neg hfits, hload]
  rfl

/-! ## Running -/

theorem shown_headlessRun (lines : List Log.Line) :
    (Options.headlessRun steps seed).shown lines =
      (Log.atLeast .warning lines).map Log.Line.renderAligned := rfl

/-- The fault that ends the ticks of a machine within bounds is one that is reported. -/
theorem isReported_of_tickAll (h : m.Bounded) {reports : List Keys} {e : Fault}
    (he : (m.tickAll reports).fault? = some e) : e.isReported = true := by
  induction reports generalizing m with
  | nil => cases he
  | cons keys reports ih =>
    rcases ht : m.tick keys with ⟨t, e' | signals⟩
    · rw [Machine.tickAll_cons_of_stopped ht] at he
      obtain rfl : e' = e := Option.some.inj he
      exact h.isReported_tick (congrArg Outcome.fault? ht)
    · have hm := h.tick keys
      rw [ht] at hm
      rw [Machine.tickAll_cons_of_done ht] at he
      exact ih hm he

/-- The recorder and the log tell what the ticks tell. -/
theorem runHeadless_eq_ofTicks (hm : m.Bounded) (h : m.ticks = 0) (steps seed : Int) :
    runHeadless (.headlessRun steps seed) m = .ofTicks m steps.toNat := by
  obtain ⟨hfinal, hanswer, hredraws, htones⟩ :=
    Recorder.recordTicks_eq .empty m .none steps.toNat
  have hcount := m.ticks_tickAll (List.replicate steps.toNat .none)
  have hsteps : (Options.headlessRun steps seed).steps = steps := rfl
  simp only [runHeadless, Recorder.record, hsteps, shown_headlessRun, Machine.warnings_runLog,
    Result.ofTicks, hanswer, hfinal]
  replace hredraws := hredraws.trans (Nat.zero_add _)
  replace htones := htones.trans (Nat.zero_add _)
  replace hcount := hcount.trans (by rw [h, Nat.zero_add])
  cases ha : (m.tickAll (List.replicate steps.toNat .none)).answer with
  | ok _ => simp [Result.behind, recorded, hredraws, htones, Except.map]
  | error e =>
    have he := isReported_of_tickAll hm (Outcome.answer_eq_error_iff.1 ha)
    simp [Result.behind, Result.fault, he, hcount, Except.map]

/-- What was read from the arguments is done as reported. -/
theorem reports_perform (hnul : Char.ofNat 0 ∉ file.toList) (around : Surroundings)
    (steps seed : Int) :
    (perform ⟨file, .headlessRun steps seed⟩ around).Reports around.files file steps seed := by
  have hmachine : (Options.headlessRun steps seed).machine around.seed =
      Machine.fresh (.ofSeed seed) := rfl
  unfold Result.Reports
  cases hfile : around.files file with
  | error cause => simp only [perform, loadFile_of_unreadable hnul hfile]
  | ok program =>
    by_cases hlong : programLimit < program.length
    · simp only [if_pos hlong, perform, loadFile_of_too_long hnul hfile hlong]
    · obtain ⟨memory, hload, hloaded⟩ :=
        loadFile_of_fits hnul hfile hlong (Machine.fresh (.ofSeed seed))
      simp only [if_neg hlong]
      refine ⟨_, hload, ?_⟩
      have hm := (Machine.Bounded.fresh (.ofSeed seed)).load hload
      have hticks : { Machine.fresh (.ofSeed seed) with memory }.ticks = 0 := rfl
      have hline : (Options.headlessRun steps seed).shown
          [Machine.loadedLine file program.length] = [] := rfl
      have hheadless : (Options.headlessRun steps seed).headless = true := rfl
      simp only [perform, hmachine, hloaded, hline, start, hheadless, if_true,
        runHeadless_eq_ofTicks hm hticks]

/-- A result that reports has a status, so its command line was not refused. -/
theorem Result.Reports.returned {r : Result} (h : r.Reports files file steps seed) :
    ∃ status, r.ending = .returned status := by
  unfold Result.Reports at h
  cases hfile : files file with
  | error cause =>
    rw [hfile] at h
    exact ⟨1, by rw [h]⟩
  | ok program =>
    simp only [hfile] at h
    split at h
    · exact ⟨1, by rw [h]⟩
    · obtain ⟨m, -, rfl⟩ := h
      simp only [Result.behind, Result.ofTicks]
      cases (m.tickAll (List.replicate steps.toNat .none)).answer with
      | ok _ => exact ⟨0, rfl⟩
      | error e => exact ⟨1, rfl⟩

theorem run_of_not_readable (hdash : file.toList.head? ≠ some '-')
    (hnot : ¬(Integer.Readable steps ∧ Integer.Readable seed)) (around : Surroundings) :
    run (headlessArguments file steps seed) around =
      ⟨.dismissed 2, [], Usage.refusal (unreadableNumeral steps seed), []⟩ := by
  rw [run, read_headlessArguments_of_not_readable hdash hnot]
  rfl

/-- A run without a window prints what a machine with the seed does in as many ticks as are asked
for, if both numerals can be read. A numeral with too many digits is refused before anything is
done. -/
theorem run_without_window (hnul : Char.ofNat 0 ∉ file.toList)
    (hdash : file.toList.head? ≠ some '-') (steps seed : Int) (around : Surroundings) :
    let result := run (headlessArguments file steps seed) around
    if Integer.Readable steps ∧ Integer.Readable seed then
      result.Reports around.files file steps seed
    else
      result = ⟨.dismissed 2, [], Usage.refusal (unreadableNumeral steps seed), []⟩ := by
  intro result
  split
  · rename_i hread
    have hresult : result = perform ⟨file, .headlessRun steps seed⟩ around := by
      simp only [result, run, read_headlessArguments hdash hread.1 hread.2]
    rw [hresult]
    exact reports_perform hnul around steps seed
  · rename_i hread
    exact run_of_not_readable hdash hread around

/-- A word that encodes nothing is warned of, and the fault of the tick behind it is told. -/
theorem run_of_unknown_word_and_return :
    let program : List UInt8 := [0x00, 0x01, 0x00, 0xEE]
    let around : Surroundings := ⟨fun _ => .ok program, .error noWindow, 0⟩
    let result := run (headlessArguments "rom.ch8" 5 (-1)) around
    (Char.ofNat 0 ∉ "rom.ch8".toList ∧ "rom.ch8".toList.head? ≠ some '-') ∧
      result.Reports around.files "rom.ch8" 5 (-1) ∧
      result.err = ["WARNING system: Unknown opcode 0x0001 at pc 0x200",
        "Fault after 1 ticks: Return with empty call stack at pc 0x202"] := by
  intro program around result
  have hnul : Char.ofNat 0 ∉ "rom.ch8".toList := by decide
  have hdash : "rom.ch8".toList.head? ≠ some '-' := by decide
  have hread : Integer.Readable 5 ∧ Integer.Readable (-1) := by decide
  have hreports := run_without_window hnul hdash 5 (-1) around
  rw [if_pos hread] at hreports
  exact ⟨⟨hnul, hdash⟩, hreports, by decide +kernel⟩

/-- A seed with 4301 digits is refused, and nothing is told of the program that could be run. -/
theorem run_refuses_long_seed :
    let around : Surroundings := ⟨fun _ => .ok [0x12, 0x00], .error noWindow, 0⟩
    let seed : Int := (Nat.pow 10 Integer.digitLimit : Nat)
    let result := run (headlessArguments "rom.ch8" 0 seed) around
    ¬result.Reports around.files "rom.ch8" 0 seed ∧ result.ending = .dismissed 2 ∧
      result.out = [] := by
  intro around seed result
  have hseed : ¬Integer.Readable seed := by
    rw [Integer.readable_iff, Int.natAbs_natCast]
    exact Nat.lt_irrefl _
  have hread : ¬(Integer.Readable 0 ∧ Integer.Readable seed) := fun h => hseed h.2
  have hdash : "rom.ch8".toList.head? ≠ some '-' := by decide
  have hresult : result = _ := run_of_not_readable hdash hread around
  rw [hresult]
  refine ⟨fun h => ?_, rfl, rfl⟩
  obtain ⟨status, hstatus⟩ := h.returned
  cases hstatus

end ChipEight.CommandLine
