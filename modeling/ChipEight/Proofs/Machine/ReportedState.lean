import ChipEight.Machine.Report
import ChipEight.Proofs.Text.Hexadecimal
import ChipEight.Proofs.Text.Pieces

/-!
# What a report tells

A report is a text of labels and numerals. Its lines can be told apart, the numerals on a line can,
and every numeral stands for one number. So two machines have the same report exactly if they agree
on all that is written in it; of the call stack that is the depth and the addresses that wait to be
returned to, of the screen it is how many pixels are lit.

## Main definitions

* `Machine.ReportsAlike`: machines that agree on all that is written in a report.
* `Machine.registerFields`, `Machine.pointerFields`, `Machine.stackFields`, `Machine.deviceFields`:
  what stands on the lines, as labels and values.
-/

namespace ChipEight.Machine

open Text

/-- The machines agree on all that is written in a report. -/
structure ReportsAlike (m t : Machine) : Prop where
  registers : ∀ x, m.reg x = t.reg x
  pc : m.processor.pc = t.processor.pc
  index : m.processor.index = t.processor.index
  depth : m.processor.calls.depth = t.processor.calls.depth
  live : m.processor.calls.live = t.processor.calls.live
  delay : m.delay = t.delay
  sound : m.sound = t.sound
  lit : m.screen.lit = t.screen.lit
  ticks : m.ticks = t.ticks
  unknown : m.unknown = t.unknown

variable {m t : Machine} {xs : List Nibble} {c : Char}

/-! ## Lines as labels and values -/

/-- The registers of a line, each behind its name. -/
def registerFields (m : Machine) (xs : List Nibble) : List (String × String) :=
  xs.map fun x => ("  V" ++ Hex.padded 1 x.val ++ "=", Hex.padded 2 (m.reg x).toNat)

def pointerFields (m : Machine) : List (String × String) :=
  [("  PC=", Hex.padded 3 m.processor.pc), ("  I=", Hex.padded 4 m.processor.index.toNat),
    ("  SP=", toString m.processor.calls.depth)]

/-- The addresses that wait to be returned to, each behind a blank. -/
def stackFields (m : Machine) : List (String × String) :=
  m.processor.calls.live.map fun addr => (" ", Hex.padded 3 addr)

/-- The last three lines; the number of lit pixels has a label on both sides. -/
def deviceFields (m : Machine) : List (List (String × String)) :=
  [[("  Delay: ", toString m.delay.value.toNat), ("  Sound: ", toString m.sound.value.toNat)],
    [("  Screen: ", toString m.screen.lit), (" pixels lit", "")],
    [("  Ticks: ", toString m.ticks), ("  Unknown opcodes: ", toString m.unknown)]]

theorem registerLine_eq (m : Machine) (hxs : xs ≠ []) :
    m.registerLine xs = labelled (m.registerFields xs) := by
  rw [registerLine, append_intercalate _ (by simpa using hxs), labelled, registerFields,
    List.map_map, List.map_map]
  rfl

theorem pointerLine_eq (m : Machine) : m.pointerLine = labelled m.pointerFields := by
  simp [pointerLine, pointerFields, labelled, String.append_assoc]

theorem deviceLines_eq (m : Machine) : m.deviceLines = m.deviceFields.map labelled := by
  simp [deviceLines, deviceFields, labelled, String.append_assoc]

theorem stackLines_eq (m : Machine) :
    m.stackLines =
      if m.processor.calls.live = [] then [] else ["  Stack:" ++ labelled m.stackFields] := by
  unfold stackLines stackFields
  cases hlive : m.processor.calls.live with
  | nil => rfl
  | cons addr live =>
    have hblank : "  Stack: " = "  Stack:" ++ " " := rfl
    rw [if_neg (List.cons_ne_nil addr live)]
    simp only [hblank, String.append_assoc]
    rw [append_intercalate " " (by simp), labelled, List.map_map, List.map_map]
    rfl

/-! ## Values -/

theorem notMem_registerFields (hc : EndsNumeral c) : ∀ f ∈ m.registerFields xs, c ∉ f.2.toList := by
  intro f hf
  obtain ⟨x, -, rfl⟩ := List.mem_map.1 hf
  exact hc.notMem_padded 2 _

theorem notMem_pointerFields (hc : EndsNumeral c) : ∀ f ∈ m.pointerFields, c ∉ f.2.toList := by
  simp [pointerFields, hc.notMem_padded, hc.notMem_toDigits]

theorem notMem_stackFields (hc : EndsNumeral c) : ∀ f ∈ m.stackFields, c ∉ f.2.toList := by
  intro f hf
  obtain ⟨addr, -, rfl⟩ := List.mem_map.1 hf
  exact hc.notMem_padded 3 addr

theorem notMem_deviceFields (hc : EndsNumeral c) :
    ∀ fs ∈ m.deviceFields, ∀ f ∈ fs, c ∉ f.2.toList := by
  simp only [deviceFields, List.forall_mem_cons]
  simp [hc.notMem_toDigits]

/-! ## Lines -/

theorem newline_notMem_registerLine (m : Machine) (hxs : xs ≠ []) :
    '\n' ∉ (m.registerLine xs).toList := by
  rw [registerLine_eq m hxs]
  refine notMem_labelled fun f hf => ⟨?_, notMem_registerFields endsNumeral_newline f hf⟩
  obtain ⟨x, -, rfl⟩ := List.mem_map.1 hf
  simp [endsNumeral_newline.notMem_padded]

theorem newline_notMem_pointerLine (m : Machine) : '\n' ∉ m.pointerLine.toList := by
  have hlabels : ∀ f ∈ m.pointerFields, '\n' ∉ f.1.toList := by
    simp [pointerFields]
  rw [pointerLine_eq]
  exact notMem_labelled fun f hf => ⟨hlabels f hf, notMem_pointerFields endsNumeral_newline f hf⟩

theorem newline_notMem_stackLines (m : Machine) : ∀ line ∈ m.stackLines, '\n' ∉ line.toList := by
  have hfields : '\n' ∉ (labelled m.stackFields).toList := by
    refine notMem_labelled fun f hf => ⟨?_, notMem_stackFields endsNumeral_newline f hf⟩
    obtain ⟨addr, -, rfl⟩ := List.mem_map.1 hf
    simp
  rw [stackLines_eq]
  split <;> simp [hfields]

/-- The report has the lines that it is made of. -/
theorem newline_notMem_reportLines (m : Machine) : ∀ line ∈ m.reportLines, '\n' ∉ line.toList := by
  have hlow : (List.finRange 16).take 8 ≠ [] := by decide
  have hhigh : (List.finRange 16).drop 8 ≠ [] := by decide
  have hdevices : ∀ line ∈ m.deviceLines, '\n' ∉ line.toList := by
    simp [deviceLines, endsNumeral_newline.notMem_toDigits]
  simp only [reportLines, List.forall_mem_append, List.forall_mem_cons]
  exact ⟨⟨⟨⟨by decide, m.newline_notMem_registerLine hlow, m.newline_notMem_registerLine hhigh,
    m.newline_notMem_pointerLine, by simp⟩, m.newline_notMem_stackLines⟩, by simp⟩, hdevices⟩

/-- Equal reports have equal lines; a line with addresses stands in both or in none. -/
theorem lines_of_report_eq (h : m.report = t.report) :
    m.registerLine ((List.finRange 16).take 8) = t.registerLine ((List.finRange 16).take 8) ∧
      m.registerLine ((List.finRange 16).drop 8) = t.registerLine ((List.finRange 16).drop 8) ∧
      m.pointerLine = t.pointerLine ∧ m.stackLines = t.stackLines ∧
      m.deviceLines = t.deviceLines := by
  have hne (u : Machine) : u.reportLines ≠ [] := List.cons_ne_nil _ _
  have hlines : m.reportLines = t.reportLines :=
    eq_of_intercalate_eq rfl (hne m) (hne t) (newline_notMem_reportLines m)
      (newline_notMem_reportLines t) h
  rw [reportLines, reportLines] at hlines
  obtain ⟨hfront, hdevices⟩ := List.append_inj' hlines (by simp [deviceLines])
  obtain ⟨htop, hstack⟩ := List.append_inj (List.append_cancel_right hfront) (by simp)
  simp only [List.cons.injEq, true_and, and_true] at htop
  obtain ⟨hlow, hhigh, hpointers⟩ := htop
  exact ⟨hlow, hhigh, hpointers, hstack, hdevices⟩

theorem reg_of_registerLine_eq (h : m.registerLine xs = t.registerLine xs) :
    ∀ x ∈ xs, m.reg x = t.reg x := by
  intro x hx
  have hne : xs ≠ [] := List.ne_nil_of_mem hx
  rw [registerLine_eq m hne, registerLine_eq t hne] at h
  have hfields := eq_of_labelled_eq (by simp [registerFields]) (by simp [registerFields])
    (notMem_registerFields endsNumeral_blank) (notMem_registerFields endsNumeral_blank) h
  obtain ⟨-, hvalue⟩ := Prod.mk.inj (List.map_inj_left.1 hfields x hx)
  exact UInt8.toNat_inj.1 (Int.ofNat_inj.1 (Hex.padded_injective 2 hvalue))

theorem pointers_of_pointerLine_eq (h : m.pointerLine = t.pointerLine) :
    m.processor.pc = t.processor.pc ∧ m.processor.index = t.processor.index ∧
      m.processor.calls.depth = t.processor.calls.depth := by
  rw [pointerLine_eq, pointerLine_eq] at h
  have hfields : m.pointerFields = t.pointerFields :=
    eq_of_labelled_eq rfl (by simp [pointerFields]) (notMem_pointerFields endsNumeral_blank)
      (notMem_pointerFields endsNumeral_blank) h
  simp only [pointerFields, List.cons.injEq, Prod.mk.injEq, true_and, and_true] at hfields
  obtain ⟨hpc, hindex, hdepth⟩ := hfields
  exact ⟨Hex.padded_injective 3 hpc,
    UInt16.toNat_inj.1 (Int.ofNat_inj.1 (Hex.padded_injective 4 hindex)),
    Integer.repr_injective hdepth⟩

/-- With the depth it is known how many addresses there are. -/
theorem live_of_stackLines_eq (hdepth : m.processor.calls.depth = t.processor.calls.depth)
    (h : m.stackLines = t.stackLines) : m.processor.calls.live = t.processor.calls.live := by
  have hlength : m.processor.calls.live.length = t.processor.calls.live.length := by
    rw [CallStack.length_live, CallStack.length_live, hdepth]
  rw [stackLines_eq, stackLines_eq] at h
  by_cases hm : m.processor.calls.live = []
  · rw [hm] at hlength ⊢
    exact (List.length_eq_zero_iff.1 hlength.symm).symm
  · have ht : t.processor.calls.live ≠ [] := fun ht => by simp [ht, hm] at hlength
    rw [if_neg hm, if_neg ht] at h
    have hlabelled : labelled m.stackFields = labelled t.stackFields := by
      simpa using h
    have hlabels : m.stackFields.map (·.1) = t.stackFields.map (·.1) := by
      simp [stackFields, Function.comp_def, List.map_const', hlength]
    have hfields : m.stackFields = t.stackFields :=
      eq_of_labelled_eq hlabels (by simp [stackFields]) (notMem_stackFields endsNumeral_blank)
        (notMem_stackFields endsNumeral_blank) hlabelled
    exact (List.map_inj_right fun _ _ hab => Hex.padded_injective 3 (Prod.mk.inj hab).2).1 hfields

theorem devices_of_deviceLines_eq (h : m.deviceLines = t.deviceLines) :
    m.delay = t.delay ∧ m.sound = t.sound ∧ m.screen.lit = t.screen.lit ∧ m.ticks = t.ticks ∧
      m.unknown = t.unknown := by
  have hstart : ∀ fs ∈ m.deviceFields, ∀ f ∈ fs, f.1.toList.head? = some ' ' := by
    simp only [deviceFields, List.forall_mem_cons]
    simp
  rw [deviceLines_eq, deviceLines_eq] at h
  have hfields : m.deviceFields = t.deviceFields :=
    eq_of_map_labelled_eq rfl hstart (notMem_deviceFields endsNumeral_blank)
      (notMem_deviceFields endsNumeral_blank) h
  simp only [deviceFields, List.cons.injEq, Prod.mk.injEq, true_and, and_true] at hfields
  obtain ⟨⟨hdelay, hsound⟩, hlit, hticks, hunknown⟩ := hfields
  have hbyte {a b : UInt8} (hab : toString a.toNat = toString b.toNat) : a = b :=
    UInt8.toNat_inj.1 (Integer.repr_injective hab)
  exact ⟨congrArg Timer.mk (hbyte hdelay), congrArg Timer.mk (hbyte hsound),
    Integer.repr_injective hlit, Integer.repr_injective hticks, Integer.repr_injective hunknown⟩

/-! ## Reports -/

/-- Two machines have the same report exactly if they agree on all that is written in it. -/
theorem report_eq_iff (m t : Machine) : m.report = t.report ↔ m.ReportsAlike t := by
  constructor
  · intro h
    obtain ⟨hlow, hhigh, hpointers, hstack, hdevices⟩ := lines_of_report_eq h
    obtain ⟨hpc, hindex, hdepth⟩ := pointers_of_pointerLine_eq hpointers
    obtain ⟨hdelay, hsound, hlit, hticks, hunknown⟩ := devices_of_deviceLines_eq hdevices
    have hregisters (x : Nibble) : m.reg x = t.reg x := by
      have hx : x ∈ (List.finRange 16).take 8 ∨ x ∈ (List.finRange 16).drop 8 :=
        List.mem_append.1 ((List.take_append_drop 8 (List.finRange 16)).symm ▸ List.mem_finRange x)
      exact hx.elim (reg_of_registerLine_eq hlow x) (reg_of_registerLine_eq hhigh x)
    exact ⟨hregisters, hpc, hindex, hdepth, live_of_stackLines_eq hdepth hstack, hdelay, hsound,
      hlit, hticks, hunknown⟩
  · intro h
    simp only [report, reportLines, registerLine, pointerLine, stackLines, deviceLines, h.registers,
      h.pc, h.index, h.depth, h.live, h.delay, h.sound, h.lit, h.ticks, h.unknown]

end ChipEight.Machine
