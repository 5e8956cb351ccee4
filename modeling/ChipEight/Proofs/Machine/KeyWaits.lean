import Mathlib.Order.Bounds.Basic
import Mathlib.Order.Fin.Basic
import ChipEight.Proofs.Instruction.Patterns
import ChipEight.Proofs.Machine.Footprint
import ChipEight.Proofs.Machine.KeyReports
import ChipEight.Proofs.Machine.StraightLines

/-!
# Waiting for a key

To wait for a key is to be fetched again at every tick until a key is seen. A tick that sees none
only lets the timers count, so any number of them is so many pauses in a row. The first tick that
sees keys takes the greatest of them, and what the register held all the time does not matter.

## Main definitions

* `Machine.pause`: a tick that only lets the timers count.
* `Machine.Waited`: a machine after so many pauses, compared with the one before them.
* `Machine.AwaitsKey`: the next instruction waits for a key.
-/

namespace ChipEight

/-! ## The greatest key -/

namespace Keys

variable {keys : Keys} {k : Key}

theorem isGreatest_of_greatest? (h : keys.greatest? = some k) :
    IsGreatest {l : Key | keys.held l.val = true} k := by
  rw [greatest?, List.findRev?_eq_find?_reverse, List.find?_eq_some_iff_append] at h
  obtain ⟨hk, above, below, hsplit, habove⟩ := h
  refine ⟨hk, fun l hl => ?_⟩
  have hmem : l ∈ Key.all.reverse := List.mem_reverse.2 (List.mem_finRange l)
  have hsorted : Key.all.reverse.Pairwise (fun a b => b < a) :=
    List.pairwise_reverse.2 (List.pairwise_lt_finRange 16)
  rw [hsplit] at hmem hsorted
  -- The keys are gone through from the greatest down, and those before `k` are not pressed.
  obtain hl' | rfl | hl' := List.mem_append.1 hmem |>.imp_right List.mem_cons.1
  · have hreleased := habove l hl'
    rw [show keys.held l.val = true from hl] at hreleased
    cases hreleased
  · exact le_refl l
  · have hbelow := (List.pairwise_append.1 hsorted).2.1
    exact (List.rel_of_pairwise_cons hbelow hl').le

end Keys

namespace Machine

/-- No time passes but that of the timers. -/
def pause (m : Machine) : Machine := m.quieten.countDown

/-- `n` ticks later nothing has changed but the timers, the count of ticks and what was signalled
last. -/
structure Waited (m t : Machine) (n : Nat) : Prop where
  processor : t.processor = m.processor
  memory : t.memory = m.memory
  screen : t.screen = m.screen
  random : t.random = m.random
  unknown : t.unknown = m.unknown
  trace : t.trace = m.trace
  ticks : t.ticks = m.ticks + n
  delay : t.delay.value.toNat = m.delay.value.toNat - n
  sound : t.sound.value.toNat = m.sound.value.toNat - n

variable {φ : Type} {isSet : φ → Bool} {m t : Machine} {keys : Keys} {reports : List Keys}
  {x : Nibble} {k : Key}

/-! ## Pauses -/

theorem waited_iterate_pause (m : Machine) (n : Nat) : m.Waited (pause^[n] m) n := by
  induction n with
  | zero => exact ⟨rfl, rfl, rfl, rfl, rfl, rfl, rfl, rfl, rfl⟩
  | succ n ih =>
    rw [Function.iterate_succ_apply']
    refine ⟨ih.processor, ih.memory, ih.screen, ih.random, ih.unknown, ih.trace,
      congrArg (· + 1) ih.ticks, ?_, ?_⟩
    · have hstep := (pause^[n] m).delay.toNat_tick
      rw [ih.delay] at hstep
      exact hstep.trans (Nat.sub_sub _ _ _)
    · have hstep := (pause^[n] m).sound.toNat_tick
      rw [ih.sound] at hstep
      exact hstep.trans (Nat.sub_sub _ _ _)

/-- Pauses do not look at registers. -/
theorem iterate_pause_setReg (m : Machine) (x : Nibble) (b : UInt8) (n : Nat) :
    pause^[n] (m.setReg x b) = (pause^[n] m).setReg x b := by
  have hstep : Function.Commute (fun m : Machine => m.setReg x b) pause := fun m => rfl
  exact (hstep.iterate_right n m).symm

theorem setReg_setReg (m : Machine) (x : Nibble) (a b : UInt8) :
    (m.setReg x a).setReg x b = m.setReg x b := by
  simp [setReg, Processor.setReg]

/-! ## Ticks that wait -/

/-- The next instruction waits for a key that goes to a register. -/
def AwaitsKey (m : Machine) (x : Nibble) : Prop := m.next? = some (.waitKey x)

theorem awaitsKey_of_fits (h₀ : 0 ≤ m.processor.pc) (hp : m.processor.pc ≤ 4094)
    (hw : m.wordAtPc.Fits "FX0A") : m.AwaitsKey m.wordAtPc.x := by
  have hf := fetch_of_inside h₀ hp
  rw [AwaitsKey, next?_of_fetch hf]
  exact congrArg some (Memory.instruction_of_fits .waitKey hf hw)

theorem Waited.awaitsKey {n : Nat} (h : m.Waited t n) (hm : m.AwaitsKey x) : t.AwaitsKey x := by
  rw [AwaitsKey, ← hm, next?, next?, fetch, fetch, reg, reg, h.processor, h.memory]

theorem AwaitsKey.tick_of_none (h : m.AwaitsKey x) (hk : keys.greatest? = none) :
    m.tick keys = .done m.pause m.pause.signals := by
  have hx := execute_waitKey m.quieten keys x
  rw [hk] at hx
  exact tick_of_next? h hx

theorem AwaitsKey.tick_of_some (h : m.AwaitsKey x) (hk : keys.greatest? = some k) :
    m.tick keys = .done (m.setReg x (UInt8.ofNat k.val)).advance.pause m.pause.signals := by
  have hx := execute_waitKey m.quieten keys x
  rw [hk] at hx
  exact tick_of_next? h hx

/-- The key that is waited for is the number that a register holds behind the tick that sees it. -/
theorem AwaitsKey.reg_tick_of_some (h : m.AwaitsKey x) (hk : keys.greatest? = some k) :
    (m.tick keys).fault? = none ∧ (m.tick keys).state.processor.pc = m.processor.pc + 2 ∧
      ((m.tick keys).state.reg x).toNat = k.val ∧
      ∀ r, r ≠ x → (m.tick keys).state.reg r = m.reg r := by
  rw [h.tick_of_some hk]
  refine ⟨rfl, rfl, ?_, fun r hr => reg_setReg_of_ne m _ hr⟩
  show ((m.setReg x (UInt8.ofNat k.val)).reg x).toNat = k.val
  rw [reg_setReg_self, UInt8.toNat_ofNat']
  omega

/-- Ticks that see no key are pauses. -/
theorem AwaitsKey.tickThrough (h : m.AwaitsKey x) (hk : ∀ keys ∈ reports, keys.greatest? = none) :
    m.tickThrough reports = pause^[reports.length] m ∧
      m.completed reports = reports.length := by
  induction reports generalizing m with
  | nil => exact ⟨rfl, rfl⟩
  | cons keys reports ih =>
    obtain ⟨hkeys, hrest⟩ := List.forall_mem_cons.1 hk
    have ht := h.tick_of_none hkeys
    have hpaused : m.pause.AwaitsKey x := (m.waited_iterate_pause 1).awaitsKey h
    obtain ⟨hstate, hcompleted⟩ := ih hpaused hrest
    rw [tickThrough_cons, completed_cons_eq_length_iff, ht]
    exact ⟨hstate, rfl, hcompleted⟩

/-! ## What the register held -/

variable {b : UInt8}

theorem AwaitsKey.tickThrough_setReg (h : m.AwaitsKey x) (hb : (m.setReg x b).AwaitsKey x)
    (hk : ∀ keys ∈ reports, keys.greatest? = none) :
    (m.setReg x b).tickThrough reports = (m.tickThrough reports).setReg x b := by
  rw [(hb.tickThrough hk).1, (h.tickThrough hk).1, iterate_pause_setReg]

theorem AwaitsKey.tick_setReg (h : m.AwaitsKey x) (hb : (m.setReg x b).AwaitsKey x)
    (hk : keys.greatest? = some k) : (m.setReg x b).tick keys = m.tick keys := by
  rw [hb.tick_of_some hk, h.tick_of_some hk, setReg_setReg]
  rfl

/-! ## Flags that say whether a key is pressed -/

theorem greatest?_ofFlags_eq_none {flags : KeyFlags φ}
    (h : ∀ k : Key, flags.pressed isSet k.val = false) :
    (Keys.ofFlags isSet flags).greatest? = none := by
  rw [Keys.greatest?_eq_none_iff]
  intro k
  rw [Keys.held_ofFlags, h]

theorem exists_greatest?_ofFlags {flags : KeyFlags φ}
    (h : ∃ k : Key, flags.pressed isSet k.val = true) :
    ∃ k, (Keys.ofFlags isSet flags).greatest? = some k ∧
      IsGreatest {l : Key | flags.pressed isSet l.val = true} k := by
  cases hg : (Keys.ofFlags isSet flags).greatest? with
  | none =>
    obtain ⟨l, hl⟩ := h
    have hreleased := Keys.greatest?_eq_none_iff.1 hg l
    rw [Keys.held_ofFlags, hl] at hreleased
    cases hreleased
  | some k =>
    refine ⟨k, rfl, ?_⟩
    simpa only [Keys.held_ofFlags] using Keys.isGreatest_of_greatest? hg

/-- While no key is pressed, an instruction that waits for one lets the timers count and does
nothing else, over any number of ticks and whatever the flags are that say so. The first tick that
sees keys puts the greatest of them into `VX` and goes on. What was in `VX` before does not
matter. -/
theorem waiting_polls_keys (isSet : φ → Bool) (hm : m.Reachable) (hp : m.processor.pc ≤ 4094)
    (hw : m.wordAtPc.Fits "FX0A") {waits : List (KeyFlags φ)} {last : KeyFlags φ}
    (hnone : ∀ flags ∈ waits, ∀ k : Key, flags.pressed isSet k.val = false)
    (hsome : ∃ k : Key, last.pressed isSet k.val = true) :
    let x := m.wordAtPc.x
    let reports := waits.map (.ofFlags isSet)
    let t := m.tickThrough reports
    let o := t.tick (.ofFlags isSet last)
    (m.completed reports = waits.length ∧ m.Waited t waits.length) ∧
    (o.fault? = none ∧ o.state.processor.pc = m.processor.pc + 2 ∧
      (∃ k : Key, IsGreatest {l : Key | last.pressed isSet l.val = true} k ∧
        (o.state.reg x).toNat = k.val) ∧
      ∀ r, r ≠ x → o.state.reg r = m.reg r) ∧
    ∀ b, (m.setReg x b).completed reports = waits.length ∧
      (m.setReg x b).tickThrough reports = t.setReg x b ∧
      (t.setReg x b).tick (.ofFlags isSet last) = o := by
  intro x reports t o
  have h₀ := hm.bounded.pc_nonneg
  have hwait : m.AwaitsKey x := awaitsKey_of_fits h₀ hp hw
  have hlength : reports.length = waits.length := List.length_map _
  have hquiet : ∀ keys ∈ reports, keys.greatest? = none :=
    List.forall_mem_map.2 fun flags hflags => greatest?_ofFlags_eq_none (hnone flags hflags)
  obtain ⟨k, hk, hgreatest⟩ := exists_greatest?_ofFlags hsome
  obtain ⟨hstate, hcompleted⟩ := hwait.tickThrough hquiet
  rw [hlength] at hstate hcompleted
  have hwaited : m.Waited t waits.length := by
    rw [show t = _ from hstate]
    exact m.waited_iterate_pause waits.length
  have hthen : t.AwaitsKey x := hwaited.awaitsKey hwait
  obtain ⟨hok, hpc, hreg, hothers⟩ := hthen.reg_tick_of_some hk
  refine ⟨⟨hcompleted, hwaited⟩, ⟨hok, ?_, ⟨k, hgreatest, hreg⟩, fun r hr => ?_⟩, fun b => ?_⟩
  · rw [hpc, hwaited.processor]
  · rw [hothers r hr]
    exact congrArg (·.reg r) hwaited.processor
  · have hwait' : (m.setReg x b).AwaitsKey x := awaitsKey_of_fits (m := m.setReg x b) h₀ hp hw
    have hsame := hwait.tickThrough_setReg hwait' hquiet
    obtain ⟨hstate', hcompleted'⟩ := hwait'.tickThrough hquiet
    have hthen' : (t.setReg x b).AwaitsKey x := by
      rw [← hsame, hstate']
      exact (waited_iterate_pause _ _).awaitsKey hwait'
    exact ⟨hcompleted'.trans hlength, hsame, hthen.tick_setReg hthen' hk⟩

/-- A machine waits with three in its delay timer and four in its sound timer, through nothing at
all, a released key, no flags and a code that no key has; then of five keys that are spoken of three
are pressed, and seven is the greatest. -/
theorem seven_behind_four_pauses :
    let m := ([.load [0x60, 0x05, 0xF0, 0x15, 0xF0, 0x18, 0xF3, 0x0A], .run .none 3] :
      List Request).foldl perform (fresh (.tape [] 0))
    let isSet : Nat → Bool := fun flag => flag ≠ 0
    let waits : List (KeyFlags Nat) := [none, some [(3, 0)], some [], some [(20, 1)]]
    let last : KeyFlags Nat := some [(5, 7), (9, 1), (0, 1), (7, 2), (12, 0), (9, 0)]
    let t := m.tickThrough (waits.map (.ofFlags isSet))
    m.Reachable ∧ m.delay = ⟨3⟩ ∧ m.sound = ⟨4⟩ ∧ m.Waited t 4 ∧ t.delay.value.toNat = 0 ∧
      ((t.tick (.ofFlags isSet last)).state.reg 3).toNat = 7 ∧
      (t.tick (.ofFlags isSet last)).state.processor.pc = 0x208 ∧
      (t.setReg 3 0xAB).tick (.ofFlags isSet last) = t.tick (.ofFlags isSet last) := by
  intro m isSet waits last t
  have hm : m.Reachable := (Reachable.fresh _).foldl_perform _
  obtain ⟨hdelay, hsound, hpc, hword⟩ : m.delay = ⟨3⟩ ∧ m.sound = ⟨4⟩ ∧
      m.processor.pc = 0x206 ∧ m.wordAtPc = 0xF30A := by decide +kernel
  clear_value m
  have hinside : m.processor.pc ≤ 4094 := by omega
  have hfits : m.wordAtPc.Fits "FX0A" := by
    rw [hword]
    decide
  have hnone : ∀ flags ∈ waits, ∀ k : Key, flags.pressed isSet k.val = false := by decide
  have hpressed : last.pressed isSet (7 : Key).val = true := by decide
  obtain ⟨⟨-, hwaited⟩, ⟨-, hafter, ⟨k, hgreatest, hreg⟩, -⟩, hforgets⟩ :=
    waiting_polls_keys isSet hm hinside hfits hnone ⟨7, hpressed⟩
  have hle : ∀ l : Key, last.pressed isSet l.val = true → l ≤ 7 := by decide
  have hseven : k = 7 := hgreatest.unique ⟨hpressed, fun l => hle l⟩
  rw [show m.wordAtPc.x = 3 by rw [hword]; rfl] at hreg hforgets
  refine ⟨hm, hdelay, hsound, hwaited, ?_, ?_, ?_, (hforgets 0xAB).2.2⟩
  · rw [hwaited.delay, hdelay]
    rfl
  · rw [hreg, hseven]
    rfl
  · rw [hafter, hpc]
    rfl

end Machine

end ChipEight
