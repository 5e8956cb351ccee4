import ChipEight.Proofs.Machine.Requests
import ChipEight.Proofs.Machine.Ticks

/-!
# Timers over many ticks

A tick does one of three things to a timer: if it faults, nothing; if its instruction sets the
timer, the timer takes the value of a register and counts down by one; else it counts down by one.
Over many ticks, some of which may fault, the value of a timer is therefore told by the last time
that it was set, or by its value at the start, and by the number of ticks completed since.

## Main definitions

* `Machine.TimerName`, `Machine.timer`: the two timers by name.
* `Machine.sets?`: the register from which the next tick sets a timer.
* `Machine.NeverSets`, `Machine.LastSet`: whether and when ticks set a timer.
* `Machine.withTimers`: the same machine but for its timers and the tone.
-/

namespace ChipEight

namespace Machine

/-- The names of the timers. -/
inductive TimerName where
  | delay
  | sound

namespace TimerName

def other : TimerName → TimerName
  | delay => sound
  | sound => delay

end TimerName

def timer (m : Machine) : TimerName → Timer
  | .delay => m.delay
  | .sound => m.sound

def setTimer (m : Machine) (t : Timer) : TimerName → Machine
  | .delay => { m with delay := t }
  | .sound => { m with sound := t }

end Machine

/-- The register from which the instruction sets a timer. -/
def Instruction.sets? : Machine.TimerName → Instruction → Option Nibble
  | .delay, .setDelay x => some x
  | .sound, .setSound x => some x
  | _, _ => none

namespace Machine

/-- The register from which the next instruction sets a timer. -/
def sets? (m : Machine) (c : TimerName) : Option Nibble :=
  match m.fetch with
  | .ok f => f.instruction.sets? c
  | .error _ => none

/-- None of the ticks sets the timer. -/
def NeverSets (m : Machine) (c : TimerName) (reports : List Keys) : Prop :=
  ∀ u ∈ m.visits reports, u.sets? c = none

/-- The tick between the others sets the timer from a register, and none behind it does. -/
structure LastSet (m : Machine) (c : TimerName) (before : List Keys) (keys : Keys)
    (after : List Keys) (x : Nibble) : Prop where
  sets : (m.tickThrough before).sets? c = some x
  last : NeverSets ((m.tickThrough before).tick keys).state c after

/-- The next instruction reads the delay timer. -/
def ReadsDelay (m : Machine) : Prop := ∃ w x, m.fetch = .ok ⟨w, .getDelay x⟩

variable {m t : Machine} {keys : Keys} {reports : List Keys} {i : Instruction} {c : TimerName}
  {x : Nibble}

/-! ## One tick -/

theorem timer_of_sameDevices (h : m.SameDevices t) : t.timer c = m.timer c := by
  cases c
  · exact h.delay
  · exact h.sound

/-- An instruction that is cut short leaves the timers alone. -/
theorem timer_residue (m : Machine) (i : Instruction) (c : TimerName) :
    (m.residue i).timer c = m.timer c := by
  cases i with
  | storeDecimal | saveRegisters => exact timer_of_sameDevices (.stored m _)
  | loadRegisters => exact timer_of_sameDevices (.restored m _)
  | draw => cases c <;> rfl
  | _ => rfl

theorem timer_of_execute (h : m.execute keys i = .done t ()) :
    t.timer c = (i.sets? c).elim (m.timer c) fun x => ⟨m.reg x⟩ := by
  cases hi : i.touchesDevices with
  | false =>
    have hs : m.SameDevices t := by
      have hs : m.SameDevices (m.execute keys i).state := sameDevices_execute hi
      rwa [h] at hs
    have hn : i.sets? c = none := by
      cases i with
      | setDelay | setSound => cases hi
      | _ => cases c <;> rfl
    rw [timer_of_sameDevices hs, hn]
    rfl
  | true =>
    cases i with
    | draw x y n =>
      rw [execute_draw, drawSprite_eq] at h
      split at h <;> cases h
      cases c <;> rfl
    | invalid | clearScreen | random | setDelay | setSound =>
      cases h
      cases c <;> rfl
    | _ => cases hi

/-- What a tick does to a timer. -/
theorem timer_tick (m : Machine) (keys : Keys) (c : TimerName) :
    (m.tick keys).state.timer c =
      if (m.tick keys).fault? = none then
        ((m.sets? c).elim (m.timer c) fun x => ⟨m.reg x⟩).tick
      else m.timer c := by
  obtain ⟨e, -, ht⟩ | ⟨f, t, e, -, hx, ht⟩ | ⟨f, t, hf, hx, ht⟩ := m.tick_cases keys
  · rw [ht]
    cases c <;> rfl
  · rw [ht, eq_residue_of_stopped hx]
    exact timer_residue m.quieten f.instruction c
  · have hs : m.sets? c = f.instruction.sets? c := by rw [sets?, hf]
    have hc : t.countDown.timer c = (t.timer c).tick := by cases c <;> rfl
    have hq : m.quieten.timer c = m.timer c := by cases c <;> rfl
    rw [ht, hs]
    simp only [Outcome.state_done, Outcome.fault?_done, if_true]
    rw [hc, timer_of_execute hx, hq]
    rfl

theorem canFault_of_sets? (h : i.sets? c = some x) : i.canFault = false := by
  cases i with
  | setDelay | setSound => rfl
  | _ => cases c <;> cases h

/-- To set a timer never faults. -/
theorem fault?_tick_of_sets? (h : m.sets? c = some x) : (m.tick keys).fault? = none := by
  unfold sets? at h
  cases hf : m.fetch with
  | error e =>
    rw [hf] at h
    cases h
  | ok f =>
    rw [hf] at h
    rw [fault?_tick_of_fetch hf]
    exact fault?_execute_of_canFault_eq_false _ keys (canFault_of_sets? h)

/-- What one timer holds does not matter to the other. -/
theorem timer_tick_setTimer_other (h : m.Bounded) (c : TimerName) (o : Timer) (keys : Keys) :
    ((m.setTimer o c.other).tick keys).state.timer c = (m.tick keys).state.timer c := by
  have hfault : ((m.setTimer o c.other).tick keys).fault? = (m.tick keys).fault? := by
    cases c <;> rw [fault?_tick h.hasPixels h.pc_nonneg] <;>
      exact fault?_tick (m := setTimer m o _) h.hasPixels h.pc_nonneg
  have hsets : (m.setTimer o c.other).sets? c = m.sets? c := by cases c <;> rfl
  have hreg : (m.setTimer o c.other).reg = m.reg := by cases c <;> rfl
  have htimer : (m.setTimer o c.other).timer c = m.timer c := by cases c <;> rfl
  rw [timer_tick, timer_tick, hfault, hsets, hreg, htimer]

/-! ## What reads a timer -/

/-- The machine with other timers and another tone. -/
def withTimers (m : Machine) (delay sound : Timer) (tone : Bool) : Machine :=
  { m with delay, sound, signals := { m.signals with tone } }

section

variable {d s : Timer} {b : Bool}

theorem skipIf_withTimers (m : Machine) (p : Bool) :
    (m.withTimers d s b).skipIf p = (m.skipIf p).withTimers d s b := by cases p <;> rfl

@[simp] theorem processor_withTimers : (m.withTimers d s b).processor = m.processor := rfl

@[simp] theorem memory_withTimers : (m.withTimers d s b).memory = m.memory := rfl

@[simp] theorem reg_withTimers : (m.withTimers d s b).reg = m.reg := rfl

theorem advance_withTimers (m : Machine) :
    (m.withTimers d s b).advance = m.advance.withTimers d s b := rfl

theorem passRegisters_withTimers (m : Machine) (x : Nibble) :
    (m.withTimers d s b).passRegisters x = (m.passRegisters x).withTimers d s b := rfl

theorem calculate_withTimers (m : Machine) (op : Arithmetic) (x y : Nibble) :
    (m.withTimers d s b).calculate op x y = (m.calculate op x y).withTimers d s b := by
  simp only [calculate, reg_withTimers]
  cases op.flag? (m.reg x) (m.reg y) <;> rfl

theorem store_withTimers (m : Machine) (bytes : List UInt8) {after : Machine → Machine}
    (h : ∀ t, after (t.withTimers d s b) = (after t).withTimers d s b) :
    (m.withTimers d s b).store bytes after =
      (m.store bytes after).inside (·.withTimers d s b) := by
  have hs : (m.withTimers d s b).stored bytes = (m.stored bytes).withTimers d s b := rfl
  simp only [store_eq, hs, h, processor_withTimers, memory_withTimers]
  cases (m.memory.writeAll m.processor.index.toNat bytes).answer <;> rfl

theorem restore_withTimers (m : Machine) (xs : List Nibble) {after : Machine → Machine}
    (h : ∀ t, after (t.withTimers d s b) = (after t).withTimers d s b) :
    (m.withTimers d s b).restore xs after =
      (m.restore xs after).inside (·.withTimers d s b) := by
  have hs : (m.withTimers d s b).restored xs = (m.restored xs).withTimers d s b := rfl
  simp only [restore_eq, hs, h, processor_withTimers, memory_withTimers]
  cases (readRegisters m.memory m.processor m.processor.index.toNat xs).answer <;> rfl

theorem drawSprite_withTimers (m : Machine) (x y n : Nibble) :
    (m.withTimers d s b).drawSprite x y n =
      (m.drawSprite x y n).inside (·.withTimers d s b) := by
  have hs : (m.withTimers d s b).sprite x y n.val = m.sprite x y n.val := rfl
  have hd : (m.withTimers d s b).drawn x y n = (m.drawn x y n).withTimers d s b := rfl
  simp only [drawSprite_eq, hs, hd]
  cases (m.sprite x y n.val).answer <;> rfl

/-- An instruction does not depend on the timers, unless it reads the delay timer and that one is
not the same. -/
theorem execute_withTimers (keys : Keys) (h : d = m.delay ∨ ∀ x, i ≠ .getDelay x) :
    ∃ d' s', (m.withTimers d s b).execute keys i =
      (m.execute keys i).inside (·.withTimers d' s' b) := by
  cases i with
  | getDelay x =>
    obtain rfl | h := h
    · exact ⟨m.delay, s, rfl⟩
    · exact absurd rfl (h x)
  -- A timer that is set takes what a register holds, whatever it held before.
  | setDelay x => exact ⟨⟨m.reg x⟩, s, rfl⟩
  | setSound x => exact ⟨d, ⟨m.reg x⟩, rfl⟩
  | draw x y n => exact ⟨d, s, drawSprite_withTimers m x y n⟩
  | storeDecimal x =>
    refine ⟨d, s, ?_⟩
    rw [execute_storeDecimal, execute_storeDecimal, reg_withTimers]
    exact store_withTimers m _ advance_withTimers
  | saveRegisters x =>
    refine ⟨d, s, ?_⟩
    rw [execute_saveRegisters, execute_saveRegisters, reg_withTimers]
    exact store_withTimers m _ (passRegisters_withTimers · x)
  | loadRegisters x =>
    refine ⟨d, s, ?_⟩
    rw [execute_loadRegisters, execute_loadRegisters]
    exact restore_withTimers m _ (passRegisters_withTimers · x)
  | skipEqualByte | skipUnequalByte | skipEqual | skipUnequal | skipPressed | skipReleased =>
    exact ⟨d, s, congrArg (Outcome.done · ()) (skipIf_withTimers m _)⟩
  | arithmetic op x y =>
    refine ⟨d, s, ?_⟩
    have ha (m : Machine) : m.execute keys (.arithmetic op x y) =
      .done (m.advance.calculate op x y) () := rfl
    rw [ha, ha, advance_withTimers, calculate_withTimers]
    rfl
  | waitKey x =>
    refine ⟨d, s, ?_⟩
    rw [execute_waitKey, execute_waitKey]
    cases keys.greatest? <;> rfl
  | ret =>
    refine ⟨d, s, ?_⟩
    rw [execute_ret, execute_ret, processor_withTimers]
    rfl
  | call target =>
    refine ⟨d, s, ?_⟩
    rw [execute_call, execute_call, processor_withTimers]
    rfl
  | _ => exact ⟨d, s, rfl⟩

/-- A tick of two machines that differ in their timers leaves machines that differ in no more. -/
theorem tick_withTimers (keys : Keys) (h : d = m.delay ∨ ¬m.ReadsDelay) :
    ∃ d' s' b', ((m.withTimers d s b).tick keys).state = (m.tick keys).state.withTimers d' s' b' ∧
      ((m.withTimers d s b).tick keys).fault? = (m.tick keys).fault? := by
  have hfetch : (m.withTimers d s b).fetch = m.fetch := rfl
  cases hf : m.fetch with
  | error e =>
    rw [tick_of_fetch_error hf, tick_of_fetch_error (hfetch.trans hf)]
    exact ⟨d, s, b, rfl, rfl⟩
  | ok f =>
    have hi : d = m.quieten.delay ∨ ∀ x, f.instruction ≠ .getDelay x :=
      h.imp_right fun hn x hx => hn ⟨f.word, x, by rw [hf, ← hx]⟩
    obtain ⟨d', s', hx⟩ := execute_withTimers (s := s) (b := b) keys hi
    have hq : (m.withTimers d s b).quieten = m.quieten.withTimers d s b := rfl
    rw [← hq] at hx
    rcases ho : m.quieten.execute keys f.instruction with ⟨t, e | ⟨⟩⟩ <;> rw [ho] at hx
    · rw [tick_of_stopped hf ho, tick_of_stopped (hfetch.trans hf) hx]
      exact ⟨d', s', b, rfl, rfl⟩
    · rw [tick_of_done hf ho, tick_of_done (hfetch.trans hf) hx]
      exact ⟨d'.tick, s'.tick, s'.value = 1, rfl, rfl⟩

end

/-- Reading the delay timer gives its value before the tick counts it down. -/
theorem tick_getDelay {w : Word} (h : m.fetch = .ok ⟨w, .getDelay x⟩) (keys : Keys) :
    (m.tick keys).fault? = none ∧ (m.tick keys).state.reg x = m.delay.value ∧
      (m.tick keys).state.delay = m.delay.tick := by
  have hx : m.quieten.execute keys (.getDelay x) =
      .done (m.quieten.setReg x m.delay.value).advance () := rfl
  rw [tick_of_done h hx]
  refine ⟨rfl, ?_, rfl⟩
  show (m.processor.setReg x m.delay.value).reg x = _
  rw [Processor.reg_setReg, if_pos rfl]

/-! ## Many ticks -/

theorem NeverSets.of_append {before after : List Keys} (h : m.NeverSets c (before ++ after)) :
    m.NeverSets c before ∧ (m.tickThrough before).NeverSets c after := by
  unfold NeverSets at *
  rw [visits_append, List.forall_mem_append] at h
  exact h

/-- A timer that is not set counts the completed ticks. -/
theorem NeverSets.timer_tickThrough (h : m.NeverSets c reports) :
    ((m.tickThrough reports).timer c).value.toNat =
      (m.timer c).value.toNat - m.completed reports := by
  induction reports generalizing m with
  | nil => rfl
  | cons keys reports ih =>
    obtain ⟨hm, hrest⟩ := List.forall_mem_cons.1 h
    have hstep := m.timer_tick keys c
    simp only [hm, Option.elim_none] at hstep
    -- A tick that faults changes neither side, and a completed one takes one from both.
    show (((m.tick keys).state.tickThrough reports).timer c).value.toNat = _
    rw [ih hrest, hstep, completed]
    split
    · rw [Timer.toNat_tick]
      omega
    · omega

/-- From the tick that sets a timer last, the completed ticks are counted off what it was set
to. -/
theorem LastSet.timer_tickThrough {before after : List Keys}
    (h : m.LastSet c before keys after x) :
    ((m.tickThrough (before ++ keys :: after)).timer c).value.toNat =
      ((m.tickThrough before).reg x).toNat -
        (m.tickThrough before).completed (keys :: after) := by
  obtain ⟨hset, hlast⟩ := h
  -- Only the machine at the tick that sets the timer matters, not how it got there.
  rw [tickThrough_append]
  generalize m.tickThrough before = u at hset hlast
  have hok : (u.tick keys).fault? = none := fault?_tick_of_sets? hset
  have hstep := u.timer_tick keys c
  simp only [hset, hok, if_true, Option.elim_some] at hstep
  show (((u.tick keys).state.tickThrough after).timer c).value.toNat = _
  rw [hlast.timer_tickThrough, hstep, Timer.toNat_tick, completed, if_pos hok]
  show (u.reg x).toNat - 1 - _ = _
  omega

/-- A timer is never set, or one tick is the last that sets it. -/
theorem neverSets_or_lastSet (m : Machine) (c : TimerName) (reports : List Keys) :
    m.NeverSets c reports ∨
      ∃ before keys after x, reports = before ++ keys :: after ∧
        m.LastSet c before keys after x := by
  induction reports generalizing m with
  | nil => exact .inl nofun
  | cons keys reports ih =>
    obtain hnone | ⟨before, keys', after, x, rfl, hset, hlast⟩ := ih (m.tick keys).state
    · cases hm : m.sets? c with
      | none => exact .inl (List.forall_mem_cons.2 ⟨hm, hnone⟩)
      | some x => exact .inr ⟨[], keys, reports, x, rfl, hm, hnone⟩
    · exact .inr ⟨keys :: before, keys', after, x, rfl, hset, hlast⟩

/-- Over ticks that do not read a changed delay timer, changes to one timer do not reach the
other. -/
theorem timer_tickThrough_withTimers {d s : Timer} {b : Bool}
    (h : (m.withTimers d s b).timer c = m.timer c)
    (hread : c = .sound → ∀ u ∈ m.visits reports, ¬u.ReadsDelay) :
    ((m.withTimers d s b).tickThrough reports).timer c = (m.tickThrough reports).timer c := by
  -- The two machines go on to differ in their timers alone, so they take the same instructions.
  induction reports generalizing m d s b with
  | nil => exact h
  | cons keys reports ih =>
    have hd : d = m.delay ∨ ¬m.ReadsDelay := by
      cases c with
      | delay => exact .inl h
      | sound => exact .inr (hread rfl m List.mem_cons_self)
    obtain ⟨d', s', b', hstate, hfault⟩ := tick_withTimers (s := s) (b := b) keys hd
    have hsets : (m.withTimers d s b).sets? c = m.sets? c := rfl
    have hnext :
        ((m.tick keys).state.withTimers d' s' b').timer c = (m.tick keys).state.timer c := by
      rw [← hstate, timer_tick, timer_tick, hfault, hsets, reg_withTimers, h]
    show ((((m.withTimers d s b).tick keys).state).tickThrough reports).timer c = _
    rw [hstate]
    exact ih hnext fun hc u hu => hread hc u (List.mem_cons_of_mem m hu)

/-- Over ticks of which any may fault, a timer that is not set goes down by the number of the
completed ones, and one that is set goes down from the value that it is set to last, by that tick
and the completed ones behind it; at zero it stays. One timer does not matter to the other, unless
a program reads the delay timer and sets the sound timer from it; and what it reads is the value
from before the tick. -/
theorem timers_count_completed_ticks (hm : m.Reachable) :
    (∀ (c : TimerName) (reports : List Keys),
      (m.NeverSets c reports →
        ((m.tickThrough reports).timer c).value.toNat =
          (m.timer c).value.toNat - m.completed reports) ∧
      (∀ before keys after x, m.LastSet c before keys after x →
        let u := m.tickThrough before
        ((m.tickThrough (before ++ keys :: after)).timer c).value.toNat =
          (u.reg x).toNat - u.completed (keys :: after)) ∧
      (m.NeverSets c reports ∨ ∃ before keys after x, reports = before ++ keys :: after ∧
        m.LastSet c before keys after x)) ∧
    (∀ (c : TimerName) (o : Timer) (keys : Keys),
      ((m.setTimer o c.other).tick keys).state.timer c = (m.tick keys).state.timer c) ∧
    (∀ (c : TimerName) (o : Timer) (reports : List Keys),
      (c = .sound → ∀ u ∈ m.visits reports, ¬u.ReadsDelay) →
        ((m.setTimer o c.other).tickThrough reports).timer c =
          (m.tickThrough reports).timer c) ∧
    ∀ (w : Word) (x : Nibble) (keys : Keys), m.fetch = .ok ⟨w, .getDelay x⟩ →
      (m.tick keys).fault? = none ∧ (m.tick keys).state.reg x = m.delay.value ∧
        (m.tick keys).state.delay = m.delay.tick := by
  refine ⟨fun c reports => ⟨fun h => h.timer_tickThrough, fun _ _ _ _ h => h.timer_tickThrough,
    m.neverSets_or_lastSet c reports⟩, timer_tick_setTimer_other hm.bounded, ?_,
    fun w x keys hf => tick_getDelay hf keys⟩
  intro c o reports hread
  cases c with
  | delay => exact timer_tickThrough_withTimers (s := o) (b := m.signals.tone) rfl hread
  | sound => exact timer_tickThrough_withTimers (d := o) (b := m.signals.tone) rfl hread

/-- Both timers are set to five, one tick after the other, and the delay timer is read; the two
returns behind it have no call to return from and do not count. -/
theorem timers_behind_faulted_ticks :
    let m := (fresh (.tape [] 0)).perform
      (.load [0x60, 0x05, 0xF0, 0x15, 0xF0, 0x18, 0xF2, 0x07, 0x00, 0xEE])
    let t := m.tickThrough (List.replicate 6 .none)
    m.Reachable ∧ (t.timer .delay).value.toNat = 2 ∧ (t.timer .sound).value.toNat = 3 := by
  intro m t
  have hm : m.Reachable := (Reachable.fresh _).perform _
  obtain ⟨hcount, -⟩ := timers_count_completed_ticks hm
  have hdelay : m.LastSet .delay [.none] .none (List.replicate 4 .none) 0 :=
    ⟨by decide +kernel, by unfold NeverSets; decide +kernel⟩
  have hsound : m.LastSet .sound [.none, .none] .none (List.replicate 3 .none) 0 :=
    ⟨by decide +kernel, by unfold NeverSets; decide +kernel⟩
  refine ⟨hm, ((hcount .delay []).2.1 _ _ _ _ hdelay).trans ?_,
    ((hcount .sound []).2.1 _ _ _ _ hsound).trans ?_⟩
  · decide +kernel
  · decide +kernel

end Machine

end ChipEight
