import ChipEight.Recorder
import ChipEight.Proofs.Machine.Timers

/-!
# Tones

A completed tick signals a tone if the sound timer stands at one between its instruction and the
count. A timer that counts off what it was set to passes one on its way to zero, once, unless it is
set anew before. So the tones of many ticks, some of which may fault, are told by the settings of
the sound timer: there is one for each setting that runs out before the next.

## Main definitions

* `Machine.givesTone`, `Machine.tones`: the tones of ticks of which some may fault.
* `Machine.untilSet`: the ticks before the next one that sets a timer.
* `Machine.expiries`: how many settings of the sound timer run out.
* `Recorder.recordThrough`, `Machine.attempts`: recorded runs of which some may fault.
-/

namespace ChipEight

/-- How many times the timer runs out within a number of counts: once, or not at all. -/
def Timer.expiries (t : Timer) (n : Nat) : Nat :=
  if 1 ≤ t.value.toNat ∧ t.value.toNat ≤ n then 1 else 0

theorem Timer.expiries_zero (t : Timer) : t.expiries 0 = 0 := if_neg (by omega)

theorem Timer.value_eq_one_iff {t : Timer} : t.value = 1 ↔ t.value.toNat = 1 :=
  UInt8.toNat_inj.symm

/-- A timer runs out with the count that finds it at one, or with a later one. -/
theorem Timer.expiries_succ (t : Timer) (n : Nat) :
    t.expiries (n + 1) = (if t.value = 1 then 1 else 0) + t.tick.expiries n := by
  simp only [expiries, toNat_tick, value_eq_one_iff]
  grind

namespace Machine

/-- The next tick is completed and signals a tone. -/
def givesTone (m : Machine) (keys : Keys) : Bool :=
  match (m.tick keys).answer with
  | .ok signals => signals.tone
  | .error _ => false

/-- How many of the ticks are completed with a tone. -/
def tones (m : Machine) : List Keys → Nat
  | [] => 0
  | keys :: reports => (if m.givesTone keys then 1 else 0) + (m.tick keys).state.tones reports

/-- A timer as the next tick counts it down, behind what its instruction sets. -/
def counted (m : Machine) (c : TimerName) : Timer :=
  (m.sets? c).elim (m.timer c) fun x => ⟨m.reg x⟩

/-- The ticks before the first one that sets the timer. -/
def untilSet (m : Machine) (c : TimerName) : List Keys → List Keys
  | [] => []
  | keys :: reports =>
    if (m.sets? c).isSome then [] else keys :: (m.tick keys).state.untilSet c reports

/-- How many settings of the sound timer run out before the next setting and the end. -/
def expiries (m : Machine) : List Keys → Nat
  | [] => 0
  | keys :: reports =>
    let t := (m.tick keys).state
    ((m.sets? .sound).elim 0 fun x =>
      Timer.expiries ⟨m.reg x⟩ (m.completed (keys :: t.untilSet .sound reports))) +
      t.expiries reports

/-- The reports that the ticks of recorded runs see, those that stop one of the runs included. -/
def attempts (m : Machine) : List (Keys × Int) → List Keys
  | [] => []
  | (keys, n) :: calls =>
    let reports := m.attempted keys n.toNat
    reports ++ (m.tickThrough reports).attempts calls

variable {m : Machine} {keys keys' : Keys} {reports before after mid rest : List Keys}
  {c : TimerName} {x : Nibble}

/-! ## One tick -/

theorem counted_of_sets? (h : m.sets? c = some x) : m.counted c = ⟨m.reg x⟩ := by
  rw [counted, h]
  rfl

theorem counted_of_sets?_eq_none (h : m.sets? c = none) : m.counted c = m.timer c := by
  rw [counted, h]
  rfl

/-- A tone is signalled by a completed tick that counts the sound timer down from one. -/
theorem givesTone_iff :
    m.givesTone keys = true ↔ (m.tick keys).fault? = none ∧ (m.counted .sound).value = 1 := by
  obtain ⟨e, -, ht⟩ | ⟨f, t, e, -, -, ht⟩ | ⟨f, t, hf, hx, ht⟩ := m.tick_cases keys
  · simp [givesTone, ht, Outcome.stopped, Outcome.fault?]
  · simp [givesTone, ht, Outcome.stopped, Outcome.fault?]
  · have hc : t.sound = m.counted .sound := by
      rw [counted, sets?, hf]
      exact timer_of_execute (m := m.quieten) (c := .sound) hx
    rw [givesTone, ht, ← hc]
    simp [Outcome.done, Outcome.fault?, countDown]

/-- Of a timer that runs out, either the next tick gives the tone or it runs out behind that. -/
theorem expiries_counted (m : Machine) (keys : Keys) (reports : List Keys) :
    (m.counted .sound).expiries (m.completed (keys :: reports)) =
      (if m.givesTone keys then 1 else 0) +
        (m.tick keys).state.sound.expiries ((m.tick keys).state.completed reports) := by
  have hstep : (m.tick keys).state.sound = _ := m.timer_tick keys .sound
  simp only [givesTone_iff, hstep, completed]
  cases hf : (m.tick keys).fault? with
  | none =>
    rw [if_pos rfl, if_pos rfl, Nat.add_comm 1, Timer.expiries_succ]
    simp only [true_and]
    rfl
  | some e =>
    -- A tick that sets the timer does not fault.
    have hn : m.sets? .sound = none := by
      rw [Option.eq_none_iff_forall_ne_some]
      intro x hx
      rw [fault?_tick_of_sets? hx] at hf
      cases hf
    rw [counted_of_sets?_eq_none hn]
    simp

/-! ## The tones of many ticks -/

theorem NeverSets.untilSet_eq (h : m.NeverSets c reports) : m.untilSet c reports = reports := by
  induction reports generalizing m with
  | nil => rfl
  | cons keys reports ih =>
    obtain ⟨hm, hrest⟩ := List.forall_mem_cons.1 h
    simp [untilSet, hm, ih hrest]

theorem NeverSets.expiries_eq (h : m.NeverSets .sound reports) : m.expiries reports = 0 := by
  induction reports generalizing m with
  | nil => rfl
  | cons keys reports ih =>
    obtain ⟨hm, hrest⟩ := List.forall_mem_cons.1 h
    simp [expiries, hm, ih hrest]

/-- There is a tone for what the sound timer holds, if it runs out before it is set, and for each
setting that runs out. -/
theorem tones_eq (m : Machine) (reports : List Keys) :
    m.tones reports =
      m.sound.expiries (m.completed (m.untilSet .sound reports)) + m.expiries reports := by
  induction reports generalizing m with
  | nil => simp [tones, untilSet, expiries, Timer.expiries_zero]
  | cons keys reports ih =>
    have hstep := m.expiries_counted keys ((m.tick keys).state.untilSet .sound reports)
    rw [tones, ih, ← Nat.add_assoc, ← hstep, expiries, untilSet]
    cases hm : m.sets? .sound with
    | none =>
      rw [counted_of_sets?_eq_none hm]
      simp [timer]
    | some x =>
      rw [counted_of_sets? hm]
      simp [Timer.expiries_zero]

theorem tones_append (m : Machine) (before after : List Keys) :
    m.tones (before ++ after) = m.tones before + (m.tickThrough before).tones after := by
  induction before generalizing m with
  | nil => simp [tones]
  | cons keys before ih => simp [tones, ih, Nat.add_assoc]

/-- From a sound timer at zero on, there are as many tones as settings that run out. -/
theorem tones_eq_expiries (h : m.sound.value = 0) (reports : List Keys) :
    m.tones reports = m.expiries reports := by
  have hidle (n : Nat) : m.sound.expiries n = 0 := by simp [Timer.expiries, h]
  rw [tones_eq, hidle]
  exact Nat.zero_add _

/-- A setting with none behind it gives one tone if it runs out, and else none. -/
theorem tones_of_sets? (hset : m.sets? .sound = some x)
    (hlast : (m.tick keys).state.NeverSets .sound after) :
    m.tones (keys :: after) =
      if 1 ≤ (m.reg x).toNat ∧ (m.reg x).toNat ≤ m.completed (keys :: after) then 1 else 0 := by
  rw [tones_eq, untilSet, expiries, hset, hlast.untilSet_eq, hlast.expiries_eq, Option.isSome_some,
    if_pos rfl, completed_nil, Timer.expiries_zero, Nat.zero_add]
  rfl

/-! ## The tick with the tone -/

/-- A timer that is not set is counted down from what it holds. -/
theorem NeverSets.toNat_counted (h : m.NeverSets c (mid ++ keys :: rest)) :
    ((m.tickThrough mid).counted c).value.toNat =
      (m.timer c).value.toNat - m.completed mid := by
  obtain ⟨hmid, hkeys⟩ := h.of_append
  rw [counted_of_sets?_eq_none (List.forall_mem_cons.1 hkeys).1, hmid.timer_tickThrough]

/-- A timer that is set is counted down from what it is set to, by the tick that sets it and by
those behind it. -/
theorem toNat_counted_of_sets? (hset : m.sets? c = some x)
    (hlast : (m.tick keys).state.NeverSets c after) (he : keys :: after = mid ++ keys' :: rest) :
    ((m.tickThrough mid).counted c).value.toNat = (m.reg x).toNat - m.completed mid := by
  cases mid with
  | nil => rw [tickThrough_nil, counted_of_sets? hset, completed_nil, Nat.sub_zero]
  | cons k mid =>
    obtain ⟨rfl, rfl⟩ := List.cons.inj he
    obtain ⟨hmid, hkeys⟩ := hlast.of_append
    have hl : m.LastSet c [] keys mid x := ⟨hset, hmid⟩
    rw [tickThrough_cons, counted_of_sets?_eq_none (List.forall_mem_cons.1 hkeys).1]
    exact hl.timer_tickThrough

/-- The tone of a setting comes with the completed tick that counts its last. -/
theorem givesTone_iff_of_sets? (hset : m.sets? .sound = some x)
    (hlast : (m.tick keys).state.NeverSets .sound after)
    (he : keys :: after = mid ++ keys' :: rest) :
    (m.tickThrough mid).givesTone keys' = true ↔
      ((m.tickThrough mid).tick keys').fault? = none ∧
        (m.reg x).toNat = m.completed mid + 1 := by
  have hv := toNat_counted_of_sets? hset hlast he
  rw [givesTone_iff, Timer.value_eq_one_iff, hv]
  exact and_congr_right fun _ => by omega

/-- A completed tick signals a tone if and only if the sound timer was set before, or is set by it,
and the completed ticks since then are as many as it was set to last. -/
theorem tone_iff {signals : Signals} (h : m.sound.value = 0)
    (hdone : ((m.tickThrough reports).tick keys).answer = .ok signals) :
    signals.tone = true ↔ ∃ before keys' after x, reports ++ [keys] = before ++ keys' :: after ∧
      m.LastSet .sound before keys' after x ∧
        ((m.tickThrough before).reg x).toNat =
          (m.tickThrough before).completed (keys' :: after) := by
  have htone : (m.tickThrough reports).givesTone keys = signals.tone := by
    rw [givesTone, hdone]
  have hok : ((m.tickThrough reports).tick keys).fault? = none := by
    rw [Outcome.fault?, hdone]
  -- Wherever the last setting is, the tone is told by the ticks since.
  have hcount {before keys' after x} (he : reports ++ [keys] = before ++ keys' :: after)
      (hlast : m.LastSet .sound before keys' after x) :
      signals.tone = true ↔ ((m.tickThrough before).reg x).toNat =
        (m.tickThrough before).completed (keys' :: after) := by
    obtain ⟨mid, k, hk⟩ : ∃ mid k, keys' :: after = mid ++ [k] :=
      ⟨_, _, (List.dropLast_concat_getLast (List.cons_ne_nil keys' after)).symm⟩
    rw [hk, ← List.append_assoc] at he
    obtain ⟨rfl, hlen⟩ := List.append_inj' he rfl
    obtain rfl := List.singleton_inj.1 hlen
    rw [tickThrough_append] at htone hok
    rw [← htone, givesTone_iff_of_sets? hlast.sets hlast.last hk, hk, completed_append, completed,
      if_pos hok]
    simp [hok]
  constructor
  · intro ht
    obtain hnever | ⟨before, keys', after, x, he, hlast⟩ :=
      m.neverSets_or_lastSet .sound (reports ++ [keys])
    · have hz := hnever.toNat_counted
      have hsound : (m.timer .sound).value.toNat = 0 := by simp [timer, h]
      rw [(givesTone_iff.1 (htone.trans ht)).2, hsound, Nat.zero_sub] at hz
      cases hz
    · exact ⟨before, keys', after, x, he, hlast, (hcount he hlast).1 ht⟩
  · rintro ⟨before, keys', after, x, he, hlast, hv⟩
    exact (hcount he hlast).2 hv

end Machine

/-! ## Recorded runs -/

namespace Recorder

open Machine

/-- A recorder and its machine after recorded runs that follow one another even if a fault stops
some of them. -/
def recordThrough (r : Recorder) (m : Machine) (calls : List (Keys × Int)) : Recorder × Machine :=
  calls.foldl (fun s call => (s.1.record s.2 call.1 call.2).state) (r, m)

/-- A recorded run takes the ticks that it attempts, and counts those with a tone. -/
theorem state_recordTicks (r : Recorder) (m : Machine) (keys : Keys) (n : Nat) :
    let s := (r.recordTicks m keys n).state
    s.2 = m.tickThrough (m.attempted keys n) ∧
      s.1.toneTicks = r.toneTicks + m.tones (m.attempted keys n) := by
  induction n generalizing r m with
  | zero => exact ⟨rfl, rfl⟩
  | succ n ih =>
    rw [recordTicks]
    rcases ht : m.tick keys with ⟨t, e | signals⟩
    · rw [attempted_succ_of_stopped ht]
      simp [tones, givesTone, ht]
    · obtain ⟨hm, hr⟩ := ih (r.note t signals) t
      rw [attempted_succ_of_done ht]
      refine ⟨?_, hr.trans ?_⟩
      · rw [hm, tickThrough_cons, ht]
      · simp only [tones, givesTone, ht, note]
        cases signals.tone <;> simp [Nat.add_assoc]

theorem recordThrough_eq (r : Recorder) (m : Machine) (calls : List (Keys × Int)) :
    (r.recordThrough m calls).2 = m.tickThrough (m.attempts calls) ∧
      (r.recordThrough m calls).1.toneTicks = r.toneTicks + m.tones (m.attempts calls) := by
  induction calls generalizing r m with
  | nil => exact ⟨rfl, rfl⟩
  | cons call calls ih =>
    obtain ⟨keys, n⟩ := call
    obtain ⟨hm, hr⟩ := r.state_recordTicks m keys n.toNat
    obtain ⟨hm', hr'⟩ := ih (r.recordTicks m keys n.toNat).state.1
      (r.recordTicks m keys n.toNat).state.2
    rw [attempts, tickThrough_append, tones_append, ← Nat.add_assoc, ← hm, ← hr]
    exact ⟨hm', hr'⟩

end Recorder

/-- Over ticks of which any may fault, from a sound timer at zero on: a completed tick signals a
tone if and only if the sound timer has been set, and the completed ticks since it was set last,
with that one, are as many as it was set to. So a setting gives one tone, with the tick that
completes its number, if it gets that far before the next setting and the end, and else none; the
tones are as many as the settings that get that far; and a recorder counts just these. -/
theorem Machine.one_tone_for_each_expiry {m : Machine} (h : m.sound.value = 0) :
    (∀ reports keys signals, ((m.tickThrough reports).tick keys).answer = .ok signals →
      (signals.tone = true ↔ ∃ before keys' after x,
        reports ++ [keys] = before ++ keys' :: after ∧ m.LastSet .sound before keys' after x ∧
          ((m.tickThrough before).reg x).toNat =
            (m.tickThrough before).completed (keys' :: after))) ∧
    (∀ before keys after x, m.LastSet .sound before keys after x →
      let u := m.tickThrough before
      let v := (u.reg x).toNat
      u.tones (keys :: after) = (if 1 ≤ v ∧ v ≤ u.completed (keys :: after) then 1 else 0) ∧
      ∀ mid keys' rest, keys :: after = mid ++ keys' :: rest →
        ((u.tickThrough mid).givesTone keys' = true ↔
          ((u.tickThrough mid).tick keys').fault? = none ∧ v = u.completed mid + 1)) ∧
    (∀ reports, m.tones reports = m.expiries reports) ∧
    ∀ (r : Recorder) (calls : List (Keys × Int)),
      (r.recordThrough m calls).2 = m.tickThrough (m.attempts calls) ∧
        (r.recordThrough m calls).1.toneTicks =
          r.toneTicks + m.expiries (m.attempts calls) := by
  refine ⟨fun reports keys signals => tone_iff h, fun before keys after x hl => ?_,
    tones_eq_expiries h, fun r calls => ?_⟩
  · exact ⟨tones_of_sets? hl.sets hl.last,
      fun mid keys' rest => givesTone_iff_of_sets? hl.sets hl.last⟩
  · rw [← tones_eq_expiries h]
    exact r.recordThrough_eq m calls

/-- The sound timer is set to two. The drawing behind it runs past the memory and does not count,
so the tone comes with the tick after that one; two recorded runs count it, of which the first
stops at the fault. -/
theorem Machine.tone_behind_faulted_draw :
    let requests : List Request :=
      [.load [0xF0, 0x18, 0xD0, 0x02, 0x12, 0x04], .setRegister 0 2, .setIndex 0xFFF]
    let m := requests.foldl perform (fresh (.tape [] 0))
    let t := m.tickThrough [.none, .none]
    m.sound.value = 0 ∧
      (∃ signals, (t.tick .none).answer = .ok signals ∧ signals.tone = true) ∧
      (Recorder.empty.recordThrough m [(.none, 4), (.none, 2)]).1.toneTicks = 1 := by
  intro requests m t
  have hm : m.sound.value = 0 := by decide +kernel
  obtain ⟨htone, -, -, hrecord⟩ := one_tone_for_each_expiry hm
  have hlast : m.LastSet .sound [] .none [.none, .none] 0 :=
    ⟨by decide +kernel, by unfold NeverSets; decide +kernel⟩
  have hok : (t.tick .none).fault? = none := by decide +kernel
  obtain ⟨signals, ht⟩ := Outcome.exists_eq_done_of_fault? hok
  have hdone : (t.tick .none).answer = .ok signals := congrArg Outcome.answer ht
  refine ⟨hm, ⟨signals, hdone, (htone _ _ _ hdone).2 ?_⟩, (hrecord _ _).2.trans ?_⟩
  · exact ⟨[], .none, [.none, .none], 0, rfl, hlast, by decide +kernel⟩
  · decide +kernel

end ChipEight
