import Mathlib.Data.List.Forall2
import ChipEight.Proofs.Machine.Requests
import ChipEight.Proofs.Machine.Runs
import ChipEight.Proofs.Machine.Ticks

/-!
# What ticks see of the keys

A host can hand over flags of any kind on any codes, or nothing, or a snapshot of all sixteen keys.
A tick sees of all this only which of the sixteen keys have a flag that counts as set. So hosts that
agree on that see the same ticks, over whole runs, and a snapshot is as good as what it was made
from, if it can be made: it cannot exactly if there is a flag on a code that is no key.
-/

namespace ChipEight

variable {φ : Type} {isSet : φ → Bool}

/-- The code has a flag, and the last one counts as set. -/
def KeyFlags.pressed (isSet : φ → Bool) (flags : KeyFlags φ) (code : Int) : Bool :=
  ((flags.getD []).findRev? fun entry => entry.1 = code).any fun entry => isSet entry.2

/-- The code is that of a key. -/
def IsKeyCode (code : Int) : Prop := 0 ≤ code ∧ code < 16

instance (code : Int) : Decidable (IsKeyCode code) := inferInstanceAs (Decidable (_ ∧ _))

/-- Only the flags on codes of keys. -/
def KeyFlags.onKeys (flags : KeyFlags φ) : KeyFlags φ :=
  flags.map (List.filter fun entry => IsKeyCode entry.1)

theorem isKeyCode_val (k : Key) : IsKeyCode k.val := ⟨by omega, by omega⟩

/-- Flags on codes that no key has do not matter to a key. -/
theorem KeyFlags.pressed_onKeys (flags : KeyFlags φ) (k : Key) :
    flags.onKeys.pressed isSet k.val = flags.pressed isSet k.val := by
  have hcode (code : Int) :
      (decide (IsKeyCode code) && decide (code = k.val)) = decide (code = k.val) := by
    by_cases h : code = k.val
    · subst h
      simp [isKeyCode_val]
    · simp [h]
  cases flags with
  | none => rfl
  | some entries =>
    simp [pressed, onKeys, List.findRev?_eq_find?_reverse, ← List.filter_reverse,
      List.find?_filter, hcode]

namespace Keys

theorem held_ofFlags (flags : KeyFlags φ) (code : Int) :
    (ofFlags isSet flags).held code = flags.pressed isSet code := by
  have hlast : ((ofFlags isSet flags).reports.findRev? fun report => report.1 = code) =
      ((flags.getD []).findRev? fun entry => entry.1 = code).map
        fun entry => (entry.1, isSet entry.2) := by
    simp only [ofFlags, List.findRev?_eq_find?_reverse, ← List.map_reverse, List.find?_map]
    rfl
  rw [held, get?, hlast, KeyFlags.pressed]
  cases (flags.getD []).findRev? fun entry => entry.1 = code <;> rfl

/-- Flags that are set on the same keys amount to reports that say the same. -/
theorem agree_ofFlags {a b : KeyFlags φ}
    (h : ∀ k : Key, a.pressed isSet k.val = b.pressed isSet k.val) :
    (ofFlags isSet a).Agree (ofFlags isSet b) := by
  intro k
  rw [held_ofFlags, held_ofFlags]
  exact h k

end Keys

/-! ## Snapshots -/

namespace Keypad

theorem held_toKeys (pad : Keypad) (k : Key) : pad.toKeys.held k.val = pad.get k := by
  have hlast : ∀ k : Key, (Key.all.findRev? fun l => (l.val : Int) = k.val) = some k := by
    decide
  have hreport : (pad.toKeys.reports.findRev? fun report => report.1 = (k.val : Int)) =
      (Key.all.findRev? fun l => (l.val : Int) = k.val).map
        fun l => ((l.val : Int), pad.get l) := by
    simp only [toKeys, toList, List.map_map, List.findRev?_eq_find?_reverse, ← List.map_reverse,
      List.find?_map]
    rfl
  rw [Keys.held, Keys.get?, hreport, hlast]
  rfl

theorem get_of_ofKeys {keys : Keys} {pad : Keypad} (h : ofKeys keys = .ok pad) (k : Key) :
    pad.get k = keys.held k.val := by
  rw [ofKeys] at h
  split at h
  · cases h
  · cases h
    exact Vector.getElem_ofFn _

/-- A snapshot is refused exactly if there is a report on a code that is no key. -/
theorem ofKeys_error_iff {keys : Keys} :
    (∃ e, ofKeys keys = .error e) ↔ ∃ report ∈ keys.reports, ¬IsKeyCode report.1 := by
  rw [ofKeys]
  split
  · rename_i report hreport
    have hcode := List.find?_some hreport
    exact iff_of_true ⟨_, rfl⟩
      ⟨report, List.mem_of_find?_eq_some hreport, of_decide_eq_true hcode⟩
  · rename_i hnone
    refine iff_of_false nofun ?_
    rintro ⟨report, hmem, hcode⟩
    exact List.find?_eq_none.1 hnone report hmem (decide_eq_true hcode)

end Keypad

/-! ## Ticks -/

namespace Machine

/-- Reports that say the same lead to the same ticks. -/
theorem outcomes_congr {first second : List Keys} (h : List.Forall₂ Keys.Agree first second)
    (m : Machine) : m.outcomes first = m.outcomes second := by
  induction h generalizing m with
  | nil => rfl
  | cons hkeys _ ih => simp [outcomes, tick_congr hkeys, ih]

/-- Hosts whose flags are set on the same of the sixteen keys, tick by tick, see the same signals,
faults and machines. A snapshot that can be made of flags says of every key whether its flag is
set, and a tick takes it for the flags; flags on codes of no key do not matter to a tick, but a
snapshot is refused exactly if there is one. -/
theorem ticks_see_set_flags (isSet : φ → Bool) (m : Machine) :
    (∀ first second : List (KeyFlags φ),
      List.Forall₂ (fun a b => ∀ k : Key, a.pressed isSet k.val = b.pressed isSet k.val)
        first second →
      m.outcomes (first.map (.ofFlags isSet)) = m.outcomes (second.map (.ofFlags isSet))) ∧
    (∀ (flags : KeyFlags φ) (pad : Keypad), Keypad.ofKeys (.ofFlags isSet flags) = .ok pad →
      (∀ k : Key, pad.get k = flags.pressed isSet k.val) ∧
        m.tick pad.toKeys = m.tick (.ofFlags isSet flags)) ∧
    (∀ flags : KeyFlags φ,
      m.tick (.ofFlags isSet flags.onKeys) = m.tick (.ofFlags isSet flags)) ∧
    ∀ flags : KeyFlags φ, (∃ e, Keypad.ofKeys (.ofFlags isSet flags) = .error e) ↔
      ∃ entry ∈ flags.getD [], ¬IsKeyCode entry.1 := by
  refine ⟨?_, ?_, ?_, ?_⟩
  · intro first second h
    apply outcomes_congr
    rw [List.forall₂_map_left_iff, List.forall₂_map_right_iff]
    exact h.imp fun a b => Keys.agree_ofFlags
  · intro flags pad h
    have hget (k : Key) : pad.get k = flags.pressed isSet k.val := by
      rw [Keypad.get_of_ofKeys h, Keys.held_ofFlags]
    refine ⟨hget, tick_congr (fun k => ?_) m⟩
    rw [Keypad.held_toKeys, hget, Keys.held_ofFlags]
  · intro flags
    exact tick_congr (Keys.agree_ofFlags flags.pressed_onKeys) m
  · intro flags
    rw [Keypad.ofKeys_error_iff]
    simp [Keys.ofFlags]

/-- A machine waits for a key while two hosts say in different words that none is pressed, and then
that the key 5 is; a snapshot says it as well. -/
theorem key_in_two_reports :
    let m := (fresh (.tape [] 0)).perform (.load [0xF0, 0x0A])
    let isSet : Nat → Bool := fun flag => flag ≠ 0
    let first : List (KeyFlags Nat) := [none, some [(3, 0)], some [(20, 1), (5, 7)]]
    let second : List (KeyFlags Nat) := [some [(99, 1)], some [], some [(5, 0), (-1, 2), (5, 1)]]
    m.outcomes (first.map (.ofFlags isSet)) = m.outcomes (second.map (.ofFlags isSet)) ∧
      (m.tickThrough (first.map (.ofFlags isSet))).reg 0 = 5 ∧
      ∃ pad, Keypad.ofKeys (.ofFlags isSet (some [(5, 7)])) = .ok pad ∧
        m.tick pad.toKeys = m.tick (.ofFlags isSet (some [(5, 7)])) := by
  intro m isSet first second
  obtain ⟨hruns, hsnapshot, -, -⟩ := ticks_see_set_flags isSet m
  have hpressed : List.Forall₂
      (fun a b => ∀ k : Key, KeyFlags.pressed isSet a k.val = KeyFlags.pressed isSet b k.val)
      first second :=
    .cons (by decide) (.cons (by decide) (.cons (by decide) .nil))
  have hkey : (m.tickThrough (first.map (.ofFlags isSet))).reg 0 = 5 := by decide +kernel
  exact ⟨hruns first second hpressed, hkey, _, rfl, (hsnapshot (some [(5, 7)]) _ rfl).2⟩

end Machine

end ChipEight
