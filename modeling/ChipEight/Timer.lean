/-!
# Countdown timers

A timer holds a byte and takes one from it at every tick until it is zero.
-/

namespace ChipEight

structure Timer where
  value : UInt8
  deriving DecidableEq, Repr

namespace Timer

def idle : Timer := ⟨0⟩

/-- A value modulo 256. -/
def ofInt (value : Int) : Timer := ⟨UInt8.ofInt value⟩

def tick (t : Timer) : Timer := if t.value = 0 then t else ⟨t.value - 1⟩

def active (t : Timer) : Bool := t.value ≠ 0

theorem toNat_tick (t : Timer) : t.tick.value.toNat = t.value.toNat - 1 := by
  unfold tick
  split
  · rename_i h
    simp [h]
  · rename_i h
    have h' : t.value.toNat ≠ 0 := fun h0 => h (UInt8.toNat_inj.1 h0)
    rw [UInt8.toNat_sub_of_le _ _ (by rw [UInt8.le_iff_toNat_le]; show 1 ≤ _; omega)]
    rfl

end Timer

end ChipEight
