import ChipEight.Fault

/-!
# The call stack

A fixed array of return addresses and a depth. A popped address stays in the array until a later
push overwrites it, and the array can be looked at, so it is part of the state; `live` is the part
of it that matters to calls and returns.
-/

namespace ChipEight

structure CallStack where
  entries : Vector Int callDepth
  depth : Nat
  depth_le : depth ≤ callDepth
  deriving DecidableEq

namespace CallStack

def empty : CallStack := ⟨Vector.replicate callDepth 0, 0, Nat.zero_le _⟩

/-- The addresses that wait to be returned to, the oldest first. -/
def live (s : CallStack) : List Int := s.entries.toList.take s.depth

/-- An address on top, unless the stack is full. -/
def push? (s : CallStack) (addr : Int) : Option CallStack :=
  if h : s.depth < callDepth then some ⟨s.entries.set s.depth addr h, s.depth + 1, h⟩ else none

/-- The address on top and the stack below it, unless the stack is empty. -/
def pop? : CallStack → Option (Int × CallStack)
  | ⟨_, 0, _⟩ => none
  | ⟨entries, depth + 1, h⟩ => some (entries[depth], ⟨entries, depth, Nat.le_of_succ_le h⟩)

@[simp] theorem live_empty : empty.live = [] := rfl

theorem length_live (s : CallStack) : s.live.length = s.depth := by
  have := s.depth_le
  simp only [live, List.length_take, Vector.length_toList]
  omega

theorem live_of_push? {s t : CallStack} {addr : Int} (h : s.push? addr = some t) :
    t.live = s.live ++ [addr] := by
  unfold push? at h
  split at h
  · cases h
    rename_i hlt
    simp only [live, Vector.toList_set]
    rw [List.take_succ_eq_append_getElem (by simpa using hlt)]
    rw [List.take_set, List.set_eq_of_length_le (List.length_take_le ..)]
    simp
  · cases h

theorem push?_eq_none_iff {s : CallStack} {addr : Int} :
    s.push? addr = none ↔ s.live.length = callDepth := by
  have := s.depth_le
  rw [length_live]
  unfold push?
  split <;> simp <;> omega

theorem live_of_pop? {s t : CallStack} {addr : Int} (h : s.pop? = some (addr, t)) :
    s.live = t.live ++ [addr] := by
  obtain ⟨entries, depth, hd⟩ := s
  cases depth with
  | zero => cases h
  | succ n =>
    cases h
    have hn : n < entries.toList.length := by simp; omega
    simp only [live]
    rw [List.take_succ_eq_append_getElem hn]
    simp

theorem pop?_eq_none_iff {s : CallStack} : s.pop? = none ↔ s.live = [] := by
  obtain ⟨entries, depth, hd⟩ := s
  cases depth with
  | zero => simp [pop?, live]
  | succ n => simp [pop?, ← List.length_eq_zero_iff, length_live]

end CallStack

end ChipEight
