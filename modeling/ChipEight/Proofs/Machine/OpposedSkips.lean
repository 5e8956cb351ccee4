import ChipEight.Proofs.Machine.KeyWaits
import ChipEight.Proofs.Machine.Locality

/-!
# Opposed skips

There are two instructions for each condition on which the next one can be skipped: one that skips
if it holds, and one that skips if it does not. In the place of each other they lead to the same
machine but for the program counter, which gets further with exactly one of them. A register that
names no key is neither pressed nor released, so neither of the two skips then.

## Main definitions

* `Machine.withWord`: the same machine with another word at the program counter.
* `Machine.skips?`: whether an instruction passes over the next one, if it is one that can.
* `Machine.Opposed`: words for such a pair of instructions with the same operands.
* `Machine.EndApart`: what two ticks leave that differ in the program counter only.
-/

namespace ChipEight

/-! ## Another word -/

namespace Memory

/-- A word in the place of two bytes, its high byte first. -/
def setWord (m : Memory) (a : Nat) (w : Word) : Memory :=
  (m.set a (UInt8.ofNat (w.toNat / 256))).set (a + 1) (UInt8.ofNat w.toNat)

variable {m : Memory} {a b : Nat} {w : Word}

theorem byte_setWord_of_ne (ha : b ≠ a) (ha' : b ≠ a + 1) : (m.setWord a w).byte b = m.byte b := by
  rw [setWord, byte_set, if_neg fun h => ha' h.1.symm, byte_set, if_neg fun h => ha h.1.symm]

theorem word_setWord (h : a + 1 < size) : (m.setWord a w).word a = .ok w := by
  have hc : Covers a 2 := ⟨Int.natCast_nonneg a, by omega⟩
  have hhigh : (m.setWord a w).byte a = UInt8.ofNat (w.toNat / 256) := by
    rw [setWord, byte_set, if_neg (by omega), byte_set, if_pos ⟨rfl, by omega⟩]
  have hlow : (m.setWord a w).byte (a + 1) = UInt8.ofNat w.toNat := by
    rw [setWord, byte_set, if_pos ⟨rfl, h⟩]
  have hvalue : 256 * (UInt8.ofNat (w.toNat / 256)).toNat + (UInt8.ofNat w.toNat).toNat =
      w.toNat := by
    have hlt : w.toNat < 65536 := w.toNat_lt
    simp only [UInt8.toNat_ofNat']
    omega
  rw [word, if_pos hc, Int.toNat_natCast, hhigh, hlow, hvalue, UInt16.ofNat_toNat]

end Memory

namespace Machine

/-- The machine with another word at the program counter. -/
def withWord (m : Machine) (w : Word) : Machine :=
  m.withMemory (m.memory.setWord m.processor.pc.toNat w)

/-- Whether the instruction passes over the next one, if it is one that can. -/
def skips? (m : Machine) (keys : Keys) : Instruction → Option Bool
  | .skipEqualByte x nn => some (m.reg x = nn)
  | .skipUnequalByte x nn => some (m.reg x ≠ nn)
  | .skipEqual x y => some (m.reg x = m.reg y)
  | .skipUnequal x y => some (m.reg x ≠ m.reg y)
  | .skipPressed x => some (m.keyIn keys x = some true)
  | .skipReleased x => some (m.keyIn keys x = some false)
  | _ => none

/-- The words encode instructions that skip under opposite conditions: the one of `w` if `c` holds,
the one of `w'` if it does not. -/
inductive Opposed (m : Machine) (pressed : Int → Bool) (w w' : Word) : Bool → Prop
  | bytes (hw : w.Fits "3XNN") (hw' : w'.Fits "4XNN") (hx : w'.x = w.x) (hnn : w'.nn = w.nn) :
    m.Opposed pressed w w' (m.reg w.x = w.nn)
  | registers (hw : w.Fits "5XY0") (hw' : w'.Fits "9XY0") (hx : w'.x = w.x) (hy : w'.y = w.y) :
    m.Opposed pressed w w' (m.reg w.x = m.reg w.y)
  | keys (hw : w.Fits "EX9E") (hw' : w'.Fits "EXA1") (hx : w'.x = w.x)
    (hkey : (m.reg w.x).toNat ≤ 15) : m.Opposed pressed w w' (pressed (m.reg w.x).toNat)

/-- Both ticks are completed and end with these program counters. They leave no other difference
but that of the two bytes at an address. -/
structure EndApart (addr p p' : Int) (o o' : Outcome Fault Machine Signals) : Prop where
  completed : o.fault? = none ∧ o'.fault? = none
  pc : o.state.processor.pc = p
  pc' : o'.state.processor.pc = p'
  answer : o'.answer = o.answer
  rest : o'.state =
    { o.state with
      processor := { o.state.processor with pc := p' }
      memory := o'.state.memory }
  byte : ∀ a : Nat, (a : Int) ≠ addr → (a : Int) ≠ addr + 1 →
    o'.state.memory.byte a = o.state.memory.byte a

variable {φ : Type} {isSet : φ → Bool} {m : Machine} {keys : Keys} {flags : KeyFlags φ}
  {i i' : Instruction} {c c' : Bool} {w w' : Word} {x : Nibble}

theorem next?_withWord (h₀ : 0 ≤ m.processor.pc) (hp : m.processor.pc ≤ 4094) (op : Opcode)
    (hw : w.Fits op.pattern) :
    (m.withWord w).next? = some (op.instruction (m.reg Processor.offset).toNat w) := by
  have hpc : (m.processor.pc.toNat : Int) = m.processor.pc := Int.toNat_of_nonneg h₀
  have hword : (m.memory.setWord m.processor.pc.toNat w).word m.processor.pc.toNat = .ok w :=
    Memory.word_setWord (by simp only [Memory.size]; omega)
  rw [hpc] at hword
  exact next?_of_fits op hword hw

/-! ## Skips -/

theorem execute_of_skips? (h : m.skips? keys i = some c) :
    m.execute keys i = .done (m.skipIf c) () := by
  cases i <;> cases h <;> rfl

/-- A tick that may skip is a pause but for the program counter. -/
theorem tick_of_skips? (hi : m.next? = some i) (h : m.skips? keys i = some c) :
    m.tick keys = .done (m.skipIf c).pause m.pause.signals := by
  have hx : m.quieten.execute keys i = .done (m.quieten.skipIf c) () := execute_of_skips? h
  rw [tick_of_next? hi hx]
  cases c <;> rfl

theorem endApart_of_skips? (h₀ : 0 ≤ m.processor.pc) (hi : (m.withWord w).next? = some i)
    (hi' : (m.withWord w').next? = some i') (hc : m.skips? keys i = some c)
    (hc' : m.skips? keys i' = some c') :
    EndApart m.processor.pc (m.processor.pc + if c then 4 else 2)
      (m.processor.pc + if c' then 4 else 2) ((m.withWord w).tick keys)
      ((m.withWord w').tick keys) := by
  have ht : (m.withWord w).tick keys = _ := tick_of_skips? hi hc
  have ht' : (m.withWord w').tick keys = _ := tick_of_skips? hi' hc'
  rw [ht, ht', skipIf_eq, skipIf_eq]
  refine ⟨⟨rfl, rfl⟩, rfl, rfl, rfl, rfl, fun a ha ha' => ?_⟩
  have hne : a ≠ m.processor.pc.toNat ∧ a ≠ m.processor.pc.toNat + 1 := by omega
  exact (Memory.byte_setWord_of_ne hne.1 hne.2).trans (Memory.byte_setWord_of_ne hne.1 hne.2).symm

/-! ## Pairs of skips -/

theorem keyIn_ofFlags (h : (m.reg x).toNat ≤ 15) :
    m.keyIn (.ofFlags isSet flags) x = some (flags.pressed isSet (m.reg x).toNat) := by
  rw [keyIn, if_pos (by omega), Keys.held_ofFlags]

theorem keyIn_eq_none (h : 15 < (m.reg x).toNat) : m.keyIn keys x = none := by
  rw [keyIn, if_neg (by omega)]

theorem Opposed.skips? (h₀ : 0 ≤ m.processor.pc) (hp : m.processor.pc ≤ 4094)
    (h : m.Opposed (flags.pressed isSet) w w' c) :
    ∃ i i', (m.withWord w).next? = some i ∧ (m.withWord w').next? = some i' ∧
      m.skips? (.ofFlags isSet flags) i = some c ∧
      m.skips? (.ofFlags isSet flags) i' = some !c := by
  cases h with
  | bytes hw hw' hx hnn =>
    refine ⟨_, _, next?_withWord h₀ hp .skipEqualByte hw, next?_withWord h₀ hp .skipUnequalByte hw',
      rfl, ?_⟩
    simp [Opcode.instruction, Machine.skips?, hx, hnn]
  | registers hw hw' hx hy =>
    refine ⟨_, _, next?_withWord h₀ hp .skipEqual hw, next?_withWord h₀ hp .skipUnequal hw',
      rfl, ?_⟩
    simp [Opcode.instruction, Machine.skips?, hx, hy]
  | keys hw hw' hx hkey =>
    refine ⟨_, _, next?_withWord h₀ hp .skipPressed hw, next?_withWord h₀ hp .skipReleased hw',
      ?_, ?_⟩
    · simp [Opcode.instruction, Machine.skips?, keyIn_ofFlags hkey]
    · simp [Opcode.instruction, Machine.skips?, hx, keyIn_ofFlags hkey]

/-- Of two skips under opposite conditions in the same place exactly one passes over the next
instruction, and nothing else tells their ticks apart. If the condition is on a key that there is
not, neither does, whatever keys are pressed. -/
theorem opposed_skips_end_apart (isSet : φ → Bool) (hm : m.Reachable) (hp : m.processor.pc ≤ 4094)
    (flags : KeyFlags φ) (w w' : Word) :
    let pc := m.processor.pc
    let o := (m.withWord w).tick (.ofFlags isSet flags)
    let o' := (m.withWord w').tick (.ofFlags isSet flags)
    (∀ c, m.Opposed (flags.pressed isSet) w w' c →
      EndApart pc (pc + if c then 4 else 2) (pc + if c then 2 else 4) o o') ∧
    (w.Fits "EX9E" → w'.Fits "EXA1" → w'.x = w.x → 15 < (m.reg w.x).toNat →
      EndApart pc (pc + 2) (pc + 2) o o') := by
  intro pc o o'
  have h₀ := hm.bounded.pc_nonneg
  constructor
  · intro c hc
    obtain ⟨i, i', hi, hi', hskip, hskip'⟩ := hc.skips? h₀ hp
    have hend := endApart_of_skips? h₀ hi hi' hskip hskip'
    cases c <;> exact hend
  · intro hw hw' hx hkey
    have hskip : m.skips? (.ofFlags isSet flags) (.skipPressed w.x) = some false := by
      simp [skips?, keyIn_eq_none hkey]
    have hskip' : m.skips? (.ofFlags isSet flags) (.skipReleased w'.x) = some false := by
      simp [skips?, hx, keyIn_eq_none hkey]
    exact endApart_of_skips? h₀ (next?_withWord h₀ hp .skipPressed hw)
      (next?_withWord h₀ hp .skipReleased hw') hskip hskip'

/-- The key 5 is pressed and a flag on 20 is set. With 5 in `V2`, a skip if the key is pressed
passes over an instruction and one if it is released does not; with 20 in `V1` neither does. -/
theorem five_pressed_and_twenty_no_key :
    let m := [Request.setRegister 1 20, .setRegister 2 5].foldl perform (fresh (.tape [] 0))
    let isSet : Nat → Bool := fun flag => flag ≠ 0
    let keys := Keys.ofFlags isSet (some [(5, 3), (20, 1), (6, 0)])
    let pcBehind (w : Word) := ((m.withWord w).tick keys).state.processor.pc
    m.Reachable ∧ m.processor.pc = 0x200 ∧ pcBehind 0xE29E = 0x204 ∧ pcBehind 0xE2A1 = 0x202 ∧
      pcBehind 0xE19E = 0x202 ∧ pcBehind 0xE1A1 = 0x202 := by
  intro m isSet keys pcBehind
  have hm : m.Reachable := (Reachable.fresh _).foldl_perform _
  have hpc : m.processor.pc = 0x200 := rfl
  have hopposed : m.Opposed (KeyFlags.pressed isSet (some [(5, 3), (20, 1), (6, 0)]))
      0xE29E 0xE2A1 true :=
    .keys (by decide) (by decide) rfl (by decide)
  have hfive := (opposed_skips_end_apart isSet hm (by decide) _ _ _).1 true hopposed
  have htwenty := (opposed_skips_end_apart isSet hm (by decide)
    (some [(5, 3), (20, 1), (6, 0)]) 0xE19E 0xE1A1).2 (by decide) (by decide) rfl (by decide)
  exact ⟨hm, hpc, hfive.pc, hfive.pc', htwenty.pc, htwenty.pc'⟩

end Machine

end ChipEight
