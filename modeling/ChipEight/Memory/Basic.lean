import ChipEight.Fault
import ChipEight.LoadFault
import ChipEight.Memory.Font
import ChipEight.Outcome
import ChipEight.Word

/-!
# Memory

4096 bytes. The font lies at the bottom from the start, programs are placed at `0x200`, and every
access from outside names its address as an integer, which may lie outside memory. `Memory.byte`
is the view through which the operations are described: each lemma says what an operation does to
the byte at an address.
-/

namespace ChipEight

/-- The number of bytes in memory. -/
abbrev Memory.size : Nat := 4096

structure Memory where
  cells : Vector UInt8 Memory.size
  deriving DecidableEq

namespace Memory

/-- Where a program starts. -/
def programStart : Nat := 0x200

/-- The byte at an address, zero outside memory. -/
def byte (m : Memory) (a : Nat) : UInt8 := m.cells[a]?.getD 0

/-- The font at the bottom and zeros above it. -/
def fresh : Memory where
  cells := ⟨(Font.bytes ++ List.replicate (size - Font.bytes.length) 0).toArray, by
    rw [List.size_toArray, List.length_append, List.length_replicate]
    rfl⟩

/-- One byte replaced, if the address is inside memory. -/
def set (m : Memory) (a : Nat) (b : UInt8) : Memory :=
  if h : a < size then ⟨m.cells.set a b h⟩ else m

/-- Whether the `n` addresses from `addr` up are all inside memory. -/
def Covers (addr : Int) (n : Nat) : Prop := 0 ≤ addr ∧ addr + n ≤ size

instance (addr : Int) (n : Nat) : Decidable (Covers addr n) :=
  inferInstanceAs (Decidable (_ ∧ _))

/-- The byte at an address. -/
def read (m : Memory) (addr : Int) : Except Fault UInt8 :=
  if Covers addr 1 then .ok (m.byte addr.toNat) else .error (.bus addr)

/-- Puts a value modulo 256 at an address. -/
def write (m : Memory) (addr value : Int) : Except Fault Memory :=
  if Covers addr 1 then .ok (m.set addr.toNat (UInt8.ofInt value)) else .error (.bus addr)

/-- The word at an address, its high byte first. -/
def word (m : Memory) (addr : Int) : Except Fault Word :=
  if Covers addr 2 then
    .ok (UInt16.ofNat (256 * (m.byte addr.toNat).toNat + (m.byte (addr.toNat + 1)).toNat))
  else .error (.bus addr)

/-- Puts bytes one after another from an address up, as far as memory reaches. -/
def writeAll (m : Memory) (addr : Int) : List UInt8 → Outcome Fault Memory Unit
  | [] => .done m ()
  | b :: bs =>
    match m.write addr b.toNat with
    | .error e => .stopped m e
    | .ok m => m.writeAll (addr + 1) bs

/-- The bytes from an address up, one after another. -/
def readAll (m : Memory) (addr : Int) : Nat → Except Fault (List UInt8)
  | 0 => .ok []
  | n + 1 => do
    let b ← m.read addr
    return b :: (← m.readAll (addr + 1) n)

/-- A program laid over the bytes from `0x200` up, as far as memory reaches; the rest stays. -/
def overlay (m : Memory) (program : List UInt8) : Memory :=
  let bytes := m.cells.toList
  let image := program.take programLimit
  let above := bytes.drop (programStart + image.length)
  { cells := ⟨(bytes.take programStart ++ (image ++ above)).toArray, by
      simp [bytes, image, above, programStart, size, programLimit]
      omega⟩ }

/-- Places a program at `0x200`. A longer one than fits is refused. -/
def load (m : Memory) (program : List UInt8) : Except LoadFault Memory :=
  if program.length ≤ programLimit then .ok (m.overlay program)
  else .error (.tooLong program.length)

/-! ## What the operations do to a byte -/

theorem byte_eq_getElem (m : Memory) {a : Nat} (h : a < size) : m.byte a = m.cells[a] := by
  simp [byte, h]

theorem byte_of_size_le (m : Memory) {a : Nat} (h : size ≤ a) : m.byte a = 0 := by
  simp [byte, Vector.getElem?_eq_none h]

@[ext] theorem ext {m n : Memory} (h : ∀ a < size, m.byte a = n.byte a) : m = n := by
  cases m with | mk xs => ?_
  cases n with | mk ys => ?_
  refine congrArg Memory.mk (Vector.ext fun i hi => ?_)
  have := h i hi
  rwa [byte_eq_getElem _ hi, byte_eq_getElem _ hi] at this

theorem byte_fresh (a : Nat) : fresh.byte a = Font.bytes[a]?.getD 0 := by
  by_cases h : a < size
  · rw [byte_eq_getElem _ h]
    simp only [fresh, Vector.getElem_mk, List.getElem_toArray, List.getElem_append]
    split
    · simp [*]
    · rename_i ha
      rw [List.getElem?_eq_none (Nat.le_of_not_lt ha), List.getElem_replicate]
      rfl
  · have hl : Font.bytes.length ≤ a := Nat.le_trans (by decide) (Nat.le_of_not_lt h)
    rw [byte_of_size_le _ (Nat.le_of_not_lt h), List.getElem?_eq_none hl]
    rfl

theorem byte_set (m : Memory) (a : Nat) (b : UInt8) (c : Nat) :
    (m.set a b).byte c = if a = c ∧ a < size then b else m.byte c := by
  unfold set
  split
  · rename_i ha
    by_cases h : a = c
    · subst h
      simp [byte, ha]
    · simp [byte, h, ha]
  · simp [*]

theorem byte_eq_getElem? (m : Memory) (a : Nat) : m.byte a = m.cells.toList[a]?.getD 0 := by
  simp [byte]

theorem byte_overlay (m : Memory) (program : List UInt8) {a : Nat} (h : a < size) :
    (m.overlay program).byte a =
      if programStart ≤ a then program[a - programStart]?.getD (m.byte a) else m.byte a := by
  have hs : programStart = 512 := rfl
  have hp : programLimit = 3584 := rfl
  have hl : m.cells.toList.length = 4096 := Vector.length_toList
  replace h : a < 4096 := h
  simp only [byte_eq_getElem?, overlay, Vector.toList_mk, List.getElem?_append,
    List.getElem?_take, List.getElem?_drop, List.length_take, hl, hs]
  by_cases ha : 512 ≤ a
  · rw [if_neg (by omega), if_pos ha, show min 512 4096 = 512 from rfl]
    by_cases hi : a - 512 < program.length
    · rw [if_pos (by omega), if_pos (by omega), List.getElem?_eq_getElem hi]
      rfl
    · rw [if_neg (by omega), List.getElem?_eq_none (Nat.le_of_not_lt hi),
        show 512 + min programLimit program.length +
          (a - 512 - min programLimit program.length) = a by omega]
      rfl
  · rw [if_pos (by omega), if_pos (by omega), if_neg ha]

theorem read_eq_ok_iff (m : Memory) (addr : Int) (b : UInt8) :
    m.read addr = .ok b ↔ Covers addr 1 ∧ b = m.byte addr.toNat := by
  simp only [read]
  split <;> simp_all [eq_comm]

theorem write_eq_ok_iff (m n : Memory) (addr value : Int) :
    m.write addr value = .ok n ↔
      Covers addr 1 ∧ n = m.set addr.toNat (UInt8.ofInt value) := by
  simp only [write]
  split <;> simp_all [eq_comm]

end Memory

end ChipEight
