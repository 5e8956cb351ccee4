/-!
# Words

An instruction is encoded by a word of four hexadecimal digits. The first digit is its family; the
others are read one by one, or two or three together.
-/

namespace ChipEight

/-- A byte is made of a number modulo 256. -/
theorem toNat_ofInt (n : Int) : (UInt8.ofInt n).toNat = (n % 256).toNat := by
  rw [UInt8.ofInt, UInt8.toNat_ofNat']
  omega

/-- One hexadecimal digit: the number of a register, or a small count. -/
abbrev Nibble := Fin 16

/-- The digit with a value, if there is one. -/
def Nibble.ofInt? (n : Int) : Option Nibble :=
  if h : 0 ≤ n ∧ n < 16 then some ⟨n.toNat, by omega⟩ else none

theorem Nibble.ofInt?_eq_some_iff {n : Int} {x : Nibble} : ofInt? n = some x ↔ n = x.val := by
  obtain ⟨x, hx⟩ := x
  simp only [ofInt?, Option.dite_none_right_eq_some, Option.some.injEq, Fin.mk.injEq]
  constructor
  · rintro ⟨h, rfl⟩
    omega
  · intro h
    exact ⟨by omega, by omega⟩

/-- An address of three hexadecimal digits. -/
abbrev Address := Fin 4096

/-- Four hexadecimal digits. -/
abbrev Word := UInt16

namespace Word

def family (w : Word) : Nat := w.toNat / 0x1000

def x (w : Word) : Nibble := ⟨w.toNat / 0x100 % 16, Nat.mod_lt _ (by decide)⟩

def y (w : Word) : Nibble := ⟨w.toNat / 0x10 % 16, Nat.mod_lt _ (by decide)⟩

def n (w : Word) : Nibble := ⟨w.toNat % 16, Nat.mod_lt _ (by decide)⟩

def nn (w : Word) : UInt8 := UInt8.ofNat (w.toNat % 0x100)

def nnn (w : Word) : Address := ⟨w.toNat % 0x1000, Nat.mod_lt _ (by decide)⟩

/-- `V0` and the word added up, of which twelve bits are kept. The family of the word lies above
them, so only its address counts. -/
def offsetTarget (w : Word) (v0 : Int) : Address :=
  ⟨((v0 + w.toNat) % 0x1000).toNat, by omega⟩

end Word

end ChipEight
