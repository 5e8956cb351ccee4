import ChipEight.Memory.Basic

/-!
# The last write to a byte

Programs are placed in memory, bytes are written to it, and bytes and words are read from it, in any
order and at any addresses. An access is refused for what it asks and not for what memory holds, and
then it changes nothing. So what a byte holds can be told from the accesses alone: it is what the
last one gave to it that wrote and was not refused, and otherwise the byte that was there at first.

## Main definitions

* `Memory.Access`: what can be asked of memory.
* `Memory.access`, `Memory.after`: memory behind one access, and behind many.
* `Memory.Access.refusal?`, `Memory.Access.gives?`: when an access is refused, and what it gives to
  a byte if not.
* `Memory.valueAfter`: the byte at an address as the accesses tell it.
-/

namespace ChipEight.Memory

inductive Access where
  | load (program : List UInt8)
  | write (addr value : Int)
  | read (addr : Int)
  | word (addr : Int)

/-- Why an access is refused: the program is too long, or the address is not in memory. -/
inductive Refusal where
  | load (e : LoadFault)
  | bus (e : Fault)

/-- Memory behind an access, with the number that was read if it was one that reads. -/
def access (m : Memory) : Access → Outcome Refusal Memory (Option Nat)
  | .load program =>
    match m.load program with
    | .ok t => .done t none
    | .error e => .stopped m (.load e)
  | .write addr value =>
    match m.write addr value with
    | .ok t => .done t none
    | .error e => .stopped m (.bus e)
  | .read addr =>
    match m.read addr with
    | .ok b => .done m (some b.toNat)
    | .error e => .stopped m (.bus e)
  | .word addr =>
    match m.word addr with
    | .ok w => .done m (some w.toNat)
    | .error e => .stopped m (.bus e)

/-- Memory behind accesses, of which any may be refused. -/
def after (m : Memory) (accesses : List Access) : Memory :=
  accesses.foldl (fun m x => (m.access x).state) m

/-! ## Bytes told from accesses -/

namespace Access

/-- The refusal of an access. A byte has one address more than a word. -/
def refusal? : Access → Option Refusal
  | .load program =>
    if 3584 < program.length then some (.load (.tooLong program.length)) else none
  | .write addr _ | .read addr =>
    if 0 ≤ addr ∧ addr ≤ 4095 then none else some (.bus (.bus addr))
  | .word addr => if 0 ≤ addr ∧ addr ≤ 4094 then none else some (.bus (.bus addr))

/-- What an access writes to the byte at an address, if it covers it. A program covers as many
addresses as it has bytes. -/
def writes? (a : Nat) : Access → Option Nat
  | .load program => if 0x200 ≤ a then program[a - 0x200]?.map UInt8.toNat else none
  | .write addr value => if addr = a then some (value % 256).toNat else none
  | .read _ | .word _ => none

/-- What an access gives to the byte at an address, which is nothing if it is refused. -/
def gives? (a : Nat) (x : Access) : Option Nat :=
  match x.refusal? with
  | some _ => none
  | none => x.writes? a

end Access

/-- What the last access gave to the byte at an address that gave it anything, or what the byte was
at first: a byte of the font at the bottom, and zero above it. -/
def valueAfter (accesses : List Access) (a : Nat) : Nat :=
  (accesses.findSomeRev? (Access.gives? a)).getD
    (if h : a < Font.bytes.length then Font.bytes[a].toNat else 0)

/-- What is read behind accesses; a word has its high byte first. -/
def answerAfter (accesses : List Access) : Access → Option Nat
  | .load _ | .write _ _ => none
  | .read addr => some (valueAfter accesses addr.toNat)
  | .word addr =>
    some (256 * valueAfter accesses addr.toNat + valueAfter accesses (addr.toNat + 1))

variable {m : Memory} {x : Access} {accesses : List Access} {a : Nat}

/-! ## One access -/

/-- Memory behind an access that is not refused, with the number that was read. -/
def served (m : Memory) : Access → Outcome Refusal Memory (Option Nat)
  | .load program => .done (m.overlay program) none
  | .write addr value => .done (m.set addr.toNat (UInt8.ofInt value)) none
  | .read addr => .done m (some (m.byte addr.toNat).toNat)
  | .word addr =>
    .done m (some (256 * (m.byte addr.toNat).toNat + (m.byte (addr.toNat + 1)).toNat))

theorem covers_one_iff_le {addr : Int} : Covers addr 1 ↔ 0 ≤ addr ∧ addr ≤ 4095 := by
  simp only [Covers, size]
  omega

theorem covers_two_iff_le {addr : Int} : Covers addr 2 ↔ 0 ≤ addr ∧ addr ≤ 4094 := by
  simp only [Covers, size]
  omega

/-- An access that is refused changes nothing. -/
theorem access_eq (m : Memory) (x : Access) :
    m.access x =
      match x.refusal? with
      | some e => .stopped m e
      | none => m.served x := by
  cases x with
  | load program =>
    by_cases h : 3584 < program.length
    · simp [access, load, Access.refusal?, h, Nat.not_le.2 h]
    · simp [access, load, Access.refusal?, served, h, Nat.not_lt.1 h]
  | write addr value =>
    simp only [access, write, Access.refusal?, ← covers_one_iff_le]
    by_cases h : Covers addr 1 <;> simp [served, h]
  | read addr =>
    simp only [access, read, Access.refusal?, ← covers_one_iff_le]
    by_cases h : Covers addr 1 <;> simp [served, h]
  | word addr =>
    have hhigh : (m.byte addr.toNat).toNat < 256 := UInt8.toNat_lt _
    have hlow : (m.byte (addr.toNat + 1)).toNat < 256 := UInt8.toNat_lt _
    have hmod := Nat.mod_eq_of_lt (b := 65536) (a := 256 * (m.byte addr.toNat).toNat +
      (m.byte (addr.toNat + 1)).toNat) (by omega)
    simp only [access, word, Access.refusal?, ← covers_two_iff_le]
    by_cases h : Covers addr 2 <;> simp [served, h, hmod]

theorem inside_of_refusal?_byte {addr : Int} (h : (Access.read addr).refusal? = none) :
    0 ≤ addr ∧ addr ≤ 4095 := by
  by_cases hin : 0 ≤ addr ∧ addr ≤ 4095
  · exact hin
  · rw [Access.refusal?, if_neg hin] at h
    cases h

theorem inside_of_refusal?_word {addr : Int} (h : (Access.word addr).refusal? = none) :
    0 ≤ addr ∧ addr ≤ 4094 := by
  by_cases hin : 0 ≤ addr ∧ addr ≤ 4094
  · exact hin
  · rw [Access.refusal?, if_neg hin] at h
    cases h

/-- A byte holds what an access gives to it, or what it held before. -/
theorem byte_access (m : Memory) (x : Access) (ha : a < size) :
    ((m.access x).state.byte a).toNat = (x.gives? a).getD (m.byte a).toNat := by
  rw [access_eq, Access.gives?]
  cases h : x.refusal? with
  | some e => rfl
  | none =>
    cases x with
    | load program =>
      have hstart : programStart = 0x200 := rfl
      simp only [served, Access.writes?, Outcome.state_done, byte_overlay m program ha, hstart]
      by_cases hle : 0x200 ≤ a
      · rw [if_pos hle, if_pos hle]
        cases program[a - 0x200]? <;> rfl
      · rw [if_neg hle, if_neg hle]
        rfl
    | write addr value =>
      have hin := inside_of_refusal?_byte h
      simp only [served, Access.writes?, Outcome.state_done, byte_set]
      by_cases heq : addr = a
      · rw [if_pos ⟨by omega, by omega⟩, if_pos heq, toNat_ofInt]
        rfl
      · rw [if_neg (by omega), if_neg heq]
        rfl
    | read | word => rfl

/-! ## Many accesses -/

theorem byte_after (m : Memory) (accesses : List Access) (ha : a < size) :
    ((m.after accesses).byte a).toNat =
      (accesses.findSomeRev? (Access.gives? a)).getD (m.byte a).toNat := by
  induction accesses generalizing m with
  | nil => rfl
  | cons x accesses ih =>
    have hrest : ((m.after (x :: accesses)).byte a).toNat =
        (accesses.findSomeRev? (Access.gives? a)).getD ((m.access x).state.byte a).toNat := ih _
    rw [hrest, byte_access m x ha, List.findSomeRev?]
    -- What an earlier access gave counts only if no later one gave anything.
    cases accesses.findSomeRev? (Access.gives? a) <;> rfl

theorem toNat_byte_fresh (a : Nat) :
    (fresh.byte a).toNat = if h : a < Font.bytes.length then Font.bytes[a].toNat else 0 := by
  rw [byte_fresh]
  by_cases h : a < Font.bytes.length
  · rw [dif_pos h, List.getElem?_eq_getElem h]
    rfl
  · rw [dif_neg h, List.getElem?_eq_none (Nat.le_of_not_lt h)]
    rfl

theorem byte_after_fresh (accesses : List Access) (ha : a < size) :
    ((fresh.after accesses).byte a).toNat = valueAfter accesses a := by
  rw [byte_after fresh accesses ha, toNat_byte_fresh, valueAfter]

/-- Fresh memory behind any accesses, refused ones among them: every byte holds what the last access
gave to it that gave it anything, or what it held at first. The next access is refused for the
length of a program or for an address alone, and then it names the address that it asked for and
changes nothing; otherwise it reads what the accesses before it have left. -/
theorem holds_last_writes (accesses : List Access) :
    let m := fresh.after accesses
    (∀ a < size, (m.byte a).toNat = valueAfter accesses a) ∧
    ∀ x : Access,
      match x.refusal? with
      | some e => m.access x = .stopped m e
      | none => (m.access x).answer = .ok (answerAfter accesses x) := by
  intro m
  have hbyte : ∀ a < size, (m.byte a).toNat = valueAfter accesses a := fun a =>
    byte_after_fresh accesses
  refine ⟨hbyte, fun x => ?_⟩
  rw [access_eq]
  cases h : x.refusal? with
  | some e => rfl
  | none =>
    cases x with
    | load | write => rfl
    | read addr =>
      have hin := inside_of_refusal?_byte h
      simp only [served, Outcome.done, answerAfter]
      rw [hbyte addr.toNat (by simp only [size]; omega)]
    | word addr =>
      have hin := inside_of_refusal?_word h
      simp only [served, Outcome.done, answerAfter]
      rw [hbyte addr.toNat (by simp only [size]; omega),
        hbyte (addr.toNat + 1) (by simp only [size]; omega)]

/-- A shorter program keeps the tail of a longer one, and what is refused gives nothing. -/
example :
    valueAfter [.load [1, 2, 3], .write 0x200 (-1), .load [4, 5], .write 0x1202 7] 0x202 = 3 := by
  decide

end ChipEight.Memory
