import ChipEight.Proofs.Machine.Requests
import ChipEight.Proofs.Machine.Ticks

/-!
# Where random bytes go

Of all that a host can ask of a machine, only the execution of one kind of instruction takes a byte
from the source. So the place that the source has reached is the number of these instructions
executed since the machine was built, whatever else was asked for in between, and each of them gets
the byte whose turn it is.

## Main definitions

* `Machine.ticked`, `Machine.history`: the machines before each of the ticks that requests make.
* `Machine.draws`: those of them that go on to take a byte.
* `Machine.Supply`: how a source follows the ticks of machines.
-/

namespace ChipEight

namespace Random.Source

/-- A tape counts what is taken from it. -/
theorem drop_tape (bytes : List UInt8) (taken n : Nat) :
    (tape bytes taken).drop n = tape bytes (taken + n) := by
  induction n generalizing taken with
  | zero => rfl
  | succ n ih => simp [drop, next, ih, Nat.add_assoc, Nat.add_comm 1]

end Random.Source

namespace Machine

open ChipEight.Random (Source)

/-- The next tick takes a random byte. -/
def takesByte (m : Machine) : Bool := m.next?.any (·.takesByte)

/-- The machine before each of the ticks that a request makes. -/
def ticked (m : Machine) : Request → List Machine
  | .tick _ => [m]
  | .run keys n => m.visits (m.attempted keys n.toNat)
  | _ => []

/-- The machine before each of the ticks that requests make, one after another. -/
def history (m : Machine) : List Request → List Machine
  | [] => []
  | r :: requests => m.ticked r ++ (m.perform r).history requests

/-- The machines in use that execute an instruction that takes a random byte. -/
def draws (m : Machine) (requests : List Request) : List Machine :=
  (m.history requests).filter takesByte

/-- The source behind the next tick. -/
def sourceAfter (m : Machine) : Source := if m.takesByte then m.random.next.2 else m.random

/-- Each machine finds the source as the tick before it has left it; the last tick leaves the second
source. -/
inductive Supply : Source → List Machine → Source → Prop where
  | nil (s : Source) : Supply s [] s
  | cons (u : Machine) {us : List Machine} {s : Source} (h : Supply u.sourceAfter us s) :
      Supply u.random (u :: us) s

variable {m t u : Machine} {us vs : List Machine} {s s' s'' : Source} {j : Nat}

/-! ## One tick -/

theorem takesByte_eq_true_iff :
    m.takesByte = true ↔ ∃ w x nn, m.fetch = .ok ⟨w, .random x nn⟩ := by
  constructor
  · intro h
    rw [takesByte, Option.any_eq_true] at h
    obtain ⟨i, hi, htakes⟩ := h
    obtain ⟨w, hf⟩ := next?_eq_some_iff.1 hi
    cases i with
    | random x nn => exact ⟨w, x, nn, hf⟩
    | _ => cases htakes
  · rintro ⟨w, x, nn, hf⟩
    rw [takesByte, next?_of_fetch hf]
    rfl

theorem random_tick (m : Machine) (keys : Keys) :
    (m.tick keys).state.random = m.sourceAfter := by
  rw [part_tick random (fun m => rfl) (fun m => rfl), sourceAfter, takesByte]
  cases m.next? with
  | none => rfl
  | some i => exact (random_trace_execute m.quieten keys i).1

/-- The instruction gets the byte that the source has next. -/
theorem tick_random {w : Word} {x : Nibble} {nn : UInt8}
    (h : m.fetch = .ok ⟨w, .random x nn⟩) (keys : Keys) :
    (m.tick keys).fault? = none ∧ (m.tick keys).state.reg x = nn &&& m.random.next.1 := by
  have hx : m.quieten.execute keys (.random x nn) =
      .done { m.quieten.advance.setReg x (nn &&& m.random.next.1) with
        random := m.random.next.2 } () := rfl
  rw [tick_of_done h hx]
  refine ⟨rfl, ?_⟩
  show (m.processor.advance.setReg x (nn &&& m.random.next.1)).reg x = _
  rw [Processor.reg_setReg, if_pos rfl]

/-! ## Whole histories -/

theorem Supply.append (h : Supply s us s') (g : Supply s' vs s'') : Supply s (us ++ vs) s'' := by
  induction h with
  | nil => exact g
  | cons u _ ih => exact .cons u (ih g)

theorem supply_tickThrough (m : Machine) (reports : List Keys) :
    Supply m.random (m.visits reports) (m.tickThrough reports).random := by
  induction reports generalizing m with
  | nil => exact .nil _
  | cons keys reports ih =>
    refine .cons m ?_
    rw [← random_tick m keys]
    exact ih _

theorem random_load {program : List UInt8} (h : m.load program = .ok t) :
    t.random = m.random := by
  rw [load] at h
  cases hl : m.memory.load program <;> rw [hl] at h <;> cases h
  rfl

theorem random_loadFile {files : Files} {path : String} {size : Nat}
    (h : m.loadFile files path = .ok (t, size)) : t.random = m.random := by
  rw [loadFile] at h
  split at h
  · cases h
  split at h
  · cases h
  split at h
  · cases h
  rename_i program _ _
  cases hl : m.load program <;> rw [hl] at h <;> cases h
  exact random_load hl

theorem supply_perform (m : Machine) (r : Request) :
    Supply m.random (m.ticked r) (m.perform r).random := by
  have hidle (h : (m.perform r).random = m.random) :
      Supply m.random [] (m.perform r).random := h ▸ .nil _
  cases r with
  | tick keys => exact supply_tickThrough m [keys]
  | run keys n =>
    have hrun : m.perform (.run keys n) = m.tickThrough (m.attempted keys n.toNat) :=
      state_runTicks m keys 0 n.toNat
    rw [hrun]
    exact supply_tickThrough m _
  | load program =>
    apply hidle
    rw [perform]
    split
    · exact random_load ‹_›
    · rfl
  | loadFile files path =>
    apply hidle
    rw [perform]
    split
    · exact random_loadFile ‹_›
    · rfl
  | setRegister number value =>
    apply hidle
    rw [perform]
    split <;> rfl
  | write addr value =>
    apply hidle
    rw [perform]
    split <;> rfl
  | reset | setIndex value | setDelay value | setSound value => exact hidle rfl

theorem supply_history (m : Machine) (requests : List Request) :
    Supply m.random (m.history requests) (requests.foldl perform m).random := by
  induction requests generalizing m with
  | nil => exact .nil _
  | cons r requests ih => exact (supply_perform m r).append (ih _)

/-- The source has moved by one byte for each tick that takes one. -/
theorem Supply.eq_drop (h : Supply s us s') : s' = s.drop (us.filter takesByte).length := by
  induction h with
  | nil => rfl
  | cons u _ ih =>
    rw [ih, sourceAfter]
    cases hu : u.takesByte <;> simp [hu, Source.drop]

theorem Supply.random_of_getElem? (h : Supply s us s')
    (hj : (us.filter takesByte)[j]? = some u) : u.random = s.drop j := by
  induction h generalizing j with
  | nil => simp at hj
  | cons v _ ih =>
    cases hv : v.takesByte with
    | false =>
      rw [List.filter_cons_of_neg (by simp [hv])] at hj
      simpa [sourceAfter, hv] using ih hj
    | true =>
      rw [List.filter_cons_of_pos hv] at hj
      cases j with
      | zero =>
        obtain rfl : v = u := by simpa using hj
        rfl
      | succ j => simpa [sourceAfter, hv, Source.drop] using ih (j := j) (by simpa using hj)

/-- Whatever a host asks of a machine, the source has given one byte for each instruction executed
that takes one. Such an instruction never faults. The one in place `j`, counted from zero, finds
`j` bytes taken, and leaves what it keeps of the next one in its register; it takes that byte even
if it keeps nothing of it. -/
theorem random_bytes_in_order (random : Source) (requests : List Request) :
    let t := requests.foldl perform (fresh random)
    let draws := (fresh random).draws requests
    t.random = random.drop draws.length ∧
    (∀ bytes taken, random = .tape bytes taken →
      t.random = .tape bytes (taken + draws.length)) ∧
    ∀ (j : Nat) (u : Machine), draws[j]? = some u →
      ∃ w x nn, u.fetch = .ok ⟨w, .random x nn⟩ ∧ u.random = random.drop j ∧
        ∀ keys, (u.tick keys).fault? = none ∧
          (u.tick keys).state.random = random.drop (j + 1) ∧
          (u.tick keys).state.reg x = nn &&& random.byteAt j := by
  intro t draws
  have hsupply : Supply random ((fresh random).history requests) t.random :=
    supply_history (fresh random) requests
  have htaken : t.random = random.drop draws.length := hsupply.eq_drop
  refine ⟨htaken, ?_, ?_⟩
  · rintro bytes taken rfl
    rw [htaken, Source.drop_tape]
  · intro j u hu
    have hrandom : u.random = random.drop j := hsupply.random_of_getElem? hu
    have htakes : u.takesByte = true := (List.mem_filter.1 (List.mem_of_getElem? hu)).2
    obtain ⟨w, x, nn, hf⟩ := takesByte_eq_true_iff.1 htakes
    refine ⟨w, x, nn, hf, hrandom, fun keys => ?_⟩
    obtain ⟨hok, hreg⟩ := tick_random hf keys
    refine ⟨hok, ?_, ?_⟩
    · rw [random_tick, sourceAfter, if_pos htakes, hrandom, Source.drop_add]
      rfl
    · rw [hreg, hrandom]
      rfl

/-- A byte is taken before a reset, and then three more: of the first of these everything is kept,
of the second nothing and of the third the lower digit. The run ends with a fault. -/
theorem fourth_byte_behind_reset :
    let bytes : List UInt8 := [10, 20, 30, 0x47, 50]
    let requests : List Request :=
      [.load [0xC0, 0xFF, 0xC1, 0x00, 0xC2, 0x0F, 0x00, 0xEE], .tick .none, .reset,
        .run .none 9]
    let t := requests.foldl perform (fresh (.tape bytes 0))
    t.random = .tape bytes 4 ∧ t.reg 0 = 20 ∧ t.reg 1 = 0 ∧
      ∃ u, ((fresh (.tape bytes 0)).draws requests)[3]? = some u ∧
        (u.tick .none).state.reg 2 = 7 := by
  intro bytes requests t
  obtain ⟨-, htape, hdraws⟩ := random_bytes_in_order (.tape bytes 0) requests
  have hcount : ((fresh (.tape bytes 0)).draws requests).length = 4 := by decide +kernel
  have hregs : t.reg 0 = 20 ∧ t.reg 1 = 0 := by decide +kernel
  have hnext : (((fresh (.tape bytes 0)).draws requests)[3]?).bind next? =
      some (.random 2 0x0F) := by decide +kernel
  obtain ⟨u, hu, hi⟩ := Option.bind_eq_some_iff.1 hnext
  obtain ⟨w, x, nn, hf, -, htick⟩ := hdraws 3 u hu
  rw [next?_of_fetch hf] at hi
  cases hi
  refine ⟨?_, hregs.1, hregs.2, u, hu, (htick .none).2.2.trans (by decide +kernel)⟩
  rw [htape bytes 0 rfl, hcount]

end Machine

end ChipEight
