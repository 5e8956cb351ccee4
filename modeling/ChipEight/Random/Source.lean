import ChipEight.Random.Twister

/-!
# Sources of random bytes

A source gives one byte at a time: the upper byte of the next word of a generator, or the next
byte of a tape that starts over at its end. What has been taken from a source is never given back.
-/

namespace ChipEight.Random

inductive Source where
  | generator (state : Twister)
  /-- The bytes of a tape and how many have been taken from it. -/
  | tape (bytes : List UInt8) (taken : Nat)

namespace Source

def ofSeed (seed : Int) : Source := .generator (.ofSeed seed)

/-- The next byte, and the source after it. -/
def next : Source → UInt8 × Source
  | .generator state =>
    let (w, state) := state.next
    (UInt8.ofNat (w >>> 24).toNat, .generator state)
  | .tape bytes taken => (bytes[taken % bytes.length]?.getD 0, .tape bytes (taken + 1))

/-- The source after `n` bytes have been taken from it. -/
def drop (s : Source) : Nat → Source
  | 0 => s
  | n + 1 => s.next.2.drop n

/-- The bytes that the source gives from now on. -/
def byteAt (s : Source) (n : Nat) : UInt8 := (s.drop n).next.1

theorem drop_add (s : Source) (m n : Nat) : s.drop (m + n) = (s.drop m).drop n := by
  induction m generalizing s with
  | zero => simp [drop]
  | succ m ih => rw [Nat.succ_add]; exact ih s.next.2

end Source

end ChipEight.Random
