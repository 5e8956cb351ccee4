/-!
# The Mersenne Twister

A generator of words of 32 bits over a state of 624 words. The state is filled from a key of one
word or more, turned over as a whole whenever its words are used up, and every word is tempered
before it is given away.
-/

namespace ChipEight.Random

/-- The words of a generator. Positions are taken modulo their number. -/
abbrev Pool := Vector UInt32 624

namespace Pool

def word (pool : Pool) (i : Nat) : UInt32 := pool.get ⟨i % 624, Nat.mod_lt _ (by decide)⟩

def put (pool : Pool) (i : Nat) (w : UInt32) : Pool :=
  pool.set (i % 624) w (Nat.mod_lt _ (by decide))

/-- A word with its two upper bits folded onto its lower ones. -/
def fold (w : UInt32) : UInt32 := w ^^^ (w >>> 30)

/-- Every word follows from the one before it. -/
def ofWord (seed : UInt32) : Pool :=
  (List.range 623).foldl
    (fun pool t =>
      pool.put (t + 1) (1812433253 * fold (pool.word t) + UInt32.ofNat (t + 1)))
    (Vector.replicate 624 seed)

/-- Step `t` of a walk over the positions 1 to 623, again and again: the word there is replaced,
with a view of the word before it. The last word of a round is also put at position 0. -/
def stir (replace : UInt32 → UInt32 → UInt32) (pool : Pool) (t : Nat) : Pool :=
  let i := t % 623 + 1
  let w := replace (pool.word i) (fold (pool.word (i - 1)))
  let pool := pool.put i w
  if i = 623 then pool.put 0 w else pool

/-- The words of the key are stirred in, then the positions, and one bit is set for certain. -/
def ofKey (key : List UInt32) : Pool :=
  let key := key.toArray
  let steps := max 624 key.size
  let keyed := (List.range steps).foldl
    (fun pool t =>
      let j := t % key.size
      pool.stir (fun w before => (w ^^^ before * 1664525) + key.getD j 0 + UInt32.ofNat j) t)
    (ofWord 19650218)
  let stirred := (List.range' steps 623).foldl
    (fun pool t =>
      pool.stir (fun w before => (w ^^^ before * 1566083941) - UInt32.ofNat (t % 623 + 1)) t)
    keyed
  stirred.put 0 0x80000000

/-- The word that the upper bit of `a` and the other bits of `b` turn into. -/
def twist (a b : UInt32) : UInt32 :=
  let y := (a &&& 0x80000000) ||| (b &&& 0x7FFFFFFF)
  if y % 2 = 0 then y >>> 1 else (y >>> 1) ^^^ 0x9908B0DF

/-- The next 624 words. -/
def turn (pool : Pool) : Pool :=
  (List.range 624).foldl
    (fun pool i =>
      pool.put i (pool.word (i + 397) ^^^ twist (pool.word i) (pool.word (i + 1))))
    pool

end Pool

structure Twister where
  pool : Pool
  /-- How many words of the pool are given away. -/
  used : Nat

namespace Twister

/-- The words of 32 bits that make up a number, the lowest first; zero has one. -/
def keyOf (n : Nat) : List UInt32 :=
  (List.range (n.log2 / 32 + 1)).map fun i => UInt32.ofNat (n >>> (32 * i))

/-- A generator for a seed, of which the sign does not count. -/
def ofSeed (seed : Int) : Twister := ⟨.ofKey (keyOf seed.natAbs), 624⟩

def temper (w : UInt32) : UInt32 :=
  let w := w ^^^ (w >>> 11)
  let w := w ^^^ ((w <<< 7) &&& 0x9D2C5680)
  let w := w ^^^ ((w <<< 15) &&& 0xEFC60000)
  w ^^^ (w >>> 18)

/-- The next word, and the generator after it. -/
def next (t : Twister) : UInt32 × Twister :=
  let t := if t.used < 624 then t else ⟨t.pool.turn, 0⟩
  (temper (t.pool.word t.used), { t with used := t.used + 1 })

end Twister

end ChipEight.Random
