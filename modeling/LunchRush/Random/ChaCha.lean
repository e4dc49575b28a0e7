import LunchRush.Random.Source
/-!
# The seeded source

A seed of 64 bits is spread over a key of eight words, and the key gives the words of ChaCha with
eight rounds, block after block.
-/

namespace LunchRush.Random

/-- The sixteen words of a block, in rows of four. -/
structure Block where
  (a0 a1 a2 a3 : UInt32)
  (b0 b1 b2 b3 : UInt32)
  (c0 c1 c2 c3 : UInt32)
  (d0 d1 d2 d3 : UInt32)
deriving Repr

namespace Block

def rotate (x n : UInt32) : UInt32 := (x <<< n) ||| (x >>> (32 - n))

/-- One quarter of a round: additions, exclusive ors and rotations of four words. -/
def quarter (a b c d : UInt32) : UInt32 × UInt32 × UInt32 × UInt32 :=
  let a := a + b; let d := rotate (d ^^^ a) 16
  let c := c + d; let b := rotate (b ^^^ c) 12
  let a := a + b; let d := rotate (d ^^^ a) 8
  let c := c + d; let b := rotate (b ^^^ c) 7
  (a, b, c, d)

/-- A round over the columns and a round over the diagonals. -/
def twoRounds (x : Block) : Block :=
  let (a0, b0, c0, d0) := quarter x.a0 x.b0 x.c0 x.d0
  let (a1, b1, c1, d1) := quarter x.a1 x.b1 x.c1 x.d1
  let (a2, b2, c2, d2) := quarter x.a2 x.b2 x.c2 x.d2
  let (a3, b3, c3, d3) := quarter x.a3 x.b3 x.c3 x.d3
  let (a0, b1, c2, d3) := quarter a0 b1 c2 d3
  let (a1, b2, c3, d0) := quarter a1 b2 c3 d0
  let (a2, b3, c0, d1) := quarter a2 b3 c0 d1
  let (a3, b0, c1, d2) := quarter a3 b0 c1 d2
  ⟨a0, a1, a2, a3, b0, b1, b2, b3, c0, c1, c2, c3, d0, d1, d2, d3⟩

/-- The sum of two blocks, word by word, in order. -/
def sum (x y : Block) : List UInt32 :=
  [x.a0 + y.a0, x.a1 + y.a1, x.a2 + y.a2, x.a3 + y.a3,
   x.b0 + y.b0, x.b1 + y.b1, x.b2 + y.b2, x.b3 + y.b3,
   x.c0 + y.c0, x.c1 + y.c1, x.c2 + y.c2, x.c3 + y.c3,
   x.d0 + y.d0, x.d1 + y.d1, x.d2 + y.d2, x.d3 + y.d3]

end Block

/-- The eight words of a key. -/
structure Key where
  (k0 k1 k2 k3 k4 k5 k6 k7 : UInt32)
deriving DecidableEq, Repr

/-- The words of block number `counter`. -/
def Key.block (k : Key) (counter : UInt64) : List UInt32 :=
  let start : Block :=
    ⟨0x61707865, 0x3320646e, 0x79622d32, 0x6b206574,
     k.k0, k.k1, k.k2, k.k3, k.k4, k.k5, k.k6, k.k7,
     counter.toUInt32, (counter >>> 32).toUInt32, 0, 0⟩
  start.twoRounds.twoRounds.twoRounds.twoRounds.sum start

/-- One step of the sequence that spreads a seed, and the word it gives. -/
def spread (state : UInt64) : UInt64 × UInt32 :=
  let state := state * 6364136223846793005 + 11634580027462260723
  let mixed := (((state >>> 18) ^^^ state) >>> 27).toUInt32
  let turn := (state >>> 59).toUInt32
  (state, (mixed >>> turn) ||| (mixed <<< ((32 - turn) % 32)))

/-- The key of a seed. -/
def Key.ofSeed (seed : UInt64) : Key :=
  let (s, k0) := spread seed
  let (s, k1) := spread s
  let (s, k2) := spread s
  let (s, k3) := spread s
  let (s, k4) := spread s
  let (s, k5) := spread s
  let (s, k6) := spread s
  let (_, k7) := spread s
  ⟨k0, k1, k2, k3, k4, k5, k6, k7⟩

/-- The words of a key from some place on: what is left of a block, and the number of the next. -/
structure ChaCha where
  key : Key
  counter : UInt64
  left : List UInt32
deriving DecidableEq, Repr

/-- The words of a seed from the first on. -/
def ChaCha.ofSeed (seed : UInt64) : ChaCha := ⟨Key.ofSeed seed, 0, []⟩

/-- The next word; a new block is made when none is left. -/
def ChaCha.next (s : ChaCha) : UInt32 × ChaCha :=
  match s.left with
  | w :: rest => (w, { s with left := rest })
  | [] =>
    match s.key.block s.counter with
    | w :: rest => (w, { s with counter := s.counter + 1, left := rest })
    | [] => (0, s)

instance : Source ChaCha := ⟨ChaCha.next⟩

end LunchRush.Random
