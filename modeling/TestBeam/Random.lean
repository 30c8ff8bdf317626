/-!
# Random numbers

A generator is a position in a ChaCha key stream of twelve rounds. The key comes from a seed of 64
bits. Each output joins two words of the stream, so output `n` is a function of the key and `n`.
-/

namespace TestBeam

/-! ## The key stream -/

/-- The sixteen words of one block. -/
abbrev Block := Vector UInt32 16

/-- The eight words of a key. -/
abbrev Key := Vector UInt32 8

def rotateLeft (x : UInt32) (n : UInt32) : UInt32 :=
  (x <<< n) ||| (x >>> (32 - n))

namespace Block

/-- One step of a quarter round: `a` gains `b`, and `d` is mixed with `a`. -/
def mix (s : Block) (a b d : Fin 16) (rotation : UInt32) : Block :=
  let sum := s[a] + s[b]
  let s := s.set a sum
  s.set d (rotateLeft (s[d] ^^^ sum) rotation)

def quarterRound (s : Block) (a b c d : Fin 16) : Block :=
  (((s.mix a b d 16).mix c d b 12).mix a b d 8).mix c d b 7

/-- Four columns, then four diagonals. -/
def doubleRound (s : Block) : Block :=
  let s := s.quarterRound 0 4 8 12
  let s := s.quarterRound 1 5 9 13
  let s := s.quarterRound 2 6 10 14
  let s := s.quarterRound 3 7 11 15
  let s := s.quarterRound 0 5 10 15
  let s := s.quarterRound 1 6 11 12
  let s := s.quarterRound 2 7 8 13
  s.quarterRound 3 4 9 14

/-- The state in front of the rounds: constants, key, counter and an empty nonce. -/
def start (key : Key) (counter : UInt64) : Block :=
  #v[0x61707865, 0x3320646e, 0x79622d32, 0x6b206574, key[0], key[1], key[2], key[3], key[4], key[5],
    key[6], key[7], counter.toUInt32, (counter >>> 32).toUInt32, 0, 0]

def keyStream (key : Key) (counter : UInt64) : Block :=
  let s := start key counter
  let mixed := s.doubleRound.doubleRound.doubleRound.doubleRound.doubleRound.doubleRound
  mixed.zipWith (· + ·) s

end Block

/-- Output `n` of a key: the lower word comes first. -/
def Key.output (key : Key) (n : Nat) : UInt64 :=
  let block := Block.keyStream key (n / 8).toUInt64
  let i : Fin 8 := Fin.ofNat 8 n
  let low := block.get ⟨2 * i.val, by omega⟩
  let high := block.get ⟨2 * i.val + 1, by omega⟩
  low.toUInt64 ||| (high.toUInt64 <<< 32)

/-! ## Seeds -/

/-- One step of the linear generator that spreads a seed. -/
def spreadSeed (s : UInt64) : UInt64 :=
  s * 6364136223846793005 + 11634580027462260723

/-- The key word of a spread seed: a shifted mix, rotated right by the five top bits. -/
def seedWord (s : UInt64) : UInt32 :=
  let mixed := (((s >>> 18) ^^^ s) >>> 27).toUInt32
  let rotation := (s >>> 59).toUInt32
  (mixed >>> rotation) ||| (mixed <<< ((32 - rotation) % 32))

/-- The key of a seed: one word after each of eight steps. -/
def Key.ofSeed (seed : UInt64) : Key :=
  Vector.ofFn fun i : Fin 8 => seedWord (Nat.repeat spreadSeed (i.val + 1) seed)

/-! ## Generators -/

/-- A position in the outputs of a key. -/
structure Generator where
  key : Key
  position : Nat
  deriving Repr

namespace Generator

def ofSeed (seed : UInt64) : Generator :=
  ⟨Key.ofSeed seed, 0⟩

def next (g : Generator) : UInt64 × Generator :=
  (g.key.output g.position, { g with position := g.position + 1 })

/-- A double in `[0, 1)` from the upper 52 bits of an output. -/
def unit (g : Generator) : Float × Generator :=
  let (bits, g) := g.next
  ((bits >>> 12).toFloat / 4503599627370496, g)

/-- A double in `[0, bound)`. -/
def below (bound : Float) (g : Generator) : Float × Generator :=
  let (u, g) := g.unit
  (u * bound, g)

/-- A double in `[-1, 1]`. The scale is the least one with which the largest draw gives one. -/
def cosine (g : Generator) : Float × Generator :=
  let (u, g) := g.unit
  (u * 2.0000000000000004 - 1, g)

end Generator

end TestBeam
