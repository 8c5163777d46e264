/-!
# ChaCha keystream

The ChaCha block function with eight rounds, keyed from one 64-bit seed. Any 64-bit word of the
keystream is computed from its index alone, so a stream of draws needs no running state.

Specification: `SPEC_FULL.md` §10.1 and §10.4 name the seeded generator and its default seed; the
spreading of the seed over the key and the layout of a block follow the generator itself.
-/

namespace StoryEngine.Draws.ChaCha

/-- The sixteen words that a block is computed on. -/
abbrev Block := Vector UInt32 16

/-- Moves the bits of a word up by `n` places, those that leave coming back at the bottom. -/
def rotateLeft (x : UInt32) (n : UInt32) : UInt32 :=
  x <<< n ||| x >>> (32 - n)

/-- Moves the bits of a word down by `n` places, those that leave coming back at the top. -/
def rotateRight (x : UInt32) (n : UInt32) : UInt32 :=
  x >>> n ||| x <<< (32 - n)

/-- Adds word `y` to word `x`, then mixes the sum into word `z`. -/
def mix (x y z : Fin 16) (n : UInt32) (b : Block) : Block :=
  let b := b.set x (b[x] + b[y])
  b.set z (rotateLeft (b[z] ^^^ b[x]) n)

/-- The quarter round on four words. -/
def quarterRound (b : Block) : Fin 16 × Fin 16 × Fin 16 × Fin 16 → Block
  | (x, y, z, w) => mix z w y 7 (mix x y w 8 (mix z w y 12 (mix x y w 16 b)))

/-- Two rounds: first the columns of the block, then its diagonals. -/
def doubleRound (b : Block) : Block :=
  [((0 : Fin 16), (4 : Fin 16), (8 : Fin 16), (12 : Fin 16)), (1, 5, 9, 13), (2, 6, 10, 14),
    (3, 7, 11, 15), (0, 5, 10, 15), (1, 6, 11, 12), (2, 7, 8, 13), (3, 4, 9, 14)].foldl
    quarterRound b

/-- The keystream block that a start block gives: eight rounds added to the start. -/
def keystream (start : Block) : Block :=
  (Nat.repeat doubleRound 4 start).zipWith (· + ·) start

/-- One step of the 64-bit generator that stretches a seed. -/
def step (s : UInt64) : UInt64 :=
  s * 6364136223846793005 + 11634580027462260723

/-- The word that a generator state gives: its upper bits folded, then rotated by its five
topmost bits. -/
def word (s : UInt64) : UInt32 :=
  rotateRight (((s >>> 18 ^^^ s) >>> 27).toUInt32) (s >>> 59).toUInt32

/-- The eight key words of a seed, one for each step of the generator. -/
def key (seed : UInt64) : Vector UInt32 8 :=
  Vector.ofFn fun i ↦ word (Nat.repeat step (i + 1) seed)

/-- The start block: four constants, the key, the block's number and a zero nonce. -/
def start (key : Vector UInt32 8) (number : UInt64) : Block :=
  constants ++ key ++ counter
where
  constants : Vector UInt32 4 := #v[0x61707865, 0x3320646e, 0x79622d32, 0x6b206574]
  counter : Vector UInt32 4 := #v[number.toUInt32, (number >>> 32).toUInt32, 0, 0]

/-- The keystream as 64-bit words, each of two consecutive words with the low half first. -/
def word64 (key : Vector UInt32 8) (n : Nat) : UInt64 :=
  let block := keystream (start key (n / 8).toUInt64)
  let low := block[2 * (n % 8)]?.getD 0
  let high := block[2 * (n % 8) + 1]?.getD 0
  high.toUInt64 <<< 32 ||| low.toUInt64

/-- The stream of numbers in `[0, 1)` of a seed: the top 53 bits of each word over `2 ^ 53`. -/
def stream (seed : UInt64) : Nat → Float :=
  let key := key seed
  fun n ↦ (word64 key n >>> 11).toFloat / 9007199254740992

end StoryEngine.Draws.ChaCha
