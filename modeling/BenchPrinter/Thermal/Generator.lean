import BenchPrinter.Thermal.Noise

/-!
The seeded noise stream: the keystream of ChaCha with twelve rounds, under a key that a small linear
generator expands from the seed. Each sample takes the top 53 bits of a 64-bit word.
-/

namespace BenchPrinter.Generator

/-- One step of the generator that expands the seed. -/
def expand (state : UInt64) : UInt64 :=
  state * 6364136223846793005 + 11634580027462260723

def rotateRight (word amount : UInt32) : UInt32 :=
  (word >>> amount) ||| (word <<< ((32 - amount) % 32))

def rotateLeft (word amount : UInt32) : UInt32 :=
  (word <<< amount) ||| (word >>> (32 - amount))

/-- The high bits of the state are mixed and rotated into a key word. -/
def keyWord (state : UInt64) : UInt32 :=
  rotateRight (((state >>> 18) ^^^ state) >>> 27).toUInt32 (state >>> 59).toUInt32

/-- The key words of the states after the given one. -/
def keyWords : Nat → UInt64 → List UInt32
  | 0, _ => []
  | count + 1, state => keyWord (expand state) :: keyWords count (expand state)

/-- The state of the cipher is four rows of four words. -/
abbrev Words := Vector UInt32 16

def quarterRound (words : Words) (a b c d : Fin 16) : Words :=
  let words := words.set a (words[a] + words[b])
  let words := words.set d (rotateLeft (words[d] ^^^ words[a]) 16)
  let words := words.set c (words[c] + words[d])
  let words := words.set b (rotateLeft (words[b] ^^^ words[c]) 12)
  let words := words.set a (words[a] + words[b])
  let words := words.set d (rotateLeft (words[d] ^^^ words[a]) 8)
  let words := words.set c (words[c] + words[d])
  words.set b (rotateLeft (words[b] ^^^ words[c]) 7)

/-- A double round treats the columns first and then the diagonals. -/
def doubleRound (words : Words) : Words :=
  let words := quarterRound words 0 4 8 12
  let words := quarterRound words 1 5 9 13
  let words := quarterRound words 2 6 10 14
  let words := quarterRound words 3 7 11 15
  let words := quarterRound words 0 5 10 15
  let words := quarterRound words 1 6 11 12
  let words := quarterRound words 2 7 8 13
  quarterRound words 3 4 9 14

/-- The constants, the key, the block counter and a stream number of zero. -/
def start (seed counter : UInt64) : Words :=
  let key := keyWords 8 seed
  Vector.ofFn fun index =>
    match index.val with
    | 0 => 0x61707865
    | 1 => 0x3320646e
    | 2 => 0x79622d32
    | 3 => 0x6b206574
    | 12 => counter.toUInt32
    | 13 => (counter >>> 32).toUInt32
    | 14 => 0
    | 15 => 0
    | position => (key[position - 4]?).getD 0

/-- Twelve rounds are six double rounds; the start is added to the outcome. -/
def block (seed counter : UInt64) : Words :=
  let words := start seed counter
  let mixed := Nat.repeat doubleRound 6 words
  Vector.ofFn fun index => mixed[index] + words[index]

/-- The 64-bit word with the given index; its low half comes first in the keystream. -/
def word (seed : UInt64) (index : Nat) : UInt64 :=
  let words := block seed (index / 8).toUInt64
  let low := words[2 * (index % 8)]
  let high := words[2 * (index % 8) + 1]
  low.toUInt64 ||| (high.toUInt64 <<< 32)

end BenchPrinter.Generator

namespace BenchPrinter

/-- The samples of a seeded stream lie between zero and one, one excluded. -/
def Noise.seeded {α : Type} [Quantity α] (seed : UInt64) : Noise α :=
  ⟨fun index =>
    Quantity.ofNat (Generator.word seed index >>> 11).toNat / Quantity.ofNat (twoTo 53), 0⟩

end BenchPrinter
