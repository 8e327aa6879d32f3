/-!
# Seeded pseudo-random words

The stream of words that a 64-bit seed stands for: the first block of the ChaCha stream cipher with
eight rounds, under a key that is expanded from the seed by a linear congruential generator.
-/

namespace Wireframe.Design.Keystream

def rotateLeft (x : UInt32) (n : UInt32) : UInt32 :=
  (x <<< n) ||| (x >>> (32 - n))

def rotateRight (x : UInt32) (n : UInt32) : UInt32 :=
  (x >>> n) ||| (x <<< ((32 - n) % 32))

/-- The state of the generator behind one word of the key. -/
def advance (state : UInt64) : UInt64 :=
  state * 6364136223846793005 + 11634580027462260723

/-- The word of the key that a state gives. -/
def word (state : UInt64) : UInt32 :=
  rotateRight ((((state >>> 18) ^^^ state) >>> 27).toUInt32) ((state >>> 59).toUInt32)

/-- So many words of the key behind a state. -/
def keyWords (state : UInt64) : Nat → List UInt32
  | 0 => []
  | n + 1 => word (advance state) :: keyWords (advance state) n

/-- The state of the cipher before its first block: four constants, the key, and zeros where the
number of the block and the nonce stand. -/
def initial (seed : UInt64) : Vector UInt32 16 :=
  let key := keyWords seed 8
  Vector.ofFn fun i : Fin 16 =>
    if i.val < 4 then [0x61707865, 0x3320646e, 0x79622d32, 0x6b206574].getD i.val 0
    else if i.val < 12 then key.getD (i.val - 4) 0
    else 0

def quarterRound (v : Vector UInt32 16) (a b c d : Fin 16) : Vector UInt32 16 :=
  let v := v.set a (v[a] + v[b])
  let v := v.set d (rotateLeft (v[d] ^^^ v[a]) 16)
  let v := v.set c (v[c] + v[d])
  let v := v.set b (rotateLeft (v[b] ^^^ v[c]) 12)
  let v := v.set a (v[a] + v[b])
  let v := v.set d (rotateLeft (v[d] ^^^ v[a]) 8)
  let v := v.set c (v[c] + v[d])
  v.set b (rotateLeft (v[b] ^^^ v[c]) 7)

/-- A round over the columns and one over the diagonals. -/
def doubleRound (v : Vector UInt32 16) : Vector UInt32 16 :=
  let v := quarterRound v 0 4 8 12
  let v := quarterRound v 1 5 9 13
  let v := quarterRound v 2 6 10 14
  let v := quarterRound v 3 7 11 15
  let v := quarterRound v 0 5 10 15
  let v := quarterRound v 1 6 11 12
  let v := quarterRound v 2 7 8 13
  quarterRound v 3 4 9 14

/-- The words of the first block. -/
def block (seed : UInt64) : List UInt32 :=
  let start := initial seed
  let mixed := doubleRound (doubleRound (doubleRound (doubleRound start)))
  (start.zipWith (· + ·) mixed).toList

/-- The number from `0` up to but without `1` that the high bits of a word write. -/
def unit (w : UInt32) : Float32 :=
  Float32.ofBits ((w >>> 9) ||| 0x3f800000) - 1

/-- A number from `lo` up to but without `hi`. A word whose number is rounded up to `hi` is passed
over. -/
def between (seed : UInt64) (lo hi : Float32) : Float32 :=
  let draws := (block seed).map fun w => unit w * (hi - lo) + lo
  (draws.find? (· < hi)).getD lo

end Wireframe.Design.Keystream
