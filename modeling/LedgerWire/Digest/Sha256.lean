import LedgerWire.Bytes

namespace LedgerWire.Sha256

/-! ## Words -/

/-- The eight words that the rounds work on. -/
structure State where
  a : UInt32
  b : UInt32
  c : UInt32
  d : UInt32
  e : UInt32
  f : UInt32
  g : UInt32
  h : UInt32

def rotate (word amount : UInt32) : UInt32 :=
  (word >>> amount) ||| (word <<< (32 - amount))

def smallZero (word : UInt32) : UInt32 :=
  rotate word 7 ^^^ rotate word 18 ^^^ (word >>> 3)

def smallOne (word : UInt32) : UInt32 :=
  rotate word 17 ^^^ rotate word 19 ^^^ (word >>> 10)

def bigZero (word : UInt32) : UInt32 :=
  rotate word 2 ^^^ rotate word 13 ^^^ rotate word 22

def bigOne (word : UInt32) : UInt32 :=
  rotate word 6 ^^^ rotate word 11 ^^^ rotate word 25

/-- The fractional bits of the square roots of the first eight primes. -/
def start : State :=
  ⟨
    0x6a09e667, 0xbb67ae85, 0x3c6ef372, 0xa54ff53a, 0x510e527f, 0x9b05688c,
    0x1f83d9ab, 0x5be0cd19⟩

/-- The fractional bits of the cube roots of the first 64 primes. -/
def roundConstants : List UInt32 :=
  [
    0x428a2f98, 0x71374491, 0xb5c0fbcf, 0xe9b5dba5, 0x3956c25b, 0x59f111f1,
    0x923f82a4, 0xab1c5ed5, 0xd807aa98, 0x12835b01, 0x243185be, 0x550c7dc3,
    0x72be5d74, 0x80deb1fe, 0x9bdc06a7, 0xc19bf174, 0xe49b69c1, 0xefbe4786,
    0x0fc19dc6, 0x240ca1cc, 0x2de92c6f, 0x4a7484aa, 0x5cb0a9dc, 0x76f988da,
    0x983e5152, 0xa831c66d, 0xb00327c8, 0xbf597fc7, 0xc6e00bf3, 0xd5a79147,
    0x06ca6351, 0x14292967, 0x27b70a85, 0x2e1b2138, 0x4d2c6dfc, 0x53380d13,
    0x650a7354, 0x766a0abb, 0x81c2c92e, 0x92722c85, 0xa2bfe8a1, 0xa81a664b,
    0xc24b8b70, 0xc76c51a3, 0xd192e819, 0xd6990624, 0xf40e3585, 0x106aa070,
    0x19a4c116, 0x1e376c08, 0x2748774c, 0x34b0bcb5, 0x391c0cb3, 0x4ed8aa4a,
    0x5b9cca4f, 0x682e6ff3, 0x748f82ee, 0x78a5636f, 0x84c87814, 0x8cc70208,
    0x90befffa, 0xa4506ceb, 0xbef9a3f7, 0xc67178f2]

/-! ## Rounds -/

/-- The 64 words of a block: its own sixteen, and then each the sum of four
earlier ones, two of them mixed. -/
def schedule (block : Array UInt32) : Array UInt32 :=
  (List.range 48).foldl
    (fun words step =>
      words.push
        (smallOne (words.getD (step + 14) 0) + words.getD (step + 9) 0 +
          smallZero (words.getD (step + 1) 0) + words.getD step 0))
    block

def round (state : State) (constant word : UInt32) : State :=
  let choice := (state.e &&& state.f) ^^^ (~~~state.e &&& state.g)
  let majority := (state.a &&& state.b) ^^^ (state.a &&& state.c) ^^^ (state.b &&& state.c)
  let first := state.h + bigOne state.e + choice + constant + word
  let second := bigZero state.a + majority
  ⟨first + second, state.a, state.b, state.c, state.d + first, state.e, state.f, state.g⟩

/-- Works a block of 64 octets into a state. -/
def compress (state : State) (block : Bytes) : State :=
  let words := (List.range 16).map fun index =>
    UInt32.ofNat (Bytes.toNat ((block.drop (4 * index)).take 4))
  let mixed := ((roundConstants.zip (schedule words.toArray).toList)).foldl
    (fun current (constant, word) => round current constant word) state
  ⟨state.a + mixed.a, state.b + mixed.b, state.c + mixed.c, state.d + mixed.d,
    state.e + mixed.e, state.f + mixed.f, state.g + mixed.g, state.h + mixed.h⟩

def absorb : (blocks : Nat) → State → Bytes → State
  | 0, state, _ => state
  | blocks + 1, state, message =>
      absorb blocks (compress state (message.take 64)) (message.drop 64)

/-- The message, a set bit, zeros up to a whole number of blocks, and the length
in bits. -/
def pad (message : Bytes) : Bytes :=
  let zeros := (64 - (message.length + 9) % 64) % 64
  message ++ 0x80 :: (List.replicate zeros 0 ++ Bytes.ofNat 8 (8 * message.length))

/-- The state after a whole message. -/
def run (message : Bytes) : State :=
  let padded := pad message
  absorb (padded.length / 64) start padded

def digest (message : Bytes) : Bytes :=
  let state := run message
  [state.a, state.b, state.c, state.d, state.e, state.f, state.g, state.h].flatMap
    fun word => Bytes.ofNat 4 word.toNat

@[simp]
theorem length_digest (message : Bytes) : (digest message).length = 32 := by
  simp [digest]

end LedgerWire.Sha256
