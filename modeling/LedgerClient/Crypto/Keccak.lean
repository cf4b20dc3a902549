import LedgerClient.Bytes

/-!
# Keccak-256

The state holds twenty-five words, the word at column `x` and row `y` at index `x + 5 * y`. A
message is padded with a one bit right behind it and one at the end of its last block of 136
bytes; the digest is the first 32 bytes of the state.
-/

namespace LedgerClient.Keccak

abbrev State := Array UInt64

def rate : Nat := 136

def lane (s : State) (x y : Nat) : UInt64 := s.getD (x % 5 + 5 * (y % 5)) 0

def rotate (w : UInt64) (n : Nat) : UInt64 :=
  if n = 0 then w else (w <<< UInt64.ofNat n) ||| (w >>> UInt64.ofNat (64 - n))

def build (f : Nat → Nat → UInt64) : State := Array.ofFn fun i : Fin 25 => f (i.val % 5) (i.val / 5)

theorem build_size (f : Nat → Nat → UInt64) : (build f).size = 25 := by simp [build]

def theta (s : State) : State :=
  let column : Array UInt64 := Array.ofFn fun x : Fin 5 =>
    lane s x 0 ^^^ lane s x 1 ^^^ lane s x 2 ^^^ lane s x 3 ^^^ lane s x 4
  build fun x y =>
    lane s x y ^^^ column.getD ((x + 4) % 5) 0 ^^^ rotate (column.getD ((x + 1) % 5) 0) 1

/-- Rotation amounts in the order of the state. -/
def rotations : Array Nat := #[
  0, 1, 62, 28, 27,
  36, 44, 6, 55, 20,
  3, 10, 43, 25, 39,
  41, 45, 15, 21, 8,
  18, 2, 61, 56, 14]

/-- Rotates every word and moves the one at `(x, y)` to `(y, 2 * x + 3 * y)`. -/
def rhoPi (s : State) : State :=
  build fun x y =>
    let source := (x + 3 * y) % 5
    rotate (lane s source x) (rotations.getD (source + 5 * x) 0)

def chi (s : State) : State :=
  build fun x y => lane s x y ^^^ (~~~(lane s (x + 1) y) &&& lane s (x + 2) y)

def iota (constant : UInt64) (s : State) : State := s.setIfInBounds 0 (s.getD 0 0 ^^^ constant)

def roundConstants : List UInt64 := [
  0x0000000000000001, 0x0000000000008082, 0x800000000000808a, 0x8000000080008000,
  0x000000000000808b, 0x0000000080000001, 0x8000000080008081, 0x8000000000008009,
  0x000000000000008a, 0x0000000000000088, 0x0000000080008009, 0x000000008000000a,
  0x000000008000808b, 0x800000000000008b, 0x8000000000008089, 0x8000000000008003,
  0x8000000000008002, 0x8000000000000080, 0x000000000000800a, 0x800000008000000a,
  0x8000000080008081, 0x8000000000008080, 0x0000000080000001, 0x8000000080008008]

def permute (s : State) : State :=
  roundConstants.foldl (fun s constant => iota constant (chi (rhoPi (theta s)))) s

def wordOfBytes (bs : Bytes) : UInt64 :=
  UInt64.ofNat (bs.foldr (fun b n => b.toNat + 256 * n) 0)

def bytesOfWord (w : UInt64) : Bytes :=
  (List.range 8).map fun i => UInt8.ofNat (w.toNat / 256 ^ i)

theorem bytesOfWord_length (w : UInt64) : (bytesOfWord w).length = 8 := by simp [bytesOfWord]

/-- The block's words, eight bytes each. -/
def wordsOfBytes : Nat → Bytes → List UInt64
  | 0, _ => []
  | n + 1, bs => wordOfBytes (bs.take 8) :: wordsOfBytes n (bs.drop 8)

def mix (s : State) (block : Bytes) : State :=
  let words := (wordsOfBytes (rate / 8) block).toArray
  build fun x y => lane s x y ^^^ words.getD (x + 5 * y) 0

def padding (length : Nat) : Bytes :=
  let free := rate - length % rate
  if free = 1 then [0x81] else 0x01 :: (List.replicate (free - 2) 0 ++ [0x80])

/-- Absorbs the given number of blocks. -/
def absorb (s : State) : Nat → Bytes → State
  | 0, _ => s
  | n + 1, bs => absorb (permute (mix s (bs.take rate))) n (bs.drop rate)

def digest (message : Bytes) : Bytes :=
  let padded := message ++ padding message.length
  let s := absorb (Array.replicate 25 0) (padded.length / rate) padded
  (List.range 4).flatMap fun i => bytesOfWord (lane s i 0)

theorem digest_length (message : Bytes) : (digest message).length = 32 := by
  simp [digest, bytesOfWord_length, List.range, List.range.loop]

end LedgerClient.Keccak
