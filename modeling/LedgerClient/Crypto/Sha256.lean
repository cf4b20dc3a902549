import LedgerClient.Bytes

/-!
# SHA-256 and its keyed form

A message is padded with a one bit, zeros and its length in bits to blocks of 64 bytes. The
keyed digest hashes the message behind the inner pad of the key and that digest behind the outer
pad.
-/

namespace LedgerClient.Sha256

def blockSize : Nat := 64

def rotate (w : UInt32) (n : Nat) : UInt32 :=
  (w >>> UInt32.ofNat n) ||| (w <<< UInt32.ofNat (32 - n))

def initial : Array UInt32 := #[
  0x6a09e667, 0xbb67ae85, 0x3c6ef372, 0xa54ff53a, 0x510e527f, 0x9b05688c, 0x1f83d9ab, 0x5be0cd19]

def constants : List UInt32 := [
  0x428a2f98, 0x71374491, 0xb5c0fbcf, 0xe9b5dba5, 0x3956c25b, 0x59f111f1, 0x923f82a4, 0xab1c5ed5,
  0xd807aa98, 0x12835b01, 0x243185be, 0x550c7dc3, 0x72be5d74, 0x80deb1fe, 0x9bdc06a7, 0xc19bf174,
  0xe49b69c1, 0xefbe4786, 0x0fc19dc6, 0x240ca1cc, 0x2de92c6f, 0x4a7484aa, 0x5cb0a9dc, 0x76f988da,
  0x983e5152, 0xa831c66d, 0xb00327c8, 0xbf597fc7, 0xc6e00bf3, 0xd5a79147, 0x06ca6351, 0x14292967,
  0x27b70a85, 0x2e1b2138, 0x4d2c6dfc, 0x53380d13, 0x650a7354, 0x766a0abb, 0x81c2c92e, 0x92722c85,
  0xa2bfe8a1, 0xa81a664b, 0xc24b8b70, 0xc76c51a3, 0xd192e819, 0xd6990624, 0xf40e3585, 0x106aa070,
  0x19a4c116, 0x1e376c08, 0x2748774c, 0x34b0bcb5, 0x391c0cb3, 0x4ed8aa4a, 0x5b9cca4f, 0x682e6ff3,
  0x748f82ee, 0x78a5636f, 0x84c87814, 0x8cc70208, 0x90befffa, 0xa4506ceb, 0xbef9a3f7, 0xc67178f2]

def wordsOfBytes : Nat → Bytes → List UInt32
  | 0, _ => []
  | n + 1, bs => UInt32.ofNat (Bytes.toNat (bs.take 4)) :: wordsOfBytes n (bs.drop 4)

/-- The next word of the schedule, from the sixteen before it. -/
def scheduleNext (w : Array UInt32) : UInt32 :=
  let back (n : Nat) := w.getD (w.size - n) 0
  let s0 := rotate (back 15) 7 ^^^ rotate (back 15) 18 ^^^ (back 15 >>> 3)
  let s1 := rotate (back 2) 17 ^^^ rotate (back 2) 19 ^^^ (back 2 >>> 10)
  back 16 + s0 + back 7 + s1

def schedule (block : Bytes) : Array UInt32 :=
  (List.range 48).foldl (fun w _ => w.push (scheduleNext w)) (wordsOfBytes 16 block).toArray

def round (s : Array UInt32) (input : UInt32 × UInt32) : Array UInt32 :=
  let part (i : Nat) := s.getD i 0
  let s1 := rotate (part 4) 6 ^^^ rotate (part 4) 11 ^^^ rotate (part 4) 25
  let choice := (part 4 &&& part 5) ^^^ (~~~(part 4) &&& part 6)
  let t1 := part 7 + s1 + choice + input.1 + input.2
  let s0 := rotate (part 0) 2 ^^^ rotate (part 0) 13 ^^^ rotate (part 0) 22
  let majority := (part 0 &&& part 1) ^^^ (part 0 &&& part 2) ^^^ (part 1 &&& part 2)
  #[t1 + s0 + majority, part 0, part 1, part 2, part 3 + t1, part 4, part 5, part 6]

def compress (s : Array UInt32) (block : Bytes) : Array UInt32 :=
  let mixed := (constants.zip (schedule block).toList).foldl round s
  Array.ofFn fun i : Fin 8 => s.getD i 0 + mixed.getD i 0

def padding (length : Nat) : Bytes :=
  0x80 :: (List.replicate ((119 - length % blockSize) % blockSize) 0 ++ Bytes.ofNat 8 (8 * length))

def absorb (s : Array UInt32) : Nat → Bytes → Array UInt32
  | 0, _ => s
  | n + 1, bs => absorb (compress s (bs.take blockSize)) n (bs.drop blockSize)

def digest (message : Bytes) : Bytes :=
  let padded := message ++ padding message.length
  let s := absorb initial (padded.length / blockSize) padded
  (List.range 8).flatMap fun i => Bytes.ofNat 4 (s.getD i 0).toNat

theorem digest_length (message : Bytes) : (digest message).length = 32 := by
  simp [digest, Bytes.ofNat_length, List.range, List.range.loop]

/-- A key longer than a block is hashed first. -/
def keyBlock (key : Bytes) : Bytes :=
  let short := if blockSize < key.length then digest key else key
  short ++ List.replicate (blockSize - short.length) 0

def keyed (key message : Bytes) : Bytes :=
  let block := keyBlock key
  digest (block.map (· ^^^ 0x5c) ++ digest (block.map (· ^^^ 0x36) ++ message))

theorem keyed_length (key message : Bytes) : (keyed key message).length = 32 := digest_length _

end LedgerClient.Sha256
