import LedgerClient.Bytes

/-!
# Recursive length encoding

An item is a byte string or a list of items. A byte below `0x80` encodes itself; any other string
and every list stands behind a header with its length, one byte for lengths up to 55 and a minimal
big-endian length otherwise. That length has at most eight bytes, so an item with a longer body has
no encoding.
-/

namespace LedgerClient.Rlp

inductive Item where
  | bytes (bs : Bytes)
  | list (items : List Item)
  deriving Inhabited

/-- A number is its minimal big-endian form. -/
def Item.ofNat (n : Nat) : Item := .bytes (Bytes.minimal n)

/-- The header of a body; `base` is `0x80` for strings and `0xc0` for lists. -/
def header (base length : Nat) : Bytes :=
  if length < 56 then [UInt8.ofNat (base + length)]
  else
    let size := Bytes.minimal length
    UInt8.ofNat (base + 55 + size.length) :: size

def encodeBytes (bs : Bytes) : Bytes :=
  match bs with
  | [b] => if b.toNat < 0x80 then [b] else header 0x80 1 ++ [b]
  | _ => header 0x80 bs.length ++ bs

mutual

def encode : Item → Bytes
  | .bytes bs => encodeBytes bs
  | .list items =>
    let body := encodeAll items
    header 0xc0 body.length ++ body

/-- The encodings of some items, one behind the other. -/
def encodeAll : List Item → Bytes
  | [] => []
  | item :: rest => encode item ++ encodeAll rest

end

/-- The first length that is too large for a header. -/
def lengthBound : Nat := 256 ^ 8

mutual

/-- Every body in the item has a length that a header can hold. -/
def fits : Item → Bool
  | .bytes bs => decide (bs.length < lengthBound)
  | .list items => fitsAll items && decide ((encodeAll items).length < lengthBound)

def fitsAll : List Item → Bool
  | [] => true
  | item :: rest => fits item && fitsAll rest

end

theorem encodeAll_nil : encodeAll [] = [] := rfl

theorem encodeAll_cons (item : Item) (rest : List Item) :
    encodeAll (item :: rest) = encode item ++ encodeAll rest := rfl

theorem encodeAll_append (xs ys : List Item) : encodeAll (xs ++ ys) = encodeAll xs ++ encodeAll ys := by
  induction xs with
  | nil => rfl
  | cons x xs ih => simp only [List.cons_append, encodeAll_cons, ih, List.append_assoc]

theorem encodeBytes_empty : encodeBytes [] = [0x80] := by decide

/-! ## Strict reading -/

/-- Splits off the first `n` bytes when there are as many. -/
def splitAt? (n : Nat) (bs : Bytes) : Option (Bytes × Bytes) :=
  if n ≤ bs.length then some (bs.take n, bs.drop n) else none

/-- A length of several bytes, which has no leading zero and is at least 56. -/
def readLength (size : Nat) (bs : Bytes) : Option (Nat × Bytes) := do
  let (digits, rest) ← splitAt? size bs
  let length := digits.toNat
  if digits.headD 0 = 0 ∨ length < 56 then none else some (length, rest)

/-- The kind of an item, its body, and what follows it. -/
def readBody (bs : Bytes) : Option (Bool × Bytes × Bytes) :=
  match bs with
  | [] => none
  | b :: rest =>
    let n := b.toNat
    if n < 0x80 then some (false, [b], rest)
    else if n < 0xb8 then do
      let (body, rest) ← splitAt? (n - 0x80) rest
      if body.length = 1 ∧ (body.headD 0).toNat < 0x80 then none else some (false, body, rest)
    else if n < 0xc0 then do
      let (length, rest) ← readLength (n - 0xb7) rest
      let (body, rest) ← splitAt? length rest
      some (false, body, rest)
    else if n < 0xf8 then do
      let (body, rest) ← splitAt? (n - 0xc0) rest
      some (true, body, rest)
    else do
      let (length, rest) ← readLength (n - 0xf7) rest
      let (body, rest) ← splitAt? length rest
      some (true, body, rest)

/-- Reads items to the end of the input. The fuel bounds the nesting and the number of items. -/
def readItems : Nat → Bytes → Option (List Item)
  | 0, bs => if bs.isEmpty then some [] else none
  | fuel + 1, bs =>
    if bs.isEmpty then some []
    else do
      let (isList, body, rest) ← readBody bs
      let item ← if isList then (readItems fuel body).map Item.list else some (.bytes body)
      let others ← readItems fuel rest
      return item :: others

/-- Every item takes at least one byte. -/
def readAll (bs : Bytes) : Option (List Item) := readItems bs.length bs

end LedgerClient.Rlp
