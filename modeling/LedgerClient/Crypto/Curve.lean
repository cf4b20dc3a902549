import LedgerClient.Bytes

/-!
# The curve secp256k1

Points of `y² = x³ + 7` over a prime field, in Jacobian coordinates: `(x, y, z)` stands for
`(x / z², y / z³)`, and `z = 0` for the point at infinity.
-/

namespace LedgerClient.Curve

def fieldPrime : Nat := 0xfffffffffffffffffffffffffffffffffffffffffffffffffffffffefffffc2f

/-- The number of points. -/
def order : Nat := 0xfffffffffffffffffffffffffffffffebaaedce6af48a03bbfd25e8cd0364141

def powMod (base : Nat) (exponent modulus : Nat) : Nat :=
  if exponent = 0 then 1 % modulus
  else
    let half := powMod (base * base % modulus) (exponent / 2) modulus
    if exponent % 2 = 1 then base * half % modulus else half
termination_by exponent

/-- The inverse modulo a prime; zero for multiples of it. -/
def invert (n modulus : Nat) : Nat := powMod (n % modulus) (modulus - 2) modulus

structure Point where
  x : Nat
  y : Nat
  z : Nat
  deriving DecidableEq, Repr, Inhabited

namespace Point

def infinity : Point := ⟨1, 1, 0⟩

def generator : Point :=
  ⟨0x79be667ef9dcbbac55a06295ce870b07029bfcdb2dce28d959f2815b16f81798,
   0x483ada7726a3c4655da4fbfc0e1108a8fd17b448a68554199c47d08ffb10d4b8, 1⟩

def isInfinity (p : Point) : Bool := p.z == 0

def mul (a b : Nat) : Nat := a * b % fieldPrime

/-- The difference of two reduced numbers. -/
def sub (a b : Nat) : Nat := (a + fieldPrime - b) % fieldPrime

def double (p : Point) : Point :=
  if p.z = 0 ∨ p.y = 0 then infinity
  else
    let yy := mul p.y p.y
    let s := 4 * mul p.x yy % fieldPrime
    let m := 3 * mul p.x p.x % fieldPrime
    let x := sub (mul m m) (2 * s % fieldPrime)
    let y := sub (mul m (sub s x)) (8 * mul yy yy % fieldPrime)
    ⟨x, y, 2 * mul p.y p.z % fieldPrime⟩

def add (p q : Point) : Point :=
  if p.z = 0 then q
  else if q.z = 0 then p
  else
    let pz := mul p.z p.z
    let qz := mul q.z q.z
    let u1 := mul p.x qz
    let u2 := mul q.x pz
    let s1 := mul p.y (mul qz q.z)
    let s2 := mul q.y (mul pz p.z)
    if u1 = u2 then
      if s1 = s2 then double p else infinity
    else
      let h := sub u2 u1
      let r := sub s2 s1
      let hh := mul h h
      let hhh := mul hh h
      let v := mul u1 hh
      let x := sub (sub (mul r r) hhh) (2 * v % fieldPrime)
      let y := sub (mul r (sub v x)) (mul s1 hhh)
      ⟨x, y, mul h (mul p.z q.z)⟩

/-- The sum of `n` copies of a point. -/
def times (n : Nat) (p : Point) : Point :=
  if n = 0 then infinity
  else
    let half := times (n / 2) (double p)
    if n % 2 = 1 then add half p else half
termination_by n

theorem times_zero (p : Point) : times 0 p = infinity := by rw [times]; simp

/-- The coordinates in the plane; both are zero at infinity. -/
def affine (p : Point) : Nat × Nat :=
  let inverse := invert p.z fieldPrime
  let square := mul inverse inverse
  (mul p.x square, mul p.y (mul square inverse))

/-- The two coordinates, 32 bytes each. -/
def toBytes (p : Point) : Bytes :=
  let (x, y) := p.affine
  Bytes.ofNat 32 x ++ Bytes.ofNat 32 y

theorem toBytes_length (p : Point) : p.toBytes.length = 64 := by
  simp [toBytes, Bytes.ofNat_length]

/-- The point with a given first coordinate whose second one has the given parity. -/
def lift? (x : Nat) (odd : Bool) : Option Point :=
  let square := (mul (mul x x) x + 7) % fieldPrime
  let root := powMod square ((fieldPrime + 1) / 4) fieldPrime
  let y := if decide (root % 2 = 1) = odd then root else fieldPrime - root
  if mul y y = square then some ⟨x % fieldPrime, y, 1⟩ else none

end Point

end LedgerClient.Curve
