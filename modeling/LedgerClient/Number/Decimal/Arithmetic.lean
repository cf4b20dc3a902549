import LedgerClient.Number.Decimal

/-!
# Arithmetic of decimal numbers

Sums, products and natural powers are exact numbers fitted to a format of 28 digits. A power is
found by repeated squaring with a few digits more, so that the last step rounds once. A number that
signals, and an operation without a meaning, is invalid; any other that is no number passes through.
-/

namespace LedgerClient.Decimal

def Format.plain : Format := ⟨28, 999999, -999999⟩

/-- Every finite float is a decimal, because a half is five tenths. -/
def ofFloat (x : Float) : Decimal :=
  if Binary.isNaN x then .nan (Binary.isNegative x) false 0
  else if Binary.isInfinite x then .infinite (Binary.isNegative x)
  else
    let v := Binary.exact x
    .finite v.negative (v.mantissa * 2 ^ v.exponent.toNat * 5 ^ (-v.exponent).toNat)
      (min 0 v.exponent)

def isNegative : Decimal → Bool
  | .finite negative .. | .infinite negative | .nan negative .. => negative

/-- What an operand that is no number makes of a result: one that signals is invalid, otherwise the
first one passes through with as many digits as fit. -/
def undefined? (f : Format) (a b : Decimal) : Option (Except Signal Decimal) :=
  match a, b with
  | .nan _ true _, _ | _, .nan _ true _ => some (.error .invalidOperation)
  | .nan s _ p, _ | _, .nan s _ p => some (.ok (.nan s false (p % 10 ^ f.precision)))
  | _, _ => none

/-! ## Sums -/

def signed (negative : Bool) (coefficient : Nat) : Int :=
  if negative then -(coefficient : Int) else coefficient

/-- The lowest place that can have a say in a sum in which the number at the higher exponent has
this many digits. -/
def lastPlace (f : Format) (digits : Nat) (exponent : Int) : Int :=
  exponent - 1 + (if f.precision < digits then 0 else (digits : Int) - f.precision - 1)

/-- A sum of which the first term has the higher exponent. A second term below every place that
matters is replaced by one unit, which rounds alike. -/
def addAligned (f : Format) (a : Bool × Nat × Int) (b : Bool × Nat × Int) :
    Except Signal Decimal :=
  let (aNegative, c, e) := a
  let (bNegative, d, g) := b
  let place := lastPlace f (digitCount c) e
  let (d, g) :=
    if c ≠ 0 ∧ e ≠ g ∧ adjusted d g < place then (if d = 0 then 0 else 1, place) else (d, g)
  let total := signed aNegative c * 10 ^ (if c = 0 then 0 else (e - g).toNat) + signed bNegative d
  f.fit (if total = 0 then aNegative && bNegative else decide (total < 0)) total.natAbs g

def add (f : Format) (a b : Decimal) : Except Signal Decimal :=
  match undefined? f a b with
  | some result => result
  | none =>
    match a, b with
    | .finite s c e, .finite t d g =>
      if g ≤ e then addAligned f (s, c, e) (t, d, g) else addAligned f (t, d, g) (s, c, e)
    | .infinite s, .infinite t => if s = t then .ok a else .error .invalidOperation
    | .infinite _, _ => .ok a
    | _, _ => .ok b

/-! ## Products -/

def multiply (f : Format) (a b : Decimal) : Except Signal Decimal :=
  match undefined? f a b with
  | some result => result
  | none =>
    match a, b with
    | .finite s c e, .finite t d g => f.fit (s != t) (c * d) (e + g)
    | _, _ =>
      if a.isZero || b.isZero then .error .invalidOperation
      else .ok (.infinite (a.isNegative != b.isNegative))

/-! ## Powers -/

/-- Squares for every binary digit of the exponent behind the first and multiplies where it is
one. -/
def powerSteps (f : Format) (base : Decimal) : List Bool → Decimal → Except Signal Decimal
  | [], x => .ok x
  | bit :: rest, x => do
    let y ← multiply f x x
    let z ← if bit then multiply f y base else pure y
    powerSteps f base rest z

/-- The binary digits behind the first, from the highest. -/
def lowerBits (n : Nat) : List Bool := (List.range n.log2).reverse.map n.testBit

/-- A unit keeps the places after the point that multiplication would give it, as far as they
fit. -/
def powerOfUnit (f : Format) (negative : Bool) (places n : Nat) : Decimal :=
  let kept := min (places * n) (f.precision - 1)
  .finite negative (10 ^ kept) (-(kept : Int))

def isUnit (coefficient : Nat) (exponent : Int) : Bool :=
  compareMagnitudes coefficient exponent 1 0 == .eq

/-- A positive power of a finite nonzero number. -/
def powerFinite (f : Format) (negative : Bool) (c : Nat) (e : Int) (n : Nat) :
    Except Signal Decimal := do
  let sign := negative && n % 2 = 1
  if isUnit c e then return powerOfUnit f sign (-e).toNat n
  let wide : Format := { f with precision := f.precision + digitCount n + 2 }
  match ← powerSteps wide (.finite false c e) (lowerBits n) (.finite false c e) with
  | .finite _ c e => f.fit sign c e
  | other => return other

/-- A natural power. Zero to the power of zero has no meaning. -/
def power (f : Format) (base : Decimal) (n : Nat) : Except Signal Decimal :=
  match base with
  | .nan _ true _ => .error .invalidOperation
  | .nan negative _ p => .ok (.nan negative false (p % 10 ^ f.precision))
  | .infinite negative =>
    .ok (if n = 0 then .finite false 1 0 else .infinite (negative && n % 2 = 1))
  | .finite negative c e =>
    if c = 0 then
      if n = 0 then .error .invalidOperation else .ok (.finite (negative && n % 2 = 1) 0 0)
    else if n = 0 then .ok (.finite false 1 0)
    else powerFinite f negative c e n

theorem power_zero (f : Format) (negative : Bool) {c : Nat} (e : Int) (h : c ≠ 0) :
    power f (.finite negative c e) 0 = .ok (.finite false 1 0) := by
  simp [power, h]

end LedgerClient.Decimal
