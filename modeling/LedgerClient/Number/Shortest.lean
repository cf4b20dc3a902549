import LedgerClient.Number.Binary

/-!
# The shortest decimal that reads back

A finite number is written with the fewest digits that denote it alone. The decimal grids are
searched from coarse to fine; on the first grid with a point in the interval of reals that
round to the number, the nearer of the two neighbours is taken, and of two equally near ones
the even one.
-/

namespace LedgerClient.Shortest

/-- A positive decimal: `digits · 10 ^ exponent`. -/
structure Digits where
  digits : Nat
  exponent : Int
  deriving DecidableEq, Repr

/-- The reals that round to a number, in quarters of its unit. -/
structure Interval where
  low : Nat
  value : Nat
  high : Nat
  closed : Bool

/-- Below a power of two the spacing is half as wide, except at the smallest exponent. -/
def interval (mantissa : Nat) (exponent : Int) : Interval :=
  { low := if mantissa = 2 ^ 52 ∧ -1074 < exponent then 4 * mantissa - 1 else 4 * mantissa - 2
    value := 4 * mantissa
    high := 4 * mantissa + 2
    closed := mantissa % 2 = 0 }

/-- A point of a grid, scaled to the units of the interval. -/
def Interval.has (i : Interval) (num den point : Nat) : Bool :=
  if i.closed then decide (i.low * num ≤ point * den) && decide (point * den ≤ i.high * num)
  else decide (i.low * num < point * den) && decide (point * den < i.high * num)

/-- A unit of the interval is `num / den` steps of the grid. -/
def pick (i : Interval) (num den : Nat) : Option Nat :=
  let below := i.value * num / den
  let rest := i.value * num % den
  let nearer := if 2 * rest < den ∨ (2 * rest = den ∧ below % 2 = 0) then below else below + 1
  let farther := if nearer = below then below + 1 else below
  if i.has num den nearer then some nearer
  else if i.has num den farther then some farther
  else none

def search (i : Interval) (exponent : Int) : Nat → Int → Digits
  | 0, grid => ⟨i.value, grid⟩
  | fuel + 1, grid =>
    let unit := exponent - 2
    let num := 2 ^ unit.toNat * 10 ^ (-grid).toNat
    let den := 2 ^ (-unit).toNat * 10 ^ grid.toNat
    match pick i num den with
    | some digits => ⟨digits, grid⟩
    | none => search i exponent fuel (grid - 1)

/-- The search begins above the number, and seventeen digits always suffice. -/
def ofExact (mantissa : Nat) (exponent : Int) : Digits :=
  let top : Int := (mantissa.log2 + exponent) * 30103 / 100000 + 2
  search (interval mantissa exponent) exponent 24 top

/-- How a finite number is written: positional text while the decimal point stands at one of the
listed places, otherwise one digit, the rest behind the point, and a signed exponent of at least
two digits. -/
structure Style where
  lowestPoint : Int
  highestPoint : Int

/-- The point stands at most sixteen places behind, and at most three zeros before, the digits. -/
def Style.plain : Style := ⟨-3, 16⟩

def exponentChars (n : Int) : List Char :=
  let digits := Nat.toDigits 10 n.natAbs
  (if n < 0 then '-' else '+') :: (if digits.length < 2 then '0' :: digits else digits)

def Style.write (style : Style) (d : Digits) : List Char :=
  let digits := Nat.toDigits 10 d.digits
  let point : Int := digits.length + d.exponent
  if style.lowestPoint ≤ point ∧ point ≤ style.highestPoint then
    if point ≤ 0 then '0' :: '.' :: List.replicate (-point).toNat '0' ++ digits
    else if digits.length ≤ point.toNat then
      digits ++ List.replicate (point.toNat - digits.length) '0' ++ ['.', '0']
    else digits.take point.toNat ++ '.' :: digits.drop point.toNat
  else
    let tail := digits.drop 1
    digits.take 1 ++ (if tail.isEmpty then [] else '.' :: tail) ++ 'e' :: exponentChars (point - 1)

/-- The text of any float. -/
def text (x : Float) : String :=
  if Binary.isNaN x then "nan"
  else
    let sign := if Binary.isNegative x then "-" else ""
    if Binary.isInfinite x then sign ++ "inf"
    else
      let v := Binary.exact x
      if v.mantissa = 0 then sign ++ "0.0"
      else sign ++ String.ofList (Style.plain.write (ofExact v.mantissa v.exponent))

end LedgerClient.Shortest
