import LedgerClient.Value.Number

/-!
# Arithmetic on values

Integers and truth values are multiplied exactly. As soon as a float takes part the result is a
float, and an integer without a float near it overflows. Decimals are multiplied with each other and
with integers, but not with floats. A text, a byte string or a list is repeated by an integer. Values
of other types cannot be multiplied.
-/

namespace LedgerClient.Value

def floatOf (n : Int) : Except Fault Float :=
  match Binary.ofInt? n with
  | some x => .ok x
  | none => .error .overflow

/-- A number as a factor of a float. -/
def floatFactor (v : Value) : Except Fault Float :=
  match v with
  | .float x => .ok x
  | _ =>
    match v.integer? with
    | some n => floatOf n
    | none => .error .wrongType

/-- A number as a factor of a decimal. -/
def decimalFactor (v : Value) : Except Fault Decimal :=
  match v with
  | .decimal d => .ok d
  | _ =>
    match v.integer? with
    | some n => .ok (Decimal.ofInt n)
    | none => .error .wrongType

def ofDecimal (r : Except Decimal.Signal Decimal) : Except Fault Value :=
  match r with
  | .ok d => .ok (.decimal d)
  | .error s => .error (.ofSignal s)

/-- A repetition so often that the number has no machine word is refused. -/
def repetitions (n : Int) : Except Fault Nat :=
  if n < 2 ^ 63 ∧ -2 ^ 63 ≤ n then .ok n.toNat else .error .overflow

def repeatItems {α : Type} (items : List α) (n : Nat) : List α := (List.replicate n items).flatten

/-- A sequence one after another as often as an integer says. -/
def repeated (v : Value) (n : Int) : Except Fault Value := do
  match v with
  | .text s => return .text (String.ofList (repeatItems s.toList (← repetitions n)))
  | .torn t => return (Script.ofGlyphs (repeatItems t.glyphs (← repetitions n))).toValue
  | .bytes bs => return .bytes (repeatItems bs (← repetitions n))
  | .buffer bs => return .buffer (repeatItems bs (← repetitions n))
  | .list items => return .list (repeatItems items (← repetitions n))
  | .tuple items => return .tuple (repeatItems items (← repetitions n))
  | _ => .error .wrongType

def times (a b : Value) : Except Fault Value :=
  match a, b with
  | .float _, _ | _, .float _ => do
    let x ← floatFactor a
    let y ← floatFactor b
    return .float (x * y)
  | .decimal _, _ | _, .decimal _ => do
    let x ← decimalFactor a
    let y ← decimalFactor b
    ofDecimal (Decimal.multiply .plain x y)
  | _, _ =>
    match a.integer?, b.integer? with
    | some m, some n => .ok (.int (m * n))
    | none, some n => repeated a n
    | some m, none => repeated b m
    | none, none => .error .wrongType

/-- A natural power of an integer; a unit needs no multiplication. -/
def integerPower (m : Int) (n : Nat) : Int :=
  if m.natAbs ≤ 1 then if n = 0 then 1 else if n % 2 = 0 then m * m else m else m ^ n

/-- A natural power. The exponent of a float becomes a float first. -/
def power (base : Value) (n : Nat) : Except Fault Value :=
  match base with
  | .float x => do
    let exponent ← floatOf n
    match Binary.pow? x ((Binary.truncate? exponent).getD 0).toNat with
    | some y => return .float y
    | none => .error .overflow
  | .decimal d => ofDecimal (Decimal.power .plain d n)
  | _ =>
    match base.integer? with
    | some m => .ok (.int (integerPower m n))
    | none => .error .wrongType

theorem times_int (m n : Int) : times (.int m) (.int n) = .ok (.int (m * n)) := rfl

theorem integerPower_eq (m : Int) (n : Nat) : integerPower m n = m ^ n := by
  unfold integerPower
  split
  · have h : m = 0 ∨ m = 1 ∨ m = -1 := by omega
    by_cases hn : n = 0
    · rw [if_pos hn, hn, Int.pow_zero]
    · rw [if_neg hn]
      rcases h with rfl | rfl | rfl
      · simp [Int.zero_pow hn]
      · rw [Int.one_pow, Int.one_mul, ite_self]
      · split
        · obtain ⟨k, rfl⟩ : ∃ k, n = 2 * k := ⟨n / 2, by omega⟩
          rw [Int.pow_mul, show (-1 : Int) ^ 2 = 1 from rfl, Int.one_pow]
          rfl
        · obtain ⟨k, rfl⟩ : ∃ k, n = 2 * k + 1 := ⟨n / 2, by omega⟩
          rw [Int.pow_succ, Int.pow_mul, show (-1 : Int) ^ 2 = 1 from rfl, Int.one_pow, Int.one_mul]
  · rfl

theorem power_int (m : Int) (n : Nat) : power (.int m) n = .ok (.int (m ^ n)) := by
  simp [power, integer?, integerPower_eq]

end LedgerClient.Value
