import LedgerClient.Address.Reading
import LedgerClient.Amount.Reading
import LedgerClient.Response.Types
import LedgerClient.Text.LetterCase

/-!
# Parts of a response

Readers of the pieces that records are made of. Unsigned integers of 64 bits come as JSON integers
or as numerals in text, hashes as text behind `0x`, optional parts may be absent or null.
-/

namespace LedgerClient.Response

/-- The error of a record that does not have the expected shape. An error about the shape of a
nested record stands as it is. -/
def shaped {α : Type} (typeName : String) (r : Result α) : Result α :=
  match r with
  | .ok a => .ok a
  | .error (.client e) =>
    match e.kind with
    | .encoding => .fail (.unexpectedShape typeName e.text (some e.className))
    | _ => .error (.client e)
  | .error (.fault f) =>
    if f.isShape then .fail (.unexpectedShape typeName f.text (some f.label))
    else .error (.fault f)

theorem shaped_ok {α : Type} (typeName : String) (a : α) :
    shaped typeName (.ok a : Result α) = .ok a := rfl

def require (data : Value) (key : String) : Result Value := Result.ofFault (data.require key)

def optional (data : Value) (key : String) : Result Value := Result.ofFault (data.optional key)

def wordBound : Nat := 2 ^ 64

def refuseWord (n : Int) : Result Nat := do
  let shown ← Result.ofFault (Value.integerText n)
  .error (.fault (.refused (.outsideWord shown)))

theorem refuseWord_ne_ok (n : Int) (k : Nat) : refuseWord n ≠ .ok k := by
  unfold refuseWord
  cases Result.ofFault (Value.integerText n) <;> simp [bind, Except.bind]

def inWord (n : Int) : Result Nat :=
  if 0 ≤ n ∧ n.toNat < wordBound then .ok n.toNat else refuseWord n

theorem inWord_eq_ok {n : Int} {k : Nat} (h : inWord n = .ok k) : k < wordBound ∧ (k : Int) = n := by
  unfold inWord at h
  split at h
  · next hn => simp only [Except.ok.injEq] at h; subst h; exact ⟨hn.2, by omega⟩
  · exact absurd h (refuseWord_ne_ok n k)

/-- An unsigned integer of 64 bits. -/
def word (v : Value) : Result Nat :=
  match v with
  | .int n => inWord n
  | .text s =>
    match Integer.readLiteral? s with
    | some n => inWord n
    | none => .error (.fault .badValue)
  | .torn _ => .error (.fault .badValue)
  | _ => .error (.fault (.refused (.notInteger v.typeName)))

/-- A record with a single unsigned integer. -/
def singleWord (typeName key : String) (data : Value) : Result Nat :=
  shaped typeName do
    word (← require data key)

/-- A hash in lower case. -/
def hashText (v : Value) : Result Script :=
  let refuse : Result Script := do
    let shown ← Result.ofFault v.detailed
    .error (.fault (.refused (.notHash shown)))
  match v.text? with
  | some s => if "0x".toList.isPrefixOf s.mended.toList then .ok s.lower else refuse
  | none => refuse

def absentOr {α : Type} (read : Value → Result α) (v : Value) : Result (Option α) :=
  if v.isNull then .ok none
  else do
    let a ← read v
    return some a

theorem absentOr_null {α : Type} (read : Value → Result α) : absentOr read .null = .ok none := rfl

def optionalWord (data : Value) (key : String) : Result (Option Nat) := do
  absentOr word (← optional data key)

def optionalHash (data : Value) (key : String) : Result (Option Script) := do
  absentOr hashText (← optional data key)

def optionalAddress (data : Value) (key : String) : Result (Option Address) := do
  absentOr Address.decode (← optional data key)

/-- An amount as an integer or as decimal text. -/
def amount (v : Value) : Result TokenAmount :=
  match v with
  | .text s => TokenAmount.ofText s
  | .torn t => TokenAmount.ofTorn t
  | _ => TokenAmount.ofValue v

def successFlag (v : Value) : Result Bool :=
  match v with
  | .bool b => .ok b
  | _ => .error (.fault (.refused (.successType v.typeName)))

/-- A fee may have any size and sign. -/
def fee (v : Value) : Result Int :=
  match v with
  | .int n => .ok n
  | .text s =>
    match Integer.read? 10 s with
    | some n => .ok n
    | none => .error (.fault .badValue)
  | .torn _ => .error (.fault .badValue)
  | _ => .error (.fault (.refused .feeType))

/-- Any value as text. -/
def displayed (v : Value) : Result Script := Result.ofFault v.script

/-- The text of a value that counts as true, otherwise the empty text. -/
def displayedOrEmpty (v : Value) : Result Script := if v.truthy then displayed v else .ok ""

/-- What a value consists of when it is gone through: elements, keys or characters. -/
def elements (v : Value) : Except Fault (List Value) :=
  match v with
  | .list items | .tuple items => .ok items
  | .dict entries => .ok (entries.map Prod.fst)
  | .text s => .ok (s.toList.map fun c => .text (String.singleton c))
  | .torn t => .ok (t.glyphs.map fun g => (Script.ofGlyphs [g]).toValue)
  | .bytes bs | .buffer bs => .ok (bs.map fun b => .int b.toNat)
  | _ => .error .wrongType

/-- An empty or absent list has no elements. -/
def elementsOrNone (v : Value) : Except Fault (List Value) :=
  if v.truthy then elements v else .ok []

def readAll {α : Type} (read : Value → Result α) : List Value → Result (List α)
  | [] => .ok []
  | v :: rest => do
    let a ← read v
    let others ← readAll read rest
    return a :: others

theorem readAll_nil {α : Type} (read : Value → Result α) : readAll read [] = .ok [] := rfl

theorem readAll_length {α : Type} (read : Value → Result α) {vs : List Value} {as : List α}
    (h : readAll read vs = .ok as) : as.length = vs.length := by
  induction vs generalizing as with
  | nil => simp only [readAll, Except.ok.injEq] at h; subst h; rfl
  | cons v rest ih =>
    simp only [readAll, bind, Except.bind] at h
    split at h
    · simp at h
    · split at h
      · simp at h
      · next heq =>
        simp only [pure, Except.pure, Except.ok.injEq] at h
        subst h
        simp [ih heq]

/-- A list under a key that may be absent, but not null. -/
def listAt {α : Type} (read : Value → Result α) (data : Value) (key : String) : Result (List α) :=
  match data with
  | .dict entries =>
    match Value.lookup key entries with
    | none => .ok []
    | some v => do
      let items ← Result.ofFault (elements v)
      readAll read items
  | _ => .error (.fault .noAttribute)

/-! ## Dictionaries from pairs -/

def entryOf (v : Value) : Except Fault (Value × Value) := do
  match ← elements v with
  | [key, value] => if key.hashable then return (key, value) else .error .wrongType
  | _ => .error .badValue

def collectEntries (done : List (Value × Value)) : List Value → Except Fault (List (Value × Value))
  | [] => .ok done
  | v :: rest => do
    let (key, value) ← entryOf v
    collectEntries (Value.insertEntry key value done) rest

/-- The dictionary that a value stands for: itself, or its elements read as pairs. -/
def dictionary (v : Value) : Except Fault (List (Value × Value)) :=
  if !v.truthy then .ok []
  else match v with
    | .dict entries => .ok entries
    | _ => do
      let items ← elements v
      collectEntries [] items

theorem dictionary_dict (entry : Value × Value) (rest : List (Value × Value)) :
    dictionary (.dict (entry :: rest)) = .ok (entry :: rest) := rfl

end LedgerClient.Response
