import LedgerClient.Text.CaseTable

/-!
# Lower and upper case of texts

Case is mapped character by character, except that a capital sigma at the end of a word
becomes the final small sigma: a cased letter stands before it and none after it, marks and
signs skipped on both sides.
-/

namespace LedgerClient.Text

def mapCase (special : List (Nat × List Nat)) (runs : List CaseRun) (c : Char) : List Char :=
  match special.lookup c.toNat with
  | some codes => codes.map Char.ofNat
  | none => [Char.ofNat (CaseRun.apply c.toNat runs)]

def lowerChar (c : Char) : List Char :=
  if c.toNat < 128 then
    [if 65 ≤ c.toNat ∧ c.toNat ≤ 90 then Char.ofNat (c.toNat + 32) else c]
  else mapCase lowerSpecial lowerRuns c

def upperChar (c : Char) : List Char :=
  if c.toNat < 128 then
    [if 97 ≤ c.toNat ∧ c.toNat ≤ 122 then Char.ofNat (c.toNat - 32) else c]
  else mapCase upperSpecial upperRuns c

/-- The first character that is not skipped has case. -/
def nextCased : List Char → Bool
  | [] => false
  | c :: rest =>
    if Ranges.has c.toNat caseIgnorableRanges then nextCased rest
    else Ranges.has c.toNat casedRanges

/-- `before` holds the characters already passed, the nearest first. -/
def lowerFrom (before : List Char) : List Char → List Char
  | [] => []
  | c :: rest =>
    let mapped :=
      if c = 'Σ' then [if nextCased before && !nextCased rest then 'ς' else 'σ'] else lowerChar c
    mapped ++ lowerFrom (c :: before) rest

def lowerChars (s : List Char) : List Char := lowerFrom [] s

def lower (s : String) : String := String.ofList (lowerChars s.toList)

def upper (s : String) : String := String.ofList (s.toList.flatMap upperChar)

theorem lowerFrom_nil (before : List Char) : lowerFrom before [] = [] := rfl

theorem upperChar_ascii_digit {c : Char} (low : 48 ≤ c.toNat) (high : c.toNat ≤ 57) :
    upperChar c = [c] := by
  have h1 : c.toNat < 128 := by omega
  have h2 : ¬(97 ≤ c.toNat ∧ c.toNat ≤ 122) := by omega
  simp only [upperChar, h1, if_true, h2, if_false]

end LedgerClient.Text
