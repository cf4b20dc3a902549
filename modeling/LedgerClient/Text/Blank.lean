/-!
# Blank characters

Trimming removes the characters that Unicode calls white space together with the four
ASCII information separators. Inside a number only the six ASCII blanks and the
blanks beyond ASCII surround the digits: `isNumeralBlank` leaves the separators out.
-/

namespace LedgerClient.Text

def isAsciiBlank (c : Char) : Bool :=
  c = ' ' || (decide (9 ≤ c.toNat) && decide (c.toNat ≤ 13))

def isWideBlank (c : Char) : Bool :=
  let n := c.toNat
  n = 0x85 || n = 0xA0 || n = 0x1680 || (decide (0x2000 ≤ n) && decide (n ≤ 0x200A)) ||
    n = 0x2028 || n = 0x2029 || n = 0x202F || n = 0x205F || n = 0x3000

def isSeparatorBlank (c : Char) : Bool :=
  decide (0x1C ≤ c.toNat) && decide (c.toNat ≤ 0x1F)

def isBlank (c : Char) : Bool := isAsciiBlank c || isSeparatorBlank c || isWideBlank c

def isNumeralBlank (c : Char) : Bool := isAsciiBlank c || isWideBlank c

theorem isBlank_of_isNumeralBlank {c : Char} (h : isNumeralBlank c = true) : isBlank c = true := by
  simp only [isNumeralBlank, Bool.or_eq_true] at h
  rcases h with h | h <;> simp [isBlank, h]

/-- Removes a class of characters from both ends. -/
def trimBoth (drop : Char → Bool) (s : List Char) : List Char :=
  ((s.dropWhile drop).reverse.dropWhile drop).reverse

theorem trimBoth_nil (drop : Char → Bool) : trimBoth drop [] = [] := rfl

def trimChars (s : List Char) : List Char := trimBoth isBlank s

def trim (s : String) : String := String.ofList (trimChars s.toList)

end LedgerClient.Text
