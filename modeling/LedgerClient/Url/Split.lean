import LedgerClient.Text.Digit
import LedgerClient.Text.LetterCase
import LedgerClient.Url.Host

/-!
# The parts of a URL

A URL is cut into scheme, authority, path, query and fragment. Control characters and blanks at
its beginning, and tabs and line ends anywhere, do not count. An authority with brackets that do not
stand around an address is refused, and so is one with a character that stands for a delimiter in
its compatibility form.
-/

namespace LedgerClient.Url

structure Parts where
  scheme : String
  authority : String
  path : String
  query : Option String
  fragment : Option String
  deriving DecidableEq, Repr

def isAsciiLetter (c : Char) : Bool :=
  (decide (97 ≤ c.toNat) && decide (c.toNat ≤ 122)) ||
    (decide (65 ≤ c.toNat) && decide (c.toNat ≤ 90))

def isSchemeChar (c : Char) : Bool :=
  isAsciiLetter c || (Text.asciiDigit? c).isSome || c = '+' || c = '-' || c = '.'

/-- Drops what does not count. -/
def tidy (s : List Char) : List Char :=
  (s.dropWhile fun c => decide (c.toNat ≤ 32)).filter fun c => c != '\t' && c != '\r' && c != '\n'

/-- The scheme in lower case, when a scheme stands before the first colon. -/
def splitScheme (s : List Char) : List Char × List Char :=
  let name := s.takeWhile (· ≠ ':')
  match s.dropWhile (· ≠ ':') with
  | _ :: rest =>
    if (name.head?.map isAsciiLetter).getD false && name.all isSchemeChar then
      (Text.lowerChars name, rest)
    else ([], s)
  | [] => ([], s)

def isAuthorityEnd (c : Char) : Bool := c = '/' || c = '?' || c = '#'

def splitAuthority (s : List Char) : List Char × List Char :=
  match s with
  | '/' :: '/' :: rest =>
    (rest.takeWhile fun c => !isAuthorityEnd c, rest.dropWhile fun c => !isAuthorityEnd c)
  | _ => ([], s)

/-- Cuts at the first occurrence of a mark. -/
def cutAt (mark : Char) (s : List Char) : List Char × Option (List Char) :=
  match s.dropWhile (· ≠ mark) with
  | _ :: rest => (s.takeWhile (· ≠ mark), some rest)
  | [] => (s, none)

/-- Characters beyond ASCII whose compatibility form holds a delimiter. -/
def delimiterForms : List Nat :=
  [0x2047, 0x2048, 0x2049, 0x2100, 0x2101, 0x2105, 0x2106, 0x2a74, 0xfe13, 0xfe16, 0xfe55, 0xfe56,
    0xfe5f, 0xfe6b, 0xff03, 0xff0f, 0xff1a, 0xff1f, 0xff20]

/-- What stands behind the user, that is, behind the last `@`. -/
def hostAndGate (authority : List Char) : List Char :=
  (authority.reverse.takeWhile (· ≠ '@')).reverse

/-- A host in brackets has nothing before them, and behind them nothing or a colon. -/
def isBracketed (s : List Char) : Bool :=
  match cutAt ']' s with
  | (host, some (c :: _)) => isBracketedHost host && c = ':'
  | (host, _) => isBracketedHost host

/-- Brackets come in pairs. Where the authority has them, its host must be one that belongs into
brackets, also when they are those of the user. -/
def bracketsFit (authority : List Char) : Bool :=
  match authority.contains '[', authority.contains ']' with
  | false, false => true
  | true, true =>
    let target := hostAndGate authority
    match target with
    | '[' :: rest => isBracketed rest
    | _ => !target.contains '[' && isBracketedHost (cutAt ':' target).1
  | _, _ => false

def authorityFits (authority : List Char) : Bool :=
  bracketsFit authority && !authority.any fun c => delimiterForms.contains c.toNat

def splitChars (s : List Char) : Option Parts :=
  let (scheme, rest) := splitScheme (tidy s)
  let (authority, rest) := splitAuthority rest
  if authorityFits authority then
    let (rest, fragment) := cutAt '#' rest
    let (path, query) := cutAt '?' rest
    some ⟨String.ofList scheme, String.ofList authority, String.ofList path,
      query.map String.ofList, fragment.map String.ofList⟩
  else none

/-- The parts of a URL; `none` when its authority is malformed. -/
def split? (s : String) : Option Parts := splitChars s.toList

/-- The scheme is one of the two for the web, and an authority is present. -/
def Parts.isWeb (p : Parts) : Bool :=
  (p.scheme = "http" || p.scheme = "https") && !p.authority.isEmpty

theorem dropWhile_ne_of_not_mem {mark : Char} {s : List Char} (h : mark ∉ s) :
    s.dropWhile (· ≠ mark) = [] := by
  induction s with
  | nil => rfl
  | cons c rest ih =>
    simp only [List.mem_cons, not_or] at h
    simp only [List.dropWhile_cons, ne_eq, Ne.symm h.1, not_false_eq_true, decide_true, if_true]
    exact ih h.2

theorem cutAt_eq_none {mark : Char} {s : List Char} (h : mark ∉ s) : cutAt mark s = (s, none) := by
  unfold cutAt
  rw [dropWhile_ne_of_not_mem h]

end LedgerClient.Url
