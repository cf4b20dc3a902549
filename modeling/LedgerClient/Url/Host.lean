import LedgerClient.Bytes
import LedgerClient.Text.Digit

/-!
# Hosts in brackets

Between brackets stands an address of version six, whose last two groups may be written as an
address of version four and which may carry a zone, or an address of a later version behind a `v`.
-/

namespace LedgerClient.Url

/-- The parts between separators. -/
def splitOnChar (sep : Char) : List Char → List (List Char)
  | [] => [[]]
  | c :: rest =>
    match splitOnChar sep rest with
    | part :: parts => if c = sep then [] :: part :: parts else (c :: part) :: parts
    | [] => [[c]]

theorem splitOnChar_nil (sep : Char) : splitOnChar sep [] = [[]] := rfl

theorem splitOnChar_ne_nil (sep : Char) (s : List Char) : splitOnChar sep s ≠ [] := by
  cases s with
  | nil => simp [splitOnChar]
  | cons c rest =>
    simp only [splitOnChar]
    split
    · split <;> simp
    · simp

/-- A number up to 255 without leading zeros. -/
def isOctet (s : List Char) : Bool :=
  match s.mapM Text.asciiDigit? with
  | some digits =>
    decide (1 ≤ digits.length) && decide (digits.length ≤ 3) &&
      (decide (digits.length = 1) || digits.head? != some 0) &&
      decide (digits.foldl (fun n d => 10 * n + d) 0 ≤ 255)
  | none => false

def isVersionFour (s : List Char) : Bool :=
  let parts := splitOnChar '.' s
  parts.length = 4 && parts.all isOctet

def isGroup (s : List Char) : Bool :=
  !s.isEmpty && decide (s.length ≤ 4) && s.all Bytes.isHexDigit

/-- The last group as two when it is an address of version four. -/
def expandLast (parts : List (List Char)) : Option (List (List Char)) :=
  match parts.getLast? with
  | some last =>
    if last.contains '.' then
      if isVersionFour last then some (parts.dropLast ++ [['0'], ['0']]) else none
    else some parts
  | none => none

/-- The places of empty groups strictly inside. -/
def innerGaps (parts : List (List Char)) : List Nat :=
  (List.range parts.length).filter fun i =>
    decide (0 < i) && decide (i + 1 < parts.length) && ((parts.getD i []).isEmpty)

/-- Groups on one side of the gap. An empty group at the outer end stands for the colon before or
behind the gap, and then nothing else may stand on that side. -/
def sideGroups (outer : Option (List Char)) (groups : List (List Char)) : Option (List (List Char)) :=
  match outer with
  | some [] => if groups.length = 1 then some [] else none
  | _ => some groups

def groupsFit (parts : List (List Char)) : Bool :=
  match innerGaps parts with
  | [] => parts.length = 8 && parts.all isGroup
  | [gap] =>
    match sideGroups parts.head? (parts.take gap),
      sideGroups parts.getLast? (parts.drop (gap + 1)) with
    | some high, some low =>
      decide (high.length + low.length < 8) && high.all isGroup && low.all isGroup
    | _, _ => false
  | _ => false

/-- An address of version six without its zone. -/
def isVersionSix (s : List Char) : Bool :=
  let parts := splitOnChar ':' s
  decide (3 ≤ parts.length) &&
    match expandLast parts with
    | some parts => decide (parts.length ≤ 9) && groupsFit parts
    | none => false

/-- A zone is not empty and holds no second mark. -/
def isZoned (s : List Char) : Bool :=
  let address := s.takeWhile (· ≠ '%')
  match s.dropWhile (· ≠ '%') with
  | [] => isVersionSix address
  | _ :: zone => !zone.isEmpty && !zone.contains '%' && isVersionSix address

def isFuture (s : List Char) : Bool :=
  let version := s.takeWhile Bytes.isHexDigit
  match s.dropWhile Bytes.isHexDigit with
  | '.' :: rest => !version.isEmpty && !rest.isEmpty
  | _ => false

def isBracketedHost (s : List Char) : Bool :=
  match s with
  | 'v' :: rest => isFuture rest
  | _ => isZoned s && !s.contains '/'

end LedgerClient.Url
