import LedgerClient.Number.Integer
import LedgerClient.Url.Query
import LedgerClient.Url.Split

/-!
# A URL as it is sent

A transport sends a URL in one written form: scheme and host in lower case, the usual gate of the
scheme left out, no `.` or `..` among the steps of the path, and every character that may not stand
bare in its part written by its bytes behind `%`. Addresses in brackets and hosts beyond ASCII are
left as they are.
-/

namespace LedgerClient.Url

/-! ## Characters -/

/-- Printable ASCII other than the listed delimiters stands bare. -/
def standsBare (delimiters : String) (c : Char) : Bool :=
  decide (32 < c.toNat) && decide (c.toNat < 127) && !delimiters.toList.contains c

def percentByte (b : UInt8) : List Char :=
  ['%', upperHexDigit (b.toNat / 16), upperHexDigit (b.toNat % 16)]

def quoteBeyond (delimiters : String) (s : List Char) : List Char :=
  s.flatMap fun c =>
    if standsBare delimiters c then [c] else (Text.utf8 c.toString).flatMap percentByte

theorem quoteBeyond_of_bare (delimiters : String) (s : List Char)
    (h : ∀ c ∈ s, standsBare delimiters c = true) : quoteBeyond delimiters s = s := by
  induction s with
  | nil => rfl
  | cons c s ih =>
    have hc := h c (by simp)
    have hs := ih fun d hd => h d (by simp [hd])
    simp [quoteBeyond, hc] at hs ⊢
    exact hs

def pathDelimiters : String := "\"#<>?\x60\x7b\x7d"
def queryDelimiters : String := "\"#<>"
def fragmentDelimiters : String := "\"<>\x60"
def hostDelimiters : String := "<>[]^@"
def userDelimiters : String := pathDelimiters ++ "/;=@[\\]^|"

/-! ## Steps of a path -/

/-- The steps without the last one, unless only the root is left. -/
def leaveStep (done : List (List Char)) : List (List Char) :=
  if done = [[]] then done else done.drop 1

/-- The steps, last one first, after those that are done. -/
def resolveFrom (done : List (List Char)) : List (List Char) → List (List Char)
  | [] => done
  | step :: rest =>
    if step = ['.'] then resolveFrom done rest
    else if step = ['.', '.'] then resolveFrom (leaveStep done) rest
    else resolveFrom (step :: done) rest

def resolveSteps (path : List Char) : List Char :=
  List.intercalate ['/'] (resolveFrom [] (splitOnChar '/' path)).reverse

/-! ## Host and gate -/

def usualGate? (scheme : List Char) : Option Int :=
  if scheme = "http".toList then some 80
  else if scheme = "https".toList then some 443
  else none

/-- The number of the gate behind a colon, unless it is the usual one. A text that is no number
stays. -/
def gate (scheme text : List Char) : List Char :=
  if text.isEmpty then []
  else match Integer.read? 10 (String.ofList text) with
    | none => ':' :: text
    | some n => if usualGate? scheme = some n then [] else ':' :: (toString n).toList

/-- What stands before the last `@`. -/
def userOf (authority : List Char) : List Char :=
  ((authority.reverse.dropWhile (· ≠ '@')).drop 1).reverse

def hostForm (scheme s : List Char) : List Char :=
  if s.head? = some '[' then
    let host := s.takeWhile (· ≠ ']') ++ [']']
    host ++ gate scheme ((s.drop host.length).drop 1)
  else
    let host := Text.lowerChars (s.takeWhile (· ≠ ':'))
    (if host.all fun c => decide (c.toNat < 128) then quoteBeyond hostDelimiters host else host) ++
      gate scheme ((s.dropWhile (· ≠ ':')).drop 1)

def authorityForm (scheme authority : List Char) : List Char :=
  let user := quoteBeyond userDelimiters (userOf authority)
  (if user.isEmpty then [] else user ++ ['@']) ++ hostForm scheme (hostAndGate authority)

/-! ## The whole -/

def optionalPart (mark : Char) (delimiters : String) (part : Option (List Char)) : List Char :=
  match part with
  | none => []
  | some s => mark :: quoteBeyond delimiters s

/-- A URL without an authority stays. The usual gate of a scheme is known only when the scheme is in
lower case already. -/
def wireForm (url : String) : String :=
  let s := url.toList
  let (scheme, rest) := splitScheme s
  let (authority, rest) := splitAuthority rest
  if scheme.isEmpty || authority.isEmpty then url else
  let (rest, fragment) := cutAt '#' rest
  let (path, query) := cutAt '?' rest
  String.ofList (scheme ++ "://".toList ++ authorityForm (s.takeWhile (· ≠ ':')) authority ++
    quoteBeyond pathDelimiters (resolveSteps path) ++ optionalPart '?' queryDelimiters query ++
    optionalPart '#' fragmentDelimiters fragment)

end LedgerClient.Url
