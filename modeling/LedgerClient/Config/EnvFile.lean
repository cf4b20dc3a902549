import LedgerClient.Config.Environment
import LedgerClient.Fault
import LedgerClient.Text.Blank

/-!
# Environment files

A line assigns a value to a name, with an optional `export` before it. A value stands bare, up to a
comment, or between quotes, where it may hold line ends and escapes. A line that fits no form is
skipped. References to variables inside values are expanded, and a variable that is set already
keeps its value. A variable of the environment can switch the loading of files off.
-/

namespace LedgerClient.EnvFile

def isLineEnd (c : Char) : Bool := c = '\n' || c = '\r'

/-- Blanks within a line. -/
def isInnerBlank (c : Char) : Bool := Text.isBlank c && !isLineEnd c

def skipInner (s : List Char) : List Char := s.dropWhile isInnerBlank

/-- All forms of a line end become one. -/
def unifyLines : List Char → List Char
  | [] => []
  | '\r' :: '\n' :: rest => '\n' :: unifyLines rest
  | '\r' :: rest => '\n' :: unifyLines rest
  | c :: rest => c :: unifyLines rest

/-! ## Quoted values -/

/-- The content before the first quote that is not escaped, and what follows the quote. A backslash
takes the next character with it, so that a pair of them escapes nothing further. -/
def quotedContent (quote : Char) : List Char → Option (List Char × List Char)
  | [] => none
  | '\\' :: c :: rest =>
    (quotedContent quote rest).map fun (inner, after) => ('\\' :: c :: inner, after)
  | c :: rest =>
    if c = quote then some ([], rest)
    else (quotedContent quote rest).map fun (inner, after) => (c :: inner, after)

theorem quotedContent_closing {quote : Char} (h : quote ≠ '\\') (rest : List Char) :
    quotedContent quote (quote :: rest) = some ([], rest) := by
  unfold quotedContent
  split <;> simp_all

def singleEscape? (c : Char) : Option Char :=
  if c = '\\' || c = '\'' then some c else none

def doubleEscape? (c : Char) : Option Char :=
  if c = '\\' || c = '\'' || c = '"' then some c
  else if c = 'a' then some (Char.ofNat 7)
  else if c = 'b' then some (Char.ofNat 8)
  else if c = 'f' then some (Char.ofNat 12)
  else if c = 'n' then some '\n'
  else if c = 'r' then some '\r'
  else if c = 't' then some '\t'
  else if c = 'v' then some (Char.ofNat 11)
  else none

/-- Resolves the escapes that a style of quotes knows; another backslash stays. -/
def unescape (escape? : Char → Option Char) : List Char → List Char
  | [] => []
  | [c] => [c]
  | c :: d :: rest =>
    if c = '\\' then
      match escape? d with
      | some e => e :: unescape escape? rest
      | none => c :: unescape escape? (d :: rest)
    else c :: unescape escape? (d :: rest)

/-! ## Bare values -/

/-- Cuts where blanks are followed by the mark of a comment. -/
def cutComment : List Char → List Char
  | [] => []
  | c :: rest =>
    if Text.isBlank c && (rest.dropWhile Text.isBlank).head? = some '#' then []
    else c :: cutComment rest

def dropTrailing (s : List Char) : List Char := (s.reverse.dropWhile Text.isBlank).reverse

/-- What stands behind the equals sign, up to a comment, without the blanks around it. A comment
needs a blank before it, and the blanks behind the equals sign serve as well. -/
def bareValue (line : List Char) : List Char := skipInner (dropTrailing (cutComment line))

/-! ## Assignments -/

/-- What one step reads: a name with its value, a name alone, nothing, or a line that fits no form. -/
inductive Binding where
  | assign (name value : List Char)
  | bare (name : List Char)
  | nothing
  | malformed
  deriving DecidableEq, Repr

def skipExport (s : List Char) : List Char :=
  if "export".toList.isPrefixOf s then
    let rest := s.drop 6
    if (rest.head?.map isInnerBlank).getD false then skipInner rest else s
  else s

def isBareNameChar (c : Char) : Bool := !(c = '=' || c = '#' || Text.isBlank c)

/-- A name, bare or between single quotes; none where a comment begins. The failure carries the
place at which it is found. -/
def readName (s : List Char) : Except (List Char) (Option (List Char) × List Char) :=
  match s with
  | '#' :: _ => .ok (none, s)
  | '\'' :: rest =>
    let name := rest.takeWhile (· ≠ '\'')
    match rest.dropWhile (· ≠ '\'') with
    | _ :: after => if name.isEmpty then .error s else .ok (some name, after)
    | [] => .error s
  | _ =>
    let name := s.takeWhile isBareNameChar
    if name.isEmpty then .error s else .ok (some name, s.dropWhile isBareNameChar)

/-- The value behind an equals sign. -/
def readValue (s : List Char) : Except (List Char) (List Char × List Char) :=
  match skipInner s with
  | '\'' :: rest =>
    match quotedContent '\'' rest with
    | some (inner, after) => .ok (unescape singleEscape? inner, after)
    | none => .error rest
  | '"' :: rest =>
    match quotedContent '"' rest with
    | some (inner, after) => .ok (unescape doubleEscape? inner, after)
    | none => .error rest
  | _ => .ok (bareValue (s.takeWhile fun c => !isLineEnd c), s.dropWhile fun c => !isLineEnd c)

def skipComment (s : List Char) : List Char :=
  match skipInner s with
  | '#' :: rest => rest.dropWhile fun c => !isLineEnd c
  | _ => s

/-- The end of the line, or of the text. -/
def endLine (s : List Char) : Except (List Char) (List Char) :=
  match skipInner s with
  | [] => .ok []
  | c :: rest => if isLineEnd c then .ok rest else .error s

def readAssignment (s : List Char) : Except (List Char) (Binding × List Char) := do
  let (name, rest) ← readName (skipExport s)
  let rest := skipInner rest
  match rest with
  | '=' :: after => do
    let (value, rest) ← readValue after
    let rest ← endLine (skipComment rest)
    match name with
    | some name => return (.assign name value, rest)
    | none => return (.nothing, rest)
  | _ => do
    let rest ← endLine (skipComment rest)
    match name with
    | some name => return (.bare name, rest)
    | none => return (.nothing, rest)

/-- The rest behind the line at which reading failed. -/
def skipLine (s : List Char) : List Char := (s.dropWhile fun c => !isLineEnd c).drop 1

def readBinding (s : List Char) : Binding × List Char :=
  match s.dropWhile Text.isBlank with
  | [] => (.nothing, [])
  | body =>
    match readAssignment body with
    | .ok r => r
    | .error place => (.malformed, skipLine place)

def readBindings : Nat → List Char → List Binding
  | 0, _ => []
  | fuel + 1, s =>
    if s.isEmpty then []
    else
      let (binding, rest) := readBinding s
      binding :: readBindings fuel rest

/-- A text without the mark of byte order that may begin it. -/
def dropMark : List Char → List Char
  | '\ufeff' :: rest => rest
  | s => s

/-- The names of a text in order, each with its value where it has one. -/
def assignments (s : String) : List (String × Option (List Char)) :=
  (readBindings (s.length + 1) (unifyLines (dropMark s.toList))).filterMap fun
    | .assign name value => some (String.ofList name, some value)
    | .bare name => some (String.ofList name, none)
    | _ => none

/-! ## References -/

/-- A reference behind `$` and an opening brace: the name, the default, and what follows. -/
def readReference (s : List Char) : Option (List Char × List Char × List Char) :=
  let name := s.takeWhile fun c => c ≠ '\x7d' && c ≠ ':'
  match s.dropWhile fun c => c ≠ '\x7d' && c ≠ ':' with
  | '\x7d' :: after => some (name, [], after)
  | ':' :: '-' :: rest =>
    match rest.dropWhile (· ≠ '\x7d') with
    | _ :: after => some (name, rest.takeWhile (· ≠ '\x7d'), after)
    | [] => none
  | _ => none

/-- Replaces references by the values of the variables, or by their defaults. -/
def expand (value? : String → Option String) : Nat → List Char → List Char
  | 0, s => s
  | _ + 1, [] => []
  | fuel + 1, c :: rest =>
    match c, rest with
    | '$', '\x7b' :: inner =>
      match readReference inner with
      | some (name, default, after) =>
        ((value? (String.ofList name)).map String.toList).getD default ++ expand value? fuel after
      | none => c :: expand value? fuel rest
    | _, _ => c :: expand value? fuel rest

/-- What the names of a file stand for; a name alone stands for nothing. -/
abbrev Variables := List (String × Option String)

/-- A later assignment to a name replaces an earlier one, in its place. -/
def Variables.set (vs : Variables) (name : String) (given : Option String) : Variables :=
  if (vs.lookup name).isSome then
    vs.map fun (n, old) => if n = name then (n, given) else (n, old)
  else vs ++ [(name, given)]

/-- A reference means the variable of the environment, otherwise the one that the file set before,
where a name alone reads as the empty text. -/
def referent (env : Environment) (vs : Variables) (name : String) : Option String :=
  (env.get? name).or ((vs.lookup name).map fun given => given.getD "")

def expandAll (env : Environment) (vs : Variables) (raw : List Char) : String :=
  String.ofList (expand (referent env vs) (raw.length + 1) raw)

/-- The variables of a file, references expanded. -/
def variablesOf (env : Environment) (s : String) : Variables :=
  (assignments s).foldl
    (fun vs (name, raw) => vs.set name (raw.map (expandAll env vs))) []

theorem set_of_new {vs : Variables} {name : String} (given : Option String)
    (h : vs.lookup name = none) : vs.set name given = vs ++ [(name, given)] := by
  simp [Variables.set, h]

end LedgerClient.EnvFile

namespace LedgerClient.Environment

/-- No environment holds a name with an equals sign, nor a null character. -/
def canHold (name given : String) : Bool :=
  !name.toList.contains '=' && !name.toList.contains (Char.ofNat 0) &&
    !given.toList.contains (Char.ofNat 0)

/-- Adds a variable of a file unless one of its name is set. -/
def loadOne (env : Environment) (name : String) : Option String → Environment × Except Fault Unit
  | none => (env, .ok ())
  | some given =>
    if (env.get? name).isSome then (env, .ok ())
    else if canHold name given then (env.addUnset name given, .ok ())
    else (env, .error .badValue)

/-- Adds variables in their order, up to the first that an environment cannot hold. -/
def loadAll (env : Environment) : EnvFile.Variables → Environment × Except Fault Unit
  | [] => (env, .ok ())
  | (name, given) :: rest =>
    match env.loadOne name given with
    | (env, .ok _) => env.loadAll rest
    | failed => failed

/-- The variable that switches the loading of files off. -/
def switchName : String := "PYTHON_DOTENV_DISABLED"

/-- Whether a word means yes, in any case of its letters; the long s counts as an s. -/
def isYes (word : String) : Bool :=
  ["1", "true", "t", "yes", "y"].contains
    (word.map fun c => if c = '\u017f' then 's' else c.toLower)

def refusesFiles (env : Environment) : Bool := ((env.get? switchName).map isYes).getD false

/-- Adds the variables of a file that are not set yet. -/
def load (env : Environment) (file : String) : Environment × Except Fault Unit :=
  if env.refusesFiles then (env, .ok ()) else env.loadAll (EnvFile.variablesOf env file)

theorem load_of_refuses {env : Environment} (h : env.refusesFiles = true) (file : String) :
    env.load file = (env, .ok ()) := by
  simp [load, h]

end LedgerClient.Environment
