import LedgerClient.Logging.Conversion

/-!
# Line formats of a log

A format is a text with placeholders: a name in parentheses behind `%`, flags, a width, a precision
and a letter. A format needs at least one placeholder, and an empty one stands for the message
alone. A record that the format cannot show has no line.
-/

namespace LedgerClient.Logging

structure Record where
  logger : String
  level : Int
  message : String
  deriving DecidableEq, Repr

/-- The five named levels; another number is its own name. -/
def levelName (level : Int) : String :=
  if level = 50 then "CRITICAL"
  else if level = 40 then "ERROR"
  else if level = 30 then "WARNING"
  else if level = 20 then "INFO"
  else if level = 10 then "DEBUG"
  else if level = 0 then "NOTSET"
  else "Level " ++ Integer.decimal level

/-- The attributes that a record has by name. -/
def Record.attribute? (r : Record) (name : String) : Option Attribute :=
  match name with
  | "message" | "msg" => some (.text r.message)
  | "name" => some (.text r.logger)
  | "levelname" => some (.text (levelName r.level))
  | "levelno" => some (.number r.level)
  | "args" => some (.shown "()")
  | "exc_info" | "exc_text" | "stack_info" => some (.shown "None")
  | "threadName" => some (.text "MainThread")
  | "processName" => some (.text "MainProcess")
  | _ => none

/-! ## Reading a format -/

inductive Piece where
  | literal (c : Char)
  | placeholder (name : String) (conversion : Conversion)
  /-- A placeholder that nothing can be put into. -/
  | broken

def isFlag (c : Char) : Bool := c = '#' || c = '0' || c = '+' || c = ' ' || c = '-'

def isSizeMark (c : Char) : Bool := c = 'h' || c = 'l' || c = 'L'

def readNat (s : List Char) : Nat × List Char :=
  (Integer.ofDigits 10 ((s.takeWhile Char.isDigit).filterMap Text.asciiDigit?),
    s.dropWhile Char.isDigit)

def readPrecision (s : List Char) : Option Nat × List Char :=
  match s with
  | '.' :: rest =>
    let (n, rest) := readNat rest
    (some n, rest)
  | _ => (none, s)

/-- A size mark counts for nothing. -/
def dropSizeMark : List Char → List Char
  | c :: rest => if isSizeMark c then rest else c :: rest
  | [] => []

/-- The name up to the closing parenthesis, parentheses within it in pairs. -/
def readName : Nat → List Char → Option (List Char × List Char)
  | _, [] => none
  | depth, c :: rest =>
    if c = ')' then
      match depth with
      | 0 => some ([], rest)
      | depth + 1 => (readName depth rest).map fun (name, after) => (c :: name, after)
    else (readName (if c = '(' then depth + 1 else depth) rest).map
      fun (name, after) => (c :: name, after)

/-- The form behind a name. -/
def readForm (name : List Char) (s : List Char) : Piece × List Char :=
  let flags := s.takeWhile isFlag
  let (width, rest) := readNat (s.dropWhile isFlag)
  let (precision, rest) := readPrecision rest
  match dropSizeMark rest with
  | letter :: after => (.placeholder (String.ofList name) ⟨flags, width, precision, letter⟩, after)
  | [] => (.broken, [])

/-- What stands behind a percent sign: another one, or a placeholder. -/
def readPiece (s : List Char) : Piece × List Char :=
  match s with
  | '%' :: rest => (.literal '%', rest)
  | '(' :: rest =>
    match readName 0 rest with
    | some (name, after) => readForm name after
    | none => (.broken, [])
  | _ => (.broken, [])

def pieces : Nat → List Char → List Piece
  | 0, _ => []
  | _ + 1, [] => []
  | fuel + 1, c :: rest =>
    if c = '%' then
      let (piece, after) := readPiece rest
      piece :: pieces fuel after
    else .literal c :: pieces fuel rest

def parse (format : String) : List Piece := pieces (format.length + 1) format.toList

/-! ## Which formats are accepted -/

/-- The format that is used for a configured one. -/
def effective (format : String) : String := if format.isEmpty then "%(message)s" else format

def isWordChar (c : Char) : Bool := c.isAlphanum || c = '_' || decide (128 ≤ c.toNat)

/-- The letters in either case; three more characters count as cases of `i` and `s`. -/
def isLetter (c : Char) : Bool :=
  "diouxefgcrsa%DIOUXEFGCRSA\u0130\u0131\u017f".toList.contains c

/-- A number, or a star in its place. -/
def skipNumber (s : List Char) : List Char :=
  match s with
  | '*' :: rest => rest
  | _ => s.dropWhile Char.isDigit

def skipPrecision (s : List Char) : List Char :=
  match s with
  | '.' :: rest => if (rest.head?.map fun c => c = '*' || c.isDigit).getD false then skipNumber rest else s
  | _ => s

/-- What stands behind a percent sign has the form of a placeholder. -/
def isPlaceholder (s : List Char) : Bool :=
  match s with
  | '(' :: rest =>
    match rest.takeWhile isWordChar, rest.dropWhile isWordChar with
    | _ :: _, ')' :: rest =>
      ((skipPrecision (skipNumber (rest.dropWhile isFlag))).head?.map isLetter).getD false
    | _, _ => false
  | _ => false

/-- A placeholder stands somewhere in the text. -/
def holdsPlaceholder : List Char → Bool
  | [] => false
  | c :: rest => (c = '%' && isPlaceholder rest) || holdsPlaceholder rest

def isValid (format : String) : Bool := holdsPlaceholder format.toList

/-! ## Lines -/

def Piece.render (r : Record) : Piece → Option (List Char)
  | .literal c => some [c]
  | .placeholder name conversion => (r.attribute? name).bind conversion.render
  | .broken => none

/-- The line of a record, its end included. -/
def line? (format : String) (r : Record) : Option String := do
  let parts ← (parse format).mapM (Piece.render r)
  return String.ofList (parts.flatten ++ ['\n'])

theorem effective_of_ne {format : String} (h : format.isEmpty = false) : effective format = format := by
  simp [effective, h]

end LedgerClient.Logging
