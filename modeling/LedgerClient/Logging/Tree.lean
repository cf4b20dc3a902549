import LedgerClient.Logging.Config
import LedgerClient.Logging.Disk
import LedgerClient.Logging.Format
import LedgerClient.Value.Number

/-!
# Loggers and handlers

Loggers form a tree by the points in their names. A record passes when its level reaches the
nearest level set on the way up, and then goes to the handlers of every logger on the way. A
handler writes to the console or to a file; a file that would reach its size limit is first moved
aside under a number, the older ones moving up. Another handler that has the file open follows it.
-/

namespace LedgerClient.Logging

/-- Where a handler writes to; a file is written through an open stream. -/
inductive Sink where
  | console
  | file (path : String) (maxBytes backupCount : Value) (stream : Nat)

structure Handler where
  sink : Sink
  level : Int
  format : String

structure Logger where
  level : Int
  handlers : List Handler

/-- The loggers, the files, the file behind each stream, and what was written to the console. -/
structure State where
  loggers : List (String × Logger)
  disk : Disk
  streams : List Nat
  console : String

namespace State

def empty : State := ⟨[], .empty, [], ""⟩

/-- The root of the tree has two names. -/
def canonical (name : String) : String := if name = "root" then "" else name

/-- The name that records show. -/
def shownName (name : String) : String := if canonical name = "" then "root" else name

/-- A logger that nobody has set up: the root has a level, every other logger has none. -/
def untouched (name : String) : Logger := ⟨if canonical name = "" then 30 else 0, []⟩

def logger (s : State) (name : String) : Logger :=
  (s.loggers.lookup (canonical name)).getD (untouched name)

def setLogger (s : State) (name : String) (l : Logger) : State :=
  let key := canonical name
  { s with loggers := (key, l) :: s.loggers.filter fun e => e.1 != key }

def setLevel (s : State) (name : String) (level : Int) : State :=
  s.setLogger name { s.logger name with level := level }

def setHandlers (s : State) (name : String) (handlers : List Handler) : State :=
  s.setLogger name { s.logger name with handlers := handlers }

def joinPoints (parts : List (List Char)) : String :=
  String.ofList (List.intercalate ['.'] parts)

/-- A logger and those above it, the nearest first; the root is the last. -/
def lineage (name : String) : List String :=
  if canonical name = "" then [""]
  else
    let parts := Url.splitOnChar '.' name.toList
    let above := (List.range parts.length).map fun i => joinPoints (parts.take (parts.length - i))
    (above.filter fun n => canonical n != "") ++ [""]

theorem lineage_root : lineage "" = [""] := by decide

def effectiveLevel (s : State) (name : String) : Int :=
  match (lineage name).find? fun n => (s.logger n).level != 0 with
  | some n => (s.logger n).level
  | none => 0

/-! ## Files -/

def backupName (path : String) (n : Nat) : String := path ++ "." ++ toString n

/-- Moves the numbered files up, the highest first, and then the current one to the number one. -/
def shiftBackups (d : Disk) (path : String) : Nat → Disk
  | 0 => d
  | 1 => d.move path (backupName path 1)
  | n + 2 => shiftBackups (d.move (backupName path (n + 1)) (backupName path (n + 2))) path (n + 1)

/-- Moves the file aside; the stream goes on with a new one. -/
def rotate (s : State) (path : String) (backups stream : Nat) : State :=
  let (d, file) := (shiftBackups s.disk path backups).openFile path
  { s with disk := d, streams := s.streams.set stream file }

def fileOf (s : State) (stream : Nat) : Nat := s.streams.getD stream 0

/-- The line would take the file to its limit; the line counts by characters, the file by bytes. -/
def reachesLimit (s : State) (stream : Nat) (line : String) (maxBytes : Value) : Bool :=
  match maxBytes.isAbove 0 with
  | .ok true =>
    let size : Int := (Text.utf8 (s.disk.content (s.fileOf stream))).length + line.length
    match maxBytes.isAtMost size with
    | .ok b => b
    | .error _ => false
  | _ => false

/-- Writes a record, if it has a line. -/
def writeRecord (s : State) (h : Handler) (r : Record) : State :=
  match line? h.format r with
  | none => s
  | some text =>
    match h.sink with
    | .console => { s with console := s.console ++ text }
    | .file path maxBytes backupCount stream =>
      let s :=
        if s.reachesLimit stream text maxBytes then
          s.rotate path (backupCount.integer?.getD 0).toNat stream
        else s
      { s with disk := s.disk.append (s.fileOf stream) text }

/-! ## Records -/

def handlersFor (s : State) (r : Record) : List Handler :=
  ((lineage r.logger).flatMap fun n => (s.logger n).handlers).filter fun h => decide (h.level ≤ r.level)

/-- Records without a positive level are never wanted. -/
def wants (s : State) (r : Record) : Bool :=
  decide (0 < r.level) && decide (s.effectiveLevel r.logger ≤ r.level)

/-- Handles a record. -/
def log (s : State) (r : Record) : State :=
  let shown : Record := { r with logger := shownName r.logger }
  if s.wants r then (s.handlersFor r).foldl (fun s h => s.writeRecord h shown) s else s

theorem log_below {s : State} {r : Record} (h : r.level < s.effectiveLevel r.logger) : s.log r = s := by
  simp [log, wants, Int.not_le.mpr h]

/-- Warnings about settings are logged like everything else. -/
def warn (s : State) (warnings : List String) : State :=
  warnings.foldl (fun s w => s.log ⟨"onemoney_client.config", 30, w⟩) s

/-! ## Setting up -/

def openSink (s : State) (path : String) (c : LoggingConfig) : Except Fault (State × Sink) := do
  let (d, path, file) ← s.disk.openLog path
  return ({ s with disk := d, streams := s.streams ++ [file] },
    .file path c.maxBytes c.backupCount s.streams.length)

/-- The file of a configuration. Its folders are made before its limit is looked at. -/
def fileSink (s : State) (c : LoggingConfig) : State × Result (List Sink) :=
  if c.file.truthy then
    match c.file with
    | .text path =>
      match s.disk.makeParents path with
      | .error f => (s, .error (.fault f))
      | .ok d =>
        let s := { s with disk := d }
        match c.maxBytes.isAbove 0, s.openSink path c with
        | .error f, _ => (s, .error (.fault f))
        | _, .error f => (s, .error (.fault f))
        | .ok _, .ok (s, sink) => (s, .ok [sink])
    | _ => (s, .error (.fault .wrongType))
  else (s, .ok [])

def formatOf (c : LoggingConfig) : Result String :=
  match c.format with
  | .text s =>
    let format := effective s
    if isValid format then .ok format else .error (.fault .badValue)
  | v => if v.truthy then .error (.fault .wrongType) else .ok (effective "")

/-- The new handlers of a logger. The file is opened before the format is looked at. -/
def buildHandlers (s : State) (c : LoggingConfig) (level : Int) : State × Result (List Handler) :=
  let (s, files) := s.fileSink c
  (s, do
    let sinks ← files
    let all := sinks ++ (if c.console.truthy then [Sink.console] else [])
    let format ← formatOf c
    return all.map fun sink => ⟨sink, level, format⟩)

def announcement (file level : String) : String := "Client logging to " ++ file ++ " at " ++ level

def childNames (name : String) : List String := [name ++ ".infra", name ++ ".modules"]

/-- Sets up a logger: its level, its handlers in place of those before, the level of the two
loggers below it, and a first record when there is a file. -/
def setup (s : State) (c : LoggingConfig) (name : String) : State × Result Unit :=
  match c.levelNumber with
  | .error f => (s, .error (.fault f))
  | .ok level =>
    let s := (s.setLevel name level).setHandlers name []
    match s.buildHandlers c level with
    | (s, .error f) => (s, .error f)
    | (s, .ok handlers) =>
      let s := s.setHandlers name handlers
      let s := (childNames name).foldl (fun s child => s.setLevel child level) s
      match c.file, c.level with
      | .text file, .text levelText =>
        if file.isEmpty then (s, .ok ())
        else (s.log ⟨name, 20, announcement file levelText⟩, .ok ())
      | _, _ => (s, .ok ())

end State

end LedgerClient.Logging
