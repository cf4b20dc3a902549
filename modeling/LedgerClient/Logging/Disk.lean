import LedgerClient.Fault
import LedgerClient.Text.Utf8
import LedgerClient.Url.Host

/-!
# Folders and files of a log

A path leads through folders to a file, which may be known by another path later: what was opened
before a file was moved aside goes on to be written there. Files are therefore numbered, and paths
stand for numbers. All paths are relative to one folder; a path that leaves it is kept, but not
listed.
-/

namespace LedgerClient.Logging

structure Disk where
  folders : List String
  names : List (String × Nat)
  contents : List String

namespace Disk

def empty : Disk := ⟨[], [], []⟩

def file? (d : Disk) (path : String) : Option Nat := d.names.lookup path

def content (d : Disk) (file : Nat) : String := d.contents.getD file ""

def append (d : Disk) (file : Nat) (text : String) : Disk :=
  { d with contents := d.contents.set file (d.content file ++ text) }

/-- The file at a path, a new one if there is none. -/
def openFile (d : Disk) (path : String) : Disk × Nat :=
  match d.file? path with
  | some file => (d, file)
  | none =>
    ({ d with names := d.names ++ [(path, d.contents.length)], contents := d.contents ++ [""] },
      d.contents.length)

theorem openFile_of_some {d : Disk} {path : String} {file : Nat} (h : d.file? path = some file) :
    d.openFile path = (d, file) := by
  simp [openFile, h]

def forget (d : Disk) (path : String) : Disk :=
  { d with names := d.names.filter fun n => n.1 != path }

/-- Moves a file, when it exists, over another one. -/
def move (d : Disk) (source target : String) : Disk :=
  match d.file? source with
  | some file =>
    let rest := (d.forget source).forget target
    { rest with names := rest.names ++ [(target, file)] }
  | none => d

/-! ## Paths -/

/-- The part of a path that leads back. -/
def back : List Char := ['.', '.']

/-- The parts of a path without empty ones and points. -/
def parts (path : List Char) : List (List Char) :=
  (Url.splitOnChar '/' path).filter fun p => !p.isEmpty && p != ['.']

/-- Takes the steps back that can be taken, the last part first. -/
def stepBack (done : List (List Char)) (part : List Char) : List (List Char) :=
  if part = back then
    match done with
    | [] => [back]
    | last :: rest => if last = back then back :: done else rest
  else part :: done

def resolve (ps : List (List Char)) : List (List Char) := (ps.foldl stepBack []).reverse

theorem resolve_nil : resolve [] = [] := rfl

/-- A path from the root begins with a slash. -/
def pathOf (rooted : Bool) (ps : List (List Char)) : String :=
  let way := resolve ps
  let way := if rooted then way.dropWhile (· = back) else way
  String.ofList ((if rooted then ['/'] else []) ++ List.intercalate ['/'] way)

def isRooted (path : List Char) : Bool := path.head? = some '/'

/-- The starting folder, those above it, and those that were made. -/
def isFolder (d : Disk) (path : String) : Bool :=
  (parts path.toList).all (· = back) || d.folders.contains path

def isListed (path : String) : Bool :=
  !isRooted path.toList && (parts path.toList).head? != some back

/-- The files below the starting folder with their contents. -/
def listing (d : Disk) : List (String × String) :=
  (d.names.filter fun n => isListed n.1).map fun (path, file) => (path, d.content file)

def refusal (name : String) : Fault := .outside (.named name "")

/-- The longest name of a file in bytes. -/
def nameLimit : Nat := 255

/-- No name holds a null character or is too long. -/
def checkNames (ps : List (List Char)) : Except Fault Unit :=
  if ps.any fun p => p.contains (Char.ofNat 0) then .error .badValue
  else if ps.any fun p => nameLimit < (Text.utf8 (String.ofList p)).length then
    .error (refusal "OSError")
  else .ok ()

/-- Makes one folder unless it exists. -/
def makeFolder (d : Disk) (path : String) : Disk :=
  if d.isFolder path then d else { d with folders := path :: d.folders }

/-- Makes the folders along a way. A file stands in the way as a folder's place or as its parent. -/
def makeFolders (d : Disk) (rooted : Bool) (ps : List (List Char)) : Except Fault Disk := do
  checkNames ps
  (List.range ps.length).foldlM
    (fun d i =>
      let path := pathOf rooted (ps.take (i + 1))
      if (d.file? path).isSome then
        .error (refusal (if i + 1 = ps.length then "FileExistsError" else "NotADirectoryError"))
      else .ok (d.makeFolder path))
    d

/-- The folders that a file at the path needs. -/
def makeParents (d : Disk) (path : String) : Except Fault Disk :=
  d.makeFolders (isRooted path.toList) (parts path.toList).dropLast

/-- Opens the file of a log, whose path in short is given back. -/
def openLog (d : Disk) (path : String) : Except Fault (Disk × String × Nat) := do
  let ps := parts path.toList
  checkNames ps
  let path := pathOf (isRooted path.toList) ps
  if d.isFolder path then .error (refusal "IsADirectoryError")
  else
    let (d, file) := d.openFile path
    return (d, path, file)

end Disk

end LedgerClient.Logging
