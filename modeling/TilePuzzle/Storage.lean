/-!
# Storage

A `Storage` is a folder with everything in it, as far as the game reads and writes files: bytes by path,
and the folders on the way. A path is walked from the folder word by word, between slashes; `.` and an
empty word stay in place, `..` goes up. An empty path, one with a NUL character and one that is too long
are refused before the first step. What lies outside of the folder is not known: it counts as a folder
without anything in it.
-/

namespace TilePuzzle

/-- Why a file cannot be read. -/
inductive ReadError where
  | missing
  | isFolder
  | notFolder
  | nameTooLong
  | nulInName
  /-- The system refuses for another reason. -/
  | other (reason : String)
deriving DecidableEq, Repr

/-- The error in words, with the number that the system gives to it. A path with a NUL is not shown to the
system, so that error has no number. -/
def ReadError.message : ReadError → String
  | missing => "No such file or directory (os error 2)"
  | isFolder => "Is a directory (os error 21)"
  | notFolder => "Not a directory (os error 20)"
  | nameTooLong => "File name too long (os error 36)"
  | nulInName => "file name contained an unexpected NUL byte"
  | other reason => reason

/-- A folder with everything in it, by path from the folder. The folder itself has the path `[]`. -/
structure Storage where
  files : List (List String × ByteArray) := []
  folders : List (List String) := []

/-- Where the walk along a path stands. -/
inductive Place where
  | folder (path : List String)
  | file (path : List String)
  | outside
deriving DecidableEq, Repr

namespace Storage

/-- The bytes of a name have to be fewer than this. -/
def nameLimit : Nat := 256

/-- The bytes of a path have to be fewer than this. -/
def pathLimit : Nat := 4096

/-- The words of a path. -/
def words (path : String) : List String := path.splitOn "/"

/-- Where the walk along a path starts. -/
def origin (path : String) : Place :=
  match path.toList with
  | '/' :: _ => .outside
  | _ => .folder []

/-- Looks a name up in a folder. -/
def lookup (s : Storage) (path : List String) : Except ReadError Place :=
  if s.files.any (·.1 = path) then .ok (.file path)
  else if s.folders.contains path then .ok (.folder path)
  else .error .missing

/-- One word of the walk along a path. -/
def enter (s : Storage) (place : Place) (word : String) : Except ReadError Place :=
  match place with
  | .file _ => .error .notFolder
  | .outside =>
    if word = "" ∨ word = "." ∨ word = ".." then .ok .outside
    else if nameLimit ≤ word.utf8ByteSize then .error .nameTooLong
    else .error .missing
  | .folder path =>
    if word = "" ∨ word = "." then .ok place
    else if word = ".." then .ok (if path = [] then .outside else .folder path.dropLast)
    else if nameLimit ≤ word.utf8ByteSize then .error .nameTooLong
    else s.lookup (path ++ [word])

/-- Refuses a path that no walk can start on. -/
def checkPath (path : String) : Except ReadError Unit :=
  if '\x00' ∈ path.toList then .error .nulInName
  else if path = "" then .error .missing
  else if pathLimit ≤ path.utf8ByteSize then .error .nameTooLong
  else .ok ()

/-- Where the walk along a path ends. -/
def find (s : Storage) (path : String) : Except ReadError Place := do
  checkPath path
  (words path).foldlM s.enter (origin path)

/-- The bytes of the file at a path. -/
def read (s : Storage) (path : String) : Except ReadError ByteArray := do
  match ← s.find path with
  | .file path =>
    match s.files.find? (·.1 = path) with
    | some (_, bytes) => return bytes
    | none => .error .missing
  | _ => .error .isFolder

/-! ### Writing -/

/-- One word of the walk along a path, on which missing folders are made. -/
def openFolder (s : Storage) (place : Place) (word : String) : Except ReadError (Storage × Place) :=
  match place, s.enter place word with
  | _, .ok (.file _) => .error .notFolder
  | _, .ok next => .ok (s, next)
  | .folder path, .error .missing =>
    .ok ({ s with folders := s.folders ++ [path ++ [word]] }, .folder (path ++ [word]))
  | _, .error reason => .error reason

/-- Makes the folders on the way to the last word of a path that is not empty. -/
def makeFolders (s : Storage) (path : String) : Except ReadError Storage := do
  let named := (words path).filter fun word => word ≠ "" ∧ word ≠ "."
  let (s, _) ← named.dropLast.foldlM (fun (s, place) word => s.openFolder place word) (s, origin path)
  return s

/-- Adds bytes to the end of the file at a place in the folder; a missing file is made. -/
def appendAt (s : Storage) (path : List String) (bytes : ByteArray) : Except ReadError Storage :=
  match s.lookup path with
  | .ok (.file _) =>
    .ok { s with files := s.files.map fun f => if f.1 = path then (f.1, f.2 ++ bytes) else f }
  | .error .missing => .ok { s with files := s.files ++ [(path, bytes)] }
  | .ok _ => .error .isFolder
  | .error reason => .error reason

/-- Adds bytes to the end of the file at a path. Missing folders on the way and a missing file are made.
When the file cannot be made or is a folder, nothing is added. -/
def append (s : Storage) (path : String) (bytes : ByteArray) : Storage :=
  let result : Except ReadError Storage := do
    checkPath path
    let s ← s.makeFolders path
    let name := (words path).getLast?.getD ""
    match ← (words path).dropLast.foldlM s.enter (origin path) with
    | .folder folder =>
      -- A path that ends in a slash, or with dots, names no file.
      if name = "" ∨ name = "." ∨ name = ".." then .error .isFolder
      else if nameLimit ≤ name.utf8ByteSize then .error .nameTooLong
      else s.appendAt (folder ++ [name]) bytes
    | _ => .error .notFolder
  match result with
  | .ok s => s
  | .error _ => s

end Storage

end TilePuzzle
