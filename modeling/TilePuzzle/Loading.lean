import TilePuzzle.Format
import TilePuzzle.Level.Format
import TilePuzzle.Storage

/-!
# Loading levels and programs

A level is loaded in three steps: its file is read, its text is read as a level file, and the level is
built. A program file is only read and its text taken for descriptors. Each step may fail for reasons of
its own.
-/

namespace TilePuzzle

/-- How files are read. -/
abbrev Reader := String → Except ReadError ByteArray

/-- Why a level or a program cannot be loaded. -/
inductive LoadError where
  | levelUnread (path : String) (reason : ReadError)
  | levelUnparsed (path : String)
  | levelInvalid (error : LevelError)
  | programUnread (reason : ReadError)
  | programUnparsed (path : String)
deriving DecidableEq, Repr

/-- The error in words. -/
def LoadError.message : LoadError → String
  | levelUnread path reason => "failed to read level file " ++ path ++ ": " ++ reason.message
  | levelUnparsed path => "failed to parse level file " ++ path ++ ": not the JSON of a level"
  | levelInvalid error => error.message
  | programUnread reason => reason.message
  | programUnparsed path => "failed to parse program file " ++ path ++ ": not the JSON of a program"

/-- Loads the level in the file at a path. -/
def loadLevel (read : Reader) (path : String) : Except LoadError Level := do
  let bytes ← (read path).mapError (.levelUnread path)
  match LevelFile.ofBytes? bytes with
  | none => .error (.levelUnparsed path)
  | some file => file.build.mapError .levelInvalid

/-- Loads the descriptors in the file at a path. -/
def loadProgram (read : Reader) (path : String) : Except LoadError (List Descriptor) := do
  let bytes ← (read path).mapError .programUnread
  match Descriptor.listOfBytes? bytes with
  | none => .error (.programUnparsed path)
  | some descriptors => .ok descriptors

end TilePuzzle
