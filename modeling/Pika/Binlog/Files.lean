import Pika.Binlog.Record

/-!
# The file primitives under the binlog

Binlog files are named by their number, so a directory is a partial map from
file numbers to contents.  Writable files append; sequential files consume
bytes in order and report the end of the file when too few are left.
-/

namespace Pika.Binlog

/-- Statuses returned by the binlog and by the file primitives. -/
inductive Status where
  | ok
  | notFound (message : String)
  | corruption (message : String)
  | ioError (message : String)
  | endFile (message : String)
  | busy (message : String)
  deriving DecidableEq, Repr

namespace Status

/-- Whether a status reports the end of a file. -/
def isEndFile : Status → Bool
  | endFile _ => true
  | _ => false

end Status

/-- The binlog files of a directory, by file number. -/
def Files := Nat → Option Bytes

namespace Files

def empty : Files := fun _ => none

def fileExists (files : Files) (number : Nat) : Bool := (files number).isSome

/-- The bytes written to a file so far. -/
def contents (files : Files) (number : Nat) : Bytes := (files number).getD []

/-- Create a file, discarding what an existing one held. -/
def newWritableFile (files : Files) (number : Nat) : Files :=
  fun other => if other = number then some [] else files other

def append (files : Files) (number : Nat) (bytes : Bytes) : Files :=
  fun other =>
    if other = number then some (files.contents number ++ bytes)
    else files other

def deleteFile (files : Files) (number : Nat) : Files :=
  fun other => if other = number then none else files other

@[simp] theorem contents_newWritableFile_self (files : Files) (number : Nat) :
    (files.newWritableFile number).contents number = [] := by
  simp [contents, newWritableFile]

theorem contents_newWritableFile_of_ne (files : Files) (different : other ≠ number) :
    (files.newWritableFile number).contents other = files.contents other := by
  simp [contents, newWritableFile, different]

@[simp] theorem fileExists_newWritableFile (files : Files) (number other : Nat) :
    (files.newWritableFile number).fileExists other =
      (decide (other = number) || files.fileExists other) := by
  by_cases same : other = number <;> simp [fileExists, newWritableFile, same]

@[simp] theorem contents_append_self (files : Files) (number : Nat) (bytes : Bytes) :
    (files.append number bytes).contents number = files.contents number ++ bytes := by
  simp [contents, append]

theorem contents_append_of_ne (files : Files) (bytes : Bytes) (different : other ≠ number) :
    (files.append number bytes).contents other = files.contents other := by
  simp [contents, append, different]

theorem append_nil {files : Files} (present : files.fileExists number = true) :
    files.append number [] = files := by
  obtain ⟨contents, found⟩ := Option.isSome_iff_exists.mp present
  funext other
  by_cases here : other = number
  · subst here
    simp [Files.append, Files.contents, found]
  · simp [Files.append, here]

@[simp] theorem fileExists_append (files : Files) (number other : Nat) (bytes : Bytes) :
    (files.append number bytes).fileExists other =
      (decide (other = number) || files.fileExists other) := by
  by_cases same : other = number <;> simp [fileExists, append, same]

end Files

/-- A file opened for sequential reading, with the number of bytes consumed. -/
structure SequentialFile where
  number : Nat
  /-- The bytes consumed so far. -/
  position : Nat
  deriving DecidableEq, Repr

namespace SequentialFile

/-- Bytes of the file not consumed yet. -/
def rest (files : Files) (file : SequentialFile) : Bytes :=
  (files.contents file.number).drop file.position

/-- Consume up to `count` bytes; fewer are the end of the file. -/
def read (files : Files) (count : Nat) (file : SequentialFile) :
    Status × Bytes × SequentialFile :=
  let bytes := (file.rest files).take count
  (if bytes.length < count then .endFile "end file" else .ok, bytes,
    { file with position := file.position + bytes.length })

/-- Consume up to `count` bytes without returning them. -/
def skip (files : Files) (count : Nat) (file : SequentialFile) : SequentialFile :=
  { file with position := file.position + min count (file.rest files).length }

end SequentialFile

end Pika.Binlog
