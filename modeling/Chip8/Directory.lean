import Chip8.RomError
import Chip8.Word

/-!
A working directory, filled by making directories and writing files, and the reading of files in it. A path
is walked from the left. In making, each part that is missing is made; in reading, each part must be found
in a directory, and the first that fails decides the error. Of what lies outside the working directory
nothing is known, so nothing is kept and nothing is found there.
-/
namespace Chip8

/-- Files with their contents and directories, each in the place that the names from here lead to. Of two
    files in one place the first counts. -/
structure Directory where
  files : List (List String × Array Byte)
  directories : List (List String)

/-- Why a path leads to no bytes. -/
inductive PathError where
  | embeddedNul
  | refused (why : ReadError)
deriving DecidableEq

namespace PathError

/-- The text for a path with a NUL in it. -/
def nulMessage : String := "embedded null byte"

end PathError

namespace Directory

/-- The longest name of a file, and the first length that is too long for a path, in bytes. -/
def maxName : Nat := 255
def pathLimit : Nat := 4096

/-- The parts of a path between its slashes; empty parts and `.` lead nowhere. -/
def parts (path : String) : List String := (path.splitOn "/").filter fun part => part ≠ "" && part ≠ "."

/-- The place one part further, unless it lies outside. -/
def next? (here : List String) (part : String) : Option (List String) :=
  if part ≠ ".." then some (here ++ [part]) else if here.isEmpty then none else some here.dropLast

/-- The places that parts lead through, one for each; none if they lead outside. -/
def trail? : List String → List String → Option (List (List String))
  | _, [] => some []
  | here, part :: rest => do
    let place ← next? here part
    return place :: (← trail? place rest)

/-- The places that a path leads through, the last being its own. -/
def places? (path : String) : Option (List (List String)) :=
  if path.startsWith "/" then none else trail? [] (parts path)

def hasNul (path : String) : Bool := path.toList.contains (Char.ofNat 0)

def empty : Directory := ⟨[], []⟩

/-- Makes a directory at a path, and those on the way to it. -/
def makeDirectory (d : Directory) (path : String) : Except PathError Directory :=
  if hasNul path then .error .embeddedNul
  else .ok { d with directories := d.directories ++ (places? path).getD [] }

/-- Puts a file at a path, in place of what it held, and makes the directories on the way to it. -/
def write (d : Directory) (path : String) (contents : Array Byte) : Except PathError Directory :=
  if hasNul path then .error .embeddedNul
  else
    let places := (places? path).getD []
    .ok {
      files := places.getLast?.toList.map (·, contents) ++ d.files
      directories := d.directories ++ places.dropLast }

/-- What a path has led to: a directory or file below here, or a directory outside. -/
inductive Place where
  | inside (path : List String)
  | file (contents : Array Byte)
  | outside

def isDirectory (d : Directory) (path : List String) : Bool := path.isEmpty || d.directories.contains path

/-- Why a directory holds nothing of this name: the name is too long for any file, or nothing has it. -/
def missing (part : String) : ReadError := if maxName < part.utf8ByteSize then .nameTooLong else .noSuchFile

/-- One part further. -/
def enter (d : Directory) (place : Place) (part : String) : Except ReadError Place :=
  match place with
  | .file _ => .error .notDirectory
  | .outside => if part = ".." then .ok .outside else .error (missing part)
  | .inside here =>
    match next? here part with
    | none => .ok .outside
    | some place =>
      match d.files.lookup place with
      | some contents => .ok (.file contents)
      | none => if d.isDirectory place then .ok (.inside place) else .error (missing part)

/-- The place a path leads to. -/
def walk (d : Directory) (path : String) : Except ReadError Place :=
  (parts path).foldlM d.enter (if path.startsWith "/" then .outside else .inside [])

/-- The contents of the file at a path. A slash or a dot behind a file asks for a directory. -/
def read (d : Directory) (path : String) : Except PathError (Array Byte) :=
  if hasNul path then .error .embeddedNul
  else if path.isEmpty then .error (.refused .noSuchFile)
  else if pathLimit ≤ path.utf8ByteSize then .error (.refused .nameTooLong)
  else match d.walk path with
    | .error e => .error (.refused e)
    | .ok (.file contents) =>
      if path.endsWith "/" || path.endsWith "/." then .error (.refused .notDirectory) else .ok contents
    | .ok _ => .error (.refused .isDirectory)

end Directory

end Chip8
