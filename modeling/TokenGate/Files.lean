import TokenGate.Table

/-!
# Files

Where files are, and what is found there. A path names the folders that lead to a file, from the
working folder or from the root on; empty names and single points in it say nothing, and two
points lead back to the folder before. The time of the last change is known of all that is there,
folders included; whether it can be read shows only when it is read. The working folder holds files
only, and what paths lead to that do not stay in it is up to the surroundings.
-/

namespace TokenGate

/-- Why there is no text to be read. -/
inductive Unreadable where
  /-- It is a folder. -/
  | folder
  /-- It is barred, or its bytes are no text; `reason` is the message about it. -/
  | barred (reason : String)
  deriving DecidableEq, Repr

/-- What is there under a path: its text, if it has one, and the time of its last change. -/
structure SourceFile where
  text : Except Unreadable String
  stamp : Int

/-- A path: what it starts with, which is nothing for the working folder and a slash or two for
the root, and the names after that. -/
structure Location where
  root : String
  parts : List String
  deriving DecidableEq, Repr

namespace Location

/-- The path that a text writes. Three slashes and more at its front count as one. -/
def ofText (s : String) : Location where
  root :=
    match (s.toList.takeWhile (· == '/')).length with
    | 0 => ""
    | 2 => "//"
    | _ => "/"
  parts := (s.splitOn "/").filter fun name => name ≠ "" ∧ name ≠ "."

/-- The text of a path; a point for the working folder. -/
def text (l : Location) : String :=
  let text := l.root ++ "/".intercalate l.parts
  if text.isEmpty then "." else text

end Location

/-- What is found at a path. -/
inductive Found where
  | file (f : SourceFile)
  /-- Nothing, but the folder is there in which it would be. -/
  | free
  /-- Nothing, and no folder in which it would be. -/
  | nothing
  | folder (stamp : Int)
  /-- The path goes on behind a file as if that were a folder. -/
  | behindFile
  /-- The path, or a name in it, is too long. -/
  | tooLong
  /-- No path may hold the null character. -/
  | nullCharacter

/-- How many bytes a name in a path may have. -/
def nameLimit : Nat := 255

/-- How many bytes a path may have. -/
def pathLimit : Nat := 4095

/-- The files in the working folder, by name. -/
structure Files where
  entries : Table SourceFile

namespace Files

/-- No files. -/
def empty : Files := ⟨∅⟩

/-- Puts a file into the working folder. -/
def put (fs : Files) (name : String) (f : SourceFile) : Files := ⟨fs.entries.put name f⟩

/-- What is found in the working folder, where names lead on from it. -/
def inside (fs : Files) (name : String) (rest : List String) : Found :=
  if nameLimit < name.utf8ByteSize then .tooLong
  else match fs.entries.get? name, rest with
    | some f, [] => .file f
    | some _, _ => .behindFile
    | none, [] => .free
    | none, _ => .nothing

/-- What is found at a path; `elsewhere` says what is found at the working folder itself, before it,
and from the root on. -/
def find (fs : Files) (elsewhere : Location → Found) (path : String) : Found :=
  let location := Location.ofText path
  if path.toList.contains '\x00' then .nullCharacter
  else if pathLimit < location.text.utf8ByteSize then .tooLong
  else match location with
    | ⟨"", ".." :: _⟩ => elsewhere location
    | ⟨"", name :: rest⟩ => fs.inside name rest
    | _ => elsewhere location

end Files
end TokenGate
