import TokenGate.Definition.Reader
import TokenGate.Files
import TokenGate.Json.Reader

/-!
# Repositories

A repository keeps definitions by name. It reads them from the texts of files: a file holds one
definition, or a list of them, which may also stand under `definitions`. With every file that has
been read, the time of its last change is kept, so that it is not read again before it changes.
That time is asked for first; that the path leads to a folder shows only when it is to be read. The
records of a file are stored one by one, each as soon as it has been read.
-/

namespace TokenGate

/-- What can go wrong with a repository. -/
inductive RepositoryError where
  | missingFile (path : String)
  /-- The path leads to a folder. -/
  | folder (path : String)
  /-- The path goes on behind a file. -/
  | behindFile (path : String)
  | tooLong (path : String)
  | nullCharacter
  /-- What is at the path is barred, or no text. -/
  | barred (reason : String)
  | notJson (path : String)
  | malformed (m : Malformed)
  /-- A file that should hold one definition holds another number of them. -/
  | notSingle (path : String) (count : Nat)
  | unknownName (name : Value)
  /-- What should be a name cannot be looked up. -/
  | notAName (cause : NotAKey)
  /-- What should be a path is no text; `kind` is what it is. -/
  | notAPath (kind : String)

/-- The message about a name that is not in a repository. -/
def unknownNameText (name : String) : String := "Rule definition '" ++ name ++ "' not found"

/-- The text of a repository error. -/
def RepositoryError.message : RepositoryError → String
  | missingFile path => "[Errno 2] No such file or directory: " ++ Text.quoted path
  | folder path => "[Errno 21] Is a directory: " ++ Text.quoted path
  | behindFile path => "[Errno 20] Not a directory: " ++ Text.quoted path
  | tooLong path => "[Errno 36] File name too long: " ++ Text.quoted path
  | nullCharacter => "embedded null byte"
  | barred reason => reason
  | notJson path => path ++ " is not valid JSON:"
  | malformed m => m.message
  | notSingle path count =>
      path ++ " holds " ++ toString count ++ " definitions, expected exactly one"
  | unknownName name => unknownNameText name.shown
  | notAName cause => cause.message
  | notAPath kind => "expected str, bytes or os.PathLike object, not " ++ kind

/-- The kind of a repository error. -/
def RepositoryError.kind : RepositoryError → String
  | missingFile _ => "FileNotFoundError"
  | folder _ => "IsADirectoryError"
  | behindFile _ => "NotADirectoryError"
  | tooLong _ => "OSError"
  | nullCharacter | barred _ => "ValueError"
  | notJson _ | malformed _ | notSingle .. => "MalformedRuleError"
  | unknownName _ => "RuleNotFoundError"
  | notAName _ | notAPath _ => "TypeError"

/-- What is there under a path, which errors tell in its normal form. A folder is there as well. -/
def Found.file? (path : String) : Found → Except RepositoryError SourceFile
  | file f => .ok f
  | folder stamp => .ok ⟨.error .folder, stamp⟩
  | free | nothing => .error (.missingFile path)
  | behindFile => .error (.behindFile path)
  | tooLong => .error (.tooLong path)
  | nullCharacter => .error .nullCharacter

/-- The error about a path under which there is no text to be read. -/
def Unreadable.error (path : String) : Unreadable → RepositoryError
  | folder => .folder path
  | barred reason => .barred reason

/-- The data that is read from a file. -/
def SourceFile.data (path : String) (f : SourceFile) : Except RepositoryError Value :=
  match f.text with
  | .error u => .error (u.error path)
  | .ok text =>
      match Json.read? text with
      | some v => .ok v
      | none => .error (.notJson path)

/-- A repository: the definitions by name, and the recorded times by path. -/
structure Repository where
  definitions : Table Definition
  stamps : Table Int

namespace Repository

/-- The repository that holds nothing. -/
def empty : Repository := ⟨∅, ∅⟩

/-- Stores a definition under its name. -/
def add (r : Repository) (d : Definition) : Repository :=
  { r with definitions := r.definitions.put d.name d }

/-- The names of the definitions, in order of first storing. -/
def names (r : Repository) : List String := r.definitions.keys

/-- Reads a definition from data and stores it. -/
def addValue (reader : Reader) (r : Repository) (v : Value) :
    Except RepositoryError Definition × Repository :=
  match Definition.ofValue reader v with
  | .error m => (.error (.malformed m), r)
  | .ok d => (.ok d, r.add d)

/-- Reads definitions from a list of records and stores them, until one is malformed. -/
def addValues (reader : Reader) (r : Repository) :
    List Value → Except RepositoryError (List Definition) × Repository
  | [] => (.ok [], r)
  | v :: rest =>
      match r.addValue reader v with
      | (.error e, r) => (.error e, r)
      | (.ok d, r) =>
          match r.addValues reader rest with
          | (.error e, r) => (.error e, r)
          | (.ok ds, r) => (.ok (d :: ds), r)

/-- The records that the data of a file holds. -/
def records (v : Value) : List Value :=
  let held := match v with
    | .object fields => (Entries.get? "definitions" fields).getD v
    | v => v
  match held with
  | .list items => items
  | v => [v]

/-- Whether a file need not be read again: the time recorded for it is not before its own. -/
def upToDate (r : Repository) (path : String) (stamp : Int) : Bool :=
  match r.stamps.get? path with
  | some recorded => decide (stamp ≤ recorded)
  | none => false

/-- Loads a file, given by its path and what is found there. Unless forced to, what is up to date is
not read, and gives nothing. -/
def load (reader : Reader) (r : Repository) (path : String) (found : Found) (force : Bool) :
    Except RepositoryError (List Definition) × Repository :=
  let path := (Location.ofText path).text
  match found.file? path with
  | .error e => (.error e, r)
  | .ok f =>
      if !force && r.upToDate path f.stamp then (.ok [], r)
      else match f.data path with
        | .error e => (.error e, r)
        | .ok v =>
            match r.addValues reader (records v) with
            | (.error e, r) => (.error e, r)
            | (.ok ds, r) => (.ok ds, { r with stamps := r.stamps.put path f.stamp })

/-- The definition under a name. -/
def get (r : Repository) (name : Value) : Except RepositoryError Definition :=
  match name.asKey with
  | .error e => .error (.notAName e)
  | .ok key =>
      match key.bind r.definitions.get? with
      | some d => .ok d
      | none => .error (.unknownName name)

/-- Whether there is a definition under a name. -/
def contains (r : Repository) (name : Value) : Except RepositoryError Bool :=
  match name.asKey with
  | .error e => .error (.notAName e)
  | .ok key => .ok (key.any r.definitions.contains)

/-- The definition of a file that holds exactly one. An error about their number tells the path as
it has been given. -/
def single (reader : Reader) (path : String) (found : Found) :
    Except RepositoryError Definition :=
  match (empty.load reader path found false).1 with
  | .error e => .error e
  | .ok [d] => .ok d
  | .ok ds => .error (.notSingle path ds.length)

end Repository
end TokenGate
