import TokenGate.Demo

/-!
# The command line

Runs the demonstration for the arguments and prints the records of its log.
-/

namespace TokenGate

open Demo

/-- The number by which the system says that what should be read is a folder. -/
def folderCode : UInt32 := 21

/-- What is found at a path. A file that cannot be read counts as none. -/
def foundAt (path : String) : IO Found := do
  try
    return .file ⟨.ok (← IO.FS.readFile path), 0⟩
  catch
    | .inappropriateType _ code _ =>
        return if code = folderCode then .folder 0 else .behindFile
    | _ => return .nothing

/-- A record in one line. -/
def Record.line (r : Record) : String :=
  r.level.text ++ " " ++ r.logger ++ ": " ++ r.message

/-- Runs the demonstration and prints its log; the exit code. -/
def Demo.serve (args : List String) : IO UInt32 := do
  let found ← match Options.read args with
    | .ok ⟨.file path, _, _, _⟩ => foundAt path
    | _ => pure .nothing
  match Demo.run (fun _ => found) (fun name => .ok (Logging.levelNamed String.toUpper name)) args with
  | .ok records =>
      for r in records do
        IO.eprintln r.line
      return 0
  | .error (.usage e) => return UInt32.ofNat e.code
  | .error e =>
      IO.eprintln e.message
      return 1

end TokenGate

/-- Runs the demonstration for the arguments. -/
def main (args : List String) : IO UInt32 := TokenGate.Demo.serve args
