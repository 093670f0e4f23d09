import QueryTemplate.CommandLine.Run

/-!
# The program

Reads the file and the lines that a run asks for, and writes what it answers.
-/

namespace QueryTemplate.CommandLine

/-- Writes to both streams. -/
def emit (output : Output) : IO Unit := do
  let stdout ← IO.getStdout
  stdout.putStr output.stdout
  stdout.flush
  (← IO.getStderr).putStr output.stderr

/-- What reading a file results in. -/
def readTemplate (path : String) : IO (Except String String) := do
  try
    return .ok (← IO.FS.readFile path)
  catch
    | .noFileOrDirectory .. => return .error "No such file or directory (os error 2)"
    | e => return .error (toString e)

/-- Answers line after line. -/
def converse (d : Definition) (base : Criteria) : IO Unit := do
  let stdin ← IO.getStdin
  repeat
    emit prompt
    let line ← stdin.getLine
    if line.isEmpty then break
    match respond d base line with
    | none =>
      emit farewell
      break
    | some answer => emit answer

/-- Runs the program and returns its exit code. -/
def start (arguments : List String) : IO UInt32 := do
  let template ←
    match (Options.read arguments).toOption.bind Options.template with
    | some path => readTemplate path
    | none => pure (.ok "")
  match plan arguments fun _ => template with
  | .finish outcome =>
    emit outcome.output
    return outcome.exitCode
  | .shell opening d base =>
    emit opening
    converse d base
    return 0

end QueryTemplate.CommandLine

/-- Runs the program. -/
def main (arguments : List String) : IO UInt32 :=
  QueryTemplate.CommandLine.start arguments
