import QueryTemplate.Error
import QueryTemplate.Text.Basic

/-!
# Failure reports

What the program says when it fails: an error, or what could not be done and the error that caused
it.
-/

namespace QueryTemplate.CommandLine

/-- A failure, with its cause if that is something else. -/
structure Report where
  message : String
  cause : Option String := none
  deriving DecidableEq, Repr

def Report.ofError (e : Error) : Report where
  message := e.message

def indented (text : String) : String :=
  "\n".intercalate ((Text.splitWhen (· = '\n') text.toList).map fun l => "    " ++ String.ofList l)

def Report.written (r : Report) : String :=
  match r.cause with
  | none => "Error: " ++ r.message ++ "\n"
  | some cause => "Error: " ++ r.message ++ "\n\nCaused by:\n" ++ indented cause ++ "\n"

end QueryTemplate.CommandLine
