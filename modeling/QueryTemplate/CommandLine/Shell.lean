import QueryTemplate.PreparedQuery
import QueryTemplate.Text.Basic

/-!
# The interactive shell

Each line is answered by itself: a line that starts with a point is a command, any other line that
is not blank is filter text, which is compiled together with the request of the command line.
-/

namespace QueryTemplate.CommandLine

/-- What is written to the two output streams. -/
structure Output where
  stdout : String := ""
  stderr : String := ""
  deriving DecidableEq, Repr

namespace Output

/-- Two outputs, one after the other. -/
def append (a b : Output) : Output :=
  ⟨a.stdout ++ b.stdout, a.stderr ++ b.stderr⟩

instance : Append Output := ⟨append⟩

def ofLines (lines : List String) : Output where
  stdout := String.join (lines.map (· ++ "\n"))

end Output

/-- A prepared query: its SQL, and its values in a comment. -/
def queryOutput (q : PreparedQuery) : Output :=
  .ofLines [q.sql, "-- params: " ++ q.paramsJson]

/-! ## Fixed texts -/

def banner (name : String) (d : Definition) : Output :=
  .ofLines
    ["╔════════════════════════════════════════════╗",
     "║        RustyQuery Interactive Shell        ║",
     "╚════════════════════════════════════════════╝",
     "",
     "Template '" ++ name ++ "' with " ++ toString d.fields.length ++ " field(s)",
     "Type a filter expression or '.help' for help",
     "Type '.exit' to quit",
     ""]

def prompt : Output where
  stdout := "rustyquery> "

/-- What the shell says at its end, if it is asked to end. -/
def farewell : Output :=
  .ofLines ["Goodbye!"]

def shellHelp : Output :=
  .ofLines
    ["Special Commands:",
     "  .help              Show this help message",
     "  .fields            List the template's fields",
     "  .exit, .quit       Exit the shell",
     "",
     "Filter expressions:",
     "  age > 18",
     "  name LIKE 'A%' AND (city = :city OR city IS NULL)",
     "  status NOT IN ('closed', 'void')",
     "",
     "Notes:",
     "  - Keywords are case-insensitive",
     "  - Field names are the template aliases without their type suffix",
     "  - :name parameters are bound with --param name=value",
     ""]

def fieldLine (f : Field) : String :=
  "  " ++ Text.pad .left ' ' 20 f.name ++ " " ++ Text.pad .left ' ' 8 f.type.tag ++ " "
    ++ f.expression

/-! ## Lines -/

/-- What a line asks for. -/
inductive Request
  | nothing
  | exit
  | help
  | fields
  | unknown (command : String)
  | filter (text : String)
  deriving DecidableEq, Repr

/-- What a line asks for. Blanks around it do not count. -/
def Request.ofLine (line : String) : Request :=
  let text := Text.trim line
  if text = "" then .nothing
  else if text.toList.head? ≠ some '.' then .filter text
  else if text = ".exit" ∨ text = ".quit" then .exit
  else if text = ".help" then .help
  else if text = ".fields" then .fields
  else .unknown text

/-- What filter text is answered with. An error does not end the shell. -/
def filterOutput (d : Definition) (base : Criteria) (text : String) : Output :=
  match base.apply (.whereText text) >>= d.compile with
  | .ok q => queryOutput q
  | .error e => { stderr := "Error: " ++ e.message ++ "\n" }

/-- What a line is answered with; nothing if it ends the shell. -/
def respond (d : Definition) (base : Criteria) (line : String) : Option Output :=
  match Request.ofLine line with
  | .nothing => some {}
  | .exit => none
  | .help => some shellHelp
  | .fields => some (.ofLines (d.fields.map fieldLine))
  | .unknown command =>
    some (.ofLines ["Unknown command: " ++ command, "Type '.help' for help"])
  | .filter text => some (filterOutput d base text)

/-- What the shell writes while it reads the lines, up to one that ends it. -/
def transcript (d : Definition) (base : Criteria) : List String → Output
  | [] => prompt
  | line :: rest =>
    match respond d base line with
    | none => prompt ++ farewell
    | some answer => prompt ++ answer ++ transcript d base rest

/-- The lines of a text; what follows the last line end is a line unless it is empty. -/
def linesOf (text : String) : List String :=
  let segments := Text.splitWhen (· = '\n') text.toList
  (if segments.getLast? = some [] then segments.dropLast else segments).map String.ofList

end QueryTemplate.CommandLine
