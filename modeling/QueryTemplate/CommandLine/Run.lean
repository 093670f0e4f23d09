import QueryTemplate.CommandLine.Options
import QueryTemplate.CommandLine.Report
import QueryTemplate.CommandLine.Shell
import QueryTemplate.Document
import QueryTemplate.Template

/-!
# Runs of the program

A run reads the options, then the template, and then writes the definition, or compiles the request,
or starts the shell. The text of a file and the lines of the shell come from outside; everything
else is decided here.
-/

namespace QueryTemplate.CommandLine

/-- How a run ends. -/
structure Outcome where
  exitCode : UInt32
  output : Output
  deriving DecidableEq, Repr

/-- What a run does once the template is read. -/
inductive Plan
  | finish (outcome : Outcome)
  /-- Starts the shell after some output. -/
  | shell (opening : Output) (d : Definition) (base : Criteria)

def Outcome.failed (r : Report) : Outcome where
  exitCode := 1
  output := { stderr := r.written }

def Outcome.succeeded (output : Output) : Outcome where
  exitCode := 0
  output := output

/-! ## Before the template is read -/

def versionLine : String := "rustyquery 0.1.0"

def helpLines : List String :=
  ["RustyQuery - compile query requests against a SELECT template",
   "",
   "Usage: rustyquery [OPTIONS] [TEMPLATE]",
   "",
   "Arguments:",
   "  [TEMPLATE]  Path to a .sql file holding the query template",
   "",
   "Options:",
   "      --sql <SQL>            Inline query template, instead of a file",
   "  -d, --definition           Print the extracted definition as JSON and exit",
   "  -i, --interactive          Start an interactive shell that compiles filter text",
   "      --select <SELECT>      Columns to select, comma separated (default: all)",
   "  -f, --where <FILTERS>      Filter expression; repeat to AND several together",
   "      --order-by <ORDER_BY>  Sort list, e.g. \"name desc, age\"",
   "      --limit <LIMIT>        Maximum number of rows [default: 50]",
   "      --offset <OFFSET>      Number of rows to skip [default: 0]",
   "      --count                Count matching rows instead of selecting them",
   "  -p, --param <PARAMS>       Named parameter binding, e.g. --param minAge=18",
   "  -h, --help                 Print help",
   "  -V, --version              Print version"]

def Stop.outcome : Stop → Outcome
  | .usage => ⟨2, { stderr := "error: invalid usage\n\nFor more information, try '--help'.\n" }⟩
  | .help => .succeeded (.ofLines helpLines)
  | .version => .succeeded (.ofLines [versionLine])

def fileName? (path : String) : Option (List Char) :=
  ((Text.splitWhen (· = '/') path.toList).filter fun s => s ≠ [] ∧ s ≠ ['.']).getLast?

/-- The name of a file without its last extension; a point at its start begins no extension. -/
def stem (name : List Char) : List Char :=
  match Text.splitLast '.' name with
  | some (before, _) => if before.isEmpty ∨ name = ['.', '.'] then name else before
  | none => name

def Options.name (o : Options) : String :=
  match o.template with
  | none => "query"
  | some path => ((fileName? path).map fun n => String.ofList (stem n)).getD "query"

/-- The text of the template, given what reading a file results in. -/
def Options.templateText (o : Options) (load : String → Except String String) :
    Except Report String :=
  match o.template, o.sql with
  | some path, _ =>
    match load path with
    | .ok text => .ok text
    | .error cause => .error { message := "failed to read " ++ path, cause := some cause }
  | none, some sql => .ok sql
  | none, none => .error { message := "a template file or --sql is required" }

/-! ## After the template is read -/

def Options.steps (o : Options) : List Criteria.Step :=
  [.select (o.select.map Text.trim), .limitOffset (o.limit.getD 50) (o.offset.getD 0)]
    ++ o.filters.map .whereText
    ++ o.orderBy.toList.map .orderByText
    ++ o.params.map (fun p => .setParam p.1 p.2)
    ++ (if o.count then [.count] else [])

def Options.criteria (o : Options) : Except Error Criteria :=
  match Criteria.applyAll {} o.steps with
  | .ok c => .ok c
  | .error (_, e) => .error e

def Options.definitionOf (o : Options) (template : String) : Except Report Definition :=
  match Definition.ofSql template with
  | .ok d => .ok d
  | .error e => .error
    { message := "invalid query template '" ++ o.name ++ "'", cause := some e.message }

/-- What the options ask for with a definition. -/
def Options.act (o : Options) (d : Definition) : Except Error Plan := do
  if o.definition then
    return .finish (.succeeded (.ofLines [d.document true o.name]))
  let criteria ← o.criteria
  if o.interactive then
    return .shell (banner o.name d) d criteria
  return .finish (.succeeded (queryOutput (← d.compile criteria)))

/-- What a run does, given what reading a file results in. -/
def plan (arguments : List String) (load : String → Except String String) : Plan :=
  match Options.read arguments with
  | .error stop => .finish stop.outcome
  | .ok o =>
    match o.templateText load >>= o.definitionOf with
    | .error r => .finish (.failed r)
    | .ok d =>
      match o.act d with
      | .error e => .finish (.failed (.ofError e))
      | .ok p => p

/-- The outcome of a run on all of its input. -/
def run (arguments : List String) (load : String → Except String String) (input : String) :
    Outcome :=
  match plan arguments load with
  | .finish outcome => outcome
  | .shell opening d base => .succeeded (opening ++ transcript d base (linesOf input))

end QueryTemplate.CommandLine
