import QueryTemplate.Bindings
import QueryTemplate.Text.Basic

/-!
# Command line options

The arguments are read from left to right, and the first one that cannot be taken, or that asks for
help or the version, ends the reading. That a template may be given in only one way is checked last.
-/

namespace QueryTemplate.CommandLine

open QueryTemplate.Number

/-- What the arguments ask for. -/
structure Options where
  template : Option String := none
  sql : Option String := none
  definition : Bool := false
  interactive : Bool := false
  select : List String := []
  filters : List String := []
  orderBy : Option String := none
  limit : Option UInt64 := none
  offset : Option UInt64 := none
  count : Bool := false
  params : List (String × Value) := []
  deriving DecidableEq, Repr

/-- Why the arguments are not acted on. -/
inductive Stop
  | usage
  | help
  | version
  deriving DecidableEq, Repr

/-- The options without a value. -/
inductive Switch
  | definition
  | interactive
  | count
  | help
  | version
  deriving DecidableEq, Repr

/-- The options with a value. -/
inductive Setting
  | sql
  | select
  | filter
  | orderBy
  | limit
  | offset
  | param
  deriving DecidableEq, Repr

abbrev OptionName := Switch ⊕ Setting

/-- The option with a long name, which may not be abbreviated. -/
def long? (name : String) : Option OptionName :=
  match name with
  | "definition" => some (.inl .definition)
  | "interactive" => some (.inl .interactive)
  | "count" => some (.inl .count)
  | "help" => some (.inl .help)
  | "version" => some (.inl .version)
  | "sql" => some (.inr .sql)
  | "select" => some (.inr .select)
  | "where" => some (.inr .filter)
  | "order-by" => some (.inr .orderBy)
  | "limit" => some (.inr .limit)
  | "offset" => some (.inr .offset)
  | "param" => some (.inr .param)
  | _ => none

def short? (letter : Char) : Option OptionName :=
  match letter with
  | 'd' => some (.inl .definition)
  | 'i' => some (.inl .interactive)
  | 'h' => some (.inl .help)
  | 'V' => some (.inl .version)
  | 'f' => some (.inr .filter)
  | 'p' => some (.inr .param)
  | _ => none

/-- A parameter: its name up to the first equals sign, and the value that is read off the rest. -/
def readParam? (text : String) : Option (String × Value) :=
  (Text.splitFirst '=' text.toList).map fun (name, value) =>
    (Text.trim (String.ofList name), .infer (Text.trim (String.ofList value)))

namespace Options

def once {α : Type} (old : Option α) (new : α) : Except Stop (Option α) :=
  if old.isSome then .error .usage else .ok (some new)

def turnOn (old : Bool) : Except Stop Bool :=
  if old then .error .usage else .ok true

/-- A value that can be read, or a refusal. -/
def readable {α : Type} (value : Option α) : Except Stop α :=
  match value with
  | some a => .ok a
  | none => .error .usage

def apply (o : Options) : Switch → Except Stop Options
  | .definition => return { o with definition := ← turnOn o.definition }
  | .interactive => return { o with interactive := ← turnOn o.interactive }
  | .count => return { o with count := ← turnOn o.count }
  | .help => throw .help
  | .version => throw .version

/-- Takes an option with its value. Only columns, filters and parameters may be given repeatedly. -/
def set (o : Options) (value : String) : Setting → Except Stop Options
  | .sql => return { o with sql := ← once o.sql value }
  | .select =>
    return { o with
      select := o.select ++ (Text.splitWhen (· = ',') value.toList).map String.ofList }
  | .filter => return { o with filters := o.filters ++ [value] }
  | .orderBy => return { o with orderBy := ← once o.orderBy value }
  | .limit => do
    let n ← readable ((readUInt64? value.toList).filter (· ≠ 0))
    return { o with limit := ← once o.limit n }
  | .offset => do
    let n ← readable (readUInt64? value.toList)
    return { o with offset := ← once o.offset n }
  | .param => do
    let p ← readable (readParam? value)
    return { o with params := o.params ++ [p] }

/-- Takes an argument that belongs to no option: the path of the template. -/
def setTemplate (o : Options) (path : String) : Except Stop Options :=
  if path = "" then .error .usage
  else return { o with template := ← once o.template path }

def isValue (argument : String) : Bool :=
  argument.toList.head? ≠ some '-' || argument = "-"

/-- Takes a long option without its dashes; an option that still needs its value is returned too. -/
def takeLong (o : Options) (text : List Char) : Except Stop (Options × Option Setting) := do
  let (name, value) := match Text.splitFirst '=' text with
    | some (name, value) => (name, some (String.ofList value))
    | none => (text, none)
  match long? (String.ofList name), value with
  | some (.inl switch), none => return (← o.apply switch, none)
  | some (.inr setting), some value => return (← o.set value setting, none)
  | some (.inr setting), none => return (o, some setting)
  | _, _ => throw .usage

/-- Takes joined letters; the first option with a value among them takes the rest as its value. -/
def takeShort (o : Options) : List Char → Except Stop (Options × Option Setting)
  | [] => return (o, none)
  | c :: cs =>
    match short? c with
    | none => throw .usage
    | some (.inl switch) => do takeShort (← o.apply switch) cs
    | some (.inr setting) => do
      match cs with
      | [] => return (o, some setting)
      | '=' :: value => return (← o.set (String.ofList value) setting, none)
      | value => return (← o.set (String.ofList value) setting, none)

/-- Takes arguments after two dashes, none of which is an option. -/
def takeRest (o : Options) : List String → Except Stop Options
  | [] => return o
  | path :: rest => do takeRest (← o.setTemplate path) rest

def takeAll (o : Options) : List String → Except Stop Options
  | [] => return o
  | argument :: rest => do
    let (o, pending) ←
      match argument.toList with
      | ['-', '-'] => return ← takeRest o rest
      | '-' :: '-' :: name => takeLong o name
      | '-' :: c :: cs => takeShort o (c :: cs)
      | _ => pure (← o.setTemplate argument, none)
    match pending, rest with
    | none, rest => takeAll o rest
    | some setting, value :: rest =>
      if isValue value then takeAll (← o.set value setting) rest else throw .usage
    | some _, [] => throw .usage

/-- What the arguments ask for. A template is a file or inline, never both. -/
def read (arguments : List String) : Except Stop Options := do
  let o ← takeAll {} arguments
  if o.template.isSome && o.sql.isSome then throw .usage
  return o

end Options

end QueryTemplate.CommandLine
