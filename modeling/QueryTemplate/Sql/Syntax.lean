/-!
# The parts of template SQL

A template keeps the text of its clauses, not their meaning. So what is kept of an expression, a
table or an order is its *normal form*: names and literals as they were spelled, keywords in
capitals, one blank around an operator and after a comma, and no comments. Only the outline of a
statement, down to the items of a select list and the tables of a FROM clause, is a tree.
-/

namespace QueryTemplate.Sql

/-! ## Names and texts -/

/-- A name, with the mark that it is quoted with. -/
structure Ident where
  text : String
  quote : Option Char
  deriving DecidableEq, Repr

/--
Writes each quote inside a quoted text twice. A quote after a backslash and a quote that already
stands twice are taken as escaped; `before` is the character before the text.
-/
def escaped (quote : Char) : Char → List Char → List Char
  | _, [] => []
  | before, c :: cs =>
    if c ≠ quote then c :: escaped quote c cs
    else if before = '\\' then c :: escaped quote before cs
    else c :: c :: match cs with
      | [] => []
      | d :: rest => if d = quote then escaped quote c rest else escaped quote c (d :: rest)

def quoted (quote : Char) (text : String) : String :=
  String.ofList (quote :: escaped quote '\x00' text.toList ++ [quote])

def Ident.written (name : Ident) : String :=
  match name.quote with
  | none => name.text
  | some quote => quoted quote name.text

def writtenPath (path : List Ident) : String :=
  ".".intercalate (path.map Ident.written)

/-! ## Putting normal forms together -/

def spaced (parts : List String) : String :=
  " ".intercalate parts

def listed (parts : List String) : String :=
  ", ".intercalate parts

def parenthesized (text : String) : String :=
  "(" ++ text ++ ")"

/-- A word and the text that belongs to it, or nothing. -/
def clause (word : String) : Option String → List String
  | none => []
  | some text => [word, text]

/-! ## The outline of a statement -/

/-- An item of a select list: the normal form of what it shows, and its alias. -/
structure SelectItem where
  expression : String
  label : Option Ident
  deriving DecidableEq, Repr

/-- A table of a FROM clause and the tables joined to it. -/
structure Source where
  table : String
  joins : List String
  deriving DecidableEq, Repr

/-- A selection of columns and rows. -/
structure Select where
  distinct : Option String
  top : Option String
  items : List SelectItem
  sources : List Source
  condition : Option String
  grouping : Option String
  having : Option String
  deriving DecidableEq, Repr

/-- The operations on the rows of two queries. -/
inductive SetOperator
  | union
  | except
  | intersect
  deriving DecidableEq, Repr

/-- The part of a query that gives its rows. -/
inductive Body
  | select (s : Select)
  | query (text : String)
  | values (text : String)
  | combine (op : SetOperator) (multiplicity : Option String) (left right : Body)
  deriving Repr

/-- A query. Its pages are the clauses that cut rows off at the front or the end. -/
structure Query where
  tables : Option String
  body : Body
  order : List String
  pages : List String
  deriving Repr

/-- A statement. Only a query can be a template, so of all others the normal form is enough. -/
inductive Statement
  | query (q : Query)
  | other (text : String)
  deriving Repr

/-! ## Normal forms on one line -/

def SelectItem.written (item : SelectItem) : String :=
  match item.label with
  | none => item.expression
  | some label => spaced [item.expression, "AS", label.written]

def Source.written (source : Source) : String :=
  spaced (source.table :: source.joins)

def Select.written (s : Select) : String :=
  let from? := if s.sources.isEmpty then none else some (listed (s.sources.map Source.written))
  spaced (["SELECT"] ++ s.distinct.toList ++ s.top.toList
    ++ [listed (s.items.map SelectItem.written)] ++ clause "FROM" from?
    ++ clause "WHERE" s.condition ++ clause "GROUP BY" s.grouping ++ clause "HAVING" s.having)

def SetOperator.sql : SetOperator → String
  | .union => "UNION"
  | .except => "EXCEPT"
  | .intersect => "INTERSECT"

def Body.written : Body → String
  | .select s => s.written
  | .query text => parenthesized text
  | .values text => text
  | .combine op multiplicity left right =>
    spaced ([left.written, op.sql] ++ multiplicity.toList ++ [right.written])

def Query.written (q : Query) : String :=
  spaced (q.tables.toList ++ [q.body.written]
    ++ clause "ORDER BY" (if q.order.isEmpty then none else some (listed q.order)) ++ q.pages)

end QueryTemplate.Sql
