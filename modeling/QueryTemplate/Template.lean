import QueryTemplate.Alias
import QueryTemplate.Definition
import QueryTemplate.Sql.Statement
import QueryTemplate.Text.Basic

/-!
# Query templates

A template is one plain SELECT statement whose items all have aliases. It is taken apart into a
definition; what would change the meaning of a count or of a page is refused.
-/

namespace QueryTemplate

open QueryTemplate.Sql

namespace Field

/-- The field that an item of the select list declares. -/
def ofItem (item : SelectItem) : Except Error Field :=
  match item.label with
  | none => .error (.missingAlias item.expression)
  | some label => (Alias.decode label.text).map fun (name, type) => ⟨item.expression, name, type⟩

end Field

namespace Definition

/-- The lines of a table and its joins. -/
def sourceLines (s : Source) : String :=
  "\n".intercalate (s.table :: s.joins.map Text.trim)

/-- The FROM clause with a line for each table. -/
def schemaText (sources : List Source) : Except Error String :=
  if sources.isEmpty then .error (.unsupportedStatement "query template has no FROM clause")
  else .ok (",\n".intercalate (sources.map sourceLines))

/-- The definition that a selection in an order declares. -/
def ofSelect (s : Select) (order : List String) : Except Error Definition := do
  if s.distinct.isSome || s.top.isSome then
    throw (.unsupportedStatement "DISTINCT/TOP is not supported in query templates")
  if s.grouping.isSome || s.having.isSome then
    throw (.unsupportedStatement "GROUP BY/HAVING is not supported in query templates")
  let fields ← s.items.mapM Field.ofItem
  let schema ← schemaText s.sources
  ofParts fields schema s.condition (if order.isEmpty then none else some (listed order))

/-- The definition that a query declares. Its limit and offset are dropped. -/
def ofQuery (q : Query) : Except Error Definition :=
  if q.tables.isSome then
    .error (.unsupportedStatement "WITH clauses are not supported in query templates")
  else match q.body with
    | .select s => ofSelect s q.order
    | .combine op .. =>
      .error (.unsupportedStatement ("set operation " ++ op.sql ++ " is not supported"))
    | body => .error (.unsupportedStatement ("only plain SELECT is supported: " ++ body.written))

/-- The definition that statements declare, of which there has to be one. -/
def ofStatements : List Statement → Except Error Definition
  | [.query q] => ofQuery q
  | [.other text] => .error (.unsupportedStatement ("only SELECT is supported: " ++ text))
  | statements => .error (.unsupportedStatement
      ("expected a single SELECT statement, found " ++ toString statements.length ++ " statements"))

/-- The definition that a template declares, which `read` takes apart into statements if it is SQL. -/
def ofSqlWith (read : String → Option (List Statement)) (template : String) :
    Except Error Definition :=
  match read template with
  | none => .error .templateSyntax
  | some statements => ofStatements statements

/-- The definition that a template declares. -/
def ofSql (template : String) : Except Error Definition :=
  ofSqlWith statements? template

end Definition

end QueryTemplate
