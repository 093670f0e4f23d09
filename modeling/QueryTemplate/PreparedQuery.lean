import QueryTemplate.Criteria
import QueryTemplate.Filter.Predicate

/-!
# Prepared queries

A request against a definition becomes one SQL statement and the values of its placeholders. Either
the whole statement is written or one error is reported: first for the columns, then for the text of
the conditions, then for the names in them, and for the sort fields last.
-/

namespace QueryTemplate

/-- An SQL statement, or a predicate alone, with the values of its placeholders in order. -/
structure PreparedQuery where
  sql : String
  params : List Value
  deriving DecidableEq, Repr

/-- The values as one array. -/
def PreparedQuery.paramsJson (q : PreparedQuery) : String :=
  (Json.array (q.params.map Value.toJson)).compact

/-- The tree of a condition. -/
def Condition.tree : Condition → Except Error Filter
  | .filter f => .ok f
  | .text t =>
    match Filter.parse t with
    | .ok f => .ok f
    | .error e => .error (.text e)

namespace Definition

/-- The fields that are shown: those asked for, in the order asked for, or all of them. -/
def projection (d : Definition) (columns : List String) : Except Error (List Field) :=
  if columns.isEmpty then .ok d.fields else columns.mapM (Field.resolve d.fields)

/-- The select list. -/
def selectList (fields : List Field) : String :=
  ", ".intercalate (fields.map fun f => f.expression ++ " AS " ++ f.name)

/-- The predicate of all conditions together; none if there is no condition. -/
def predicate (d : Definition) (conditions : List Condition) (bindings : Bindings) :
    Except Error (Option Fragment) := do
  let trees ← conditions.mapM Condition.tree
  match Filter.all? trees with
  | none => .ok none
  | some f => some <$> f.write ⟨d.fields, bindings⟩ 0

/-- The condition of the template and that of the request, both in parentheses if there are both. -/
def whereClause (d : Definition) (extra : Option Fragment) : List String :=
  match d.condition, extra with
  | some base, some extra => ["WHERE (" ++ base ++ ") AND (" ++ extra.sql ++ ")"]
  | some base, none => ["WHERE " ++ base]
  | none, some extra => ["WHERE " ++ extra.sql]
  | none, none => []

/-- A sort field with its direction. -/
def sortTerm (d : Definition) (sort : SortKey) : Except Error String :=
  (Field.resolve d.fields sort.field).map fun f => f.expression ++ " " ++ sort.direction.sql

/-- The order of the request, which replaces that of the template. -/
def orderClause (d : Definition) (sorts : List SortKey) : Except Error (List String) :=
  if sorts.isEmpty then .ok (d.order.toList.map ("ORDER BY " ++ ·))
  else do
    let terms ← sorts.mapM d.sortTerm
    .ok ["ORDER BY " ++ ", ".intercalate terms]

/-- The clause that cuts out a page. -/
def pageClause (c : Criteria) : String :=
  "LIMIT " ++ toString c.limit.toNat ++ " OFFSET " ++ toString c.offset.toNat

/-- Compiles a request. A count has neither order nor page. -/
def compile (d : Definition) (c : Criteria) : Except Error PreparedQuery := do
  let fields ← d.projection c.columns
  let extra ← d.predicate c.conditions c.params
  let tail ←
    if c.count then .ok []
    else do
      let order ← d.orderClause c.sorts
      .ok (order ++ [pageClause c])
  let head := if c.count then "SELECT COUNT(*)" else "SELECT " ++ selectList fields
  let clauses := [head, "FROM " ++ d.schema] ++ d.whereClause extra ++ tail
  .ok ⟨"\n".intercalate clauses, (extra.getD []).params⟩

end Definition

/-- Compiles filter text by itself, without a statement around it. -/
def compileFilter (fields : List Field) (text : String) (bindings : Bindings) :
    Except Error PreparedQuery := do
  let f ← Condition.tree (.text text)
  let predicate ← f.write ⟨fields, bindings⟩ 0
  .ok ⟨predicate.sql, predicate.params⟩

end QueryTemplate
