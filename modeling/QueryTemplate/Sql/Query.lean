import QueryTemplate.Sql.Expression
import QueryTemplate.Text.Basic

/-!
# Queries of template SQL

Select lists, FROM clauses and the clauses around them. As in expressions, what nests is read by the
readers of `Below`; `level` then ties the knot for as many levels as a text may nest.
-/

namespace QueryTemplate.Sql

open Reader

/-! ## Tables -/

/-- A table of a FROM clause. Parentheses are kept around joins, not around a table alone. -/
structure Table where
  text : String
  label : Option String
  joined : Bool

def Table.written (t : Table) : String :=
  spaced (t.text :: clause "AS" t.label)

/-- Reads a column name of a table alias, with a type if there is one. -/
def aliasColumn : Reader String := do
  let name ← ident
  let type ← attempt dataType
  return spaced (name.written :: type.toList)

/-- Reads column names in parentheses, if there are any. -/
def aliasColumns : Reader (List String) := do
  if startsWith .opening (← get) then
    return [parenthesized (listed (← parens (list aliasColumn)))]
  else return []

/-- Reads the alias of a table, if it has one. -/
def tableAlias : Reader (Option String) := do
  match ← optionalAlias Keyword.tableReserved with
  | none => return none
  | some name => return some (spaced (name.written :: (← aliasColumns)))

/-- Reads a query as a table, from after the parenthesis before it. -/
def derivedTable (b : Below) : Reader Table := do
  let q ← b.queryText
  expect .closing
  return ⟨parenthesized q, ← tableAlias, false⟩

/-- Reads a table by its name, or a call that gives one. -/
def namedTable (b : Below) : Reader Table := do
  let ts ← get
  if [some .TABLE, some .LATERAL].contains (keyword? ts) then fail
  if [some .JSON_TABLE, some .OPENJSON].contains (keyword? ts) && startsWith .opening ts.tail then fail
  let name := writtenPath (← path)
  let called ←
    if ← accept .opening then
      if ← accept .closing then pure "()"
      else do
        let items ← list (argument b)
        expect .closing
        pure (parenthesized (listed items))
    else pure ""
  return ⟨name ++ called, ← tableAlias, false⟩

/-- Reads the arrays whose elements make up a table. -/
def nestedTable (b : Below) : Reader Table := do
  let arrays ← parens (list b.anyExpr)
  return ⟨"UNNEST" ++ parenthesized (listed arrays), ← tableAlias, false⟩

/-! ## Joins -/

/-- Reads the condition of a join, which may have none. -/
def joinCondition (b : Below) : Reader String := do
  if ← acceptWord .ON then return " ON " ++ (← b.anyExpr)
  else if ← acceptWord .USING then
    return " USING" ++ parenthesized (listed ((← identList).map Ident.written))
  else return ""

/-- Reads what stands between `LEFT` or `RIGHT` and the table. -/
def sideJoin (side : String) : Reader String := do
  if ← acceptWord .JOIN then return side ++ " JOIN"
  else if ← acceptWords [.OUTER, .JOIN] then return side ++ " JOIN"
  else if ← acceptWords [.SEMI, .JOIN] then return side ++ " SEMI JOIN"
  else if ← acceptWords [.ANTI, .JOIN] then return side ++ " ANTI JOIN"
  else fail

/-- Reads the words in front of a joined table, if there are any. -/
def joinWords : Reader (Option String) := do
  if ← acceptWord .JOIN then return some "JOIN"
  else if ← acceptWord .INNER then expectWord .JOIN; return some "JOIN"
  else if ← acceptWord .LEFT then some <$> sideJoin "LEFT"
  else if ← acceptWord .RIGHT then some <$> sideJoin "RIGHT"
  else if ← acceptWord .SEMI then expectWord .JOIN; return some "SEMI JOIN"
  else if ← acceptWord .ANTI then expectWord .JOIN; return some "ANTI JOIN"
  else if ← acceptWord .FULL then
    let _ ← acceptWord .OUTER
    expectWord .JOIN
    return some "FULL JOIN"
  else return none

/-- Reads a join, if there is one. -/
def join (b : Below) (table : Reader Table) : Reader (Option String) := do
  if ← acceptWord .CROSS then
    expectWord .JOIN
    return some (spaced ["CROSS JOIN", (← table).written])
  else
    let natural ← acceptWord .NATURAL
    match ← joinWords with
    | none => if natural then fail else return none
    | some words =>
      let t ← table
      if natural then return some (spaced ["NATURAL", words, t.written])
      else return some (spaced [words, t.written] ++ (← joinCondition b))

/-- Reads joins, of which there are at most `n`. -/
def joinsAtMost (b : Below) (table : Reader Table) : Nat → Reader (List String)
  | 0 => return []
  | n + 1 => do
    match ← join b table with
    | none => return []
    | some j => return j :: (← joinsAtMost b table n)

def joins (b : Below) (table : Reader Table) : Reader (List String) := do
  joinsAtMost b table (← get).length

/-- Reads an alias after parentheses around a table, if the table in them has none. -/
def outerAlias (t : Table) : Reader Table := do
  match ← tableAlias, t.label with
  | none, _ => return t
  | some label, none => return { t with label := some label }
  | some _, some _ => fail

/-- Reads a table, with at most `n` parentheses around it that are not those of a query. -/
def tableAtMost (b : Below) : Nat → Reader Table
  | 0 => fail
  | n + 1 => do
    if ← accept .opening then
      match ← attempt (derivedTable b) with
      | some t => return t
      | none =>
        let t ← tableAtMost b n
        let js ← joins b (tableAtMost b n)
        expect .closing
        if t.joined || !js.isEmpty then
          return ⟨parenthesized (spaced (t.written :: js)), ← tableAlias, true⟩
        else outerAlias t
    else if ← acceptWord .UNNEST then nestedTable b
    else namedTable b

def table (b : Below) : Reader Table := do
  tableAtMost b ((← get).length + 1)

def source (b : Below) : Reader Source := do
  let t ← table b
  return ⟨t.written, ← joins b (table b)⟩

/-! ## Selections -/

/-- Reads an item of a select list. The word `FROM` alone is none, so that none can be missing. -/
def selectItem (b : Below) : Reader SelectItem := do
  match ← attempt star with
  | some s => return ⟨s, none⟩
  | none =>
    let expression ← b.anyExpr
    if Text.lower expression = "from" then fail
    return ⟨expression, ← optionalAlias Keyword.columnReserved⟩

def distinctClause (b : Below) : Reader (Option String) := do
  let all ← acceptWord .ALL
  if ← acceptWord .DISTINCT then
    if all then fail
    if ← acceptWord .ON then
      let keys ← parens do
        if startsWith .closing (← get) then return [] else list b.anyExpr
      return some (spaced ["DISTINCT ON", parenthesized (listed keys)])
    else return some "DISTINCT"
  else return none

def topClause (b : Below) : Reader (Option String) := do
  if ← acceptWord .TOP then
    let quantity ←
      if startsWith .opening (← get) then parenthesized <$> parens b.anyExpr
      else take fun t => t.count?.map toString
    let percent := if ← acceptWord .PERCENT then ["PERCENT"] else []
    let ties := if ← acceptWords [.WITH, .TIES] then ["WITH TIES"] else []
    return some (spaced (["TOP", quantity] ++ percent ++ ties))
  else return none

/-- Reads a key that rows are grouped by, or keys in parentheses, which one alone is written without. -/
def groupKeys (b : Below) : Reader String := do
  if ← accept .opening then
    if ← accept .closing then return "()"
    let keys ← list b.anyExpr
    expect .closing
    return if keys.length = 1 then listed keys else parenthesized (listed keys)
  else b.anyExpr

/-- Reads what rows are grouped by: an expression, sets of keys, or nothing in parentheses. -/
def groupItem (b : Below) : Reader String := do
  if ← acceptWord .CUBE then
    return spaced ["CUBE", parenthesized (listed (← parens (list (groupKeys b))))]
  else if ← acceptWord .ROLLUP then
    return spaced ["ROLLUP", parenthesized (listed (← parens (list (groupKeys b))))]
  else if ← acceptWords [.GROUPING, .SETS] then fail
  else if (← attempt (parens (pure ()))).isSome then return "()"
  else b.anyExpr

/-- Reads what rows are grouped by, if they are grouped. -/
def groupClause (b : Below) : Reader (Option String) :=
  after [.GROUP, .BY] do
    if ← acceptWord .ALL then return "ALL" else listed <$> list (groupItem b)

def select (b : Below) : Reader Select := do
  expectWord .SELECT
  let distinct ← distinctClause b
  let top ← topClause b
  let items ← list (selectItem b)
  let sources ← after [.FROM] (list (source b))
  let condition ← after [.WHERE] b.anyExpr
  let grouping ← groupClause b
  let having ← after [.HAVING] b.anyExpr
  return { distinct, top, items, sources := sources.getD [], condition, grouping, having }

/-! ## Queries -/

/-- Reads a row of values, and whether it is called one. -/
def valuesRow (b : Below) : Reader (Bool × String) := do
  let called ← acceptWord .ROW
  return (called, parenthesized (listed (← parens (list b.anyExpr))))

/-- Reads rows of values after the first word. All rows are called rows if one is. -/
def valuesForm (b : Below) : Reader String := do
  let rows ← list (valuesRow b)
  let called := if rows.any (·.1) then "ROW" else ""
  return spaced ["VALUES", listed (rows.map fun r => called ++ r.2)]

/-- Reads the part of a query that no set operation stands in. -/
def simpleBody (b : Below) : Reader Body := do
  if ← accept .opening then
    let q ← b.queryText
    expect .closing
    return .query q
  else if ← acceptWord .VALUES then .values <$> valuesForm b
  else .select <$> select b

/-- Reads on while a set operation of the given ones follows, for at most `n` of them. -/
def combinationsAtMost (operators : List (Keyword × SetOperator)) (one : Reader Body) :
    Nat → Body → Reader Body
  | 0, left => return left
  | n + 1, left => do
    match ← acceptOneOf operators with
    | none => return left
    | some op =>
      let multiplicity ← acceptOneOf [(.ALL, "ALL"), (.DISTINCT, "DISTINCT")]
      let right ← one
      combinationsAtMost operators one n (.combine op multiplicity left right)

/-- Reads bodies with set operations of the given ones between them, and joins from the left. -/
def combinations (operators : List (Keyword × SetOperator)) (one : Reader Body) : Reader Body := do
  let n := (← get).length
  let first ← one
  combinationsAtMost operators one n first

/-- Reads the rows of a query. Intersections bind tighter than unions and differences. -/
def body (b : Below) : Reader Body :=
  combinations [(.UNION, .union), (.EXCEPT, .except)]
    (combinations [(.INTERSECT, .intersect)] (simpleBody b))

/-- How many rows a query gives and how many it skips. -/
structure Page where
  limit : Option String
  offset : Option String

/-- Reads a limit; all rows are no limit. -/
def limitClause (b : Below) : Reader (Option String) := do
  if ← acceptWord .LIMIT then
    if ← acceptWord .ALL then return none else some <$> b.anyExpr
  else return none

def offsetClause (b : Below) : Reader (Option String) := do
  if ← acceptWord .OFFSET then
    let e ← b.anyExpr
    let unit ← acceptOneOf [(.ROW, "ROW"), (.ROWS, "ROWS")]
    return some (spaced (e :: unit.toList))
  else return none

/-- Reads a clause that is not known yet. -/
def unlessKnown (known : Option String) (r : Reader (Option String)) : Reader (Option String) :=
  if known.isSome then pure known else r

/-- A second limit after a comma; the first one was the offset. -/
def secondLimit (b : Below) (p : Page) : Reader Page :=
  match p with
  | ⟨some first, none⟩ => do
    if ← accept .comma then return ⟨some (← b.anyExpr), some first⟩ else return p
  | _ => return p

/-- Reads a limit, an offset, and a second limit after a comma, as far as they are not known yet. -/
def pageStep (b : Below) (p : Page) : Reader Page := do
  let limit ← unlessKnown p.limit (limitClause b)
  let offset ← unlessKnown p.offset (offsetClause b)
  secondLimit b ⟨limit, offset⟩

def commonTable (b : Below) : Reader String := do
  let name ← ident
  let columns ← aliasColumns
  expectWord .AS
  let q ← parens b.queryText
  return spaced (name.written :: columns ++ ["AS", parenthesized q])

def commonTables (b : Below) : Reader String := do
  let recursive := if ← acceptWord .RECURSIVE then ["RECURSIVE"] else []
  return spaced ("WITH" :: recursive ++ [listed (← list (commonTable b))])

def query (b : Below) : Reader Query := do
  let tables ← after [.WITH] (commonTables b)
  let rows ← body b
  let order ← orderTerms b
  let page ← pageStep b (← pageStep b ⟨none, none⟩)
  return { tables, body := rows, order,
           pages := clause "LIMIT" page.limit ++ clause "OFFSET" page.offset }

/-! ## Nesting -/

/-- The readers that may nest so many levels deep. -/
def level : Nat → Below
  | 0 => ⟨fun _ => throw .tooDeep, throw .tooDeep⟩
  | n + 1 =>
    let below := level n
    ⟨expression below, query below⟩

end QueryTemplate.Sql
