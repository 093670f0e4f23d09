import QueryTemplate.Sql.Query

/-!
# Statements of template SQL

Templates are queries. The other statements are read so that a refusal can show them, and the text
as a whole is read before anything is refused.
-/

namespace QueryTemplate.Sql

open Reader

def pathText : Reader String :=
  writtenPath <$> path

def changeCondition (b : Below) : Reader (List String) :=
  return clause "WHERE" (← after [.WHERE] b.anyExpr)

def insertForm (b : Below) : Reader String := do
  let place ← acceptOneOf [(.INTO, "INTO"), (.OVERWRITE, "OVERWRITE")]
  let word := if ← acceptWord .TABLE then ["TABLE"] else []
  let target ← pathText
  let ts ← get
  let columns ←
    if startsWith .opening ts && !startsQuery ts.tail then
      pure [parenthesized (listed ((← identList).map Ident.written))]
    else pure []
  let rows ← b.queryText
  return spaced (["INSERT"] ++ place.toList ++ word ++ [target] ++ columns ++ [rows])

def assignment (b : Below) : Reader String := do
  let target ← pathText
  expect .eq
  return spaced [target, "=", ← b.anyExpr]

def updateForm (b : Below) : Reader String := do
  let target ← source b
  expectWord .SET
  let assignments ← list (assignment b)
  let sources ← after [.FROM] (source b)
  let condition ← changeCondition b
  return spaced (["UPDATE", target.written, "SET", listed assignments]
    ++ clause "FROM" (sources.map Source.written) ++ condition)

def deleteForm (b : Below) : Reader String := do
  let preposition := if ← acceptWord .FROM then ["FROM"] else []
  let sources ← list (source b)
  let others ← after [.USING] (list (source b))
  let condition ← changeCondition b
  return spaced (["DELETE"] ++ preposition ++ [listed (sources.map Source.written)]
    ++ clause "USING" (others.map fun s => listed (s.map Source.written)) ++ condition)

def dropForm : Reader String := do
  let condition := if ← acceptWords [.IF, .EXISTS] then ["IF EXISTS"] else []
  let tables ← list pathText
  let behaviour ← acceptOneOf [(.CASCADE, "CASCADE"), (.RESTRICT, "RESTRICT")]
  return spaced (["DROP TABLE"] ++ condition ++ [listed tables] ++ behaviour.toList)

/-- Reads a constraint on a column, if there is one. -/
def columnConstraint (b : Below) : Reader (Option String) := do
  if ← acceptWords [.NOT, .NULL] then return some "NOT NULL"
  else if ← acceptWord .NULL then return some "NULL"
  else if ← acceptWord .UNIQUE then return some "UNIQUE"
  else if ← acceptWords [.PRIMARY, .KEY] then return some "PRIMARY KEY"
  else if ← acceptWord .DEFAULT then return some (spaced ["DEFAULT", ← b.anyExpr])
  else return none

/-- Reads constraints on a column, of which there are at most `n`. -/
def constraintsAtMost (b : Below) : Nat → Reader (List String)
  | 0 => return []
  | n + 1 => do
    match ← columnConstraint b with
    | none => return []
    | some c => return c :: (← constraintsAtMost b n)

def newColumn (b : Below) : Reader String := do
  let name ← ident
  let type ← dataType
  return spaced (name.written :: type :: (← constraintsAtMost b (← get).length))

def createForm (b : Below) : Reader String := do
  let condition := if ← acceptWords [.IF, .NOT, .EXISTS] then ["IF NOT EXISTS"] else []
  let table ← pathText
  let columns ←
    if ← accept .opening then
      if ← accept .closing then pure []
      else do
        let columns ← list (newColumn b)
        expect .closing
        pure columns
    else pure []
  return spaced (["CREATE TABLE"] ++ condition ++ [table, parenthesized (listed columns)])

def truncateForm : Reader String := do
  let word := if ← acceptWord .TABLE then ["TABLE"] else []
  return spaced (["TRUNCATE"] ++ word ++ [listed (← list pathText)])

def chainForm : Reader (List String) := do
  let _ ← acceptOneOf [(.WORK, ()), (.TRANSACTION, ())]
  if ← acceptWord .AND then
    let negated ← acceptWord .NO
    expectWord .CHAIN
    return if negated then [] else ["AND CHAIN"]
  else return []

def rollbackForm : Reader String := do
  let chain ← chainForm
  let savepoint ← after [.TO] do
    let _ ← acceptWord .SAVEPOINT
    ident
  return spaced ("ROLLBACK" :: chain ++ clause "TO SAVEPOINT" (savepoint.map Ident.written))

def statement (b : Below) : Reader Statement := do
  let ts ← get
  if startsWith .opening ts || startsQuery ts || keyword? ts = some .VALUES then
    .query <$> b.query
  else if ← acceptWord .INSERT then .other <$> insertForm b
  else if ← acceptWord .UPDATE then .other <$> updateForm b
  else if ← acceptWord .DELETE then .other <$> deleteForm b
  else if ← acceptWords [.DROP, .TABLE] then .other <$> dropForm
  else if ← acceptWords [.CREATE, .TABLE] then .other <$> createForm b
  else if ← acceptWord .TRUNCATE then .other <$> truncateForm
  else if ← acceptWord .COMMIT then return .other (spaced ("COMMIT" :: (← chainForm)))
  else if ← acceptWord .ROLLBACK then .other <$> rollbackForm
  else fail

/--
Reads at most `n` statements with semicolons between them; empty ones are skipped. The word `END`
after a statement ends the text.
-/
def statementsAtMost (one : Reader Statement) : Nat → Reader (List Statement)
  | 0 => return []
  | n + 1 => do
    if (← get).isEmpty then return []
    else if ← accept .semicolon then statementsAtMost one n
    else
      let first ← one
      let ts ← get
      if ts.isEmpty || keyword? ts = some .END then return [first]
      else
        expect .semicolon
        return first :: (← statementsAtMost one n)

/-- How deep statements, queries and expressions may nest. -/
def maxNesting : Nat := 50

/-- The statements that tokens make up. -/
def statementsOf (ts : List Token) : Except Failure (List Statement) :=
  (statementsAtMost (statement (level (maxNesting - 1))) ts.length).run' ts

def statements? (text : String) : Option (List Statement) := do
  (statementsOf (← lex text.toList)).toOption

end QueryTemplate.Sql
