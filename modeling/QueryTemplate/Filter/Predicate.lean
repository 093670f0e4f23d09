import QueryTemplate.Bindings
import QueryTemplate.Definition
import QueryTemplate.Filter.Basic

/-!
# Predicates

A filter is written as a list of pieces, each either SQL text or a value for a placeholder. The SQL
text of the predicate and the list of its values are two views of that one list, so the n-th
placeholder and the n-th value are the same piece.
-/

namespace QueryTemplate

/-- A piece of a predicate. -/
inductive Piece
  | sql (text : String)
  /-- A placeholder with the value bound to it. -/
  | bound (v : Value)
  deriving DecidableEq, Repr

/-- SQL text with placeholders whose values are known. -/
abbrev Fragment := List Piece

namespace Fragment

/-- The SQL text, with a question mark for each placeholder. -/
def sql : Fragment → String
  | [] => ""
  | .sql text :: rest => text ++ sql rest
  | .bound _ :: rest => "?" ++ sql rest

/-- The values of the placeholders from left to right. -/
def params : Fragment → List Value
  | [] => []
  | .sql _ :: rest => params rest
  | .bound v :: rest => v :: params rest

@[simp] theorem sql_append (a b : Fragment) : sql (a ++ b) = sql a ++ sql b := by
  induction a with
  | nil => simp [sql]
  | cons p a ih => cases p <;> simp [sql, ih, String.append_assoc]

@[simp] theorem params_append (a b : Fragment) : params (a ++ b) = params a ++ params b := by
  induction a with
  | nil => rfl
  | cons p a ih => cases p <;> simp [params, ih]

/-- The fragment, in parentheses if asked for. -/
def wrap (parens : Bool) (a : Fragment) : Fragment :=
  if parens then .sql "(" :: a ++ [.sql ")"] else a

end Fragment

/-- What the names in a filter refer to. -/
structure Scope where
  fields : List Field
  bindings : Bindings

namespace Scope

/-- Writes an operand: a placeholder for a value, the whole expression for a field. -/
def operand (s : Scope) : Operand → Except Error Fragment
  | .literal v => .ok [.bound v]
  | .param name =>
    match s.bindings.get? name with
    | some v => .ok [.bound v]
    | none => .error (.unboundParameter name)
  | .field name => (Field.resolve s.fields name).map fun f => [.sql f.expression]

/-- Writes the further items of a list, each after a comma. -/
def moreItems (s : Scope) : List Operand → Except Error Fragment
  | [] => .ok []
  | o :: os => do
    let first ← s.operand o
    let rest ← s.moreItems os
    .ok (.sql ", " :: first ++ rest)

/-- Checks the operand of a test for membership in the empty list; only a field can fail. -/
def checkField (s : Scope) : Operand → Except Error Unit
  | .field name => (Field.resolve s.fields name).map fun _ => ()
  | _ => .ok ()

/-- Writes a test for membership. Nothing is in the empty list, so that test has a fixed answer. -/
def membership (s : Scope) (o : Operand) (items : List Operand) (negated : Bool) :
    Except Error Fragment :=
  match items with
  | [] => do
    s.checkField o
    .ok [.sql (if negated then "1 = 1" else "1 = 0")]
  | first :: rest => do
    let left ← s.operand o
    let first ← s.operand first
    let rest ← s.moreItems rest
    .ok (left ++ .sql (if negated then " NOT IN (" else " IN (") :: first ++ rest ++ [.sql ")"])

end Scope

namespace Filter

/-- Whether a filter is a conjunction. -/
def isAnd : Filter → Bool
  | .and .. => true
  | _ => false

/-- Whether a filter is a disjunction. -/
def isOr : Filter → Bool
  | .or .. => true
  | _ => false

/--
Writes a filter that has `depth` conditions around it. Parentheses stand where the tree is not what
`AND` before `OR`, both from the left, would make of the text.
-/
def write (s : Scope) (depth : Nat) (f : Filter) : Except Error Fragment :=
  if maxFilterDepth ≤ depth then .error .filterTooDeep
  else match f with
    | .compare left op right => do
      let left ← s.operand left
      let right ← s.operand right
      .ok (left ++ .sql (" " ++ op.sql ++ " ") :: right)
    | .isIn o items negated => s.membership o items negated
    | .isNull o negated => do
      let o ← s.operand o
      .ok (o ++ [.sql (if negated then " IS NOT NULL" else " IS NULL")])
    | .and left right => do
      let l ← write s (depth + 1) left
      let r ← write s (depth + 1) right
      .ok (Fragment.wrap left.isOr l ++ .sql " AND "
        :: Fragment.wrap (right.isAnd || right.isOr) r)
    | .or left right => do
      let l ← write s (depth + 1) left
      let r ← write s (depth + 1) right
      .ok (l ++ .sql " OR " :: Fragment.wrap right.isOr r)
    | .not inner => do
      let i ← write s (depth + 1) inner
      .ok (.sql "NOT (" :: i ++ [.sql ")"])

end Filter

end QueryTemplate
