import QueryTemplate.Value

/-!
# Filters

The tree of a filter condition, and the ways to build one by hand.
-/

namespace QueryTemplate

/-- One side of a comparison, or an item of a list. -/
inductive Operand
  | literal (v : Value)
  /-- A named parameter, whose value the request binds. -/
  | param (name : String)
  /-- A field of the definition, by its alias. -/
  | field (name : String)
  deriving DecidableEq, Repr

/-- The comparisons of two operands. -/
inductive CompareOp
  | eq
  | notEq
  | gt
  | gtEq
  | lt
  | ltEq
  | like
  | notLike
  deriving DecidableEq, Repr

namespace CompareOp

/-- Every comparison. -/
def all : List CompareOp :=
  [.eq, .notEq, .gt, .gtEq, .lt, .ltEq, .like, .notLike]

/-- How a comparison is written in SQL. -/
def sql : CompareOp → String
  | .eq => "="
  | .notEq => "!="
  | .gt => ">"
  | .gtEq => ">="
  | .lt => "<"
  | .ltEq => "<="
  | .like => "LIKE"
  | .notLike => "NOT LIKE"

/-- The comparison that is written in this way. -/
def ofSql? (s : String) : Option CompareOp :=
  all.find? fun o => o.sql = s

end CompareOp

/-- A condition on the rows of a query. -/
inductive Filter
  | compare (left : Operand) (op : CompareOp) (right : Operand)
  | isIn (operand : Operand) (items : List Operand) (negated : Bool)
  | isNull (operand : Operand) (negated : Bool)
  | and (left right : Filter)
  | or (left right : Filter)
  | not (inner : Filter)
  deriving DecidableEq, Repr

namespace Filter

/-- Joins conditions from the left; none if there is nothing to join. -/
def joinAll (join : Filter → Filter → Filter) : List Filter → Option Filter
  | [] => none
  | f :: fs => some (fs.foldl join f)

/-- The conjunction of all conditions, leaning to the left. -/
def all? (fs : List Filter) : Option Filter :=
  joinAll .and fs

/-- The disjunction of all conditions, leaning to the left. -/
def any? (fs : List Filter) : Option Filter :=
  joinAll .or fs

/-- Negates `n` times. -/
def negate : Nat → Filter → Filter
  | 0, f => f
  | n + 1, f => .not (negate n f)

end Filter

end QueryTemplate
