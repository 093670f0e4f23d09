import QueryTemplate.Bindings
import QueryTemplate.Filter.Parse
import QueryTemplate.SortKey

/-!
# Criteria

One request against a definition: which columns, which rows, in which order and how many. Criteria
are built up in steps, each of which gives new criteria and leaves the old ones as they are.
-/

namespace QueryTemplate

/-- A condition, as a tree or as filter text that is read when the request is compiled. -/
inductive Condition
  | filter (f : Filter)
  | text (t : String)
  deriving DecidableEq, Repr

/-- One request. No columns stand for all of them; all conditions have to hold. -/
structure Criteria where
  columns : List String := []
  conditions : List Condition := []
  sorts : List SortKey := []
  offset : UInt64 := 0
  limit : UInt64 := 50
  count : Bool := false
  params : Bindings := .empty
  deriving DecidableEq, Repr

namespace Criteria

/-- A parameter name without the colons in front. -/
def paramName (name : String) : String :=
  String.ofList (name.toList.dropWhile (· = ':'))

/-- The value bound to a name, which is taken as it is. -/
def param? (c : Criteria) (name : String) : Option Value :=
  c.params.get? name

/-- A change of criteria. -/
inductive Step
  /-- Starts afresh, with every column. -/
  | selectAll
  /-- Starts afresh, with the given columns. -/
  | select (columns : List String)
  /-- Starts afresh, with the number of rows instead of rows. -/
  | selectCount
  | addSelect (columns : List String)
  | whereFilter (f : Filter)
  | whereText (text : String)
  | orderBy (sort : SortKey)
  | orderByText (text : String)
  | offset (n : UInt64)
  | limit (n : UInt64)
  | limitOffset (limit offset : UInt64)
  | count
  | setParam (name : String) (v : Value)
  deriving DecidableEq, Repr

/-- The criteria with a limit, which is at least one. -/
def withLimit (c : Criteria) (n : UInt64) : Except Error Criteria :=
  if n = 0 then .error .zeroLimit else .ok { c with limit := n }

/-- The criteria after a step. -/
def apply (c : Criteria) : Step → Except Error Criteria
  | .selectAll => .ok {}
  | .select columns => .ok { columns := columns }
  | .selectCount => .ok { count := true }
  | .addSelect columns => .ok { c with columns := c.columns ++ columns }
  | .whereFilter f => .ok { c with conditions := c.conditions ++ [.filter f] }
  | .whereText text => .ok { c with conditions := c.conditions ++ [.text text] }
  | .orderBy sort => .ok { c with sorts := c.sorts ++ [sort] }
  | .orderByText text =>
    match SortKey.parse text with
    | .ok sorts => .ok { c with sorts := c.sorts ++ sorts }
    | .error e => .error (.text e)
  | .offset n => .ok { c with offset := n }
  | .limit n => c.withLimit n
  | .limitOffset limit offset => (c.withLimit limit).map fun c => { c with offset := offset }
  | .count => .ok { c with count := true }
  | .setParam name v => .ok { c with params := c.params.insert (paramName name) v }

/-- The criteria after all steps, or the first error with the number of its step. -/
def applyAll (c : Criteria) : List Step → Except (Nat × Error) Criteria
  | [] => .ok c
  | s :: rest =>
    match c.apply s with
    | .error e => .error (0, e)
    | .ok c =>
      match c.applyAll rest with
      | .error (n, e) => .error (n + 1, e)
      | .ok c => .ok c

end Criteria

/-! ## Equality of requests -/

/-- Equality of operands with values compared as a program sees them. -/
def Operand.same : Operand → Operand → Bool
  | .literal v, .literal w => v.same w
  | .param m, .param n => m = n
  | .field a, .field b => a = b
  | _, _ => false

/-- Equality of lists of operands. -/
def Operand.sameList : List Operand → List Operand → Bool
  | [], [] => true
  | o :: os, p :: ps => o.same p && sameList os ps
  | _, _ => false

/-- Equality of filters with values compared as a program sees them. -/
def Filter.same : Filter → Filter → Bool
  | .compare l o r, .compare l' o' r' => l.same l' && o = o' && r.same r'
  | .isIn o os n, .isIn o' os' n' => o.same o' && Operand.sameList os os' && n = n'
  | .isNull o n, .isNull o' n' => o.same o' && n = n'
  | .and l r, .and l' r' => l.same l' && r.same r'
  | .or l r, .or l' r' => l.same l' && r.same r'
  | .not f, .not f' => f.same f'
  | _, _ => false

/-- Equality of conditions: trees with trees, texts with texts. -/
def Condition.sameList : List Condition → List Condition → Bool
  | [], [] => true
  | .filter f :: cs, .filter g :: ds => f.same g && sameList cs ds
  | .text s :: cs, .text t :: ds => s = t && sameList cs ds
  | _, _ => false

/-- Equality of criteria with values compared as a program sees them. -/
def Criteria.same (a b : Criteria) : Bool :=
  a.columns = b.columns && Condition.sameList a.conditions b.conditions && a.sorts = b.sorts
    && a.offset = b.offset && a.limit = b.limit && a.count = b.count && a.params.same b.params

end QueryTemplate
