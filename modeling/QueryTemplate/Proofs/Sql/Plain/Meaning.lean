import QueryTemplate.Proofs.Sql.Plain.Following
import QueryTemplate.Text.Basic

/-!
# What the rules say of the readers

A rule of the grammar is right if the readers take what it makes up and give its normal form, in front of
anything that may follow it. What that means depends on the kind: an expression is read at its level, a
list as its things, a clause as a part of what it stands in.
-/

namespace QueryTemplate.Sql

open Reader Running

/-! ## Texts -/

/-- Parts of a text that follow others, each with a blank in front. -/
def trailing : List String → String
  | [] => ""
  | p :: ps => " " ++ (p ++ trailing ps)

namespace Running

@[scoped simp] theorem trailing_nil : trailing [] = "" :=
  rfl

@[scoped simp] theorem trailing_cons (p : String) (ps : List String) :
    trailing (p :: ps) = " " ++ (p ++ trailing ps) :=
  rfl

@[scoped simp] theorem trailing_append (ps qs : List String) : trailing (ps ++ qs) = trailing ps ++ trailing qs := by
  induction ps with
  | nil => rw [trailing, String.empty_append, List.nil_append]
  | cons p ps ih => rw [List.cons_append, trailing, trailing, ih, String.append_assoc, String.append_assoc]

@[scoped simp] theorem spaced_cons (p : String) (ps : List String) : spaced (p :: ps) = p ++ trailing ps := by
  induction ps generalizing p with
  | nil => rw [spaced, String.intercalate_singleton, trailing, String.append_empty]
  | cons q qs ih =>
    have hrest : " ".intercalate (q :: qs) = q ++ trailing qs := ih q
    rw [spaced, String.intercalate_cons_cons, hrest, trailing, String.append_assoc]

@[scoped simp] theorem parenthesized_eq (x : String) : parenthesized x = "(" ++ (x ++ ")") :=
  String.append_assoc

@[scoped simp] theorem comma_append (x : String) : "," ++ (" " ++ x) = ", " ++ x :=
  String.append_assoc.symm

@[scoped simp] theorem parentheses_append (x : String) : "(" ++ (")" ++ x) = "()" ++ x :=
  String.append_assoc.symm

end Running

/-- Joined texts, of which the first is split off. -/
theorem intercalate_cons (sep first : String) {more : List String} (h : more ≠ []) :
    sep.intercalate (first :: more) = first ++ (sep ++ sep.intercalate more) := by
  obtain ⟨second, more, rfl⟩ := List.exists_cons_of_ne_nil h
  rw [String.intercalate_cons_cons, String.append_assoc]

/-! ## The front of an expression -/

/-- The keywords that a reader looks for in front of an expression. -/
def Keyword.marks : List Keyword :=
  [.ALL, .ANY, .BOTH, .CUBE, .DISTINCT, .GROUPING, .LEADING, .ON, .ROLLUP, .SELECT, .SOME, .TOP, .TRAILING, .WHEN, .WITH]

/-- The tokens do not start as what a reader looks for before it reads an expression. -/
structure Heads (ts : List Token) : Prop where
  closing : ∀ rest, startsWith .closing (ts ++ rest) = false
  period : ∀ rest, startsWith .period (ts ++ rest) = false
  keyword_ne : ∀ {k}, k ∈ Keyword.marks → ∀ rest, keyword? (ts ++ rest) ≠ some k

/-- The tokens are no star, and not the star of a table. -/
def Starless (ts : List Token) : Prop :=
  ∀ rest, startsWith .period rest = false → star (ts ++ rest) = .error .malformed

/-- What is known of the front of an expression, and of its normal form. -/
structure Fronts (s : Start) (ts : List Token) (x : String) : Prop where
  heads : Heads ts
  starless : Starless ts
  positive : s = .positive → ∀ rest, keyword? (ts ++ rest) ≠ some .EXISTS
  ne_from : Text.lower x ≠ "from"

/-! ## Meanings -/

/-- In front of what may stop it, the reader gives something that is written as the text. -/
def Yields {α : Type} (r : Reader α) (write : α → String) (stop : List Token → Prop) (ts : List Token)
    (x : String) : Prop :=
  ∃ a, write a = x ∧ ∀ rest, stop rest → r (ts ++ rest) = .ok (a, rest)

/-- The same for a reader that takes no more steps than a bound, if that is more than there are tokens. -/
def YieldsWithin {α : Type} (r : Nat → Reader α) (write : α → String) (stop : List Token → Prop)
    (ts : List Token) (x : String) : Prop :=
  ∃ a, write a = x ∧ ∀ N, ts.length < N → ∀ rest, stop rest → r N (ts ++ rest) = .ok (a, rest)

structure IsExpr (n l e : Nat) (s : Start) (ts : List Token) (x : String) : Prop where
  fronts : Fronts s ts x
  reads : ∀ rest, Follows e rest → (level n).expr l (ts ++ rest) = .ok (x, rest)

structure IsOperand (n e : Nat) (s : Start) (ts : List Token) (x : String) : Prop where
  fronts : Fronts s ts x
  reads : ∀ rest, Follows e rest → ∀ N, ts.length < N →
    operandAtMost (level n) N (ts ++ rest) = .ok (x, rest)

structure IsOperations (n l m e : Nat) (ts : List Token) (x : String) : Prop where
  follows : ∀ rest, Follows e rest → Follows m (ts ++ rest)
  period : ∀ rest, startsWith .period rest = false → startsWith .period (ts ++ rest) = false
  ne_from : ∀ left, Text.lower left ≠ "from" → Text.lower (left ++ x) ≠ "from"
  reads : ∀ rest, Follows e rest → ∀ N, ts.length ≤ N → ∀ left,
    operationsAtMost (level n) l N left (ts ++ rest) = .ok (left ++ x, rest)

/-- The tokens of the further parts of a qualified name. -/
def pathTokens (parts : List (Ident × Option Keyword)) : List Token :=
  parts.flatMap fun p => [.symbol .period, .word p.1 p.2]

/-- The further parts of a qualified name, and what they add to the name. -/
structure IsPath (ts : List Token) (x : String) : Prop where
  text : x = "" ∨ ∃ y, x = "." ++ y
  reads : ∃ parts, ts = pathTokens parts
    ∧ ∀ name : Ident, writtenPath (name :: parts.map Prod.fst) = name.written ++ x

/-- Things with commas between them, of which there are no more than a bound if that is more than the tokens. -/
def AreListed {α : Type} (r : Reader α) (stop : List Token → Prop) (ts : List Token) (vs : List α) : Prop :=
  ∀ N, ts.length < N → ∀ rest, stop rest → startsWith .comma rest = false →
    listAtMost r N (ts ++ rest) = .ok (vs, rest)

def IsList {α : Type} (r : Reader α) (write : α → String) (stop : List Token → Prop) (ts : List Token)
    (x : String) : Prop :=
  ∃ vs, vs ≠ [] ∧ listed (vs.map write) = x ∧ AreListed r stop ts vs

/-- Where something may follow that comes no earlier than the tokens do, it may still follow with them in
front. -/
def Lets (e : Nat) (ts : List Token) : Prop :=
  ∀ f rest, e ≤ f → Follows f rest → Follows f (ts ++ rest)

/-- An optional part of a query. -/
def IsPart {α : Type} (r : Reader α) (write : α → List String) (e : Nat) (stop : List Token → Prop)
    (ts : List Token) (x : String) : Prop :=
  Lets e ts ∧ Yields r (fun a => trailing (write a)) stop ts x

/-- A keyword and an expression, or nothing. -/
def IsClause (n : Nat) (k : Keyword) (ts : List Token) (x : String) : Prop :=
  ts = [] ∧ x = "" ∨ ∃ s us y, ts = .word ⟨s, none⟩ (some k) :: us
    ∧ Keyword.ofCapitals? (Keyword.inCapitals s) = some k
    ∧ x = " " ++ (k.spelling ++ (" " ++ y)) ∧ IsExpr n 0 soft .free us y

/-- The first branch is read after the word in front of it. -/
def IsBranches (n : Nat) (ts : List Token) (x : String) : Prop :=
  ∃ s us, ts = .word ⟨s, none⟩ (some .WHEN) :: us
    ∧ Keyword.ofCapitals? (Keyword.inCapitals s) = some .WHEN
    ∧ YieldsWithin (branchesAtMost (level n)) trailing
      (fun rest => Follows soft rest ∧ keyword? rest ≠ some .WHEN) us x

/-- What an `OVER` in parentheses says. -/
def partition (b : Below) : Reader String := do
  let partition ← after [.PARTITION, .BY] (list b.anyExpr)
  let order ← orderTerms b
  return spaced (clause "PARTITION BY" (partition.map listed)
    ++ clause "ORDER BY" (if order.isEmpty then none else some (listed order)))

/-- The part of a text that says how something is ordered. -/
def orderText (terms : List String) : List String :=
  clause "ORDER BY" (if terms.isEmpty then none else some (listed terms))

/-- How many rows a query gives and skips, which it may say in two steps. -/
def pages (b : Below) : Reader Page := do
  pageStep b (← pageStep b ⟨none, none⟩)

def Page.parts (p : Page) : List String :=
  clause "LIMIT" p.limit ++ clause "OFFSET" p.offset

/-- The part of a text that says where rows come from. -/
def sourcesText (sources : Option (List Source)) : List String :=
  let sources := sources.getD []
  clause "FROM" (if sources.isEmpty then none else some (listed (sources.map Source.written)))

/-- The word that starts a query. -/
def StartsSelect (ts : List Token) : Prop :=
  ∃ s us, ts = .word ⟨s, none⟩ (some .SELECT) :: us

/-- The set operations that bind tighter than the others, or the others. -/
def setOperators (inner : Bool) : List (Keyword × SetOperator) :=
  if inner then [(.INTERSECT, .intersect)] else [(.UNION, .union), (.EXCEPT, .except)]

/-- What stands between set operations. -/
def operandBody (b : Below) (inner : Bool) : Reader Body :=
  if inner then simpleBody b else combinations (setOperators true) (simpleBody b)

/-- The level of what may follow set operations. -/
def combinationLevel (inner : Bool) : Nat :=
  if inner then 3 else 2

structure IsCombinations (n : Nat) (inner : Bool) (ts : List Token) (x : String) : Prop where
  lets : Lets (combinationLevel inner + 1) ts
  reads : ∀ left : Body, ∃ b : Body, b.written = left.written ++ x ∧ ∀ N, ts.length ≤ N →
    ∀ rest, Follows (combinationLevel inner) rest →
      combinationsAtMost (setOperators inner) (operandBody (level n) inner) N left (ts ++ rest) = .ok (b, rest)

/-- What may stand behind a table. -/
structure FollowsTable (e : Nat) (rest : List Token) : Prop where
  follows : Follows e rest
  ne_from : keyword? rest ≠ some .FROM

/-- A table that is read with as many parentheses as there are tokens. A named one starts with a word. -/
structure IsTable (n : Nat) (named : Bool) (ts : List Token) (x : String) : Prop where
  named : named = true → ∃ name k us, ts = .word name k :: us ∧ ∀ k' ∈ Keyword.noTables, k ≠ some k'
  reads : ∃ t : Table, t.written = x ∧ ∀ N, ts.length < N → ∀ rest, FollowsTable 11 rest →
    tableAtMost (level n) N (ts ++ rest) = .ok (t, rest)

/-- A reader that reads tables of at most so many tokens. -/
def ReadsTables (n : Nat) (r : Reader Table) (length : Nat) : Prop :=
  ∀ ts rest t, ts.length ≤ length →
    (∀ N, ts.length < N → tableAtMost (level n) N (ts ++ rest) = .ok (t, rest)) →
      r (ts ++ rest) = .ok (t, rest)

/-- A join, whatever reads the table of it. -/
structure IsJoin (n : Nat) (ts : List Token) (x : String) : Prop where
  starts : ∀ e rest, 10 ≤ e → FollowsTable e (ts ++ rest)
  reads : ∀ r, ReadsTables n r ts.length → ∀ rest, FollowsTable 10 rest →
    join (level n) r (ts ++ rest) = .ok (some x, rest)

/-- Joins, whatever reads the tables of them. -/
structure AreJoins (n : Nat) (ts : List Token) (js : List String) : Prop where
  lets : ∀ e rest, 10 ≤ e → FollowsTable e rest → FollowsTable e (ts ++ rest)
  reads : ∀ r, ReadsTables n r ts.length → ∀ N, ts.length ≤ N → ∀ rest, FollowsTable 9 rest →
    joinsAtMost (level n) r N (ts ++ rest) = .ok (js, rest)

def IsJoins (n : Nat) (ts : List Token) (x : String) : Prop :=
  ∃ js, trailing js = x ∧ AreJoins n ts js

/-! ## Clauses -/

namespace IsClause

variable {n : Nat} {k : Keyword} {ts : List Token} {x : String}

theorem lets (h : IsClause n k ts x) (hk : k.ends k.grip = true) : Lets k.grip ts := by
  intro f rest hf hrest
  obtain ⟨rfl, -⟩ | ⟨s, us, y, rfl, hs, -⟩ := h
  · exact hrest
  · exact (follows_keyword hs hk (us ++ rest)).mono hf

theorem keyword?_ne (h : IsClause n k ts x) {l : Keyword} {rest : List Token}
    (hrest : keyword? rest ≠ some l) (hk : k ≠ l) : keyword? (ts ++ rest) ≠ some l := by
  obtain ⟨rfl, -⟩ | ⟨s, us, y, rfl, -⟩ := h
  · exact hrest
  · simpa using hk

theorem reads (h : IsClause n k ts x) :
    Yields (after [k] ((level n).expr 0)) (fun y => trailing (clause k.spelling y))
      (fun rest => Follows soft rest ∧ keyword? rest ≠ some k) ts x := by
  obtain ⟨rfl, rfl⟩ | ⟨s, us, y, rfl, -, rfl, hus⟩ := h
  · refine ⟨none, rfl, fun rest hrest => ?_⟩
    simp [hrest.2]
  · refine ⟨some y, by simp [clause], fun rest hrest => ?_⟩
    simp [hus.reads, hrest.1]

end IsClause

/-- No further arguments of a call follow, and no words that no reader takes behind them. -/
structure EndsArguments (rest : List Token) : Prop where
  opening : startsWith .opening rest = false
  tail : (keyword? rest).any Keyword.callTails.contains = false

theorem Follows.endsArguments {e : Nat} {rest : List Token} (h : Follows e rest) : EndsArguments rest :=
  ⟨h.startsWith_opening, h.keyword?_callTails⟩

/-- What the readers make of something of a kind. -/
def Means : Kind → List Token → String → Prop
  | .expr n l e s => IsExpr n l e s
  | .operand n e s => IsOperand n e s
  | .operations n l m e => IsOperations n l m e
  | .path => IsPath
  | .name => Yields ident Ident.written fun _ => True
  | .dataType => Yields dataType id (Follows anything)
  | .list (.expr n l e _) => fun ts x => Heads ts ∧ (9 ≤ e → IsList ((level n).expr l) id (Follows e) ts x)
  | .list (.argument n) => fun ts x => Heads ts ∧ IsList (argument (level n)) id (Follows soft) ts x
  | .list (.orderTerm n) => IsList (orderTerm (level n)) id (Follows 9)
  | .list (.item n) => fun ts x => Heads ts ∧ IsList (selectItem (level n)) SelectItem.written (Follows 9) ts x
  | .list (.groupItem n) => fun ts x => Heads ts ∧ IsList (groupItem (level n)) id (Follows soft) ts x
  | .list (.source n) => IsList (source (level n)) Source.written (FollowsTable 9)
  | .list .name => IsList ident Ident.written fun _ => True
  | .list _ => fun _ _ => True
  | .argument n => fun ts x => Heads ts ∧ Yields (argument (level n)) id (Follows soft) ts x
  | .window n => fun ts x => (∀ e rest, Follows e rest → EndsArguments (ts ++ rest))
      ∧ (∀ rest, startsWith .period rest = false → startsWith .period (ts ++ rest) = false)
      ∧ ∀ e, Yields (window (level n)) trailing (Follows e) ts x
  | .partition n => Yields (partition (level n)) id fun rest => startsWith .closing rest = true
  | .clause n k => IsClause n k
  | .branches n => IsBranches n
  | .orderTerm n => Yields (orderTerm (level n)) id (Follows 9)
  | .order n => IsPart (orderTerms (level n)) orderText 2 (Follows 1)
  | .query n => fun ts x => StartsSelect ts ∧ Yields (level n).query Query.written (Follows 0) ts x
  | .body n => fun ts x => StartsSelect ts ∧ Yields (body (level n)) Body.written (Follows 2) ts x
  | .intersections n => fun ts x => StartsSelect ts ∧ Yields (operandBody (level n) false) Body.written (Follows 3) ts x
  | .combinations n inner => IsCombinations n inner
  | .select n => fun ts x => StartsSelect ts ∧ Yields (operandBody (level n) true) Body.written (Follows 4) ts x
  | .item n => fun ts x => Heads ts ∧ Yields (selectItem (level n)) SelectItem.written (Follows 9) ts x
  | .tables n => IsPart (after [.FROM] (list (source (level n)))) sourcesText 8 (Follows 7)
  | .groupItem n => fun ts x => Heads ts ∧ Yields (groupItem (level n)) id (Follows soft) ts x
  | .groups n => IsPart (groupClause (level n)) (clause "GROUP BY") 6 (Follows 5)
  | .pages n => IsPart (pages (level n)) Page.parts 1 (Follows 0)
  | .source n => Yields (source (level n)) Source.written (FollowsTable 9)
  | .joins n => IsJoins n
  | .join n => IsJoin n
  | .joinCondition n => fun ts x => (∀ e rest, 11 ≤ e → FollowsTable e rest → FollowsTable e (ts ++ rest))
      ∧ Yields (joinCondition (level n)) id (FollowsTable 10) ts x
  | .table n named => IsTable n named
  | .label => fun ts x => (∀ rest, Follows 11 rest → startsWith .period (ts ++ rest) = false
      ∧ startsWith .opening (ts ++ rest) = false)
      ∧ Yields tableAlias (fun label => trailing (clause "AS" label)) (FollowsTable 11) ts x

end QueryTemplate.Sql
