import QueryTemplate.Proofs.Sql.SelectList
import QueryTemplate.Sql.Query
import Mathlib.Data.List.Basic

/-!
# The grammar of plain templates

Which tokens make up an expression or a query, and which normal form is kept of them. A rule is a row of
pieces: tokens, blanks, and things that have rules themselves. So a rule says at once what is read and what
is written, and in what the two differ: a word may be missing where it is read, or dropped where it is
written.

What may follow an expression is part of what it is. A sum ends in front of a comparison and does not end in
front of a product, so an expression is given with the level up to which operators may follow it.

* **`Atom.Spells`**: single tokens and how they are written.
* **`Rule`**: the grammar.
* **`Derives`**: tokens and the normal form of them that the rules allow.
-/

namespace QueryTemplate.Sql

/-! ## Atoms -/

namespace Keyword

/-- How a keyword is written. -/
def spelling (k : Keyword) : String :=
  ((table.find? fun p => p.2 = k).map Prod.fst).getD ""

theorem mem_table {w : String} {k : Keyword} (h : ofCapitals? w = some k) : (w, k) ∈ table := by
  obtain ⟨front, back, htable, -⟩ := List.lookup_eq_some_iff.1 h
  rw [htable]
  exact List.mem_append_right _ List.mem_cons_self

/-- What is true of each row of the table of keywords is true of a word and the keyword that it is. -/
theorem of_table {P : String → Keyword → Bool} (hP : table.all (fun p => P p.1 p.2) = true)
    {w : String} {k : Keyword} (h : ofCapitals? w = some k) : P w k = true :=
  List.all_eq_true.1 hP _ (mem_table h)

/-- What a keyword is written as is the word in capitals. -/
theorem spelling_eq {w : String} {k : Keyword} (h : ofCapitals? w = some k) : k.spelling = w := by
  simpa using of_table (P := fun w k => k.spelling = w) (by decide +kernel) h

end Keyword

/-- The token is a keyword, in any mix of cases. -/
def Token.IsKeyword (t : Token) (k : Keyword) : Prop :=
  ∃ s, t = .word ⟨s, none⟩ (some k) ∧ Keyword.ofCapitals? (Keyword.inCapitals s) = some k

/-- A text that is read back from its quotation. One with a quote after a backslash is not, and neither is
one with three quotes in a row. -/
def Requoted (quote : Char) (s : String) : Prop :=
  readQuoted quote (escaped quote '\x00' s.toList ++ [quote]) = some (s.toList, [])

/-- What is said of the characters of a text is decided along the text, and not for every character there is. -/
instance (priority := 2000) decidableForallChar {P : Char → Prop} [DecidablePred P] (cs : List Char) :
    Decidable (∀ c ∈ cs, P c) :=
  List.decidableBAll P cs

instance (quote : Char) (s : String) : Decidable (Requoted quote s) :=
  inferInstanceAs (Decidable (_ = _))

/-- Names that are read back as they are written, with the keywords that they are. -/
inductive IsName : Ident → Option Keyword → Prop where
  | word {s : String} (h : IsPlainWord s.toList) :
      IsName ⟨s, none⟩ (Keyword.ofCapitals? (Keyword.inCapitals s))
  | quoted {s : String} {quote : Char} (hquote : quote = '"' ∨ quote = '`') (h : Requoted quote s) :
      IsName ⟨s, some quote⟩ none

def TypeShape.all : List TypeShape :=
  [.plain, .sized, .whole, .text, .character, .bits, .exact, .moment, .double]

/-- What a single token may be. -/
inductive Atom
  /-- A keyword. -/
  | keyword (k : Keyword)
  | symbol (s : Symbol)
  /-- A name that is none of the keywords, and a type of one of the shapes if it is a type at all. -/
  | name (keywords : List Keyword) (types : List TypeShape)
  /-- The name of a parameter. -/
  | parameter
  | number
  | text
  /-- A text without quotes, which is not quoted anew. -/
  | escape
  | placeholder
  /-- `TRUE`, `FALSE` and `NULL`. -/
  | constant
  /-- A keyword that stands for a value and stays as it is spelled. -/
  | moment
  /-- An operator that binds so tightly. -/
  | operator (level : Nat)
  /-- The first word of a type of one of the shapes. -/
  | type (shapes : List TypeShape)
  /-- The size of a type. -/
  | size
  /-- A field of dates and times. -/
  | dateField
  /-- The unit of an interval. -/
  | unit

/-- The signs of the symbols that are no operators between two operands. -/
@[simp] def Symbol.sign : Symbol → String
  | .opening => "("
  | .closing => ")"
  | .comma => ","
  | .period => "."
  | .colon => ":"
  | .doubleColon => "::"
  | .plus => "+"
  | .minus => "-"
  | .star => "*"
  | _ => ""

/-- The keywords that stand for a value and stay as they are spelled. -/
def Keyword.moments : List Keyword :=
  [.CURRENT_CATALOG, .CURRENT_USER, .SESSION_USER, .USER, .CURRENT_TIMESTAMP, .CURRENT_TIME,
   .CURRENT_DATE, .LOCALTIME, .LOCALTIMESTAMP]

/-- The keywords that a name in front of an expression cannot be spelled as. -/
def Keyword.reserved : List Keyword :=
  moments ++ [.ALL, .ANY, .ARRAY, .BOTH, .CASE, .CAST, .CEIL, .CONVERT, .CUBE, .DISTINCT, .EXISTS, .EXTRACT,
   .FALSE, .FLOOR, .FROM, .GROUPING, .INTERVAL, .LEADING, .NOT, .NULL, .ON, .POSITION, .ROLLUP, .SAFE_CAST,
   .SELECT, .SOME, .STRUCT, .SUBSTRING, .TOP, .TRAILING, .TRIM, .TRUE, .TRY_CAST, .TRY_CONVERT, .WHEN, .WITH]

/-- The keywords that the name of a table cannot be spelled as. -/
def Keyword.noTables : List Keyword :=
  [.JSON_TABLE, .LATERAL, .OPENJSON, .SELECT, .TABLE, .UNNEST, .VALUES, .WITH]

/-- The keywords that would go on with an expression where they stand behind one. -/
def Keyword.binding : List Keyword :=
  [.AND, .BETWEEN, .COLLATE, .DIV, .ESCAPE, .FILTER, .IGNORE, .ILIKE, .IN, .IS, .LIKE, .NOT, .OPERATOR, .OR,
   .OVER, .OVERLAPS, .PRECISION, .REGEXP, .RESPECT, .RLIKE, .ROW, .ROWS, .SIMILAR, .TO, .UNSIGNED, .VARYING,
   .WITH, .WITHIN, .WITHOUT, .XOR]

/-- `a.Spells t x`: the token `t` is written as `x`. -/
def Atom.Spells : Atom → Token → String → Prop
  | .keyword k, t, x => t.IsKeyword k ∧ x = k.spelling
  | .symbol s, t, x => t = .symbol s ∧ x = s.sign
  | .name keywords types, t, x => ∃ name k, IsName name k ∧ t = .word name k ∧ x = name.written
      ∧ (∀ k' ∈ keywords, k ≠ some k') ∧ ∀ w shape, t.knownType? = some (w, shape) → shape ∈ types
  | .parameter, t, x => IsPlainWord x.toList ∧ t = .ofWord x.toList
  | .number, t, x => t.number? = some x ∧ readNumber x.toList = (t, [])
      ∧ ∃ c cs, x.toList = c :: cs ∧ (c.isDigit = true ∨ c = '.')
  | .text, t, x => ∃ s, t = .text s ∧ x = quoted '\'' s ∧ Requoted '\'' s
  | .escape, t, x => ∃ s, t = .text s ∧ x = "'" ++ s ++ "'" ∧ '\'' ∉ s.toList
  | .placeholder, t, x => t = .placeholder x ∧ ∃ cs, x.toList = '?' :: cs ∧ cs.all Text.isNumeric = true
  | .constant, t, x => t.IsKeyword .TRUE ∧ x = "true" ∨ t.IsKeyword .FALSE ∧ x = "false"
      ∨ t.IsKeyword .NULL ∧ x = "NULL"
  | .moment, t, x => IsPlainWord x.toList ∧ t = .ofWord x.toList ∧ ∃ k ∈ Keyword.moments, t.IsKeyword k
  | .operator level, t, x => t.operator? = some (level, x)
  | .type shapes, t, x => x ≠ "INTERVAL" ∧ (∃ w, t = .ofWord w)
      ∧ ∃ shape ∈ shapes, t.knownType? = some (x, shape)
  | .size, t, x => t.count?.map toString = some x
  | .dateField, t, x => x ∈ dateFields ∧ t.capitals? = some x
  | .unit, t, x => x ∈ intervalUnits ∧ t.capitals? = some x

/-! ## Rules -/

/-- With what an operand may start. -/
inductive Start
  | free
  /-- With no minus sign. -/
  | unsigned
  /-- Not with `EXISTS`. -/
  | positive
  deriving DecidableEq

/-- The level of what may follow an expression that ends with anything but an operator. -/
def soft : Nat := 14

/-- The level of what may follow an expression that a bare alias may follow. -/
def aliased : Nat := 15

/-- The level of anything that may follow an expression. -/
def anything : Nat := 300

/-- The things that there are rules for. Where it matters, `depth` is how many levels may nest in it. -/
inductive Kind
  /-- An expression whose operators bind tighter than `level`, in front of something up to `follow`. -/
  | expr (depth level follow : Nat) (start : Start)
  | operand (depth follow : Nat) (start : Start)
  /-- The operators after an operand or another operator in front of which something up to `before` may
  stand. -/
  | operations (depth level before follow : Nat)
  /-- The further parts of a qualified name. -/
  | path
  | name
  | dataType
  /-- One thing or more of a kind, with commas between them. -/
  | list (k : Kind)
  | argument (depth : Nat)
  /-- The window of a call, or nothing. -/
  | window (depth : Nat)
  | partition (depth : Nat)
  /-- A keyword and an expression, or nothing. -/
  | clause (depth : Nat) (k : Keyword)
  /-- The branches of a case. -/
  | branches (depth : Nat)
  | orderTerm (depth : Nat)
  /-- The `ORDER BY` clause, or nothing. -/
  | order (depth : Nat)
  | query (depth : Nat)
  | body (depth : Nat)
  /-- Bodies with intersections between them. -/
  | intersections (depth : Nat)
  /-- The set operations after a body, which are intersections or the others. -/
  | combinations (depth : Nat) (inner : Bool)
  | select (depth : Nat)
  | item (depth : Nat)
  | tables (depth : Nat)
  | groups (depth : Nat)
  | groupItem (depth : Nat)
  | pages (depth : Nat)
  /-- A table and the tables joined to it. -/
  | source (depth : Nat)
  | joins (depth : Nat)
  | join (depth : Nat)
  | joinCondition (depth : Nat)
  | table (depth : Nat) (named : Bool)
  /-- The alias of a table, or nothing. -/
  | label

/-- Something of the kind is never nothing. -/
def Kind.solid : Kind → Bool
  | .operations .. | .path | .window _ | .partition _ | .clause .. | .order _ | .combinations .. | .tables _
  | .groups _ | .pages _ | .joins _ | .joinCondition _ | .label => false
  | .list k => k.solid
  | _ => true

/-- The pieces of a rule. -/
inductive RulePiece
  | atom (a : Atom)
  /-- A keyword that is written, whether it was there or not. -/
  | optional (k : Keyword)
  /-- A keyword that is not written, whether it was there or not. -/
  | ghost (k : Keyword)
  | blank
  | sub (k : Kind)

namespace RulePiece

abbrev key (k : Keyword) : RulePiece := .atom (.keyword k)

abbrev sym (s : Symbol) : RulePiece := .atom (.symbol s)

/-- Any expression, in front of anything but an operator. -/
abbrev any (depth : Nat) : RulePiece := .sub (.expr depth 0 soft .free)

/-- Keywords, with a blank in front of each. -/
def keys (ks : List Keyword) : List RulePiece :=
  ks.flatMap fun k => [blank, key k]

end RulePiece

open RulePiece

/-- The keyword of a negation, if there is one. -/
def negation (negated : Bool) : List Keyword :=
  if negated then [.NOT] else []

/-- `Rule k ps`: the pieces `ps` make up something of the kind `k`. -/
inductive Rule : Kind → List RulePiece → Prop where
  | expr {n l m e : Nat} {s : Start} :
      Rule (.expr (n + 1) l e s) [sub (.operand n m s), sub (.operations n l m e)]
  -- Operands
  | literal {n e : Nat} {s : Start} {a : Atom} (ha : a = .number ∨ a = .text ∨ a = .placeholder) :
      Rule (.operand n e s) [atom a]
  | constant {n e : Nat} {s : Start} : Rule (.operand n e s) [atom .constant]
  | moment {n e : Nat} {s : Start} : Rule (.operand n e s) [atom .moment]
  | parameter {n e : Nat} {s : Start} : Rule (.operand n e s) [sym .colon, atom .parameter]
  | column {n e : Nat} {s : Start} (he : e < aliased) :
      Rule (.operand n e s) [atom (.name Keyword.reserved TypeShape.all), sub .path]
  | untyped {n e : Nat} {s : Start} :
      Rule (.operand n e s) [atom (.name (Keyword.reserved ++ Keyword.otherTypes) []), sub .path]
  | typedText {n e : Nat} {s : Start} : Rule (.operand n e s) [atom (.type TypeShape.all), blank, atom .text]
  | interval {n e : Nat} {s : Start} {a : Atom} (ha : a = .number ∨ a = .text) :
      Rule (.operand n e s) [key .INTERVAL, blank, atom a, blank, atom .unit]
  | intervalText {n e : Nat} {s : Start} (he : e < aliased) :
      Rule (.operand n e s) [key .INTERVAL, blank, atom .text]
  | minus {n e : Nat} {s : Start} (hs : s ≠ .unsigned) :
      Rule (.operand n e s) [sym .minus, sub (.expr n signLevel e .unsigned)]
  | plus {n e : Nat} {s : Start} : Rule (.operand n e s) [sym .plus, sub (.expr n signLevel e .free)]
  | not {n e : Nat} {s : Start} :
      Rule (.operand n e s) [key .NOT, blank, sub (.expr n notLevel e .positive)]
  | notExists {n e : Nat} {s : Start} :
      Rule (.operand n e s)
        [key .NOT, blank, key .EXISTS, blank, sym .opening, sub (.query n), sym .closing]
  | exists {n e : Nat} {s : Start} (hs : s ≠ .positive) :
      Rule (.operand n e s) [key .EXISTS, blank, sym .opening, sub (.query n), sym .closing]
  | group {n e : Nat} {s : Start} :
      Rule (.operand n e s) [sym .opening, sub (.list (.expr n 0 soft .free)), sym .closing]
  | subquery {n e : Nat} {s : Start} :
      Rule (.operand n e s) [sym .opening, sub (.query n), sym .closing]
  | call {n e : Nat} {s : Start} :
      Rule (.operand n e s) [atom (.name (Keyword.reserved ++ Keyword.otherTypes) [.plain]), sub .path, sym .opening,
        sub (.list (.argument n)), sym .closing, sub (.window n)]
  | callOver {n e : Nat} {s : Start} {k : Keyword} (hk : k = .ALL ∨ k = .DISTINCT) :
      Rule (.operand n e s) [atom (.name (Keyword.reserved ++ Keyword.otherTypes) [.plain]), sub .path, sym .opening, key k, blank,
        sub (.list (.argument n)), sym .closing, sub (.window n)]
  | callEmpty {n e : Nat} {s : Start} :
      Rule (.operand n e s) [atom (.name (Keyword.reserved ++ Keyword.otherTypes) [.plain]), sub .path, sym .opening, sym .closing,
        sub (.window n)]
  | case {n e : Nat} {s : Start} :
      Rule (.operand n e s) [key .CASE, sub (.branches n), sub (.clause n .ELSE), blank, key .END]
  | caseOf {n e : Nat} {s : Start} :
      Rule (.operand n e s) [key .CASE, blank, any n, sub (.branches n), sub (.clause n .ELSE), blank,
        key .END]
  | cast {n e : Nat} {s : Start} {k : Keyword} (hk : k = .CAST ∨ k = .TRY_CAST ∨ k = .SAFE_CAST) :
      Rule (.operand n e s) [key k, sym .opening, any n, blank, key .AS, blank, sub .dataType,
        sym .closing]
  | extract {n e : Nat} {s : Start} :
      Rule (.operand n e s) [key .EXTRACT, sym .opening, atom .dateField, blank, key .FROM, blank, any n,
        sym .closing]
  | rounding {n e : Nat} {s : Start} {k : Keyword} (hk : k = .CEIL ∨ k = .FLOOR) :
      Rule (.operand n e s) [key k, sym .opening, any n, sym .closing]
  | position {n e : Nat} {s : Start} :
      Rule (.operand n e s) [key .POSITION, sym .opening, sub (.expr n 20 140 .free), blank, key .IN, blank,
        any n, sym .closing]
  | substring {n e : Nat} {s : Start} :
      Rule (.operand n e s) [key .SUBSTRING, sym .opening, any n, sub (.clause n .FROM),
        sub (.clause n .FOR), sym .closing]
  | substringList {n e : Nat} {s : Start} :
      Rule (.operand n e s) [key .SUBSTRING, sym .opening, any n, sym .comma, blank, any n, sym .comma,
        blank, any n, sym .closing]
  | trim {n e : Nat} {s : Start} : Rule (.operand n e s) [key .TRIM, sym .opening, any n, sym .closing]
  | trimFrom {n e : Nat} {s : Start} :
      Rule (.operand n e s) [key .TRIM, sym .opening, any n, blank, key .FROM, blank, any n, sym .closing]
  | trimSide {n e : Nat} {s : Start} {k : Keyword} (hk : k = .BOTH ∨ k = .LEADING ∨ k = .TRAILING) :
      Rule (.operand n e s) [key .TRIM, sym .opening, key k, blank, any n, blank, key .FROM, blank, any n,
        sym .closing]
  -- Operators
  | noOperation {n l m e : Nat} (hm : e ≤ m) (hl : e ≤ 101 + 2 * l) : Rule (.operations n l m e) []
  | binary {n l m e f level : Nat} (hm : 100 + 2 * level ≤ m) (hl : l < level) :
      Rule (.operations n l m e) [blank, atom (.operator level), blank, sub (.expr n level f .free),
        sub (.operations n l f e)]
  | typeCast {n l m e : Nat} (hm : 200 ≤ m) (hl : l < 50) :
      Rule (.operations n l m e) [sym .doubleColon, sub .dataType, sub (.operations n l anything e)]
  | isTest {n l m e : Nat} {negated : Bool} {k : Keyword}
      (hk : k = .NULL ∨ k = .TRUE ∨ k = .FALSE ∨ k = .UNKNOWN) (hm : 134 ≤ m) (hl : l < 17) :
      Rule (.operations n l m e)
        (keys (.IS :: negation negated ++ [k]) ++ [sub (.operations n l anything e)])
  | isDistinct {n l m e : Nat} {negated : Bool} (hm : 134 ≤ m) (hl : l < 17) :
      Rule (.operations n l m e) (keys (.IS :: negation negated ++ [.DISTINCT, .FROM])
        ++ [blank, any n, sub (.operations n l soft e)])
  | inList {n l m e : Nat} {negated : Bool} (hm : 140 ≤ m) (hl : l < 20) :
      Rule (.operations n l m e) (keys (negation negated ++ [.IN])
        ++ [blank, sym .opening, sub (.list (.expr n 0 soft .free)), sym .closing,
          sub (.operations n l anything e)])
  | inQuery {n l m e : Nat} {negated : Bool} (hm : 140 ≤ m) (hl : l < 20) :
      Rule (.operations n l m e) (keys (negation negated ++ [.IN])
        ++ [blank, sym .opening, sub (.query n), sym .closing, sub (.operations n l anything e)])
  | between {n l m e f : Nat} {negated : Bool} (hm : 140 ≤ m) (hl : l < 20) :
      Rule (.operations n l m e) (keys (negation negated ++ [.BETWEEN])
        ++ [blank, sub (.expr n 20 120 .free), blank, key .AND, blank, sub (.expr n 20 f .free),
          sub (.operations n l f e)])
  | like {n l m e f : Nat} {negated : Bool} {k : Keyword} (hk : k = .LIKE ∨ k = .ILIKE) (hf : f ≤ 138)
      (hm : 138 ≤ m) (hl : l < 19) :
      Rule (.operations n l m e) (keys (negation negated ++ [k])
        ++ [blank, sub (.expr n 19 f .free), sub (.operations n l f e)])
  | likeEscape {n l m e : Nat} {negated : Bool} {k : Keyword} (hk : k = .LIKE ∨ k = .ILIKE)
      (hm : 138 ≤ m) (hl : l < 19) :
      Rule (.operations n l m e) (keys (negation negated ++ [k])
        ++ [blank, sub (.expr n 19 139 .free), blank, key .ESCAPE, blank, atom .escape,
          sub (.operations n l anything e)])
  -- Parts of operands
  | pathEnd : Rule .path []
  | pathPart : Rule .path [sym .period, atom (.name [] TypeShape.all), sub .path]
  | name : Rule .name [atom (.name [] TypeShape.all)]
  | clauseNone {n : Nat} {k : Keyword} : Rule (.clause n k) []
  | clauseSome {n : Nat} {k : Keyword} : Rule (.clause n k) [blank, key k, blank, any n]
  | branch {n : Nat} :
      Rule (.branches n) [blank, key .WHEN, blank, any n, blank, key .THEN, blank, any n]
  | branches {n : Nat} :
      Rule (.branches n) [blank, key .WHEN, blank, any n, blank, key .THEN, blank, any n,
        sub (.branches n)]
  | one {k : Kind} (hk : k.solid = true) : Rule (.list k) [sub k]
  | more {k : Kind} (hk : k.solid = true) : Rule (.list k) [sub k, sym .comma, blank, sub (.list k)]
  | argument {n : Nat} : Rule (.argument n) [any n]
  | argumentStar {n : Nat} : Rule (.argument n) [sym .star]
  | argumentTable {n : Nat} : Rule (.argument n) [atom (.name Keyword.reserved TypeShape.all), sym .period, sym .star]
  | noWindow {n : Nat} : Rule (.window n) []
  | namedWindow {n : Nat} : Rule (.window n) [blank, key .OVER, blank, atom (.name [] TypeShape.all)]
  | window {n : Nat} :
      Rule (.window n) [blank, key .OVER, blank, sym .opening, sub (.partition n), sym .closing]
  | wholePartition {n : Nat} : Rule (.partition n) []
  | partition {n : Nat} :
      Rule (.partition n) [key .PARTITION, blank, key .BY, blank,
        sub (.list (.expr n 0 soft .free)), sub (.order n)]
  | orderedPartition {n : Nat} :
      Rule (.partition n) [key .ORDER, blank, key .BY, blank, sub (.list (.orderTerm n))]
  | orderTerm {n : Nat} {direction nulls : List Keyword}
      (hdirection : direction = [] ∨ direction = [.ASC] ∨ direction = [.DESC])
      (hnulls : nulls = [] ∨ nulls = [.NULLS, .FIRST] ∨ nulls = [.NULLS, .LAST]) :
      Rule (.orderTerm n) (any n :: keys (direction ++ nulls))
  | noOrder {n : Nat} : Rule (.order n) []
  | order {n : Nat} :
      Rule (.order n) [blank, key .ORDER, blank, key .BY, blank, sub (.list (.orderTerm n))]
  -- Types
  | type : Rule .dataType [atom (.type TypeShape.all)]
  | typeInterval : Rule .dataType [key .INTERVAL]
  | typeSized :
      Rule .dataType [atom (.type [.sized, .whole, .text, .character, .bits, .exact, .moment]), sym .opening,
        atom .size, sym .closing]
  | typeScaled :
      Rule .dataType [atom (.type [.exact]), sym .opening, atom .size, sym .comma, atom .size,
        sym .closing]
  | typeZone {k : Keyword} (hk : k = .WITH ∨ k = .WITHOUT) :
      Rule .dataType (atom (.type [.moment]) :: keys [k, .TIME, .ZONE])
  | typePrecision : Rule .dataType [atom (.type [.double]), blank, key .PRECISION]
  | typeUser : Rule .dataType [atom (.name Keyword.otherTypes []), sub .path]
  -- Queries
  | query {n : Nat} : Rule (.query (n + 1)) [sub (.body n), sub (.order n), sub (.pages n)]
  | noPages {n : Nat} : Rule (.pages n) []
  | limit {n : Nat} : Rule (.pages n) [blank, key .LIMIT, blank, any n]
  | offset {n : Nat} : Rule (.pages n) [blank, key .OFFSET, blank, any n]
  | limitOffset {n : Nat} :
      Rule (.pages n) [blank, key .LIMIT, blank, any n, blank, key .OFFSET, blank, any n]
  | body {n : Nat} : Rule (.body n) [sub (.intersections n), sub (.combinations n false)]
  | intersections {n : Nat} :
      Rule (.intersections n) [sub (.select n), sub (.combinations n true)]
  | noCombination {n : Nat} {inner : Bool} : Rule (.combinations n inner) []
  | intersection {n : Nat} {ks : List Keyword} (hks : ks = [] ∨ ks = [.ALL] ∨ ks = [.DISTINCT]) :
      Rule (.combinations n true) (keys (.INTERSECT :: ks)
        ++ [blank, sub (.select n), sub (.combinations n true)])
  | combination {n : Nat} {k : Keyword} {ks : List Keyword} (hk : k = .UNION ∨ k = .EXCEPT)
      (hks : ks = [] ∨ ks = [.ALL] ∨ ks = [.DISTINCT]) :
      Rule (.combinations n false) (keys (k :: ks)
        ++ [blank, sub (.intersections n), sub (.combinations n false)])
  | select {n : Nat} :
      Rule (.select n) [key .SELECT, ghost .ALL, blank, sub (.list (.item n)), sub (.tables n),
        sub (.clause n .WHERE), sub (.groups n), sub (.clause n .HAVING)]
  | selectDistinct {n : Nat} :
      Rule (.select n) [key .SELECT, blank, key .DISTINCT, blank, sub (.list (.item n)),
        sub (.tables n), sub (.clause n .WHERE), sub (.groups n), sub (.clause n .HAVING)]
  | item {n : Nat} : Rule (.item n) [any n]
  | itemStar {n : Nat} : Rule (.item n) [sym .star]
  | itemTable {n : Nat} : Rule (.item n) [atom (.name Keyword.reserved TypeShape.all), sym .period, sym .star]
  | itemLabel {n : Nat} :
      Rule (.item n) [sub (.expr n 0 aliased .free), blank, optional .AS, blank,
        atom (.name (.AS :: Keyword.columnReserved ++ Keyword.binding) TypeShape.all)]
  | itemAs {n : Nat} : Rule (.item n) [any n, blank, key .AS, blank, atom (.name [] TypeShape.all)]
  | tables {n : Nat} : Rule (.tables n) [blank, key .FROM, blank, sub (.list (.source n))]
  | noGroups {n : Nat} : Rule (.groups n) []
  | groups {n : Nat} :
      Rule (.groups n) [blank, key .GROUP, blank, key .BY, blank,
        sub (.list (.groupItem n))]
  | groupItem {n : Nat} : Rule (.groupItem n) [any n]
  -- Tables
  | source {n : Nat} : Rule (.source n) [sub (.table n false), sub (.joins n)]
  | noJoins {n : Nat} : Rule (.joins n) []
  | joins {n : Nat} : Rule (.joins n) [blank, sub (.join n), sub (.joins n)]
  | join {n : Nat} : Rule (.join n) [ghost .INNER, key .JOIN, blank, sub (.table n false),
      sub (.joinCondition n)]
  | sideJoin {n : Nat} {k : Keyword} (hk : k = .LEFT ∨ k = .RIGHT ∨ k = .FULL) :
      Rule (.join n) [key k, ghost .OUTER, blank, key .JOIN, blank, sub (.table n false),
        sub (.joinCondition n)]
  | naturalJoin {n : Nat} : Rule (.join n) [key .NATURAL, ghost .INNER, blank, key .JOIN, blank,
      sub (.table n false)]
  | naturalSideJoin {n : Nat} {k : Keyword} (hk : k = .LEFT ∨ k = .RIGHT ∨ k = .FULL) :
      Rule (.join n) [key .NATURAL, blank, key k, ghost .OUTER, blank, key .JOIN, blank,
        sub (.table n false)]
  | crossJoin {n : Nat} : Rule (.join n) [key .CROSS, blank, key .JOIN, blank, sub (.table n false)]
  | noCondition {n : Nat} : Rule (.joinCondition n) []
  | joinOn {n : Nat} : Rule (.joinCondition n) [blank, key .ON, blank, any n]
  | joinUsing {n : Nat} :
      Rule (.joinCondition n) [blank, key .USING, sym .opening, sub (.list .name), sym .closing]
  | table {n : Nat} {named : Bool} :
      Rule (.table n named) [atom (.name Keyword.noTables TypeShape.all), sub .path, sub .label]
  | tableCall {n : Nat} {named : Bool} :
      Rule (.table n named) [atom (.name Keyword.noTables TypeShape.all), sub .path, sym .opening,
        sub (.list (.argument n)), sym .closing, sub .label]
  | tableQuery {n : Nat} :
      Rule (.table n false) [sym .opening, sub (.query n), sym .closing, sub .label]
  | tableJoins {n : Nat} :
      Rule (.table (n + 1) false) [sym .opening, sub (.table (n + 1) true), blank, sub (.join (n + 1)),
        sub (.joins (n + 1)), sym .closing, sub .label]
  | noLabel : Rule .label []
  | label : Rule .label [blank, optional .AS, blank, atom (.name (.AS :: Keyword.tableReserved) TypeShape.all)]
  | labelAs : Rule .label [blank, key .AS, blank, atom (.name [] TypeShape.all)]

/-! ## Derivations -/

/-- `Derives ps ts x`: by the rules, the tokens `ts` make up the pieces `ps`, and are written as `x`. -/
inductive Derives : List RulePiece → List Token → String → Prop where
  | nil : Derives [] [] ""
  | atom {a : Atom} {t : Token} {x y : String} {ps : List RulePiece} {ts : List Token} (h : a.Spells t x)
      (rest : Derives ps ts y) : Derives (.atom a :: ps) (t :: ts) (x ++ y)
  | present {k : Keyword} {t : Token} {y : String} {ps : List RulePiece} {ts : List Token}
      (h : t.IsKeyword k) (rest : Derives ps ts y) :
      Derives (.optional k :: ps) (t :: ts) (k.spelling ++ y)
  | absent {k : Keyword} {y : String} {ps : List RulePiece} {ts : List Token} (rest : Derives ps ts y) :
      Derives (.optional k :: ps) ts (k.spelling ++ y)
  | dropped {k : Keyword} {t : Token} {y : String} {ps : List RulePiece} {ts : List Token}
      (h : t.IsKeyword k) (rest : Derives ps ts y) : Derives (.ghost k :: ps) (t :: ts) y
  | ghost {k : Keyword} {y : String} {ps : List RulePiece} {ts : List Token} (rest : Derives ps ts y) :
      Derives (.ghost k :: ps) ts y
  | blank {y : String} {ps : List RulePiece} {ts : List Token} (rest : Derives ps ts y) :
      Derives (.blank :: ps) ts (" " ++ y)
  | sub {k : Kind} {x y : String} {qs ps : List RulePiece} {us ts : List Token} (r : Rule k qs)
      (inner : Derives qs us x) (rest : Derives ps ts y) :
      Derives (.sub k :: ps) (us ++ ts) (x ++ y)

/-- `Each P ps Q`: where `P` is what is known of the things that have rules, `Q` is true of all tokens that
make up the pieces `ps`, with how they are written. -/
def Each (P : Kind → List Token → String → Prop) :
    List RulePiece → (List Token → String → Prop) → Prop
  | [], Q => Q [] ""
  | .atom a :: ps, Q => ∀ t x, a.Spells t x → Each P ps fun ts y => Q (t :: ts) (x ++ y)
  | .optional k :: ps, Q => (Each P ps fun ts y => Q ts (k.spelling ++ y))
      ∧ ∀ t : Token, t.IsKeyword k → Each P ps fun ts y => Q (t :: ts) (k.spelling ++ y)
  | .ghost k :: ps, Q => Each P ps Q
      ∧ ∀ t : Token, t.IsKeyword k → Each P ps fun ts y => Q (t :: ts) y
  | .blank :: ps, Q => Each P ps fun ts y => Q ts (" " ++ y)
  | .sub k :: ps, Q => ∀ us x, P k us x → Each P ps fun ts y => Q (us ++ ts) (x ++ y)

/-- **A meaning that every rule keeps** is a meaning of everything that the rules allow. -/
theorem Derives.each {P : Kind → List Token → String → Prop} (hP : ∀ {k qs}, Rule k qs → Each P qs (P k))
    {ps : List RulePiece} {ts : List Token} {x : String} (h : Derives ps ts x) :
    ∀ {Q : List Token → String → Prop}, Each P ps Q → Q ts x := by
  induction h with
  | nil => exact id
  | atom h _ ih => exact fun hQ => ih (hQ _ _ h)
  | present h _ ih => exact fun hQ => ih (hQ.2 _ h)
  | absent _ ih => exact fun hQ => ih hQ.1
  | dropped h _ ih => exact fun hQ => ih (hQ.2 _ h)
  | ghost _ ih => exact fun hQ => ih hQ.1
  | blank _ ih => exact fun hQ => ih hQ
  | sub r _ _ ihInner ihRest => exact fun hQ => ihRest (hQ _ _ (ihInner (hP r)))

end QueryTemplate.Sql
