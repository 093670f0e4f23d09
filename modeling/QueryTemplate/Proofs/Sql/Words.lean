import QueryTemplate.Sql.Token

/-!
# Where words stand

The lexer takes a word for a keyword by its spelling alone. In a statement it is one only where no name is
due: `e.end` is a column of `e`, and `end IS NULL` tests a column as well. Which of the two a word is, the
tokens settle from left to right. What they leave due is a `Place`; and where an operand is due, the tokens
behind a word are looked at, since `case` in front of `=` starts no `CASE`.

* **`settle`**: the tokens of a text without the keywords that are names.
* **`settle_append`**: an expression is settled by itself, in front of all that an operand ends in front of.
-/

namespace QueryTemplate.Sql

/-! ## Keywords -/

/-- The tests that `NOT` may stand in front of. -/
def Keyword.negatable : List Keyword :=
  [.IN, .BETWEEN, .LIKE, .ILIKE, .RLIKE, .REGEXP, .SIMILAR]

/-- The keywords that stand behind an operand and start none. -/
def Keyword.behindOperand : List Keyword :=
  negatable ++ [.AND, .OR, .XOR, .IS, .OVERLAPS, .AS, .THEN, .ELSE, .END]

/-- The keywords behind an operand that another operand follows. -/
def Keyword.beforeOperand : List Keyword :=
  negatable ++ [.AND, .OR, .XOR, .IS, .OVERLAPS, .DIV, .WHEN, .THEN, .ELSE, .FROM]

/-- The keywords behind an operand that a name follows. -/
def Keyword.beforeName : List Keyword :=
  [.AS, .OVER, .COLLATE]

/-! ## Places -/

/-- What is due in front of a token: an operand, or after `CASE` the first `WHEN`; something behind an
operand; or a name. -/
inductive Place
  | operand
  | branch
  | operator
  | name
  deriving DecidableEq, Repr

def Symbol.closesBracket (s : Symbol) : Bool :=
  s ∈ [.closing, .closingSquare, .closingCurly]

/-- What is due behind a keyword. -/
def Place.afterKeyword (p : Place) (k : Keyword) : Place :=
  match p with
  | .operator =>
    if k ∈ Keyword.beforeOperand then .operand else if k ∈ Keyword.beforeName then .name else .operator
  | _ =>
    if k = .CASE then .branch
    else if k ∈ [.NOT, .INTERVAL] ∨ p = .branch ∧ k = .WHEN then .operand
    else .operator

/-- What is due behind a token. -/
def Place.after (p : Place) : Token → Place
  | .symbol s =>
    if s.closesBracket then .operator else if s ∈ [.period, .colon, .at] then .name
    -- the types behind `::` are words of any kind
    else if s = .doubleColon then .operator
    else .operand
  | .otherOperator => .operand
  | .word _ (some k) => p.afterKeyword k
  | _ => .operator

/-- The symbols that an operand starts with or goes on with. -/
def Symbol.inOperand (s : Symbol) : Bool :=
  s ∈ [.period, .opening, .openingSquare, .openingCurly, .plus, .minus, .colon, .at]

/-- The symbols that no operand starts with or goes on with. -/
def Token.endsOperand : Token → Bool
  | .symbol s => !s.inOperand
  | _ => false

def Token.isNegatable : Token → Bool
  | .word _ (some k) => k ∈ Keyword.negatable
  | _ => false

/-- Whether an operand ends in front of the tokens. -/
def endsOperand : List Token → Bool
  | [] => true
  | .word _ (some k) :: rest =>
    k ∈ Keyword.behindOperand || k = .NOT && rest.head?.any Token.isNegatable
  | t :: _ => t.endsOperand

/-- Whether a keyword is a name where an operand is due. `NOT` and `CASE` start operands, unless none can
follow. -/
def Keyword.isOperand (k : Keyword) (rest : List Token) : Bool :=
  rest.head? = some (.symbol .period) || k ∈ behindOperand
    || k = .NOT && rest.head?.any Token.endsOperand || k = .CASE && endsOperand rest

/-- The token at a place, in front of others: a keyword in the place of a name is none. -/
def Token.settled (p : Place) (rest : List Token) : Token → Token
  | .word name (some k) =>
    match p with
    | .name => .word name none
    | .operator => .word name (some k)
    | .operand | .branch => .word name (if k.isOperand rest then none else some k)
  | t => t

/-- The tokens of a text, its keywords only those that no name is due in the place of. -/
def settle : Place → List Token → List Token
  | _, [] => []
  | p, t :: ts => t.settled p ts :: settle (p.after (t.settled p ts)) ts

/-- What is due behind the tokens of a text. -/
def Place.afterAll : Place → List Token → Place
  | p, [] => p
  | p, t :: ts => (p.after (t.settled p ts)).afterAll ts

/-- The tokens of an expression, or nothing if a quotation or comment is open. -/
def lexExpression (cs : List Char) : Option (List Token) :=
  (lex cs).map (settle .operand)

/-! ## Texts one after the other -/

variable {p : Place} {k : Keyword} {ts us : List Token}

theorem head?_ne_period (h : endsOperand us = true) : us.head? ≠ some (.symbol .period) := by
  rcases us with _ | ⟨u, us⟩
  · nofun
  · rintro ⟨⟩
    cases h

theorem endsOperand_append (hus : endsOperand us = true) (hts : ∀ name, ts ≠ [.word name (some .NOT)]) :
    endsOperand (ts ++ us) = endsOperand ts := by
  rcases ts with _ | ⟨t, ts⟩
  · exact hus
  · cases t with
    | word name keyword =>
      cases keyword with
      | none => rfl
      | some k =>
        by_cases hk : k = .NOT
        · subst hk
          have hne : ts ≠ [] := fun hnil => hts name (by rw [hnil])
          obtain ⟨t, ts, rfl⟩ := List.exists_cons_of_ne_nil hne
          rfl
        · simp [endsOperand, hk]
    | _ => rfl

/-- How a keyword is taken depends on its own expression alone, unless that ends in the middle of an
operand. -/
theorem isOperand_append (hus : endsOperand us = true) (hnot : k = .NOT → ts ≠ [])
    (hcase : k = .CASE → ∀ name, ts ≠ [.word name (some .NOT)]) :
    k.isOperand (ts ++ us) = k.isOperand ts := by
  rcases ts with _ | ⟨t, ts⟩
  · have hk : k ≠ .NOT := fun hk => hnot hk rfl
    simp [Keyword.isOperand, head?_ne_period hus, hk, hus, show endsOperand [] = true from rfl]
  by_cases hk : k = .CASE
  · simp only [Keyword.isOperand, endsOperand_append hus (hcase hk)]
    rfl
  · simp [Keyword.isOperand, hk]

theorem settled_append {t : Token} (h : p.afterAll (t :: ts) = .operator) (hus : endsOperand us = true) :
    t.settled p (ts ++ us) = t.settled p ts := by
  cases t with
  | word name keyword =>
    cases keyword with
    | none => rfl
    | some k =>
      cases p with
      | name => rfl
      | operator => rfl
      | operand | branch =>
        -- a `NOT` at the end, or behind `CASE`, leaves an operand due
        have hk : k.isOperand (ts ++ us) = k.isOperand ts := by
          refine isOperand_append hus ?_ ?_
          · rintro rfl rfl
            cases h
          · rintro rfl name rfl
            cases h
        simp only [Token.settled, hk]
  | _ => rfl

/-- **An expression is settled by itself**, in front of all that an operand ends in front of. -/
theorem settle_append (h : p.afterAll ts = .operator) (hus : endsOperand us = true) :
    settle p (ts ++ us) = settle p ts ++ settle .operator us := by
  induction ts generalizing p with
  | nil =>
    cases h
    rfl
  | cons t ts ih =>
    show t.settled p (ts ++ us) :: settle (p.after (t.settled p (ts ++ us))) (ts ++ us) = _
    rw [settled_append h hus, ih h]
    rfl

end QueryTemplate.Sql
