import QueryTemplate.Proofs.Grammar
import QueryTemplate.Proofs.Sql.Brackets

/-!
# Reading conditions by precedence

What a condition in SQL text means, as far as precedence decides it: comparisons, `LIKE`, `IN` and `IS`
bind tighter than `NOT`, `NOT` tighter than `AND`, and `AND` tighter than `OR`. Precedence does not say how
tests in a row are read, such as `a > b = c`. Systems let them lean to the left or refuse them, and the
grammar is given for both. The operands of a test are kept as the tokens they are made of. All tokens here
are settled ones: what is a keyword among them is no name.

* **`Role.Fits`**: what the tokens of an operand are like. A term (`IsTerm`) is free of everything that binds
  no tighter than a test, a chain (`IsChain`) of everything that binds looser.
* **`ReadsAs`**: the grammar, on three levels as the one of filters is.
* **`ReadsAs.unique`**: tokens are read in one way at most. `AND`s and `OR`s are split at the last one
  outside of all brackets, and so are tests in a row.
* **`ReadsAs.fits`**: which tokens can be operands of a reading, by what they are to their test.
-/

namespace QueryTemplate.Sql

open QueryTemplate.Filter (Level)

/-! ## Operands -/

/-- The keywords of tests and of what joins them. -/
def Keyword.loose : List Keyword :=
  negatable ++ [.OR, .AND, .NOT, .IS, .OVERLAPS]

/-- The tokens that bind no tighter than a test, or stand between expressions. -/
def Token.isLoose : Token → Bool
  | .symbol s => s ∈ [.comma, .semicolon, .eq, .doubleEq, .notEq, .lt, .ltEq, .gt, .gtEq]
  | .word _ (some k) => k ∈ Keyword.loose
  | _ => false

/-- The tokens that join tests, or stand between expressions. -/
def Token.isJoint : Token → Bool
  | .symbol s => s ∈ [.comma, .semicolon]
  | .word _ (some k) => k ∈ [.AND, .OR]
  | _ => false

/-- The tokens that have no one place in the order of precedence: what stands between expressions; operators
that no rule mentions; `XOR`, which binds tighter than a test in some systems and looser in others; and the
words of types that are spelled with `<` and `>`. -/
def Token.isUnranked : Token → Bool
  | .symbol s => s ∈ [.comma, .semicolon]
  | .otherOperator => true
  | .word _ (some k) => k ∈ [.XOR, .ARRAY, .STRUCT]
  | _ => false

def Token.isComma : Token → Bool
  | .symbol .comma => true
  | _ => false

def Token.isNot : Token → Bool
  | .word _ (some .NOT) => true
  | _ => false

def Token.isIs : Token → Bool
  | .word _ (some .IS) => true
  | _ => false

/-- `IsTerm ts`: nothing in `ts` binds looser than a test does, unless there are brackets around it. -/
def IsTerm (ts : List Token) : Prop :=
  ts ≠ [] ∧ FreeOf Token.isLoose ts

instance (ts : List Token) : Decidable (IsTerm ts) :=
  inferInstanceAs (Decidable (_ ∧ _))

/-- Whether a `NOT` between some tokens belongs to a test: it is in front of `IN` or the like, or behind
`IS`. -/
def notOfTest (before after : List Token) : Bool :=
  before.getLast?.any Token.isIs && !after.isEmpty || !before.isEmpty && after.head?.any Token.isNegatable

/-- `IsChain ts`: a term and tests in a row. No `AND` and no `OR` joins them, and no `NOT` negates any,
unless there are brackets around it. -/
structure IsChain (ts : List Token) : Prop where
  nonempty : ts ≠ []
  free : FreeOf Token.isJoint ts
  nots : ∀ i < ts.length, ts[i]?.any Token.isNot = true → Balanced (ts.take i) →
    notOfTest (ts.take i) (ts.drop (i + 1)) = true

instance (ts : List Token) : Decidable (IsChain ts) :=
  decidable_of_iff (ts ≠ [] ∧ FreeOf Token.isJoint ts ∧ ∀ i < ts.length,
      ts[i]?.any Token.isNot = true → Balanced (ts.take i) →
        notOfTest (ts.take i) (ts.drop (i + 1)) = true)
    ⟨fun ⟨hne, hfree, hnots⟩ => ⟨hne, hfree, hnots⟩, fun ⟨hne, hfree, hnots⟩ => ⟨hne, hfree, hnots⟩⟩

/-- What a test can be about: a term, and where tests in a row are read, those that lean to the left. -/
def IsTested (chained : Bool) (ts : List Token) : Prop :=
  if chained then IsChain ts else IsTerm ts

instance (chained : Bool) (ts : List Token) : Decidable (IsTested chained ts) :=
  inferInstanceAs (Decidable (ite _ _ _))

/-- `IsListed ts`: no comma stands in `ts` outside of all brackets. -/
def IsListed (ts : List Token) : Prop :=
  ts ≠ [] ∧ FreeOf Token.isComma ts

instance (ts : List Token) : Decidable (IsListed ts) :=
  inferInstanceAs (Decidable (_ ∧ _))

/-- What an operand is to its test: what the test is about, what that is compared with, or an item of a
list. -/
inductive Role
  | tested
  | compared
  | listed
  deriving DecidableEq, Repr

/-- `role.Fits chained ts`: precedence reads all of `ts` as the operand that has the role. -/
def Role.Fits (chained : Bool) : Role → List Token → Prop
  | .tested, ts => IsTested chained ts
  | .compared, ts => IsTerm ts
  | .listed, ts => IsListed ts

instance (chained : Bool) (role : Role) (ts : List Token) : Decidable (role.Fits chained ts) :=
  match role with
  | .tested => inferInstanceAs (Decidable (IsTested chained ts))
  | .compared => inferInstanceAs (Decidable (IsTerm ts))
  | .listed => inferInstanceAs (Decidable (IsListed ts))

theorem eq_of_isNot {t : Token} (h : t.isNot = true) : ∃ name, t = .word name (some .NOT) := by
  unfold Token.isNot at h
  split at h
  · exact ⟨_, rfl⟩
  · cases h

theorem isLoose_of_isJoint (t : Token) (h : t.isJoint = true) : t.isLoose = true := by
  unfold Token.isJoint at h
  split at h
  · rename_i s
    cases s <;> first | rfl | cases h
  · rename_i name k
    have hk : k = .AND ∨ k = .OR := by simpa using h
    rcases hk with rfl | rfl <;> rfl
  · cases h

/-- A `NOT` at the end stands outside of all brackets. -/
theorem balanced_of_append_not {stop : Token → Bool} {ts : List Token} {name : Ident}
    (h : FreeOf stop (ts ++ [.word name (some .NOT)])) : Balanced ts := by
  obtain ⟨⟨words, brackets⟩, hts, hlast⟩ :=
    Option.bind_eq_some_iff.1 ((afterTokens_append ⟨[], 0⟩ ts _).symm.trans h.balanced)
  obtain ⟨o, ho, hnil⟩ := Option.bind_eq_some_iff.1 hlast
  cases hnil
  -- a `NOT` changes nothing, so nothing was open in front of it
  cases brackets with
  | succ n => cases ho
  | zero =>
    cases words with
    | nil => exact hts
    | cons word words => cases word <;> cases ho

theorem IsChain.not_ofTest {ts us : List Token} {name : Ident}
    (h : IsChain (ts ++ .word name (some .NOT) :: us)) (hts : Balanced ts) : notOfTest ts us = true := by
  have hnots := h.nots ts.length (by simp) (by simp [Token.isNot])
  rw [List.take_left, List.drop_append, List.drop_eq_nil_of_le (Nat.le_succ _)] at hnots
  simpa using hnots hts

theorem not_isChain_not_cons {ts : List Token} {name : Ident} :
    ¬ IsChain (.word name (some .NOT) :: ts) := fun h => by
  have hnot : notOfTest [] ts = true := IsChain.not_ofTest h rfl
  cases hnot

theorem not_isChain_append_not {ts : List Token} {name : Ident} :
    ¬ IsChain (ts ++ [.word name (some .NOT)]) := fun h => by
  have hnot := h.not_ofTest (balanced_of_append_not h.free)
  simp [notOfTest] at hnot

theorem IsTerm.isChain {ts : List Token} (h : IsTerm ts) : IsChain ts := by
  refine ⟨h.1, h.2.mono isLoose_of_isJoint, fun i hi hnot hbalanced => ?_⟩
  -- a `NOT` is loose
  rw [List.getElem?_eq_getElem hi] at hnot
  obtain ⟨name, hname⟩ := eq_of_isNot hnot
  have hts : ts.take i ++ .word name (some .NOT) :: ts.drop (i + 1) = ts := by
    rw [← hname, List.getElem_cons_drop, List.take_append_drop]
  have hstop : ¬ FreeOf Token.isLoose (ts.take i ++ .word name (some .NOT) :: ts.drop (i + 1)) :=
    not_freeOf hbalanced rfl rfl
  rw [hts] at hstop
  exact absurd h.2 hstop

theorem IsTested.isChain {chained : Bool} {ts : List Token} (h : IsTested chained ts) : IsChain ts := by
  cases chained with
  | true => exact h
  | false => exact IsTerm.isChain h

theorem IsTerm.isTested {ts : List Token} (h : IsTerm ts) (chained : Bool) : IsTested chained ts := by
  cases chained with
  | true => exact h.isChain
  | false => exact h

/-- One expression or more, with commas between them. -/
inductive Listed : List Token → List (List Token) → Prop where
  | single {ts : List Token} (h : IsListed ts) : Listed ts [ts]
  | cons {ts us : List Token} {items : List (List Token)} (h : IsListed ts) (rest : Listed us items) :
      Listed (ts ++ .symbol .comma :: us) (ts :: items)

/-! ## Tests -/

/-- A condition whose operands are kept as their tokens. -/
inductive Condition
  | holds (term : List Token)
  | compare (left : List Token) (op : CompareOp) (right : List Token)
  | isIn (operand : List Token) (items : List (List Token)) (negated : Bool)
  | isNull (operand : List Token) (negated : Bool)
  | and (left right : Condition)
  | or (left right : Condition)
  | not (inner : Condition)
  deriving DecidableEq, Repr

/-- The operands from left to right. -/
def Condition.operands : Condition → List (List Token)
  | .holds term => [term]
  | .compare left _ right => [left, right]
  | .isIn operand items _ => operand :: items
  | .isNull operand _ => [operand]
  | .and left right => left.operands ++ right.operands
  | .or left right => left.operands ++ right.operands
  | .not inner => inner.operands

/-- The operands that have a role in tests. -/
def Condition.operandsIn (role : Role) : Condition → List (List Token)
  | .holds _ => []
  | .compare left _ right =>
    match role with
    | .tested => [left]
    | .compared => [right]
    | .listed => []
  | .isIn operand items _ =>
    match role with
    | .tested => [operand]
    | .compared => []
    | .listed => items
  | .isNull operand _ =>
    match role with
    | .tested => [operand]
    | .compared | .listed => []
  | .and left right => left.operandsIn role ++ right.operandsIn role
  | .or left right => left.operandsIn role ++ right.operandsIn role
  | .not inner => inner.operandsIn role

/-- The comparison in front, and what follows it. -/
def comparison? : List Token → Option (CompareOp × List Token)
  | .symbol .eq :: ts => some (.eq, ts)
  | .symbol .notEq :: ts => some (.notEq, ts)
  | .symbol .gt :: ts => some (.gt, ts)
  | .symbol .gtEq :: ts => some (.gtEq, ts)
  | .symbol .lt :: ts => some (.lt, ts)
  | .symbol .ltEq :: ts => some (.ltEq, ts)
  | .word _ (some .LIKE) :: ts => some (.like, ts)
  | .word _ (some .NOT) :: .word _ (some .LIKE) :: ts => some (.notLike, ts)
  | _ => none

/-- Whether `IN` in front is negated, and what follows the parenthesis after it. -/
def membership? : List Token → Option (Bool × List Token)
  | .word _ (some .IN) :: .symbol .opening :: ts => some (false, ts)
  | .word _ (some .NOT) :: .word _ (some .IN) :: .symbol .opening :: ts => some (true, ts)
  | _ => none

/-- Whether a test for `NULL` is negated. -/
def nullTest? : List Token → Option Bool
  | [.word _ (some .IS), .word _ (some .NULL)] => some false
  | [.word _ (some .IS), .word _ (some .NOT), .word _ (some .NULL)] => some true
  | _ => none

/-- `Tests left ts c`: behind the operand `left`, the tokens `ts` make the test `c` of it. -/
inductive Tests (left : List Token) : List Token → Condition → Prop where
  | compare {ts right : List Token} {op : CompareOp} (h : comparison? ts = some (op, right))
      (hright : IsTerm right) : Tests left ts (.compare left op right)
  | isIn {ts inner : List Token} {items : List (List Token)} {negated : Bool}
      (h : membership? ts = some (negated, inner ++ [.symbol .closing]))
      (hitems : Listed inner items) : Tests left ts (.isIn left items negated)
  | isNull {ts : List Token} {negated : Bool} (h : nullTest? ts = some negated) :
      Tests left ts (.isNull left negated)

/-- `Enclosed ts`: the first token is a parenthesis that the last one closes. -/
def Enclosed (ts : List Token) : Prop :=
  ∃ inner, ts = .symbol .opening :: (inner ++ [.symbol .closing]) ∧ Nested inner

/-- A test of an operand; or a term that stands for itself, unless it is a group. -/
inductive IsTest (chained : Bool) : List Token → Condition → Prop where
  | holds {ts : List Token} (h : IsTerm ts) (hgroup : ¬ Enclosed ts) : IsTest chained ts (.holds ts)
  | tests {left ts : List Token} {c : Condition} (hleft : IsTested chained left) (h : Tests left ts c) :
      IsTest chained (left ++ ts) c

/-! ## The grammar -/

/-- `ReadsAs chained level ts c`: at a level, the tokens `ts` are read as the condition `c`. A group leaves no
node, and chains lean to the left; whether those of tests do, or are not read, is `chained`. -/
inductive ReadsAs (chained : Bool) : Level → List Token → Condition → Prop where
  | test {ts : List Token} {c : Condition} (h : IsTest chained ts c) : ReadsAs chained .unary ts c
  | not {name : Ident} {ts : List Token} {c : Condition} (inner : ReadsAs chained .unary ts c) :
      ReadsAs chained .unary (.word name (some .NOT) :: ts) (.not c)
  | group {ts : List Token} {c : Condition} (inner : ReadsAs chained .disjunction ts c) :
      ReadsAs chained .unary (.symbol .opening :: (ts ++ [.symbol .closing])) c
  | unary {ts : List Token} {c : Condition} (inner : ReadsAs chained .unary ts c) :
      ReadsAs chained .conjunction ts c
  | and {name : Ident} {ts us : List Token} {c d : Condition} (left : ReadsAs chained .conjunction ts c)
      (right : ReadsAs chained .unary us d) :
      ReadsAs chained .conjunction (ts ++ .word name (some .AND) :: us) (.and c d)
  | conjunction {ts : List Token} {c : Condition} (inner : ReadsAs chained .conjunction ts c) :
      ReadsAs chained .disjunction ts c
  | or {name : Ident} {ts us : List Token} {c d : Condition} (left : ReadsAs chained .disjunction ts c)
      (right : ReadsAs chained .conjunction us d) :
      ReadsAs chained .disjunction (ts ++ .word name (some .OR) :: us) (.or c d)

/-- The tokens that join conditions more loosely than a level does. -/
def looserThan : Level → Token → Bool
  | .unary, .word _ (some .AND) => true
  | .unary, .word _ (some .OR) => true
  | .conjunction, .word _ (some .OR) => true
  | _, _ => false

theorem isJoint_of_looserThan {level : Level} (t : Token) (h : looserThan level t = true) :
    t.isJoint = true := by
  unfold looserThan at h
  split at h <;> first | rfl | cases h

theorem IsChain.freeOf {ts : List Token} (h : IsChain ts) (level : Level) : FreeOf (looserThan level) ts :=
  h.free.mono isJoint_of_looserThan

/-! ### How tests start -/

/-- The tokens that a test starts with: one that binds as loosely as a test, which `NOT` may stand in front
of. -/
inductive IsOperator : List Token → Prop where
  | plain {t : Token} (hloose : t.isLoose = true) (hplain : t.isPlain = true)
      (hfree : looserThan .unary t = false) : IsOperator [t]
  | negated {name : Ident} {t : Token} (hloose : t.isLoose = true) (hplain : t.isPlain = true)
      (hfree : looserThan .unary t = false) : IsOperator [.word name (some .NOT), t]

theorem IsOperator.freeOf {ts : List Token} (h : IsOperator ts) : FreeOf (looserThan .unary) ts := by
  cases h with
  | plain _ hplain hfree => exact .cons hplain hfree rfl
  | negated _ hplain hfree => exact .cons rfl rfl (.cons hplain hfree rfl)

theorem IsOperator.starts {ts : List Token} (h : IsOperator ts) :
    ∃ t rest, ts = t :: rest ∧ t.isLoose = true ∧ t.isPlain = true := by
  cases h with
  | plain hloose hplain _ => exact ⟨_, _, rfl, hloose, hplain⟩
  | negated _ _ _ => exact ⟨_, _, rfl, rfl, rfl⟩

/-- An operator is cut behind its `NOT` only. -/
theorem IsOperator.eq_not {m rest : List Token} {t : Token} (h : IsOperator (m ++ t :: rest)) (hm : m ≠ []) :
    ∃ name, m = [.word name (some .NOT)] := by
  obtain ⟨u, m, rfl⟩ := List.exists_cons_of_ne_nil hm
  generalize hts : u :: m ++ t :: rest = ts at h
  cases h with
  | plain _ _ _ => simp at hts
  | negated _ _ _ =>
    obtain ⟨rfl, hts⟩ := List.cons.inj hts
    cases m with
    | nil => exact ⟨_, rfl⟩
    | cons v m => simp at hts

theorem comparison?_eq_some {ts right : List Token} {op : CompareOp}
    (h : comparison? ts = some (op, right)) :
    ∃ front, ts = front ++ right ∧ IsOperator front ∧ membership? ts = none ∧ nullTest? ts = none := by
  unfold comparison? at h
  split at h <;> cases h
  all_goals first
    | exact ⟨[_], rfl, .plain rfl rfl rfl, rfl, rfl⟩
    | exact ⟨[_, _], rfl, .negated rfl rfl rfl, rfl, rfl⟩

theorem membership?_eq_some {ts rest : List Token} {negated : Bool}
    (h : membership? ts = some (negated, rest)) :
    ∃ front, ts = front ++ .symbol .opening :: rest ∧ IsOperator front ∧ nullTest? ts = none := by
  unfold membership? at h
  split at h <;> cases h
  · exact ⟨[_], rfl, .plain rfl rfl rfl, rfl⟩
  · exact ⟨[_, _], rfl, .negated rfl rfl rfl, rfl⟩

theorem nullTest?_eq_some {ts : List Token} {negated : Bool} (h : nullTest? ts = some negated) :
    ∃ name front last, ts = .word name (some .IS) :: (front ++ [.word last (some .NULL)])
      ∧ (front = [] ∨ ∃ no, front = [.word no (some .NOT)]) := by
  unfold nullTest? at h
  split at h <;> cases h
  · exact ⟨_, [], _, rfl, .inl rfl⟩
  · exact ⟨_, [_], _, rfl, .inr ⟨_, rfl⟩⟩

theorem Tests.starts {left ts : List Token} {c : Condition} (h : Tests left ts c) :
    ∃ t rest, ts = t :: rest ∧ t.isLoose = true ∧ t.isPlain = true := by
  cases h with
  | compare h _ =>
    obtain ⟨front, rfl, hfront, -⟩ := comparison?_eq_some h
    obtain ⟨t, rest, rfl, ht⟩ := hfront.starts
    exact ⟨t, _, rfl, ht⟩
  | isIn h _ =>
    obtain ⟨front, rfl, hfront, -⟩ := membership?_eq_some h
    obtain ⟨t, rest, rfl, ht⟩ := hfront.starts
    exact ⟨t, _, rfl, ht⟩
  | isNull h =>
    obtain ⟨_, _, _, rfl, -⟩ := nullTest?_eq_some h
    exact ⟨_, _, rfl, rfl, rfl⟩

/-- No term ends in a test. -/
theorem Tests.not_freeOf_append {left ts : List Token} {c : Condition} (h : Tests left ts c)
    (hleft : Balanced left) : ¬ FreeOf Token.isLoose (left ++ ts) := by
  obtain ⟨t, rest, rfl, hloose, hplain⟩ := h.starts
  exact not_freeOf hleft hplain hloose

theorem Listed.balanced {ts : List Token} {items : List (List Token)} (h : Listed ts items) :
    Balanced ts := by
  induction h with
  | single h => exact h.2.balanced
  | cons h _ ih => exact h.2.balanced.append (ih.cons rfl rfl)

theorem Tests.freeOf {left ts : List Token} {c : Condition} (h : Tests left ts c) :
    FreeOf (looserThan .unary) ts := by
  cases h with
  | compare h hright =>
    obtain ⟨front, rfl, hfront, -⟩ := comparison?_eq_some h
    exact hfront.freeOf.append (hright.isChain.freeOf .unary)
  | isIn h hitems =>
    obtain ⟨front, rfl, hfront, -⟩ := membership?_eq_some h
    exact hfront.freeOf.append hitems.balanced.nested.parenthesized
  | isNull h =>
    obtain ⟨_, _, _, rfl, rfl | ⟨_, rfl⟩⟩ := nullTest?_eq_some h <;> rfl

/-! ### Tests in one way -/

theorem Listed.unique {ts : List Token} {items items' : List (List Token)} (h : Listed ts items)
    (h' : Listed ts items') : items = items' := by
  have hcomma : (Token.symbol .comma).isPlain = true := rfl
  induction h generalizing items' with
  | @single ts hts =>
    generalize hus : ts = us at h'
    cases h' with
    | single _ => rfl
    | cons h _ => exact absurd (hus ▸ hts.2) (not_freeOf h.2.balanced hcomma rfl)
  | @cons ts us items hts _ ih =>
    generalize hvs : ts ++ .symbol .comma :: us = vs at h'
    cases h' with
    | single h => exact absurd (hvs ▸ h.2) (not_freeOf hts.2.balanced hcomma rfl)
    | cons h rest =>
      obtain ⟨rfl, _, rfl⟩ := split_first hts.2 h.2 hcomma hcomma rfl rfl hvs
      rw [ih rest]

theorem Listed.isListed {ts : List Token} {items : List (List Token)} (h : Listed ts items) :
    ∀ item ∈ items, IsListed item := by
  induction h with
  | single h => exact List.forall_mem_singleton.2 h
  | cons h _ ih => exact List.forall_mem_cons.2 ⟨h, ih⟩

/-- The tokens behind the operand say which test it is. -/
theorem Tests.unique {left ts : List Token} {c c' : Condition} (h : Tests left ts c)
    (h' : Tests left ts c') : c = c' := by
  cases h with
  | compare h _ =>
    obtain ⟨_, _, _, hin, hnull⟩ := comparison?_eq_some h
    cases h' with
    | compare h' _ =>
      rw [h] at h'
      cases h'
      rfl
    | isIn h' _ =>
      rw [hin] at h'
      cases h'
    | isNull h' =>
      rw [hnull] at h'
      cases h'
  | isIn h hitems =>
    obtain ⟨_, _, _, hnull⟩ := membership?_eq_some h
    cases h' with
    | compare h' _ =>
      obtain ⟨_, _, _, hin, _⟩ := comparison?_eq_some h'
      rw [hin] at h
      cases h
    | isIn h' hitems' =>
      rw [h] at h'
      obtain ⟨rfl, hinner⟩ := Prod.mk.inj (Option.some.inj h')
      rw [List.append_cancel_right hinner] at hitems
      rw [hitems.unique hitems']
    | isNull h' =>
      rw [hnull] at h'
      cases h'
  | isNull h =>
    cases h' with
    | compare h' _ =>
      obtain ⟨_, _, _, _, hnull⟩ := comparison?_eq_some h'
      rw [hnull] at h
      cases h
    | isIn h' _ =>
      obtain ⟨_, _, _, hnull⟩ := membership?_eq_some h'
      rw [hnull] at h
      cases h
    | isNull h' =>
      rw [h] at h'
      cases h'
      rfl

/-- What is behind the operator of a test has nothing loose in it, so a test ends no other one, but where it
is cut behind a `NOT`. -/
theorem IsOperator.eq_not_of_append {front rest m us : List Token} {t : Token} (h : IsOperator front)
    (hrest : FreeOf Token.isLoose rest) (heq : front ++ rest = m ++ t :: us) (hm : Balanced m) (hne : m ≠ [])
    (hloose : t.isLoose = true) (hplain : t.isPlain = true) : ∃ name, m = [.word name (some .NOT)] := by
  rcases List.append_eq_append_iff.1 heq with ⟨m', rfl, rfl⟩ | ⟨m', rfl, hus⟩
  · -- the other one would start in what is behind the operator
    exact absurd hrest (not_freeOf (h.freeOf.balanced.of_append hm) hplain hloose)
  · cases m' with
    | nil =>
      rw [List.nil_append] at hus
      rw [← hus] at hrest
      have hstop : ¬ FreeOf Token.isLoose ([] ++ t :: us) := not_freeOf rfl hplain hloose
      exact absurd hrest hstop
    | cons u m' =>
      cases hus
      exact h.eq_not hne

/-- Behind `IS`, only the `NOT` in front of `NULL` is loose. -/
theorem nullTest?_append_eq_some {m us : List Token} {t : Token} {negated : Bool}
    (h : nullTest? (m ++ t :: us) = some negated) (hne : m ≠ []) (hloose : t.isLoose = true) :
    ∃ name last, t :: us = [.word name (some .NOT), .word last (some .NULL)] := by
  obtain ⟨u, m, rfl⟩ := List.exists_cons_of_ne_nil hne
  obtain ⟨_, front, last, hts, hfront⟩ := nullTest?_eq_some h
  have hus : m ++ t :: us = front ++ [.word last (some .NULL)] := (List.cons.inj hts).2
  rcases List.append_eq_append_iff.1 hus with ⟨m', rfl, hm'⟩ | ⟨m', rfl, hm'⟩
  · cases m' with
    | nil =>
      cases hm'
      cases hloose
    | cons v m' =>
      cases hm'
      rcases hfront with hnil | ⟨no, hno⟩
      · simp at hnil
      · obtain ⟨rfl, hno⟩ : m = [] ∧ t :: m' = [.word no (some .NOT)] := by
          cases m <;> simp_all
        cases hno
        exact ⟨_, _, rfl⟩
  · cases m' with
    | nil =>
      cases hm'
      cases hloose
    | cons v m' => simp at hm'

/-- **A test does not end in another one**, unless that takes a `NOT` from it. -/
theorem Tests.eq_not {left left' m us : List Token} {t : Token} {c c' : Condition}
    (h : Tests left (m ++ t :: us) c) (h' : Tests left' (t :: us) c') (hm : Balanced m) (hne : m ≠ []) :
    ∃ name, m = [.word name (some .NOT)] := by
  obtain ⟨_, _, ht, hloose, hplain⟩ := h'.starts
  cases ht
  generalize hts : m ++ t :: us = ts at h
  cases h with
  | compare h hright =>
    obtain ⟨front, rfl, hfront, -⟩ := comparison?_eq_some h
    exact hfront.eq_not_of_append hright.2 hts.symm hm hne hloose hplain
  | isIn h hitems =>
    obtain ⟨front, rfl, hfront, -⟩ := membership?_eq_some h
    exact hfront.eq_not_of_append hitems.balanced.nested.parenthesized hts.symm hm hne hloose hplain
  | isNull h =>
    -- `NOT NULL` is no test
    obtain ⟨_, _, hnot⟩ := nullTest?_append_eq_some (hts ▸ h) hne hloose
    rw [hnot] at h'
    cases h' with
    | compare h' _ => cases h'
    | isIn h' _ => cases h'
    | isNull h' => cases h'

/-- No chain goes on into a test of what is in front. -/
theorem Tests.not_isChain_append {left m us : List Token} {t t' : Token} {c c' : Condition}
    (hleft : IsChain left) (h : Tests left (t :: m ++ t' :: us) c)
    (h' : Tests (left ++ t :: m) (t' :: us) c') : ¬ IsChain (left ++ t :: m) := by
  intro hchain
  have hm : Balanced (t :: m) := hleft.free.balanced.of_append hchain.free.balanced
  obtain ⟨name, hnot⟩ := h.eq_not h' hm (List.cons_ne_nil t m)
  rw [hnot] at hchain
  exact not_isChain_append_not hchain

/-- **A test is about one operand.** -/
theorem Tests.split_unique {left left' ts ts' : List Token} {c c' : Condition} (hleft : IsChain left)
    (hleft' : IsChain left') (h : Tests left ts c) (h' : Tests left' ts' c')
    (heq : left ++ ts = left' ++ ts') : left = left' ∧ ts = ts' := by
  obtain ⟨t, us, rfl, -⟩ := h.starts
  obtain ⟨t', us', rfl, -⟩ := h'.starts
  rcases cases_of_append_cons_eq heq with ⟨rfl, rfl, rfl⟩ | ⟨m, rfl, rfl⟩ | ⟨m, rfl, rfl⟩
  · exact ⟨rfl, rfl⟩
  · exact absurd hleft' (h.not_isChain_append hleft h')
  · exact absurd hleft (h'.not_isChain_append hleft' h)

theorem IsTest.unique {chained : Bool} {ts : List Token} {c c' : Condition} (h : IsTest chained ts c)
    (h' : IsTest chained ts c') : c = c' := by
  cases h with
  | holds hts _ =>
    generalize hus : ts = us at h'
    cases h' with
    | holds _ _ => rfl
    | tests hleft h =>
      exact absurd (hus ▸ hts.2) (h.not_freeOf_append hleft.isChain.free.balanced)
  | @tests left us c hleft h =>
    generalize hvs : left ++ us = vs at h'
    cases h' with
    | holds hts _ =>
      exact absurd (hvs ▸ hts.2) (h.not_freeOf_append hleft.isChain.free.balanced)
    | tests hleft' h' =>
      obtain ⟨rfl, rfl⟩ := h.split_unique hleft.isChain hleft'.isChain h' hvs
      exact h.unique h'

/-! ### Conditions -/

variable {chained : Bool}

theorem looserThan_unary_of_conjunction (t : Token) (h : looserThan .conjunction t = true) :
    looserThan .unary t = true := by
  unfold looserThan at h
  split at h <;> first | rfl | cases h

theorem plain_and (name : Ident) : (Token.word name (some .AND)).isPlain = true :=
  rfl

theorem plain_or (name : Ident) : (Token.word name (some .OR)).isPlain = true :=
  rfl

/-- No token that joins more loosely than a level stands outside of all brackets. -/
theorem ReadsAs.freeOf {level : Level} {ts : List Token} {c : Condition} (h : ReadsAs chained level ts c) :
    FreeOf (looserThan level) ts := by
  induction h with
  | test h =>
    cases h with
    | holds h _ => exact h.isChain.freeOf .unary
    | tests hleft h => exact (hleft.isChain.freeOf .unary).append h.freeOf
  | not _ ih => exact ih.cons rfl rfl
  | group _ ih => exact ih.nested.parenthesized
  | unary _ ih => exact ih.mono looserThan_unary_of_conjunction
  | and _ _ ihl ihr =>
    exact ihl.append ((ihr.mono looserThan_unary_of_conjunction).cons (plain_and _) rfl)
  | conjunction _ ih => exact ih.balanced
  | or _ _ ihl ihr => exact ihl.append (ihr.balanced.cons (plain_or _) rfl)

theorem IsTest.not_group {ts : List Token} {c : Condition} (h : IsTest chained ts c) : ¬ Enclosed ts := by
  cases h with
  | holds _ hgroup => exact hgroup
  | tests hleft h =>
    rintro ⟨inner, hts, hinner⟩
    have hfree : FreeOf Token.isLoose (.symbol .opening :: (inner ++ [.symbol .closing])) :=
      hinner.parenthesized
    exact h.not_freeOf_append hleft.isChain.free.balanced (hts ▸ hfree)

/-- No test starts with a `NOT`. -/
theorem not_isTest_not {name : Ident} {ts : List Token} {c : Condition} :
    ¬ IsTest chained (.word name (some .NOT) :: ts) c := by
  intro h
  generalize hus : Token.word name (some .NOT) :: ts = us at h
  cases h with
  | holds h _ => exact not_isChain_not_cons (hus ▸ h.isChain)
  | @tests left _ _ hleft _ =>
    obtain ⟨t, left, rfl⟩ := List.exists_cons_of_ne_nil hleft.isChain.nonempty
    obtain ⟨rfl, -⟩ := List.cons.inj hus
    exact not_isChain_not_cons hleft.isChain

/-- **Tokens are read in one way at most.** Induction on one of two readings; the other one ends in the
same rule, with the same parts. -/
theorem ReadsAs.unique {level : Level} {ts : List Token} {c c' : Condition}
    (h : ReadsAs chained level ts c) (h' : ReadsAs chained level ts c') : c = c' := by
  induction h generalizing c' with
  | test h =>
    cases h' with
    | test h' => exact h.unique h'
    | not inner => exact absurd h not_isTest_not
    | group inner => exact absurd ⟨_, rfl, inner.freeOf.nested⟩ h.not_group
  | not _ ih =>
    cases h' with
    | test h' => exact absurd h' not_isTest_not
    | not inner => rw [ih inner]
  | @group ts c inner ih =>
    generalize hvs : Token.symbol .opening :: (ts ++ [.symbol .closing]) = vs at h'
    cases h' with
    | test h' => exact absurd ⟨ts, hvs.symm, inner.freeOf.nested⟩ h'.not_group
    | not inner => cases hvs
    | group inner =>
      obtain rfl := List.append_cancel_right (List.cons.inj hvs).2
      exact ih inner
  | @unary ts c inner ih =>
    generalize hvs : ts = vs at h'
    cases h' with
    | unary inner' => exact ih (hvs ▸ inner')
    | and left _ =>
      -- the `AND` would be a loose one in tokens that have none
      exact absurd (hvs ▸ inner.freeOf) (not_freeOf left.freeOf.balanced (plain_and _) rfl)
  | @and name ts us c d left right ihl ihr =>
    generalize hvs : ts ++ .word name (some .AND) :: us = vs at h'
    cases h' with
    | unary inner =>
      exact absurd (hvs ▸ inner.freeOf) (not_freeOf left.freeOf.balanced (plain_and _) rfl)
    | and left' right' =>
      -- neither right side has a loose `AND`, so both are split at the last one
      obtain ⟨rfl, _, rfl⟩ := split_last left.freeOf.balanced left'.freeOf.balanced (plain_and _)
        (plain_and _) rfl rfl right.freeOf right'.freeOf hvs
      rw [ihl left', ihr right']
  | @conjunction ts c inner ih =>
    generalize hvs : ts = vs at h'
    cases h' with
    | conjunction inner' => exact ih (hvs ▸ inner')
    | or left _ =>
      exact absurd (hvs ▸ inner.freeOf) (not_freeOf left.freeOf.balanced (plain_or _) rfl)
  | @or name ts us c d left right ihl ihr =>
    generalize hvs : ts ++ .word name (some .OR) :: us = vs at h'
    cases h' with
    | conjunction inner =>
      exact absurd (hvs ▸ inner.freeOf) (not_freeOf left.freeOf.balanced (plain_or _) rfl)
    | or left' right' =>
      obtain ⟨rfl, _, rfl⟩ := split_last left.freeOf.balanced left'.freeOf.balanced (plain_or _)
        (plain_or _) rfl rfl right.freeOf right'.freeOf hvs
      rw [ihl left', ihr right']

theorem IsTest.fits {ts : List Token} {c : Condition} (h : IsTest chained ts c) (role : Role) :
    ∀ operand ∈ c.operandsIn role, role.Fits chained operand := by
  cases h with
  | holds _ _ => exact List.forall_mem_nil _
  | tests hleft h =>
    cases h with
    | compare _ hright =>
      cases role with
      | tested => exact List.forall_mem_singleton.2 hleft
      | compared => exact List.forall_mem_singleton.2 hright
      | listed => exact List.forall_mem_nil _
    | isIn _ hitems =>
      cases role with
      | tested => exact List.forall_mem_singleton.2 hleft
      | compared => exact List.forall_mem_nil _
      | listed => exact hitems.isListed
    | isNull _ =>
      cases role with
      | tested => exact List.forall_mem_singleton.2 hleft
      | compared | listed => exact List.forall_mem_nil _

/-- **Every operand of a reading fits its role.** -/
theorem ReadsAs.fits {level : Level} {ts : List Token} {c : Condition} (h : ReadsAs chained level ts c)
    (role : Role) : ∀ operand ∈ c.operandsIn role, role.Fits chained operand := by
  induction h with
  | test h => exact h.fits role
  | not _ ih => exact ih
  | group _ ih => exact ih
  | unary _ ih => exact ih
  | and _ _ ihl ihr => exact List.forall_mem_append.2 ⟨ihl, ihr⟩
  | conjunction _ ih => exact ih
  | or _ _ ihl ihr => exact List.forall_mem_append.2 ⟨ihl, ihr⟩

end QueryTemplate.Sql
