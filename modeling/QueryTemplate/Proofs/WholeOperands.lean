import QueryTemplate.Proofs.Skeleton
import QueryTemplate.Proofs.Spelling
import QueryTemplate.Proofs.Sql.Lexing
import QueryTemplate.Proofs.Sql.Precedence
import QueryTemplate.Template

/-!
# Fields as operands of the written predicate

A field is written as its whole expression, whatever that is, and no parentheses are put around it. So
whether the predicate still says what the filter says depends on the expressions.

* **`scans_layout`**: the predicate is cut into the tokens of its parts.
* **`settles_layout`**: which words are names in it is settled part by part.
* **`readsAs_layout`**: if every operand fits its role, these tokens are read as the filter.
* **`reads_fields_whole_iff`**: and only then.
-/

namespace QueryTemplate

open QueryTemplate.Filter (Delimited Level)
open QueryTemplate.Sql (Scans Opens IsTerm IsTest Listed ReadsAs Role settle endsOperand)

variable {chained : Bool} {fields : List Field} {ms ns : List Mark} {text : String} {ts : List Sql.Token}

/-! ## The tokens of a predicate -/

/-- The tokens that a part of a written filter is cut into; none if a quotation or a comment is open in it. -/
def Mark.spelled (fields : List Field) (m : Mark) : List Sql.Token :=
  (Sql.lex (m.text fields).toList).getD []

/-- The tokens of a part: those of an operand are settled, the words around operands are keywords. -/
def Mark.tokens (fields : List Field) : Mark → List Sql.Token
  | .verbatim text => Mark.spelled fields (.verbatim text)
  | .operand o => settle .operand (Mark.spelled fields (.operand o))

def textOf (fields : List Field) (ms : List Mark) : List Char :=
  ms.flatMap fun m => (m.text fields).toList

def spelledOf (fields : List Field) (ms : List Mark) : List Sql.Token :=
  ms.flatMap (Mark.spelled fields)

def tokensOf (fields : List Field) (ms : List Mark) : List Sql.Token :=
  ms.flatMap (Mark.tokens fields)

theorem toList_sql_of_write {s : Scope} {f : Filter} {depth : Nat} {p : Fragment}
    (h : f.write s depth = .ok p) : p.sql.toList = textOf s.fields f.layout := by
  rw [sql_eq_join_layout h, String.toList_join, List.flatMap_map]
  rfl

/-- The parts are cut into their tokens, in front of delimited text. -/
def CutApart (fields : List Field) (ms : List Mark) : Prop :=
  Scans (textOf fields ms) (spelledOf fields ms)

theorem textOf_append (ms ns : List Mark) :
    textOf fields (ms ++ ns) = textOf fields ms ++ textOf fields ns :=
  List.flatMap_append

theorem spelledOf_append (ms ns : List Mark) :
    spelledOf fields (ms ++ ns) = spelledOf fields ms ++ spelledOf fields ns :=
  List.flatMap_append

theorem spelledOf_cons (m : Mark) (ms : List Mark) :
    spelledOf fields (m :: ms) = m.spelled fields ++ spelledOf fields ms :=
  List.flatMap_cons

theorem tokensOf_append (ms ns : List Mark) :
    tokensOf fields (ms ++ ns) = tokensOf fields ms ++ tokensOf fields ns :=
  List.flatMap_append

theorem tokensOf_cons (m : Mark) (ms : List Mark) :
    tokensOf fields (m :: ms) = m.tokens fields ++ tokensOf fields ms :=
  List.flatMap_cons

theorem tokens_verbatim (h : Scans text.toList ts) : Mark.tokens fields (.verbatim text) = ts := by
  show (Sql.lex text.toList).getD [] = ts
  rw [h.lex]
  rfl

theorem spelled_verbatim (h : Scans text.toList ts) : Mark.spelled fields (.verbatim text) = ts :=
  tokens_verbatim h

theorem cutApart_singleton {m : Mark} (h : Scans (m.text fields).toList (m.spelled fields)) :
    CutApart fields [m] := by
  unfold CutApart textOf spelledOf
  rw [List.flatMap_singleton, List.flatMap_singleton]
  exact h

theorem cutApart_verbatim (h : Scans text.toList ts) : CutApart fields [.verbatim text] := by
  refine cutApart_singleton ?_
  rw [spelled_verbatim h]
  exact h

/-- A text that parts can stand in front of directly. -/
def Follows (text : String) : Prop :=
  ∀ rest, Delimited (text.toList ++ rest)

theorem CutApart.cons (htext : Opens text.toList ts) (hns : CutApart fields ns) :
    CutApart fields (.verbatim text :: ns) := by
  unfold CutApart
  rw [spelledOf_cons, spelled_verbatim htext.scans]
  exact htext.append_scans hns

theorem CutApart.append (hms : CutApart fields ms) (hns : CutApart fields ns)
    (hdelimited : ∀ rest, Delimited rest → Delimited (textOf fields ns ++ rest)) :
    CutApart fields (ms ++ ns) := by
  unfold CutApart
  rw [textOf_append, spelledOf_append]
  exact Scans.append hms hns hdelimited

theorem CutApart.join (hms : CutApart fields ms) (hfollows : Follows text)
    (htext : Opens text.toList ts) (hns : CutApart fields ns) :
    CutApart fields (ms ++ .verbatim text :: ns) := by
  refine hms.append (.cons htext hns) fun rest _ => ?_
  show Delimited (text.toList ++ textOf fields ns ++ rest)
  rw [List.append_assoc]
  exact hfollows _

theorem CutApart.close (hms : CutApart fields ms) (hfollows : Follows text)
    (htext : Scans text.toList ts) : CutApart fields (ms ++ [.verbatim text]) := by
  refine hms.append (cutApart_verbatim htext) fun rest _ => ?_
  show Delimited (text.toList ++ [] ++ rest)
  rw [List.append_assoc]
  exact hfollows _

/-! ### Texts around operands -/

/-- The tokens of a comparison in SQL. -/
def CompareOp.sqlTokens : CompareOp → List Sql.Token
  | .eq => [.symbol .eq]
  | .notEq => [.symbol .notEq]
  | .gt => [.symbol .gt]
  | .gtEq => [.symbol .gtEq]
  | .lt => [.symbol .lt]
  | .ltEq => [.symbol .ltEq]
  | .like => [.word ⟨"LIKE", none⟩ (some .LIKE)]
  | .notLike => [.word ⟨"NOT", none⟩ (some .NOT), .word ⟨"LIKE", none⟩ (some .LIKE)]

/-- The tokens in front of the items of a list. -/
def listTokens : Bool → List Sql.Token
  | true => [.word ⟨"NOT", none⟩ (some .NOT), .word ⟨"IN", none⟩ (some .IN), .symbol .opening]
  | false => [.word ⟨"IN", none⟩ (some .IN), .symbol .opening]

def nullTokens : Bool → List Sql.Token
  | true => [.word ⟨"IS", none⟩ (some .IS), .word ⟨"NOT", none⟩ (some .NOT),
      .word ⟨"NULL", none⟩ (some .NULL)]
  | false => [.word ⟨"IS", none⟩ (some .IS), .word ⟨"NULL", none⟩ (some .NULL)]

/-- What is compared in place of a test for membership in the empty list. -/
def answerTokens (negated : Bool) : List Sql.Token :=
  [.number "1" false] ++ (CompareOp.sqlTokens .eq ++ [.number (if negated then "1" else "0") false])

/-- The texts of a written filter that come from no field, less the blanks and the opening parentheses
at their ends, and the tokens that each of them is cut into. -/
def fixedTexts : List (String × List Sql.Token) :=
  (CompareOp.all.map fun op => (" " ++ op.sql, op.sqlTokens))
    ++ [(" AND", [.word ⟨"AND", none⟩ (some .AND)]), (" OR", [.word ⟨"OR", none⟩ (some .OR)]),
      ("NOT", [.word ⟨"NOT", none⟩ (some .NOT)]), (" IN", [.word ⟨"IN", none⟩ (some .IN)]),
      (" NOT IN", [.word ⟨"NOT", none⟩ (some .NOT), .word ⟨"IN", none⟩ (some .IN)]),
      (" IS NULL", nullTokens false), (" IS NOT NULL", nullTokens true),
      ("1 = 0", answerTokens false), ("1 = 1", answerTokens true),
      (",", [.symbol .comma]), (")", [.symbol .closing]), ("?", [.placeholder "?"])]

theorem scans_of_mem_fixedTexts (h : (text, ts) ∈ fixedTexts) : Scans text.toList ts := by
  have hall : ∀ entry ∈ fixedTexts,
      Sql.Tidy entry.1.toList ∧ Sql.lex entry.1.toList = some entry.2 := by decide +kernel
  obtain ⟨htidy, hlex⟩ := hall _ h
  exact htidy.scans hlex

/-- A blank at the end lets everything follow. -/
theorem opens_blank (text : String) (h : (text, ts) ∈ fixedTexts) : Opens (text ++ " ").toList ts := by
  rw [String.toList_append]
  exact (scans_of_mem_fixedTexts h).blank

theorem opens_group (text : String) (h : Opens text.toList ts) :
    Opens (text ++ "(").toList (ts ++ [.symbol .opening]) := by
  rw [String.toList_append]
  exact h.append Sql.opens_opening

theorem opens_op (op : CompareOp) : Opens (" " ++ op.sql ++ " ").toList op.sqlTokens := by
  refine opens_blank _ (List.mem_append_left _ (List.mem_map.2 ⟨op, ?_, rfl⟩))
  cases op <;> decide

theorem opens_and : Opens " AND ".toList [.word ⟨"AND", none⟩ (some .AND)] :=
  opens_blank " AND" (by simp [fixedTexts])

theorem opens_or : Opens " OR ".toList [.word ⟨"OR", none⟩ (some .OR)] :=
  opens_blank " OR" (by simp [fixedTexts])

theorem opens_comma : Opens ", ".toList [.symbol .comma] :=
  opens_blank "," (by simp [fixedTexts])

theorem opens_negation :
    Opens "NOT (".toList [.word ⟨"NOT", none⟩ (some .NOT), .symbol .opening] :=
  have hword : Opens "NOT ".toList [.word ⟨"NOT", none⟩ (some .NOT)] :=
    opens_blank "NOT" (by simp [fixedTexts])
  opens_group "NOT " hword

theorem opens_in (negated : Bool) :
    Opens (if negated then " NOT IN (" else " IN (").toList (listTokens negated) := by
  cases negated with
  | true =>
    have hwords : Opens " NOT IN ".toList
        [.word ⟨"NOT", none⟩ (some .NOT), .word ⟨"IN", none⟩ (some .IN)] :=
      opens_blank " NOT IN" (by simp [fixedTexts])
    exact opens_group " NOT IN " hwords
  | false =>
    have hword : Opens " IN ".toList [.word ⟨"IN", none⟩ (some .IN)] :=
      opens_blank " IN" (by simp [fixedTexts])
    exact opens_group " IN " hword

theorem scans_closing : Scans ")".toList [.symbol .closing] :=
  scans_of_mem_fixedTexts (by simp [fixedTexts])

theorem scans_placeholder : Scans "?".toList [.placeholder "?"] :=
  scans_of_mem_fixedTexts (by simp [fixedTexts])

theorem scans_answer (negated : Bool) :
    Scans (if negated then "1 = 1" else "1 = 0").toList (answerTokens negated) := by
  cases negated <;> exact scans_of_mem_fixedTexts (by simp [fixedTexts])

theorem scans_nullTest (negated : Bool) :
    Scans (if negated then " IS NOT NULL" else " IS NULL").toList (nullTokens negated) := by
  cases negated <;> exact scans_of_mem_fixedTexts (by simp [fixedTexts])

/-! ### The whole predicate -/

theorem CutApart.wrap (hms : CutApart fields ms) (parens : Bool) :
    CutApart fields (Mark.wrap parens ms) := by
  cases parens with
  | false => exact hms
  | true =>
    have hclosed : CutApart fields (ms ++ [.verbatim ")"]) :=
      hms.close (fun _ => rfl) scans_closing
    exact hclosed.cons Sql.opens_opening

/-- An operand whose text is cut apart from what follows it. -/
def Operand.Tidy (fields : List Field) (o : Operand) : Prop :=
  CutApart fields [.operand o]

theorem cutApart_items {o : Operand} {os : List Operand} (h : ∀ x ∈ o :: os, x.Tidy fields) :
    CutApart fields (.operand o :: Mark.moreItems os) := by
  induction os generalizing o with
  | nil => exact h o List.mem_cons_self
  | cons next os ih =>
    have hrest := ih fun x hx => h x (List.mem_cons_of_mem _ hx)
    have ho : CutApart fields [.operand o] := h o List.mem_cons_self
    exact ho.join (fun _ => rfl) opens_comma hrest

/-- **A predicate is cut into the tokens of its parts.** Induction on the tree. Every operand is
delimited by what the writer puts behind it, and the texts between operands end in a blank or in a
parenthesis. -/
theorem scans_layout {f : Filter} (h : ∀ o ∈ f.writtenOperands, o.Tidy fields) :
    CutApart fields f.layout := by
  induction f with
  | compare left op right =>
    have hleft : CutApart fields [.operand left] := h left (by simp [Filter.writtenOperands])
    have hright : CutApart fields [.operand right] := h right (by simp [Filter.writtenOperands])
    exact hleft.join (fun _ => by cases op <;> rfl) (opens_op op) hright
  | isIn o items negated =>
    cases items with
    | nil => exact cutApart_verbatim (scans_answer negated)
    | cons item items =>
      have ho : CutApart fields [.operand o] := h o List.mem_cons_self
      have hitems := cutApart_items fun x hx => h x (List.mem_cons_of_mem _ hx)
      have hclosed : CutApart fields ((.operand item :: Mark.moreItems items) ++ [.verbatim ")"]) :=
        hitems.close (fun _ => rfl) scans_closing
      exact ho.join (fun _ => by cases negated <;> rfl) (opens_in negated) hclosed
  | isNull o negated =>
    have ho : CutApart fields [.operand o] := h o List.mem_cons_self
    exact ho.close (fun _ => by cases negated <;> rfl) (scans_nullTest negated)
  | and left right ihl ihr =>
    have hleft := ihl fun o ho => h o (List.mem_append_left _ ho)
    have hright := ihr fun o ho => h o (List.mem_append_right _ ho)
    exact (hleft.wrap _).join (fun _ => rfl) opens_and (hright.wrap _)
  | or left right ihl ihr =>
    have hleft := ihl fun o ho => h o (List.mem_append_left _ ho)
    have hright := ihr fun o ho => h o (List.mem_append_right _ ho)
    exact hleft.join (fun _ => rfl) opens_or (hright.wrap _)
  | not inner ih =>
    have hclosed : CutApart fields (inner.layout ++ [.verbatim ")"]) :=
      (ih h).close (fun _ => rfl) scans_closing
    exact hclosed.cons opens_negation

/-! ## Words of a predicate -/

/-- The words of some parts are settled part by part, in front of all that an operand ends in front of. -/
def Settles (fields : List Field) (ms : List Mark) : Prop :=
  ∀ rest, endsOperand rest = true →
    settle .operand (spelledOf fields ms ++ rest) = tokensOf fields ms ++ settle .operator rest

/-- Tokens between operands, none of which is a name. -/
def Joins (ts : List Sql.Token) : Prop :=
  ∀ rest, endsOperand (ts ++ rest) = true ∧ settle .operator (ts ++ rest) = ts ++ settle .operand rest

/-- Tokens behind an operand, none of which is a name. -/
def Closes (ts : List Sql.Token) : Prop :=
  ∀ rest, endsOperand rest = true →
    endsOperand (ts ++ rest) = true ∧ settle .operator (ts ++ rest) = ts ++ settle .operator rest

/-- Tokens in front of an operand, none of which is a name. -/
def Leads (ts : List Sql.Token) : Prop :=
  ∀ rest, settle .operand (ts ++ rest) = ts ++ settle .operand rest

theorem Settles.cons (htext : Scans text.toList ts) (hts : Leads ts) (hns : Settles fields ns) :
    Settles fields (.verbatim text :: ns) := by
  intro rest hrest
  rw [spelledOf_cons, tokensOf_cons, spelled_verbatim htext, tokens_verbatim htext, List.append_assoc,
    hts, hns rest hrest, List.append_assoc]

theorem Settles.join (hms : Settles fields ms) (htext : Scans text.toList ts) (hts : Joins ts)
    (hns : Settles fields ns) : Settles fields (ms ++ .verbatim text :: ns) := by
  intro rest hrest
  obtain ⟨hends, hsettle⟩ := hts (spelledOf fields ns ++ rest)
  rw [spelledOf_append, tokensOf_append, spelledOf_cons, tokensOf_cons, spelled_verbatim htext,
    tokens_verbatim htext, List.append_assoc, List.append_assoc, hms _ hends, hsettle, hns rest hrest]
  simp only [List.append_assoc]

theorem Settles.close (hms : Settles fields ms) (htext : Scans text.toList ts) (hts : Closes ts) :
    Settles fields (ms ++ [.verbatim text]) := by
  intro rest hrest
  obtain ⟨hends, hsettle⟩ := hts rest hrest
  have hspelled : spelledOf fields [.verbatim text] = ts := by
    rw [spelledOf, List.flatMap_singleton, spelled_verbatim htext]
  have htokens : tokensOf fields [.verbatim text] = ts := by
    rw [tokensOf, List.flatMap_singleton, tokens_verbatim htext]
  rw [spelledOf_append, tokensOf_append, hspelled, htokens, List.append_assoc, hms _ hends, hsettle,
    List.append_assoc]

theorem joins_op (op : CompareOp) : Joins op.sqlTokens := by
  cases op <;> exact fun _ => ⟨rfl, rfl⟩

theorem joins_list (negated : Bool) : Joins (listTokens negated) := by
  cases negated <;> exact fun _ => ⟨rfl, rfl⟩

theorem closes_null (negated : Bool) : Closes (nullTokens negated) := by
  intro rest hrest
  have hends : endsOperand (nullTokens negated ++ rest) = true := by cases negated <;> rfl
  have hafter : Sql.Place.operator.afterAll (nullTokens negated) = .operator := by cases negated <;> rfl
  have hsettle : settle .operator (nullTokens negated) = nullTokens negated := by cases negated <;> rfl
  exact ⟨hends, by rw [Sql.settle_append hafter hrest, hsettle]⟩

theorem closes_closing : Closes [.symbol .closing] :=
  fun _ _ => ⟨rfl, rfl⟩

theorem Settles.wrap (hms : Settles fields ms) (parens : Bool) :
    Settles fields (Mark.wrap parens ms) := by
  cases parens with
  | false => exact hms
  | true => exact (hms.close scans_closing closes_closing).cons Sql.opens_opening.scans fun _ => rfl

theorem settles_items {o : Operand} {os : List Operand} (h : ∀ x ∈ o :: os, Settles fields [.operand x]) :
    Settles fields (.operand o :: Mark.moreItems os) := by
  induction os generalizing o with
  | nil => exact h o List.mem_cons_self
  | cons next os ih =>
    have hrest := ih fun x hx => h x (List.mem_cons_of_mem _ hx)
    have ho : Settles fields [.operand o] := h o List.mem_cons_self
    exact ho.join opens_comma.scans (fun _ => ⟨rfl, rfl⟩) hrest

/-- **The words of a predicate are settled part by part.** Induction on the tree. Every operand ends in
front of what the writer puts behind it, and the texts between operands leave an operand due. -/
theorem settles_layout {f : Filter} (h : ∀ o ∈ f.writtenOperands, Settles fields [.operand o]) :
    Settles fields f.layout := by
  induction f with
  | compare left op right =>
    have hleft : Settles fields [.operand left] := h left (by simp [Filter.writtenOperands])
    have hright : Settles fields [.operand right] := h right (by simp [Filter.writtenOperands])
    exact hleft.join (opens_op op).scans (joins_op op) hright
  | isIn o items negated =>
    cases items with
    | nil =>
      intro rest _
      show settle .operand ((Mark.spelled fields (.verbatim _) ++ []) ++ rest)
        = (Mark.tokens fields (.verbatim _) ++ []) ++ _
      rw [spelled_verbatim (scans_answer negated), tokens_verbatim (scans_answer negated),
        List.append_nil]
      cases negated <;> rfl
    | cons item items =>
      have ho : Settles fields [.operand o] := h o List.mem_cons_self
      have hitems := settles_items fun x hx => h x (List.mem_cons_of_mem _ hx)
      exact ho.join (opens_in negated).scans (joins_list negated)
        (hitems.close scans_closing closes_closing)
  | isNull o negated =>
    have ho : Settles fields [.operand o] := h o List.mem_cons_self
    exact ho.close (scans_nullTest negated) (closes_null negated)
  | and left right ihl ihr =>
    have hleft := ihl fun o ho => h o (List.mem_append_left _ ho)
    have hright := ihr fun o ho => h o (List.mem_append_right _ ho)
    exact (hleft.wrap _).join opens_and.scans (fun _ => ⟨rfl, rfl⟩) (hright.wrap _)
  | or left right ihl ihr =>
    have hleft := ihl fun o ho => h o (List.mem_append_left _ ho)
    have hright := ihr fun o ho => h o (List.mem_append_right _ ho)
    exact hleft.join opens_or.scans (fun _ => ⟨rfl, rfl⟩) (hright.wrap _)
  | not inner ih =>
    exact ((ih h).close scans_closing closes_closing).cons opens_negation.scans fun _ => rfl

/-! ## The condition that they make up -/

/-- The tokens that an operand is written as: of a field, all tokens of its expression. -/
def Operand.tokens (fields : List Field) (o : Operand) : List Sql.Token :=
  Mark.tokens fields (.operand o)

namespace Filter

/-- The written operands that have a role in tests. In place of a test for membership in the empty list, two
numbers are compared. -/
def operandsIn (role : Role) : Filter → List Operand
  | .compare left _ right =>
    match role with
    | .tested => [left]
    | .compared => [right]
    | .listed => []
  | .isIn _ [] _ => []
  | .isIn o (item :: items) _ =>
    match role with
    | .tested => [o]
    | .compared => []
    | .listed => item :: items
  | .isNull o _ =>
    match role with
    | .tested => [o]
    | .compared | .listed => []
  | .and left right => left.operandsIn role ++ right.operandsIn role
  | .or left right => left.operandsIn role ++ right.operandsIn role
  | .not inner => inner.operandsIn role

theorem mem_writtenOperands_of_operandsIn {f : Filter} {role : Role} {o : Operand}
    (ho : o ∈ f.operandsIn role) : o ∈ f.writtenOperands := by
  induction f with
  | compare left op right => cases role <;> simp_all [operandsIn, writtenOperands]
  | isIn operand items negated =>
    cases items with
    | nil => cases ho
    | cons item items => cases role <;> simp_all [operandsIn, writtenOperands]
  | isNull operand negated => cases role <;> simp_all [operandsIn, writtenOperands]
  | and left right ihl ihr =>
    exact (List.mem_append.1 ho).elim (fun h => List.mem_append_left _ (ihl h))
      fun h => List.mem_append_right _ (ihr h)
  | or left right ihl ihr =>
    exact (List.mem_append.1 ho).elim (fun h => List.mem_append_left _ (ihl h))
      fun h => List.mem_append_right _ (ihr h)
  | not inner ih => exact ih ho

/-- The filter as a condition on the tokens of its operands. A test for membership in the empty list is
written as the comparison of two numbers. -/
def condition (fields : List Field) : Filter → Sql.Condition
  | .compare left op right => .compare (left.tokens fields) op (right.tokens fields)
  | .isIn _ [] negated =>
    .compare [.number "1" false] .eq [.number (if negated then "1" else "0") false]
  | .isIn o (item :: items) negated =>
    .isIn (o.tokens fields) ((item :: items).map (Operand.tokens fields)) negated
  | .isNull o negated => .isNull (o.tokens fields) negated
  | .and left right => .and (left.condition fields) (right.condition fields)
  | .or left right => .or (left.condition fields) (right.condition fields)
  | .not inner => .not (inner.condition fields)

theorem comparison?_sqlTokens (op : CompareOp) (ts : List Sql.Token) :
    Sql.comparison? (op.sqlTokens ++ ts) = some (op, ts) := by
  cases op <;> rfl

theorem membership?_listTokens (negated : Bool) (ts : List Sql.Token) :
    Sql.membership? (listTokens negated ++ ts) = some (negated, ts) := by
  cases negated <;> rfl

theorem nullTest?_nullTokens (negated : Bool) : Sql.nullTest? (nullTokens negated) = some negated := by
  cases negated <;> rfl

/-! ### Groups and levels -/

theorem readsAs_disjunction {level : Level} {ts : List Sql.Token} {c : Sql.Condition}
    (h : ReadsAs chained level ts c) : ReadsAs chained .disjunction ts c := by
  cases level with
  | disjunction => exact h
  | conjunction => exact .conjunction h
  | unary => exact .conjunction (.unary h)

theorem tokensOf_closed (ms : List Mark) :
    tokensOf fields (ms ++ [.verbatim ")"]) = tokensOf fields ms ++ [.symbol .closing] := by
  rw [tokensOf_append, tokensOf_cons, tokens_verbatim scans_closing]
  rfl

theorem readsAs_group {f : Filter} {level : Level} {c : Sql.Condition}
    (h : ReadsAs chained level (tokensOf fields f.layout) c) :
    ReadsAs chained .unary (tokensOf fields (Mark.wrap true f.layout)) c := by
  show ReadsAs chained .unary (tokensOf fields (.verbatim "(" :: (f.layout ++ [.verbatim ")"]))) c
  rw [tokensOf_cons, tokens_verbatim Sql.opens_opening.scans, tokensOf_closed]
  exact .group (readsAs_disjunction h)

/-- On the left of `AND`, and on the right of `OR`, the writer puts disjunctions in parentheses. -/
theorem readsAs_conjunct {f : Filter} {c : Sql.Condition}
    (h : ReadsAs chained f.level (tokensOf fields f.layout) c) :
    ReadsAs chained .conjunction (tokensOf fields (Mark.wrap f.isOr f.layout)) c := by
  cases f with
  | or left right => exact .unary (readsAs_group h)
  | and left right => exact h
  | compare left op right => exact .unary h
  | isIn o items negated => exact .unary h
  | isNull o negated => exact .unary h
  | not inner => exact .unary h

/-- On the right of `AND` it puts both kinds of chains in parentheses. -/
theorem readsAs_factor {f : Filter} {c : Sql.Condition}
    (h : ReadsAs chained f.level (tokensOf fields f.layout) c) :
    ReadsAs chained .unary (tokensOf fields (Mark.wrap (f.isAnd || f.isOr) f.layout)) c := by
  cases f with
  | or left right => exact readsAs_group h
  | and left right => exact readsAs_group h
  | compare left op right => exact h
  | isIn o items negated => exact h
  | isNull o negated => exact h
  | not inner => exact h

theorem listed_items {o : Operand} {os : List Operand}
    (h : ∀ x ∈ o :: os, Sql.IsListed (x.tokens fields)) :
    Listed (tokensOf fields (.operand o :: Mark.moreItems os))
      ((o :: os).map (Operand.tokens fields)) := by
  induction os generalizing o with
  | nil =>
    show Listed (o.tokens fields ++ []) _
    rw [List.append_nil]
    exact .single (h o List.mem_cons_self)
  | cons next os ih =>
    show Listed (o.tokens fields ++ (Mark.tokens fields (.verbatim ", ")
      ++ tokensOf fields (.operand next :: Mark.moreItems os))) _
    rw [tokens_verbatim opens_comma.scans]
    exact .cons (h o List.mem_cons_self) (ih fun x hx => h x (List.mem_cons_of_mem _ hx))

/-- **A predicate is read as the filter.** Induction on the tree: the parentheses of the writer are
those that precedence asks for, as long as the operands fit their roles. -/
theorem readsAs_layout {f : Filter}
    (h : ∀ role, ∀ o ∈ f.operandsIn role, role.Fits chained (o.tokens fields)) :
    ReadsAs chained f.level (tokensOf fields f.layout) (f.condition fields) := by
  induction f with
  | compare left op right =>
    have hleft := h .tested left List.mem_cons_self
    have hright := h .compared right List.mem_cons_self
    show ReadsAs chained .unary (left.tokens fields ++ (Mark.tokens fields (.verbatim _)
      ++ (right.tokens fields ++ []))) _
    rw [tokens_verbatim (opens_op op).scans, List.append_nil]
    exact .test (.tests hleft (.compare (comparison?_sqlTokens op _) hright))
  | isIn o items negated =>
    cases items with
    | nil =>
      -- the answer that stands for an empty list is a comparison of two numbers
      have hone : IsTerm [.number "1" false] := by decide
      have hanswer : IsTerm [.number (if negated then "1" else "0") false] := by
        cases negated <;> decide
      show ReadsAs chained .unary (Mark.tokens fields (.verbatim _) ++ []) _
      rw [tokens_verbatim (scans_answer negated), List.append_nil]
      exact .test (.tests (hone.isTested chained) (.compare (comparison?_sqlTokens .eq _) hanswer))
    | cons item items =>
      have ho := h .tested o List.mem_cons_self
      have hitems := listed_items (h .listed)
      show ReadsAs chained .unary (o.tokens fields ++ (Mark.tokens fields (.verbatim _)
        ++ tokensOf fields ((.operand item :: Mark.moreItems items) ++ [.verbatim ")"]))) _
      rw [tokens_verbatim (opens_in negated).scans, tokensOf_closed]
      exact .test (.tests ho (.isIn (membership?_listTokens negated _) hitems))
  | isNull o negated =>
    have ho := h .tested o List.mem_cons_self
    show ReadsAs chained .unary (o.tokens fields ++ (Mark.tokens fields (.verbatim _) ++ [])) _
    rw [tokens_verbatim (scans_nullTest negated), List.append_nil]
    exact .test (.tests ho (.isNull (nullTest?_nullTokens negated)))
  | and left right ihl ihr =>
    have hleft := ihl fun role o ho => h role o (List.mem_append_left _ ho)
    have hright := ihr fun role o ho => h role o (List.mem_append_right _ ho)
    show ReadsAs chained .conjunction (tokensOf fields (Mark.wrap left.isOr left.layout
      ++ .verbatim " AND " :: Mark.wrap (right.isAnd || right.isOr) right.layout)) _
    rw [tokensOf_append, tokensOf_cons, tokens_verbatim opens_and.scans]
    exact .and (readsAs_conjunct hleft) (readsAs_factor hright)
  | or left right ihl ihr =>
    have hleft := ihl fun role o ho => h role o (List.mem_append_left _ ho)
    have hright := ihr fun role o ho => h role o (List.mem_append_right _ ho)
    show ReadsAs chained .disjunction (tokensOf fields (left.layout
      ++ .verbatim " OR " :: Mark.wrap right.isOr right.layout)) _
    rw [tokensOf_append, tokensOf_cons, tokens_verbatim opens_or.scans]
    exact .or (readsAs_disjunction hleft) (readsAs_conjunct hright)
  | not inner ih =>
    show ReadsAs chained .unary (tokensOf fields (.verbatim "NOT (" :: (inner.layout ++ [.verbatim ")"]))) _
    rw [tokensOf_cons, tokens_verbatim opens_negation.scans, tokensOf_closed]
    exact .not (.group (readsAs_disjunction (ih h)))

/-- The condition has the operands of the filter in the same roles. -/
theorem mem_operandsIn_condition (f : Filter) (role : Role) {o : Operand} (ho : o ∈ f.operandsIn role) :
    o.tokens fields ∈ (f.condition fields).operandsIn role := by
  induction f with
  | compare left op right => cases role <;> simp_all [operandsIn, condition, Sql.Condition.operandsIn]
  | isIn operand items negated =>
    cases items with
    | nil => cases ho
    | cons item items =>
      cases role with
      | tested =>
        rw [List.mem_singleton.1 ho]
        exact List.mem_cons_self
      | compared => cases ho
      | listed => exact List.mem_map_of_mem ho
  | isNull operand negated => cases role <;> simp_all [operandsIn, condition, Sql.Condition.operandsIn]
  | and left right ihl ihr =>
    exact (List.mem_append.1 ho).elim (fun h => List.mem_append_left _ (ihl h))
      fun h => List.mem_append_right _ (ihr h)
  | or left right ihl ihr =>
    exact (List.mem_append.1 ho).elim (fun h => List.mem_append_left _ (ihl h))
      fun h => List.mem_append_right _ (ihr h)
  | not inner ih => exact ih ho

end Filter

/-! ## Fields -/

namespace Field

/-- The tokens that the expression is cut into. -/
def spelled (g : Field) : List Sql.Token :=
  (Sql.lex g.expression.toList).getD []

/-- The tokens of the expression. -/
def tokens (g : Field) : List Sql.Token :=
  settle .operand g.spelled

/-- An expression that ends where its text does: it leaves no quotation and no comment open. -/
def Tidy (g : Field) : Prop :=
  Sql.Tidy g.expression.toList ∧ (Sql.lex g.expression.toList).isSome

instance (g : Field) : Decidable g.Tidy :=
  inferInstanceAs (Decidable (_ ∧ _))

/-- An expression that ends where its text does, with all that is opened in it, and that has no token of the
kind `stop` outside of brackets. Not all expressions of templates are closed: `- -x` is written as `--x`,
which is a comment. -/
structure Closed (stop : Sql.Token → Bool) (g : Field) : Prop where
  tidy : g.Tidy
  nonempty : g.tokens ≠ []
  free : Sql.FreeOf stop g.tokens
  ends : Sql.Place.operand.afterAll g.spelled = .operator

instance (stop : Sql.Token → Bool) (g : Field) : Decidable (g.Closed stop) :=
  decidable_of_iff
    (g.Tidy ∧ g.tokens ≠ [] ∧ Sql.FreeOf stop g.tokens ∧ Sql.Place.operand.afterAll g.spelled = .operator)
    ⟨fun ⟨ht, hn, hf, he⟩ => ⟨ht, hn, hf, he⟩, fun ⟨ht, hn, hf, he⟩ => ⟨ht, hn, hf, he⟩⟩

theorem Tidy.scans {g : Field} (h : g.Tidy) : Scans g.expression.toList g.spelled := by
  obtain ⟨hends, hlex⟩ := h
  obtain ⟨ts, hts⟩ := Option.isSome_iff_exists.1 hlex
  have hspelled : g.spelled = ts := by rw [spelled, hts, Option.getD_some]
  rw [hspelled]
  exact hends.scans hts

/-- A closed expression is settled by itself. -/
theorem Closed.settle_append {stop : Sql.Token → Bool} {g : Field} (h : g.Closed stop)
    {rest : List Sql.Token} (hrest : endsOperand rest = true) :
    settle .operand (g.spelled ++ rest) = g.tokens ++ settle .operator rest :=
  Sql.settle_append h.ends hrest

end Field

theorem mem_layout_of_mem_writtenOperands {f : Filter} {o : Operand} (ho : o ∈ f.writtenOperands) :
    .operand o ∈ f.layout := by
  rw [← Filter.layout_operands, List.mem_filterMap] at ho
  obtain ⟨m, hm, ho⟩ := ho
  cases m with
  | operand o' =>
    cases ho
    exact hm
  | verbatim text => cases ho

/-- A value is written as a placeholder, a field as its whole expression. -/
theorem Operand.cases_of_write {s : Scope} {f : Filter} {depth : Nat} {p : Fragment}
    (hwrite : f.write s depth = .ok p) {o : Operand} (ho : o ∈ f.writtenOperands) :
    ((Mark.operand o).text s.fields = "?")
      ∨ ∃ name g, o = .field name ∧ Field.find? s.fields name = some g
        ∧ (Mark.operand o).text s.fields = g.expression := by
  obtain ⟨piece, hpiece⟩ := Scope.exists_writes_of_mem (writes_layout_of_write hwrite)
    (mem_layout_of_mem_writtenOperands ho)
  have htext := Scope.text_of_writes hpiece
  cases hpiece with
  | literal v => exact .inl rfl
  | param hv => exact .inl rfl
  | @field name g hg => exact .inr ⟨name, g, rfl, hg, htext.symm⟩

theorem Operand.spelled_of_text {o : Operand} {text : String} (h : (Mark.operand o).text fields = text) :
    Mark.spelled fields (.operand o) = (Sql.lex text.toList).getD [] := by
  rw [Mark.spelled, h]

theorem Operand.tokens_field {name : String} {g : Field} (hg : Field.find? fields name = some g) :
    (Operand.field name).tokens fields = g.tokens := by
  show settle .operand ((Sql.lex (((Field.find? fields name).map Field.expression).getD "").toList).getD [])
    = _
  rw [hg]
  rfl

theorem Operand.tokens_placeholder {o : Operand} (h : (Mark.operand o).text fields = "?") :
    o.tokens fields = [.placeholder "?"] := by
  show settle .operand (Mark.spelled fields (.operand o)) = _
  rw [spelled_of_text h, scans_placeholder.lex]
  rfl

/-- **A field is a whole operand of the written predicate exactly if its expression fits there.** Where
a filter is written, and the expressions of its fields are closed, the predicate is cut into tokens that
precedence reads in one way at most. They are read as the filter, with all tokens of the expression in
the place of each field, if and only if each expression fits its role: one that something is compared with
is a term; one that is tested is a term, or tests in a row without `AND`, `OR` and `NOT` if these are read
at all; in a list, all closed expressions are items. Words count as keywords only where no name is due:
`e.in` and `e.end` are columns. -/
theorem reads_fields_whole_iff {s : Scope} {f : Filter} {depth : Nat} {p : Fragment} (chained : Bool)
    (hwrite : f.write s depth = .ok p)
    (hclosed : ∀ name g, .field name ∈ f.writtenOperands → Field.find? s.fields name = some g →
      g.Closed Sql.Token.isUnranked) :
    ∃ ts, Sql.lexExpression p.sql.toList = some ts
      ∧ (∀ c c', ReadsAs chained .disjunction ts c → ReadsAs chained .disjunction ts c' → c = c')
      ∧ (ReadsAs chained .disjunction ts (f.condition s.fields) ↔
          ∀ role name g, .field name ∈ f.operandsIn role → Field.find? s.fields name = some g →
            role.Fits chained g.tokens) := by
  have hcut : CutApart s.fields f.layout := by
    refine scans_layout fun o ho => cutApart_singleton ?_
    rcases Operand.cases_of_write hwrite ho with htext | ⟨name, g, rfl, hg, htext⟩
    · rw [Operand.spelled_of_text htext, htext, scans_placeholder.lex]
      exact scans_placeholder
    · rw [Operand.spelled_of_text htext, htext]
      exact (hclosed name g ho hg).tidy.scans
  have hsettles : Settles s.fields f.layout := by
    refine settles_layout fun o ho rest hrest => ?_
    rw [spelledOf, tokensOf, List.flatMap_singleton, List.flatMap_singleton]
    rcases Operand.cases_of_write hwrite ho with htext | ⟨name, g, rfl, hg, htext⟩
    · rw [show Mark.tokens s.fields (.operand o) = _ from Operand.tokens_placeholder htext,
        Operand.spelled_of_text htext, scans_placeholder.lex]
      rfl
    · rw [show Mark.tokens s.fields (.operand (.field name)) = _ from Operand.tokens_field hg,
        Operand.spelled_of_text htext]
      exact (hclosed name g ho hg).settle_append hrest
  refine ⟨tokensOf s.fields f.layout, ?_, fun c c' h h' => h.unique h', fun h => ?_, fun h => ?_⟩
  · have hsettled := hsettles [] rfl
    rw [List.append_nil] at hsettled
    rw [Sql.lexExpression, toList_sql_of_write hwrite, hcut.lex, Option.map_some, hsettled]
    exact congrArg some (List.append_nil _)
  · intro role name g ho hg
    rw [← Operand.tokens_field hg]
    exact h.fits role _ (Filter.mem_operandsIn_condition f role ho)
  · refine Filter.readsAs_disjunction (Filter.readsAs_layout fun role o ho => ?_)
    rcases Operand.cases_of_write hwrite (Filter.mem_writtenOperands_of_operandsIn ho) with
      htext | ⟨name, g, rfl, hg, _⟩
    · rw [Operand.tokens_placeholder htext]
      cases chained <;> cases role <;> decide
    · rw [Operand.tokens_field hg]
      exact h role name g ho hg

/-- An arithmetic expression; one with `OR` in it that `CASE` and `END` enclose; columns that are named as
keywords are; and tests in a row, in front of another test and in a list. -/
theorem reads_fields_whole_iff_case :
    let s : Scope :=
      { fields := [⟨"a.x + a.y * 2", "total", .int⟩,
          ⟨"CASE WHEN a.b OR a.c THEN 'it''s' ELSE 'no' END", "tag", .string⟩,
          ⟨"e.end", "ending", .date⟩, ⟨"in", "entry", .date⟩,
          ⟨"a.x IS NOT NULL = a.y BETWEEN 1 AND 2", "both", .boolean⟩]
        bindings := Bindings.empty.insert "p" (.text "%s") }
    let f : Filter :=
      .and (.not (.or (.compare (.field "both") .eq (.literal (.boolean true)))
          (.isIn (.field "total") [.literal (.integer 0), .field "both"] true)))
        (.and (.compare (.field "tag") .like (.param "p"))
          (.or (.isNull (.field "ending") false) (.compare (.field "entry") .lt (.field "ending"))))
    let text := "NOT (a.x IS NOT NULL = a.y BETWEEN 1 AND 2 = ?"
      ++ " OR a.x + a.y * 2 NOT IN (?, a.x IS NOT NULL = a.y BETWEEN 1 AND 2))"
      ++ " AND (CASE WHEN a.b OR a.c THEN 'it''s' ELSE 'no' END LIKE ? AND (e.end IS NULL OR in < e.end))"
    ∃ p, f.write s 0 = .ok p ∧ p.sql = text
      ∧ (∀ name g, .field name ∈ f.writtenOperands → Field.find? s.fields name = some g →
          g.Closed Sql.Token.isUnranked)
      ∧ (∀ g ∈ s.fields, IsTerm g.tokens ∨ g.name = "both" ∧ Sql.IsChain g.tokens)
      ∧ ∃ ts, Sql.lexExpression p.sql.toList = some ts
        ∧ (∀ c c', ReadsAs true .disjunction ts c → ReadsAs true .disjunction ts c' → c = c')
        ∧ (ReadsAs true .disjunction ts (f.condition s.fields) ↔
            ∀ role name g, .field name ∈ f.operandsIn role → Field.find? s.fields name = some g →
              role.Fits true g.tokens) := by
  intro s f text
  obtain ⟨p, hwrite, hsql⟩ : ∃ p, f.write s 0 = .ok p ∧ p.sql = text := ⟨_, rfl, by decide +kernel⟩
  have hclosed : ∀ name g, .field name ∈ f.writtenOperands → Field.find? s.fields name = some g →
      g.Closed Sql.Token.isUnranked := by
    have hfields : ∀ g ∈ s.fields, g.Closed Sql.Token.isUnranked := by decide +kernel
    exact fun name g _ hg => hfields g (List.mem_of_find?_eq_some hg)
  exact ⟨p, hwrite, hsql, hclosed, by decide +kernel, reads_fields_whole_iff true hwrite hclosed⟩

/-- A field that is no operand of the predicate it is written in: of `a.x OR a.y`, the test takes only
what stands behind the `OR`. -/
theorem disjunction_not_read_whole :
    let column (name : String) : List Sql.Token :=
      [.word ⟨"a", none⟩ none, .symbol .period, .word ⟨name, none⟩ none]
    ∃ d f g q ts, Definition.ofSql "SELECT a.x OR a.y AS flag_boolean FROM a" = .ok d
      ∧ Filter.parse "flag = TRUE" = .ok f ∧ .field "flag" ∈ f.operands
      ∧ d.field? "flag" = some g ∧ g.expression = "a.x OR a.y"
      ∧ compileFilter d.fields "flag = TRUE" Bindings.empty = .ok q ∧ q.sql = "a.x OR a.y = ?"
      ∧ Sql.lex q.sql.toList = some ts
      ∧ ∀ chained, ReadsAs chained .disjunction ts
            (.or (.holds (column "x")) (.compare (column "y") .eq [.placeholder "?"]))
          ∧ ∀ c, ReadsAs chained .disjunction ts c → g.tokens ∉ c.operands := by
  intro column
  have hfields : (Definition.ofSql "SELECT a.x OR a.y AS flag_boolean FROM a").map Definition.fields
      = .ok [⟨"a.x OR a.y", "flag", .boolean⟩] := by decide +kernel
  obtain ⟨d, hd, hfields⟩ := Except.map_eq_ok_iff.1 hfields
  have hcolumn : ∀ name, IsTerm (column name) ∧ ¬ Sql.Enclosed (column name) := fun name =>
    ⟨⟨nofun, rfl⟩, fun ⟨_, h, _⟩ => by cases h⟩
  have hlex : Sql.lex "a.x OR a.y = ?".toList
      = some (column "x" ++ .word ⟨"OR", none⟩ (some .OR)
          :: (column "y" ++ [.symbol .eq, .placeholder "?"])) := by decide +kernel
  refine ⟨d, .compare (.field "flag") .eq (.literal (.boolean true)),
    ⟨"a.x OR a.y", "flag", .boolean⟩, ⟨"a.x OR a.y = ?", [.boolean true]⟩, _, hd, by decide +kernel,
    List.mem_cons_self, ?_, rfl, ?_, rfl, hlex, fun chained => ?_⟩
  · unfold Definition.field?
    rw [hfields]
    rfl
  · rw [hfields]
    decide +kernel
  · obtain ⟨hx, hbare⟩ := hcolumn "x"
    obtain ⟨hy, _⟩ := hcolumn "y"
    have hright : IsTest chained (column "y" ++ [.symbol .eq, .placeholder "?"])
        (.compare (column "y") .eq [.placeholder "?"]) :=
      .tests (hy.isTested chained) (.compare rfl (by decide))
    have hreads : ReadsAs chained .disjunction (column "x" ++ .word ⟨"OR", none⟩ (some .OR)
        :: (column "y" ++ [.symbol .eq, .placeholder "?"]))
        (.or (.holds (column "x")) (.compare (column "y") .eq [.placeholder "?"])) :=
      .or (.conjunction (.unary (.test (.holds hx hbare)))) (.unary (.test hright))
    refine ⟨hreads, fun c hc => ?_⟩
    rw [hc.unique hreads]
    decide +kernel

end QueryTemplate
