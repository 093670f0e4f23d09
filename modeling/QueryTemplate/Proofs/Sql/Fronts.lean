import QueryTemplate.Proofs.Except
import QueryTemplate.Proofs.Sql.Running

/-!
# Readers take from the front

Every reader of SQL takes tokens off the front and leaves the others as they are (`Reader.TakesFront`), so what is
left is an end of the tokens of the text. That is said once for each way to put readers together, as an instance,
and of each reader of the grammar it is then found by unfolding it; a reader that counts its rounds down is one
more induction.

* **`TakesFront.bind`**: one reader after the other.
* **`Below.TakesFront`**: the readers of the levels below, which the expressions and queries in brackets are read
  with; those of every depth of nesting take from the front, by induction on it.
-/

namespace QueryTemplate.Sql

set_option synthInstance.maxSize 8192

namespace Reader

open Running

variable {α β : Type}

/-- The reader takes tokens off the front and leaves the others as they are. -/
class TakesFront (r : Reader α) : Prop where
  suffix : ∀ {ts a rest}, r ts = .ok (a, rest) → rest <:+ ts

theorem TakesFront.bind {r : Reader α} {f : α → Reader β} (hr : TakesFront r) (hf : ∀ a, TakesFront (f a)) :
    TakesFront (r >>= f) := by
  refine ⟨fun {ts b rest} hread => ?_⟩
  obtain ⟨⟨a, mid⟩, ha, hb⟩ := Except.bind_eq_ok_iff.1 hread
  exact ((hf a).suffix hb).trans (hr.suffix ha)

instance {a : α} : TakesFront (pure a) := by
  refine ⟨fun hread => ?_⟩
  cases hread
  exact List.suffix_rfl

instance {failure : Failure} : TakesFront (throw failure : Reader α) :=
  ⟨nofun⟩

instance : TakesFront (fail : Reader α) :=
  inferInstanceAs (TakesFront (throw Failure.malformed))

instance {r : Reader α} {f : α → Reader β} [hr : TakesFront r] [hf : ∀ a, TakesFront (f a)] :
    TakesFront (r >>= f) :=
  hr.bind hf

instance {r : Reader α} {f : α → β} [TakesFront r] : TakesFront (f <$> r) :=
  inferInstanceAs (TakesFront (r >>= fun a => pure (f a)))

instance {p : Prop} [Decidable p] {r s : Reader α} [hr : TakesFront r] [hs : TakesFront s] :
    TakesFront (if p then r else s) := by
  split
  · exact hr
  · exact hs

instance : TakesFront (get : Reader (List Token)) := by
  refine ⟨fun hread => ?_⟩
  cases hread
  exact List.suffix_rfl

instance : TakesFront (modify List.tail : Reader Unit) := by
  refine ⟨fun hread => ?_⟩
  cases hread
  exact List.tail_suffix _

instance {f : Token → Option α} : TakesFront (take f) := by
  refine ⟨fun {ts a rest} hread => ?_⟩
  cases ts with
  | nil => cases hread
  | cons t ts =>
    cases ha : f t with
    | none => simp [ha] at hread
    | some b =>
      simp only [run_take, ha, Except.ok.injEq, Prod.mk.injEq] at hread
      exact hread.2 ▸ List.suffix_cons t ts

instance {r : Reader α} [hr : TakesFront r] : TakesFront (attempt r) := by
  refine ⟨fun {ts a rest} hread => ?_⟩
  unfold attempt at hread
  split at hread
  · cases hread
    exact hr.suffix ‹_›
  · cases hread
    exact List.suffix_rfl
  · cases hread

instance {r s : Reader α} [hr : TakesFront r] [hs : TakesFront s] : TakesFront (orElse r s) := by
  refine ⟨fun {ts a rest} hread => ?_⟩
  unfold orElse at hread
  split at hread
  · cases hread
    exact hr.suffix ‹_›
  · split at hread
    · cases hread
      exact hs.suffix ‹_›
    · cases hread

instance (s : Symbol) : TakesFront (accept s) := by
  unfold accept
  infer_instance

instance (s : Symbol) : TakesFront (expect s) := by
  unfold expect
  infer_instance

theorem suffix_of_dropKeywords {ks : List Keyword} {ts rest : List Token} (h : dropKeywords ks ts = some rest) :
    rest <:+ ts := by
  induction ks generalizing ts with
  | nil =>
    cases h
    exact List.suffix_rfl
  | cons k ks ih =>
    rw [dropKeywords] at h
    split at h
    · exact (ih h).trans (List.tail_suffix ts)
    · cases h

instance (ks : List Keyword) : TakesFront (acceptWords ks) := by
  refine ⟨fun {ts a rest} hread => ?_⟩
  rw [run_acceptWords] at hread
  split at hread
  · cases hread
    exact suffix_of_dropKeywords ‹_›
  · cases hread
    exact List.suffix_rfl

instance (k : Keyword) : TakesFront (acceptWord k) :=
  inferInstanceAs (TakesFront (acceptWords [k]))

instance (k : Keyword) : TakesFront (expectWord k) := by
  unfold expectWord
  infer_instance

instance (cases : List (Keyword × α)) : TakesFront (acceptOneOf cases) := by
  induction cases with
  | nil =>
    unfold acceptOneOf
    infer_instance
  | cons x cases ih =>
    unfold acceptOneOf
    infer_instance

instance (ks : List Keyword) {r : Reader α} [TakesFront r] : TakesFront (after ks r) := by
  unfold after
  infer_instance

instance {one : Reader α} [TakesFront one] (n : Nat) : TakesFront (listAtMost one n) := by
  induction n with
  | zero =>
    unfold listAtMost
    infer_instance
  | succ n ih =>
    unfold listAtMost
    infer_instance

instance {one : Reader α} [TakesFront one] : TakesFront (list one) := by
  unfold list
  infer_instance

instance {r : Reader α} [TakesFront r] : TakesFront (parens r) := by
  unfold parens
  infer_instance

end Reader

open Reader

/-! ## Names and types -/

instance : TakesFront ident := by
  unfold ident
  infer_instance

instance (n : Nat) : TakesFront (pathAtMost n) := by
  induction n with
  | zero => unfold pathAtMost; infer_instance
  | succ n ih => unfold pathAtMost; infer_instance

instance : TakesFront furtherParts := by
  unfold furtherParts
  infer_instance

instance : TakesFront path := by
  unfold path
  infer_instance

instance : TakesFront identList := by
  unfold identList
  infer_instance

instance (reserved : List Keyword) : TakesFront (optionalAlias reserved) := by
  unfold optionalAlias
  infer_instance

instance {r : Reader String} [TakesFront r] : TakesFront (optionalParens r) := by
  unfold optionalParens
  infer_instance

instance : TakesFront size := by
  unfold size
  infer_instance

instance : TakesFront textLength := by
  refine .bind inferInstance fun greatest => ?_
  cases greatest <;> infer_instance

instance : TakesFront precisionAndScale := by
  unfold precisionAndScale
  infer_instance

instance : TakesFront timeZone := by
  unfold timeZone
  infer_instance

instance (shape : TypeShape) : TakesFront (typeTail shape) := by
  cases shape <;> (unfold typeTail; infer_instance)

instance : TakesFront knownType := by
  refine .bind inferInstance fun type => ?_
  infer_instance

instance (n : Nat) : TakesFront (modifiersAtMost n) := by
  induction n with
  | zero => unfold modifiersAtMost; infer_instance
  | succ n ih => unfold modifiersAtMost; infer_instance

instance : TakesFront userType := by
  unfold userType
  infer_instance

instance : TakesFront dataType := by
  unfold dataType
  infer_instance

/-! ## Expressions -/

/-- The readers of what nests take tokens off the front. -/
class Below.TakesFront (b : Below) : Prop where
  expr : ∀ level, Reader.TakesFront (b.expr level)
  query : Reader.TakesFront b.query

section

variable {b : Below} [hb : b.TakesFront]

instance (level : Nat) : TakesFront (b.expr level) :=
  hb.expr level

instance : TakesFront b.query :=
  hb.query

instance : TakesFront b.anyExpr :=
  hb.expr 0

instance : TakesFront b.queryText := by
  unfold Below.queryText
  infer_instance

instance : TakesFront (orderTerm b) := by
  unfold orderTerm
  infer_instance

instance : TakesFront (orderTerms b) := by
  unfold orderTerms
  infer_instance

instance (n : Nat) : TakesFront (starAtMost n) := by
  induction n with
  | zero => unfold starAtMost; infer_instance
  | succ n ih => unfold starAtMost; infer_instance

instance : TakesFront star := by
  unfold star
  infer_instance

instance : TakesFront (argument b) := by
  refine .bind inferInstance fun x => ?_
  cases x <;> infer_instance

instance : TakesFront (arguments b) := by
  unfold arguments
  dsimp only
  infer_instance

instance : TakesFront (window b) := by
  unfold window
  infer_instance

instance (function : String) : TakesFront (call b function) := by
  unfold call
  infer_instance

instance : TakesFront dateField := by
  unfold dateField
  infer_instance

instance : TakesFront typedText := by
  unfold typedText
  infer_instance

instance (n : Nat) : TakesFront (branchesAtMost b n) := by
  induction n with
  | zero => unfold branchesAtMost; infer_instance
  | succ n ih => unfold branchesAtMost; infer_instance

instance : TakesFront (caseForm b) := by
  unfold caseForm
  dsimp only
  infer_instance

instance : TakesFront characterSet := by
  unfold characterSet
  infer_instance

instance (function : String) : TakesFront (convertForm b function) := by
  unfold convertForm
  infer_instance

instance : TakesFront (structPart b) := by
  unfold structPart
  infer_instance

instance : TakesFront (structForm b) := by
  unfold structForm
  infer_instance

instance : TakesFront (existsForm b) := by
  unfold existsForm
  infer_instance

instance : TakesFront (extractForm b) := by
  unfold extractForm
  infer_instance

instance : TakesFront (substringForm b) := by
  unfold substringForm
  dsimp only
  infer_instance

instance : TakesFront (trimForm b) := by
  unfold trimForm
  infer_instance

instance : TakesFront (notForm b) := by
  unfold notForm
  infer_instance

instance (function : String) : TakesFront (castForm b function) := by
  unfold castForm
  infer_instance

instance (function : String) : TakesFront (roundingForm b function) := by
  unfold roundingForm
  infer_instance

instance (function : Ident) : TakesFront (positionForm b function) := by
  refine .bind inferInstance fun form => ?_
  cases form <;> infer_instance

instance {operand : Reader String} [TakesFront operand] : TakesFront (intervalForm operand) := by
  refine .bind inferInstance fun value => .bind inferInstance fun unit => ?_
  cases unit <;> infer_instance

instance (name : Ident) : TakesFront (plainOperand b name) := by
  refine .bind inferInstance fun ts => ?_
  have hquoted : TakesFront (do
      match ← attempt (take fun t => match t with | .text s => some s | _ => none) with
      | some s => return spaced [name.text, quoted '\'' s]
      | none => return name.written) := by
    refine .bind inferInstance fun x => ?_
    cases x <;> infer_instance
  infer_instance

instance {operand : Reader String} [TakesFront operand] (name : Ident) (k : Option Keyword) :
    TakesFront (wordOperand b operand name k) := by
  have hspecial : ∀ r ∈ k.bind (specialOperand? b operand name), TakesFront r := by
    intro r hr
    cases k with
    | none => cases hr
    | some k =>
      change r ∈ specialOperand? b operand name k at hr
      unfold specialOperand? at hr
      split at hr <;> cases hr <;> infer_instance
  unfold wordOperand
  split
  · infer_instance
  · have hr := hspecial _ ‹_›
    infer_instance

instance : TakesFront (groupOperand b) := by
  unfold groupOperand
  dsimp only
  infer_instance

instance (n : Nat) : TakesFront (operandAtMost b n) := by
  induction n with
  | zero => unfold operandAtMost; infer_instance
  | succ n ih =>
    refine .bind inferInstance fun text => ?_
    cases text with
    | some text => infer_instance
    | none =>
      refine .bind inferInstance fun t => ?_
      split <;> infer_instance

instance (level : Nat) : TakesFront (rangeOperand b level) := by
  unfold rangeOperand
  dsimp only
  infer_instance

instance (left : String) (level : Nat) (op : String) : TakesFront (afterOperator b left level op) := by
  refine .bind inferInstance fun quantifier => ?_
  cases quantifier with
  | none => infer_instance
  | some quantifier => dsimp only; infer_instance

instance (left : String) : TakesFront (isForm b left) := by
  refine .bind inferInstance fun negated => ?_
  refine .bind inferInstance fun test => ?_
  cases test with
  | none => dsimp only; infer_instance
  | some test => infer_instance

instance (left : List String) : TakesFront (inForm b left) := by
  unfold inForm
  infer_instance

instance (left : List String) : TakesFront (betweenForm b left) := by
  unfold betweenForm
  infer_instance

instance (left : List String) : TakesFront (patternForm b left) := by
  unfold patternForm
  infer_instance

instance (left : List String) (word : String) : TakesFront (likeForm b left word) := by
  unfold likeForm
  infer_instance

instance (left : List String) (word : String) : TakesFront (regexForm b left word) := by
  unfold regexForm
  infer_instance

instance (left : String) : TakesFront (testForm b left) := by
  unfold testForm
  dsimp only
  infer_instance

instance (left : String) (level : Nat) : TakesFront (operation b left level) := by
  unfold operation
  refine .bind inferInstance fun cast => ?_
  have hrest (ts : List Token) : TakesFront (match ts.head?.bind Token.operator? with
      | some (_, op) => do
        modify List.tail
        afterOperator b left level op
      | none => do
        if ← acceptWord .IS then isForm b left else testForm b left) := by
    split <;> infer_instance
  infer_instance

instance (level n : Nat) (left : String) : TakesFront (operationsAtMost b level n left) := by
  induction n generalizing left with
  | zero => unfold operationsAtMost; infer_instance
  | succ n ih => unfold operationsAtMost; dsimp only; infer_instance

instance (level : Nat) : TakesFront (expression b level) := by
  unfold expression
  dsimp only
  infer_instance

/-! ## Queries -/

instance : TakesFront aliasColumn := by
  unfold aliasColumn
  infer_instance

instance : TakesFront aliasColumns := by
  unfold aliasColumns
  infer_instance

instance : TakesFront tableAlias := by
  refine .bind inferInstance fun name => ?_
  cases name <;> infer_instance

instance : TakesFront (derivedTable b) := by
  unfold derivedTable
  infer_instance

instance : TakesFront (namedTable b) := by
  unfold namedTable
  dsimp only
  infer_instance

instance : TakesFront (nestedTable b) := by
  unfold nestedTable
  infer_instance

instance : TakesFront (joinCondition b) := by
  unfold joinCondition
  infer_instance

instance (side : String) : TakesFront (sideJoin side) := by
  unfold sideJoin
  infer_instance

instance : TakesFront joinWords := by
  unfold joinWords
  infer_instance

instance {table : Reader Table} [TakesFront table] : TakesFront (join b table) := by
  have hwords (natural : Bool) (words : Option String) : TakesFront (match words with
      | none => if natural then fail else return none
      | some words => do
        let t ← table
        if natural then return some (spaced ["NATURAL", words, t.written])
        else return some (spaced [words, t.written] ++ (← joinCondition b))) := by
    cases words <;> infer_instance
  unfold join
  infer_instance

instance {table : Reader Table} [TakesFront table] (n : Nat) : TakesFront (joinsAtMost b table n) := by
  induction n with
  | zero => unfold joinsAtMost; infer_instance
  | succ n ih =>
    refine .bind inferInstance fun j => ?_
    cases j <;> infer_instance

instance {table : Reader Table} [TakesFront table] : TakesFront (joins b table) := by
  unfold joins
  infer_instance

instance (t : Table) : TakesFront (outerAlias t) := by
  refine .bind inferInstance fun label => ?_
  split <;> infer_instance

instance (n : Nat) : TakesFront (tableAtMost b n) := by
  induction n with
  | zero => unfold tableAtMost; infer_instance
  | succ n ih =>
    have hrest (derived : Option Table) : TakesFront (match derived with
        | some t => return t
        | none => do
          let t ← tableAtMost b n
          let js ← joins b (tableAtMost b n)
          expect .closing
          if t.joined || !js.isEmpty then
            return ⟨parenthesized (spaced (t.written :: js)), ← tableAlias, true⟩
          else outerAlias t) := by
      cases derived <;> infer_instance
    unfold tableAtMost
    infer_instance

instance : TakesFront (table b) := by
  unfold table
  infer_instance

instance : TakesFront (source b) := by
  unfold source
  infer_instance

instance : TakesFront (selectItem b) := by
  refine .bind inferInstance fun x => ?_
  cases x <;> infer_instance

instance : TakesFront (distinctClause b) := by
  unfold distinctClause
  dsimp only
  infer_instance

instance : TakesFront (topClause b) := by
  unfold topClause
  dsimp only
  infer_instance

instance : TakesFront (groupKeys b) := by
  unfold groupKeys
  infer_instance

instance : TakesFront (groupItem b) := by
  unfold groupItem
  infer_instance

instance : TakesFront (groupClause b) := by
  unfold groupClause
  infer_instance

instance : TakesFront (select b) := by
  unfold select
  infer_instance

instance : TakesFront (valuesRow b) := by
  unfold valuesRow
  infer_instance

instance : TakesFront (valuesForm b) := by
  unfold valuesForm
  dsimp only
  infer_instance

instance : TakesFront (simpleBody b) := by
  unfold simpleBody
  infer_instance

instance (operators : List (Keyword × SetOperator)) {one : Reader Body} [TakesFront one] (n : Nat) (left : Body) :
    TakesFront (combinationsAtMost operators one n left) := by
  induction n generalizing left with
  | zero => unfold combinationsAtMost; infer_instance
  | succ n ih =>
    refine .bind inferInstance fun op => ?_
    cases op <;> infer_instance

instance (operators : List (Keyword × SetOperator)) {one : Reader Body} [TakesFront one] :
    TakesFront (combinations operators one) := by
  unfold combinations
  dsimp only
  infer_instance

instance : TakesFront (body b) := by
  unfold body
  infer_instance

instance : TakesFront (limitClause b) := by
  unfold limitClause
  infer_instance

instance : TakesFront (offsetClause b) := by
  unfold offsetClause
  infer_instance

instance (known : Option String) {r : Reader (Option String)} [TakesFront r] : TakesFront (unlessKnown known r) := by
  unfold unlessKnown
  infer_instance

instance (p : Page) : TakesFront (secondLimit b p) := by
  unfold secondLimit
  split <;> infer_instance

instance (p : Page) : TakesFront (pageStep b p) := by
  unfold pageStep
  infer_instance

instance : TakesFront (commonTable b) := by
  unfold commonTable
  infer_instance

instance : TakesFront (commonTables b) := by
  unfold commonTables
  dsimp only
  infer_instance

instance : TakesFront (query b) := by
  unfold query
  infer_instance

end

instance (n : Nat) : (level n).TakesFront := by
  induction n with
  | zero => exact ⟨fun _ => inferInstanceAs (TakesFront (throw _)), inferInstanceAs (TakesFront (throw _))⟩
  | succ n ih =>
    exact ⟨fun level => inferInstanceAs (TakesFront (expression _ level)), inferInstanceAs (TakesFront (query _))⟩

/-! ## Statements -/

section

variable {b : Below} [hb : b.TakesFront]

instance : TakesFront pathText := by
  unfold pathText
  infer_instance

instance : TakesFront (changeCondition b) := by
  unfold changeCondition
  infer_instance

instance : TakesFront (insertForm b) := by
  unfold insertForm
  dsimp only
  infer_instance

instance : TakesFront (assignment b) := by
  unfold assignment
  infer_instance

instance : TakesFront (updateForm b) := by
  unfold updateForm
  infer_instance

instance : TakesFront (deleteForm b) := by
  unfold deleteForm
  dsimp only
  infer_instance

instance : TakesFront dropForm := by
  unfold dropForm
  dsimp only
  infer_instance

instance : TakesFront (columnConstraint b) := by
  unfold columnConstraint
  infer_instance

instance (n : Nat) : TakesFront (constraintsAtMost b n) := by
  induction n with
  | zero => unfold constraintsAtMost; infer_instance
  | succ n ih =>
    refine .bind inferInstance fun c => ?_
    cases c <;> infer_instance

instance : TakesFront (newColumn b) := by
  unfold newColumn
  infer_instance

instance : TakesFront (createForm b) := by
  unfold createForm
  dsimp only
  infer_instance

instance : TakesFront truncateForm := by
  unfold truncateForm
  dsimp only
  infer_instance

instance : TakesFront chainForm := by
  unfold chainForm
  infer_instance

instance : TakesFront rollbackForm := by
  unfold rollbackForm
  infer_instance

end

end QueryTemplate.Sql
