import QueryTemplate.Proofs.Statement
import Mathlib.Algebra.GroupWithZero.Nat

/-!
# Placeholders and their values

The SQL text of a fragment and the list of its values are two views of one list of pieces, and the texts
that a layout brings along hold no question mark. So the question marks of a statement are counted piece by
piece: there is one for each value, and the others are those of the texts of the definition.

* **`Definition.placeholders_of_compile`**: a statement has the question marks of its values, and those of
  the texts of the definition that are pasted into it.
* **`params_of_writes`**: the values are those of the written operands, in order and one for each.
* **`params_follow_placeholders`** says both of whole statements and of predicates alone.
-/

namespace QueryTemplate

/-! ## Counting question marks -/

def placeholders (sql : String) : Nat :=
  sql.toList.count '?'

/-- Text without question marks. -/
def Plain (text : String) : Prop :=
  '?' ∉ text.toList

instance (text : String) : Decidable (Plain text) :=
  inferInstanceAs (Decidable ('?' ∉ text.toList))

theorem placeholders_eq_zero {text : String} (h : Plain text) : placeholders text = 0 :=
  List.count_eq_zero.2 h

@[simp] theorem placeholders_append (a b : String) :
    placeholders (a ++ b) = placeholders a + placeholders b := by
  rw [placeholders, String.toList_append, List.count_append]
  rfl

/-- The question marks of several texts together. -/
def placeholdersIn (texts : List String) : Nat :=
  (texts.map placeholders).sum

theorem placeholdersIn_cons (text : String) (texts : List String) :
    placeholdersIn (text :: texts) = placeholders text + placeholdersIn texts :=
  rfl

@[simp] theorem placeholdersIn_append (texts more : List String) :
    placeholdersIn (texts ++ more) = placeholdersIn texts + placeholdersIn more := by
  simp [placeholdersIn]

theorem placeholdersIn_eq_zero_iff {texts : List String} :
    placeholdersIn texts = 0 ↔ ∀ text ∈ texts, Plain text := by
  rw [placeholdersIn, List.sum_eq_zero_iff_forall_eq_nat, List.forall_mem_map]
  exact forall_congr' fun text => forall_congr' fun _ => List.count_eq_zero

theorem placeholders_intercalate {sep : String} (hsep : Plain sep) (texts : List String) :
    placeholders (sep.intercalate texts) = placeholdersIn texts := by
  induction texts with
  | nil => rw [String.intercalate_nil]; rfl
  | cons t ts ih =>
    cases ts with
    | nil => rw [String.intercalate_singleton]; rfl
    | cons u us =>
      rw [String.intercalate_cons_cons, placeholders_append, placeholders_append,
        placeholders_eq_zero hsep, ih, placeholdersIn_cons t, Nat.add_zero]

theorem plain_append {a b : String} (ha : Plain a) (hb : Plain b) : Plain (a ++ b) := by
  unfold Plain
  rw [String.toList_append, List.mem_append]
  exact not_or.2 ⟨ha, hb⟩

theorem plain_intercalate {sep : String} (hsep : Plain sep) {texts : List String}
    (h : ∀ t ∈ texts, Plain t) : Plain (sep.intercalate texts) := by
  induction texts with
  | nil =>
    rw [String.intercalate_nil]
    decide
  | cons t ts ih =>
    have ht : Plain t := h t List.mem_cons_self
    have hts : Plain (sep.intercalate ts) := ih fun u hu => h u (List.mem_cons_of_mem _ hu)
    cases ts with
    | nil => rwa [String.intercalate_singleton]
    | cons u us =>
      rw [String.intercalate_cons_cons]
      exact plain_append (plain_append ht hsep) hts

theorem plain_toString (n : Nat) : Plain (toString n) := by
  unfold Plain
  rw [Nat.toString_eq_repr, Nat.toList_repr]
  intro h
  -- a question mark is no digit
  have hdigit := Nat.isDigit_of_mem_toDigits (by decide) (by decide) h
  revert hdigit
  decide

/-- A fragment whose texts hold no question mark. -/
def Fragment.Plain (p : Fragment) : Prop :=
  ∀ text, Piece.sql text ∈ p → QueryTemplate.Plain text

/-! ## Layouts hold no question mark of their own -/

theorem plain_of_mem_wrap {parens : Bool} {ms : List Mark} {text : String}
    (h : .verbatim text ∈ Mark.wrap parens ms) (hms : .verbatim text ∈ ms → Plain text) :
    Plain text := by
  cases parens with
  | false => exact hms h
  | true =>
    rcases List.mem_cons.1 h with h | h
    · cases h
      decide
    rcases List.mem_append.1 h with h | h
    · exact hms h
    · rw [List.mem_singleton] at h
      cases h
      decide

theorem plain_of_mem_moreItems {os : List Operand} {text : String}
    (h : .verbatim text ∈ Mark.moreItems os) : Plain text := by
  obtain ⟨o, _, h⟩ := List.mem_flatMap.1 h
  rcases List.mem_cons.1 h with h | h
  · cases h
    decide
  · rw [List.mem_singleton] at h
    cases h

/-- Whatever the tree, its layout brings no question mark along. -/
theorem plain_of_mem_layout {f : Filter} {text : String} (h : .verbatim text ∈ f.layout) :
    Plain text := by
  induction f with
  | compare left op right =>
    simp only [Filter.layout, List.mem_cons, reduceCtorEq, Mark.verbatim.injEq, false_or,
      List.not_mem_nil, or_false] at h
    subst h
    cases op <;> decide
  | isIn o items negated =>
    cases items with
    | nil =>
      -- an empty list is laid out as a comparison of two numbers
      rw [Filter.layout, List.mem_singleton] at h
      cases h
      cases negated <;> decide
    | cons item items =>
      simp only [Filter.layout, List.mem_cons, reduceCtorEq, Mark.verbatim.injEq, false_or,
        List.mem_append, List.not_mem_nil, or_false] at h
      rcases h with rfl | h | rfl
      · cases negated <;> decide
      · exact plain_of_mem_moreItems h
      · decide
  | isNull o negated =>
    simp only [Filter.layout, List.mem_cons, reduceCtorEq, Mark.verbatim.injEq, false_or,
      List.not_mem_nil, or_false] at h
    subst h
    cases negated <;> decide
  | and left right ihl ihr =>
    rcases List.mem_append.1 h with h | h
    · exact plain_of_mem_wrap h ihl
    rcases List.mem_cons.1 h with h | h
    · cases h
      decide
    · exact plain_of_mem_wrap h ihr
  | or left right ihl ihr =>
    rcases List.mem_append.1 h with h | h
    · exact ihl h
    rcases List.mem_cons.1 h with h | h
    · cases h
      decide
    · exact plain_of_mem_wrap h ihr
  | not inner ih =>
    rcases List.mem_cons.1 h with h | h
    · cases h
      decide
    rcases List.mem_append.1 h with h | h
    · exact ih h
    · rw [List.mem_singleton] at h
      cases h
      decide

theorem plain_of_writes {s : Scope} {ms : List Mark} {p : Fragment}
    (h : List.Forall₂ s.Writes ms p) (htexts : ∀ text, .verbatim text ∈ ms → Plain text)
    (hfields : ∀ name g, .operand (.field name) ∈ ms → Field.find? s.fields name = some g →
      Plain g.expression) : p.Plain := by
  induction h with
  | nil =>
    intro text ht
    cases ht
  | @cons m piece ms p hm _ ih =>
    have hrest : Fragment.Plain p :=
      ih (fun text ht => htexts text (List.mem_cons_of_mem _ ht))
        (fun name g hn => hfields name g (List.mem_cons_of_mem _ hn))
    intro text ht
    rcases List.mem_cons.1 ht with rfl | ht
    · cases hm with
      | verbatim => exact htexts text List.mem_cons_self
      | field hg => exact hfields _ _ List.mem_cons_self hg
    · exact hrest text ht

/-- **One value for each written operand.** The `map some` on the left says that every operand that
is written as a placeholder has a value. -/
theorem params_of_writes {s : Scope} {ms : List Mark} {p : Fragment}
    (h : List.Forall₂ s.Writes ms p) :
    p.params.map some
      = ((ms.filterMap Mark.operand?).filter Operand.isValue).map (Operand.value? s.bindings) := by
  induction h with
  | nil => rfl
  | @cons m piece ms p hm _ ih =>
    -- each operand adds its value on both sides, or nothing on either
    cases hm with
    | verbatim text => exact ih
    | literal v =>
      show some v :: (Fragment.params p).map some = some v :: _
      rw [ih]
    | @param name v hv =>
      show some v :: (Fragment.params p).map some = s.bindings.get? name :: _
      rw [ih, hv]
    | field hg => exact ih

theorem params_of_write {s : Scope} {f : Filter} {depth : Nat} {p : Fragment}
    (h : f.write s depth = .ok p) :
    p.params.map some
      = (f.writtenOperands.filter Operand.isValue).map (Operand.value? s.bindings) := by
  rw [params_of_writes (writes_layout_of_write h), Filter.layout_operands]

/-- The text of the definition that an operand is written as; none for a value. -/
def Operand.pasted? (fields : List Field) : Operand → Option String
  | .field name => (Field.find? fields name).map Field.expression
  | .literal _ => none
  | .param _ => none

theorem Operand.exists_of_pasted? {fields : List Field} {o : Operand} {text : String}
    (h : o.pasted? fields = some text) : ∃ f ∈ fields, text = f.expression := by
  cases o with
  | literal v => cases h
  | param name => cases h
  | field name =>
    obtain ⟨f, hf, rfl⟩ := Option.map_eq_some_iff.1 h
    exact ⟨f, List.mem_of_find?_eq_some hf, rfl⟩

/-- **The question marks of a predicate** are those of its values and of the expressions of its fields. -/
theorem placeholders_of_writes {s : Scope} {ms : List Mark} {p : Fragment}
    (h : List.Forall₂ s.Writes ms p) (htexts : ∀ text, .verbatim text ∈ ms → Plain text) :
    placeholders p.sql = p.params.length
      + placeholdersIn ((ms.filterMap Mark.operand?).filterMap (Operand.pasted? s.fields)) := by
  induction h with
  | nil => rfl
  | @cons m piece ms p hm _ ih =>
    have hrest := ih fun text ht => htexts text (List.mem_cons_of_mem _ ht)
    cases hm with
    | verbatim text =>
      have htext : placeholders text = 0 := placeholders_eq_zero (htexts text List.mem_cons_self)
      rw [Fragment.sql, placeholders_append, htext, hrest, Nat.zero_add]
      rfl
    | literal v | param hv =>
      show placeholders ("?" ++ Fragment.sql p) = (Fragment.params p).length + 1
        + placeholdersIn ((ms.filterMap Mark.operand?).filterMap (Operand.pasted? s.fields))
      rw [placeholders_append, hrest, show placeholders "?" = 1 by decide]
      omega
    | @field name f hf =>
      show placeholders (f.expression ++ Fragment.sql p) = (Fragment.params p).length + placeholdersIn
        (((.field name) :: ms.filterMap Mark.operand?).filterMap (Operand.pasted? s.fields))
      rw [placeholders_append, hrest, List.filterMap_cons_some
        (show Operand.pasted? s.fields (.field name) = some f.expression by rw [Operand.pasted?, hf]; rfl),
        placeholdersIn_cons]
      omega

theorem placeholders_of_write {s : Scope} {f : Filter} {depth : Nat} {p : Fragment}
    (h : f.write s depth = .ok p) :
    placeholders p.sql = p.params.length
      + placeholdersIn (f.writtenOperands.filterMap (Operand.pasted? s.fields)) := by
  rw [placeholders_of_writes (writes_layout_of_write h) (fun _ => plain_of_mem_layout),
    Filter.layout_operands]

/-! ## Whole statements -/

/-- No text of the definition holds a question mark. -/
structure Definition.Plain (d : Definition) : Prop where
  fields : ∀ f ∈ d.fields, QueryTemplate.Plain f.expression ∧ QueryTemplate.Plain f.name
  schema : QueryTemplate.Plain d.schema
  condition : ∀ text, d.condition = some text → QueryTemplate.Plain text
  order : ∀ text, d.order = some text → QueryTemplate.Plain text

namespace Definition

variable {d : Definition} {c : Criteria}

/-- The texts that the rows of a request are ordered by. -/
def orderTexts (d : Definition) (c : Criteria) : List String :=
  if c.sorts.isEmpty then d.order.toList
  else c.sorts.filterMap fun sort => (Field.find? d.fields sort.field).map Field.expression

/-- The texts of the definition in the statement of a request, which are pasted as they are: what the
rows show, the FROM clause, the condition, the fields in the conditions of the request, and what the rows
are ordered by. -/
def pasted (d : Definition) (c : Criteria) : List String :=
  (if c.count then [] else (d.shown c).flatMap fun f => [f.expression, f.name])
    ++ d.schema :: d.condition.toList
    ++ ((c.conditions.filterMap Condition.tree?).flatMap Filter.writtenOperands).filterMap
        (Operand.pasted? d.fields)
    ++ if c.count then [] else d.orderTexts c

theorem placeholders_head (fields : List Field) :
    placeholders (head c fields)
      = placeholdersIn (if c.count then [] else fields.flatMap fun f => [f.expression, f.name]) := by
  unfold head
  split
  · rfl
  · rw [placeholders_append, show placeholders "SELECT " = 0 by decide, Nat.zero_add, selectList,
      placeholders_intercalate (by decide)]
    induction fields with
    | nil => rfl
    | cons f fs ih =>
      rw [List.map_cons, placeholdersIn_cons, ih, List.flatMap_cons, placeholdersIn_append,
        placeholders_append, placeholders_append, show placeholders " AS " = 0 by decide]
      rfl

theorem plain_pageClause (c : Criteria) : QueryTemplate.Plain (pageClause c) :=
  plain_append (plain_append (plain_append (by decide) (plain_toString _)) (by decide))
    (plain_toString _)

theorem placeholders_sortTerms {sorts : List SortKey} {terms : List String}
    (h : sorts.mapM d.sortTerm = .ok terms) :
    placeholdersIn terms = placeholdersIn (sorts.filterMap fun sort =>
      (Field.find? d.fields sort.field).map Field.expression) := by
  induction sorts generalizing terms with
  | nil =>
    cases h
    rfl
  | cons sort sorts ih =>
    obtain ⟨term, rest, hterm, hrest, rfl⟩ := Except.mapM_cons_eq_ok_iff.1 h
    obtain ⟨f, hf, rfl⟩ := Except.map_eq_ok_iff.1 hterm
    have hdirection : placeholders sort.direction.sql = 0 := by
      cases sort.direction <;> decide
    rw [List.filterMap_cons_some (b := f.expression) (by rw [Field.resolve_eq_ok_iff.1 hf]; rfl),
      placeholdersIn_cons, placeholdersIn_cons, ih hrest, placeholders_append, placeholders_append,
      show placeholders " " = 0 by decide, hdirection]
    rfl

theorem placeholders_orderClause {order : List String} (h : d.orderClause c.sorts = .ok order) :
    placeholdersIn order = placeholdersIn (d.orderTexts c) := by
  have hclause : ∀ text, placeholders ("ORDER BY " ++ text) = placeholders text := fun text => by
    rw [placeholders_append, show placeholders "ORDER BY " = 0 by decide, Nat.zero_add]
  unfold orderClause at h
  unfold orderTexts
  split at h
  · cases h
    rw [if_pos ‹_›]
    cases d.order with
    | none => rfl
    | some base => exact congrArg (· + 0) (hclause base)
  · rw [if_neg ‹_›]
    obtain ⟨terms, hterms, h⟩ := Except.bind_eq_ok_iff.1 h
    cases h
    show placeholders ("ORDER BY " ++ ", ".intercalate terms) + 0 = _
    rw [hclause, placeholders_intercalate (by decide), Nat.add_zero]
    exact placeholders_sortTerms hterms

theorem placeholders_tail {tail : List String} (h : d.tail c = .ok tail) :
    placeholdersIn tail = placeholdersIn (if c.count then [] else d.orderTexts c) := by
  unfold Definition.tail at h
  split at h
  · cases h
    rw [if_pos ‹_›]
  · rw [if_neg ‹_›]
    obtain ⟨order, horder, h⟩ := Except.bind_eq_ok_iff.1 h
    cases h
    rw [placeholdersIn_append, placeholders_orderClause horder]
    show _ + (placeholders (pageClause c) + 0) = _
    rw [placeholders_eq_zero (plain_pageClause c)]
    rfl

/-- Around the two conditions stand fixed texts only. -/
theorem placeholders_whereClause (extra : Option Fragment) :
    placeholdersIn (d.whereClause extra)
      = placeholdersIn d.condition.toList + placeholders (extra.getD []).sql := by
  unfold whereClause
  cases d.condition with
  | none =>
    cases extra with
    | none => rfl
    | some p =>
      show placeholders ("WHERE " ++ p.sql) + 0 = 0 + placeholders p.sql
      rw [placeholders_append, show placeholders "WHERE " = 0 by decide]
      omega
  | some base =>
    cases extra with
    | none =>
      show placeholders ("WHERE " ++ base) + 0 = (placeholders base + 0) + 0
      rw [placeholders_append, show placeholders "WHERE " = 0 by decide]
      omega
    | some p =>
      show placeholders ("WHERE (" ++ base ++ ") AND (" ++ p.sql ++ ")") + 0
        = (placeholders base + 0) + placeholders p.sql
      simp only [placeholders_append]
      rw [show placeholders "WHERE (" = 0 by decide, show placeholders ") AND (" = 0 by decide,
        show placeholders ")" = 0 by decide]
      omega

theorem placeholders_predicate {extra : Option Fragment}
    (h : d.predicate c.conditions c.params = .ok extra) :
    placeholders (extra.getD []).sql = (extra.getD []).params.length
      + placeholdersIn (((c.conditions.filterMap Condition.tree?).flatMap
          Filter.writtenOperands).filterMap (Operand.pasted? d.fields)) := by
  obtain ⟨trees, htrees, hpredicate⟩ := predicate_eq_ok_iff.1 h
  rw [Condition.filterMap_tree? htrees]
  rcases hpredicate with ⟨hall, rfl⟩ | ⟨f, p, hall, hwrite, rfl⟩
  · rw [Filter.trees_eq_nil_of_all? hall]
    rfl
  · rw [← Filter.writtenOperands_of_all? hall]
    exact placeholders_of_write hwrite

/-- **The question marks of a statement** are those of its values and of the texts of the definition that
are pasted into it, counted clause by clause. -/
theorem placeholders_of_compile {q : PreparedQuery} (h : d.compile c = .ok q) :
    placeholders q.sql = q.params.length + placeholdersIn (d.pasted c) := by
  obtain ⟨fields, extra, tail, hfields, hextra, htail, rfl⟩ := compile_eq_ok_iff.1 h
  have hfrom : placeholders ("FROM " ++ d.schema) = placeholders d.schema := by
    rw [placeholders_append, show placeholders "FROM " = 0 by decide, Nat.zero_add]
  show placeholders ("\n".intercalate _) = (extra.getD []).params.length + _
  rw [placeholders_intercalate (by decide), placeholdersIn_append, placeholdersIn_append,
    placeholdersIn_cons, placeholdersIn_cons, placeholders_head, hfrom, placeholders_whereClause,
    placeholders_predicate hextra, placeholders_tail htail, shown_of_projection hfields, pasted]
  simp only [placeholdersIn_append, placeholdersIn_cons]
  rw [show placeholdersIn [] = 0 from rfl]
  omega

theorem plain_of_mem_orderTexts (hd : d.Plain) {text : String} (ht : text ∈ d.orderTexts c) :
    QueryTemplate.Plain text := by
  unfold orderTexts at ht
  split at ht
  · exact hd.order text (Option.mem_toList.1 ht)
  · obtain ⟨sort, _, hsort⟩ := List.mem_filterMap.1 ht
    obtain ⟨f, hf, rfl⟩ := Option.map_eq_some_iff.1 hsort
    exact (hd.fields f (List.mem_of_find?_eq_some hf)).1

theorem plain_of_mem_pasted (hd : d.Plain) {text : String} (ht : text ∈ d.pasted c) :
    QueryTemplate.Plain text := by
  unfold pasted at ht
  simp only [List.mem_append, List.mem_cons] at ht
  rcases ht with ((ht | rfl | ht) | ht) | ht
  · split at ht
    · cases ht
    · obtain ⟨f, hf, ht⟩ := List.mem_flatMap.1 ht
      obtain ⟨hexpression, hname⟩ := hd.fields f (mem_fields_of_mem_shown hf)
      rcases List.mem_cons.1 ht with rfl | ht
      · exact hexpression
      · rwa [List.mem_singleton.1 ht]
  · exact hd.schema
  · exact hd.condition text (Option.mem_toList.1 ht)
  · obtain ⟨o, _, ho⟩ := List.mem_filterMap.1 ht
    obtain ⟨f, hf, rfl⟩ := Operand.exists_of_pasted? ho
    exact (hd.fields f hf).1
  · split at ht
    · cases ht
    · exact plain_of_mem_orderTexts hd ht

end Definition

/-! ## Prepared queries -/

/-- A prepared query for the conditions `trees`: its SQL has as many question marks as it has values,
and its values are those of the operands that the conditions write as placeholders, one for each and
in their order. -/
structure PreparedQuery.Aligned (q : PreparedQuery) (trees : List Filter) (bindings : Bindings) :
    Prop where
  count : placeholders q.sql = q.params.length
  values : q.params.map some
    = ((trees.flatMap Filter.writtenOperands).filter Operand.isValue).map (Operand.value? bindings)

theorem Definition.aligned_of_compile {d : Definition} {c : Criteria} {q : PreparedQuery}
    (hd : d.Plain) (h : d.compile c = .ok q) :
    ∃ trees, c.conditions.mapM Condition.tree = .ok trees ∧ q.Aligned trees c.params := by
  have hcount := placeholders_of_compile h
  rw [placeholdersIn_eq_zero_iff.2 fun _ => plain_of_mem_pasted hd] at hcount
  obtain ⟨fields, extra, tail, hfields, hextra, htail, rfl⟩ := compile_eq_ok_iff.1 h
  obtain ⟨trees, htrees, hpredicate⟩ := predicate_eq_ok_iff.1 hextra
  refine ⟨trees, htrees, hcount, ?_⟩
  rcases hpredicate with ⟨hall, rfl⟩ | ⟨f, p, hall, hwrite, rfl⟩
  · rw [Filter.trees_eq_nil_of_all? hall]
    rfl
  · rw [← Filter.writtenOperands_of_all? hall]
    exact params_of_write hwrite

theorem aligned_of_compileFilter {fields : List Field} {text : String} {bindings : Bindings}
    {q : PreparedQuery} (hfields : ∀ f ∈ fields, Plain f.expression)
    (h : compileFilter fields text bindings = .ok q) :
    ∃ f, Filter.parse text = .ok f ∧ q.Aligned [f] bindings := by
  obtain ⟨f, hf, h⟩ := Except.bind_eq_ok_iff.1 h
  obtain ⟨p, hp, h⟩ := Except.bind_eq_ok_iff.1 h
  cases h
  have hpasted : ∀ text ∈ f.writtenOperands.filterMap (Operand.pasted? fields), Plain text := by
    intro text ht
    obtain ⟨o, _, ho⟩ := List.mem_filterMap.1 ht
    obtain ⟨g, hg, rfl⟩ := Operand.exists_of_pasted? ho
    exact hfields g hg
  refine ⟨f, Condition.tree_text_eq_ok_iff.1 hf, ?_, ?_⟩
  · have hcount := placeholders_of_write hp
    rwa [placeholdersIn_eq_zero_iff.2 hpasted] at hcount
  · rw [List.flatMap_singleton]
    exact params_of_write hp

/-- **The n-th value belongs to the n-th placeholder.** Over a definition without question marks, the
SQL of a compiled request has exactly one question mark for each of its values, and the values are
those of the literals and bound parameters of the conditions, condition by condition and from left to
right, where tests for membership in an empty list have none. So it is for filter text by itself. -/
theorem params_follow_placeholders :
    (∀ (d : Definition) (c : Criteria) (q : PreparedQuery), d.Plain → d.compile c = .ok q →
      ∃ trees, c.conditions.mapM Condition.tree = .ok trees ∧ q.Aligned trees c.params)
    ∧ ∀ (fields : List Field) (text : String) (bindings : Bindings) (q : PreparedQuery),
      (∀ f ∈ fields, Plain f.expression) → compileFilter fields text bindings = .ok q →
      ∃ f, Filter.parse text = .ok f ∧ q.Aligned [f] bindings :=
  ⟨fun _ _ _ => Definition.aligned_of_compile, fun _ _ _ _ => aligned_of_compileFilter⟩

/-- A text and two trees, one of which tests for membership in an empty list; the literal of the text
is itself a question mark. -/
theorem params_follow_placeholders_mixed :
    let d : Definition :=
      ⟨[⟨"p.age", "age", .int⟩, ⟨"p.full_name", "name", .string⟩], "people p",
        some "p.deleted = 0", some "p.age", by decide, by decide⟩
    let c : Criteria :=
      { conditions := [.text "name = '?' OR age IN (1, :two)",
          .filter (.isIn (.field "age") [] true),
          .filter (.compare (.literal (.integer 9)) .lt (.field "age"))]
        params := Bindings.empty.insert "two" (.integer 2) }
    ∃ q, d.compile c = .ok q
      ∧ q.params = [.text "?", .integer 1, .integer 2, .integer 9]
      ∧ (∃ trees, c.conditions.mapM Condition.tree = .ok trees ∧ q.Aligned trees c.params)
      ∧ ∃ r, compileFilter d.fields "age = :two" c.params = .ok r
        ∧ ∃ f, Filter.parse "age = :two" = .ok f ∧ r.Aligned [f] c.params := by
  intro d c
  have hd : d.Plain :=
    ⟨by decide, by decide, fun text h => by cases h; decide, fun text h => by cases h; decide⟩
  have hq : d.compile c = .ok ⟨"SELECT p.age AS age, p.full_name AS name\nFROM people p\n" ++
      "WHERE (p.deleted = 0) AND ((p.full_name = ? OR p.age IN (?, ?)) AND 1 = 1 AND ? < p.age)\n" ++
      "ORDER BY p.age\nLIMIT 50 OFFSET 0", [.text "?", .integer 1, .integer 2, .integer 9]⟩ := by
    decide +kernel
  have hr : compileFilter d.fields "age = :two" c.params = .ok ⟨"p.age = ?", [.integer 2]⟩ := by
    decide +kernel
  exact ⟨_, hq, rfl, params_follow_placeholders.1 d c _ hd hq, _, hr,
    params_follow_placeholders.2 d.fields _ c.params _ (fun f hf => (hd.fields f hf).1) hr⟩

end QueryTemplate
