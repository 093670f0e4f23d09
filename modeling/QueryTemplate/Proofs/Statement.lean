import QueryTemplate.PreparedQuery
import QueryTemplate.Proofs.Layout

/-!
# The statement of a request

A compiled request taken apart. `compile` succeeds exactly if its three steps do, and the statement
is then put together from their results (`compile_eq_ok_iff`). The predicate is the left-leaning
conjunction of all conditions, so its operands are those of the conditions, one condition after the
other (`writtenOperands_of_all?`).
-/

namespace QueryTemplate

namespace Definition

/-- The clauses after the predicate: order and page, which a count does without. -/
def tail (d : Definition) (c : Criteria) : Except Error (List String) :=
  if c.count then .ok []
  else do
    let order ← d.orderClause c.sorts
    .ok (order ++ [pageClause c])

def head (c : Criteria) (fields : List Field) : String :=
  if c.count then "SELECT COUNT(*)" else "SELECT " ++ selectList fields

/-- The statement with the results of the three steps in their places. -/
def assemble (d : Definition) (c : Criteria) (fields : List Field) (extra : Option Fragment)
    (tail : List String) : PreparedQuery where
  sql := "\n".intercalate ([head c fields, "FROM " ++ d.schema] ++ d.whereClause extra ++ tail)
  params := (extra.getD []).params

theorem compile_eq (d : Definition) (c : Criteria) :
    d.compile c =
      d.projection c.columns >>= fun fields =>
      d.predicate c.conditions c.params >>= fun extra =>
      d.tail c >>= fun tail =>
      .ok (d.assemble c fields extra tail) := by
  unfold compile tail assemble head
  cases c.count with
  | true => rfl
  | false =>
    -- without a count the last step is itself two steps
    cases d.orderClause c.sorts with
    | ok order => rfl
    | error e => rfl

/-- **Compiling is three steps that all have to succeed.** -/
theorem compile_eq_ok_iff {d : Definition} {c : Criteria} {q : PreparedQuery} :
    d.compile c = .ok q ↔
      ∃ fields extra tail, d.projection c.columns = .ok fields
        ∧ d.predicate c.conditions c.params = .ok extra
        ∧ d.tail c = .ok tail
        ∧ q = d.assemble c fields extra tail := by
  rw [compile_eq]
  constructor
  · intro h
    obtain ⟨fields, hfields, h⟩ := Except.bind_eq_ok_iff.1 h
    obtain ⟨extra, hextra, h⟩ := Except.bind_eq_ok_iff.1 h
    obtain ⟨tail, htail, h⟩ := Except.bind_eq_ok_iff.1 h
    cases h
    exact ⟨fields, extra, tail, hfields, hextra, htail, rfl⟩
  · rintro ⟨fields, extra, tail, hfields, hextra, htail, rfl⟩
    refine Except.bind_eq_ok_iff.2 ⟨fields, hfields, ?_⟩
    refine Except.bind_eq_ok_iff.2 ⟨extra, hextra, ?_⟩
    exact Except.bind_eq_ok_iff.2 ⟨tail, htail, rfl⟩

/-- A request fails at the first of the three steps that does. -/
theorem compile_eq_error_iff {d : Definition} {c : Criteria} {e : Error} :
    d.compile c = .error e ↔
      d.projection c.columns = .error e
      ∨ ∃ fields, d.projection c.columns = .ok fields
        ∧ (d.predicate c.conditions c.params = .error e
          ∨ ∃ extra, d.predicate c.conditions c.params = .ok extra ∧ d.tail c = .error e) := by
  rw [compile_eq, Except.bind_eq_error_iff]
  refine or_congr_right (exists_congr fun fields => and_congr_right fun _ => ?_)
  rw [Except.bind_eq_error_iff]
  refine or_congr_right (exists_congr fun extra => and_congr_right fun _ => ?_)
  rw [Except.bind_eq_error_iff]
  -- putting the statement together cannot fail
  exact or_iff_left (by rintro ⟨tail, _, h⟩; cases h)

/-- What the predicate of a request is: nothing without conditions, else the conjunction of all
their trees, written from depth zero. -/
theorem predicate_eq_ok_iff {d : Definition} {conditions : List Condition} {bindings : Bindings}
    {extra : Option Fragment} :
    d.predicate conditions bindings = .ok extra ↔
      ∃ trees, conditions.mapM Condition.tree = .ok trees
        ∧ ((Filter.all? trees = none ∧ extra = none)
          ∨ ∃ f p, Filter.all? trees = some f ∧ f.write ⟨d.fields, bindings⟩ 0 = .ok p
            ∧ extra = some p) := by
  constructor
  · intro h
    obtain ⟨trees, htrees, h⟩ := Except.bind_eq_ok_iff.1 h
    refine ⟨trees, htrees, ?_⟩
    cases hall : Filter.all? trees with
    | none =>
      rw [hall] at h
      cases h
      exact .inl ⟨rfl, rfl⟩
    | some f =>
      rw [hall] at h
      obtain ⟨p, hp, he⟩ := Except.map_eq_ok_iff.1 h
      exact .inr ⟨f, p, rfl, hp, he.symm⟩
  · rintro ⟨trees, htrees, h⟩
    refine Except.bind_eq_ok_iff.2 ⟨trees, htrees, ?_⟩
    rcases h with ⟨hall, rfl⟩ | ⟨f, p, hall, hp, rfl⟩
    · simp only [hall]
    · simp only [hall]
      exact Except.map_eq_ok_iff.2 ⟨p, hp, rfl⟩

/-- The fields that the rows of a request show. -/
def shown (d : Definition) (c : Criteria) : List Field :=
  if c.columns.isEmpty then d.fields else c.columns.filterMap (Field.find? d.fields)

theorem shown_of_projection {d : Definition} {c : Criteria} {fields : List Field}
    (h : d.projection c.columns = .ok fields) : fields = d.shown c := by
  unfold projection at h
  unfold shown
  split at h
  · cases h
    rw [if_pos ‹_›]
  · rw [if_neg ‹_›]
    exact (Except.filterMap_of_mapM (fun _ _ => Field.resolve_eq_ok_iff.1) h).symm

theorem mem_fields_of_mem_shown {d : Definition} {c : Criteria} {f : Field} (hf : f ∈ d.shown c) :
    f ∈ d.fields := by
  unfold shown at hf
  split at hf
  · exact hf
  · obtain ⟨name, _, hname⟩ := List.mem_filterMap.1 hf
    exact List.mem_of_find?_eq_some hname

end Definition

/-! ## All conditions together -/

namespace Condition

/-- The tree of a condition whose text is a filter. -/
def tree? : Condition → Option Filter
  | .filter f => some f
  | .text t =>
    match Filter.parse t with
    | .ok f => some f
    | .error _ => none

theorem tree_eq_ok_iff {c : Condition} {f : Filter} : c.tree = .ok f ↔ c.tree? = some f := by
  cases c with
  | filter g => simp [tree, tree?]
  | text t =>
    rw [tree, tree?]
    cases Filter.parse t <;> simp

/-- Where every text is a filter, no condition is left out. -/
theorem filterMap_tree? {cs : List Condition} {trees : List Filter}
    (h : cs.mapM tree = .ok trees) : cs.filterMap tree? = trees :=
  Except.filterMap_of_mapM (fun _ _ => tree_eq_ok_iff.1) h

end Condition

theorem Condition.tree_text_eq_ok_iff {text : String} {f : Filter} :
    tree (.text text) = .ok f ↔ Filter.parse text = .ok f := by
  rw [tree]
  cases Filter.parse text with
  | ok g => simp
  | error e => simp

namespace Filter

/-- Whatever is listed along a tree from left to right, the conjunction of all conditions lists it one
condition after the other. -/
theorem flatMap_of_all? {α : Type} {g : Filter → List α} (hg : ∀ l r, g (.and l r) = g l ++ g r)
    {trees : List Filter} {f : Filter} (h : all? trees = some f) : g f = trees.flatMap g := by
  -- the conjunction leans to the left, so the induction is on what is joined to it
  have hfold : ∀ (ts : List Filter) (t : Filter), g (ts.foldl .and t) = g t ++ ts.flatMap g := by
    intro ts
    induction ts with
    | nil => simp
    | cons u us ih =>
      intro t
      rw [List.foldl_cons, ih, hg, List.flatMap_cons, List.append_assoc]
  cases trees with
  | nil => cases h
  | cons t ts =>
    cases h
    exact hfold ts t

theorem writtenOperands_of_all? {trees : List Filter} {f : Filter} (h : all? trees = some f) :
    f.writtenOperands = trees.flatMap writtenOperands :=
  flatMap_of_all? (fun _ _ => rfl) h

theorem operands_of_all? {trees : List Filter} {f : Filter} (h : all? trees = some f) :
    f.operands = trees.flatMap operands :=
  flatMap_of_all? (fun _ _ => rfl) h

/-- Operands are exchanged in the conjunction as they are in the conditions. -/
theorem mapOperands_all? (g : Operand → Operand) (trees : List Filter) :
    (all? trees).map (mapOperands g) = all? (trees.map (mapOperands g)) := by
  have hfold : ∀ (ts : List Filter) (t : Filter),
      (ts.foldl .and t).mapOperands g = (ts.map (mapOperands g)).foldl .and (t.mapOperands g) := by
    intro ts
    induction ts with
    | nil => exact fun t => rfl
    | cons u us ih => exact fun t => ih (.and t u)
  cases trees with
  | nil => rfl
  | cons t ts => exact congrArg some (hfold ts t)

theorem trees_eq_nil_of_all? {trees : List Filter} (h : all? trees = none) : trees = [] := by
  cases trees with
  | nil => rfl
  | cons t ts => cases h

end Filter

end QueryTemplate
