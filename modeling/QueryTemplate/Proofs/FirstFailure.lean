import QueryTemplate.Proofs.Statement

/-!
# The first failure of a request

What can be wrong with a request is listed apart from how it is compiled (`Definition.failures`): the
columns that no field has, the texts that are no filter, what a walk through the conjunction of all
conditions meets, and the sort fields that no field has. Compiling reports the first of the list.

* **`Filter.visits`** is the walk: each condition with the number of conditions around it, before its
  operands and its parts, and from left to right.
* **`reports_write`**: writing a filter fails with the first failure of the walk. The depth that the
  writer is given is the number of conditions around the one it writes, whatever it wrote before.
* **`forall_condition_visits_iff`**: no condition of the walk is too deep exactly if the tree is not
  too high, so where all names resolve only the height decides.
-/

namespace QueryTemplate

/-! ## The walk through a filter -/

/-- What a walk through a filter meets. -/
inductive Visit
  /-- A condition, with the number of conditions around it. -/
  | condition (ancestors : Nat)
  /-- An operand whose name is looked up. -/
  | operand (o : Operand)
  deriving DecidableEq, Repr

def Operand.isField : Operand → Bool
  | .field _ => true
  | _ => false

namespace Filter

/-- The walk in pre-order. Of a test for membership in an empty list, only a field is looked up. -/
def visits (ancestors : Nat) : Filter → List Visit
  | .compare left _ right => [.condition ancestors, .operand left, .operand right]
  | .isIn o [] _ => .condition ancestors :: if o.isField then [.operand o] else []
  | .isIn o (item :: items) _ =>
    .condition ancestors :: .operand o :: .operand item :: items.map .operand
  | .isNull o _ => [.condition ancestors, .operand o]
  | .and left right =>
    .condition ancestors :: (left.visits (ancestors + 1) ++ right.visits (ancestors + 1))
  | .or left right =>
    .condition ancestors :: (left.visits (ancestors + 1) ++ right.visits (ancestors + 1))
  | .not inner => .condition ancestors :: inner.visits (ancestors + 1)

/-- The number of conditions on the longest way down the tree. -/
def height : Filter → Nat
  | .compare _ _ _ => 1
  | .isIn _ _ _ => 1
  | .isNull _ _ => 1
  | .and left right => max left.height right.height + 1
  | .or left right => max left.height right.height + 1
  | .not inner => inner.height + 1

/-- The walk meets conditions below every bound exactly if the tree keeps below it. -/
theorem forall_condition_visits_iff {f : Filter} {ancestors limit : Nat} :
    (∀ n, .condition n ∈ f.visits ancestors → n < limit) ↔ ancestors + f.height ≤ limit := by
  induction f generalizing ancestors with
  | compare left op right | isNull o negated =>
    simp only [visits, height, List.mem_cons, List.not_mem_nil, Visit.condition.injEq,
      reduceCtorEq, or_false, forall_eq]
    omega
  | isIn o items negated =>
    cases items with
    | nil =>
      cases hfield : o.isField <;>
        simp only [visits, height, hfield, if_true, if_false, Bool.false_eq_true, List.mem_cons,
          List.not_mem_nil, Visit.condition.injEq, reduceCtorEq, or_false, forall_eq] <;>
        omega
    | cons item items =>
      simp only [visits, height, List.mem_cons, List.mem_map, Visit.condition.injEq, reduceCtorEq,
        and_false, exists_false, or_false, forall_eq]
      omega
  | and left right ihl ihr | or left right ihl ihr =>
    simp only [visits, height, List.mem_cons, List.mem_append, Visit.condition.injEq, or_imp,
      forall_and, forall_eq, ihl, ihr]
    omega
  | not inner ih =>
    simp only [visits, height, List.mem_cons, Visit.condition.injEq, forall_eq_or_imp, ih]
    omega

end Filter

/-! ## Failures of the walk -/

/-- Whether the name of an operand refers to anything. -/
def Scope.Resolves (s : Scope) : Operand → Prop
  | .literal _ => True
  | .param name => s.bindings.get? name ≠ none
  | .field name => ∃ f ∈ s.fields, f.name = name

instance (s : Scope) (o : Operand) : Decidable (s.Resolves o) := by
  unfold Scope.Resolves
  split <;> infer_instance

/-- The error for an operand whose name refers to nothing. -/
def Operand.unresolved : Operand → Option Error
  | .literal _ => none
  | .param name => some (.unboundParameter name)
  | .field name => some (.unknownField name)

/-- What is wrong with a visit: 256 or more conditions around it, or a name that refers to nothing. -/
def Visit.failure? (s : Scope) : Visit → Option Error
  | .condition ancestors => if 256 ≤ ancestors then some .filterTooDeep else none
  | .operand o => if s.Resolves o then none else o.unresolved

theorem Field.find?_eq_none_iff {fields : List Field} {name : String} :
    find? fields name = none ↔ ¬ ∃ f ∈ fields, f.name = name := by
  simp [find?]

theorem Field.reports_resolve (s : Scope) (name : String) :
    (resolve s.fields name).Reports (Visit.failure? s (.operand (.field name))).toList := by
  unfold resolve
  cases h : find? s.fields name with
  | some f =>
    have hname : s.Resolves (.field name) := by
      by_contra hnone
      rw [find?_eq_none_iff.2 hnone] at h
      cases h
    rw [Visit.failure?, if_pos hname]
    rfl
  | none =>
    have hname : ¬ s.Resolves (.field name) := find?_eq_none_iff.1 h
    rw [Visit.failure?, if_neg hname]
    rfl

namespace Scope

variable (s : Scope)

theorem reports_operand (o : Operand) :
    (s.operand o).Reports (Visit.failure? s (.operand o)).toList := by
  cases o with
  | literal v => rfl
  | param name =>
    cases h : s.bindings.get? name with
    | some v =>
      have hname : s.Resolves (.param name) := by
        show s.bindings.get? name ≠ none
        rw [h]
        simp
      simp only [operand, h, Visit.failure?, if_pos hname]
      rfl
    | none =>
      have hname : ¬ s.Resolves (.param name) := fun hsome => hsome h
      simp only [operand, h, Visit.failure?, if_neg hname]
      rfl
  | field name => exact (Field.reports_resolve s name).map _

/-- The failures of a part of a walk. -/
abbrev failures (vs : List Visit) : List Error :=
  vs.filterMap (Visit.failure? s)

theorem failures_cons (v : Visit) (vs : List Visit) :
    s.failures (v :: vs) = (Visit.failure? s v).toList ++ s.failures vs := by
  rw [failures, List.filterMap_cons]
  cases Visit.failure? s v <;> rfl

theorem failures_append (vs us : List Visit) :
    s.failures (vs ++ us) = s.failures vs ++ s.failures us :=
  List.filterMap_append

theorem reports_moreItems (os : List Operand) :
    (s.moreItems os).Reports (s.failures (os.map .operand)) := by
  induction os with
  | nil => rfl
  | cons o os ih =>
    rw [List.map_cons, failures_cons]
    exact (s.reports_operand o).bind fun first _ => ih.bind_ok fun rest => .sql ", " :: first ++ rest

theorem reports_checkField (o : Operand) :
    (s.checkField o).Reports (s.failures (if o.isField then [.operand o] else [])) := by
  cases o with
  | literal v => rfl
  | param name => rfl
  | field name =>
    have h := (Field.reports_resolve s name).map fun _ => ()
    show (s.checkField (.field name)).Reports (s.failures [.operand (.field name)])
    rw [failures_cons, failures, List.filterMap_nil, List.append_nil]
    exact h

end Scope

/-- A condition that is too deep is reported before anything in it is looked at. -/
theorem reports_write_of_later {s : Scope} {f : Filter} {depth : Nat} {later : List Visit}
    (hvisits : f.visits depth = .condition depth :: later)
    (hlater : ¬ maxFilterDepth ≤ depth → (f.write s depth).Reports (s.failures later)) :
    (f.write s depth).Reports (s.failures (f.visits depth)) := by
  rw [hvisits, Scope.failures_cons]
  by_cases hdepth : maxFilterDepth ≤ depth
  · have hfirst : Visit.failure? s (.condition depth) = some .filterTooDeep := if_pos hdepth
    unfold Filter.write
    rw [if_pos hdepth, hfirst]
    rfl
  · have hfirst : Visit.failure? s (.condition depth) = none := if_neg hdepth
    rw [hfirst]
    exact hlater hdepth

/-- **Writing reports the first failure of the walk.** Induction on the tree: the two parts of a
condition are one condition deeper, the right one also after all of the left one was written. -/
theorem reports_write (s : Scope) (f : Filter) (depth : Nat) :
    (f.write s depth).Reports (s.failures (f.visits depth)) := by
  induction f generalizing depth with
  | compare left op right =>
    refine reports_write_of_later rfl fun hdepth => ?_
    unfold Filter.write
    rw [if_neg hdepth, Scope.failures_cons, Scope.failures_cons]
    exact (s.reports_operand left).bind fun l _ => (s.reports_operand right).bind fun r _ => rfl
  | isIn o items negated =>
    cases items with
    | nil =>
      refine reports_write_of_later rfl fun hdepth => ?_
      unfold Filter.write
      rw [if_neg hdepth]
      exact (s.reports_checkField o).bind_ok fun _ => _
    | cons item items =>
      refine reports_write_of_later rfl fun hdepth => ?_
      unfold Filter.write
      rw [if_neg hdepth, Scope.failures_cons, Scope.failures_cons]
      exact (s.reports_operand o).bind fun l _ => (s.reports_operand item).bind fun first _ =>
        (s.reports_moreItems items).bind_ok fun rest => _
  | isNull o negated =>
    refine reports_write_of_later rfl fun hdepth => ?_
    unfold Filter.write
    rw [if_neg hdepth, Scope.failures_cons]
    exact (s.reports_operand o).bind fun l _ => rfl
  | and left right ihl ihr =>
    refine reports_write_of_later rfl fun hdepth => ?_
    unfold Filter.write
    rw [if_neg hdepth, Scope.failures_append]
    exact (ihl (depth + 1)).bind fun l _ => (ihr (depth + 1)).bind_ok fun r => _
  | or left right ihl ihr =>
    refine reports_write_of_later rfl fun hdepth => ?_
    unfold Filter.write
    rw [if_neg hdepth, Scope.failures_append]
    exact (ihl (depth + 1)).bind fun l _ => (ihr (depth + 1)).bind_ok fun r => _
  | not inner ih =>
    refine reports_write_of_later rfl fun hdepth => ?_
    unfold Filter.write
    rw [if_neg hdepth]
    exact (ih (depth + 1)).bind_ok fun i => _

/-! ## Failures of a request -/

namespace Condition

/-- What is wrong with a condition whose text is no filter. -/
def fault? : Condition → Option Error
  | .filter _ => none
  | .text t =>
    match Filter.parse t with
    | .ok _ => none
    | .error e => some (.text e)

theorem reports_tree (c : Condition) : c.tree.Reports c.fault?.toList := by
  cases c with
  | filter f => rfl
  | text t =>
    rw [tree, fault?]
    cases Filter.parse t <;> rfl

/-- The walk through the conjunction of all conditions; without conditions, it meets nothing. -/
def visits (cs : List Condition) : List Visit :=
  match Filter.all? (cs.filterMap tree?) with
  | none => []
  | some f => f.visits 0

end Condition

namespace Definition

/-- The error for a name that no field has. -/
def unknown? (d : Definition) (name : String) : Option Error :=
  if ∃ f ∈ d.fields, f.name = name then none else some (.unknownField name)

/-- Everything that is wrong with a request: its columns, its texts, what the walk through the
conjunction of its conditions meets, and unless it is a count, its sort fields. -/
def failures (d : Definition) (c : Criteria) : List Error :=
  c.columns.filterMap d.unknown?
    ++ c.conditions.filterMap Condition.fault?
    ++ (Condition.visits c.conditions).filterMap (Visit.failure? ⟨d.fields, c.params⟩)
    ++ if c.count then [] else c.sorts.filterMap fun sort => d.unknown? sort.field

variable {d : Definition} {c : Criteria}

theorem reports_resolve (d : Definition) (name : String) :
    (Field.resolve d.fields name).Reports (d.unknown? name).toList :=
  Field.reports_resolve ⟨d.fields, .empty⟩ name

theorem reports_projection (columns : List String) :
    (d.projection columns).Reports (columns.filterMap d.unknown?) := by
  cases columns with
  | nil => rfl
  | cons column columns => exact Except.reports_mapM d.reports_resolve _

theorem reports_predicate (conditions : List Condition) (bindings : Bindings) :
    (d.predicate conditions bindings).Reports
      (conditions.filterMap Condition.fault?
        ++ (Condition.visits conditions).filterMap (Visit.failure? ⟨d.fields, bindings⟩)) := by
  refine (Except.reports_mapM Condition.reports_tree conditions).bind fun trees htrees => ?_
  rw [Condition.visits, Condition.filterMap_tree? htrees]
  cases Filter.all? trees with
  | none => rfl
  | some f => exact (reports_write ⟨d.fields, bindings⟩ f 0).map some

theorem reports_tail :
    (d.tail c).Reports
      (if c.count then [] else c.sorts.filterMap fun sort => d.unknown? sort.field) := by
  unfold tail orderClause
  cases c.count with
  | true => rfl
  | false =>
    have hterm : ∀ sort : SortKey, (d.sortTerm sort).Reports (d.unknown? sort.field).toList :=
      fun sort => (d.reports_resolve sort.field).map _
    cases c.sorts with
    | nil => rfl
    | cons sort sorts =>
      exact ((Except.reports_mapM hterm (sort :: sorts)).bind_ok fun terms =>
        ["ORDER BY " ++ ", ".intercalate terms]).bind_ok fun order => order ++ [pageClause c]

theorem reports_compile : (d.compile c).Reports (d.failures c) := by
  rw [compile_eq, failures, List.append_assoc, List.append_assoc]
  refine (reports_projection c.columns).bind fun fields _ => ?_
  rw [← List.append_assoc]
  refine (reports_predicate c.conditions c.params).bind fun extra _ => ?_
  exact reports_tail.bind_ok fun tail => d.assemble c fields extra tail

/-! ### Where every name resolves -/

/-- Columns and sort fields are fields of the definition, and so are the fields in the conditions,
whose parameters are bound. -/
structure NamesResolve (d : Definition) (c : Criteria) (f : Filter) : Prop where
  columns : ∀ name ∈ c.columns, ∃ g ∈ d.fields, g.name = name
  operands : ∀ o ∈ f.operands, Scope.Resolves ⟨d.fields, c.params⟩ o
  sorts : ∀ sort ∈ c.sorts, ∃ g ∈ d.fields, g.name = sort.field

theorem unknown?_eq_none {name : String} (h : ∃ g ∈ d.fields, g.name = name) :
    d.unknown? name = none :=
  if_pos h

end Definition

namespace Filter

/-- The walk looks up the operands that are written, and of the others the fields. -/
theorem operand_mem_visits_iff {f : Filter} {ancestors : Nat} {o : Operand} :
    .operand o ∈ f.visits ancestors ↔
      o ∈ f.writtenOperands ∨ (o.isField = true ∧ o ∈ f.operands) := by
  induction f generalizing ancestors with
  | compare left op right => simp [visits, operands, writtenOperands]
  | isIn p items negated =>
    cases items with
    | nil => cases hp : p.isField <;> simp [visits, operands, writtenOperands, hp] <;> grind
    | cons item items => simp [visits, operands, writtenOperands]
  | isNull p negated => simp [visits, operands, writtenOperands]
  | and left right ihl ihr | or left right ihl ihr =>
    simp only [visits, operands, writtenOperands, List.mem_cons, List.mem_append, reduceCtorEq,
      false_or, ihl, ihr]
    grind
  | not inner ih =>
    simp only [visits, operands, writtenOperands, List.mem_cons, reduceCtorEq, false_or, ih]

theorem mem_operands_of_mem_writtenOperands {f : Filter} {o : Operand}
    (h : o ∈ f.writtenOperands) : o ∈ f.operands := by
  induction f with
  | compare left op right => exact h
  | isIn p items negated =>
    cases items with
    | nil => cases h
    | cons item items => exact h
  | isNull p negated => exact h
  | and left right ihl ihr | or left right ihl ihr =>
    rcases List.mem_append.1 h with h | h
    · exact List.mem_append_left _ (ihl h)
    · exact List.mem_append_right _ (ihr h)
  | not inner ih => exact ih h

theorem mem_operands_of_visits {f : Filter} {ancestors : Nat} {o : Operand}
    (h : .operand o ∈ f.visits ancestors) : o ∈ f.operands := by
  rcases operand_mem_visits_iff.1 h with h | h
  · exact mem_operands_of_mem_writtenOperands h
  · exact h.2

end Filter

/-- With all names resolved, only depth can fail, so the walk has no failure exactly if the tree is
not too high. -/
theorem failures_visits_eq_nil_iff {s : Scope} {f : Filter} (h : ∀ o ∈ f.operands, s.Resolves o) :
    s.failures (f.visits 0) = [] ↔ f.height ≤ 256 := by
  rw [List.filterMap_eq_nil_iff, ← Nat.zero_add f.height, ← Filter.forall_condition_visits_iff]
  constructor
  · intro hvisits n hn
    have hnone := hvisits _ hn
    by_contra hdepth
    rw [Visit.failure?, if_pos (by omega)] at hnone
    cases hnone
  · intro hvisits v hv
    cases v with
    | condition n => exact if_neg (Nat.not_le.2 (hvisits n hv))
    | operand o => exact if_pos (h o (Filter.mem_operands_of_visits hv))

theorem Definition.failures_eq_nil_iff {d : Definition} {c : Criteria} {trees : List Filter}
    {f : Filter} (htrees : c.conditions.mapM Condition.tree = .ok trees)
    (hall : Filter.all? trees = some f) (hnames : d.NamesResolve c f) :
    d.failures c = [] ↔ f.height ≤ 256 := by
  have hcolumns : c.columns.filterMap d.unknown? = [] :=
    List.filterMap_eq_nil_iff.2 fun name hname => unknown?_eq_none (hnames.columns name hname)
  have hfaults : c.conditions.filterMap Condition.fault? = [] :=
    (Except.reports_mapM Condition.reports_tree c.conditions).exists_ok_iff.1 ⟨trees, htrees⟩
  have hsorts : (c.sorts.filterMap fun sort => d.unknown? sort.field) = [] :=
    List.filterMap_eq_nil_iff.2 fun sort hsort => unknown?_eq_none (hnames.sorts sort hsort)
  have hvisits : Condition.visits c.conditions = f.visits 0 := by
    rw [Condition.visits, Condition.filterMap_tree? htrees, hall]
  rw [failures, hcolumns, hfaults, hsorts, hvisits, ite_self, List.append_nil]
  exact failures_visits_eq_nil_iff hnames.operands

/-- **The first failure is reported, and nothing else fails.** A request is refused exactly if one of
its failures exists, with the first of them: an unknown column, a text that is no filter, then on the
walk through the conjunction of all conditions a condition inside 256 others or a name that refers to
nothing, and for rows an unknown sort field. So where every name resolves, a request is compiled
exactly if that conjunction is at most 256 conditions high, however wide it is. -/
theorem compile_reports_first_failure :
    (∀ (d : Definition) (c : Criteria) (e : Error),
      d.compile c = .error e ↔ (d.failures c).head? = some e)
    ∧ ∀ (d : Definition) (c : Criteria) (trees : List Filter) (f : Filter),
      c.conditions.mapM Condition.tree = .ok trees → Filter.all? trees = some f →
      d.NamesResolve c f → ((∃ q, d.compile c = .ok q) ↔ f.height ≤ 256) := by
  constructor
  · intro d c e
    exact Definition.reports_compile.eq_error_iff
  · intro d c trees f htrees hall hnames
    rw [Definition.reports_compile.exists_ok_iff]
    exact Definition.failures_eq_nil_iff htrees hall hnames

/-- Of a tree that is too deep on its left and has an unbound parameter on its right, only the depth
is reported; and a tree of just 256 conditions is compiled. -/
theorem compile_reports_first_failure_deep :
    let d : Definition :=
      ⟨[⟨"p.age", "age", .int⟩], "people p", none, none, by decide, by decide⟩
    let leaf : Filter := .compare (.field "age") .eq (.literal (.integer 1))
    let refused : Criteria :=
      { conditions := [.filter (Filter.negate 255 leaf), .filter (.isNull (.param "p") false)]
        sorts := [⟨"email", .ascending⟩] }
    let accepted : Criteria := { conditions := [.filter (Filter.negate 255 leaf)] }
    d.compile refused = .error .filterTooDeep ∧ ∃ q, d.compile accepted = .ok q := by
  intro d leaf refused accepted
  have hnames : d.NamesResolve accepted (Filter.negate 255 leaf) :=
    ⟨by decide, by decide, by decide⟩
  constructor
  · exact (compile_reports_first_failure.1 d refused _).2 (by decide +kernel)
  · exact (compile_reports_first_failure.2 d accepted _ _ rfl rfl hnames).2 (by decide +kernel)

end QueryTemplate
