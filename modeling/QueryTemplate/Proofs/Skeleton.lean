import QueryTemplate.Proofs.Placeholders

/-!
# Values do not reach the SQL text

Two runs side by side. The skeleton of a filter has one and the same hole in place of every literal
and every parameter; field operands, operators, list lengths and the shape of the tree stay. The SQL
text of a filter is a function of its skeleton and the fields alone (`sql_of_write`), and so is the
number of its values (`params_length_of_write`). Nothing else of a statement looks at the conditions,
so requests whose conditions have equal skeletons are compiled to the same SQL
(`sql_independent_of_values`).
-/

namespace QueryTemplate

/-! ## Skeletons -/

/-- One hole for all literals and parameters; a field stays itself. -/
def Operand.hole : Operand → Operand
  | .field name => .field name
  | .literal _ => .literal .null
  | .param _ => .literal .null

/-- The tree with a hole in place of every literal and every parameter. -/
def Filter.skeleton (f : Filter) : Filter :=
  f.mapOperands Operand.hole

namespace Filter

theorem writtenOperands_skeleton (f : Filter) :
    f.skeleton.writtenOperands = f.writtenOperands.map Operand.hole := by
  have hmark : ∀ m : Mark, (m.map Operand.hole).operand? = m.operand?.map Operand.hole := by
    intro m
    cases m <;> rfl
  rw [← layout_operands, ← layout_operands, skeleton, layout_mapOperands, List.filterMap_map,
    List.map_filterMap]
  exact List.filterMap_congr fun m _ => hmark m

theorem skeleton_all? (trees : List Filter) :
    (all? trees).map skeleton = all? (trees.map skeleton) :=
  mapOperands_all? Operand.hole trees

end Filter

/-! ## One run -/

def Piece.text : Piece → String
  | .sql text => text
  | .bound _ => "?"

/-- The SQL text of a part, which looks at the fields alone. -/
def Mark.text (fields : List Field) : Mark → String
  | .verbatim text => text
  | .operand (.field name) => ((Field.find? fields name).map Field.expression).getD ""
  | .operand (.literal _) => "?"
  | .operand (.param _) => "?"

theorem Fragment.sql_eq_join (p : Fragment) : p.sql = String.join (p.map Piece.text) := by
  induction p with
  | nil => rw [List.map_nil, String.join_nil]; rfl
  | cons piece p ih =>
    rw [List.map_cons, String.join_cons, ← ih]
    cases piece <;> rfl

theorem Mark.text_map_hole (fields : List Field) (m : Mark) :
    (m.map Operand.hole).text fields = m.text fields := by
  cases m with
  | verbatim text => rfl
  | operand o => cases o <;> rfl

theorem Scope.text_of_writes {s : Scope} {m : Mark} {p : Piece} (h : s.Writes m p) :
    p.text = m.text s.fields := by
  cases h with
  | verbatim text => rfl
  | literal v => rfl
  | param hv => rfl
  | field hf =>
    show _ = ((Field.find? s.fields _).map Field.expression).getD ""
    rw [hf]
    rfl

theorem sql_eq_join_layout {s : Scope} {f : Filter} {depth : Nat} {p : Fragment}
    (h : f.write s depth = .ok p) : p.sql = String.join (f.layout.map (Mark.text s.fields)) := by
  have hpieces : p.map Piece.text = f.layout.map (Mark.text s.fields) :=
    Scope.map_eq_map_of_writes (writes_layout_of_write h) fun _ _ _ => Scope.text_of_writes
  rw [Fragment.sql_eq_join, hpieces]

/-- **The text of a predicate is made from the fields and the skeleton.** -/
theorem sql_of_write {s : Scope} {f : Filter} {depth : Nat} {p : Fragment}
    (h : f.write s depth = .ok p) :
    p.sql = String.join (f.skeleton.layout.map (Mark.text s.fields)) := by
  rw [sql_eq_join_layout h, Filter.skeleton, Filter.layout_mapOperands, List.map_map]
  congr 1
  exact List.map_congr_left fun m _ => (Mark.text_map_hole s.fields m).symm

theorem params_length_of_write {s : Scope} {f : Filter} {depth : Nat} {p : Fragment}
    (h : f.write s depth = .ok p) :
    p.params.length = (f.skeleton.writtenOperands.filter Operand.isValue).length := by
  -- a hole is a literal, so it counts like what it stands for
  have hhole : Operand.isValue ∘ Operand.hole = Operand.isValue := by
    funext o
    cases o <;> rfl
  have hparams := congrArg List.length (params_of_write h)
  rw [List.length_map, List.length_map] at hparams
  rw [hparams, Filter.writtenOperands_skeleton, List.filter_map, List.length_map, hhole]

/-! ## Two runs -/

/-- Two conditions whose trees have the same skeleton. A text condition has the tree it is read as. -/
def Condition.SameShape (a b : Condition) : Prop :=
  ∃ f g, a.tree = .ok f ∧ b.tree = .ok g ∧ f.skeleton = g.skeleton

/-- Two requests that differ in literals, parameters and bindings only. -/
structure Criteria.SameShape (a b : Criteria) : Prop where
  columns : a.columns = b.columns
  conditions : List.Forall₂ Condition.SameShape a.conditions b.conditions
  sorts : a.sorts = b.sorts
  offset : a.offset = b.offset
  limit : a.limit = b.limit
  count : a.count = b.count

theorem skeletons_of_sameShape {as bs : List Condition} (h : List.Forall₂ Condition.SameShape as bs)
    {ts us : List Filter} (hts : as.mapM Condition.tree = .ok ts)
    (hus : bs.mapM Condition.tree = .ok us) :
    ts.map Filter.skeleton = us.map Filter.skeleton := by
  induction h generalizing ts us with
  | nil =>
    cases hts
    cases hus
    rfl
  | @cons a b as bs hab _ ih =>
    obtain ⟨f, g, hf, hg, hskeleton⟩ := hab
    obtain ⟨f', ts, hf', hts', rfl⟩ := Except.mapM_cons_eq_ok_iff.1 hts
    obtain ⟨g', us, hg', hus', rfl⟩ := Except.mapM_cons_eq_ok_iff.1 hus
    rw [hf] at hf'
    rw [hg] at hg'
    cases hf'
    cases hg'
    rw [List.map_cons, List.map_cons, hskeleton, ih hts' hus']

namespace Definition

variable {d : Definition}

/-- Predicates of conditions with the same skeletons: there are two or none, with one text and equally
many values. -/
theorem predicates_of_sameShape {as bs : List Condition} {σ τ : Bindings}
    (h : List.Forall₂ Condition.SameShape as bs) {p q : Option Fragment}
    (hp : d.predicate as σ = .ok p) (hq : d.predicate bs τ = .ok q) :
    p.map Fragment.sql = q.map Fragment.sql
      ∧ (p.getD []).params.length = (q.getD []).params.length := by
  obtain ⟨ts, hts, hp⟩ := predicate_eq_ok_iff.1 hp
  obtain ⟨us, hus, hq⟩ := predicate_eq_ok_iff.1 hq
  have hall : (Filter.all? ts).map Filter.skeleton = (Filter.all? us).map Filter.skeleton := by
    rw [Filter.skeleton_all?, Filter.skeleton_all?, skeletons_of_sameShape h hts hus]
  rcases hp with ⟨hts', rfl⟩ | ⟨f, p, hts', hwrite, rfl⟩ <;>
    rcases hq with ⟨hus', rfl⟩ | ⟨g, q, hus', hwrite', rfl⟩ <;>
    rw [hts', hus'] at hall
  · exact ⟨rfl, rfl⟩
  -- equal skeletons come from equally many conditions
  · cases hall
  · cases hall
  · have hskeleton : f.skeleton = g.skeleton := Option.some.inj hall
    constructor
    · show some p.sql = some q.sql
      rw [sql_of_write hwrite, sql_of_write hwrite', hskeleton]
    · show p.params.length = q.params.length
      rw [params_length_of_write hwrite, params_length_of_write hwrite', hskeleton]

theorem whereClause_of_sql_eq {p q : Option Fragment}
    (h : p.map Fragment.sql = q.map Fragment.sql) : d.whereClause p = d.whereClause q := by
  cases p with
  | none =>
    cases q with
    | none => rfl
    | some q => cases h
  | some p =>
    cases q with
    | none => cases h
    | some q =>
      have hsql : p.sql = q.sql := Option.some.inj h
      unfold whereClause
      cases d.condition with
      | none => simp only [hsql]
      | some base => simp only [hsql]

end Definition

/-- **Values never reach the SQL text.** If two requests differ in nothing but the literals, the
parameters and the bindings of their conditions, and both are compiled against one definition, they
get the same SQL and equally many values. -/
theorem sql_independent_of_values {d : Definition} {a b : Criteria} {q r : PreparedQuery}
    (hshape : a.SameShape b) (hq : d.compile a = .ok q) (hr : d.compile b = .ok r) :
    q.sql = r.sql ∧ q.params.length = r.params.length := by
  obtain ⟨fields, extra, tail, hfields, hextra, htail, rfl⟩ := Definition.compile_eq_ok_iff.1 hq
  obtain ⟨fields', extra', tail', hfields', hextra', htail', rfl⟩ :=
    Definition.compile_eq_ok_iff.1 hr
  obtain ⟨hsql, hlength⟩ := Definition.predicates_of_sameShape hshape.conditions hextra hextra'
  -- the other two steps see equal parts of the requests
  have hfields_eq : fields = fields' := by
    rw [hshape.columns, hfields'] at hfields
    cases hfields
    rfl
  have htail_eq : tail = tail' := by
    have hpage : Definition.pageClause a = Definition.pageClause b := by
      unfold Definition.pageClause
      rw [hshape.limit, hshape.offset]
    unfold Definition.tail at htail htail'
    rw [hshape.count, hshape.sorts, hpage, htail'] at htail
    cases htail
    rfl
  have hhead : Definition.head a fields = Definition.head b fields' := by
    unfold Definition.head
    rw [hshape.count, hfields_eq]
  refine ⟨?_, hlength⟩
  unfold Definition.assemble
  rw [hhead, htail_eq, Definition.whereClause_of_sql_eq hsql]

/-- A text with harmless literals, and a tree with parameters and hostile text. -/
theorem sql_independent_of_values_hostile :
    let d : Definition :=
      ⟨[⟨"p.age", "age", .int⟩, ⟨"p.full_name", "name", .string⟩], "people p", none, none,
        by decide, by decide⟩
    let a : Criteria := { conditions := [.text "name = 'Ann' OR age IN (1, 2)"] }
    let b : Criteria :=
      { conditions := [.filter (.or (.compare (.field "name") .eq (.param "n"))
          (.isIn (.field "age") [.literal .null, .literal (.text "?) OR 1 = 1 --")] false))]
        params := Bindings.empty.insert "n" (.text "'; DROP TABLE people; --") }
    a.SameShape b ∧ ∃ q r, d.compile a = .ok q ∧ d.compile b = .ok r
      ∧ q.sql = r.sql ∧ q.params.length = r.params.length := by
  intro d a b
  have hshape : a.SameShape b := by
    refine ⟨rfl, ?_, rfl, rfl, rfl, rfl⟩
    refine .cons ⟨.or (.compare (.field "name") .eq (.literal (.text "Ann")))
      (.isIn (.field "age") [.literal (.integer 1), .literal (.integer 2)] false), _, ?_, rfl, ?_⟩
      .nil
    · decide +kernel
    · rfl
  have hq : d.compile a = .ok ⟨"SELECT p.age AS age, p.full_name AS name\nFROM people p\n" ++
      "WHERE p.full_name = ? OR p.age IN (?, ?)\nLIMIT 50 OFFSET 0",
      [.text "Ann", .integer 1, .integer 2]⟩ := by
    decide +kernel
  have hr : d.compile b = .ok ⟨"SELECT p.age AS age, p.full_name AS name\nFROM people p\n" ++
      "WHERE p.full_name = ? OR p.age IN (?, ?)\nLIMIT 50 OFFSET 0",
      [.text "'; DROP TABLE people; --", .null, .text "?) OR 1 = 1 --"]⟩ := by
    decide +kernel
  exact ⟨hshape, _, _, hq, hr, sql_independent_of_values hshape hq hr⟩

end QueryTemplate
