import QueryTemplate.Proofs.FirstFailure

/-!
# References of compiled conditions

Which names of a compiled request are known to refer to something. Compiling fails at the first name
of its walk that refers to nothing, so of a request that was compiled the whole walk resolves. The
walk looks up every field, and every parameter that is written; a parameter that is only tested for
membership in an empty list is not looked up, and compiled whether it is bound or not
(`unbound_param_compiled`).
-/

namespace QueryTemplate

theorem resolves_of_write {s : Scope} {f : Filter} {depth : Nat} {p : Fragment}
    (h : f.write s depth = .ok p) {o : Operand} (ho : .operand o ∈ f.visits depth) :
    s.Resolves o := by
  have hnone : s.failures (f.visits depth) = [] := (reports_write s f depth).exists_ok_iff.1 ⟨p, h⟩
  have hvisit := List.filterMap_eq_nil_iff.1 hnone _ ho
  by_contra hfails
  rw [Visit.failure?, if_neg hfails] at hvisit
  -- a literal always resolves, and the other operands have an error
  cases o with
  | literal v => exact hfails trivial
  | param name => cases hvisit
  | field name => cases hvisit

/-- The names of a condition that are sure to resolve once it was compiled. -/
structure Filter.Resolved (f : Filter) (s : Scope) : Prop where
  fields : ∀ name, .field name ∈ f.operands → ∃ g ∈ s.fields, g.name = name
  params : ∀ name, .param name ∈ f.writtenOperands → s.bindings.get? name ≠ none

theorem Filter.resolved_of_write {s : Scope} {f : Filter} {depth : Nat} {p : Fragment}
    (h : f.write s depth = .ok p) : f.Resolved s where
  fields _ hname := resolves_of_write h (operand_mem_visits_iff.2 (.inr ⟨rfl, hname⟩))
  params _ hname := resolves_of_write h (operand_mem_visits_iff.2 (.inl hname))

/-- The conjunction has the names of all its conditions. -/
theorem Filter.Resolved.of_all? {s : Scope} {trees : List Filter} {f : Filter}
    (hall : all? trees = some f) (h : f.Resolved s) {tree : Filter} (htree : tree ∈ trees) :
    tree.Resolved s where
  fields name hname := by
    refine h.fields name ?_
    rw [operands_of_all? hall]
    exact List.mem_flatMap_of_mem htree hname
  params name hname := by
    refine h.params name ?_
    rw [writtenOperands_of_all? hall]
    exact List.mem_flatMap_of_mem htree hname

/-- **What is compiled refers to something.** In every condition of a compiled request, all fields are
fields of the definition, also those tested for membership in an empty list, and all parameters that
are written are bound. So a parameter that is not bound is nowhere but in tests for membership in an
empty list. -/
theorem references_resolve_of_compile {d : Definition} {c : Criteria} {q : PreparedQuery}
    (h : d.compile c = .ok q) :
    ∃ trees, c.conditions.mapM Condition.tree = .ok trees
      ∧ ∀ f ∈ trees, f.Resolved ⟨d.fields, c.params⟩ := by
  obtain ⟨_, extra, _, _, hextra, _, _⟩ := Definition.compile_eq_ok_iff.1 h
  obtain ⟨trees, htrees, hpredicate⟩ := Definition.predicate_eq_ok_iff.1 hextra
  refine ⟨trees, htrees, fun tree htree => ?_⟩
  rcases hpredicate with ⟨hall, _⟩ | ⟨f, p, hall, hwrite, _⟩
  · rw [Filter.trees_eq_nil_of_all? hall] at htree
    cases htree
  · exact (Filter.resolved_of_write hwrite).of_all? hall htree

/-- Fields on both sides, one of them of an empty list, and a parameter among the items of a list. -/
theorem references_resolve_of_compile_lists :
    let d : Definition :=
      ⟨[⟨"p.age", "age", .int⟩, ⟨"p.full_name", "name", .string⟩], "people p", none, none,
        by decide, by decide⟩
    let c : Criteria :=
      { conditions := [.filter (.isIn (.field "name") [] true), .text "age IN (1, :two) OR age = name"]
        params := Bindings.empty.insert "two" (.integer 2) }
    ∃ q, d.compile c = .ok q ∧ ∃ trees, c.conditions.mapM Condition.tree = .ok trees
      ∧ ∀ f ∈ trees, f.Resolved ⟨d.fields, c.params⟩ := by
  intro d c
  have hq : d.compile c = .ok ⟨"SELECT p.age AS age, p.full_name AS name\nFROM people p\n" ++
      "WHERE 1 = 1 AND (p.age IN (?, ?) OR p.age = p.full_name)\nLIMIT 50 OFFSET 0",
      [.integer 1, .integer 2]⟩ := by
    decide +kernel
  exact ⟨_, hq, references_resolve_of_compile hq⟩

/-- An unbound parameter in a compiled request: it is tested for membership in an empty list. -/
theorem unbound_param_compiled :
    let d : Definition := ⟨[⟨"p.age", "age", .int⟩], "people p", none, none, by decide, by decide⟩
    let f : Filter := .isIn (.param "missing") [] false
    let c : Criteria := { conditions := [.filter f] }
    .param "missing" ∈ f.operands ∧ c.params.get? "missing" = none
      ∧ d.compile c = .ok ⟨"SELECT p.age AS age\nFROM people p\nWHERE 1 = 0\nLIMIT 50 OFFSET 0", []⟩ := by
  decide +kernel

end QueryTemplate
