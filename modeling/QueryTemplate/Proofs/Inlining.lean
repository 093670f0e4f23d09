import QueryTemplate.Proofs.FirstFailure

/-!
# Values in the place of parameters

A bound parameter and the literal of its value are the same thing to the writer: both become one
placeholder with that value. So a request may have the values of its parameters written into its
conditions and its bindings dropped, and is compiled to the same result, be it a statement or an error.

* **`write_mapOperands`**: where an exchange of operands goes with an exchange of scopes, the filter is
  written as before. The depth, the names and the bindings are checked at the same places.
* **`predicate_map_inline`**, **`predicate_inline`**: so the predicate of all conditions is the same with the
  values in place.
* **`compile_inlined`**: only the predicate looks at the bindings. Two requests whose bindings agree on
  the parameters of the conditions have the same conditions with the values in place.
-/

namespace QueryTemplate

/-! ## Exchanging operands and scopes -/

/-- The operand `p` is in the scope `t` what the operand `o` is in the scope `s`. -/
structure Scope.Same (s t : Scope) (o p : Operand) : Prop where
  written : t.operand p = s.operand o
  checked : t.checkField p = s.checkField o

namespace Filter

variable {s t : Scope} {g h : Operand → Operand}

theorem moreItems_map {os : List Operand} (hos : ∀ o ∈ os, s.Same t o (g o)) :
    t.moreItems (os.map g) = s.moreItems os := by
  induction os with
  | nil => rfl
  | cons o os ih =>
    rw [List.map_cons, Scope.moreItems, Scope.moreItems, (hos o List.mem_cons_self).written,
      ih fun x hx => hos x (List.mem_cons_of_mem _ hx)]

theorem membership_map {o : Operand} {items : List Operand} (negated : Bool)
    (hos : ∀ x ∈ o :: items, s.Same t x (g x)) :
    t.membership (g o) (items.map g) negated = s.membership o items negated := by
  have ho := hos o List.mem_cons_self
  cases items with
  | nil =>
    -- of the empty list only the check of the operand is left
    rw [List.map_nil, Scope.membership, Scope.membership, ho.checked]
  | cons item items =>
    have hitem := hos item (List.mem_cons_of_mem _ List.mem_cons_self)
    have hitems : ∀ x ∈ items, s.Same t x (g x) := fun x hx =>
      hos x (List.mem_cons_of_mem _ (List.mem_cons_of_mem _ hx))
    rw [List.map_cons, Scope.membership, Scope.membership, ho.written, hitem.written,
      moreItems_map hitems]

/-- **Exchanged operands are written as before.** Induction on the tree: an exchange of operands keeps
the shape, and with it the depth of every condition and the parentheses around it. -/
theorem write_mapOperands {f : Filter} (hf : ∀ o ∈ f.operands, s.Same t o (g o)) (depth : Nat) :
    (f.mapOperands g).write t depth = f.write s depth := by
  induction f generalizing depth with
  | compare left op right =>
    have hleft := hf left (by simp [operands])
    have hright := hf right (by simp [operands])
    rw [mapOperands, write.eq_def t, write.eq_def s]
    simp only [hleft.written, hright.written]
  | isIn o items negated =>
    rw [mapOperands, write.eq_def t, write.eq_def s]
    simp only [membership_map negated hf]
  | isNull o negated =>
    have ho := hf o (by simp [operands])
    rw [mapOperands, write.eq_def t, write.eq_def s]
    simp only [ho.written]
  | and left right ihl ihr =>
    -- parentheses depend on what the sides are at the top, which the exchange keeps
    have hl := ihl fun o ho => hf o (List.mem_append_left _ ho)
    have hr := ihr fun o ho => hf o (List.mem_append_right _ ho)
    rw [mapOperands, write.eq_def t, write.eq_def s]
    simp only [hl, hr, isOr_mapOperands, isAnd_mapOperands]
  | or left right ihl ihr =>
    have hl := ihl fun o ho => hf o (List.mem_append_left _ ho)
    have hr := ihr fun o ho => hf o (List.mem_append_right _ ho)
    rw [mapOperands, write.eq_def t, write.eq_def s]
    simp only [hl, hr, isOr_mapOperands]
  | not inner ih =>
    rw [mapOperands, write.eq_def t, write.eq_def s]
    simp only [ih hf]

/-- Only what the operands of the tree are exchanged for matters. -/
theorem mapOperands_congr {f : Filter} (hf : ∀ o ∈ f.operands, g o = h o) :
    f.mapOperands g = f.mapOperands h := by
  induction f with
  | compare left op right =>
    rw [mapOperands, mapOperands, hf left (by simp [operands]), hf right (by simp [operands])]
  | isIn o items negated =>
    rw [mapOperands, mapOperands, hf o List.mem_cons_self,
      List.map_congr_left fun x hx => hf x (List.mem_cons_of_mem _ hx)]
  | isNull o negated => rw [mapOperands, mapOperands, hf o (by simp [operands])]
  | and left right ihl ihr | or left right ihl ihr =>
    rw [mapOperands, mapOperands, ihl fun o ho => hf o (List.mem_append_left _ ho),
      ihr fun o ho => hf o (List.mem_append_right _ ho)]
  | not inner ih => rw [mapOperands, mapOperands, ih hf]

end Filter

/-! ## Values in place -/

/-- A bound parameter becomes the literal of its value; every other operand stays. -/
def Operand.inline (bindings : Bindings) : Operand → Operand
  | .param name => ((bindings.get? name).map .literal).getD (.param name)
  | .literal v => .literal v
  | .field name => .field name

theorem Operand.inline_of_bound {bindings : Bindings} {name : String} {v : Value}
    (h : bindings.get? name = some v) : (param name).inline bindings = literal v := by
  simp only [inline, h, Option.map_some, Option.getD_some]

theorem Operand.inline_of_unbound {bindings : Bindings} {name : String}
    (h : bindings.get? name = none) : (param name).inline bindings = param name := by
  simp only [inline, h, Option.map_none, Option.getD_none]

/-- The tree of a condition with values in the place of bound parameters. A text that is no filter
stays as it is. -/
def Condition.inline (bindings : Bindings) (c : Condition) : Condition :=
  match c.tree? with
  | some f => .filter (f.mapOperands (Operand.inline bindings))
  | none => c

/-- The request with the values of its parameters written into its conditions, and no bindings. -/
def Criteria.inlined (c : Criteria) : Criteria :=
  { c with conditions := c.conditions.map (Condition.inline c.params), params := .empty }

/-- `c.Mentions name`: some condition has the parameter among its operands. -/
def Criteria.Mentions (c : Criteria) (name : String) : Prop :=
  ∃ f ∈ c.conditions.filterMap Condition.tree?, .param name ∈ f.operands

theorem Scope.same_inline (fields : List Field) (bindings : Bindings) (o : Operand) :
    Scope.Same ⟨fields, bindings⟩ ⟨fields, .empty⟩ o (o.inline bindings) := by
  cases o with
  | literal v => exact ⟨rfl, rfl⟩
  | field name => exact ⟨rfl, rfl⟩
  | param name =>
    cases hv : bindings.get? name with
    | some v =>
      rw [Operand.inline_of_bound hv]
      exact ⟨by rw [operand, operand, hv], rfl⟩
    | none =>
      rw [Operand.inline_of_unbound hv]
      exact ⟨by rw [operand, operand, hv, Bindings.get?_empty], rfl⟩

namespace Condition

variable {bindings bindings' : Bindings}

theorem tree_inline (c : Condition) :
    (c.inline bindings).tree = c.tree.map (Filter.mapOperands (Operand.inline bindings)) := by
  unfold inline
  cases htree : c.tree? with
  | some f =>
    rw [tree_eq_ok_iff.2 htree]
    rfl
  | none =>
    -- a text that is no filter stays, and fails as before
    cases hc : c.tree with
    | ok f =>
      rw [tree_eq_ok_iff.1 hc] at htree
      cases htree
    | error e => rfl

theorem inline_congr {c : Condition}
    (h : ∀ f, c.tree? = some f → ∀ name, .param name ∈ f.operands →
      bindings.get? name = bindings'.get? name) :
    c.inline bindings = c.inline bindings' := by
  unfold inline
  cases htree : c.tree? with
  | none => rfl
  | some f =>
    refine congrArg Condition.filter (Filter.mapOperands_congr fun o ho => ?_)
    cases o with
    | literal v => rfl
    | field name => rfl
    | param name => simp only [Operand.inline, h f htree name ho]

end Condition

namespace Definition

variable {d : Definition}

/-- **Operands exchanged in all conditions.** Where values in place make up for the change of the bindings,
the conjunction of all conditions is written as before. -/
theorem predicate_map_inline {bindings bindings' values : Bindings}
    (hsame : ∀ o, Scope.Same ⟨d.fields, bindings⟩ ⟨d.fields, bindings'⟩ o (o.inline values))
    (conditions : List Condition) :
    d.predicate (conditions.map (Condition.inline values)) bindings'
      = d.predicate conditions bindings := by
  have htrees : (conditions.map (Condition.inline values)).mapM Condition.tree
      = (conditions.mapM Condition.tree).map
          (List.map (Filter.mapOperands (Operand.inline values))) := by
    rw [List.mapM_map, ← Except.mapM_map]
    exact congrArg (conditions.mapM ·) (funext Condition.tree_inline)
  unfold predicate
  rw [htrees]
  cases conditions.mapM Condition.tree with
  | error e => rfl
  | ok trees =>
    dsimp only [Except.map, bind, Except.bind]
    rw [← Filter.mapOperands_all?]
    cases Filter.all? trees with
    | none => rfl
    | some f => exact congrArg (some <$> ·) (Filter.write_mapOperands (fun o _ => hsame o) 0)

/-- **The predicate with values in place.** The conjunction of all conditions has the values in place if
every condition has them. -/
theorem predicate_inline (conditions : List Condition) (bindings : Bindings) :
    d.predicate (conditions.map (Condition.inline bindings)) .empty
      = d.predicate conditions bindings :=
  predicate_map_inline (Scope.same_inline d.fields bindings) conditions

theorem predicate_congr {conditions : List Condition} {bindings bindings' : Bindings}
    (h : ∀ f ∈ conditions.filterMap Condition.tree?, ∀ name, .param name ∈ f.operands →
      bindings.get? name = bindings'.get? name) :
    d.predicate conditions bindings = d.predicate conditions bindings' := by
  have hinline : conditions.map (Condition.inline bindings)
      = conditions.map (Condition.inline bindings') :=
    List.map_congr_left fun c hc => Condition.inline_congr fun f hf =>
      h f (List.mem_filterMap.2 ⟨c, hc, hf⟩)
  -- from one request to the other by way of the conditions with the values in place
  rw [← predicate_inline conditions bindings, hinline, predicate_inline]

/-- Nothing but the predicate looks at the conditions and the bindings. -/
theorem compile_congr_predicate {c : Criteria} {conditions : List Condition} {bindings : Bindings}
    (h : d.predicate conditions bindings = d.predicate c.conditions c.params) :
    d.compile { c with conditions := conditions, params := bindings } = d.compile c := by
  rw [compile_eq, compile_eq]
  exact congrArg (d.projection c.columns >>= ·) (funext fun fields => by rw [h]; rfl)

end Definition

/-- **Binding a parameter is the same as writing its value in place.** The request with the values of
its parameters in the place of them, and without bindings, is compiled to the same result: the same
statement and values, or the same error. So bindings of names that no condition mentions never
matter. -/
theorem compile_inlined :
    (∀ (d : Definition) (c : Criteria), d.compile c.inlined = d.compile c)
    ∧ ∀ (d : Definition) (c : Criteria) (bindings : Bindings),
      (∀ name, c.Mentions name → bindings.get? name = c.params.get? name) →
      d.compile { c with params := bindings } = d.compile c := by
  constructor
  · intro d c
    exact Definition.compile_congr_predicate (Definition.predicate_inline c.conditions c.params)
  · intro d c bindings h
    refine Definition.compile_congr_predicate (c := c) (Definition.predicate_congr ?_)
    exact fun f hf name hname => h name ⟨f, hf, hname⟩

/-- A text with a bound parameter, and a tree with an unbound one that is not looked up; another binding
is put beside that of the text. -/
theorem compile_inlined_unmentioned :
    let d : Definition := ⟨[⟨"p.age", "age", .int⟩], "people p", none, none, by decide, by decide⟩
    let c : Criteria :=
      { conditions := [.text "age > :min", .filter (.isIn (.param "gone") [] true)]
        params := Bindings.empty.insert "min" (.integer 18) }
    let more : Bindings := c.params.insert "max" (.integer 99)
    c.inlined.conditions = [.filter (.compare (.field "age") .gt (.literal (.integer 18))),
        .filter (.isIn (.param "gone") [] true)]
      ∧ d.compile c.inlined = d.compile c
      ∧ (∀ name, c.Mentions name → more.get? name = c.params.get? name)
      ∧ d.compile { c with params := more } = d.compile c
      ∧ d.compile c = .ok ⟨"SELECT p.age AS age\nFROM people p\nWHERE p.age > ? AND 1 = 1\n" ++
          "LIMIT 50 OFFSET 0", [.integer 18]⟩ := by
  intro d c more
  have htrees : c.conditions.filterMap Condition.tree?
      = [.compare (.field "age") .gt (.param "min"), .isIn (.param "gone") [] true] := by
    decide +kernel
  have hagree : ∀ name, c.Mentions name → more.get? name = c.params.get? name := by
    rintro name ⟨f, hf, hname⟩
    rw [htrees] at hf
    have hne : name ≠ "max" := by
      rintro rfl
      revert hname
      rcases List.mem_cons.1 hf with rfl | hf
      · decide
      · rw [List.mem_singleton.1 hf]
        decide
    rw [Bindings.get?_insert, if_neg hne]
  exact ⟨by decide +kernel, compile_inlined.1 d c, hagree, compile_inlined.2 d c more hagree,
    by decide +kernel⟩

end QueryTemplate
