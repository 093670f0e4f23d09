import QueryTemplate.Proofs.Building
import QueryTemplate.Proofs.Inlining

/-!
# The names of parameters

A parameter is bound under its name without the colons in front, and is looked up under a name as it is
given: by the request itself, and by the conditions when they are written. So it is found under the name
that it was bound with exactly if that name has no colon in front (`lookup_after_setParam`).

* **`Scope.same_insert`**, **`Definition.compile_insert`**: one more binding is as good as its value in
  place, in every condition of a request.
* **`paramName_eq_self_iff`**: the names without a colon in front are those that stay as they are.
-/

namespace QueryTemplate

/-! ## One more binding -/

/-- The binding of a single name. -/
def Bindings.single (name : String) (v : Value) : Bindings :=
  Bindings.empty.insert name v

theorem Bindings.get?_single (name other : String) (v : Value) :
    (single name v).get? other = if other = name then some v else none :=
  get?_insert empty name other v

theorem Scope.operand_of_get? {fields : List Field} {bindings : Bindings} {name : String} {v : Value}
    (h : bindings.get? name = some v) :
    Scope.operand ⟨fields, bindings⟩ (.param name) = .ok [.bound v] := by
  rw [operand, h]

theorem Scope.operand_of_get?_eq {fields : List Field} {bindings bindings' : Bindings} {name : String}
    (h : bindings.get? name = bindings'.get? name) :
    Scope.operand ⟨fields, bindings⟩ (.param name) = Scope.operand ⟨fields, bindings'⟩ (.param name) := by
  rw [operand, operand, h]

/-- A value in the place of a name is what the name is once it is bound to the value. -/
theorem Scope.same_insert (fields : List Field) (bindings : Bindings) (name : String) (v : Value)
    (o : Operand) :
    Scope.Same ⟨fields, bindings.insert name v⟩ ⟨fields, bindings⟩ o (o.inline (.single name v)) := by
  cases o with
  | literal w => exact ⟨rfl, rfl⟩
  | field other => exact ⟨rfl, rfl⟩
  | param other =>
    have hsingle := Bindings.get?_single name other v
    have hget := Bindings.get?_insert bindings name other v
    by_cases h : other = name
    · rw [if_pos h] at hsingle hget
      rw [Operand.inline_of_bound hsingle]
      exact ⟨(operand_of_get? hget).symm, rfl⟩
    · rw [if_neg h] at hsingle hget
      rw [Operand.inline_of_unbound hsingle]
      exact ⟨operand_of_get?_eq hget.symm, rfl⟩

/-- **One more binding is as good as its value in place**, wherever the conditions have the name. -/
theorem Definition.compile_insert (d : Definition) (c : Criteria) (name : String) (v : Value) :
    d.compile { c with params := c.params.insert name v }
      = d.compile { c with conditions := c.conditions.map (Condition.inline (.single name v)) } := by
  have hpredicate : d.predicate (c.conditions.map (Condition.inline (.single name v))) c.params
      = d.predicate c.conditions (c.params.insert name v) :=
    predicate_map_inline (Scope.same_insert d.fields c.params name v) c.conditions
  exact (compile_congr_predicate (c := { c with params := c.params.insert name v }) hpredicate).symm

/-! ## Names with colons in front -/

namespace Criteria

/-- The name starts with a colon. -/
def HasColon (name : String) : Prop :=
  name.toList.head? = some ':'

instance (name : String) : Decidable (HasColon name) :=
  inferInstanceAs (Decidable (name.toList.head? = some ':'))

theorem paramName_eq_self_iff {name : String} : paramName name = name ↔ ¬ HasColon name := by
  constructor
  · intro h hcolon
    exact head?_paramName name (by rw [h]; exact hcolon)
  · intro h
    have hdrop : name.toList.dropWhile (· = ':') = name.toList := by
      cases hname : name.toList with
      | nil => rfl
      | cons c cs =>
        have hc : c ≠ ':' := fun hc => h (by rw [HasColon, hname, hc]; rfl)
        exact List.dropWhile_cons_of_neg (by simpa using hc)
    rw [paramName, hdrop, String.ofList_toList]

/-- **Parameters are found under their names without colons.** Take any criteria that were built, and bind a
name to a value. Then the value is found under the name without its colons, and under no other name is
anything changed; in every definition the request is compiled to what it was compiled to before, with the
value in the place of that name. So the name that the value was bound with finds it exactly if no colon
stands in front: an operand with that name is then one placeholder with the value, and otherwise it is
bound nowhere. And a name that differs without its colons is looked up and compiled as before. -/
theorem lookup_after_setParam {steps : List Step} {c : Criteria} (hc : applyAll {} steps = .ok c)
    (n : String) (v : Value) :
    ∃ c', c.apply (.setParam n v) = .ok c'
      ∧ (∀ m, c'.param? m = if m = paramName n then some v else c.param? m)
      ∧ (∀ d : Definition, d.compile c' = d.compile
          { c with conditions := c.conditions.map (Condition.inline (.single (paramName n) v)) })
      ∧ (c'.param? n = some v ↔ ¬ HasColon n)
      ∧ (∀ fields, Scope.operand ⟨fields, c'.params⟩ (.param n)
          = if HasColon n then .error (.unboundParameter n) else .ok [.bound v])
      ∧ ∀ m, paramName m ≠ paramName n → c'.param? m = c.param? m
          ∧ ∀ fields, Scope.operand ⟨fields, c'.params⟩ (.param m)
              = Scope.operand ⟨fields, c.params⟩ (.param m) := by
  have hget (m : String) : (c.params.insert (paramName n) v).get? m
      = if m = paramName n then some v else c.params.get? m :=
    Bindings.get?_insert c.params (paramName n) m v
  have hfound (h : ¬ HasColon n) : (c.params.insert (paramName n) v).get? n = some v := by
    rw [hget, if_pos (paramName_eq_self_iff.2 h).symm]
  -- criteria that were built have no name with a colon, so binding one changes nothing under it
  have hlost (h : HasColon n) : (c.params.insert (paramName n) v).get? n = none := by
    have hne : n ≠ paramName n := fun heq => paramName_eq_self_iff.1 heq.symm h
    rw [hget, if_neg hne, Option.eq_none_iff_forall_ne_some]
    exact fun w hw => (sound_of_applyAll sound_default hc).params n w hw h
  refine ⟨_, rfl, hget, fun d => d.compile_insert c (paramName n) v, ⟨fun h hcolon => ?_, hfound⟩,
    fun fields => ?_, fun m hm => ?_⟩
  · have hnone : (c.params.insert (paramName n) v).get? n = some v := h
    rw [hlost hcolon] at hnone
    cases hnone
  · split
    · rename_i h
      rw [Scope.operand, hlost h]
    · rename_i h
      exact Scope.operand_of_get? (hfound h)
  · have hsame : (c.params.insert (paramName n) v).get? m = c.params.get? m := by
      -- a name that is bound here has no colons to lose
      have hne : m ≠ paramName n := by
        rintro rfl
        exact hm (paramName_eq_self_iff.2 (head?_paramName n))
      rw [hget, if_neg hne]
    exact ⟨hsame, fun fields => Scope.operand_of_get?_eq hsame⟩

/-- A name with a colon: the value is found without it only, and a condition in the place of which the
value stands compiles as one with the name. -/
theorem lookup_after_setParam_country :
    let f : Filter := .compare (.field "country") .eq (.param "country")
    ∃ c c', applyAll {} [.setParam "n" (.integer 3), .whereFilter f] = .ok c
      ∧ c.apply (.setParam ":country" (.text "UG")) = .ok c'
      ∧ c'.param? "country" = some (.text "UG") ∧ c'.param? "n" = some (.integer 3)
      ∧ ¬ c'.param? ":country" = some (.text "UG")
      ∧ ∀ d : Definition, d.compile c' = d.compile
          { c with conditions := [.filter (.compare (.field "country") .eq (.literal (.text "UG")))] } := by
  intro f
  have hbuilt : applyAll {} [.setParam "n" (.integer 3), .whereFilter f]
      = .ok { conditions := [.filter f], params := .single "n" (.integer 3) } := by
    decide +kernel
  obtain ⟨c', hc', hparam, hcompile, hself, -, -⟩ :=
    lookup_after_setParam hbuilt ":country" (.text "UG")
  refine ⟨_, c', hbuilt, hc', ?_, ?_, ?_, fun d => (hcompile d).trans ?_⟩
  · rw [hparam]
    decide +kernel
  · rw [hparam]
    decide +kernel
  · rw [hself]
    decide
  · congr 1

/-- A value bound with a colon in front of its name is not found under that name: neither by the request
itself nor by a condition that has the name. -/
theorem bound_name_not_found :
    let d : Definition := ⟨[⟨"p.full_name", "name", .string⟩], "people p", none, none, by decide, by decide⟩
    let f : Filter := .compare (.field "name") .eq (.param ":city")
    ∃ c, applyAll {} [.whereFilter f, .setParam ":city" (.text "Kampala")] = .ok c
      ∧ c.param? ":city" = none ∧ c.param? "city" = some (.text "Kampala")
      ∧ d.compile c = .error (.unboundParameter ":city") := by
  refine ⟨_, rfl, ?_⟩
  decide +kernel

end Criteria

end QueryTemplate
