import QueryTemplate.Proofs.Counting

/-!
# Several conditions in one predicate

The conditions of a request are joined to one tree that leans to the left, and the whole tree is
written. Here the text of the whole is given by the texts of the conditions:

* **`write_of_le`** — how deep a condition stands decides whether it is written, not how.
* **`write_foldl_and`** — one condition after the other is put behind what is there: the first one in
  parentheses if it is a disjunction that something follows, every further one if it is joined itself.
* **`conditions_written_apart`** — the predicate is what the conditions are written as by themselves,
  with ` AND ` between them, and its values are theirs in the same order.
-/

namespace QueryTemplate

namespace Filter

variable {s : Scope}

/-! ## The depth of a condition -/

/-- With fewer conditions around it a condition is written as it was. -/
theorem write_of_le {f : Filter} {depth less : Nat} {p : Fragment} (h : f.write s depth = .ok p)
    (hle : less ≤ depth) : f.write s less = .ok p := by
  induction f generalizing depth less p with
  | compare left op right =>
    unfold write at h ⊢
    split at h
    · cases h
    rwa [if_neg (by omega)]
  | isIn o items negated =>
    unfold write at h ⊢
    split at h
    · cases h
    rwa [if_neg (by omega)]
  | isNull o negated =>
    unfold write at h ⊢
    split at h
    · cases h
    rwa [if_neg (by omega)]
  | and left right ihl ihr =>
    unfold write at h ⊢
    split at h
    · cases h
    rw [if_neg (by omega)]
    obtain ⟨l, hl, h⟩ := Except.bind_eq_ok_iff.1 h
    obtain ⟨r, hr, h⟩ := Except.bind_eq_ok_iff.1 h
    refine Except.bind_eq_ok_iff.2 ⟨l, ihl hl (Nat.succ_le_succ hle), ?_⟩
    exact Except.bind_eq_ok_iff.2 ⟨r, ihr hr (Nat.succ_le_succ hle), h⟩
  | or left right ihl ihr =>
    unfold write at h ⊢
    split at h
    · cases h
    rw [if_neg (by omega)]
    obtain ⟨l, hl, h⟩ := Except.bind_eq_ok_iff.1 h
    obtain ⟨r, hr, h⟩ := Except.bind_eq_ok_iff.1 h
    refine Except.bind_eq_ok_iff.2 ⟨l, ihl hl (Nat.succ_le_succ hle), ?_⟩
    exact Except.bind_eq_ok_iff.2 ⟨r, ihr hr (Nat.succ_le_succ hle), h⟩
  | not inner ih =>
    unfold write at h ⊢
    split at h
    · cases h
    rw [if_neg (by omega)]
    obtain ⟨i, hi, h⟩ := Except.bind_eq_ok_iff.1 h
    exact Except.bind_eq_ok_iff.2 ⟨i, ih hi (Nat.succ_le_succ hle), h⟩

/-- A conjunction is written from its two sides, each of which is written by itself as well. -/
theorem exists_of_write_and {l r : Filter} {depth : Nat} {p : Fragment}
    (h : (and l r).write s depth = .ok p) :
    ∃ q t, l.write s 0 = .ok q ∧ r.write s 0 = .ok t
      ∧ p = Fragment.wrap l.isOr q ++ .sql " AND " :: Fragment.wrap (r.isAnd || r.isOr) t := by
  unfold write at h
  split at h
  · cases h
  obtain ⟨q, hq, h⟩ := Except.bind_eq_ok_iff.1 h
  obtain ⟨t, ht, h⟩ := Except.bind_eq_ok_iff.1 h
  cases h
  exact ⟨q, t, write_of_le hq (Nat.zero_le _), write_of_le ht (Nat.zero_le _), rfl⟩

end Filter

/-! ## Parentheses -/

/-- A text, in parentheses if asked for. -/
def parenthesized (parens : Bool) (text : String) : String :=
  if parens then "(" ++ text ++ ")" else text

@[simp] theorem Fragment.sql_wrap (parens : Bool) (p : Fragment) :
    (wrap parens p).sql = parenthesized parens p.sql := by
  cases parens with
  | false => rfl
  | true => simp [wrap, sql, parenthesized, String.append_assoc]

@[simp] theorem Fragment.params_wrap (parens : Bool) (p : Fragment) :
    (wrap parens p).params = p.params := by
  cases parens with
  | false => rfl
  | true => simp [wrap, params]

/-! ## One condition after the other -/

/-- The text of a condition that others stand in front of. -/
def furtherConjunct (c : Filter × Fragment) : String :=
  parenthesized (c.1.isAnd || c.1.isOr) c.2.sql

/-- The texts of conditions that are joined by `AND`, each with what it is written as by itself. One
condition alone needs no parentheses. -/
def conjuncts : List (Filter × Fragment) → List String
  | [] => []
  | [c] => [c.2.sql]
  | c :: d :: rest => parenthesized c.1.isOr c.2.sql :: (d :: rest).map furtherConjunct

namespace Filter

variable {s : Scope}

/-- Induction on the conditions that are joined to the first one: once one is joined to it, what
stands there is a conjunction, which is not put in parentheses again. -/
theorem write_foldl_and {cs : List Filter} {c : Filter} {depth : Nat} {p : Fragment}
    (h : (cs.foldl .and c).write s depth = .ok p) :
    ∃ q qs, c.write s 0 = .ok q ∧ List.Forall₂ (fun c q => c.write s 0 = .ok q) cs qs
      ∧ p.sql = parenthesized (c.isOr && !cs.isEmpty) q.sql
        ++ String.join ((cs.zip qs).map fun d => " AND " ++ furtherConjunct d)
      ∧ p.params = q.params ++ qs.flatMap Fragment.params := by
  induction cs generalizing c with
  | nil =>
    refine ⟨p, [], write_of_le h (Nat.zero_le _), .nil, ?_, ?_⟩
    · simp [parenthesized]
    · simp
  | cons d ds ih =>
    obtain ⟨joined, qs, hjoined, hqs, hsql, hparams⟩ := ih h
    obtain ⟨q, t, hq, ht, rfl⟩ := exists_of_write_and hjoined
    refine ⟨q, t :: qs, hq, .cons ht hqs, ?_, ?_⟩
    · rw [hsql]
      simp [isOr, parenthesized, furtherConjunct, Fragment.sql, String.append_assoc]
    · rw [hparams]
      simp [Fragment.params, List.append_assoc]

end Filter

/-! ## The whole predicate -/

/-- A first text with further ones behind it is a list of texts with a separator between them. -/
theorem intercalate_conjuncts (c : Filter × Fragment) (rest : List (Filter × Fragment)) :
    " AND ".intercalate (conjuncts (c :: rest))
      = parenthesized (c.1.isOr && !rest.isEmpty) c.2.sql
        ++ String.join (rest.map fun d => " AND " ++ furtherConjunct d) := by
  cases rest with
  | nil => simp [conjuncts, parenthesized]
  | cons d rest =>
    rw [conjuncts, Definition.intercalate_eq_join, List.map_map]
    simp [Function.comp_def]

/-- **Conditions are written apart and joined.** If the conjunction of conditions is written, each of
them is written by itself; the predicate is their texts with ` AND ` between them and the values are
theirs, condition after condition. Of several conditions the first is in parentheses if it is a
disjunction, a further one if it is a conjunction or a disjunction. A request with these conditions
has this predicate. -/
theorem conditions_written_apart {s : Scope} {cs : List Filter} {f : Filter} {p : Fragment}
    (hall : Filter.all? cs = some f) (h : f.write s 0 = .ok p) :
    (∃ qs : List Fragment, List.Forall₂ (fun c q => c.write s 0 = .ok q) cs qs
      ∧ p.sql = " AND ".intercalate (conjuncts (cs.zip qs))
      ∧ p.params = qs.flatMap Fragment.params)
    ∧ ∀ (d : Definition) (conditions : List Condition), d.fields = s.fields →
        conditions.mapM Condition.tree = .ok cs →
        d.predicate conditions s.bindings = .ok (some p) := by
  constructor
  · cases cs with
    | nil => cases hall
    | cons c cs =>
      cases hall
      obtain ⟨q, qs, hq, hqs, hsql, hparams⟩ := Filter.write_foldl_and h
      refine ⟨q :: qs, .cons hq hqs, ?_, hparams⟩
      have hempty : (cs.zip qs).isEmpty = cs.isEmpty := by
        cases hqs with
        | nil => rfl
        | cons _ _ => rfl
      rw [hsql, List.zip_cons_cons, intercalate_conjuncts, hempty]
  · intro d conditions hfields htrees
    refine Definition.predicate_eq_ok_iff.2 ⟨cs, htrees, .inr ⟨f, p, hall, ?_, rfl⟩⟩
    rw [hfields]
    exact h

/-- Three conditions: a disjunction, a conjunction and a comparison. -/
theorem conditions_written_apart_mixed :
    let d : Definition := ⟨[⟨"p.age", "age", .int⟩], "people p", none, none, by decide, by decide⟩
    let s : Scope := ⟨d.fields, .empty⟩
    let known : Filter := .isNull (.field "age") true
    let adult : Filter := .compare (.field "age") .gtEq (.literal (.integer 18))
    let cs : List Filter := [.or known adult, .and known adult, adult]
    ∃ f p qs, Filter.all? cs = some f ∧ f.write s 0 = .ok p
      ∧ List.Forall₂ (fun c q => c.write s 0 = .ok q) cs qs
      ∧ p.sql = " AND ".intercalate (conjuncts (cs.zip qs))
      ∧ p.sql = "(p.age IS NOT NULL OR p.age >= ?) AND (p.age IS NOT NULL AND p.age >= ?)"
        ++ " AND p.age >= ?"
      ∧ p.params = qs.flatMap Fragment.params
      ∧ p.params = [.integer 18, .integer 18, .integer 18]
      ∧ d.predicate (cs.map .filter) .empty = .ok (some p) := by
  intro d s known adult cs
  have hall : Filter.all? cs = some (.and (.and (.or known adult) (.and known adult)) adult) := rfl
  have hwritten : ∃ p, Filter.write s 0 (.and (.and (.or known adult) (.and known adult)) adult) = .ok p
      ∧ p.sql = "(p.age IS NOT NULL OR p.age >= ?) AND (p.age IS NOT NULL AND p.age >= ?)"
        ++ " AND p.age >= ?"
      ∧ p.params = [.integer 18, .integer 18, .integer 18] := ⟨_, rfl, by decide, by decide⟩
  obtain ⟨p, hp, htext, hvalues⟩ := hwritten
  obtain ⟨⟨qs, hqs, hsql, hparams⟩, hrequest⟩ := conditions_written_apart hall hp
  exact ⟨_, p, qs, hall, hp, hqs, hsql, htext, hparams, hvalues, hrequest d (cs.map .filter) rfl rfl⟩

end QueryTemplate
