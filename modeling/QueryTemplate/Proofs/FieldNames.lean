import QueryTemplate.Proofs.Statement
import QueryTemplate.Proofs.Template
import Mathlib.Data.List.Nodup

/-!
# The names of fields

A name refers to one field of a definition, because a definition whose fields could not be told apart
is not built.

* **`reports_ofParts`** — putting a definition together reports the first of the faults that the names
  of its fields have, each looked at with the fields in front of it.
* **`ofParts_eq_ok_iff`** — without a fault the definition has just the given parts.
* **`field?_eq_some_iff`** — looking a name up gives the one field with that name.
* **`projection_names`** — asking for all names, in the order of the fields, asks for all fields.
-/

namespace QueryTemplate

/-! ## Faults of names -/

namespace Field

/-- What is wrong with the name of a field that stands behind other fields. -/
def nameFault? (front : List Field) (f : Field) : Option Error :=
  if f.name = "" then some (.missingAlias f.expression)
  else if f.name ∈ front.map Field.name then some (.duplicateAlias f.name)
  else none

/-- What is wrong with the names of fields that stand behind other fields, in their order. -/
def nameFaults (front : List Field) : List Field → List Error
  | [] => []
  | f :: fs => (nameFault? front f).toList ++ nameFaults (front ++ [f]) fs

/-- Only which names are in front matters, not where. -/
theorem aliasError?_eq_head? {seen : List String} {front : List Field}
    (hseen : ∀ name, name ∈ seen ↔ name ∈ front.map Field.name) (fields : List Field) :
    aliasError? seen fields = (nameFaults front fields).head? := by
  induction fields generalizing seen front with
  | nil => rfl
  | cons f fs ih =>
    unfold aliasError? nameFaults nameFault?
    by_cases hempty : f.name = ""
    · rw [if_pos hempty, if_pos hempty]
      rfl
    rw [if_neg hempty, if_neg hempty]
    by_cases htaken : f.name ∈ front.map Field.name
    · rw [if_pos ((hseen _).2 htaken), if_pos htaken]
      rfl
    · rw [if_neg fun h => htaken ((hseen _).1 h), if_neg htaken]
      refine ih fun name => ?_
      rw [List.mem_cons, hseen, List.map_append, List.mem_append, List.map_singleton,
        List.mem_singleton, or_comm]

/-- The first fault is that of the first field with one. -/
theorem head?_nameFaults_eq_some_iff {front fields : List Field} {e : Error} :
    (nameFaults front fields).head? = some e ↔
      ∃ i f, fields[i]? = some f ∧ nameFault? (front ++ fields.take i) f = some e
        ∧ ∀ j g, j < i → fields[j]? = some g → nameFault? (front ++ fields.take j) g = none := by
  induction fields generalizing front with
  | nil => simp [nameFaults]
  | cons f fs ih =>
    have hzero : front ++ (f :: fs).take 0 = front := List.append_nil _
    have hsucc (j : Nat) : front ++ (f :: fs).take (j + 1) = front ++ [f] ++ fs.take j := by
      rw [List.take_succ_cons, List.append_cons]
    rw [nameFaults, List.head?_append]
    cases hfault : nameFault? front f with
    | some e' =>
      constructor
      · intro h
        refine ⟨0, f, rfl, ?_, nofun⟩
        rw [hzero, hfault]
        exact h
      · rintro ⟨i, g, hg, he, hfirst⟩
        cases i with
        | zero =>
          cases hg
          rw [hzero, hfault] at he
          exact he
        | succ i =>
          -- no later field is the first with a fault
          have hnone := hfirst 0 f (Nat.succ_pos i) rfl
          rw [hzero, hfault] at hnone
          cases hnone
    | none =>
      show (nameFaults (front ++ [f]) fs).head? = some e ↔ _
      rw [ih]
      constructor
      · rintro ⟨i, g, hg, he, hfirst⟩
        refine ⟨i + 1, g, hg, (hsucc i).symm ▸ he, fun j k hj hk => ?_⟩
        cases j with
        | zero =>
          cases hk
          rw [hzero, hfault]
        | succ j => exact (hsucc j).symm ▸ hfirst j k (Nat.lt_of_succ_lt_succ hj) hk
      · rintro ⟨i, g, hg, he, hfirst⟩
        cases i with
        | zero =>
          cases hg
          rw [hzero, hfault] at he
          cases he
        | succ i =>
          exact ⟨i, g, hg, hsucc i ▸ he, fun j k hj hk =>
            hsucc j ▸ hfirst (j + 1) k (Nat.succ_lt_succ hj) hk⟩

/-! ## Looking names up -/

/-- Of fields with distinct names, a name finds the one that has it. -/
theorem find?_eq_some_iff {fields : List Field} (hdistinct : (fields.map Field.name).Nodup)
    {name : String} {f : Field} : find? fields name = some f ↔ f ∈ fields ∧ f.name = name := by
  constructor
  · intro h
    exact ⟨List.mem_of_find?_eq_some h, by simpa using List.find?_some h⟩
  · rintro ⟨hf, rfl⟩
    cases hfound : find? fields f.name with
    | none =>
      have hnone := List.find?_eq_none.1 hfound f hf
      simp at hnone
    | some g =>
      have hname : g.name = f.name := by simpa using List.find?_some hfound
      rw [List.inj_on_of_nodup_map hdistinct (List.mem_of_find?_eq_some hfound) hf hname]

/-- The names of fields, looked up one after the other, give the fields back. -/
theorem mapM_resolve_names {fields : List Field} (hdistinct : (fields.map Field.name).Nodup)
    {shown : List Field} (hsub : shown ⊆ fields) :
    (shown.map Field.name).mapM (resolve fields) = .ok shown := by
  induction shown with
  | nil => rfl
  | cons f fs ih =>
    have hf : f ∈ fields := hsub List.mem_cons_self
    have hfound : find? fields f.name = some f := (find?_eq_some_iff hdistinct).2 ⟨hf, rfl⟩
    rw [List.map_cons]
    refine Except.mapM_cons_eq_ok_iff.2 ⟨f, fs, resolve_eq_ok_iff.2 hfound, ih ?_, rfl⟩
    exact fun g hg => hsub (List.mem_cons_of_mem _ hg)

end Field

namespace Definition

variable {fields : List Field} {schema : String} {condition order : Option String}

/-- **A definition is refused for the first fault of a name.** -/
theorem reports_ofParts (fields : List Field) (schema : String) (condition order : Option String) :
    (ofParts fields schema condition order).Reports (Field.nameFaults [] fields) := by
  have hhead : Field.aliasError? [] fields = (Field.nameFaults [] fields).head? :=
    Field.aliasError?_eq_head? (by simp) fields
  unfold ofParts
  split
  · rename_i e he
    exact hhead.symm.trans he
  · rename_i hnone
    exact List.head?_eq_none_iff.1 (hhead.symm.trans hnone)

theorem ofParts_eq_ok_iff {d : Definition} :
    ofParts fields schema condition order = .ok d ↔
      (∀ f ∈ fields, f.name ≠ "") ∧ (fields.map Field.name).Nodup
        ∧ d.fields = fields ∧ d.schema = schema ∧ d.condition = condition ∧ d.order = order := by
  constructor
  · intro h
    obtain ⟨rfl, hparts⟩ := ofParts_eq_ok h
    exact ⟨d.named, d.distinct, rfl, hparts⟩
  · rintro ⟨hnamed, hdistinct, rfl, rfl, rfl, rfl⟩
    have hnone : Field.aliasError? [] d.fields = none :=
      Field.aliasError?_eq_none_iff.2 ⟨fun f hf => ⟨hnamed f hf, List.not_mem_nil⟩, hdistinct⟩
    unfold ofParts
    split
    · rename_i e he
      rw [hnone] at he
      cases he
    · rfl

/-! ## Every name of a definition -/

/-- A name of a definition stands for one field. -/
theorem field?_eq_some_iff {d : Definition} {name : String} {f : Field} :
    d.field? name = some f ↔ f ∈ d.fields ∧ f.name = name :=
  Field.find?_eq_some_iff d.distinct

/-- All names in their order ask for all fields. -/
theorem projection_names (d : Definition) :
    d.projection (d.fields.map Field.name) = .ok d.fields := by
  unfold projection
  split
  · rfl
  · exact Field.mapM_resolve_names d.distinct (List.Subset.refl _)

theorem compile_names (d : Definition) (c : Criteria) :
    d.compile { c with columns := d.fields.map Field.name } = d.compile { c with columns := [] } := by
  rw [compile_eq, compile_eq]
  show (d.projection (d.fields.map Field.name) >>= fun fields => _) = d.projection [] >>= fun fields => _
  rw [projection_names]
  rfl

end Definition

/-- **Asking for every name asks for everything.** The fields of a definition have names, all
different, a name finds the one field that has it, and a request for all names in the order of the
fields has the result of a request without columns. Parts are refused exactly if a name is empty or
taken: for the first field like that, with its expression if the name is empty, else with the name. -/
theorem select_names_eq_select_all :
    (∀ (fields : List Field) (schema : String) (condition order : Option String),
      (∀ d, Definition.ofParts fields schema condition order = .ok d ↔
        (∀ f ∈ fields, f.name ≠ "") ∧ (fields.map Field.name).Nodup
          ∧ d.fields = fields ∧ d.schema = schema ∧ d.condition = condition ∧ d.order = order)
      ∧ ∀ e, Definition.ofParts fields schema condition order = .error e ↔
        ∃ i f, fields[i]? = some f ∧ Field.nameFault? (fields.take i) f = some e
          ∧ ∀ j g, j < i → fields[j]? = some g → Field.nameFault? (fields.take j) g = none)
    ∧ ∀ d : Definition,
      (∀ f ∈ d.fields, f.name ≠ "") ∧ (d.fields.map Field.name).Nodup
      ∧ (∀ name f, d.field? name = some f ↔ f ∈ d.fields ∧ f.name = name)
      ∧ ∀ c : Criteria,
        d.compile { c with columns := d.fields.map Field.name } = d.compile { c with columns := [] } := by
  constructor
  · intro fields schema condition order
    refine ⟨fun d => Definition.ofParts_eq_ok_iff, fun e => ?_⟩
    have hreports := Definition.reports_ofParts fields schema condition order
    rw [hreports.eq_error_iff, Field.head?_nameFaults_eq_some_iff]
    simp only [List.nil_append]
  · intro d
    exact ⟨d.named, d.distinct, fun name f => Definition.field?_eq_some_iff, d.compile_names⟩

end QueryTemplate
