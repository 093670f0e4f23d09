import QueryTemplate.PreparedQuery
import QueryTemplate.Proofs.Except
import Mathlib.Data.List.Nodup
import Mathlib.Data.List.Perm.Basic
import Mathlib.Data.List.Perm.Subperm

/-!
# Building criteria

What a run of steps makes of criteria, component by component. A step that goes on from the criteria it is
given adds to the lists, sets some of the single values and binds at most one parameter (`Criteria.after`),
and does nothing else.

* **`apply_of_builds`**: a step that builds succeeds, and gives just that.
* **`applyAll_of_builds`**: so a run of such steps is a fold, and each component of its result is read off
  the steps (`columns_foldl`, `offset_foldl`, `get?_params_foldl`, …).
* **`after_comm`**: steps that touch different components may change places. For bindings this takes that
  they are determined by the values they give (`Bindings.ext_get?`).
* **`sound_of_applyAll`**: in whatever way criteria were reached, by steps that start afresh as well, their
  limit is not zero and no parameter is named with a colon in front.
-/

namespace QueryTemplate

/-! ## Bindings are what they give -/

namespace Bindings

theorem nodup_names (b : Bindings) : (b.entries.map Prod.fst).Nodup := by
  refine List.pairwise_map.2 (b.ascending.imp fun {x y} hlt => ?_)
  intro heq
  rw [heq] at hlt
  exact String.lt_irrefl y.1 hlt

theorem get?_eq_some_iff {b : Bindings} {name : String} {v : Value} :
    b.get? name = some v ↔ (name, v) ∈ b.entries := by
  have hfound {w : Value} (h : b.get? name = some w) : (name, w) ∈ b.entries := by
    obtain ⟨⟨n, w⟩, hfind, rfl⟩ := Option.map_eq_some_iff.1 h
    have hname : n = name := by simpa using List.find?_some hfind
    exact hname ▸ List.mem_of_find?_eq_some hfind
  constructor
  · exact hfound
  · intro h
    have hsome : (b.entries.find? fun e => e.1 = name).isSome = true :=
      List.find?_isSome.2 ⟨_, h, by simp⟩
    obtain ⟨⟨n, w⟩, hfind⟩ := Option.isSome_iff_exists.1 hsome
    have hget : b.get? name = some w := by rw [get?, hfind]; rfl
    have hsame : (name, v) = (name, w) := List.inj_on_of_nodup_map b.nodup_names h (hfound hget) rfl
    rw [hget, (Prod.mk.inj hsame).2]

/-- **Bindings that give the same values are the same.** Their entries are, and are in the same order. -/
theorem ext_get? {a b : Bindings} (h : ∀ name, a.get? name = b.get? name) : a = b := by
  have hmem : ∀ e, e ∈ a.entries ↔ e ∈ b.entries := by
    rintro ⟨name, v⟩
    rw [← get?_eq_some_iff, ← get?_eq_some_iff, h]
  have hperm : a.entries.Perm b.entries :=
    (List.perm_ext_iff_of_nodup a.nodup_names.of_map b.nodup_names.of_map).2 hmem
  have hentries : a.entries = b.entries :=
    hperm.eq_of_pairwise (fun x y _ _ hxy hyx => absurd hyx (String.lt_asymm hxy)) a.ascending b.ascending
  cases a
  cases b
  cases hentries
  rfl

theorem insert_comm (b : Bindings) {m n : String} (hne : m ≠ n) (v w : Value) :
    (b.insert m v).insert n w = (b.insert n w).insert m v := by
  refine ext_get? fun name => ?_
  simp only [get?_insert]
  by_cases hm : name = m
  · rw [if_pos hm, if_pos hm, if_neg (hm ▸ hne)]
  · rw [if_neg hm, if_neg hm]

end Bindings

namespace Criteria

/-! ## What a step does -/

/-- The parts of criteria. -/
inductive Component
  | columns
  | conditions
  | sorts
  | offset
  | limit
  | count
  | params
  deriving DecidableEq, Repr

namespace Step

/-- The parts of criteria that a step may change. A step that starts afresh may change them all. -/
def touches : Step → List Component
  | .selectAll | .select _ | .selectCount =>
    [.columns, .conditions, .sorts, .offset, .limit, .count, .params]
  | .addSelect _ => [.columns]
  | .whereFilter _ | .whereText _ => [.conditions]
  | .orderBy _ | .orderByText _ => [.sorts]
  | .offset _ => [.offset]
  | .limit _ => [.limit]
  | .limitOffset _ _ => [.limit, .offset]
  | .count => [.count]
  | .setParam _ _ => [.params]

/-- The step goes on from the criteria it is given, has no limit of zero, and can read its sort list. -/
def Builds : Step → Prop
  | .selectAll | .select _ | .selectCount => False
  | .orderByText text => ∃ sorts, SortKey.parse text = .ok sorts
  | .limit n | .limitOffset n _ => 1 ≤ n
  | _ => True

def addedColumns : Step → List String
  | .addSelect columns => columns
  | _ => []

def addedConditions : Step → List Condition
  | .whereFilter f => [.filter f]
  | .whereText text => [.text text]
  | _ => []

def addedSorts : Step → List SortKey
  | .orderBy sort => [sort]
  | .orderByText text =>
    match SortKey.parse text with
    | .ok sorts => sorts
    | .error _ => []
  | _ => []

def offset? : Step → Option UInt64
  | .offset n | .limitOffset _ n => some n
  | _ => none

def limit? : Step → Option UInt64
  | .limit n | .limitOffset n _ => some n
  | _ => none

def counts : Step → Bool
  | .count => true
  | _ => false

/-- The name that the step binds, without the colons in front, and its value. -/
def binding? : Step → Option (String × Value)
  | .setParam name v => some (paramName name, v)
  | _ => none

/-- The value that the step binds a name to. -/
def value? (name : String) (s : Step) : Option Value :=
  s.binding?.bind fun b => if b.1 = name then some b.2 else none

/-- The steps touch different components, or bind names that differ without the colons in front. -/
def Independent (s t : Step) : Prop :=
  s.touches.Disjoint t.touches
    ∨ ∃ m v n w, s = .setParam m v ∧ t = .setParam n w ∧ paramName m ≠ paramName n

end Step

open Step

/-- The criteria with what a step adds, sets and binds. -/
def after (c : Criteria) (s : Step) : Criteria where
  columns := c.columns ++ s.addedColumns
  conditions := c.conditions ++ s.addedConditions
  sorts := c.sorts ++ s.addedSorts
  offset := s.offset?.getD c.offset
  limit := s.limit?.getD c.limit
  count := c.count || s.counts
  params := s.binding?.elim c.params fun b => c.params.insert b.1 b.2

theorem withLimit_of_le {n : UInt64} (h : 1 ≤ n) (c : Criteria) :
    c.withLimit n = .ok { c with limit := n } := by
  have hne : n ≠ 0 := by
    rintro rfl
    exact absurd h (by decide)
  rw [withLimit, if_neg hne]

/-- **A step that builds** succeeds, adds what it adds, and leaves everything else as it is. -/
theorem apply_of_builds {s : Step} (h : s.Builds) (c : Criteria) : c.apply s = .ok (c.after s) := by
  cases s with
  | selectAll => cases h
  | select columns => cases h
  | selectCount => cases h
  | orderByText text =>
    obtain ⟨sorts, hsorts⟩ := h
    simp [apply, after, addedColumns, addedConditions, addedSorts, offset?, limit?, counts, binding?,
      hsorts]
  | limit n =>
    rw [apply, withLimit_of_le h]
    simp [after, addedColumns, addedConditions, addedSorts, offset?, limit?, counts, binding?]
  | limitOffset n offset =>
    rw [apply, withLimit_of_le h]
    simp [after, addedColumns, addedConditions, addedSorts, offset?, limit?, counts, binding?, Except.map]
  | _ =>
    simp [apply, after, addedColumns, addedConditions, addedSorts, offset?, limit?, counts, binding?]

/-! ## Runs -/

theorem applyAll_cons {c c' : Criteria} {s : Step} (h : c.apply s = .ok c') (rest : List Step) :
    c.applyAll (s :: rest) = (c'.applyAll rest).mapError fun e => (e.1 + 1, e.2) := by
  simp only [applyAll, h]
  cases c'.applyAll rest with
  | error e => rfl
  | ok c => rfl

/-- **A run of steps that build** is a fold. -/
theorem applyAll_of_builds {steps : List Step} (h : ∀ s ∈ steps, s.Builds) (c : Criteria) :
    c.applyAll steps = .ok (steps.foldl after c) := by
  induction steps generalizing c with
  | nil => rfl
  | cons s rest ih =>
    obtain ⟨hs, hrest⟩ := List.forall_mem_cons.1 h
    rw [applyAll_cons (apply_of_builds hs c), ih hrest]
    rfl

section Components

variable (steps : List Step) (c : Criteria)

theorem columns_foldl : (steps.foldl after c).columns = c.columns ++ steps.flatMap addedColumns := by
  induction steps generalizing c with
  | nil => simp
  | cons s rest ih => rw [List.foldl_cons, ih, List.flatMap_cons, ← List.append_assoc]; rfl

theorem conditions_foldl :
    (steps.foldl after c).conditions = c.conditions ++ steps.flatMap addedConditions := by
  induction steps generalizing c with
  | nil => simp
  | cons s rest ih => rw [List.foldl_cons, ih, List.flatMap_cons, ← List.append_assoc]; rfl

theorem sorts_foldl : (steps.foldl after c).sorts = c.sorts ++ steps.flatMap addedSorts := by
  induction steps generalizing c with
  | nil => simp
  | cons s rest ih => rw [List.foldl_cons, ih, List.flatMap_cons, ← List.append_assoc]; rfl

theorem count_foldl : (steps.foldl after c).count = (c.count || steps.any counts) := by
  induction steps generalizing c with
  | nil => simp
  | cons s rest ih => rw [List.foldl_cons, ih, List.any_cons, ← Bool.or_assoc]; rfl

theorem any_counts_iff : steps.any counts = true ↔ .count ∈ steps := by
  rw [List.any_eq_true]
  constructor
  · rintro ⟨s, hs, hcounts⟩
    cases s <;> first | exact hs | cases hcounts
  · exact fun h => ⟨.count, h, rfl⟩

/-- What comes last among the values that some steps set, in front of an older value. -/
theorem getLast?_filterMap_cons {α : Type} (f : Step → Option α) (s : Step) (rest : List Step) :
    ((s :: rest).filterMap f).getLast? = ((rest.filterMap f).getLast?).or (f s) := by
  cases hs : f s with
  | none => rw [List.filterMap_cons_none hs, Option.or_none]
  | some a =>
    rw [List.filterMap_cons_some hs, List.getLast?_cons]
    cases (rest.filterMap f).getLast? <;> rfl

theorem offset_foldl :
    (steps.foldl after c).offset = (steps.filterMap offset?).getLast?.getD c.offset := by
  induction steps generalizing c with
  | nil => rfl
  | cons s rest ih =>
    rw [List.foldl_cons, ih, getLast?_filterMap_cons]
    cases (rest.filterMap offset?).getLast? <;> rfl

theorem limit_foldl :
    (steps.foldl after c).limit = (steps.filterMap limit?).getLast?.getD c.limit := by
  induction steps generalizing c with
  | nil => rfl
  | cons s rest ih =>
    rw [List.foldl_cons, ih, getLast?_filterMap_cons]
    cases (rest.filterMap limit?).getLast? <;> rfl

theorem get?_params_after (s : Step) (name : String) :
    (c.after s).params.get? name = (s.value? name).or (c.params.get? name) := by
  cases hs : s.binding? with
  | none => simp [after, value?, hs]
  | some b =>
    by_cases hb : b.1 = name
    · simp [after, value?, hs, hb, Bindings.get?_insert]
    · simp [after, value?, hs, hb, Bindings.get?_insert, Ne.symm hb]

theorem get?_params_foldl (name : String) :
    (steps.foldl after c).params.get? name
      = ((steps.filterMap (value? name)).getLast?).or (c.params.get? name) := by
  induction steps generalizing c with
  | nil => rfl
  | cons s rest ih => rw [List.foldl_cons, ih, getLast?_filterMap_cons, get?_params_after, Option.or_assoc]

end Components

/-! ## Steps that change places -/

/-- The criteria agree in a component. -/
def Component.Same : Component → Criteria → Criteria → Prop
  | .columns, c, c' => c.columns = c'.columns
  | .conditions, c, c' => c.conditions = c'.conditions
  | .sorts, c, c' => c.sorts = c'.sorts
  | .offset, c, c' => c.offset = c'.offset
  | .limit, c, c' => c.limit = c'.limit
  | .count, c, c' => c.count = c'.count
  | .params, c, c' => c.params = c'.params

theorem ext_same {c c' : Criteria} (h : ∀ x : Component, x.Same c c') : c = c' := by
  cases c
  cases c'
  have hcolumns := h .columns
  have hconditions := h .conditions
  have hsorts := h .sorts
  have hoffset := h .offset
  have hlimit := h .limit
  have hcount := h .count
  have hparams := h .params
  simp only [Component.Same] at *
  simp only [*]

/-- What a step makes of a component depends on that component only. -/
theorem Component.Same.after {x : Component} {c c' : Criteria} (h : x.Same c c') (s : Step) :
    x.Same (c.after s) (c'.after s) := by
  cases x <;> simp only [Component.Same, Criteria.after] at h ⊢ <;> rw [h]

/-- A step leaves the components that it does not touch. -/
theorem same_after {x : Component} {s : Step} (h : x ∉ s.touches) (c : Criteria) :
    x.Same (c.after s) c := by
  cases x <;> cases s <;> simp [touches] at h <;>
    simp [Component.Same, after, addedColumns, addedConditions, addedSorts, offset?, limit?, counts,
      binding?]

theorem Component.Same.symm {x : Component} {c c' : Criteria} (h : x.Same c c') : x.Same c' c := by
  cases x <;> exact Eq.symm h

theorem Component.Same.trans {x : Component} {c c' c'' : Criteria} (h : x.Same c c')
    (h' : x.Same c' c'') : x.Same c c'' := by
  cases x <;> exact Eq.trans h h'

/-- **Independent steps may change places.** -/
theorem after_comm {s t : Step} (h : s.Independent t) (c : Criteria) :
    (c.after s).after t = (c.after t).after s := by
  rcases h with hdisjoint | ⟨m, v, n, w, rfl, rfl, hne⟩
  · refine ext_same fun x => ?_
    by_cases hs : x ∈ s.touches
    · -- the other step leaves the component, before this one and behind it
      have ht : x ∉ t.touches := fun ht => hdisjoint hs ht
      exact (same_after ht _).trans ((same_after ht c).after s).symm
    · exact ((same_after hs c).after t).trans (same_after hs _).symm
  · simp [after, addedColumns, addedConditions, addedSorts, offset?, limit?, counts, binding?,
      Bindings.insert_comm _ hne]

theorem foldl_swap {s t : Step} (h : s.Independent t) (front back : List Step) (c : Criteria) :
    (front ++ t :: s :: back).foldl after c = (front ++ s :: t :: back).foldl after c := by
  simp only [List.foldl_append, List.foldl_cons, after_comm h]

/-! ## Criteria that can be reached -/

/-- The limit is not zero, and no parameter is named with a colon in front. -/
structure Sound (c : Criteria) : Prop where
  limit : 1 ≤ c.limit
  params : ∀ name v, c.params.get? name = some v → name.toList.head? ≠ some ':'

theorem head?_paramName (name : String) : (paramName name).toList.head? ≠ some ':' := by
  intro h
  rw [paramName, String.toList_ofList] at h
  have hfirst := List.head?_dropWhile_not (· = ':') name.toList
  rw [h] at hfirst
  simp at hfirst

theorem sound_default {columns : List String} {count : Bool} :
    Sound { columns := columns, count := count } := by
  refine ⟨?_, fun name v h => ?_⟩
  · show (1 : UInt64) ≤ 50
    decide
  · cases h

/-- **Every step keeps criteria sound**, whichever it is. -/
theorem Sound.apply {c c' : Criteria} (hc : c.Sound) {s : Step} (h : c.apply s = .ok c') : c'.Sound := by
  have hlimit {n : UInt64} {c c' : Criteria} (hc : c.Sound) (h : c.withLimit n = .ok c') : c'.Sound := by
    unfold withLimit at h
    split at h
    · cases h
    · rename_i hn
      cases h
      exact ⟨UInt64.le_iff_toNat_le.2 (Nat.pos_of_ne_zero fun h => hn (UInt64.toNat_inj.1 h)), hc.params⟩
  cases s with
  | selectAll => cases h; exact sound_default
  | select columns => cases h; exact sound_default
  | selectCount => cases h; exact sound_default
  | orderByText text =>
    simp only [Criteria.apply] at h
    split at h
    · cases h; exact ⟨hc.limit, hc.params⟩
    · cases h
  | limit n => exact hlimit hc h
  | limitOffset n offset =>
    obtain ⟨c₁, hc₁, rfl⟩ := Except.map_eq_ok_iff.1 h
    have hsound := hlimit hc hc₁
    exact ⟨hsound.limit, hsound.params⟩
  | setParam name v =>
    cases h
    refine ⟨hc.limit, fun other w hget => ?_⟩
    rw [Bindings.get?_insert] at hget
    split at hget
    · rename_i hother
      rw [hother]
      exact head?_paramName name
    · exact hc.params other w hget
  | _ => cases h; exact ⟨hc.limit, hc.params⟩

/-- **Criteria that are reached are sound**, by induction on the run. -/
theorem sound_of_applyAll {steps : List Step} {c c' : Criteria} (hc : c.Sound)
    (h : c.applyAll steps = .ok c') : c'.Sound := by
  induction steps generalizing c with
  | nil => cases h; exact hc
  | cons s rest ih =>
    cases hs : c.apply s with
    | error e => simp only [applyAll, hs] at h; cases h
    | ok c₁ =>
      rw [applyAll_cons hs] at h
      cases hrest : c₁.applyAll rest with
      | error e => rw [hrest] at h; cases h
      | ok c₂ =>
        rw [hrest] at h
        cases h
        exact ih (hc.apply hs) hrest

/-- **A run is determined component by component.** A run of steps that build on the criteria of no request
at all succeeds. Its columns, conditions and sorts are what the steps added, in the order of the steps; its
offset and its limit are the last ones set; it counts if some step made it count; and a name, which has no
colons in front, has the value that it was last bound to. So independent steps that stand side by side may
change places: the criteria are the same, and are compiled to the same result. And whatever steps were
taken, the limit is not zero and no name starts with a colon. -/
theorem applyAll_componentwise :
    (∀ steps : List Step, (∀ s ∈ steps, s.Builds) → ∃ c, applyAll {} steps = .ok c
      ∧ c.columns = steps.flatMap addedColumns
      ∧ c.conditions = steps.flatMap addedConditions
      ∧ c.sorts = steps.flatMap addedSorts
      ∧ c.offset = (steps.filterMap offset?).getLast?.getD 0
      ∧ c.limit = (steps.filterMap limit?).getLast?.getD 50
      ∧ (c.count = true ↔ .count ∈ steps)
      ∧ ∀ name, c.params.get? name = (steps.filterMap (value? name)).getLast?)
    ∧ (∀ (front back : List Step) (s t : Step), (∀ r ∈ front ++ s :: t :: back, r.Builds) →
        s.Independent t → ∃ c c', applyAll {} (front ++ s :: t :: back) = .ok c
          ∧ applyAll {} (front ++ t :: s :: back) = .ok c' ∧ c' = c
          ∧ ∀ d : Definition, d.compile c' = d.compile c)
    ∧ ∀ (steps : List Step) (c : Criteria), applyAll {} steps = .ok c → 1 ≤ c.limit
        ∧ ∀ name v, (name, v) ∈ c.params.entries → name.toList.head? ≠ some ':' := by
  refine ⟨fun steps hsteps => ?_, fun front back s t hsteps hst => ?_, fun steps c hrun => ?_⟩
  · refine ⟨_, applyAll_of_builds hsteps {}, columns_foldl steps {}, conditions_foldl steps {},
      sorts_foldl steps {}, offset_foldl steps {}, limit_foldl steps {}, ?_, fun name => ?_⟩
    · rw [count_foldl]
      exact any_counts_iff steps
    · rw [get?_params_foldl]
      exact Option.or_none
  · have hswapped : ∀ r ∈ front ++ t :: s :: back, r.Builds := fun r hr => hsteps r (by grind)
    refine ⟨_, _, applyAll_of_builds hsteps {}, applyAll_of_builds hswapped {}, ?_, fun d => ?_⟩
    · exact foldl_swap hst front back {}
    · rw [foldl_swap hst]
  · have hsound := sound_of_applyAll sound_default hrun
    exact ⟨hsound.limit, fun name v h => hsound.params name v (Bindings.get?_eq_some_iff.2 h)⟩

/-- A parameter bound twice with different numbers of colons, two limits, and bindings that change places. -/
theorem applyAll_componentwise_colons :
    let front : List Step :=
      [.setParam "::city" (.text "Gulu"), .orderByText "name desc, age", .limitOffset 10 30,
        .addSelect ["name"]]
    let s : Step := .setParam ":city" (.text "Kampala")
    let t : Step := .setParam "n" (.integer 1)
    let back : List Step := [.limit 5, .whereText "age > :n", .count, .addSelect ["age"]]
    (∀ r ∈ front ++ s :: t :: back, r.Builds) ∧ s.Independent t
      ∧ ∃ c, applyAll {} (front ++ s :: t :: back) = .ok c
        ∧ applyAll {} (front ++ t :: s :: back) = .ok c
        ∧ c.columns = ["name", "age"] ∧ c.conditions = [.text "age > :n"]
        ∧ c.sorts = [⟨"name", .descending⟩, ⟨"age", .ascending⟩]
        ∧ c.offset = 30 ∧ c.limit = 5 ∧ 1 ≤ c.limit ∧ c.count = true
        ∧ c.params.get? "city" = some (.text "Kampala") ∧ c.params.get? ":city" = none := by
  intro front s t back
  have hparse : SortKey.parse "name desc, age" = .ok [⟨"name", .descending⟩, ⟨"age", .ascending⟩] := by
    decide +kernel
  have hbuilds : ∀ r ∈ front ++ s :: t :: back, r.Builds := by
    simp +decide [front, s, t, back, Builds, hparse]
  have hindependent : s.Independent t := .inr ⟨_, _, _, _, rfl, rfl, by decide⟩
  obtain ⟨hruns, hswaps, hsound⟩ := applyAll_componentwise
  obtain ⟨c, hc, hcolumns, hconditions, hsorts, hoffset, hlimit, hcount, hparams⟩ := hruns _ hbuilds
  obtain ⟨c₁, c₂, h₁, h₂, rfl, -⟩ := hswaps front back s t hbuilds hindependent
  obtain rfl : c₂ = c := Except.ok.inj (h₁.symm.trans hc)
  refine ⟨hbuilds, hindependent, c₂, hc, h₂, hcolumns, hconditions, ?_, hoffset, hlimit,
    (hsound _ _ hc).1, hcount.2 (by decide), ?_, ?_⟩
  · simp [hsorts, front, s, t, back, addedSorts, hparse]
  · rw [hparams]
    decide
  · rw [hparams]
    decide

end Criteria

end QueryTemplate
