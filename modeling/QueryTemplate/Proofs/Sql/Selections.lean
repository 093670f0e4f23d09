import QueryTemplate.Proofs.Sql.Fronts
import QueryTemplate.Proofs.Sql.Reader

/-!
# Selections of statements

Where the select lists of statements come from. Readers leave an end of the tokens (`TakesFront`), so wherever
one starts, it takes tokens of the text: the name of an item is the name of a token.

* **`Reader.ensures_take`**, **`Reader.Ensures.list`**: what is taken is made of a token, and lists have members.
* **`ensures_select`**: the items of a selection, with their labels.
* **`itemsOf_of_statementsOf`**: those of every selection that is a statement.
-/

namespace QueryTemplate.Sql

namespace Reader

variable {α β : Type} {ts : List Token} {P : α → Prop} {Q : β → Prop}

/-- Where nothing is asked of the first reader. -/
theorem ensures_bind {r : Reader α} [hr : TakesFront r] {f : α → Reader β}
    (hf : ∀ a, Ensures (· <:+ ts) Q (f a)) : Ensures (· <:+ ts) Q (r >>= f) :=
  have hfirst : Ensures (· <:+ ts) (fun _ => True) r := fun _ _ _ hus hread => ⟨trivial, (hr.suffix hread).trans hus⟩
  hfirst.bind fun a _ => hf a

/-- What is taken is made of a token. -/
theorem ensures_take (f : Token → Option α) : Ensures (· <:+ ts) (fun a => ∃ t ∈ ts, f t = some a) (take f) := by
  intro us a rest hus hread
  refine ⟨?_, (TakesFront.suffix hread).trans hus⟩
  cases us with
  | nil => cases hread
  | cons t us =>
    rw [Running.run_take] at hread
    split at hread
    · cases hread
      exact ⟨t, hus.subset List.mem_cons_self, ‹_›⟩
    · cases hread

theorem Ensures.attempt {r : Reader α} (hr : Ensures (· <:+ ts) P r) :
    Ensures (· <:+ ts) (fun x => ∀ a ∈ x, P a) (attempt r) := by
  intro us x rest hus hread
  unfold Reader.attempt at hread
  split at hread
  · rename_i a mid ha
    cases hread
    obtain ⟨hvalue, hmid⟩ := hr us a _ hus ha
    exact ⟨fun b hb => Option.some.inj hb ▸ hvalue, hmid⟩
  · cases hread
    refine ⟨fun b hb => ?_, hus⟩
    cases hb
  · cases hread

/-- A list has members, and each is read like the first. -/
theorem Ensures.list {one : Reader α} (hone : Ensures (· <:+ ts) P one) :
    Ensures (· <:+ ts) (fun as => as ≠ [] ∧ ∀ a ∈ as, P a) (list one) := by
  have hitems (n : Nat) : Ensures (· <:+ ts) (fun as => as ≠ [] ∧ ∀ a ∈ as, P a) (listAtMost one n) := by
    induction n with
    | zero => exact .throw _
    | succ n ih =>
      refine hone.bind fun a ha => ensures_bind fun _ => .ite ?_ ?_
      · exact ih.bind fun as has => .pure ⟨List.cons_ne_nil _ _, List.forall_mem_cons.2 ⟨ha, has.2⟩⟩
      · exact .pure ⟨List.cons_ne_nil _ _, List.forall_mem_singleton.2 ha⟩
  exact ensures_bind fun _ => hitems _

end Reader

open Reader

/-! ## Select lists -/

/-- The label of an item is the name of a token, if there is one. -/
def SelectItem.LabelOf (ts : List Token) (item : SelectItem) : Prop :=
  ∀ label ∈ item.label, ∃ t ∈ ts, t.ident? = some label

/-- There are items, and their labels are names of tokens. -/
def Select.ItemsOf (ts : List Token) (s : Select) : Prop :=
  s.items ≠ [] ∧ ∀ item ∈ s.items, item.LabelOf ts

theorem ensures_optionalAlias {ts : List Token} (reserved : List Keyword) :
    Ensures (· <:+ ts) (fun x => ∀ label ∈ x, ∃ t ∈ ts, t.ident? = some label) (optionalAlias reserved) := by
  refine ensures_bind fun _ => .ite ?_ ?_
  · exact (ensures_take _).map fun name hname label hlabel => Option.some.inj hlabel ▸ hname
  · refine Ensures.attempt fun us label rest hus hread => ?_
    obtain ⟨⟨t, ht, hlabel⟩, hrest⟩ := ensures_take _ us label rest hus hread
    refine ⟨⟨t, ht, ?_⟩, hrest⟩
    -- an alias without `AS` is a name as well
    split at hlabel
    · split at hlabel
      · cases hlabel
      · exact hlabel
    · exact hlabel
    · cases hlabel

section

variable {b : Below} [b.TakesFront] {ts : List Token}

theorem ensures_selectItem : Ensures (· <:+ ts) (SelectItem.LabelOf ts) (selectItem b) := by
  refine ensures_bind fun x => ?_
  cases x with
  | some s => exact .pure nofun
  | none =>
    refine ensures_bind fun expression => ?_
    have hitem : Ensures (· <:+ ts) (SelectItem.LabelOf ts)
        do return ⟨expression, ← optionalAlias Keyword.columnReserved⟩ :=
      (ensures_optionalAlias _).bind fun label hlabel => .pure hlabel
    exact .ite (ensures_bind fun _ => hitem) hitem

theorem ensures_select : Ensures (· <:+ ts) (Select.ItemsOf ts) (select b) := by
  refine ensures_bind fun _ => ensures_bind fun _ => ensures_bind fun _ => ?_
  exact ensures_selectItem.list.bind fun items hitems => ensures_bind fun _ => ensures_bind fun _ =>
    ensures_bind fun _ => ensures_bind fun _ => .pure hitems

/-! ## Statements -/

/-- A body that is a selection. -/
def Body.ItemsOf (ts : List Token) : Body → Prop
  | .select s => s.ItemsOf ts
  | _ => True

theorem ensures_body : Ensures (· <:+ ts) (Body.ItemsOf ts) (body b) := by
  have hsimple : Ensures (· <:+ ts) (Body.ItemsOf ts) (simpleBody b) := by
    refine ensures_bind fun _ => .ite (ensures_bind fun _ => ensures_bind fun _ => .pure trivial) ?_
    exact ensures_bind fun _ => .ite (ensures_bind fun _ => .pure trivial) (ensures_select.map fun _ => id)
  have hcombinations (operators : List (Keyword × SetOperator)) {one : Reader Body}
      (hone : Ensures (· <:+ ts) (Body.ItemsOf ts) one) :
      Ensures (· <:+ ts) (Body.ItemsOf ts) (combinations operators one) := by
    have hmore (n : Nat) : ∀ left : Body, left.ItemsOf ts →
        Ensures (· <:+ ts) (Body.ItemsOf ts) (combinationsAtMost operators one n left) := by
      induction n with
      | zero => exact fun left hleft => .pure hleft
      | succ n ih =>
        refine fun left hleft => ensures_bind fun op => ?_
        cases op with
        | none => exact .pure hleft
        | some op =>
          -- what is combined is no selection, whatever the sides are
          exact ensures_bind fun _ => hone.bind fun _ _ => ih _ trivial
    exact ensures_bind fun _ => hone.bind fun first hfirst => hmore _ first hfirst
  exact hcombinations _ (hcombinations _ hsimple)

end

/-- A query that is a selection. -/
def Statement.ItemsOf (ts : List Token) : Statement → Prop
  | .query q => q.body.ItemsOf ts
  | .other _ => True

theorem ensures_statement {ts : List Token} (n : Nat) :
    Ensures (· <:+ ts) (Statement.ItemsOf ts) (statement (level n)) := by
  have hquery : Ensures (· <:+ ts) (fun q : Query => q.body.ItemsOf ts) (level n).query := by
    cases n with
    | zero => exact .throw _
    | succ n =>
      exact ensures_bind fun _ => ensures_body.bind fun rows hrows => ensures_bind fun _ =>
        ensures_bind fun _ => ensures_bind fun _ => .pure hrows
  have hother (r : Reader String) [TakesFront r] :
      Ensures (· <:+ ts) (Statement.ItemsOf ts) (Statement.other <$> r) :=
    ensures_bind fun _ => .pure trivial
  -- the first word decides, and only one form of statement is a query
  refine ensures_bind fun _ => .ite (hquery.map fun _ => id) ?_
  refine ensures_bind fun _ => .ite (hother _) (ensures_bind fun _ => .ite (hother _) ?_)
  refine ensures_bind fun _ => .ite (hother _) (ensures_bind fun _ => .ite (hother _) ?_)
  refine ensures_bind fun _ => .ite (hother _) (ensures_bind fun _ => .ite (hother _) ?_)
  refine ensures_bind fun _ => .ite (ensures_bind fun _ => .pure trivial) ?_
  exact ensures_bind fun _ => .ite (hother _) (.throw _)

/-- **The items of a statement**: there are some, and their labels are names of tokens of the text. -/
theorem itemsOf_of_statementsOf {ts : List Token} {statements : List Statement}
    (h : statementsOf ts = .ok statements) : ∀ s ∈ statements, s.ItemsOf ts := by
  have hall (n m : Nat) : Ensures (· <:+ ts) (fun statements => ∀ s ∈ statements, s.ItemsOf ts)
      (statementsAtMost (statement (level m)) n) := by
    induction n with
    | zero => exact .pure nofun
    | succ n ih =>
      refine ensures_bind fun _ => .ite (.pure nofun) (ensures_bind fun _ => .ite ih ?_)
      refine (ensures_statement m).bind fun first hfirst => ensures_bind fun _ => .ite ?_ ?_
      · exact .pure (List.forall_mem_singleton.2 hfirst)
      · exact ensures_bind fun _ => ih.bind fun more hmore =>
          .pure (List.forall_mem_cons.2 ⟨hfirst, hmore⟩)
  obtain ⟨⟨_, rest⟩, hread, rfl⟩ := Except.map_eq_ok_iff.1 h
  exact (hall _ _ ts _ rest List.suffix_rfl hread).1

end QueryTemplate.Sql
