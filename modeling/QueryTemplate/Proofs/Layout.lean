import QueryTemplate.Filter.Predicate
import QueryTemplate.Proofs.Except
import Mathlib.Data.List.Forall2

/-!
# The layout of a written filter

Where the parentheses, keywords and operands of a written filter stand depends on the tree alone.
`Filter.layout` says so: it is the list of the parts of the text, each either an operand or text that
stands there whatever the operands are. A scope only decides what each operand is written as.

* **`writes_layout_of_write`**: what a filter is written as is its layout, part by part. Every proof
  about written filters goes through this one inversion, and is then an induction on a list.
* **`layout_mapOperands`**: exchanging operands in the tree exchanges them in the layout.
* **`layout_operands`**: the operands of the layout are those met on a walk through the tree from
  left to right, without those of tests for membership in an empty list.
-/

namespace QueryTemplate

/-! ## Operands of a tree -/

namespace Operand

/-- Whether an operand is written as a placeholder. -/
def isValue : Operand → Bool
  | .literal _ => true
  | .param _ => true
  | .field _ => false

/-- The value that a placeholder stands for: the literal, or what the parameter is bound to. -/
def value? (bindings : Bindings) : Operand → Option Value
  | .literal v => some v
  | .param name => bindings.get? name
  | .field _ => none

end Operand

namespace Filter

/-- The operands met on a walk from left to right, an operand before the items of its list. -/
def operands : Filter → List Operand
  | .compare left _ right => [left, right]
  | .isIn o items _ => o :: items
  | .isNull o _ => [o]
  | .and left right => left.operands ++ right.operands
  | .or left right => left.operands ++ right.operands
  | .not inner => inner.operands

/-- The operands met on the same walk that leaves out tests for membership in an empty list. -/
def writtenOperands : Filter → List Operand
  | .compare left _ right => [left, right]
  | .isIn _ [] _ => []
  | .isIn o (item :: items) _ => o :: item :: items
  | .isNull o _ => [o]
  | .and left right => left.writtenOperands ++ right.writtenOperands
  | .or left right => left.writtenOperands ++ right.writtenOperands
  | .not inner => inner.writtenOperands

/-- The tree with every operand exchanged; operators, list lengths and shape stay. -/
def mapOperands (g : Operand → Operand) : Filter → Filter
  | .compare left op right => .compare (g left) op (g right)
  | .isIn o items negated => .isIn (g o) (items.map g) negated
  | .isNull o negated => .isNull (g o) negated
  | .and left right => .and (left.mapOperands g) (right.mapOperands g)
  | .or left right => .or (left.mapOperands g) (right.mapOperands g)
  | .not inner => .not (inner.mapOperands g)

@[simp] theorem isAnd_mapOperands (g : Operand → Operand) (f : Filter) :
    (f.mapOperands g).isAnd = f.isAnd := by
  cases f <;> rfl

@[simp] theorem isOr_mapOperands (g : Operand → Operand) (f : Filter) :
    (f.mapOperands g).isOr = f.isOr := by
  cases f <;> rfl

@[simp] theorem operands_mapOperands (g : Operand → Operand) (f : Filter) :
    (f.mapOperands g).operands = f.operands.map g := by
  induction f with
  | compare left op right => rfl
  | isIn o items negated => rfl
  | isNull o negated => rfl
  | and left right ihl ihr => simp [mapOperands, operands, ihl, ihr]
  | or left right ihl ihr => simp [mapOperands, operands, ihl, ihr]
  | not inner ih => exact ih

/-- Whether a filter tests for membership in an empty list anywhere. -/
def hasEmptyList : Filter → Bool
  | .compare _ _ _ => false
  | .isIn _ items _ => items.isEmpty
  | .isNull _ _ => false
  | .and left right => left.hasEmptyList || right.hasEmptyList
  | .or left right => left.hasEmptyList || right.hasEmptyList
  | .not inner => inner.hasEmptyList

@[simp] theorem hasEmptyList_mapOperands (g : Operand → Operand) (f : Filter) :
    (f.mapOperands g).hasEmptyList = f.hasEmptyList := by
  induction f with
  | compare left op right => rfl
  | isIn o items negated => exact List.isEmpty_map
  | isNull o negated => rfl
  | and left right ihl ihr => simp [mapOperands, hasEmptyList, ihl, ihr]
  | or left right ihl ihr => simp [mapOperands, hasEmptyList, ihl, ihr]
  | not inner ih => exact ih

/-- Only tests for membership in an empty list leave operands unwritten. -/
theorem writtenOperands_eq_operands {f : Filter} (h : f.hasEmptyList = false) :
    f.writtenOperands = f.operands := by
  induction f with
  | compare left op right => rfl
  | isIn o items negated =>
    cases items with
    | nil => cases h
    | cons item items => rfl
  | isNull o negated => rfl
  | and left right ihl ihr =>
    obtain ⟨hl, hr⟩ := Bool.or_eq_false_iff.1 h
    rw [writtenOperands, operands, ihl hl, ihr hr]
  | or left right ihl ihr =>
    obtain ⟨hl, hr⟩ := Bool.or_eq_false_iff.1 h
    rw [writtenOperands, operands, ihl hl, ihr hr]
  | not inner ih => exact ih h

end Filter

/-! ## Layouts -/

/-- A part of a written filter: an operand, or text that does not depend on operands. -/
inductive Mark
  | operand (o : Operand)
  | verbatim (text : String)
  deriving DecidableEq, Repr

namespace Mark

def map (g : Operand → Operand) : Mark → Mark
  | .operand o => .operand (g o)
  | .verbatim text => .verbatim text

def operand? : Mark → Option Operand
  | .operand o => some o
  | .verbatim _ => none

/-- The parts, in parentheses if asked for. -/
def wrap (parens : Bool) (ms : List Mark) : List Mark :=
  if parens then .verbatim "(" :: ms ++ [.verbatim ")"] else ms

/-- The items of a list after the first, each after a comma. -/
def moreItems (os : List Operand) : List Mark :=
  os.flatMap fun o => [.verbatim ", ", .operand o]

@[simp] theorem map_wrap (g : Operand → Operand) (parens : Bool) (ms : List Mark) :
    (wrap parens ms).map (map g) = wrap parens (ms.map (map g)) := by
  cases parens <;> simp [wrap, map]

@[simp] theorem map_moreItems (g : Operand → Operand) (os : List Operand) :
    (moreItems os).map (map g) = moreItems (os.map g) := by
  simp [moreItems, List.map_flatMap, List.flatMap_map, map]

@[simp] theorem operand?_wrap (parens : Bool) (ms : List Mark) :
    (wrap parens ms).filterMap operand? = ms.filterMap operand? := by
  cases parens <;> simp [wrap, operand?, List.filterMap_cons]

@[simp] theorem operand?_moreItems (os : List Operand) :
    (moreItems os).filterMap operand? = os := by
  induction os with
  | nil => rfl
  | cons o os ih =>
    show o :: (moreItems os).filterMap operand? = o :: os
    rw [ih]

end Mark

namespace Filter

/-- The parts that a filter is written in. -/
def layout : Filter → List Mark
  | .compare left op right => [.operand left, .verbatim (" " ++ op.sql ++ " "), .operand right]
  | .isIn _ [] negated => [.verbatim (if negated then "1 = 1" else "1 = 0")]
  | .isIn o (item :: items) negated =>
    .operand o :: .verbatim (if negated then " NOT IN (" else " IN (") :: .operand item
      :: (Mark.moreItems items ++ [.verbatim ")"])
  | .isNull o negated =>
    [.operand o, .verbatim (if negated then " IS NOT NULL" else " IS NULL")]
  | .and left right =>
    Mark.wrap left.isOr left.layout ++ .verbatim " AND "
      :: Mark.wrap (right.isAnd || right.isOr) right.layout
  | .or left right => left.layout ++ .verbatim " OR " :: Mark.wrap right.isOr right.layout
  | .not inner => .verbatim "NOT (" :: (inner.layout ++ [.verbatim ")"])

theorem layout_mapOperands (g : Operand → Operand) (f : Filter) :
    (f.mapOperands g).layout = f.layout.map (Mark.map g) := by
  induction f with
  | compare left op right => rfl
  | isIn o items negated =>
    cases items with
    | nil => rfl
    | cons item items => simp [mapOperands, layout, Mark.map]
  | isNull o negated => rfl
  | and left right ihl ihr => simp [mapOperands, layout, ihl, ihr, Mark.map]
  | or left right ihl ihr => simp [mapOperands, layout, ihl, ihr, Mark.map]
  | not inner ih => simp [mapOperands, layout, ih, Mark.map]

theorem layout_operands (f : Filter) : f.layout.filterMap Mark.operand? = f.writtenOperands := by
  induction f with
  | compare left op right => rfl
  | isIn o items negated =>
    cases items with
    | nil => rfl
    | cons item items =>
      simp [layout, writtenOperands, Mark.operand?, List.filterMap_cons]
  | isNull o negated => rfl
  | and left right ihl ihr =>
    simp [layout, writtenOperands, ihl, ihr, Mark.operand?, List.filterMap_cons]
  | or left right ihl ihr =>
    simp [layout, writtenOperands, ihl, ihr, Mark.operand?, List.filterMap_cons]
  | not inner ih => simp [layout, writtenOperands, ih, Mark.operand?, List.filterMap_cons]

end Filter

/-! ## What the parts are written as -/

/-- `s.Writes m p`: in the scope `s`, the part `m` of a filter is written as the piece `p`. Values
become placeholders and fields become their expressions; unknown names are written as nothing. -/
inductive Scope.Writes (s : Scope) : Mark → Piece → Prop where
  | verbatim (text : String) : Writes s (.verbatim text) (.sql text)
  | literal (v : Value) : Writes s (.operand (.literal v)) (.bound v)
  | param {name : String} {v : Value} (h : s.bindings.get? name = some v) :
      Writes s (.operand (.param name)) (.bound v)
  | field {name : String} {f : Field} (h : Field.find? s.fields name = some f) :
      Writes s (.operand (.field name)) (.sql f.expression)

theorem Field.resolve_eq_ok_iff {fields : List Field} {name : String} {f : Field} :
    resolve fields name = .ok f ↔ find? fields name = some f := by
  unfold resolve
  cases find? fields name with
  | some g => simp
  | none => simp

namespace Scope

variable {s : Scope}

theorem writes_of_operand {o : Operand} {p : Fragment} (h : s.operand o = .ok p) :
    ∃ piece, p = [piece] ∧ s.Writes (.operand o) piece := by
  cases o with
  | literal v =>
    cases h
    exact ⟨_, rfl, .literal v⟩
  | param name =>
    cases hv : s.bindings.get? name with
    | some v =>
      simp only [operand, hv] at h
      cases h
      exact ⟨_, rfl, .param hv⟩
    | none =>
      simp only [operand, hv] at h
      cases h
  | field name =>
    obtain ⟨f, hf, he⟩ := Except.map_eq_ok_iff.1 h
    cases he
    exact ⟨_, rfl, .field (Field.resolve_eq_ok_iff.1 hf)⟩

theorem writes_of_moreItems {os : List Operand} {p : Fragment} (h : s.moreItems os = .ok p) :
    List.Forall₂ s.Writes (Mark.moreItems os) p := by
  induction os generalizing p with
  | nil =>
    cases h
    exact .nil
  | cons o os ih =>
    obtain ⟨first, hfirst, h⟩ := Except.bind_eq_ok_iff.1 h
    obtain ⟨rest, hrest, h⟩ := Except.bind_eq_ok_iff.1 h
    cases h
    obtain ⟨piece, rfl, hpiece⟩ := writes_of_operand hfirst
    exact .cons (.verbatim ", ") (.cons hpiece (ih hrest))

theorem writes_append {ms ns : List Mark} {p q : Fragment} (hp : List.Forall₂ s.Writes ms p)
    (hq : List.Forall₂ s.Writes ns q) : List.Forall₂ s.Writes (ms ++ ns) (p ++ q) :=
  List.rel_append hp hq

theorem writes_wrap {ms : List Mark} {p : Fragment} (parens : Bool)
    (h : List.Forall₂ s.Writes ms p) :
    List.Forall₂ s.Writes (Mark.wrap parens ms) (Fragment.wrap parens p) := by
  cases parens with
  | false => exact h
  | true => exact .cons (.verbatim "(") (writes_append h (.cons (.verbatim ")") .nil))

/-- Two measures that agree on each part and its piece agree on the whole. -/
theorem map_eq_map_of_writes {α : Type} {φ : Piece → α} {ψ : Mark → α} {ms : List Mark}
    {p : Fragment} (h : List.Forall₂ s.Writes ms p)
    (hone : ∀ m ∈ ms, ∀ piece, s.Writes m piece → φ piece = ψ m) : p.map φ = ms.map ψ := by
  induction h with
  | nil => rfl
  | @cons m piece ms p hm _ ih =>
    have hrest : p.map φ = ms.map ψ := ih fun n hn => hone n (List.mem_cons_of_mem _ hn)
    rw [List.map_cons, List.map_cons, hone m List.mem_cons_self piece hm, hrest]

theorem exists_writes_of_mem {ms : List Mark} {p : Fragment} (h : List.Forall₂ s.Writes ms p)
    {m : Mark} (hm : m ∈ ms) : ∃ piece, s.Writes m piece := by
  induction h with
  | nil => cases hm
  | cons hfirst _ ih =>
    rcases List.mem_cons.1 hm with rfl | hm
    · exact ⟨_, hfirst⟩
    · exact ih hm

end Scope

/-- **A filter is written as its layout.** If the filter is written at all, each part of its layout is
written as one piece. Induction on the tree; the depth only decides whether there is a result. -/
theorem writes_layout_of_write {s : Scope} {f : Filter} {depth : Nat} {p : Fragment}
    (h : f.write s depth = .ok p) : List.Forall₂ s.Writes f.layout p := by
  induction f generalizing depth p with
  | compare left op right =>
    unfold Filter.write at h
    -- here and below: what is too deep is not written
    split at h
    · cases h
    obtain ⟨l, hl, h⟩ := Except.bind_eq_ok_iff.1 h
    obtain ⟨r, hr, h⟩ := Except.bind_eq_ok_iff.1 h
    cases h
    obtain ⟨pl, rfl, hpl⟩ := Scope.writes_of_operand hl
    obtain ⟨pr, rfl, hpr⟩ := Scope.writes_of_operand hr
    exact .cons hpl (.cons (.verbatim _) (.cons hpr .nil))
  | isIn o items negated =>
    unfold Filter.write at h
    split at h
    · cases h
    cases items with
    | nil =>
      obtain ⟨_, _, h⟩ := Except.bind_eq_ok_iff.1 h
      cases h
      exact .cons (.verbatim _) .nil
    | cons item items =>
      obtain ⟨l, hl, h⟩ := Except.bind_eq_ok_iff.1 h
      obtain ⟨first, hfirst, h⟩ := Except.bind_eq_ok_iff.1 h
      obtain ⟨rest, hrest, h⟩ := Except.bind_eq_ok_iff.1 h
      cases h
      obtain ⟨pl, rfl, hpl⟩ := Scope.writes_of_operand hl
      obtain ⟨pf, rfl, hpf⟩ := Scope.writes_of_operand hfirst
      exact .cons hpl (.cons (.verbatim _) (.cons hpf
        (Scope.writes_append (Scope.writes_of_moreItems hrest) (.cons (.verbatim ")") .nil))))
  | isNull o negated =>
    unfold Filter.write at h
    split at h
    · cases h
    obtain ⟨l, hl, h⟩ := Except.bind_eq_ok_iff.1 h
    cases h
    obtain ⟨pl, rfl, hpl⟩ := Scope.writes_of_operand hl
    exact .cons hpl (.cons (.verbatim _) .nil)
  | and left right ihl ihr =>
    unfold Filter.write at h
    split at h
    · cases h
    obtain ⟨l, hl, h⟩ := Except.bind_eq_ok_iff.1 h
    obtain ⟨r, hr, h⟩ := Except.bind_eq_ok_iff.1 h
    cases h
    exact Scope.writes_append (Scope.writes_wrap _ (ihl hl))
      (.cons (.verbatim " AND ") (Scope.writes_wrap _ (ihr hr)))
  | or left right ihl ihr =>
    unfold Filter.write at h
    split at h
    · cases h
    obtain ⟨l, hl, h⟩ := Except.bind_eq_ok_iff.1 h
    obtain ⟨r, hr, h⟩ := Except.bind_eq_ok_iff.1 h
    cases h
    exact Scope.writes_append (ihl hl) (.cons (.verbatim " OR ") (Scope.writes_wrap _ (ihr hr)))
  | not inner ih =>
    unfold Filter.write at h
    split at h
    · cases h
    obtain ⟨i, hi, h⟩ := Except.bind_eq_ok_iff.1 h
    cases h
    exact .cons (.verbatim "NOT (") (Scope.writes_append (ih hi) (.cons (.verbatim ")") .nil))

end QueryTemplate
