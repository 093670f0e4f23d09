import QueryTemplate.Value

/-!
# Parameter bindings

A finite map from parameter names to values. Its entries ascend strictly by name, in the order of
code points, which is also the order of the names' UTF-8 bytes; so equal maps have equal entries.
-/

namespace QueryTemplate

/-- The entries of a map, in strictly ascending order of names. -/
structure Bindings where
  entries : List (String × Value)
  ascending : entries.Pairwise fun x y => x.1 < y.1 := by simp
  deriving DecidableEq, Repr

namespace Bindings

/-- The map without entries. -/
def empty : Bindings where
  entries := []

/-- The value of a name. -/
def get? (b : Bindings) (name : String) : Option Value :=
  (b.entries.find? fun e => e.1 = name).map (·.2)

/-- Puts an entry in its place, or in the place of the entry with its name. -/
def insertEntry (name : String) (v : Value) : List (String × Value) → List (String × Value)
  | [] => [(name, v)]
  | (n, w) :: rest =>
    if name = n then (name, v) :: rest
    else if name < n then (name, v) :: (n, w) :: rest
    else (n, w) :: insertEntry name v rest

/-- No entries come in but the one put in its place. -/
theorem of_mem_insertEntry {name : String} {v : Value} {entries : List (String × Value)}
    {e : String × Value} (h : e ∈ insertEntry name v entries) : e.1 = name ∨ e ∈ entries := by
  induction entries with
  | nil => simp_all [insertEntry]
  | cons x rest ih =>
    unfold insertEntry at h
    split at h
    · rcases List.mem_cons.1 h with rfl | h
      · exact .inl rfl
      · exact .inr (List.mem_cons_of_mem _ h)
    · split at h
      · rcases List.mem_cons.1 h with rfl | h
        · exact .inl rfl
        · exact .inr h
      · rcases List.mem_cons.1 h with rfl | h
        · exact .inr List.mem_cons_self
        · exact (ih h).imp_right (List.mem_cons_of_mem _)

/-- Putting an entry in its place keeps the order. -/
theorem pairwise_insertEntry (name : String) (v : Value) {entries : List (String × Value)}
    (h : entries.Pairwise fun x y => x.1 < y.1) :
    (insertEntry name v entries).Pairwise fun x y => x.1 < y.1 := by
  induction entries with
  | nil => simp [insertEntry]
  | cons x rest ih =>
    obtain ⟨first, later⟩ := List.pairwise_cons.1 h
    unfold insertEntry
    split
    · rename_i same
      exact List.pairwise_cons.2 ⟨fun y hy => same ▸ first y hy, later⟩
    · split
      · rename_i below
        refine List.pairwise_cons.2 ⟨fun y hy => ?_, h⟩
        rcases List.mem_cons.1 hy with rfl | hy
        · exact below
        · exact String.lt_trans below (first y hy)
      · rename_i differs notBelow
        refine List.pairwise_cons.2 ⟨fun y hy => ?_, ih later⟩
        rcases of_mem_insertEntry hy with same | hy
        · rw [same]
          exact Std.lt_of_le_of_ne (Std.not_lt.1 notBelow) (Ne.symm differs)
        · exact first y hy

/-- Binds a name to a value; an earlier value of the name is replaced. -/
def insert (b : Bindings) (name : String) (v : Value) : Bindings :=
  ⟨insertEntry name v b.entries, pairwise_insertEntry name v b.ascending⟩

/-- Binds the names in order. -/
def ofList (entries : List (String × Value)) : Bindings :=
  entries.foldl (fun b e => b.insert e.1 e.2) empty

theorem get?_empty (name : String) : empty.get? name = none := rfl

/-- What was bound last is found, and no other name is touched. -/
theorem get?_insert (b : Bindings) (name other : String) (v : Value) :
    (b.insert name v).get? other = if other = name then some v else b.get? other := by
  obtain ⟨entries, ascending⟩ := b
  simp only [get?, insert]
  clear ascending
  induction entries with
  | nil =>
    by_cases h : other = name
    · simp [insertEntry, h]
    · simp [insertEntry, h, Ne.symm h]
  | cons e rest ih =>
    obtain ⟨n, w⟩ := e
    by_cases h : other = name
    · subst h
      simp only [if_true] at ih ⊢
      unfold insertEntry
      split
      · simp
      · split
        · simp
        · rename_i hne _
          rw [List.find?_cons_of_neg (by simpa using Ne.symm hne), ih]
    · simp only [if_neg h] at ih ⊢
      unfold insertEntry
      split
      · rename_i hn
        subst hn
        rw [List.find?_cons_of_neg (by simpa using Ne.symm h),
          List.find?_cons_of_neg (by simpa using Ne.symm h)]
      · split
        · rw [List.find?_cons_of_neg (by simpa using Ne.symm h)]
        · by_cases hn : n = other
          · simp [hn]
          · rw [List.find?_cons_of_neg (by simpa using hn), ih,
              List.find?_cons_of_neg (by simpa using hn)]

/-- Equality of maps with values compared as a program sees them. -/
def same (a b : Bindings) : Bool :=
  a.entries.length = b.entries.length
    && (a.entries.zip b.entries).all fun (x, y) => x.1 = y.1 && x.2.same y.2

end Bindings

end QueryTemplate
