import QueryTemplate.Proofs.FirstFailure

/-!
# Counts and rows

The statement that counts the rows of a request and the statement that shows a page of them select from
the same rows with the same values. They part only before the FROM clause and behind the predicate: a
count has neither columns, order nor page, and so the sort fields of the request, which are looked up
last, are all that can go wrong with the rows alone.
-/

namespace QueryTemplate

/-- A clause on a line of its own, after the text before it; nothing if there is no clause. -/
def furtherLine (word : String) : Option String → String
  | none => ""
  | some text => "\n" ++ word ++ " " ++ text

namespace Definition

variable {d : Definition} {c : Criteria}

theorem exists_whereClause_eq (d : Definition) (extra : Option Fragment) :
    ∃ predicate : Option String, d.whereClause extra = predicate.toList.map ("WHERE" ++ " " ++ ·) := by
  unfold whereClause
  cases d.condition with
  | none =>
    cases extra with
    | none => exact ⟨none, rfl⟩
    | some p => exact ⟨some p.sql, rfl⟩
  | some base =>
    cases extra with
    | none => exact ⟨some base, rfl⟩
    | some p =>
      refine ⟨some ("(" ++ base ++ ") AND (" ++ p.sql ++ ")"), ?_⟩
      simp [← String.append_assoc]

theorem exists_orderClause_eq {sorts : List SortKey} {order : List String}
    (h : d.orderClause sorts = .ok order) :
    ∃ terms : Option String, order = terms.toList.map ("ORDER BY" ++ " " ++ ·) := by
  unfold orderClause at h
  split at h
  · cases h
    exact ⟨d.order, rfl⟩
  · obtain ⟨terms, _, h⟩ := Except.bind_eq_ok_iff.1 h
    cases h
    exact ⟨some (", ".intercalate terms), rfl⟩

theorem intercalate_eq_join (sep first : String) (rest : List String) :
    sep.intercalate (first :: rest) = first ++ String.join (rest.map (sep ++ ·)) := by
  induction rest generalizing first with
  | nil => simp
  | cons next rest ih =>
    rw [String.intercalate_cons_cons, ih, List.map_cons, String.join_cons]
    simp only [String.append_assoc]

theorem join_furtherLine (word : String) (text : Option String) :
    String.join ((text.toList.map (word ++ " " ++ ·)).map ("\n" ++ ·)) = furtherLine word text := by
  cases text with
  | none => rfl
  | some text => simp [furtherLine, String.append_assoc]

/-- The clauses of a statement are its lines, one behind the other. -/
theorem sql_assemble {fields : List Field} {extra : Option Fragment} {predicate : Option String}
    {tail : List String} (h : d.whereClause extra = predicate.toList.map ("WHERE" ++ " " ++ ·)) :
    (d.assemble c fields extra tail).sql
      = head c fields ++ "\n" ++ ("FROM " ++ d.schema ++ furtherLine "WHERE" predicate)
        ++ String.join (tail.map ("\n" ++ ·)) := by
  show "\n".intercalate ([head c fields, "FROM " ++ d.schema] ++ d.whereClause extra ++ tail) = _
  rw [h, List.append_assoc, List.cons_append, intercalate_eq_join, List.cons_append,
    List.nil_append, List.map_cons, List.map_append, String.join_cons, String.join_append,
    join_furtherLine]
  simp only [String.append_assoc]

theorem tail_of_count (hcount : c.count = true) : d.tail c = .ok [] :=
  if_pos hcount

/-- What follows the predicate in the statement for rows. -/
theorem exists_tail_eq (hrows : c.count = false) {tail : List String} (h : d.tail c = .ok tail) :
    ∃ order : Option String, String.join (tail.map ("\n" ++ ·))
      = furtherLine "ORDER BY" order ++ "\n" ++ pageClause c := by
  unfold Definition.tail at h
  rw [hrows] at h
  obtain ⟨lines, hlines, h⟩ := Except.bind_eq_ok_iff.1 h
  cases h
  obtain ⟨order, rfl⟩ := exists_orderClause_eq hlines
  refine ⟨order, ?_⟩
  rw [List.map_append, String.join_append, join_furtherLine]
  simp [String.append_assoc]

/-- Behind the predicate, only a sort field can be unknown. -/
theorem exists_sort_of_tail_error (hrows : c.count = false) {e : Error} (h : d.tail c = .error e) :
    ∃ sort ∈ c.sorts, e = .unknownField sort.field ∧ ¬ ∃ f ∈ d.fields, f.name = sort.field := by
  have hreports := (reports_tail (d := d) (c := c)).eq_error_iff.1 h
  rw [hrows] at hreports
  obtain ⟨sort, hsort, hunknown⟩ := List.mem_filterMap.1 (List.mem_of_head? hreports)
  refine ⟨sort, hsort, ?_⟩
  unfold unknown? at hunknown
  split at hunknown
  · cases hunknown
  · cases hunknown
    exact ⟨rfl, ‹_›⟩

end Definition

/-- **A count and the rows agree.** If the rows of a request are compiled then so is the count of them,
with the same values, and the two statements have the FROM clause and the predicate in common. Whatever
the count fails with, the rows fail with, and what fails with the rows alone is a sort field that the
definition does not have. -/
theorem count_agrees_with_rows {d : Definition} {c counted : Criteria} (hrows : c.count = false)
    (hcounted : c.apply .count = .ok counted) :
    (∀ q, d.compile c = .ok q →
      ∃ q' fields source predicate order,
        d.compile counted = .ok q' ∧ q'.params = q.params
          ∧ d.projection c.columns = .ok fields
          ∧ source = "FROM " ++ d.schema ++ furtherLine "WHERE" predicate
          ∧ q'.sql = "SELECT COUNT(*)\n" ++ source
          ∧ q.sql = "SELECT " ++ Definition.selectList fields ++ "\n" ++ source
              ++ furtherLine "ORDER BY" order
              ++ "\nLIMIT " ++ toString c.limit.toNat ++ " OFFSET " ++ toString c.offset.toNat)
    ∧ (∀ e, d.compile counted = .error e → d.compile c = .error e)
    ∧ ∀ e q', d.compile c = .error e → d.compile counted = .ok q' →
        ∃ sort ∈ c.sorts, e = .unknownField sort.field
          ∧ ¬ ∃ f ∈ d.fields, f.name = sort.field := by
  cases hcounted
  -- a count resolves the columns and writes the predicate as the rows do, and is then done
  have htail : d.tail { c with count := true } = .ok [] := Definition.tail_of_count rfl
  refine ⟨fun q hq => ?_, fun e he => ?_, fun e q' he hq' => ?_⟩
  · obtain ⟨fields, extra, tail, hfields, hextra, hrest, rfl⟩ := Definition.compile_eq_ok_iff.1 hq
    obtain ⟨predicate, hwhere⟩ := d.exists_whereClause_eq extra
    obtain ⟨order, horder⟩ := Definition.exists_tail_eq hrows hrest
    refine ⟨_, fields, _, predicate, order,
      Definition.compile_eq_ok_iff.2 ⟨fields, extra, [], hfields, hextra, htail, rfl⟩, rfl, hfields,
      rfl, ?_, ?_⟩
    · rw [Definition.sql_assemble hwhere]
      simp [Definition.head, String.append_assoc]
    · rw [Definition.sql_assemble hwhere, horder]
      simp only [Definition.head, hrows, Definition.pageClause, Bool.false_eq_true, if_false,
        String.append_assoc]
      rw [show "\nLIMIT " = "\n" ++ "LIMIT " from rfl, String.append_assoc]
  · rcases Definition.compile_eq_error_iff.1 he with he | ⟨fields, hfields, he | ⟨extra, _, he⟩⟩
    · exact Definition.compile_eq_error_iff.2 (.inl he)
    · exact Definition.compile_eq_error_iff.2 (.inr ⟨fields, hfields, .inl he⟩)
    · -- behind its predicate a count cannot fail
      rw [htail] at he
      cases he
  · obtain ⟨_, _, _, hprojection, hpredicate, _⟩ := Definition.compile_eq_ok_iff.1 hq'
    -- the first two stages are those of the count, which they let pass
    rcases Definition.compile_eq_error_iff.1 he with he | ⟨_, _, he | ⟨_, _, he⟩⟩
    · rw [hprojection] at he
      cases he
    · rw [hpredicate] at he
      cases he
    · exact Definition.exists_sort_of_tail_error hrows he

/-- With a condition and an order of its own, a page of rows and their count; and with a sort field that
is unknown, a count alone. -/
theorem count_agrees_with_rows_sorted :
    let d : Definition := ⟨[⟨"p.age", "age", .int⟩], "people p", some "p.deleted = 0", some "p.age",
      by decide, by decide⟩
    let c : Criteria := { conditions := [.text "age > 18"], sorts := [⟨"age", .descending⟩] }
    let bad : Criteria := { c with sorts := [⟨"email", .ascending⟩] }
    let counted (c : Criteria) : Criteria := { c with count := true }
    c.count = false ∧ c.apply .count = .ok (counted c) ∧ bad.apply .count = .ok (counted bad)
      ∧ (∃ q' source, d.compile (counted c) = .ok q' ∧ q'.params = [.integer 18]
        ∧ q'.sql = "SELECT COUNT(*)\n" ++ source)
      ∧ ∃ sort ∈ bad.sorts, Error.unknownField "email" = .unknownField sort.field := by
  intro d c bad counted
  have hq : d.compile c = .ok ⟨"SELECT p.age AS age\nFROM people p\n" ++
      "WHERE (p.deleted = 0) AND (p.age > ?)\nORDER BY p.age DESC\nLIMIT 50 OFFSET 0",
      [.integer 18]⟩ := by
    decide +kernel
  have hbad : d.compile bad = .error (.unknownField "email") := by decide +kernel
  obtain ⟨q', _, source, _, _, hq', hparams, _, _, hsql, _⟩ :=
    (count_agrees_with_rows (d := d) (c := c) rfl rfl).1 _ hq
  obtain ⟨sort, hsort, he, _⟩ :=
    (count_agrees_with_rows (d := d) (c := bad) rfl rfl).2.2 _ q' hbad hq'
  exact ⟨rfl, rfl, rfl, ⟨q', source, hq', hparams, hsql⟩, sort, hsort, he⟩

end QueryTemplate
