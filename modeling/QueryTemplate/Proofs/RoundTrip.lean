import QueryTemplate.Proofs.Placeholders
import QueryTemplate.Proofs.Reading.Condition
import QueryTemplate.Proofs.Spelling

/-!
# Written filters are read back

A filter is written with question marks for its values. With the values put back in as literals, the
text is filter text again, and reading it gives the tree that was written, its parameters bound.

* **`Fragment.fill_sql`**: putting the values back in is spelling out piece after piece, whatever
  characters the values have.
* **`fillIn_of_write`**: so the text is the layout of the tree with its parameters bound, spelled out.
* **`parse_fillIn_of_write`**: and that layout derives this tree.
-/

namespace QueryTemplate

/-! ## Values in place of question marks -/

/-- Replaces the question marks from left to right, each by the next value as a literal. Question
marks of a literal are not looked at again. -/
def fill : List Char → List Value → List Char
  | [], _ => []
  | c :: cs, [] => c :: fill cs []
  | c :: cs, v :: vs => if c = '?' then v.literal.toList ++ fill cs vs else c :: fill cs (v :: vs)

/-- The text with its values filled in. -/
def fillIn (sql : String) (params : List Value) : String :=
  String.ofList (fill sql.toList params)

/-- What stands for a piece in the text with the values filled in. -/
def Piece.spelling : Piece → List Char
  | .sql text => text.toList
  | .bound v => v.literal.toList

theorem fill_append {cs : List Char} (h : '?' ∉ cs) (ds : List Char) (vs : List Value) :
    fill (cs ++ ds) vs = cs ++ fill ds vs := by
  induction cs with
  | nil => rfl
  | cons c cs ih =>
    have hc : c ≠ '?' := fun hc => h (by rw [hc]; exact List.mem_cons_self)
    have hrest : fill (cs ++ ds) vs = cs ++ fill ds vs :=
      ih fun hcs => h (List.mem_cons_of_mem _ hcs)
    cases vs with
    | nil =>
      show c :: fill (cs ++ ds) [] = _
      rw [hrest]
      rfl
    | cons v vs =>
      show (if c = '?' then _ else c :: fill (cs ++ ds) (v :: vs)) = _
      rw [if_neg hc, hrest]
      rfl

theorem Fragment.fill_sql {p : Fragment} (h : p.Plain) :
    fill p.sql.toList p.params = p.flatMap Piece.spelling := by
  induction p with
  | nil => rfl
  | cons piece p ih =>
    have hrest : fill (sql p).toList (params p) = p.flatMap Piece.spelling :=
      ih fun text ht => h text (List.mem_cons_of_mem _ ht)
    cases piece with
    | sql text =>
      -- nothing to replace in the text
      have htext : '?' ∉ text.toList := h text List.mem_cons_self
      show fill (text ++ sql p).toList (params p) = text.toList ++ _
      rw [String.toList_append, fill_append htext, hrest]
      rfl
    | bound v =>
      -- the first question mark left is the one of this piece
      show fill ("?" ++ sql p).toList (v :: params p) = v.literal.toList ++ _
      rw [String.toList_append]
      show v.literal.toList ++ fill (sql p).toList (params p) = _
      rw [hrest]
      rfl

/-! ## Bound parameters -/

/-- The operand with its parameter replaced by what it is bound to. -/
def Operand.bind (b : Bindings) : Operand → Operand
  | .literal v => .literal v
  | .param name =>
    match b.get? name with
    | some v => .literal v
    | none => .param name
  | .field name => .field name

/-- The tree with every bound parameter replaced by its value. -/
def Filter.bind (b : Bindings) (f : Filter) : Filter :=
  f.mapOperands (Operand.bind b)

/-! ## Reading what was written -/

/-- What a filter needs for its text to be filter text again: no test for membership in an empty
list, no floating point number as a value, and for each field a name that stands for itself. -/
structure Filter.ReadsBack (f : Filter) (s : Scope) : Prop where
  lists : f.hasEmptyList = false
  values : ∀ o ∈ f.operands, ∀ v, o.value? s.bindings = some v → v.isFloat = false
  names : ∀ name, .field name ∈ f.operands → Filter.IsName name
  expressions : ∀ name g, .field name ∈ f.operands → Field.find? s.fields name = some g →
    g.expression = name

/-- No derivation of the text has more than `limit` `NOT`s and groups around any of its points. -/
def NestsWithin (limit : Nat) (text : String) : Prop :=
  ∀ lexemes n f, Filter.lex text.toList = .ok lexemes →
    Filter.Derives .disjunction n (lexemes.map Filter.Lexeme.token) f → n ≤ limit

namespace Filter

variable {s : Scope} {f : Filter} {depth : Nat} {p : Fragment}

theorem IsName.plain {name : String} (h : IsName name) : Plain name := by
  obtain ⟨c, cs, hname, hc, hcs⟩ := h.chars
  unfold Plain
  rw [hname, List.mem_cons, not_or]
  constructor
  · rintro rfl
    have hquestion := hc.2 []
    cases hquestion
  · intro hmem
    have hquestion := hcs '?' hmem
    revert hquestion
    decide

/-- With the parameters bound, every operand that is written is one token that stands for it. -/
theorem ReadsBack.spelled (h : f.ReadsBack s) {o : Operand} (ho : o ∈ f.operands) {piece : Piece}
    (hpiece : s.Writes (.operand o) piece) :
    Spelled (o.bind s.bindings) ∧ piece.spelling = (o.bind s.bindings).spelling := by
  cases hpiece with
  | literal v => exact ⟨spelled_literal (h.values _ ho v rfl), rfl⟩
  | @param name v hv =>
    have hbind : (Operand.param name).bind s.bindings = .literal v := by
      simp only [Operand.bind, hv]
    rw [hbind]
    exact ⟨spelled_literal (h.values _ ho v hv), rfl⟩
  | @field name g hg =>
    refine ⟨spelled_field (h.names name ho), ?_⟩
    show g.expression.toList = name.toList
    rw [h.expressions name g ho hg]

theorem mem_operands_of_layout (h : f.ReadsBack s) {o : Operand} :
    .operand o ∈ f.layout ↔ o ∈ f.operands := by
  rw [← writtenOperands_eq_operands h.lists, ← layout_operands, List.mem_filterMap]
  constructor
  · intro ho
    exact ⟨.operand o, ho, rfl⟩
  · rintro ⟨m, hm, ho⟩
    cases m with
    | operand o' =>
      cases ho
      exact hm
    | verbatim text => cases ho

/-- The text with the values filled in is the layout of the tree with its parameters bound. -/
theorem fillIn_of_write (h : f.ReadsBack s) (hwrite : f.write s depth = .ok p) :
    (fillIn p.sql p.params).toList = spell (f.bind s.bindings).layout := by
  have hwrites := writes_layout_of_write hwrite
  -- the names of the fields are words, which have no question marks
  have hplain : p.Plain := by
    refine plain_of_writes hwrites (fun _ => plain_of_mem_layout) fun name g hmem hg => ?_
    have hfield := (mem_operands_of_layout h).1 hmem
    rw [h.expressions name g hfield hg]
    exact (h.names name hfield).plain
  have hpieces : p.map Piece.spelling
      = f.layout.map (Mark.spelling ∘ Mark.map (Operand.bind s.bindings)) := by
    refine Scope.map_eq_map_of_writes hwrites fun m hm piece hpiece => ?_
    cases m with
    | verbatim text =>
      cases hpiece
      rfl
    | operand o => exact (h.spelled ((mem_operands_of_layout h).1 hm) hpiece).2
  rw [fillIn, String.toList_ofList, Fragment.fill_sql hplain, Filter.bind, layout_mapOperands, spell,
    List.flatMap_map, List.flatMap, hpieces]
  rfl

theorem spelled_of_write (h : f.ReadsBack s) (hwrite : f.write s depth = .ok p) {o : Operand}
    (ho : o ∈ (f.bind s.bindings).operands) : Spelled o := by
  rw [Filter.bind, operands_mapOperands] at ho
  obtain ⟨written, hmem, rfl⟩ := List.mem_map.1 ho
  obtain ⟨piece, hpiece⟩ := Scope.exists_writes_of_mem (writes_layout_of_write hwrite)
    ((mem_operands_of_layout h).2 hmem)
  exact (h.spelled hmem hpiece).1

/-- **Reading undoes writing.** Where a filter is written and its values are filled in for the
question marks, the text is read as the filter that was written, with the value of each parameter in
its place, provided that the text nests no deeper than texts may. -/
theorem parse_fillIn_of_write (h : f.ReadsBack s) (hwrite : f.write s depth = .ok p)
    (hnest : NestsWithin 64 (fillIn p.sql p.params)) :
    parse (fillIn p.sql p.params) = .ok (f.bind s.bindings) := by
  have hlists : (f.bind s.bindings).hasEmptyList = false := by
    rw [Filter.bind, hasEmptyList_mapOperands]
    exact h.lists
  -- the tokens derive the tree, with a nesting that the hypothesis bounds
  obtain ⟨ts, n, hscans, hderives⟩ :=
    (spells_layout hlists fun _ => spelled_of_write h hwrite).disjunction
  obtain ⟨lexemes, hlex, rfl⟩ := hscans.cuts
  rw [← fillIn_of_write h hwrite] at hlex
  exact (parse_eq_ok_iff_ofTokens hlex).2
    (ofTokens_eq_ok_iff.2 ⟨n, hnest lexemes n _ hlex hderives, hderives⟩)

/-- Groups on both sides, the least integer, and values that are made of quotes and question marks. -/
theorem parse_fillIn_of_write_quotes :
    let s : Scope :=
      { fields := [⟨"name", "name", .string⟩, ⟨"c.age", "c.age", .int⟩, ⟨"größe", "größe", .int⟩]
        bindings := (Bindings.empty.insert "n" (.text "'?'")).insert "flag" (.boolean false) }
    let f : Filter :=
      .and
        (.or (.compare (.field "name") .eq (.literal (.text "O'Hara?")))
          (.not (.isIn (.field "c.age")
            [.literal (.integer (-9223372036854775808)), .param "n", .literal .null] true)))
        (.and (.isNull (.field "größe") true)
          (.compare (.param "flag") .notLike (.literal (.text ""))))
    let text := "(name = 'O''Hara?' OR NOT (c.age NOT IN (-9223372036854775808, '''?''', NULL)))"
      ++ " AND (größe IS NOT NULL AND false NOT LIKE '')"
    f.ReadsBack s ∧ ∃ p, f.write s 0 = .ok p ∧ fillIn p.sql p.params = text
      ∧ NestsWithin 64 (fillIn p.sql p.params)
      ∧ parse (fillIn p.sql p.params) = .ok (f.bind s.bindings) := by
  intro s f text
  have hreads : f.ReadsBack s := by
    have hvalues : ∀ o ∈ f.operands, ((o.value? s.bindings).all fun v => !v.isFloat) = true := by
      decide
    have hnames : ∀ name, .field name ∈ f.operands →
        name = "name" ∨ name = "c.age" ∨ name = "größe" := by
      intro name hname
      simpa [f, operands] using hname
    refine ⟨rfl, fun o ho v hv => ?_, fun name hname => ?_, fun name g hname hg => ?_⟩
    · have hv' := hvalues o ho
      rw [hv] at hv'
      simpa using hv'
    · rcases hnames name hname with rfl | rfl | rfl
      · exact ⟨by decide +kernel, by decide⟩
      · exact ⟨by decide +kernel, by decide⟩
      · exact ⟨by decide +kernel, by decide⟩
    · rcases hnames name hname with rfl | rfl | rfl
      · cases hg
        rfl
      · cases hg
        rfl
      · cases hg
        rfl
  obtain ⟨p, hwrite, hfill⟩ : ∃ p, f.write s 0 = .ok p ∧ fillIn p.sql p.params = text :=
    ⟨_, rfl, by decide +kernel⟩
  have hnest : NestsWithin 64 (fillIn p.sql p.params) := by
    intro lexemes n g hlex hderives
    have hlength : (lex text.toList).map List.length = .ok 31 := by decide +kernel
    rw [← hfill, hlex] at hlength
    have hlt := hderives.nesting_lt_length
    rw [List.length_map, Except.ok.inj hlength] at hlt
    omega
  exact ⟨hreads, p, hwrite, hfill, hnest, parse_fillIn_of_write hreads hwrite hnest⟩

end Filter

end QueryTemplate
