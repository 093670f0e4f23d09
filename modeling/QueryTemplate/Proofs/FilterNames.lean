import QueryTemplate.Proofs.Acceptance
import QueryTemplate.Proofs.ColumnNames
import QueryTemplate.Proofs.Embedding

/-!
# Fields in filters

A template and a filter have lexers of their own, and what a word is they do not agree on: words of templates may
have number, at and dollar signs (`isSigil`), and a filter has no token with one. On all other characters of words
they agree, so a field whose alias was written without quotes can be named in a filter exactly if its name has no
such sign.

* **`isWordChar_of_isWordPart`**, **`startsWord_of_isWordStart`**: the two classes are the same but for the signs.
* **`isWord_of_mem_lex`**: an identifier of a template without quotes is a word, and so is each front of it.
* **`isName_of_isWord`**: a word without signs is a name in filters; **`parse_of_sigil`**: one with a sign is
  refused at the first.
* **`filterable_iff`**: which fields of a template can be named.
-/

namespace QueryTemplate

namespace Sql

/-! ## Words of templates -/

/-- The signs that words of templates may have and words of filters may not. -/
def isSigil (c : Char) : Bool :=
  c = '#' || c = '@' || c = '$'

theorem eq_of_isSigil {c : Char} (h : isSigil c = true) : c = '#' ∨ c = '@' ∨ c = '$' := by
  simpa [isSigil, or_assoc] using h

/-- **Words go on in the same way**, but for the signs. -/
theorem isWordChar_of_isWordPart {c : Char} (h : isWordPart c = true) : Filter.isWordChar c = !isSigil c := by
  cases hc : isSigil c with
  | true => rcases eq_of_isSigil hc with rfl | rfl | rfl <;> rfl
  | false =>
    simp only [isSigil, Bool.or_eq_false_iff] at hc
    obtain ⟨⟨hhash, hat⟩, hdollar⟩ := hc
    simp only [isWordPart, hhash, hat, hdollar, Bool.or_false, Bool.or_eq_true] at h
    simp only [Filter.isWordChar, Text.isAlphanumeric, Text.isNumeric, Bool.not_false, Bool.or_eq_true]
    rcases h with (hletter | hdigit) | hunderscore
    · exact .inl (.inl (.inl hletter))
    · exact .inl (.inl (.inr (.inl hdigit)))
    · exact .inl (.inr hunderscore)

/-- **Words start in the same way**, but for the signs. -/
theorem startsWord_of_isWordStart {c : Char} (h : isWordStart c = true) (hc : isSigil c = false) :
    Filter.StartsWord c := by
  have hother := not_mem_otherStarts h
  have hblank : Text.isBlank c = false := Bool.eq_false_iff.2 fun hb => hother (mem_otherStarts_of_isBlank hb)
  have hdigit : ¬ c.isDigit = true := fun hd => hother (mem_otherStarts_of_isDigit hd)
  have hletter : (Text.isAlphabetic c || decide (c = '_')) = true := by
    simp only [isSigil, Bool.or_eq_false_iff] at hc
    simpa only [isWordStart, hc.1.1, hc.1.2, Bool.or_false] using h
  refine ⟨hblank, fun cs => ?_⟩
  rw [Filter.readToken_of_not_mem_signs (Filter.not_mem_signs (by decide) h), if_neg hdigit, if_pos hletter]

/-- A plain word, or whatever starts with a number or an at sign: the lexer takes the character after such a sign
as it is. -/
def IsWord (word : List Char) : Prop :=
  IsPlainWord word ∨ ∃ c cs, word = c :: cs ∧ (c = '@' ∨ c = '#')

theorem IsWord.of_isPrefix {word front : List Char} (h : IsWord word) (hfront : front <+: word) (hne : front ≠ []) :
    IsWord front := by
  refine h.imp (·.of_isPrefix hfront hne) ?_
  rintro ⟨c, cs, rfl, hc⟩
  obtain ⟨d, ds, rfl⟩ := List.exists_cons_of_ne_nil hne
  obtain ⟨rfl, -⟩ := List.cons_prefix_cons.1 hfront
  exact ⟨d, ds, rfl, hc⟩

/-- No word starts with a quote mark. -/
theorem IsWord.head? {word : List Char} (h : IsWord word) : ∀ c ∈ word.head?, Alias.isQuoteMark c = false := by
  obtain ⟨c, cs, rfl, hstart, -⟩ | ⟨c, cs, rfl, rfl | rfl⟩ := h <;> rintro _ ⟨⟩
  · exact isQuoteMark_of_isWordStart hstart
  · rfl
  · rfl

/-- **An identifier without quotes is a word.** -/
theorem isWord_of_mem_lex {cs : List Char} {ts : List Token} (h : lex cs = some ts) {t : Token} (ht : t ∈ ts)
    {word : String} (hword : t.ident? = some ⟨word, none⟩) : IsWord word.toList := by
  obtain ⟨c, ds, rest, -, hread⟩ := exists_readToken_of_mem_lex h ht
  have hrest := (readToken_append hread).1.length_le
  rcases cases_of_ident hread hword with ⟨hquote, -⟩ | ⟨hstart, hunmarked, hfrom⟩
  · cases hquote
  rw [hfrom ds hunmarked] at hread
  have hread := Option.some.inj hread
  by_cases hc : c = '@' ∨ c = '#'
  · -- something is taken off the text, and that is where it starts
    have hspelled := (readWordFrom_eq hread hword).2
    cases hchars : word.toList with
    | nil =>
      rw [hchars] at hspelled
      rw [← show c :: ds = rest from hspelled, List.length_cons] at hrest
      omega
    | cons d es =>
      rw [hchars] at hspelled
      exact .inr ⟨d, es, rfl, (List.cons.inj hspelled).1 ▸ hc⟩
  · obtain ⟨hat, hhash⟩ := not_or.1 hc
    rw [readWordFrom, if_neg hat, if_neg hhash] at hread
    cases hread
    cases hword
    rw [String.toList_ofList]
    exact .inl ⟨c, _, rfl, hstart, hat, hhash, fun d hd => List.mem_takeWhile_imp hd⟩

/-- A word up to its first sign is one in filters as well. -/
theorem IsWord.front {c : Char} {front rest : List Char} (h : IsWord (c :: (front ++ rest)))
    (hplain : ∀ d ∈ c :: front, isSigil d = false) :
    Filter.StartsWord c ∧ ∀ d ∈ front, Filter.isWordChar d = true := by
  obtain ⟨hc, hfront⟩ := List.forall_mem_cons.1 hplain
  obtain ⟨_, _, hword, hstart, -, -, hparts⟩ | ⟨_, _, hword, hsign⟩ := h
  · obtain ⟨rfl, rfl⟩ := List.cons.inj hword
    refine ⟨startsWord_of_isWordStart hstart hc, fun d hd => ?_⟩
    rw [isWordChar_of_isWordPart (hparts d (List.mem_append_left _ hd)), hfront d hd]
    rfl
  · obtain ⟨rfl, -⟩ := List.cons.inj hword
    rcases hsign with rfl | rfl <;> cases hc

end Sql

open QueryTemplate.Sql

/-! ## Words in filters -/

namespace Filter

/-- No token of a filter starts with a sign, and none goes on with one. -/
theorem lex_sigil {c : Char} (hc : isSigil c = true) (rest : List Char) :
    lex (c :: rest) = .error (.unexpectedCharacter c, c :: rest) := by
  rcases eq_of_isSigil hc with rfl | rfl | rfl
  all_goals
    rw [lex_cons_of_not_blank rfl]
    rfl

/-- **A word without signs is a name**, unless it is a keyword. -/
theorem isName_of_isWord {name : String} (h : IsWord name.toList) (hplain : ∀ c ∈ name.toList, isSigil c = false)
    (hkeyword : Keyword.ofWord? name = none) : IsName name := by
  refine ⟨?_, hkeyword⟩
  cases hname : name.toList with
  | nil =>
    rw [hname] at h
    obtain ⟨_, _, hnil, -⟩ | ⟨_, _, hnil, -⟩ := h <;> cases hnil
  | cons c cs =>
    rw [hname] at h hplain
    rw [← List.append_nil cs] at h
    obtain ⟨hstart, hcs⟩ := h.front hplain
    have hspan : cs.takeWhile isWordChar = cs ∧ cs.dropWhile isWordChar = [] :=
      ⟨List.takeWhile_eq_self_iff.2 hcs, List.dropWhile_eq_nil_iff.2 hcs⟩
    rw [lex_cons_of_not_blank hstart.1, hstart.2, hspan.1, hspan.2, ← hname, String.ofList_toList]
    dsimp only
    rw [lex]
    rfl

/-- **A word with a sign is refused at the first**, whatever stands behind it. -/
theorem lex_of_sigil {front back : List Char} {c : Char} (h : IsWord (front ++ c :: back))
    (hfront : ∀ d ∈ front, isSigil d = false) (hc : isSigil c = true) (more : List Char) :
    lex (front ++ c :: back ++ more) = .error (.unexpectedCharacter c, c :: back ++ more) := by
  cases front with
  | nil => exact lex_sigil hc _
  | cons d front =>
    obtain ⟨hstart, hparts⟩ := h.front hfront
    have hstop : ¬ isWordChar c = true := by rcases eq_of_isSigil hc with rfl | rfl | rfl <;> decide
    -- the characters in front of the sign are a token, and the sign is where the next would start
    rw [List.cons_append, List.cons_append, List.append_assoc, List.cons_append, lex_cons_of_not_blank hstart.1,
      hstart.2, List.dropWhile_append_of_pos hparts, List.dropWhile_cons_of_neg hstop]
    dsimp only
    rw [lex_sigil hc]
    rfl

theorem parse_of_sigil {name : String} {front back : List Char} {c : Char} (h : IsWord name.toList)
    (hname : name.toList = front ++ c :: back) (hfront : ∀ d ∈ front, isSigil d = false) (hc : isSigil c = true)
    (more : String) : parse (name ++ more)
      = .error ⟨Text.byteLength front, String.ofList (c :: back) ++ more, .unexpectedCharacter c⟩ := by
  have hlex : lex (name ++ more).toList = .error (.unexpectedCharacter c, c :: back ++ more.toList) := by
    rw [String.toList_append, hname]
    exact lex_of_sigil (hname ▸ h) hfront hc _
  have hrest : String.ofList (c :: back ++ more.toList) = String.ofList (c :: back) ++ more := by
    rw [String.ofList_append, String.ofList_toList]
  rw [parse, read, hlex, ← hrest]
  dsimp only [faultAt]
  rw [String.toList_append, hname, List.append_assoc, Text.byteLength_append, Nat.add_sub_cancel]

/-- A name can be tested for null. -/
theorem parse_isNull {name : String} (h : IsName name) :
    parse (name ++ " IS NULL") = .ok (.isNull (.field name) false) := by
  have hcuts := ((scans_name h).separate separates_is scans_null).cuts
  have htext : (name ++ " IS NULL").toList = name.toList ++ (" IS ".toList ++ "NULL".toList) := by
    rw [String.toList_append]
    rfl
  have hpredicate : IsPredicate [.word name, .word "IS", .word "NULL"] (.isNull (.field name) false) :=
    .isNull (.field h.not_keyword) rfl rfl
  exact parse_eq_ok_iff_cuts.2
    ⟨_, htext ▸ hcuts, 0, Nat.zero_le _, .conjunction (.unary (.predicate hpredicate))⟩

end Filter

/-! ## Fields -/

namespace Field

/-- The field can be named in filters: a test of its name for null is read, and written with its expression. -/
structure Filterable (fields : List Field) (f : Field) : Prop where
  parsed : Filter.parse (f.name ++ " IS NULL") = .ok (.isNull (.field f.name) false)
  compiled : ∀ bindings,
    compileFilter fields (f.name ++ " IS NULL") bindings = .ok ⟨f.expression ++ " IS NULL", []⟩

/-- A test of the name for null is refused with the error. -/
structure Unfilterable (fields : List Field) (f : Field) (e : TextError) : Prop where
  parsed : Filter.parse (f.name ++ " IS NULL") = .error e
  compiled : ∀ bindings, compileFilter fields (f.name ++ " IS NULL") bindings = .error (.text e)

variable {fields : List Field} {f : Field}

/-- A field whose name is read is found by it, and its expression is written. -/
theorem filterable_of_parse (hfound : find? fields f.name = some f)
    (h : Filter.parse (f.name ++ " IS NULL") = .ok (.isNull (.field f.name) false)) : f.Filterable fields := by
  refine ⟨h, fun bindings => ?_⟩
  have htree : Condition.tree (.text (f.name ++ " IS NULL")) = .ok (.isNull (.field f.name) false) := by
    rw [Condition.tree, h]
  have hoperand : Scope.operand ⟨fields, bindings⟩ (.field f.name) = .ok [.sql f.expression] :=
    Except.map_eq_ok_iff.2 ⟨f, resolve_eq_ok_iff.2 hfound, rfl⟩
  have hwrite : (Filter.isNull (.field f.name) false).write ⟨fields, bindings⟩ 0
      = .ok [.sql f.expression, .sql " IS NULL"] := by
    rw [Filter.write, if_neg (by decide), hoperand]
    rfl
  refine Except.bind_eq_ok_iff.2 ⟨_, htree, Except.bind_eq_ok_iff.2 ⟨_, hwrite, ?_⟩⟩
  simp [Fragment.sql, Fragment.params]

theorem unfilterable_of_parse {e : TextError} (h : Filter.parse (f.name ++ " IS NULL") = .error e) :
    f.Unfilterable fields e := by
  refine ⟨h, fun bindings => ?_⟩
  rw [compileFilter, Condition.tree, h]
  rfl

end Field

/-- The name that a word without quotes gives a field is a word as well. -/
theorem Sql.SelectItem.Gives.isWord {item : SelectItem} {f : Field} (h : item.Gives f) (hname : f.name ≠ "")
    {word : String} (hlabel : item.label = some ⟨word, none⟩) (hword : IsWord word.toList) :
    IsWord f.name.toList := by
  obtain ⟨_, hsome, hdecode⟩ := h.decoded
  cases hlabel.symm.trans hsome
  exact hword.of_isPrefix (Alias.name_prefix_of_decode hdecode hword.head?) (mt String.toList_eq_nil_iff.1 hname)

/-- The select list, of what is a selection. -/
def Sql.Body.items : Body → List SelectItem
  | .select s => s.items
  | _ => []

def Sql.Statement.items : Statement → List SelectItem
  | .query q => q.body.items
  | .other _ => []

/-- A reader of templates that takes no label without quotes but a word. -/
def Sql.ReadsWords (read : String → Option (List Statement)) : Prop :=
  ∀ template statements, read template = some statements → ∀ statement ∈ statements,
    ∀ item ∈ statement.items, ∀ word, item.label = some ⟨word, none⟩ → IsWord word.toList

theorem Sql.readsWords_statements : ReadsWords statements? := by
  intro template statements h statement hstatement item hitem word hlabel
  obtain ⟨ts, hts, hread⟩ := exists_tokens_of_statements? h
  have hitems := itemsOf_of_statementsOf hread statement hstatement
  cases statement with
  | other text => cases hitem
  | query q =>
    rw [Statement.items] at hitem
    rw [Statement.ItemsOf] at hitems
    cases hbody : q.body with
    | select s =>
      rw [hbody] at hitem hitems
      obtain ⟨t, ht, hident⟩ := hitems.2 item hitem _ hlabel
      exact isWord_of_mem_lex hts ht hident
    | _ =>
      rw [hbody] at hitem
      cases hitem

/-- **Which fields can be named in filters.** A field of a template whose alias was written without quotes, and
whose name is no keyword of filters, can be named exactly if no character of its name is a number, an at or a
dollar sign. Otherwise a filter with its name is refused for the first of these. Of what reads the template only
the words of its labels matter. -/
theorem filterable_iff {read : String → Option (List Statement)} (hread : ReadsWords read) {template : String}
    {d : Definition} (hd : Definition.ofSqlWith read template = .ok d) :
    ∃ statement, read template = some [statement]
      ∧ List.Forall₂ SelectItem.Gives statement.items d.fields
      ∧ ∀ item ∈ statement.items, ∀ f ∈ d.fields, item.Gives f → ∀ word, item.label = some ⟨word, none⟩ →
          Filter.Keyword.ofWord? f.name = none →
        (f.Filterable d.fields ↔ ∀ c ∈ f.name.toList, isSigil c = false)
        ∧ ∀ front c back, f.name.toList = front ++ c :: back → (∀ a ∈ front, isSigil a = false) →
          isSigil c = true → f.Unfilterable d.fields
            ⟨Text.byteLength front, String.ofList (c :: back) ++ " IS NULL", .unexpectedCharacter c⟩ := by
  obtain ⟨statements, hstatements, hd⟩ := Definition.ofSqlWith_eq_ok_iff.1 hd
  obtain ⟨q, s, rfl, -, hbody, hdeclares⟩ := Definition.exists_select_of_ofStatements hd
  have hitems : Statement.items (.query q) = s.items := by
    rw [Statement.items, hbody, Body.items]
  have hgives : List.Forall₂ SelectItem.Gives s.items d.fields :=
    (Except.mapM_eq_ok_iff.1 hdeclares.fields).imp fun _ _ => Field.ofItem_eq_ok_iff.1
  refine ⟨.query q, hstatements, hitems ▸ hgives, fun item hitem f hf hgive word hlabel hkeyword => ?_⟩
  have hword := hgive.isWord (d.named f hf) hlabel
    (hread _ _ hstatements _ List.mem_cons_self item hitem word hlabel)
  have hrefused (front : List Char) (c : Char) (back : List Char) (hname : f.name.toList = front ++ c :: back)
      (hfront : ∀ a ∈ front, isSigil a = false) (hc : isSigil c = true) : f.Unfilterable d.fields
        ⟨Text.byteLength front, String.ofList (c :: back) ++ " IS NULL", .unexpectedCharacter c⟩ :=
    Field.unfilterable_of_parse (Filter.parse_of_sigil hword hname hfront hc _)
  refine ⟨⟨fun h => ?_, fun hplain => ?_⟩, hrefused⟩
  · cases hfirst : f.name.toList.find? isSigil with
    | none => simpa using hfirst
    | some c =>
      -- the first sign would be in the way
      obtain ⟨hc, front, back, hname, hfront⟩ := List.find?_eq_some_iff_append.1 hfirst
      have herror := (hrefused front c back hname (by simpa using hfront) hc).parsed
      cases h.parsed.symm.trans herror
  · have hname := Filter.isName_of_isWord hword hplain hkeyword
    exact Field.filterable_of_parse (Definition.field?_eq_some_iff.2 ⟨hf, rfl⟩) (Filter.parse_isNull hname)

/-- A name with an underscore, which can be named, and one with a dollar sign, which cannot. -/
theorem filterable_iff_price :
    let template := "SELECT p.full_name AS full_name_string, p.price AS price$_int FROM people p"
    ∃ d, ReadsWords statements? ∧ Definition.ofSqlWith statements? template = .ok d
      ∧ d.fields = [⟨"p.full_name", "full_name", .string⟩, ⟨"p.price", "price$", .int⟩]
      ∧ Field.Filterable d.fields ⟨"p.full_name", "full_name", .string⟩
      ∧ Field.Unfilterable d.fields ⟨"p.price", "price$", .int⟩ ⟨5, "$ IS NULL", .unexpectedCharacter '$'⟩ := by
  intro template
  have hread : (Definition.ofSql template).map Definition.fields = .ok
      [⟨"p.full_name", "full_name", .string⟩, ⟨"p.price", "price$", .int⟩] := by
    decide +kernel
  have hlabels : (statements? template).map (List.map Statement.items) = some
      [[⟨"p.full_name", some ⟨"full_name_string", none⟩⟩, ⟨"p.price", some ⟨"price$_int", none⟩⟩]] := by
    decide +kernel
  obtain ⟨d, hd, hfields⟩ := Except.map_eq_ok_iff.1 hread
  obtain ⟨statement, hstatement, hgives, hall⟩ := filterable_iff readsWords_statements hd
  rw [hstatement, Option.map_some, List.map_singleton, Option.some.injEq, List.singleton_inj] at hlabels
  rw [hlabels] at hgives hall
  refine ⟨d, readsWords_statements, hd, hfields, ?_⟩
  rw [hfields] at hgives hall ⊢
  obtain ⟨hname, hgives⟩ := List.forall₂_cons.1 hgives
  obtain ⟨hprice, -⟩ := List.forall₂_cons.1 hgives
  constructor
  · exact (hall _ (by simp) _ (by simp) hname _ rfl (by decide +kernel)).1.2 (by decide)
  · exact (hall _ (by simp) _ (by simp) hprice _ rfl (by decide +kernel)).2 "price".toList '$' [] (by decide)
      (by decide) rfl

/-- A field that has an alias without quotes and no keyword for a name. It can be asked for, and a test of it for
null is refused. -/
theorem sigil_refused_in_filter :
    let template := "SELECT p.price AS price$_int FROM p"
    ∃ d, Definition.ofSql template = .ok d ∧ d.fields = [⟨"p.price", "price$", .int⟩]
      ∧ (statements? template).map (List.map Statement.items) = some [[⟨"p.price", some ⟨"price$_int", none⟩⟩]]
      ∧ Filter.Keyword.ofWord? "price$" = none
      ∧ Filter.parse "price$ IS NULL" = .error ⟨5, "$ IS NULL", .unexpectedCharacter '$'⟩
      ∧ compileFilter d.fields "price$ IS NULL" .empty = .error (.text ⟨5, "$ IS NULL", .unexpectedCharacter '$'⟩)
      ∧ d.compile { columns := ["price$"] } = .ok ⟨"SELECT p.price AS price$\nFROM p\nLIMIT 50 OFFSET 0", []⟩ := by
  intro template
  have hread : (Definition.ofSql template).map (fun d => (d.fields, d.compile { columns := ["price$"] })) = .ok
      ([⟨"p.price", "price$", .int⟩], .ok ⟨"SELECT p.price AS price$\nFROM p\nLIMIT 50 OFFSET 0", []⟩) := by
    decide +kernel
  obtain ⟨d, hd, hread⟩ := Except.map_eq_ok_iff.1 hread
  obtain ⟨hfields, hcompile⟩ := Prod.mk.inj hread
  have hparse : Filter.parse "price$ IS NULL" = .error ⟨5, "$ IS NULL", .unexpectedCharacter '$'⟩ := by
    decide +kernel
  refine ⟨d, hd, hfields, by decide +kernel, by decide +kernel, hparse, ?_, hcompile⟩
  rw [compileFilter, Condition.tree, hparse]
  rfl

end QueryTemplate
