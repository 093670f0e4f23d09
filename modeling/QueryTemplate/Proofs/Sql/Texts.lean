import QueryTemplate.Proofs.Placeholders
import QueryTemplate.Proofs.Sql.Lexing
import QueryTemplate.Proofs.Sql.Reader
import QueryTemplate.Sql.Statement

/-!
# Readers invent no placeholders

What a reader gives is put together from the texts of the tokens that it takes and from words of the
grammar. None of those words holds a question mark, so where no token holds one (`Clean`), no text that
is read does, and neither do the tokens that are left. `Reader.KeepsClean` says so of a reader, and the
readers that all rules are made of have it.
-/

namespace QueryTemplate.Sql

/-! ## The texts of a value -/

/-- The texts that a value is made of. -/
class Texts (α : Type) where
  texts : α → List String

open Texts

instance : Texts String := ⟨fun s => [s]⟩

instance : Texts Unit := ⟨fun _ => []⟩

instance : Texts Bool := ⟨fun _ => []⟩

instance : Texts Keyword := ⟨fun _ => []⟩

instance : Texts SetOperator := ⟨fun _ => []⟩

instance {α : Type} [Texts α] : Texts (List α) := ⟨fun xs => xs.flatMap texts⟩

instance {α : Type} [Texts α] : Texts (Option α) := ⟨fun x => x.toList.flatMap texts⟩

instance {α β : Type} [Texts α] [Texts β] : Texts (α × β) := ⟨fun x => texts x.1 ++ texts x.2⟩

instance : Texts Ident := ⟨fun name => name.text :: name.quote.toList.map Char.toString⟩

instance : Texts Token where
  texts
    | .word name _ => texts name
    | .number digits _ => [digits]
    | .text s => [s]
    | .placeholder s => [s]
    | .symbol _ => []
    | .otherLiteral => []
    | .otherOperator => []

instance : Texts Table := ⟨fun t => t.text :: texts t.label⟩

instance : Texts SelectItem := ⟨fun item => item.expression :: texts item.label⟩

instance : Texts Source := ⟨fun s => s.table :: s.joins⟩

instance : Texts Select where
  texts s := texts s.distinct ++ texts s.top ++ texts s.items ++ texts s.sources ++ texts s.condition
    ++ texts s.grouping ++ texts s.having

def Body.texts : Body → List String
  | .select s => Texts.texts s
  | .query text => [text]
  | .values text => [text]
  | .combine _ multiplicity left right => Texts.texts multiplicity ++ left.texts ++ right.texts

instance : Texts Body := ⟨Body.texts⟩

instance : Texts Page := ⟨fun p => texts p.limit ++ texts p.offset⟩

instance : Texts Query where
  texts q := texts q.tables ++ texts q.body ++ q.order ++ q.pages

instance : Texts Statement where
  texts
    | .query q => texts q
    | .other text => [text]

/-- No text of the value holds a question mark. -/
def Clean {α : Type} [Texts α] (a : α) : Prop :=
  ∀ t ∈ texts a, Plain t

instance {α : Type} [Texts α] (a : α) : Decidable (Clean a) :=
  inferInstanceAs (Decidable (∀ t ∈ texts a, Plain t))

section Clean

variable {α β : Type} [Texts α] [Texts β]

@[simp] theorem clean_string {s : String} : Clean s ↔ Plain s :=
  List.forall_mem_singleton

@[simp] theorem clean_nil : Clean ([] : List α) := by
  intro t ht
  cases ht

@[simp] theorem clean_cons {a : α} {as : List α} : Clean (a :: as) ↔ Clean a ∧ Clean as := by
  show (∀ t ∈ texts a ++ as.flatMap texts, Plain t) ↔ _
  exact List.forall_mem_append

theorem clean_list {as : List α} : Clean as ↔ ∀ a ∈ as, Clean a := by
  induction as with
  | nil => simp
  | cons a as ih => simp [ih]

theorem clean_strings {parts : List String} : Clean parts ↔ ∀ t ∈ parts, Plain t := by
  simp only [clean_list, clean_string]

@[simp] theorem clean_append {as bs : List α} : Clean (as ++ bs) ↔ Clean as ∧ Clean bs := by
  simp only [clean_list, List.forall_mem_append]

@[simp] theorem clean_none : Clean (none : Option α) := by
  intro t ht
  cases ht

@[simp] theorem clean_some {a : α} : Clean (some a) ↔ Clean a := by
  show (∀ t ∈ texts a ++ [], Plain t) ↔ _
  rw [List.append_nil]
  rfl

@[simp] theorem clean_toList {x : Option α} : Clean x.toList ↔ Clean x :=
  Iff.rfl

@[simp] theorem clean_pair {a : α} {b : β} : Clean (a, b) ↔ Clean a ∧ Clean b :=
  List.forall_mem_append

theorem Clean.map {f : α → β} (hf : ∀ a, Clean a → Clean (f a)) {as : List α} (h : Clean as) :
    Clean (as.map f) :=
  clean_list.2 (List.forall_mem_map.2 fun a ha => hf a (clean_list.1 h a ha))

theorem Clean.optionMap {f : α → β} (hf : ∀ a, Clean a → Clean (f a)) {x : Option α} (h : Clean x) :
    Clean (x.map f) := by
  cases x with
  | none => exact clean_none
  | some a => exact clean_some.2 (hf a (clean_some.1 h))

theorem Clean.ite {p : Prop} [Decidable p] {a b : α} (ha : Clean a) (hb : Clean b) :
    Clean (if p then a else b) := by
  split
  · exact ha
  · exact hb

theorem Clean.tail {as : List α} (h : Clean as) : Clean as.tail :=
  clean_list.2 fun a ha => clean_list.1 h a (List.mem_of_mem_tail ha)

end Clean

theorem clean_ident {text : String} {quote : Option Char} :
    Clean (⟨text, quote⟩ : Ident) ↔ Plain text ∧ ∀ c ∈ quote, Plain c.toString := by
  show (∀ t ∈ text :: quote.toList.map Char.toString, Plain t) ↔ _
  simp

theorem clean_quoted {text : String} {quote : Char} (htext : Plain text) (hquote : Plain quote.toString) :
    Clean (⟨text, some quote⟩ : Ident) := by
  refine clean_ident.2 ⟨htext, fun c hc => ?_⟩
  cases hc
  exact hquote

theorem clean_table {t : Table} : Clean t ↔ Plain t.text ∧ Clean t.label :=
  List.forall_mem_cons

theorem clean_item {item : SelectItem} : Clean item ↔ Plain item.expression ∧ Clean item.label :=
  List.forall_mem_cons

theorem clean_source {s : Source} : Clean s ↔ Plain s.table ∧ ∀ join ∈ s.joins, Plain join :=
  List.forall_mem_cons

theorem clean_select {s : Select} :
    Clean s ↔ Clean s.distinct ∧ Clean s.top ∧ Clean s.items ∧ Clean s.sources ∧ Clean s.condition
      ∧ Clean s.grouping ∧ Clean s.having := by
  simp only [Clean, texts, List.forall_mem_append, and_assoc]

theorem clean_combine {op : SetOperator} {multiplicity : Option String} {left right : Body} :
    Clean (Body.combine op multiplicity left right)
      ↔ Clean multiplicity ∧ Clean left ∧ Clean right := by
  simp only [Clean, texts, Body.texts, List.forall_mem_append, and_assoc]

theorem clean_page {p : Page} : Clean p ↔ Clean p.limit ∧ Clean p.offset :=
  List.forall_mem_append

theorem clean_query {q : Query} :
    Clean q ↔ Clean q.tables ∧ Clean q.body ∧ (∀ t ∈ q.order, Plain t) ∧ ∀ t ∈ q.pages, Plain t := by
  simp only [Clean, texts, List.forall_mem_append, and_assoc]

/-! ## Normal forms -/

theorem plain_iff_placeholders {text : String} : Plain text ↔ placeholders text = 0 :=
  List.count_eq_zero.symm

@[simp] theorem plain_append_iff {s t : String} : Plain (s ++ t) ↔ Plain s ∧ Plain t := by
  rw [plain_iff_placeholders, placeholders_append, Nat.add_eq_zero_iff, ← plain_iff_placeholders,
    ← plain_iff_placeholders]

theorem plain_intercalate_iff {sep : String} (hsep : Plain sep) {parts : List String} :
    Plain (sep.intercalate parts) ↔ Clean parts := by
  rw [plain_iff_placeholders, placeholders_intercalate hsep, placeholdersIn_eq_zero_iff,
    clean_strings]

@[simp] theorem plain_spaced {parts : List String} : Plain (spaced parts) ↔ Clean parts :=
  plain_intercalate_iff (by decide)

@[simp] theorem plain_listed {parts : List String} : Plain (listed parts) ↔ Clean parts :=
  plain_intercalate_iff (by decide)

/-- The text of a list of parts, if there are any. -/
theorem clean_unless_empty {parts : List String} (h : Clean parts) :
    Clean (if parts.isEmpty then none else some (listed parts)) :=
  .ite clean_none (by simpa using h)

@[simp] theorem plain_parenthesized {text : String} : Plain (parenthesized text) ↔ Plain text := by
  simp +decide [parenthesized]

@[simp] theorem clean_clause {word : String} (hword : Plain word) {x : Option String} :
    Clean (clause word x) ↔ Clean x := by
  cases x <;> simp [clause, hword]

/-- Only quotes are written twice. -/
theorem mem_escaped {quote before c : Char} {cs : List Char} (h : c ∈ escaped quote before cs) :
    c = quote ∨ c ∈ cs := by
  fun_induction escaped quote before cs <;> simp_all <;> grind

theorem plain_quoted {quote : Char} (hquote : quote ≠ '?') {text : String} (h : Plain text) :
    Plain (quoted quote text) := by
  intro hmem
  rw [quoted, String.toList_ofList] at hmem
  simp only [List.cons_append, List.mem_cons, List.mem_append, List.not_mem_nil, or_false] at hmem
  rcases hmem with hmem | hmem | hmem
  · exact hquote hmem.symm
  · exact (mem_escaped hmem).elim (fun h => hquote h.symm) h
  · exact hquote hmem.symm

theorem plain_quoted_text {text : String} (h : Plain text) : Plain (quoted '\'' text) :=
  plain_quoted (by decide) h

theorem Clean.text {name : Ident} (h : Clean name) : Plain name.text :=
  h _ List.mem_cons_self

theorem Clean.written {name : Ident} (h : Clean name) : Plain name.written := by
  obtain ⟨text, quote⟩ := name
  cases quote with
  | none => exact h.text
  | some quote =>
    refine plain_quoted ?_ h.text
    rintro rfl
    exact absurd (h _ (List.mem_cons_of_mem _ List.mem_cons_self)) (by decide)

theorem Clean.writtenPath {path : List Ident} (h : Clean path) : Plain (writtenPath path) :=
  (plain_intercalate_iff (by decide)).2 (h.map fun _ hname => clean_string.2 hname.written)

theorem toUpper_ne {c : Char} (h : c ≠ '?') : c.toUpper ≠ '?' := by
  unfold Char.toUpper
  split
  · rename_i hrange
    intro heq
    have hlow : 97 ≤ c.toNat := UInt32.le_iff_toNat_le.1 hrange.1
    have hhigh : c.toNat ≤ 122 := UInt32.le_iff_toNat_le.1 hrange.2
    have hval : (c.toNat + 4294967264) % 4294967296 = 63 := by
      simpa using congrArg Char.toNat heq
    omega
  · exact h

theorem mem_capitals {c : Char} (h : '?' ∈ Keyword.capitals c) : c = '?' := by
  unfold Keyword.capitals at h
  split at h
  -- the letters that are listed one by one have letters for capitals
  all_goals try exact absurd h (by decide)
  by_contra hc
  exact toUpper_ne hc (List.mem_singleton.1 h).symm

theorem plain_inCapitals {word : String} (h : Plain word) : Plain (Keyword.inCapitals word) := by
  intro hmem
  rw [Keyword.inCapitals, String.toList_ofList] at hmem
  obtain ⟨c, hc, hcapitals⟩ := List.mem_flatMap.1 hmem
  exact h (mem_capitals hcapitals ▸ hc)

/-! ## The lexer -/

theorem plain_ofList {cs : List Char} : Plain (String.ofList cs) ↔ '?' ∉ cs := by
  rw [Plain, String.toList_ofList]

theorem readQuoted_subset {quote : Char} {cs s rest : List Char}
    (h : readQuoted quote cs = some (s, rest)) : s ⊆ cs := by
  fun_induction readQuoted quote cs generalizing s with
  | case1 => cases h
  | case2 c cs hc ih =>
    obtain ⟨⟨s', r⟩, hr, he⟩ := Option.map_eq_some_iff.1 h
    cases he
    exact List.cons_subset_cons c (ih hr)
  | case3 c hc =>
    cases h
    exact List.nil_subset _
  | case4 c hc rest' ih =>
    obtain ⟨⟨s', r⟩, hr, he⟩ := Option.map_eq_some_iff.1 h
    cases he
    exact List.cons_subset_cons c (List.Subset.trans (ih hr) (List.subset_cons_self _ _))
  | case5 c hc d rest' hd =>
    cases h
    exact List.nil_subset _

theorem clean_symbol (s : Symbol) : Clean (Token.symbol s) :=
  nofun

theorem clean_otherLiteral : Clean Token.otherLiteral :=
  nofun

theorem clean_otherOperator : Clean Token.otherOperator :=
  nofun

theorem clean_ofWord {word : List Char} (h : '?' ∉ word) : Clean (Token.ofWord word) :=
  clean_ident.2 ⟨plain_ofList.2 h, nofun⟩

theorem clean_readWord {start rest : List Char} (h : '?' ∉ start ++ rest) :
    Clean (readWord start rest).1 := by
  refine clean_ofWord fun hmem => h ?_
  rw [List.mem_append] at hmem ⊢
  exact hmem.imp_right fun hmem => (List.takeWhile_sublist _).mem hmem

/-- What is split off the front and what is left are the text. -/
theorem spanDecimal_append (cs : List Char) : (spanDecimal cs).1 ++ (spanDecimal cs).2 = cs := by
  have hcs := List.takeWhile_append_dropWhile (p := Char.isDigit) (l := cs)
  unfold spanDecimal
  split
  · rename_i rest heq
    rw [heq] at hcs
    rw [List.append_assoc, List.cons_append, List.takeWhile_append_dropWhile, hcs]
  · exact hcs

theorem spanExponent_append (cs : List Char) : (spanExponent cs).1 ++ (spanExponent cs).2 = cs := by
  fun_cases spanExponent cs
  case case2 e rest he sign digits hsign hdigits =>
    have hrest : sign ++ digits = rest := by
      split at hsign
      · split at hsign <;> cases hsign <;> rfl
      · cases hsign
        rfl
    rw [List.append_assoc, List.takeWhile_append_dropWhile, List.cons_append, hrest]
  all_goals rfl

theorem clean_readNumber {cs : List Char} (h : '?' ∉ cs) : Clean (readNumber cs).1 := by
  have hdecimal := spanDecimal_append cs
  have hexponent := spanExponent_append (spanDecimal cs).2
  have hspelling (long : Bool) : Clean
      (Token.number (String.ofList ((spanDecimal cs).1 ++ (spanExponent (spanDecimal cs).2).1)) long) := by
    refine clean_string.2 (plain_ofList.2 fun hmem => h ?_)
    rw [← hdecimal, ← hexponent, ← List.append_assoc]
    exact List.mem_append_left _ hmem
  unfold readNumber
  dsimp only
  split
  · exact clean_symbol .period
  split
  · exact clean_otherLiteral
  split
  · exact hspelling true
  · exact hspelling false

theorem clean_of_readAt {cs : List Char} (h : '?' ∉ cs) : Clean (readAt cs).1 := by
  fun_cases readAt cs
  case case4 | case7 => exact clean_readWord (by simp_all)
  all_goals exact clean_otherOperator

theorem clean_of_readHash {cs : List Char} (h : '?' ∉ cs) : Clean (readHash cs).1 := by
  fun_cases readHash cs
  case case4 => exact clean_readWord (by simp_all)
  all_goals exact clean_otherOperator

theorem clean_readSymbol (c : Char) (cs : List Char) : Clean (readSymbol c cs).1 := by
  rcases readSymbol_cases c cs with ⟨s, hs⟩ | hs
  · rw [hs]
    exact clean_symbol s
  · rw [hs]
    exact clean_otherOperator

theorem clean_of_readToken {c : Char} {cs rest : List Char} {t : Token}
    (h : readToken c cs = some (t, rest)) (hcs : '?' ∉ c :: cs) : Clean t := by
  have hplain {taken : List Char} (htaken : taken ⊆ c :: cs) : Plain (String.ofList taken) :=
    plain_ofList.2 fun hmem => hcs (htaken hmem)
  have hlater : '?' ∉ cs := fun hmem => hcs (List.mem_cons_of_mem c hmem)
  have htoken {p : Token × List Char} (hp : some p = some (t, rest)) (hclean : Clean p.1) : Clean t := by
    cases hp
    exact hclean
  revert h
  -- whatever the form of the token is, its text is taken from the front of the characters
  fun_cases readToken c cs <;> intro h
  case case1 =>
    obtain ⟨⟨s, r⟩, hr, he⟩ := Option.map_eq_some_iff.1 h
    cases he
    exact clean_string.2 (hplain (List.Subset.trans (readQuoted_subset hr) (List.subset_cons_self _ _)))
  case case2 hquote =>
    obtain ⟨⟨s, r⟩, hr, he⟩ := Option.map_eq_some_iff.1 h
    cases he
    have hname := hplain (List.Subset.trans (readQuoted_subset hr) (List.subset_cons_self _ _))
    exact clean_quoted hname (by rcases hquote with rfl | rfl <;> decide)
  case case3 => exact htoken h (clean_readNumber hcs)
  case case4 hmarked =>
    obtain ⟨_, _, _, -, -, hread⟩ := readMarked_eq hmarked
    rw [← List.append_nil cs, hread] at h
    obtain ⟨_, _, he⟩ := Option.map_eq_some_iff.1 h
    cases he
    exact clean_otherLiteral
  case case5 => exact htoken h (clean_of_readAt hlater)
  case case6 => exact htoken h (clean_of_readHash hlater)
  case case7 => cases h
  case case8 hdollar name _ =>
    refine htoken h (clean_string.2 (hplain ?_))
    exact hdollar ▸ List.cons_subset_cons _ (List.takeWhile_sublist _).subset
  case case9 hplaceholder => exact absurd (hplaceholder ▸ List.mem_cons_self) hcs
  case case10 => exact htoken h (clean_readWord hcs)
  case case11 => exact htoken h (clean_readSymbol c cs)

/-- **The lexer invents no question mark.** -/
theorem clean_of_lex {cs : List Char} {ts : List Token} (h : lex cs = some ts) (hcs : '?' ∉ cs) :
    Clean ts := by
  refine clean_list.2 fun t ht => ?_
  obtain ⟨c, ds, rest, hds, hread⟩ := exists_readToken_of_mem_lex h ht
  exact clean_of_readToken hread fun hmem => hcs (hds.subset hmem)

/-! ## Readers -/

namespace Reader

variable {α β : Type} [Texts α] [Texts β]

/-- From tokens without question marks the reader makes a value without them, and leaves such tokens. -/
def KeepsClean (r : Reader α) : Prop :=
  Ensures Clean Clean r

theorem keepsClean_fail : KeepsClean (fail : Reader α) :=
  .throw .malformed

theorem keepsClean_get : KeepsClean (get : Reader (List Token)) := by
  intro ts a rest hts hread
  cases hread
  exact ⟨hts, hts⟩

theorem keepsClean_set {ts : List Token} (h : Clean ts) : KeepsClean (set ts : Reader Unit) := by
  intro ts' a rest _ hread
  cases hread
  exact ⟨by decide, h⟩

theorem keepsClean_tail : KeepsClean (modify List.tail : Reader Unit) := by
  intro ts a rest hts hread
  cases hread
  exact ⟨by decide, hts.tail⟩

theorem keepsClean_take {f : Token → Option α} (hf : ∀ t a, Clean t → f t = some a → Clean a) :
    KeepsClean (take f) := by
  refine keepsClean_get.bind fun ts hts => ?_
  cases ts with
  | nil => exact keepsClean_fail
  | cons t ts =>
    obtain ⟨ht, hts⟩ := clean_cons.1 hts
    dsimp only
    cases ha : f t with
    | none => exact keepsClean_fail
    | some a => exact (keepsClean_set hts).bind fun _ _ => .pure (hf t a ht ha)

theorem KeepsClean.attempt {r : Reader α} (hr : KeepsClean r) : KeepsClean (attempt r) := by
  intro ts x rest hts hread
  unfold Reader.attempt at hread
  split at hread
  · rename_i a mid ha
    cases hread
    exact (hr ts a _ hts ha).imp_left clean_some.2
  · cases hread
    exact ⟨clean_none, hts⟩
  · cases hread

theorem KeepsClean.orElse {r s : Reader α} (hr : KeepsClean r) (hs : KeepsClean s) :
    KeepsClean (orElse r s) := by
  intro ts a rest hts hread
  unfold Reader.orElse at hread
  split at hread
  · rename_i x hx
    cases hread
    exact hr ts a rest hts hx
  · split at hread
    · rename_i x hx
      cases hread
      exact hs ts a rest hts hx
    · cases hread

theorem keepsClean_accept (s : Symbol) : KeepsClean (accept s) :=
  keepsClean_get.bind fun _ _ =>
    .ite (keepsClean_tail.bind fun _ _ => .pure (by decide)) (.pure (by decide))

theorem keepsClean_expect (s : Symbol) : KeepsClean (expect s) :=
  (keepsClean_accept s).bind fun _ _ => .ite (.pure (by decide)) keepsClean_fail

theorem clean_of_dropKeywords {ks : List Keyword} {ts rest : List Token} (h : Clean ts)
    (hrest : dropKeywords ks ts = some rest) : Clean rest := by
  induction ks generalizing ts with
  | nil =>
    cases hrest
    exact h
  | cons k ks ih =>
    rw [dropKeywords] at hrest
    split at hrest
    · exact ih h.tail hrest
    · cases hrest

theorem keepsClean_acceptWords (ks : List Keyword) : KeepsClean (acceptWords ks) := by
  refine keepsClean_get.bind fun ts hts => ?_
  split
  · exact (keepsClean_set (clean_of_dropKeywords hts ‹_›)).bind fun _ _ => .pure (by decide)
  · exact .pure (by decide)

theorem keepsClean_acceptWord (k : Keyword) : KeepsClean (acceptWord k) :=
  keepsClean_acceptWords [k]

theorem keepsClean_expectWord (k : Keyword) : KeepsClean (expectWord k) :=
  (keepsClean_acceptWord k).bind fun _ _ => .ite (.pure (by decide)) keepsClean_fail

theorem keepsClean_acceptOneOf {cases : List (Keyword × α)} (h : Clean cases) :
    KeepsClean (acceptOneOf cases) := by
  induction cases with
  | nil => exact .pure clean_none
  | cons x cases ih =>
    obtain ⟨hx, hcases⟩ := clean_cons.1 h
    exact (keepsClean_acceptWord x.1).bind fun _ _ =>
      .ite (.pure (clean_some.2 (clean_pair.1 hx).2)) (ih hcases)

theorem KeepsClean.after {r : Reader α} (hr : KeepsClean r) (ks : List Keyword) :
    KeepsClean (after ks r) :=
  (keepsClean_acceptWords ks).bind fun _ _ =>
    .ite (hr.map fun _ => clean_some.2) (.pure clean_none)

theorem KeepsClean.listAtMost {one : Reader α} (h : KeepsClean one) (n : Nat) :
    KeepsClean (listAtMost one n) := by
  induction n with
  | zero => exact keepsClean_fail
  | succ n ih =>
    refine h.bind fun a ha => (keepsClean_accept .comma).bind fun _ _ => .ite ?_ ?_
    · exact ih.bind fun as has => .pure (clean_cons.2 ⟨ha, has⟩)
    · exact .pure (by simpa using ha)

theorem KeepsClean.list {one : Reader α} (h : KeepsClean one) : KeepsClean (list one) :=
  keepsClean_get.bind fun _ _ => h.listAtMost _

theorem KeepsClean.parens {r : Reader α} (h : KeepsClean r) : KeepsClean (parens r) :=
  (keepsClean_expect .opening).bind fun _ _ =>
    h.bind fun _ ha => (keepsClean_expect .closing).bind fun _ _ => .pure ha

end Reader

end QueryTemplate.Sql
