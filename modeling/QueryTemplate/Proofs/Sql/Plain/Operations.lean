import QueryTemplate.Proofs.Sql.Plain.Operands

/-!
# Operators are read

The rules for what follows an operand are right: operators between two operands, casts, and the tests that
are words. An operator is read with what belongs to it and leaves the operators behind it to be read on.

* **`isOperations_cons`**: an operator in front of more operators.
* **`acceptWord_negation`**: a `NOT` that may be there is taken, so a test and its negation are one case.
* **`isOperations_test`**: the same for a test with words, which may be negated.
* **`each_operations`**, **`each_expr`**: the rules.
-/

namespace QueryTemplate.Sql

open Reader Running RulePiece

theorem operator?_bounds {t : Token} {l : Nat} {op : String} (h : t.operator? = some (l, op)) :
    0 < l ∧ l ≤ 50 := by
  have hsymbol {s : Symbol} (h : s.operator? = some (l, op)) : 0 < l ∧ l ≤ 50 := by
    cases s <;> simp [Symbol.operator?] at h <;> omega
  have hkeyword {k : Keyword} (h : k.operator? = some (l, op)) : 0 < l ∧ l ≤ 50 := by
    unfold Keyword.operator? at h
    split at h <;> simp at h <;> omega
  unfold Token.operator? at h
  split at h
  · exact hsymbol h
  · exact hkeyword h
  · cases h

theorem nextLevel_operator {t : Token} {l : Nat} {op : String} (h : t.operator? = some (l, op)) (ts : List Token) :
    nextLevel (t :: ts) = l := by
  have hcolon : startsWith .doubleColon (t :: ts) = false := by
    rw [startsWith_cons, decide_eq_false_iff_not]
    rintro rfl
    cases h
  simp only [nextLevel, hcolon, Bool.false_eq_true, if_false, List.head?_cons, Option.bind_some, h]

theorem nextLevel_period {ts : List Token} (h : startsWith .period ts = true) : nextLevel ts = 0 := by
  rcases ts with _ | ⟨t, ts⟩
  · cases h
  · rw [startsWith_cons, decide_eq_true_eq] at h
    rw [h]
    rfl

/-- An operator with what belongs to it, in front of more operators. -/
theorem isOperations_cons (level : Nat) (ts : List Token) {n l m f e : Nat} {us : List Token} {x y : String}
    (hlevel : ∀ rest, nextLevel (ts ++ rest) = level) (hbounds : l < level ∧ level ≤ 50)
    (hm : 100 + 2 * level ≤ m) (hx : ∃ c z, x = c ++ z ∧ (c = " " ∨ c = "::"))
    (hread : ∀ rest left, Follows f rest → operation (Sql.level n) left level (ts ++ rest) = .ok (left ++ x, rest))
    (hus : IsOperations n l f e us y) : IsOperations n l m e (ts ++ us) (x ++ y) where
  follows rest _ := by
    rw [List.append_assoc]
    exact follows_of_nextLevel (hlevel _) (by omega) hm
  period rest _ := by
    rw [List.append_assoc, ← Bool.not_eq_true]
    intro h
    have := nextLevel_period h
    rw [hlevel] at this
    omega
  ne_from left _ := by
    obtain ⟨_, z, rfl, rfl | rfl⟩ := hx
    · exact ne_from_of_mem (c := ' ') (by simp) (by decide)
    · exact ne_from_of_mem (c := ':') (by simp) (by decide)
  reads rest hrest N hN left := by
    have hne : ts ≠ [] := by
      rintro rfl
      have := hlevel []
      rw [List.append_nil, show nextLevel [] = 0 from rfl] at this
      omega
    have hpos := List.length_pos_iff.2 hne
    rw [List.length_append] at hN
    obtain ⟨N, rfl⟩ := Nat.exists_eq_add_one_of_ne_zero (n := N) (by omega)
    rw [List.append_assoc, operationsAtMost, run_bind, run_get]
    simp only [hlevel, run_ite, Nat.not_le.2 hbounds.1, if_false, run_bind, hread _ left (hus.follows rest hrest)]
    rw [hus.reads rest hrest N (by omega), String.append_assoc]

/-! ## Words in a row -/

/-- Tokens that are keywords. -/
abbrev AreKeywords (ts : List Token) (ks : List Keyword) : Prop :=
  List.Forall₂ Token.IsKeyword ts ks

/-- Keywords in front of other pieces. -/
theorem each_keys {P : Kind → List Token → String → Prop} {ks : List Keyword} {qs : List RulePiece}
    {Q : List Token → String → Prop}
    (h : ∀ ts, AreKeywords ts ks →
      Each P qs fun us x => Q (ts ++ us) (trailing (ks.map Keyword.spelling) ++ x)) :
    Each P (keys ks ++ qs) Q := by
  induction ks generalizing Q with
  | nil => simpa [keys] using h [] .nil
  | cons k ks ih =>
    intro t _ ⟨hk, hx⟩
    subst hx
    refine ih fun ts hts => ?_
    simpa [String.append_assoc] using h (t :: ts) (.cons hk hts)

theorem AreKeywords.exists_append {ts : List Token} {ks ls : List Keyword} (h : AreKeywords ts (ks ++ ls)) :
    ∃ us vs, ts = us ++ vs ∧ AreKeywords us ks ∧ AreKeywords vs ls :=
  ⟨_, _, (List.take_append_drop ks.length ts).symm, List.forall₂_take_append _ _ _ h, List.forall₂_drop_append _ _ _ h⟩

/-- A `NOT` that may be there is taken, in front of anything else. -/
theorem acceptWord_negation {negated : Bool} {ts us : List Token} (hts : AreKeywords ts (negation negated))
    (hus : keyword? us ≠ some .NOT) : acceptWord .NOT (ts ++ us) = .ok (negated, us) := by
  cases negated with
  | false =>
    cases hts
    simp [hus]
  | true =>
    obtain _ | ⟨⟨s, rfl, -⟩, hts⟩ := hts
    cases hts
    simp

/-! ## Tests with words -/

/-- A word that is no operator of its own is followed as `IS` is or as a test is. -/
theorem operation_word {b : Below} {left s : String} {k : Keyword} {l : Nat} (hk : k.operator? = none)
    (ts : List Token) : operation b left l (.word ⟨s, none⟩ (some k) :: ts)
      = if k = .IS then isForm b left ts else testForm b left (.word ⟨s, none⟩ (some k) :: ts) := by
  have hno : Token.operator? (.word ⟨s, none⟩ (some k)) = none := hk
  obtain rfl | his := eq_or_ne k .IS
  · simp [operation, hno]
  · simp [operation, hno, his]

/-- What follows the word of a test. -/
def testRest (b : Below) (left : List String) : Keyword → Reader String
  | .IN => inForm b left
  | .BETWEEN => betweenForm b left
  | k => likeForm b left k.spelling

theorem testForm_negation {b : Below} {negated : Bool} {k : Keyword} {ts us : List Token} {left s : String}
    (hk : k = .IN ∨ k = .BETWEEN ∨ k = .LIKE ∨ k = .ILIKE) (hts : AreKeywords ts (negation negated)) :
    testForm b left (ts ++ .word ⟨s, none⟩ (some k) :: us)
      = testRest b (left :: (negation negated).map Keyword.spelling) k us := by
  have hnot : keyword? (.word ⟨s, none⟩ (some k) :: us) ≠ some .NOT := by
    rcases hk with rfl | rfl | rfl | rfl <;> simp
  have hleft : (if negated then [left, "NOT"] else [left]) = left :: (negation negated).map Keyword.spelling := by
    cases negated <;> rfl
  rw [testForm, run_bind, acceptWord_negation hts hnot]
  simp only [hleft]
  rcases hk with rfl | rfl | rfl | rfl <;> simp [testRest] <;> rfl

theorem operation_test {negated : Bool} {k : Keyword} {ts us : List Token}
    (hk : k = .IN ∨ k = .BETWEEN ∨ k = .LIKE ∨ k = .ILIKE) (hts : AreKeywords ts (negation negated ++ [k])) :
    nextLevel (ts ++ us) = k.testLevel ∧ ∀ (b : Below) (left : String) (l : Nat),
      operation b left l (ts ++ us) = testRest b (left :: (negation negated).map Keyword.spelling) k us := by
  have hword : k.operator? = none ∧ k ≠ .IS := by
    rcases hk with rfl | rfl | rfl | rfl <;> decide
  obtain ⟨ns, _, rfl, hns, _ | ⟨⟨s, rfl, -⟩, hnil⟩⟩ := hts.exists_append
  cases hnil
  rw [List.append_assoc, List.singleton_append]
  refine ⟨?_, fun b left l => ?_⟩
  · cases negated with
    | false =>
      cases hns
      rcases hk with rfl | rfl | rfl | rfl <;> rfl
    | true =>
      obtain _ | ⟨⟨s', rfl, -⟩, hns⟩ := hns
      cases hns
      rcases hk with rfl | rfl | rfl | rfl <;> rfl
  · rw [← testForm_negation hk hns]
    cases negated with
    | false =>
      cases hns
      exact (operation_word hword.1 us).trans (if_neg hword.2)
    | true =>
      obtain _ | ⟨⟨s', rfl, -⟩, -⟩ := hns
      exact operation_word rfl _

/-- A test with words, in front of more operators. -/
theorem isOperations_test (us : List Token) (parts : List String) {n l m f e : Nat} {negated : Bool} {k : Keyword}
    {ts vs : List Token} {y : String} (hk : k = .IN ∨ k = .BETWEEN ∨ k = .LIKE ∨ k = .ILIKE)
    (hl : l < k.testLevel) (hm : 100 + 2 * k.testLevel ≤ m) (hts : AreKeywords ts (negation negated ++ [k]))
    (hread : ∀ rest left, Follows f rest →
      testRest (level n) left k (us ++ rest) = .ok (spaced (left ++ k.spelling :: parts), rest))
    (hvs : IsOperations n l f e vs y) :
    IsOperations n l m e (ts ++ (us ++ vs))
      (trailing ((negation negated ++ [k]).map Keyword.spelling) ++ (trailing parts ++ y)) := by
  have hbound : k.testLevel ≤ 50 := by
    rcases hk with rfl | rfl | rfl | rfl <;> decide
  have hcons := isOperations_cons k.testLevel (ts ++ us)
    (x := trailing ((negation negated ++ [k]).map Keyword.spelling ++ parts))
    (fun rest => by rw [List.append_assoc]; exact (operation_test hk hts).1)
    ⟨hl, hbound⟩ hm ?_ (fun rest left hrest => ?_) hvs
  · simpa [String.append_assoc] using hcons
  · cases negated <;> exact ⟨" ", _, rfl, .inl rfl⟩
  · rw [List.append_assoc, (operation_test hk hts).2, hread rest _ hrest]
    simp

theorem inForm_list {n : Nat} {us : List Token} {x : String} (hheads : Heads us)
    (hus : IsList ((level n).expr 0) id (Follows soft) us x) (rest : List Token) (left : List String) :
    inForm (level n) left (.symbol .opening :: (us ++ .symbol .closing :: rest))
      = .ok (spaced (left ++ ["IN", "(" ++ (x ++ ")")]), rest) := by
  obtain ⟨vs, -, rfl, hvs⟩ := hus.reads
  have hread := hvs (.symbol .closing :: rest) follows_closing rfl
  have hno : startsQuery (us ++ .symbol .closing :: rest) = false := by
    simp [startsQuery, hheads.keyword_ne (k := .SELECT) (by decide), hheads.keyword_ne (k := .WITH) (by decide)]
  simp [inForm, Below.anyExpr, hno, hread, -run_list]

theorem inForm_query {n : Nat} {us : List Token} {x : String} (hus : Means (.query n) us x)
    (rest : List Token) (left : List String) :
    inForm (level n) left (.symbol .opening :: (us ++ .symbol .closing :: rest))
      = .ok (spaced (left ++ ["IN", "(" ++ (x ++ ")")]), rest) := by
  obtain ⟨⟨s, us, rfl⟩, q, rfl, hq⟩ := hus
  have hread := hq (.symbol .closing :: rest) follows_closing
  rw [List.cons_append] at hread
  simp [inForm, startsQuery, Below.queryText, hread]

/-- An expression starts with no `ANY`, so it is the pattern itself. -/
theorem likeForm_pattern {us : List Token} (hus : Heads us) (b : Below) (left : List String) (word : String)
    (rest : List Token) : likeForm b left word (us ++ rest) = patternForm b (left ++ [word]) (us ++ rest) := by
  simp [likeForm, hus.keyword_ne (k := .ANY) (by decide)]

/-! ## Tests with `IS` -/

theorem nextLevel_is {ts : List Token} {ks : List Keyword} (hts : AreKeywords ts (.IS :: ks)) (rest : List Token) :
    nextLevel (ts ++ rest) = 17 := by
  obtain _ | ⟨⟨s, rfl, -⟩, -⟩ := hts
  rfl

/-- The words that start the test, with the `NOT` that may be there. -/
theorem is_negation (negated : Bool) :
    (if negated then "IS NOT" else "IS") = spaced ((Keyword.IS :: negation negated).map Keyword.spelling) := by
  cases negated <;> rfl

/-- The word that ends the test. -/
theorem acceptOneOf_truth {k : Keyword} (hk : k = .NULL ∨ k = .TRUE ∨ k = .FALSE ∨ k = .UNKNOWN) (s : String)
    (ts : List Token) :
    acceptOneOf [(.NULL, "NULL"), (.TRUE, "TRUE"), (.FALSE, "FALSE"), (.UNKNOWN, "UNKNOWN")]
      (.word ⟨s, none⟩ (some k) :: ts) = .ok (some k.spelling, ts) := by
  rcases hk with rfl | rfl | rfl | rfl <;> rfl

theorem operation_is {b : Below} {negated : Bool} {k : Keyword} {ts rest : List Token} {left : String} {l : Nat}
    (hk : k = .NULL ∨ k = .TRUE ∨ k = .FALSE ∨ k = .UNKNOWN)
    (hts : AreKeywords ts (.IS :: negation negated ++ [k])) :
    operation b left l (ts ++ rest)
      = .ok (left ++ trailing ((Keyword.IS :: negation negated ++ [k]).map Keyword.spelling), rest) := by
  obtain _ | ⟨⟨s, rfl, -⟩, hts⟩ := hts
  obtain ⟨ns, _, rfl, hns, _ | ⟨⟨s', rfl, -⟩, hnil⟩⟩ := AreKeywords.exists_append hts
  cases hnil
  have hnot : keyword? (.word ⟨s', none⟩ (some k) :: rest) ≠ some .NOT := by
    rcases hk with rfl | rfl | rfl | rfl <;> simp
  rw [List.cons_append, operation_word rfl, if_pos rfl, isForm, List.append_assoc, List.singleton_append, run_bind,
    acceptWord_negation hns hnot]
  dsimp only
  rw [run_bind, acceptOneOf_truth hk]
  simp [is_negation, String.append_assoc]

theorem operation_isDistinct {n e : Nat} {negated : Bool} {ts us rest : List Token} {left x : String} {l : Nat}
    (hts : AreKeywords ts (.IS :: negation negated ++ [.DISTINCT, .FROM])) (hus : IsExpr n 0 e .free us x)
    (hrest : Follows e rest) :
    operation (level n) left l (ts ++ (us ++ rest)) = .ok (left
      ++ (trailing ((Keyword.IS :: (negation negated ++ [Keyword.DISTINCT, Keyword.FROM])).map Keyword.spelling)
        ++ (" " ++ x)), rest) := by
  have hdistinct : "DISTINCT FROM" = spaced ([Keyword.DISTINCT, .FROM].map Keyword.spelling) := rfl
  obtain _ | ⟨⟨s, rfl, -⟩, hts⟩ := hts
  obtain ⟨ns, _, rfl, hns, _ | ⟨⟨s', rfl, -⟩, _ | ⟨⟨s'', rfl, -⟩, hnil⟩⟩⟩ := AreKeywords.exists_append hts
  cases hnil
  rw [List.cons_append, operation_word rfl, if_pos rfl, isForm, List.append_assoc, run_bind,
    acceptWord_negation hns (by simp)]
  simp [is_negation, hdistinct, Below.anyExpr, hus.reads, hrest, String.append_assoc]

/-! ## All operators -/

theorem each_operations {n l m e : Nat} {qs : List RulePiece} (r : Rule (.operations n l m e) qs) :
    Each Means qs (IsOperations n l m e) := by
  cases r with
  | noOperation hm hl =>
    refine ⟨fun rest hrest => hrest.mono hm, fun _ => id, fun left => ?_, fun rest hrest N _ left => ?_⟩
    · rw [String.append_empty]
      exact id
    · have hlevel := hrest.nextLevel_le hl
      rw [String.append_empty, List.nil_append]
      cases N <;> simp [operationsAtMost, hlevel]
  | @binary _ _ _ _ f level hm hl =>
    rintro t op hop us x hus vs y hvs
    have hbounds := operator?_bounds hop
    have hcons := isOperations_cons _ (t :: us) (x := " " ++ (op ++ (" " ++ x)))
      (nextLevel_operator hop <| us ++ ·) ⟨hl, hbounds.2⟩ hm ⟨" ", _, rfl, .inl rfl⟩ (fun rest left hrest => ?_) hvs
    · simpa [Each, String.append_assoc] using hcons
    have hcolon : t ≠ .symbol .doubleColon := by
      rintro rfl
      cases hop
    -- the right side is an expression, and none of the words that range over a list
    have hno (k : Keyword) := hus.fronts.heads.keyword_ne (k := k)
    have hop' : t.operator? = some (level, op) := hop
    simp [operation, hcolon, hop', afterOperator, hno .ANY (by decide), hno .ALL (by decide), hno .SOME (by decide),
      hus.reads, hrest]
  | typeCast hm hl =>
    rintro _ _ ⟨rfl, rfl⟩ us _ ⟨x, rfl, hus⟩ vs y hvs
    have hcons := isOperations_cons _ (.symbol .doubleColon :: us) (x := "::" ++ x)
      (fun _ => rfl) ⟨hl, Nat.le_refl _⟩ hm ⟨"::", _, rfl, .inr rfl⟩ (fun rest left hrest => ?_) hvs
    · simpa [Each, String.append_assoc] using hcons
    simp [operation, hus, hrest, String.append_assoc]
  | isTest hk hm hl =>
    refine each_keys fun ts hts vs y hvs => ?_
    have hcons := isOperations_cons 17 _
      (nextLevel_is hts) ⟨hl, by decide⟩ hm
      ⟨" ", _, rfl, .inl rfl⟩ (fun rest left _ => operation_is hk hts) hvs
    simpa [Each] using hcons
  | @isDistinct _ _ _ _ negated hm hl =>
    refine each_keys fun ts hts us x hus vs y hvs => ?_
    have hcons := isOperations_cons 17 (ts ++ us) (fun rest => ?_) ⟨hl, by decide⟩ hm
      (x := trailing ((Keyword.IS :: (negation negated ++ [Keyword.DISTINCT, Keyword.FROM])).map Keyword.spelling)
        ++ (" " ++ x)) ?_
      (fun rest left hrest => ?_) hvs
    · simpa [Each, String.append_assoc] using hcons
    · rw [List.append_assoc]
      exact nextLevel_is hts _
    · exact ⟨" ", _, String.append_assoc, .inl rfl⟩
    · rw [List.append_assoc]
      exact operation_isDistinct hts hus hrest
  | inList hm hl =>
    refine each_keys fun ts hts _ _ h us x hlist _ _ h' vs y hvs => ?_
    obtain ⟨⟨rfl, rfl⟩, ⟨hheads, hus⟩, rfl, rfl⟩ := And.intro h (And.intro hlist h')
    have htest := isOperations_test (.symbol .opening :: (us ++ [.symbol .closing]))
      ["(" ++ (x ++ ")")] (.inl rfl) hl hm hts (fun rest left _ => ?_) hvs
    · simpa [Each, String.append_assoc] using htest
    · simpa [testRest, Keyword.spelling, Keyword.table] using inForm_list hheads (hus (by decide)) rest left
  | inQuery hm hl =>
    refine each_keys fun ts hts _ _ h us x hus _ _ h' vs y hvs => ?_
    obtain ⟨⟨rfl, rfl⟩, rfl, rfl⟩ := And.intro h h'
    have htest := isOperations_test (.symbol .opening :: (us ++ [.symbol .closing]))
      ["(" ++ (x ++ ")")] (.inl rfl) hl hm hts (fun rest left _ => ?_) hvs
    · simpa [Each, String.append_assoc] using htest
    · simpa [testRest, Keyword.spelling, Keyword.table] using inForm_query hus rest left
  | between hm hl =>
    refine each_keys fun ts hts us x hus _ _ h vs y hvs ws z hws => ?_
    obtain ⟨⟨s, rfl, hs⟩, rfl⟩ := h
    have htest := isOperations_test (us ++ .word ⟨s, none⟩ (some .AND) :: vs)
      [x, Keyword.spelling .AND, y] (.inr (.inl rfl)) hl hm hts (fun rest left hrest => ?_) hws
    · simpa [Each, String.append_assoc] using htest
    -- the `AND` binds looser than the bounds do, so it ends the first of them
    · have hand : Follows 120 (.word ⟨s, none⟩ (some .AND) :: (vs ++ rest)) :=
        follows_of_nextLevel (l := 10) rfl (by decide) (by decide)
      simp [testRest, betweenForm, Keyword.testLevel, hus.reads, hand, hvs.reads, hrest, Keyword.spelling,
        Keyword.table]
  | like hk hf hm hl =>
    refine each_keys fun ts hts us x hus vs y hvs => ?_
    have htest := isOperations_test (m := m) us [x] (.inr (.inr hk)) ?_ ?_ hts (fun rest left hrest => ?_) hvs
    · simpa [Each, String.append_assoc] using htest
    · rcases hk with rfl | rfl <;> exact hl
    · rcases hk with rfl | rfl <;> exact hm
    · have hescape := hrest.keyword?_ne (k := .ESCAPE) rfl (.inl (Nat.lt_succ_of_le hf))
      rcases hk with rfl | rfl <;>
        simp [testRest, likeForm_pattern hus.fronts.heads, patternForm, Keyword.testLevel, hus.reads, hrest, hescape,
          clause]
  | likeEscape hk hm hl =>
    refine each_keys fun ts hts us x hus _ _ h _ _ h' vs y hvs => ?_
    obtain ⟨⟨⟨s, rfl, hs⟩, rfl⟩, w, rfl, rfl, -⟩ := And.intro h h'
    have htest := isOperations_test (m := m) (us ++ [.word ⟨s, none⟩ (some .ESCAPE), .text w])
      [x, Keyword.spelling .ESCAPE, "'" ++ w ++ "'"] (.inr (.inr hk)) ?_ ?_ hts (fun rest left hrest => ?_) hvs
    · simpa [Each, String.append_assoc] using htest
    · rcases hk with rfl | rfl <;> exact hl
    · rcases hk with rfl | rfl <;> exact hm
    · rcases hk with rfl | rfl <;>
        simp [testRest, likeForm_pattern hus.fronts.heads, patternForm, Keyword.testLevel, hus.reads,
          follows_keyword (e := 139) hs rfl, clause, Token.text?, Keyword.spelling, Keyword.table]

theorem each_expr {n l e : Nat} {st : Start} {qs : List RulePiece} (r : Rule (.expr n l e st) qs) :
    Each Means qs (IsExpr n l e st) := by
  cases r
  rintro us x hus vs y hvs
  obtain ⟨⟨hheads, hstarless, hpositive, hfrom⟩, hus⟩ := hus
  rw [Each, List.append_nil, String.append_empty]
  refine ⟨⟨⟨fun rest => ?_, fun rest => ?_, fun hk rest => ?_⟩, fun rest hrest => ?_, fun h rest => ?_,
    hvs.ne_from x hfrom⟩, ?_⟩
  · rw [List.append_assoc]
    exact hheads.closing _
  · rw [List.append_assoc]
    exact hheads.period _
  · rw [List.append_assoc]
    exact hheads.keyword_ne hk _
  · rw [List.append_assoc]
    exact hstarless _ (hvs.period rest hrest)
  · rw [List.append_assoc]
    exact hpositive h _
  · intro rest hrest
    have hoperand := hus (vs ++ rest) (hvs.follows rest hrest) ((us ++ (vs ++ rest)).length + 1)
      (by simp only [List.length_append]; omega)
    rw [List.append_assoc]
    change expression (level _) l (us ++ (vs ++ rest)) = _
    simp only [expression, run_bind, run_get, hoperand]
    exact hvs.reads rest hrest _ (by simp only [List.length_append]; omega) x

end QueryTemplate.Sql
