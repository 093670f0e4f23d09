import QueryTemplate.Proofs.Reading.Walks

/-!
# The cursor stays in bounds

The program with a cursor reads what the readers read, and on the way there the cursor is always at
a token or at the end, and the levels of nesting are never more than there may be.

* **`Walker.mirrors_chain`**: the loops, by induction on the rounds of the reader. A round takes a
  keyword away, and what it reads behind that takes no token back.
* **`Walker.mirrors_unary`**: the recursion, by induction on the levels of nesting that are left to
  the reader. These levels and those that the counter has entered add up to the limit. The reader
  counts no level back when it is done with a condition; that the counter then is what it was is
  part of what is shown of every program. From a parenthesis to the condition behind it are three
  calls, which is why there are three ticks for a token.
* **`parse_in_bounds`** puts this together with the offsets, where the text can always be sliced.
-/

namespace QueryTemplate.Filter

namespace Walker

/-! ## Ticks and tokens -/

theorem length_lt_of_eat? {k : Keyword} {ts rest : List Token} (h : eat? k ts = some rest) :
    rest.length < ts.length := by
  obtain ⟨u, rfl, -⟩ := eat?_eq_some_iff.1 h
  exact Nat.lt_succ_self _

theorem length_lt_of_expect {u : Token} {fault : Fault} {ts rest : List Token}
    (h : Filter.expect u fault ts = .ok rest) : rest.length < ts.length := by
  rw [expect_eq_ok_iff.1 h]
  exact Nat.lt_succ_self _

theorem length_lt_of_operand {ts rest : List Token} {o : Operand}
    (h : Filter.operand ts = .ok (o, rest)) : rest.length < ts.length := by
  obtain ⟨u, rfl, -⟩ := operand_eq_ok_iff.1 h
  exact Nat.lt_succ_self _

/-! ## Predicates -/

section Predicates

variable {t : Tokenized} {d clock : Nat} {ts : List Token}

/-- Every round takes a tick and a comma. -/
theorem mirrors_furtherItems (hclock : ts.length < clock) (items : List Operand) :
    Mirrors t d d (furtherItems t.text t.tokens clock items) ts
      ((Filter.moreItems ts).map fun (os, rest) => (items ++ os, rest)) := by
  fun_induction Filter.moreItems ts generalizing items clock with
  | case1 u ts o ho ih =>
    obtain ⟨ticks, rfl⟩ := exists_tick hclock
    rw [furtherItems]
    refine mirrors_peek.seq (mirrors_advance.seq ?_)
    have hoperand : Mirrors t d d (operand t.text t.tokens) (u :: ts) (Filter.operand (u :: ts)) :=
      mirrors_operand
    rw [Filter.operand, ho] at hoperand
    refine hoperand.seq ?_
    have hmap : ((Filter.moreItems ts).map fun (os, rest) => (o :: os, rest)).map
        (fun (os, rest) => (items ++ os, rest))
        = (Filter.moreItems ts).map fun (os, rest) => (items ++ [o] ++ os, rest) := by
      cases Filter.moreItems ts with
      | error failure => rfl
      | ok read => simp only [Except.map, List.append_assoc, List.singleton_append]
    rw [hmap]
    simp only [List.length_cons] at hclock
    exact ih (by omega) (items ++ [o])
  | case2 u ts fault hfault =>
    obtain ⟨ticks, rfl⟩ := exists_tick hclock
    rw [furtherItems]
    have hoperand : Mirrors t d d (operand t.text t.tokens) (u :: ts) (Filter.operand (u :: ts)) :=
      mirrors_operand
    rw [Filter.operand, hfault] at hoperand
    exact mirrors_peek.seq (mirrors_advance.seq (.fails hoperand))
  | case3 =>
    obtain ⟨ticks, rfl⟩ := exists_tick hclock
    rw [furtherItems]
    exact mirrors_peek.seq (mirrors_advance.seq (.fails mirrors_operand))
  | case4 ts hmore hend =>
    have hhead : ts.head? ≠ some .comma := by
      rintro hcomma
      obtain ⟨more, rfl⟩ := List.head?_eq_some_iff.1 hcomma
      cases more with
      | nil => exact hend rfl
      | cons u us => exact hmore u us rfl
    obtain ⟨ticks, rfl⟩ := exists_tick hclock
    rw [furtherItems]
    refine mirrors_peek.seq ?_
    rw [if_neg hhead]
    simpa only [Except.map, List.append_nil] using Mirrors.pure items

theorem mirrors_itemList (hclock : ts.length < clock) :
    Mirrors t d d (itemList t.text t.tokens clock) ts (Filter.itemList ts) := by
  unfold itemList Filter.itemList
  refine mirrors_expect _ _ fun inside hinside => mirrors_operand.bind fun o rest hrest => ?_
  have hless := length_lt_of_expect hinside
  have hlesser := length_lt_of_operand hrest
  have hitems : Mirrors t d d (furtherItems t.text t.tokens clock [o]) rest
      ((Filter.moreItems rest).map fun (os, rest) => (o :: os, rest)) :=
    mirrors_furtherItems (by omega) [o]
  dsimp only
  cases hmore : Filter.moreItems rest with
  | error failure =>
    rw [hmore] at hitems
    exact .fails hitems
  | ok read =>
    rw [hmore] at hitems
    exact hitems.seq (mirrors_expect _ _ fun behind _ => .pure _)

/-- The end of a test for null, behind `NOT` if there is one. -/
theorem mirrors_nullEnd (left : Operand) (negated : Bool) (ts : List Token) :
    Mirrors t d d (do
        if ← eatKeyword t.tokens .null then
          return Filter.isNull left negated
        else
          fail t.text t.tokens .expectedNull) ts
      (match eat? .null ts with
        | some rest => .ok (.isNull left negated, rest)
        | none => .error (.expectedNull, ts)) := by
  cases h : eat? .null ts with
  | some rest => exact (mirrors_eatKeyword_of_some h).seq (.pure _)
  | none => exact (mirrors_eatKeyword_of_none h).seq (mirrors_fail _)

theorem mirrors_nullTest (left : Operand) :
    Mirrors t d d (nullTest t.text t.tokens left) ts (Filter.nullTest left ts) := by
  unfold Filter.nullTest
  cases h : eat? .not_ ts with
  | some rest => exact (mirrors_eatKeyword_of_some h).seq (mirrors_nullEnd left true rest)
  | none => exact (mirrors_eatKeyword_of_none h).seq (mirrors_nullEnd left false ts)

theorem mirrors_membership (hclock : ts.length < clock) (left : Operand) (negated : Bool) :
    Mirrors t d d (membership t.text t.tokens clock left negated) ts
      (Filter.membership left negated ts) := by
  unfold Filter.membership
  cases hlike : eat? .like ts with
  | some rest =>
    exact (mirrors_eatKeyword_of_some hlike).seq (mirrors_operand.bind fun _ _ _ => .pure _)
  | none =>
    refine (mirrors_eatKeyword_of_none hlike).seq ?_
    dsimp only
    cases hin : eat? .in_ ts with
    | some rest =>
      have hitems := mirrors_itemList (t := t) (d := d) ((length_lt_of_eat? hin).trans hclock)
      exact (mirrors_eatKeyword_of_some hin).seq (hitems.bind fun _ _ _ => .pure _)
    | none => exact (mirrors_eatKeyword_of_none hin).seq (mirrors_fail _)

/-- What is read behind an operand where there is no operator. -/
theorem predicateAfter_of_head?_ne {left : Operand} (hop : ∀ o, ts.head? ≠ some (.op o)) :
    predicateAfter left ts = match eat? .is_ ts with
      | some rest => Filter.nullTest left rest
      | none => match eat? .not_ ts with
        | some rest => Filter.membership left true rest
        | none => Filter.membership left false ts := by
  unfold predicateAfter
  split
  · exact absurd rfl (hop _)
  · rfl

theorem mirrors_predicate (hclock : ts.length < clock) :
    Mirrors t d d (predicate t.text t.tokens clock) ts (Filter.predicate ts) := by
  refine mirrors_operand.bind fun left behind hbehind => mirrors_peek.seq ?_
  have hless : behind.length < clock := (length_lt_of_operand hbehind).trans hclock
  show Mirrors t d d _ behind (predicateAfter left behind)
  by_cases hop : ∃ o, behind.head? = some (.op o)
  · obtain ⟨o, hhead⟩ := hop
    obtain ⟨rest, rfl⟩ := List.head?_eq_some_iff.1 hhead
    exact mirrors_advance.seq (mirrors_operand.bind fun _ _ _ => .pure _)
  · rw [predicateAfter_of_head?_ne fun o ho => hop ⟨o, ho⟩]
    split
    · exact absurd ⟨_, ‹_›⟩ hop
    · cases his : eat? .is_ behind with
      | some rest => exact (mirrors_eatKeyword_of_some his).seq (mirrors_nullTest left)
      | none =>
        refine (mirrors_eatKeyword_of_none his).seq ?_
        dsimp only
        cases hnot : eat? .not_ behind with
        | some rest =>
          have hmembership := mirrors_membership (t := t) (d := d)
            ((length_lt_of_eat? hnot).trans hless) left true
          exact (mirrors_eatKeyword_of_some hnot).seq hmembership
        | none =>
          exact (mirrors_eatKeyword_of_none hnot).seq (mirrors_membership hless left false)

end Predicates

/-! ## Combinations -/

section Combinations

variable {t : Tokenized} {d n c clock : Nat} {ts : List Token}

/-- A loop that joins conditions goes round as often as the reader of the chain does. A round takes
one tick and at least one token, and there are three ticks for a token. -/
theorem mirrors_chain {k : Keyword} {join : Filter → Filter → Filter} {one : Reader Filter}
    {m : Nat → Walker Filter} {loop : Nat → Filter → Walker Filter}
    (hloop : ∀ clock left, loop (clock + 1) left = do
      if ← eatKeyword t.tokens k then
        let right ← m clock
        loop clock (join left right)
      else
        return left)
    (hone : ∀ {clock ts}, 3 * ts.length + c < clock → Mirrors t d d (m clock) ts (one ts))
    (hsuffix : ∀ ts f rest, one ts = .ok (f, rest) → rest <:+ ts)
    (hn : ts.length ≤ n) (hclock : 3 * ts.length + c < clock) (left : Filter) :
    Mirrors t d d (loop clock left) ts (chain k join one n left ts) := by
  induction n generalizing ts left clock with
  | zero =>
    have hts : ts = [] := List.eq_nil_of_length_eq_zero (Nat.le_zero.1 hn)
    obtain ⟨ticks, rfl⟩ := exists_tick hclock
    rw [hloop, hts]
    exact (mirrors_eatKeyword_of_none rfl).seq (.pure left)
  | succ n ih =>
    obtain ⟨ticks, rfl⟩ := exists_tick hclock
    rw [hloop, chain]
    cases hk : eat? k ts with
    | none => exact (mirrors_eatKeyword_of_none hk).seq (.pure left)
    | some rest =>
      have hless := length_lt_of_eat? hk
      have hround : Mirrors t d d (m ticks) rest (one rest) := hone (by omega)
      refine (mirrors_eatKeyword_of_some hk).seq (hround.bind fun right later hright => ?_)
      have hlater := (hsuffix _ _ _ hright).length_le
      exact ih (by omega) (by omega) (join left right)

theorem mirrors_conjunction
    (h : ∀ {clock ts}, 3 * ts.length + 1 < clock →
      Mirrors t d d (unary t.text t.tokens clock) ts (Filter.unary n ts))
    (hclock : 3 * ts.length + 2 < clock) :
    Mirrors t d d (conjunction t.text t.tokens clock) ts
      (Filter.conjunction (Filter.unary n) ts) := by
  obtain ⟨ticks, rfl⟩ := exists_tick hclock
  rw [conjunction]
  refine (h (by omega)).bind fun left rest hrest => ?_
  have hless := (suffix_of_unary _ _ _ hrest).length_le
  exact mirrors_chain (fun _ _ => furtherConjuncts.eq_2 ..) h suffix_of_unary (Nat.le_refl _)
    (by omega) left

theorem mirrors_disjunction
    (h : ∀ {clock ts}, 3 * ts.length + 1 < clock →
      Mirrors t d d (unary t.text t.tokens clock) ts (Filter.unary n ts))
    (hclock : 3 * ts.length + 3 < clock) :
    Mirrors t d d (disjunction t.text t.tokens clock) ts
      (Filter.disjunction (Filter.unary n) ts) := by
  obtain ⟨ticks, rfl⟩ := exists_tick hclock
  rw [disjunction]
  refine (mirrors_conjunction h (by omega)).bind fun left rest hrest => ?_
  have hless := (suffix_of_conjunction _ _ _ hrest).length_le
  exact mirrors_chain (fun _ _ => furtherDisjuncts.eq_2 ..) (mirrors_conjunction h)
    suffix_of_conjunction (Nat.le_refl _) (by omega) left

/-- **The levels entered and the levels left** add up to as deep as conditions may nest. Induction
on the levels left, of which the condition in a `NOT` or a group has one less. -/
theorem mirrors_unary (hd : d + n = maxNesting) (hclock : 3 * ts.length + 1 < clock) :
    Mirrors t d d (unary t.text t.tokens clock) ts (Filter.unary n ts) := by
  induction n generalizing d ts clock with
  | zero =>
    -- as deep as may be: a `NOT` or a group fails in both, and a predicate is still read
    obtain rfl : d = maxNesting := hd
    obtain ⟨ticks, rfl⟩ := exists_tick hclock
    rw [unary, Filter.unary]
    refine (mirrors_atKeyword _).seq ?_
    cases hnot : eat? .not_ ts with
    | some rest => exact .fails mirrors_enter_of_deep
    | none =>
      refine mirrors_peek.seq ?_
      by_cases hopening : ts.head? = some .opening
      · simp only [hopening, decide_true, Bool.or_true, if_true]
        exact .fails mirrors_enter_of_deep
      · simp only [hopening, decide_false, Option.isSome_none, Bool.or_false]
        exact mirrors_predicate (by omega)
  | succ n ih =>
    have henter {ts : List Token} : Mirrors t d (d + 1) (enter t.text t.tokens) ts (.ok ((), ts)) :=
      mirrors_enter (by omega)
    have hdeeper : d + 1 + n = maxNesting := by omega
    obtain ⟨ticks, rfl⟩ := exists_tick hclock
    rw [unary]
    refine (mirrors_atKeyword _).seq ?_
    cases hnot : eat? .not_ ts with
    | some rest =>
      obtain ⟨u, rfl, hu⟩ := eat?_eq_some_iff.1 hnot
      rw [List.length_cons] at hclock
      have hinner : Mirrors t (d + 1) (d + 1) (unary t.text t.tokens ticks) rest
          (Filter.unary n rest) :=
        ih hdeeper (by omega)
      rw [unary_not hu]
      refine henter.seq (mirrors_advance.seq (hinner.bind fun inner later _ => ?_))
      exact mirrors_leave.seq (.pure _)
    | none =>
      refine mirrors_peek.seq ?_
      by_cases hopening : ts.head? = some .opening
      · obtain ⟨rest, rfl⟩ := List.head?_eq_some_iff.1 hopening
        rw [List.length_cons] at hclock
        have hgroup : Mirrors t (d + 1) (d + 1) (disjunction t.text t.tokens ticks) rest
            (Filter.disjunction (Filter.unary n) rest) :=
          mirrors_disjunction (ih hdeeper) (by omega)
        rw [unary_opening]
        refine henter.seq (mirrors_advance.seq (hgroup.bind fun inner later _ => ?_))
        exact mirrors_expect _ _ fun behind _ => mirrors_leave.seq (.pure _)
      · rw [if_neg hopening, unary_of_head? hnot hopening]
        exact mirrors_predicate (by omega)

theorem mirrors_whole (hclock : 3 * ts.length + 3 < clock) :
    Mirrors t 0 0 (whole t.text t.tokens clock) ts ((ofTokens ts).map fun f => (f, [])) := by
  have hread : (ofTokens ts).map (fun f => (f, ([] : List Token)))
      = Filter.disjunction (Filter.unary maxNesting) ts >>= fun p =>
        if p.2.isEmpty then .ok (p.1, []) else .error (.trailingInput, p.2) := by
    unfold ofTokens
    cases Filter.disjunction (Filter.unary maxNesting) ts with
    | error failure => rfl
    | ok p =>
      obtain ⟨f, rest⟩ := p
      cases rest <;> rfl
  rw [hread]
  have hcondition : Mirrors t 0 0 (disjunction t.text t.tokens clock) ts
      (Filter.disjunction (Filter.unary maxNesting) ts) :=
    mirrors_disjunction (mirrors_unary (Nat.zero_add maxNesting)) hclock
  refine hcondition.bind fun f rest _ => mirrors_peek.seq ?_
  cases rest with
  | nil => exact .pure f
  | cons u rest => exact mirrors_fail _

end Combinations

/-! ## Whole texts -/

/-- Started anywhere in bounds a program ends, whatever clock with ticks enough it has. It stays in
bounds all the way, and if it returns anything then at the depth where it has started. -/
def Balanced {α : Type} (tokens : List Spanned) (m : Nat → Walker α) : Prop :=
  ∀ w, w.InBounds tokens → ∃ result w',
    (∀ clock, 3 * tokens.length < clock → m clock w = some (result, w'))
    ∧ w'.InBounds tokens ∧ ∀ a, result = .ok a → w'.now.depth = w.now.depth

/-- A program is balanced if at each depth it ends as a reader with the levels left. -/
theorem balanced_of_mirrors {α : Type} {t : Tokenized} {m : Nat → Walker α} {read : Nat → Reader α}
    (hm : ∀ {a b}, a ≤ b → Extends (m a) (m b))
    (h : ∀ {d n clock ts}, d + n = maxNesting → 3 * ts.length + 3 < clock →
      Mirrors t d d (m clock) ts (read n ts)) : Balanced t.tokens m := by
  intro w hw
  have hdepth : w.now.depth + (maxNesting - w.now.depth) = maxNesting :=
    Nat.add_sub_of_le (hw _ List.mem_cons_self).2
  have hleft : 3 * ((t.lexemes.map Lexeme.token).drop w.now.index).length + 3
      < 3 * t.tokens.length + 1 := by
    rw [t.length_tokens, List.length_drop, List.length_map]
    omega
  have hend := h hdepth hleft w ⟨hw, rfl, rfl⟩
  -- with the least clock that is enough, and so with every other
  have hmore {clock : Nat} (hclock : 3 * t.tokens.length < clock) :
      Extends (m (3 * t.tokens.length + 1)) (m clock) := hm hclock
  generalize hrun : m _ w = ended at hend
  generalize read _ _ = out at hend
  cases hend with
  | ok hfaces =>
    exact ⟨_, _, fun _ hclock => hmore hclock _ _ hrun, hfaces.bounds, fun _ _ => hfaces.depth_eq⟩
  | error hbounds =>
    refine ⟨_, _, fun _ hclock => hmore hclock _ _ hrun, hbounds, fun _ h => ?_⟩
    cases h

theorem balanced_unary (t : Tokenized) : Balanced t.tokens (unary t.text t.tokens) :=
  balanced_of_mirrors (fun hab => (extends_combinations hab).2.2.2.2)
    fun hd hclock => mirrors_unary hd (by omega)

theorem balanced_conjunction (t : Tokenized) : Balanced t.tokens (conjunction t.text t.tokens) :=
  balanced_of_mirrors (fun hab => (extends_combinations hab).2.2.1)
    fun hd hclock => mirrors_conjunction (mirrors_unary hd) (by omega)

theorem balanced_disjunction (t : Tokenized) : Balanced t.tokens (disjunction t.text t.tokens) :=
  balanced_of_mirrors (fun hab => (extends_combinations hab).1)
    fun hd hclock => mirrors_disjunction (mirrors_unary hd) hclock

end Walker

theorem exists_tokenized {text : String} {tokens : List Spanned} (h : tokenize text = .ok tokens) :
    ∃ t : Tokenized, t.text = text ∧ t.tokens = tokens := by
  obtain ⟨lexemes, hlex, rfl⟩ := tokenize_eq_ok_iff.1 h
  exact ⟨⟨text, lexemes, hlex⟩, rfl, rfl⟩

theorem Tokenized.tokenize_eq (t : Tokenized) : tokenize t.text = .ok t.tokens :=
  tokenize_eq_ok_iff.2 ⟨t.lexemes, t.lex_eq, rfl⟩

/-- The text is cut into tokens before any of them is read. -/
theorem parse_of_tokenize_error {text : String} {e : TextError} (h : tokenize text = .error e) :
    parse text = .error e := by
  obtain ⟨fault, rest, hlex, rfl⟩ := tokenize_eq_error_iff.1 h
  unfold parse read
  rw [hlex]

/-- Every token takes a character. -/
theorem length_le_of_lex {cs : List Char} {lexemes : List Lexeme} (h : lex cs = .ok lexemes) :
    lexemes.length ≤ cs.length := by
  fun_induction lex cs generalizing lexemes with
  | case1 =>
    cases h
    exact Nat.le_refl _
  | case2 c cs _ ih => exact Nat.le_succ_of_le (ih h)
  | case3 => cases h
  | case4 c cs _ token rest hread ih =>
    obtain ⟨later, hlater, rfl⟩ := Except.map_eq_ok_iff.1 h
    exact Nat.succ_le_succ ((ih hlater).trans (isSuffix_of_readToken hread).length_le)

/-- **The program with a cursor reads what the readers read**, in bounds all the way. -/
theorem run_of_tokenized (t : Tokenized) {clock : Nat} (hclock : 3 * t.text.length + 3 < clock) :
    ∃ trail, run clock t.text = some (parse t.text, trail) ∧ ∀ c ∈ trail, c.InBounds t.tokens := by
  have hstart : Walker.Faces t 0 (t.lexemes.map Lexeme.token) ⟨⟨0, 0⟩, []⟩ := by
    refine ⟨fun c hc => ?_, rfl, rfl⟩
    rw [List.mem_singleton.1 hc]
    exact ⟨by rw [t.length_tokens]; exact Nat.succ_pos _, Nat.zero_le _⟩
  have hticks : 3 * (t.lexemes.map Lexeme.token).length + 3 < clock := by
    have hlength := length_le_of_lex t.lex_eq
    rw [String.length_toList] at hlength
    rw [List.length_map]
    omega
  have hend := Walker.mirrors_whole hticks _ hstart
  unfold run
  rw [scan_eq_tokenize, t.tokenize_eq]
  dsimp only
  generalize Walker.whole t.text t.tokens _ _ = ended at hend ⊢
  cases hread : ofTokens (t.lexemes.map Lexeme.token) with
  | error failure =>
    obtain ⟨fault, ts⟩ := failure
    rw [hread] at hend
    rw [(parse_eq_error_iff t.lex_eq).2 ⟨fault, ts, hread, rfl⟩]
    cases hend with
    | error hbounds => exact ⟨_, rfl, hbounds⟩
  | ok f =>
    rw [hread] at hend
    rw [(parse_eq_ok_iff_ofTokens t.lex_eq).2 hread]
    cases hend with
    | ok hfaces => exact ⟨_, rfl, hfaces.bounds⟩

/-- An error is at an end of the text, be it lexical or not. -/
theorem exists_suffix_of_parse_error {text : String} {e : TextError} (h : parse text = .error e) :
    ∃ rest fault, rest <:+ text.toList ∧ e = faultAt text.toList fault rest := by
  cases hlex : lex text.toList with
  | error failure =>
    obtain ⟨fault, rest⟩ := failure
    unfold parse read at h
    rw [hlex] at h
    cases h
    exact ⟨rest, fault, suffix_of_lex_error hlex, rfl⟩
  | ok lexemes =>
    obtain ⟨fault, ts, hread, rfl⟩ := (parse_eq_error_iff hlex).1 h
    obtain ⟨front, hfront, -⟩ := ofTokens_error hread
    have hlength : ts.length ≤ lexemes.length := by
      rw [← List.length_map (f := Lexeme.token), hfront, List.length_append]
      exact Nat.le_add_left _ _
    have hplace := List.mem_of_getElem? (getElem?_places hlength)
    exact ⟨_, fault, suffix_of_mem_places hlex hplace, rfl⟩

/-- **Reading never goes out of bounds.** On every text the program with a cursor ends, with a few
ticks for each character, and does not get stuck: no token is looked up past the end, the counter of
levels never goes below zero, and the text is sliced only where a character starts. It reads what
`parse` reads, and wherever it has been, the cursor was at a token or at the end and no more levels
were entered than there may be. The readers of conditions keep to that from any place they can be
called at, and when they return, the counter is what it was. Every error has an offset in the text
where it can be sliced, which leaves the remainder, and a lexical fault anywhere comes before every
syntax error. -/
theorem parse_in_bounds (text : String) :
    (∃ trail, (∀ clock, 3 * text.length + 3 < clock → run clock text = some (parse text, trail))
      ∧ ∀ tokens, tokenize text = .ok tokens →
          ∀ c ∈ trail, c.index < tokens.length ∧ c.depth ≤ maxNesting)
    ∧ (∀ tokens, tokenize text = .ok tokens →
        tokens.getLast? = some (endOf text)
        ∧ Walker.Balanced tokens (Walker.unary text tokens)
        ∧ Walker.Balanced tokens (Walker.conjunction text tokens)
        ∧ Walker.Balanced tokens (Walker.disjunction text tokens))
    ∧ (∀ e, parse text = .error e → e.position ≤ text.utf8ByteSize
        ∧ (⟨e.position⟩ : String.Pos.Raw).IsValid text
        ∧ Text.sliceFrom? text e.position = some e.remainder)
    ∧ ∀ e, tokenize text = .error e → parse text = .error e := by
  refine ⟨?_, fun tokens h => ?_, fun e h => ?_, fun e => parse_of_tokenize_error⟩
  · cases h : tokenize text with
    | error e =>
      refine ⟨[], fun clock _ => ?_, fun _ hok => ?_⟩
      · unfold run
        rw [scan_eq_tokenize, h, parse_of_tokenize_error h]
      · cases hok
    | ok tokens =>
      obtain ⟨t, rfl, rfl⟩ := exists_tokenized h
      obtain ⟨trail, hrun, hbounds⟩ := run_of_tokenized t (Nat.lt_succ_self _)
      refine ⟨trail, fun clock hclock => run_of_le hclock hrun, fun _ hok => ?_⟩
      cases hok
      exact hbounds
  · obtain ⟨t, rfl, rfl⟩ := exists_tokenized h
    exact ⟨List.getLast?_concat, Walker.balanced_unary t, Walker.balanced_conjunction t,
      Walker.balanced_disjunction t⟩
  · obtain ⟨rest, fault, hsuffix, rfl⟩ := exists_suffix_of_parse_error h
    exact Text.slice_of_suffix hsuffix

/-- Two levels deep at the end of a text, behind a letter of two bytes; and a text that starts with
a syntax error and ends with a lexical one. -/
theorem parse_in_bounds_group :
    let text := "NOT (ö = 1"
    let tokens : List Spanned :=
      [⟨some (.word "NOT"), 0⟩, ⟨some .opening, 4⟩, ⟨some (.word "ö"), 5⟩, ⟨some (.op .eq), 8⟩,
       ⟨some (.number (.integer 1)), 10⟩, ⟨none, 11⟩]
    let e : TextError := ⟨11, "", .expectedClosing⟩
    let trail : List Cursor := [⟨5, 2⟩, ⟨4, 2⟩, ⟨3, 2⟩, ⟨2, 2⟩, ⟨1, 2⟩, ⟨1, 1⟩, ⟨0, 1⟩, ⟨0, 0⟩]
    let lexical : TextError := ⟨5, ";", .unexpectedCharacter ';'⟩
    tokenize text = .ok tokens
      ∧ (run 34 text = some (.error e, trail)
        ∧ ∀ c ∈ trail, c.index < tokens.length ∧ c.depth ≤ maxNesting)
      ∧ Walker.Balanced tokens (Walker.unary text tokens)
      ∧ (parse text = .error e ∧ (⟨e.position⟩ : String.Pos.Raw).IsValid text
        ∧ Text.sliceFrom? text e.position = some e.remainder)
      ∧ tokenize "= ö ;" = .error lexical ∧ parse "= ö ;" = .error lexical := by
  intro text tokens e trail lexical
  have htokens : tokenize text = .ok tokens := by decide +kernel
  have hrun : run 34 text = some (.error e, trail) := by decide +kernel
  have hlexical : tokenize "= ö ;" = .error lexical := by decide +kernel
  obtain ⟨⟨trail', hruns, hbounds⟩, hbalanced, herror, -⟩ := parse_in_bounds text
  have hparse := hruns 34 (by decide +kernel)
  obtain ⟨hresult, rfl⟩ := Prod.mk.inj (Option.some.inj (hrun.symm.trans hparse))
  exact ⟨htokens, ⟨hrun, hbounds tokens htokens⟩, (hbalanced tokens htokens).2.1,
    ⟨hresult.symm, (herror e hresult.symm).2⟩, hlexical,
    (parse_in_bounds "= ö ;").2.2.2 lexical hlexical⟩

end QueryTemplate.Filter
