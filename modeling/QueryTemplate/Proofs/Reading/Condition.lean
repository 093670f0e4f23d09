import QueryTemplate.Proofs.Reading.Predicate

/-!
# Reading conditions

The reader of whole conditions accepts the grammar and nothing else.

* **`front_of_unary`**: what is read is derived, by induction on the levels of nesting that are left.
  A reader gives one level less to the condition inside a `NOT` or a group and its own levels to the
  conditions beside each other, so the number never has to be restored.
* **`leadsTo_of_derives`**: what is derived is read, by induction on the derivation. A chain is
  derived from the left and read by a loop, so for chains the invariant says where in its loop the
  reader is (`LeadsTo`).
* **`disjunction_eq_ok_iff`** puts the two together for every number of levels, which also makes the
  grammar unambiguous (`tree_unique`).
-/

namespace QueryTemplate.Filter

/-! ## Chains -/

section Chain

variable {k : Keyword} {join : Filter → Filter → Filter} {one : Reader Filter}

theorem chain_of_eat?_eq_none {ts : List Token} (h : eat? k ts = none) (n : Nat) (left : Filter) :
    chain k join one n left ts = .ok (left, ts) := by
  cases n with
  | zero => rfl
  | succ n => rw [chain, h]

/-- **Enough rounds are as good as any.** Each round takes a keyword away, so more rounds than there
are tokens make no difference. -/
theorem chain_eq_of_length_le (hone : ∀ ts f rest, one ts = .ok (f, rest) → rest <:+ ts)
    {m n : Nat} {ts : List Token} (hm : ts.length ≤ m) (hn : ts.length ≤ n) (left : Filter) :
    chain k join one m left ts = chain k join one n left ts := by
  induction m generalizing n ts left with
  | zero =>
    -- no rounds allowed means no tokens left, so neither loop starts
    have hts : ts = [] := List.eq_nil_of_length_eq_zero (by omega)
    rw [chain_of_eat?_eq_none (by rw [hts]; rfl), chain_of_eat?_eq_none (by rw [hts]; rfl)]
  | succ m ih =>
    cases hk : eat? k ts with
    | none => rw [chain_of_eat?_eq_none hk, chain_of_eat?_eq_none hk]
    | some rest =>
      obtain ⟨t, rfl, _⟩ := eat?_eq_some_iff.1 hk
      cases n with
      | zero => simp at hn
      | succ n =>
        simp only [List.length_cons] at hm hn
        simp only [chain, hk]
        cases h : one rest with
        | error e => rfl
        | ok p =>
          obtain ⟨right, later⟩ := p
          -- the keyword is gone in both, and the condition took no token back
          have hlen := (hone _ _ _ h).length_le
          exact ih (show later.length ≤ m by omega) (show later.length ≤ n by omega) _

theorem chain_cons (hone : ∀ ts f rest, one ts = .ok (f, rest) → rest <:+ ts)
    {t : Token} {ts rest : List Token} {right : Filter} (ht : t.keyword? = some k)
    (h : one ts = .ok (right, rest)) (left : Filter) :
    chain k join one (t :: ts).length left (t :: ts)
      = chain k join one rest.length (join left right) rest := by
  have hlen := (hone _ _ _ h).length_le
  rw [List.length_cons, chain, eat?_cons _ ht]
  show (one ts >>= _) = _
  rw [h]
  exact chain_eq_of_length_le hone hlen (Nat.le_refl _) (join left right)

/-- A chain takes what the conditions of the chain derive, one after the other. -/
theorem front_of_chain {P Q : List Token → Filter → Prop}
    (hone : ∀ ts f rest, one ts = .ok (f, rest) → ∃ front, ts = front ++ rest ∧ P front f)
    (hjoin : ∀ {ts us t f g}, Q ts f → t.keyword? = some k → P us g → Q (ts ++ t :: us) (join f g))
    {n : Nat} {ts rest : List Token} {left f : Filter}
    (h : chain k join one n left ts = .ok (f, rest)) {front : List Token} (hleft : Q front left) :
    ∃ more, ts = more ++ rest ∧ Q (front ++ more) f := by
  induction n generalizing ts left front with
  | zero =>
    cases h
    exact ⟨[], rfl, by simpa using hleft⟩
  | succ n ih =>
    rw [chain] at h
    cases hk : eat? k ts with
    | none =>
      rw [hk] at h
      cases h
      exact ⟨[], rfl, by simpa using hleft⟩
    | some us =>
      obtain ⟨t, rfl, ht⟩ := eat?_eq_some_iff.1 hk
      rw [hk] at h
      obtain ⟨⟨right, vs⟩, hright, hrest⟩ := Except.bind_eq_ok_iff.1 h
      obtain ⟨mid, rfl, hmid⟩ := hone _ _ _ hright
      -- what was read so far, the keyword and the condition are one condition of the chain
      obtain ⟨more, rfl, hmore⟩ := ih hrest (hjoin hleft ht hmid)
      refine ⟨t :: (mid ++ more), by simp, ?_⟩
      rw [List.append_assoc, List.cons_append] at hmore
      exact hmore

end Chain

/-! ## Conditions -/

theorem front_of_conjunction {one : Reader Filter} {d : Nat}
    (hone : ∀ ts f rest, one ts = .ok (f, rest) →
      ∃ front, ts = front ++ rest ∧ DerivesWithin d .unary front f)
    {ts rest : List Token} {f : Filter} (h : conjunction one ts = .ok (f, rest)) :
    ∃ front, ts = front ++ rest ∧ DerivesWithin d .conjunction front f := by
  obtain ⟨⟨left, us⟩, hleft, hchain⟩ := Except.bind_eq_ok_iff.1 h
  obtain ⟨front, rfl, n, hn, hd⟩ := hone _ _ _ hleft
  obtain ⟨more, rfl, hmore⟩ := front_of_chain (Q := DerivesWithin d .conjunction) hone
    (fun ⟨m, hm, hf⟩ ht ⟨n, hn, hg⟩ => ⟨max m n, Nat.max_le.2 ⟨hm, hn⟩, .and hf ht hg⟩)
    hchain ⟨n, hn, .unary hd⟩
  exact ⟨front ++ more, by simp, hmore⟩

theorem front_of_disjunction {one : Reader Filter} {d : Nat}
    (hone : ∀ ts f rest, one ts = .ok (f, rest) →
      ∃ front, ts = front ++ rest ∧ DerivesWithin d .unary front f)
    {ts rest : List Token} {f : Filter} (h : disjunction one ts = .ok (f, rest)) :
    ∃ front, ts = front ++ rest ∧ DerivesWithin d .disjunction front f := by
  obtain ⟨⟨left, us⟩, hleft, hchain⟩ := Except.bind_eq_ok_iff.1 h
  obtain ⟨front, rfl, n, hn, hd⟩ := front_of_conjunction hone hleft
  obtain ⟨more, rfl, hmore⟩ := front_of_chain (Q := DerivesWithin d .disjunction)
    (fun _ _ _ => front_of_conjunction hone)
    (fun ⟨m, hm, hf⟩ ht ⟨n, hn, hg⟩ => ⟨max m n, Nat.max_le.2 ⟨hm, hn⟩, .or hf ht hg⟩)
    hchain ⟨n, hn, .conjunction hd⟩
  exact ⟨front ++ more, by simp, hmore⟩

theorem front_of_predicate {d : Nat} {ts rest : List Token} {f : Filter}
    (h : predicate ts = .ok (f, rest)) :
    ∃ front, ts = front ++ rest ∧ DerivesWithin d .unary front f := by
  obtain ⟨front, hfront, hp⟩ := (reads_predicate _ _ _).1 h
  exact ⟨front, hfront, 0, Nat.zero_le d, .predicate hp⟩

/-- With `d` levels of nesting left, a unary condition that is read is one of the grammar's that
nests at most `d` levels. -/
theorem front_of_unary {d : Nat} {ts rest : List Token} {f : Filter}
    (h : unary d ts = .ok (f, rest)) :
    ∃ front, ts = front ++ rest ∧ DerivesWithin d .unary front f := by
  induction d generalizing ts rest f with
  | zero =>
    unfold unary at h
    split at h
    · cases h
    · exact front_of_predicate h
  | succ d ih =>
    unfold unary at h
    split at h
    · -- a `NOT` takes one of the levels
      rename_i us hk
      obtain ⟨t, rfl, ht⟩ := eat?_eq_some_iff.1 hk
      obtain ⟨⟨inner, vs⟩, hinner, he⟩ := Except.bind_eq_ok_iff.1 h
      cases he
      obtain ⟨front, rfl, n, hn, hd⟩ := ih hinner
      exact ⟨t :: front, rfl, n + 1, by omega, .not ht hd⟩
    · split at h
      · -- so does a group, for both chains inside it
        rename_i us _
        obtain ⟨⟨inner, vs⟩, hinner, he⟩ := Except.bind_eq_ok_iff.1 h
        obtain ⟨ws, hclosing, he⟩ := Except.bind_eq_ok_iff.1 he
        cases he
        obtain ⟨front, rfl, n, hn, hd⟩ := front_of_disjunction (fun _ _ _ => ih) hinner
        rw [expect_eq_ok_iff.1 hclosing]
        exact ⟨.opening :: (front ++ [.closing]), by simp, n + 1, by omega, .group hd⟩
      · exact front_of_predicate h

/-! ## Derivations are followed -/

theorem Stands.keyword?_ne_not {t : Token} {o : Operand} (h : Stands t o) :
    t.keyword? ≠ some .not_ := by
  cases h with
  | text s => simp [Token.keyword?]
  | number v => simp [Token.keyword?]
  | param name => simp [Token.keyword?]
  | true_ h => rw [h]; decide
  | false_ h => rw [h]; decide
  | null h => rw [h]; decide
  | field h =>
    show Keyword.ofWord? _ ≠ _
    rw [h]
    decide

theorem Stands.ne_opening {t : Token} {o : Operand} (h : Stands t o) : t ≠ .opening := by
  rintro rfl
  cases h <;> contradiction

theorem IsPredicate.starts {ts : List Token} {f : Filter} (h : IsPredicate ts f) :
    ∃ t us o, ts = t :: us ∧ Stands t o := by
  cases h with
  | compare _ hl _ => exact ⟨_, _, _, rfl, hl⟩
  | like hl _ _ => exact ⟨_, _, _, rfl, hl⟩
  | notLike hl _ _ _ => exact ⟨_, _, _, rfl, hl⟩
  | isIn hl _ _ => exact ⟨_, _, _, rfl, hl⟩
  | notIn hl _ _ _ => exact ⟨_, _, _, rfl, hl⟩
  | isNull hl _ _ => exact ⟨_, _, _, rfl, hl⟩
  | isNotNull hl _ _ _ => exact ⟨_, _, _, rfl, hl⟩

/-- Behind neither `NOT` nor a parenthesis, whatever nesting is left makes no difference. -/
theorem unary_of_head? {ts : List Token} (hnot : eat? .not_ ts = none)
    (hopening : ts.head? ≠ some .opening) (d : Nat) : unary d ts = predicate ts := by
  cases d with
  | zero => simp [unary, hnot, hopening]
  | succ d =>
    unfold unary
    rw [hnot]
    dsimp only
    split
    · exact absurd rfl hopening
    · rfl

theorem unary_of_stands {t : Token} {o : Operand} (h : Stands t o) (d : Nat) (ts : List Token) :
    unary d (t :: ts) = predicate (t :: ts) := by
  have hopening : (t :: ts).head? ≠ some .opening := fun ht => h.ne_opening (Option.some.inj ht)
  exact unary_of_head? (eat?_cons_of_ne ts h.keyword?_ne_not) hopening d

/-- Where a derivation at a level leaves the reader of that level. The reader of unary conditions
is done; the other two are in their chain, with the derived tree read so far. -/
def LeadsTo (d : Nat) (ts : List Token) (f : Filter) (rest : List Token) : Level → Prop
  | .unary => unary d (ts ++ rest) = .ok (f, rest)
  | .conjunction =>
    conjunction (unary d) (ts ++ rest) = chain .and_ .and (unary d) rest.length f rest
  | .disjunction => eat? .and_ rest = none →
    disjunction (unary d) (ts ++ rest)
      = chain .or_ .or (conjunction (unary d)) rest.length f rest

theorem suffix_of_unary {d : Nat} (ts : List Token) (f : Filter) (rest : List Token)
    (h : unary d ts = .ok (f, rest)) : rest <:+ ts := by
  obtain ⟨front, hfront, _⟩ := front_of_unary h
  exact ⟨front, hfront.symm⟩

theorem suffix_of_conjunction {d : Nat} (ts : List Token) (f : Filter) (rest : List Token)
    (h : conjunction (unary d) ts = .ok (f, rest)) : rest <:+ ts := by
  obtain ⟨front, hfront, _⟩ := front_of_conjunction (fun _ _ _ => front_of_unary) h
  exact ⟨front, hfront.symm⟩

/-- **The reader follows every derivation** that nests no deeper than the levels it has left.
Induction on the derivation; the chains are followed one round at a time, so a tree that leans to
the left is the one that the loop builds. -/
theorem leadsTo_of_derives {level : Level} {n : Nat} {ts : List Token} {f : Filter}
    (h : Derives level n ts f) {d : Nat} (hd : n ≤ d) (rest : List Token) :
    LeadsTo d ts f rest level := by
  induction h generalizing d rest with
  | predicate h =>
    obtain ⟨t, us, o, rfl, ht⟩ := h.starts
    show unary d (t :: (us ++ rest)) = _
    rw [unary_of_stands ht]
    exact predicate_of_isPredicate h rest
  | @not t n ts f ht _ ih =>
    obtain ⟨d, rfl⟩ : ∃ e, d = e + 1 := ⟨d - 1, by omega⟩
    have hinner : unary d (ts ++ rest) = .ok (f, rest) := ih (by omega) rest
    show unary (d + 1) (t :: (ts ++ rest)) = _
    unfold unary
    rw [eat?_cons _ ht]
    show (unary d (ts ++ rest) >>= _) = _
    rw [hinner]
    rfl
  | @group n ts f _ ih =>
    obtain ⟨d, rfl⟩ : ∃ e, d = e + 1 := ⟨d - 1, by omega⟩
    -- the closing parenthesis is neither `AND` nor `OR`, so both chains stop in front of it
    have hinner : disjunction (unary d) (ts ++ .closing :: rest) = .ok (f, .closing :: rest) :=
      (ih (by omega) (.closing :: rest) rfl).trans (chain_of_eat?_eq_none rfl _ _)
    show unary (d + 1) (.opening :: (ts ++ [.closing] ++ rest)) = _
    rw [List.append_assoc, List.singleton_append]
    show (disjunction (unary d) (ts ++ .closing :: rest) >>= _) = _
    rw [hinner]
    rfl
  | @unary n ts f _ ih =>
    have hone : unary d (ts ++ rest) = .ok (f, rest) := ih hd rest
    show (unary d (ts ++ rest) >>= _) = _
    rw [hone]
    rfl
  | @and t m n ts us f g _ ht _ ihl ihr =>
    -- after the left side the reader is in its chain, where `AND` starts one more round
    have hleft : conjunction (unary d) (ts ++ t :: (us ++ rest)) = _ :=
      ihl (by omega) (t :: (us ++ rest))
    have hright : unary d (us ++ rest) = .ok (g, rest) := ihr (by omega) rest
    show conjunction (unary d) (ts ++ t :: us ++ rest) = _
    rw [List.append_assoc, List.cons_append, hleft]
    exact chain_cons suffix_of_unary ht hright f
  | @conjunction n ts f _ ih =>
    intro hrest
    have hone : conjunction (unary d) (ts ++ rest) = .ok (f, rest) :=
      (ih hd rest).trans (chain_of_eat?_eq_none hrest _ _)
    show (conjunction (unary d) (ts ++ rest) >>= _) = _
    rw [hone]
    rfl
  | @or t m n ts us f g _ ht _ ihl ihr =>
    intro hrest
    -- `OR` is no `AND`, so the conjunctions on both sides end where they should
    have hand : eat? .and_ (t :: (us ++ rest)) = none :=
      eat?_cons_of_ne _ (by rw [ht]; decide)
    have hleft : disjunction (unary d) (ts ++ t :: (us ++ rest)) = _ :=
      ihl (by omega) (t :: (us ++ rest)) hand
    have hright : conjunction (unary d) (us ++ rest) = .ok (g, rest) :=
      (ihr (by omega) rest).trans (chain_of_eat?_eq_none hrest _ _)
    show disjunction (unary d) (ts ++ t :: us ++ rest) = _
    rw [List.append_assoc, List.cons_append, hleft]
    exact chain_cons suffix_of_conjunction ht hright f

/-- With `d` levels of nesting, the tokens are read whole exactly if the grammar derives them within
these levels. -/
theorem disjunction_eq_ok_iff {d : Nat} {ts : List Token} {f : Filter} :
    disjunction (unary d) ts = .ok (f, []) ↔ DerivesWithin d .disjunction ts f := by
  constructor
  · intro h
    obtain ⟨front, rfl, hd⟩ := front_of_disjunction (fun _ _ _ => front_of_unary) h
    simpa using hd
  · rintro ⟨n, hn, hd⟩
    have h : disjunction (unary d) (ts ++ []) = _ := leadsTo_of_derives hd hn [] rfl
    rw [List.append_nil] at h
    exact h

/-- **The grammar is unambiguous.** -/
theorem tree_unique {m n : Nat} {ts : List Token} {f g : Filter}
    (hf : Derives .disjunction m ts f) (hg : Derives .disjunction n ts g) : f = g := by
  -- the reader has one answer, and follows both with the levels of the deeper one
  have hf' := disjunction_eq_ok_iff.2 ⟨m, Nat.le_max_left m n, hf⟩
  have hg' := disjunction_eq_ok_iff.2 ⟨n, Nat.le_max_right m n, hg⟩
  rw [hf'] at hg'
  cases hg'
  rfl

theorem ofTokens_eq_ok_iff {ts : List Token} {f : Filter} :
    ofTokens ts = .ok f ↔ DerivesWithin maxNesting .disjunction ts f := by
  rw [← disjunction_eq_ok_iff]
  constructor
  · intro h
    obtain ⟨⟨g, rest⟩, hg, he⟩ := Except.bind_eq_ok_iff.1 h
    cases rest with
    | nil =>
      cases he
      exact hg
    | cons t rest => cases he
  · intro h
    exact Except.bind_eq_ok_iff.2 ⟨(f, []), h, rfl⟩

theorem parse_eq_ok_iff_ofTokens {text : String} {lexemes : List Lexeme}
    (h : lex text.toList = .ok lexemes) {f : Filter} :
    parse text = .ok f ↔ ofTokens (lexemes.map Lexeme.token) = .ok f := by
  unfold parse read
  rw [h]
  simp only
  cases ofTokens (lexemes.map Lexeme.token) with
  | ok g => simp
  | error e => simp

/-- **The reader of filters accepts exactly the grammar.** Text that the lexer cuts into tokens is
read as a tree exactly if the tokens derive that tree with at most 64 `NOT`s and groups around any
point of the derivation; and whatever the nesting, tokens derive no two trees. -/
theorem parse_eq_ok_iff_derives {text : String} {lexemes : List Lexeme}
    (h : lex text.toList = .ok lexemes) :
    (∀ f, parse text = .ok f ↔ DerivesWithin 64 .disjunction (lexemes.map Lexeme.token) f)
      ∧ ∀ m n f g, Derives .disjunction m (lexemes.map Lexeme.token) f →
          Derives .disjunction n (lexemes.map Lexeme.token) g → f = g := by
  constructor
  · intro f
    rw [parse_eq_ok_iff_ofTokens h]
    exact ofTokens_eq_ok_iff
  · intro m n f g hf hg
    exact tree_unique hf hg

/-- Both uses of `NOT`, a group, a list and a keyword in small letters. -/
theorem parse_eq_ok_iff_derives_negations :
    let lexemes : List Lexeme :=
      [⟨.word "NOT", "NOT (a = 1) and b NOT IN (:p)".toList⟩,
       ⟨.opening, "(a = 1) and b NOT IN (:p)".toList⟩,
       ⟨.word "a", "a = 1) and b NOT IN (:p)".toList⟩,
       ⟨.op .eq, "= 1) and b NOT IN (:p)".toList⟩,
       ⟨.number (.integer 1), "1) and b NOT IN (:p)".toList⟩,
       ⟨.closing, ") and b NOT IN (:p)".toList⟩,
       ⟨.word "and", "and b NOT IN (:p)".toList⟩,
       ⟨.word "b", "b NOT IN (:p)".toList⟩,
       ⟨.word "NOT", "NOT IN (:p)".toList⟩,
       ⟨.word "IN", "IN (:p)".toList⟩,
       ⟨.opening, "(:p)".toList⟩,
       ⟨.param "p", ":p)".toList⟩,
       ⟨.closing, ")".toList⟩]
    lex "NOT (a = 1) and b NOT IN (:p)".toList = .ok lexemes
      ∧ (∀ f, parse "NOT (a = 1) and b NOT IN (:p)" = .ok f ↔
          DerivesWithin 64 .disjunction (lexemes.map Lexeme.token) f)
      ∧ ∀ m n f g, Derives .disjunction m (lexemes.map Lexeme.token) f →
          Derives .disjunction n (lexemes.map Lexeme.token) g → f = g := by
  intro lexemes
  have h : lex "NOT (a = 1) and b NOT IN (:p)".toList = .ok lexemes := by decide +kernel
  exact ⟨h, parse_eq_ok_iff_derives h⟩

end QueryTemplate.Filter
