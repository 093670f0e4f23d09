import QueryTemplate.Proofs.Grammar

/-!
# Reading predicates

The readers of single tokens, operands, lists and predicates against the grammar. None of them looks
past what it takes, so each succeeds exactly on the texts whose front the grammar derives, whatever
stands behind that front (`Reads`).

* **`ofToken_eq_ok_iff`**: a token is read as the operand it stands for, and no other token is.
* **`reads_itemList`**, **`reads_predicate`**: the same for a list in parentheses and for a predicate.
  The words `NOT` after an operand, after `IS` and in front of a condition do not get into each
  other's way, because the reader has taken the operand before it asks for them.
-/

namespace QueryTemplate.Filter

/-- `Reads one P`: the reader succeeds exactly on the texts with a front in `P`, takes just that
front and leaves the rest alone. -/
def Reads {α : Type} (one : Reader α) (P : List Token → α → Prop) : Prop :=
  ∀ ts a rest, one ts = .ok (a, rest) ↔ ∃ front, ts = front ++ rest ∧ P front a

/-! ## Single tokens -/

theorem keyword?_eq_some_iff {t : Token} {k : Keyword} :
    t.keyword? = some k ↔ ∃ word, t = .word word ∧ Keyword.ofWord? word = some k := by
  cases t <;> simp [Token.keyword?]

theorem eat?_eq_some_iff {k : Keyword} {ts rest : List Token} :
    eat? k ts = some rest ↔ ∃ t, ts = t :: rest ∧ t.keyword? = some k := by
  cases ts with
  | nil => simp [eat?]
  | cons t ts =>
    rw [eat?]
    by_cases h : t.keyword? = some k
    · rw [if_pos h]
      constructor
      · intro he
        exact ⟨t, by rw [Option.some.inj he], h⟩
      · rintro ⟨u, hu, _⟩
        rw [(List.cons.inj hu).2]
    · rw [if_neg h]
      constructor
      · intro he
        cases he
      · rintro ⟨u, hu, hk⟩
        exact absurd ((List.cons.inj hu).1 ▸ hk) h

theorem eat?_cons {k : Keyword} {t : Token} (ts : List Token) (h : t.keyword? = some k) :
    eat? k (t :: ts) = some ts :=
  eat?_eq_some_iff.2 ⟨t, rfl, h⟩

theorem eat?_cons_of_ne {k : Keyword} {t : Token} (ts : List Token) (h : t.keyword? ≠ some k) :
    eat? k (t :: ts) = none := by
  rw [eat?, if_neg h]

theorem expect_eq_ok_iff {t : Token} {fault : Fault} {ts rest : List Token} :
    expect t fault ts = .ok rest ↔ ts = t :: rest := by
  cases ts with
  | nil => simp [expect]
  | cons u ts =>
    rw [expect]
    by_cases h : u = t
    · rw [if_pos h]
      simp [h]
    · rw [if_neg h]
      simp [h]

theorem ofWord_eq_ok_iff {word : String} {o : Operand} :
    ofWord word = .ok o ↔ Stands (.word word) o := by
  have hk : (Token.word word).keyword? = Keyword.ofWord? word := rfl
  constructor
  · intro h
    unfold ofWord at h
    split at h <;> cases h
    · exact .field ‹_›
    · exact .true_ ‹_›
    · exact .false_ ‹_›
    · exact .null ‹_›
  · intro h
    unfold ofWord
    cases h with
    | true_ h => rw [← hk, h]
    | false_ h => rw [← hk, h]
    | null h => rw [← hk, h]
    | field h => rw [h]

theorem ofToken_eq_ok_iff {t : Token} {o : Operand} : ofToken t = .ok o ↔ Stands t o := by
  constructor
  · intro h
    cases t with
    | word word => exact ofWord_eq_ok_iff.1 h
    | param name => cases h; exact .param name
    | text s => cases h; exact .text s
    | number v => cases h; exact .number v
    | op o => cases h
    | opening => cases h
    | closing => cases h
    | comma => cases h
  · intro h
    cases h with
    | text s => rfl
    | number v => rfl
    | param name => rfl
    | true_ h =>
      obtain ⟨word, rfl, _⟩ := keyword?_eq_some_iff.1 h
      exact ofWord_eq_ok_iff.2 (.true_ h)
    | false_ h =>
      obtain ⟨word, rfl, _⟩ := keyword?_eq_some_iff.1 h
      exact ofWord_eq_ok_iff.2 (.false_ h)
    | null h =>
      obtain ⟨word, rfl, _⟩ := keyword?_eq_some_iff.1 h
      exact ofWord_eq_ok_iff.2 (.null h)
    | field h => exact ofWord_eq_ok_iff.2 (.field h)

/-! ## Operands and lists -/

theorem operand_eq_ok_iff {ts rest : List Token} {o : Operand} :
    operand ts = .ok (o, rest) ↔ ∃ t, ts = t :: rest ∧ Stands t o := by
  cases ts with
  | nil => simp [operand]
  | cons t ts =>
    rw [operand]
    cases h : ofToken t with
    | ok p =>
      have hp : Stands t p := ofToken_eq_ok_iff.1 h
      constructor
      · intro he
        cases he
        exact ⟨t, rfl, hp⟩
      · rintro ⟨u, hu, ho⟩
        cases hu
        have heq : ofToken t = .ok o := ofToken_eq_ok_iff.2 ho
        rw [h] at heq
        cases heq
        rfl
    | error fault =>
      constructor
      · intro he
        cases he
      · rintro ⟨u, hu, ho⟩
        cases hu
        rw [ofToken_eq_ok_iff.2 ho] at h
        cases h

theorem itemList_of_moreItems {ts rest : List Token} {os : List Operand}
    (h : moreItems ts = .ok (os, rest)) {t : Token} {o : Operand} (ht : Stands t o) :
    ∃ front, t :: ts = front ++ rest ∧ ItemList front (o :: os) := by
  fun_induction moreItems ts generalizing t o os with
  | case1 u ts p hu ih =>
    -- a comma and an operand, which is in front of the items after it in turn
    obtain ⟨⟨ps, r⟩, hps, he⟩ := Except.map_eq_ok_iff.1 h
    cases he
    obtain ⟨front, hfront, hlist⟩ := ih hps (ofToken_eq_ok_iff.1 hu)
    exact ⟨t :: .comma :: front, by rw [hfront]; rfl, .cons ht hlist⟩
  | case2 u ts fault hu => cases h
  | case3 => cases h
  | case4 ts _ _ =>
    cases h
    exact ⟨[t], rfl, .single ht⟩

/-- A list is read to its end where no further comma follows it. -/
theorem moreItems_of_itemList {front rest : List Token} {os : List Operand}
    (h : ItemList front os) (hrest : rest.head? ≠ some .comma) :
    ∃ t o more os', front = t :: more ∧ os = o :: os' ∧ Stands t o
      ∧ moreItems (more ++ rest) = .ok (os', rest) := by
  induction h with
  | single h =>
    refine ⟨_, _, [], [], rfl, rfl, h, ?_⟩
    cases rest with
    | nil => rfl
    | cons c rest =>
      -- the first two equations of the reader ask for a comma in front
      have hc : c ≠ .comma := fun hc => hrest (by rw [hc]; rfl)
      cases c with
      | comma => exact absurd rfl hc
      | _ => rfl
  | cons h _ ih =>
    obtain ⟨u, p, more, os', rfl, rfl, hu, hmore⟩ := ih
    refine ⟨_, _, .comma :: u :: more, p :: os', rfl, rfl, h, ?_⟩
    show moreItems (.comma :: u :: (more ++ rest)) = _
    rw [moreItems, ofToken_eq_ok_iff.2 hu]
    show (fun x : List Operand × List Token => (p :: x.1, x.2)) <$> moreItems (more ++ rest) = _
    rw [hmore]
    rfl

theorem reads_itemList :
    Reads itemList fun ts os => ∃ inner, ts = .opening :: (inner ++ [.closing]) ∧ ItemList inner os := by
  intro ts os rest
  constructor
  · intro h
    obtain ⟨ts₁, h₁, h⟩ := Except.bind_eq_ok_iff.1 h
    obtain ⟨⟨o, ts₂⟩, h₂, h⟩ := Except.bind_eq_ok_iff.1 h
    obtain ⟨⟨os', ts₃⟩, h₃, h⟩ := Except.bind_eq_ok_iff.1 h
    obtain ⟨ts₄, h₄, h⟩ := Except.bind_eq_ok_iff.1 h
    cases h
    obtain ⟨t, rfl, ht⟩ := operand_eq_ok_iff.1 h₂
    obtain ⟨front, hfront, hlist⟩ := itemList_of_moreItems h₃ ht
    rw [expect_eq_ok_iff.1 h₁, hfront, expect_eq_ok_iff.1 h₄]
    exact ⟨.opening :: (front ++ [.closing]), by simp, front, rfl, hlist⟩
  · rintro ⟨front, rfl, inner, rfl, hlist⟩
    -- the parenthesis behind the list is no comma, so the items end there
    obtain ⟨t, o, more, os', rfl, rfl, ht, hmore⟩ :=
      moreItems_of_itemList hlist (by simp : (Token.closing :: rest).head? ≠ some .comma)
    refine Except.bind_eq_ok_iff.2 ⟨t :: (more ++ .closing :: rest), ?_, ?_⟩
    · rw [expect_eq_ok_iff]
      simp
    refine Except.bind_eq_ok_iff.2 ⟨(o, more ++ .closing :: rest), ?_, ?_⟩
    · exact operand_eq_ok_iff.2 ⟨t, rfl, ht⟩
    refine Except.bind_eq_ok_iff.2 ⟨(os', .closing :: rest), hmore, ?_⟩
    exact Except.bind_eq_ok_iff.2 ⟨rest, expect_eq_ok_iff.2 rfl, rfl⟩

/-! ## Predicates -/

theorem isPredicate_of_nullTest {l : Operand} {ts rest : List Token} {f : Filter}
    (h : nullTest l ts = .ok (f, rest)) {t i : Token} (hl : Stands t l)
    (hi : i.keyword? = some .is_) :
    ∃ front, t :: i :: ts = front ++ rest ∧ IsPredicate front f := by
  cases hn : eat? .not_ ts with
  | some us =>
    -- `IS NOT`, after which only `NULL` can stand
    obtain ⟨n, rfl, hn'⟩ := eat?_eq_some_iff.1 hn
    simp only [nullTest, hn] at h
    cases hz : eat? .null us with
    | some vs =>
      obtain ⟨z, rfl, hz'⟩ := eat?_eq_some_iff.1 hz
      rw [hz] at h
      cases h
      exact ⟨[t, i, n, z], rfl, .isNotNull hl hi hn' hz'⟩
    | none =>
      rw [hz] at h
      cases h
  | none =>
    simp only [nullTest, hn] at h
    cases hz : eat? .null ts with
    | some vs =>
      obtain ⟨z, rfl, hz'⟩ := eat?_eq_some_iff.1 hz
      rw [hz] at h
      cases h
      exact ⟨[t, i, z], rfl, .isNull hl hi hz'⟩
    | none =>
      rw [hz] at h
      cases h

theorem isPredicate_of_membership {l : Operand} {negated : Bool} {ts rest : List Token} {f : Filter}
    (h : membership l negated ts = .ok (f, rest)) {t : Token} (hl : Stands t l)
    {nots : List Token} (hnots : if negated then ∃ n, nots = [n] ∧ n.keyword? = some .not_
      else nots = []) :
    ∃ front, t :: (nots ++ ts) = front ++ rest ∧ IsPredicate front f := by
  -- `nots` is the `NOT` that the flag remembers
  cases hk : eat? .like ts with
  | some us =>
    obtain ⟨k, rfl, hk'⟩ := eat?_eq_some_iff.1 hk
    simp only [membership, hk] at h
    obtain ⟨⟨r, vs⟩, hr, h⟩ := Except.bind_eq_ok_iff.1 h
    cases h
    obtain ⟨u, rfl, hu⟩ := operand_eq_ok_iff.1 hr
    cases negated with
    | true =>
      obtain ⟨n, rfl, hn⟩ := hnots
      exact ⟨[t, n, k, u], rfl, .notLike hl hn hk' hu⟩
    | false =>
      rw [show nots = [] from hnots]
      exact ⟨[t, k, u], rfl, .like hl hk' hu⟩
  | none =>
    simp only [membership, hk] at h
    cases hi : eat? .in_ ts with
    | some us =>
      obtain ⟨k, rfl, hk'⟩ := eat?_eq_some_iff.1 hi
      rw [hi] at h
      obtain ⟨⟨os, vs⟩, hos, h⟩ := Except.bind_eq_ok_iff.1 h
      cases h
      obtain ⟨front, rfl, inner, rfl, hlist⟩ := (reads_itemList _ _ _).1 hos
      cases negated with
      | true =>
        obtain ⟨n, rfl, hn⟩ := hnots
        exact ⟨t :: n :: k :: .opening :: (inner ++ [.closing]), rfl, .notIn hl hn hk' hlist⟩
      | false =>
        rw [show nots = [] from hnots]
        exact ⟨t :: k :: .opening :: (inner ++ [.closing]), rfl, .isIn hl hk' hlist⟩
    | none =>
      rw [hi] at h
      cases h

/-- What is read after an operand ends a predicate that began with it. So it is with what is read
after `IS`, and from `LIKE` or `IN` on, in the two lemmas above. -/
theorem isPredicate_of_predicateAfter {l : Operand} {ts rest : List Token} {f : Filter}
    (h : predicateAfter l ts = .ok (f, rest)) {t : Token} (hl : Stands t l) :
    ∃ front, t :: ts = front ++ rest ∧ IsPredicate front f := by
  unfold predicateAfter at h
  split at h
  · rename_i o us
    obtain ⟨⟨r, vs⟩, hr, h⟩ := Except.bind_eq_ok_iff.1 h
    cases h
    obtain ⟨u, rfl, hu⟩ := operand_eq_ok_iff.1 hr
    exact ⟨[t, .op o, u], rfl, .compare o hl hu⟩
  · cases hi : eat? .is_ ts with
    | some us =>
      obtain ⟨i, rfl, hi'⟩ := eat?_eq_some_iff.1 hi
      rw [hi] at h
      exact isPredicate_of_nullTest h hl hi'
    | none =>
      rw [hi] at h
      cases hn : eat? .not_ ts with
      | some us =>
        obtain ⟨n, rfl, hn'⟩ := eat?_eq_some_iff.1 hn
        rw [hn] at h
        exact isPredicate_of_membership h hl (show ∃ m, [n] = [m] ∧ _ from ⟨n, rfl, hn'⟩)
      | none =>
        rw [hn] at h
        exact isPredicate_of_membership h hl (show ([] : List Token) = [] from rfl)

theorem predicateAfter_cons {t : Token} {k : Keyword} (h : t.keyword? = some k) (l : Operand)
    (ts : List Token) :
    predicateAfter l (t :: ts) =
      if k = .is_ then nullTest l ts
      else if k = .not_ then membership l true ts
      else membership l false (t :: ts) := by
  obtain ⟨word, rfl, _⟩ := keyword?_eq_some_iff.1 h
  simp only [predicateAfter, eat?, h, Option.some.injEq]
  cases k <;> rfl

theorem membership_like {k u : Token} {r : Operand} (hk : k.keyword? = some .like)
    (hr : Stands u r) (l : Operand) (negated : Bool) (rest : List Token) :
    membership l negated (k :: u :: rest)
      = .ok (.compare l (if negated then .notLike else .like) r, rest) := by
  simp only [membership, eat?_cons _ hk]
  rw [operand_eq_ok_iff.2 ⟨u, rfl, hr⟩]
  rfl

theorem membership_in {k : Token} {ts : List Token} {os : List Operand}
    (hk : k.keyword? = some .in_) (items : ItemList ts os) (l : Operand) (negated : Bool)
    (rest : List Token) :
    membership l negated (k :: .opening :: (ts ++ [.closing]) ++ rest)
      = .ok (.isIn l os negated, rest) := by
  have hlike : eat? .like (k :: (.opening :: (ts ++ [.closing]) ++ rest)) = none :=
    eat?_cons_of_ne _ (by rw [hk]; decide)
  have hitems : itemList (.opening :: (ts ++ [.closing]) ++ rest) = .ok (os, rest) :=
    (reads_itemList _ _ _).2 ⟨_, rfl, ts, rfl, items⟩
  rw [List.cons_append, membership, hlike]
  simp only [eat?_cons _ hk]
  rw [hitems]
  rfl

/-- The reader of predicates takes every predicate of the grammar, and nothing behind it. -/
theorem predicate_of_isPredicate {front : List Token} {f : Filter} (h : IsPredicate front f)
    (rest : List Token) : predicate (front ++ rest) = .ok (f, rest) := by
  -- the operand in front is taken first, whatever follows it
  have start : ∀ {t : Token} {l : Operand}, Stands t l → ∀ ts,
      predicate (t :: ts) = predicateAfter l ts := by
    intro t l hl ts
    show (operand (t :: ts) >>= fun p => predicateAfter p.1 p.2) = _
    rw [operand_eq_ok_iff.2 ⟨t, rfl, hl⟩]
    rfl
  cases h with
  | @compare t u l r o hl hr =>
    show predicate (t :: .op o :: u :: rest) = _
    rw [start hl]
    show (operand (u :: rest) >>= _) = _
    rw [operand_eq_ok_iff.2 ⟨u, rfl, hr⟩]
    rfl
  | @like t k u l r hl hk hr =>
    show predicate (t :: k :: u :: rest) = _
    rw [start hl, predicateAfter_cons hk]
    exact membership_like hk hr l false rest
  | @notLike t n k u l r hl hn hk hr =>
    show predicate (t :: n :: k :: u :: rest) = _
    rw [start hl, predicateAfter_cons hn]
    exact membership_like hk hr l true rest
  | @isIn t k l ts os hl hk items =>
    show predicate (t :: k :: (.opening :: (ts ++ [.closing]) ++ rest)) = _
    rw [start hl, predicateAfter_cons hk]
    exact membership_in hk items l false rest
  | @notIn t n k l ts os hl hn hk items =>
    show predicate (t :: n :: (k :: .opening :: (ts ++ [.closing]) ++ rest)) = _
    rw [start hl, predicateAfter_cons hn]
    exact membership_in hk items l true rest
  | @isNull t i z l hl hi hz =>
    show predicate (t :: i :: z :: rest) = _
    rw [start hl, predicateAfter_cons hi]
    show nullTest l (z :: rest) = _
    have hn : eat? .not_ (z :: rest) = none := eat?_cons_of_ne _ (by rw [hz]; decide)
    simp only [nullTest, hn, eat?_cons _ hz]
  | @isNotNull t i n z l hl hi hn hz =>
    show predicate (t :: i :: n :: z :: rest) = _
    rw [start hl, predicateAfter_cons hi]
    show nullTest l (n :: z :: rest) = _
    simp only [nullTest, eat?_cons _ hn, eat?_cons _ hz]

/-- **Predicates are read exactly.** -/
theorem reads_predicate : Reads predicate IsPredicate := by
  intro ts f rest
  constructor
  · intro h
    obtain ⟨⟨l, us⟩, hl, hafter⟩ := Except.bind_eq_ok_iff.1 h
    obtain ⟨t, rfl, ht⟩ := operand_eq_ok_iff.1 hl
    exact isPredicate_of_predicateAfter hafter ht
  · rintro ⟨front, rfl, h⟩
    exact predicate_of_isPredicate h rest

end QueryTemplate.Filter
