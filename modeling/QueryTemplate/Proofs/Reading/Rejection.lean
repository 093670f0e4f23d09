import QueryTemplate.Proofs.Reading.Condition

/-!
# Where readers fail

A reader decides by what it has taken and by one token after that. So where it fails, the tokens up
to and with the one it stopped at fail every text that begins with them; and what it has taken can
always be completed.

* **`FailsAt`** says both of one failure. The tokens before the place are viable, and the reader
  fails in the same way on every text that goes on with the same token there.
* **`failsAt_itemList`**, **`failsAt_predicate`**: the failures of the readers without nesting, one
  place after the other.
* **`Tracks`** adds what such a reader does where it succeeds, for two readers with different levels of
  nesting left; `Tracks.chained` and `tracks_unary` carry it through the loops and the nesting.
* **`ofTokens_error`**: the reader of whole conditions stops at the first token that no condition has
  there, however deep it may nest.
-/

namespace QueryTemplate.Filter

/-- `FailsAt run viable ts fault r`: the text `ts` goes wrong at the first token of `r`, or at its end
if `r` is empty. What stands before it is viable, and `run` reports the fault there whatever comes
after that token. The limit on nesting is not a matter of tokens, so its fault says less. -/
def FailsAt {α : Type} (run : List Token → Except (Fault × List Token) α)
    (viable : List Token → Prop) (ts : List Token) (fault : Fault) (r : List Token) : Prop :=
  ∃ front, ts = front ++ r ∧ viable front ∧ (fault ≠ .nestedTooDeeply →
    ∀ s, s.head? = r.head? → run (front ++ s) = .error (fault, s))

/-- Tokens that can be completed to a text of a kind. -/
def Viable {α : Type} (P : List Token → α → Prop) (front : List Token) : Prop :=
  ∃ more a, P (front ++ more) a

/-- What goes wrong after some tokens goes wrong behind them. -/
theorem FailsAt.behind {α β : Type} {run : List Token → Except (Fault × List Token) α}
    {run' : List Token → Except (Fault × List Token) β} {viable viable' : List Token → Prop}
    {ts : List Token} {fault : Fault} {r : List Token} (h : FailsAt run viable ts fault r)
    (taken : List Token) (hrun : ∀ us e, run us = .error e → run' (taken ++ us) = .error e)
    (hviable : ∀ front, viable front → viable' (taken ++ front)) :
    FailsAt run' viable' (taken ++ ts) fault r := by
  obtain ⟨front, rfl, hfront, hagain⟩ := h
  refine ⟨taken ++ front, (List.append_assoc _ _ _).symm, hviable _ hfront, fun hfault s hs => ?_⟩
  rw [List.append_assoc]
  exact hrun _ _ (hagain hfault s hs)

theorem head?_append_congr {r s : List Token} (front : List Token) (hs : s.head? = r.head?) :
    (front ++ s).head? = (front ++ r).head? := by
  rw [List.head?_append, List.head?_append, hs]

/-! ## Single tokens -/

theorem eat?_eq_none_of_head? {k : Keyword} {r s : List Token} (hs : s.head? = r.head?)
    (h : eat? k r = none) : eat? k s = none := by
  cases r with
  | nil =>
    rw [List.head?_eq_none_iff.1 hs]
    rfl
  | cons t r =>
    obtain ⟨s, rfl⟩ := List.head?_eq_some_iff.1 hs
    by_cases ht : t.keyword? = some k
    · rw [eat?_cons _ ht] at h
      cases h
    · exact eat?_cons_of_ne _ ht

theorem failsAt_operand {ts r : List Token} {fault : Fault} (h : operand ts = .error (fault, r)) :
    FailsAt operand (· = []) ts fault r := by
  cases ts with
  | nil =>
    cases h
    exact ⟨[], rfl, rfl, fun _ s hs => by rw [List.head?_eq_none_iff.1 hs]; rfl⟩
  | cons t ts =>
    rw [operand] at h
    cases ht : ofToken t with
    | ok o =>
      rw [ht] at h
      cases h
    | error fault' =>
      rw [ht] at h
      cases h
      refine ⟨[], rfl, rfl, fun _ s hs => ?_⟩
      obtain ⟨s, rfl⟩ := List.head?_eq_some_iff.1 hs
      rw [List.nil_append, operand, ht]

theorem failsAt_expect {t : Token} {fault fault' : Fault} {ts r : List Token}
    (h : expect t fault ts = .error (fault', r)) : FailsAt (expect t fault) (· = []) ts fault' r := by
  cases ts with
  | nil =>
    cases h
    exact ⟨[], rfl, rfl, fun _ s hs => by rw [List.head?_eq_none_iff.1 hs]; rfl⟩
  | cons u ts =>
    rw [expect] at h
    by_cases hu : u = t
    · rw [if_pos hu] at h
      cases h
    · rw [if_neg hu] at h
      cases h
      refine ⟨[], rfl, rfl, fun _ s hs => ?_⟩
      obtain ⟨s, rfl⟩ := List.head?_eq_some_iff.1 hs
      rw [List.nil_append, expect, if_neg hu]

/-! ## Lists -/

/-- An operand to complete a text with. -/
theorem stands_text : Stands (.text "") (.literal (.text "")) := .text ""

theorem failsAt_moreItems {ts r : List Token} {fault : Fault}
    (h : moreItems ts = .error (fault, r)) :
    FailsAt moreItems (fun front => ∀ t o, Stands t o → Viable ItemList (t :: front)) ts fault r := by
  -- after a comma only an operand can stand, so it can be completed with one
  have hcomma : ∀ t o, Stands t o → Viable ItemList (t :: [.comma]) := fun t o ht =>
    ⟨[.text ""], _, .cons ht (.single stands_text)⟩
  fun_induction moreItems ts with
  | case1 u ts p hu ih =>
    have hrest : moreItems ts = .error (fault, r) := by
      cases hm : moreItems ts with
      | ok q =>
        rw [hm] at h
        cases h
      | error e =>
        rw [hm] at h
        exact h
    refine (ih hrest).behind [.comma, u] (fun us e he => ?_) (fun front hfront t o ht => ?_)
    · show moreItems (.comma :: u :: us) = _
      rw [moreItems, hu]
      simp only [he]
      rfl
    · obtain ⟨more, os, hlist⟩ := hfront u p (ofToken_eq_ok_iff.1 hu)
      exact ⟨more, o :: os, .cons ht hlist⟩
  | case2 u ts fault' hu =>
    cases h
    refine ⟨[.comma], rfl, hcomma, fun _ s hs => ?_⟩
    obtain ⟨s, rfl⟩ := List.head?_eq_some_iff.1 hs
    show moreItems (.comma :: u :: s) = _
    rw [moreItems, hu]
  | case3 =>
    cases h
    refine ⟨[.comma], rfl, hcomma, fun _ s hs => ?_⟩
    rw [List.head?_eq_none_iff.1 hs]
    rfl
  | case4 => cases h

theorem head?_of_moreItems {ts r : List Token} {os : List Operand}
    (h : moreItems ts = .ok (os, r)) : r.head? ≠ some .comma := by
  fun_induction moreItems ts generalizing os with
  | case1 u ts p hu ih =>
    obtain ⟨⟨ps, r'⟩, hps, he⟩ := Except.map_eq_ok_iff.1 h
    cases he
    exact ih hps
  | case2 => cases h
  | case3 => cases h
  | case4 ts hmore hlast =>
    cases h
    intro hhead
    obtain ⟨us, rfl⟩ := List.head?_eq_some_iff.1 hhead
    cases us with
    | nil => exact hlast rfl
    | cons u us => exact hmore u us rfl

/-- Items are read again as they were in front of everything that starts with the same token. -/
theorem moreItems_again {ts r : List Token} {os : List Operand} (h : moreItems ts = .ok (os, r))
    {t : Token} {o : Operand} (ht : Stands t o) :
    ∃ front, ts = front ++ r ∧ ItemList (t :: front) (o :: os)
      ∧ ∀ s, s.head? = r.head? → moreItems (front ++ s) = .ok (os, s) := by
  obtain ⟨front, hfront, hlist⟩ := itemList_of_moreItems h ht
  have hagain : ∀ s, s.head? = r.head? → ∃ t' o' more os', front = t' :: more ∧ o :: os = o' :: os'
      ∧ Stands t' o' ∧ moreItems (more ++ s) = .ok (os', s) := fun s hs =>
    moreItems_of_itemList hlist (by rw [hs]; exact head?_of_moreItems h)
  obtain ⟨t', _, more, _, rfl, _, _, _⟩ := hagain r rfl
  rw [List.cons_append, List.cons.injEq] at hfront
  obtain ⟨rfl, rfl⟩ := hfront
  refine ⟨more, rfl, hlist, fun s hs => ?_⟩
  obtain ⟨_, _, more', os', hfront', hos, _, hmore⟩ := hagain s hs
  cases hfront'
  cases hos
  exact hmore

/-- The items of a list with parentheses around them. -/
def IsList (ts : List Token) (os : List Operand) : Prop :=
  ∃ inner, ts = .opening :: (inner ++ [.closing]) ∧ ItemList inner os

theorem itemList_cons {t : Token} {o : Operand} (ht : Stands t o) (us : List Token) :
    itemList (.opening :: t :: us) = moreItems us >>= fun p =>
      expect .closing .expectedListEnd p.2 >>= fun vs => .ok (o :: p.1, vs) := by
  show (expect .opening .expectedListStart (.opening :: t :: us) >>= _) = _
  rw [expect_eq_ok_iff.2 rfl]
  show (operand (t :: us) >>= _) = _
  rw [operand_eq_ok_iff.2 ⟨t, rfl, ht⟩]
  rfl

theorem failsAt_itemList {ts r : List Token} {fault : Fault} (h : itemList ts = .error (fault, r)) :
    FailsAt itemList (Viable IsList) ts fault r := by
  have hsingle : IsList [.opening, .text "", .closing] _ := ⟨[.text ""], rfl, .single stands_text⟩
  rcases Except.bind_eq_error_iff.1 h with hopening | ⟨us, hopening, hitems⟩
  · -- no parenthesis
    refine (failsAt_expect hopening).behind [] (fun us e he => ?_) (fun front hfront => ?_)
    · exact Except.bind_eq_error_iff.2 (.inl he)
    · rw [hfront]
      exact ⟨_, _, hsingle⟩
  rw [expect_eq_ok_iff.1 hopening] at h ⊢
  rcases Except.bind_eq_error_iff.1 hitems with hoperand | ⟨⟨o, vs⟩, hoperand, _⟩
  · -- no first item
    refine (failsAt_operand hoperand).behind [.opening] (fun us e he => ?_) (fun front hfront => ?_)
    · show (operand us >>= _) = _
      rw [he]
      rfl
    · rw [hfront]
      exact ⟨[.text "", .closing], _, hsingle⟩
  obtain ⟨t, rfl, ht⟩ := operand_eq_ok_iff.1 hoperand
  rw [itemList_cons ht] at h
  rcases Except.bind_eq_error_iff.1 h with hmore | ⟨⟨os, ws⟩, hmore, h⟩
  · -- no further item after a comma
    refine (failsAt_moreItems hmore).behind [.opening, t] (fun us e he => ?_) (fun front hfront => ?_)
    · show itemList (.opening :: t :: us) = _
      rw [itemList_cons ht, he]
      rfl
    · obtain ⟨more, os, hlist⟩ := hfront t o ht
      exact ⟨more ++ [.closing], os, t :: front ++ more, by simp, hlist⟩
  rcases Except.bind_eq_error_iff.1 h with hclosing | ⟨_, _, hok⟩
  · -- no parenthesis at the end
    obtain ⟨front, rfl, hlist, hagain⟩ := moreItems_again hmore ht
    obtain ⟨_, rfl, rfl, hfails⟩ := failsAt_expect hclosing
    refine ⟨.opening :: t :: front, rfl, ⟨[.closing], o :: os, t :: front, rfl, hlist⟩,
      fun hfault s hs => ?_⟩
    show itemList (.opening :: t :: (front ++ s)) = _
    rw [itemList_cons ht, hagain s hs]
    show (expect .closing .expectedListEnd ([] ++ s) >>= _) = _
    rw [hfails hfault s hs]
    rfl
  · cases hok

/-! ## Predicates -/

/-- Where nothing is taken yet, a condition can still be made of this. -/
theorem isPredicate_null : IsPredicate [.text "", .word "IS", .word "NULL"]
    (.isNull (.literal (.text "")) false) :=
  .isNull stands_text rfl rfl

theorem failsAt_nullTest {l : Operand} {ts r : List Token} {fault : Fault}
    (h : nullTest l ts = .error (fault, r)) {t i : Token} (hl : Stands t l)
    (hi : i.keyword? = some .is_) :
    FailsAt (nullTest l) (fun front => Viable IsPredicate (t :: i :: front)) ts fault r := by
  have hnull : (Token.word "NULL").keyword? = some .null := rfl
  unfold nullTest at h
  cases hn : eat? .not_ ts with
  | some us =>
    obtain ⟨n, rfl, hn'⟩ := eat?_eq_some_iff.1 hn
    simp only [hn] at h
    cases hz : eat? .null us with
    | some vs =>
      rw [hz] at h
      cases h
    | none =>
      rw [hz] at h
      cases h
      refine ⟨[n], rfl, ⟨[.word "NULL"], _, .isNotNull hl hi hn' hnull⟩, fun _ s hs => ?_⟩
      show nullTest l (n :: s) = _
      simp only [nullTest, eat?_cons _ hn', eat?_eq_none_of_head? hs hz]
  | none =>
    simp only [hn] at h
    cases hz : eat? .null ts with
    | some vs =>
      rw [hz] at h
      cases h
    | none =>
      rw [hz] at h
      cases h
      refine ⟨[], rfl, ⟨[.word "NULL"], _, .isNull hl hi hnull⟩, fun _ s hs => ?_⟩
      simp only [List.nil_append, nullTest, eat?_eq_none_of_head? hs hn, eat?_eq_none_of_head? hs hz]

/-- `nots` is the `NOT` that the flag remembers. -/
theorem failsAt_membership {l : Operand} {negated : Bool} {ts r : List Token} {fault : Fault}
    (h : membership l negated ts = .error (fault, r)) {t : Token} (hl : Stands t l)
    {nots : List Token} (hnots : if negated then ∃ n, nots = [n] ∧ n.keyword? = some .not_
      else nots = []) :
    FailsAt (membership l negated) (fun front => Viable IsPredicate (t :: (nots ++ front))) ts fault
      r := by
  have hlikeWord : (Token.word "LIKE").keyword? = some .like := rfl
  -- the two ways a predicate can go on from here
  have hlike : ∀ k, k.keyword? = some .like →
      ∃ f, IsPredicate (t :: (nots ++ [k, .text ""])) f := by
    intro k hk
    cases negated with
    | true =>
      obtain ⟨n, rfl, hn⟩ := hnots
      exact ⟨_, .notLike hl hn hk stands_text⟩
    | false =>
      rw [show nots = [] from hnots]
      exact ⟨_, .like hl hk stands_text⟩
  have hin : ∀ k, k.keyword? = some .in_ → ∀ us os, IsList us os →
      ∃ f, IsPredicate (t :: (nots ++ k :: us)) f := by
    rintro k hk us os ⟨inner, rfl, hlist⟩
    cases negated with
    | true =>
      obtain ⟨n, rfl, hn⟩ := hnots
      exact ⟨_, .notIn hl hn hk hlist⟩
    | false =>
      rw [show nots = [] from hnots]
      exact ⟨_, .isIn hl hk hlist⟩
  unfold membership at h
  cases hk : eat? .like ts with
  | some us =>
    obtain ⟨k, rfl, hk'⟩ := eat?_eq_some_iff.1 hk
    simp only [hk] at h
    rcases Except.bind_eq_error_iff.1 h with h | ⟨_, _, h⟩
    · refine (failsAt_operand h).behind [k] (fun vs e he => ?_) (fun front hfront => ?_)
      · show membership l negated (k :: vs) = _
        simp only [membership, eat?_cons _ hk', he]
        rfl
      · obtain ⟨f, hf⟩ := hlike k hk'
        refine ⟨[.text ""], f, ?_⟩
        rw [hfront]
        simpa using hf
    · cases h
  | none =>
    simp only [hk] at h
    cases hi : eat? .in_ ts with
    | some us =>
      obtain ⟨k, rfl, hk'⟩ := eat?_eq_some_iff.1 hi
      rw [hi] at h
      rcases Except.bind_eq_error_iff.1 h with h | ⟨_, _, h⟩
      · refine (failsAt_itemList h).behind [k] (fun vs e he => ?_) (fun front hfront => ?_)
        · have hnolike : eat? .like (k :: vs) = none :=
            eat?_cons_of_ne _ (by rw [hk']; decide)
          show membership l negated (k :: vs) = _
          simp only [membership, hnolike, eat?_cons _ hk', he]
          rfl
        · obtain ⟨more, os, hlist⟩ := hfront
          obtain ⟨f, hf⟩ := hin k hk' _ os hlist
          refine ⟨more, f, ?_⟩
          simpa using hf
      · cases h
    | none =>
      rw [hi] at h
      cases h
      obtain ⟨f, hf⟩ := hlike _ hlikeWord
      refine ⟨[], rfl, ⟨[.word "LIKE", .text ""], f, by simpa using hf⟩, fun _ s hs => ?_⟩
      simp only [List.nil_append, membership, eat?_eq_none_of_head? hs hk,
        eat?_eq_none_of_head? hs hi]

theorem predicateAfter_of_head? {l : Operand} {ts : List Token}
    (hop : ∀ o, ts.head? ≠ some (.op o)) (his : eat? .is_ ts = none) (hnot : eat? .not_ ts = none) :
    predicateAfter l ts = membership l false ts := by
  unfold predicateAfter
  split
  · exact absurd rfl (hop _)
  · rw [his, hnot]

theorem failsAt_predicateAfter {l : Operand} {ts r : List Token} {fault : Fault}
    (h : predicateAfter l ts = .error (fault, r)) {t : Token} (hl : Stands t l) :
    FailsAt (predicateAfter l) (fun front => Viable IsPredicate (t :: front)) ts fault r := by
  unfold predicateAfter at h
  split at h
  · rename_i o us
    rcases Except.bind_eq_error_iff.1 h with h | ⟨_, _, h⟩
    · refine (failsAt_operand h).behind [.op o] (fun vs e he => ?_) (fun front hfront => ?_)
      · show (operand vs >>= _) = _
        rw [he]
        rfl
      · rw [hfront]
        exact ⟨[.text ""], _, .compare o hl stands_text⟩
    · cases h
  · rename_i hop
    cases hi : eat? .is_ ts with
    | some us =>
      obtain ⟨i, rfl, hi'⟩ := eat?_eq_some_iff.1 hi
      rw [hi] at h
      refine (failsAt_nullTest h hl hi').behind [i] (fun vs e he => ?_) (fun _ hfront => hfront)
      show predicateAfter l (i :: vs) = _
      rw [predicateAfter_cons hi']
      exact he
    | none =>
      rw [hi] at h
      cases hn : eat? .not_ ts with
      | some us =>
        obtain ⟨n, rfl, hn'⟩ := eat?_eq_some_iff.1 hn
        rw [hn] at h
        have hnots : ∃ m, [n] = [m] ∧ m.keyword? = some .not_ := ⟨n, rfl, hn'⟩
        refine (failsAt_membership h hl hnots).behind [n] (fun vs e he => ?_) (fun _ hfront => hfront)
        show predicateAfter l (n :: vs) = _
        rw [predicateAfter_cons hn']
        exact he
      | none =>
        rw [hn] at h
        obtain ⟨front, rfl, hfront, hagain⟩ :=
          failsAt_membership h hl (show ([] : List Token) = [] from rfl)
        refine ⟨front, rfl, hfront, fun hfault s hs => ?_⟩
        -- the reader is asked for the same first token, which is in front or in what follows
        have hhead : (front ++ s).head? = (front ++ r).head? := head?_append_congr front hs
        rw [predicateAfter_of_head? (fun o ho => ?_) (eat?_eq_none_of_head? hhead hi)
          (eat?_eq_none_of_head? hhead hn)]
        · exact hagain hfault s hs
        · rw [hhead] at ho
          obtain ⟨us, hus⟩ := List.head?_eq_some_iff.1 ho
          exact hop o us hus

theorem failsAt_predicate {ts r : List Token} {fault : Fault}
    (h : predicate ts = .error (fault, r)) : FailsAt predicate (Viable IsPredicate) ts fault r := by
  rcases Except.bind_eq_error_iff.1 h with hoperand | ⟨⟨l, us⟩, hoperand, hafter⟩
  · refine (failsAt_operand hoperand).behind [] (fun us e he => ?_) (fun front hfront => ?_)
    · exact Except.bind_eq_error_iff.2 (.inl he)
    · rw [hfront]
      exact ⟨_, _, isPredicate_null⟩
  · obtain ⟨t, rfl, ht⟩ := operand_eq_ok_iff.1 hoperand
    refine (failsAt_predicateAfter hafter ht).behind [t] (fun vs e he => ?_) (fun _ hfront => hfront)
    exact Except.bind_eq_error_iff.2 (.inr ⟨(l, vs), operand_eq_ok_iff.2 ⟨t, rfl, ht⟩, he⟩)

/-! ## Conditions -/

/-- `Tracks one other P`: what `one` takes is in `P`; `other` takes it in the same way in front of
everything that starts with the same token, and fails where `one` fails. The two are one reader with
different levels of nesting left. -/
structure Tracks (one other : Reader Filter) (P : List Token → Filter → Prop) : Prop where
  ok : ∀ {ts f r}, one ts = .ok (f, r) → ∃ front, ts = front ++ r ∧ P front f
    ∧ ∀ s, s.head? = r.head? → other (front ++ s) = .ok (f, s)
  error : ∀ {ts fault r}, one ts = .error (fault, r) → FailsAt other (Viable P) ts fault r

section Chain

variable {k : Keyword} {join : Filter → Filter → Filter} {one other : Reader Filter}
  {P Q : List Token → Filter → Prop}

/-- The reader of a chain: a condition, and then as many rounds as there can be. -/
def chained (k : Keyword) (join : Filter → Filter → Filter) (one : Reader Filter) : Reader Filter :=
  fun ts => one ts >>= fun p => chain k join one p.2.length p.1 p.2

/-- Rounds are run again as they were in front of everything that starts with the same token.
Induction on the rounds; `taken` is what the tree read so far was read from. -/
theorem Tracks.chain_ok (h : Tracks one other P)
    (hother : ∀ ts f rest, other ts = .ok (f, rest) → rest <:+ ts)
    (hjoin : ∀ {ts us t f g}, Q ts f → t.keyword? = some k → P us g → Q (ts ++ t :: us) (join f g))
    {n : Nat} {ts r : List Token} {left f : Filter} (hn : ts.length ≤ n)
    (hchain : chain k join one n left ts = .ok (f, r)) {taken : List Token} (hleft : Q taken left) :
    ∃ front, ts = front ++ r ∧ Q (taken ++ front) f
      ∧ ∀ s, s.head? = r.head? →
        chain k join other (front ++ s).length left (front ++ s) = .ok (f, s) := by
  induction n generalizing ts left taken with
  | zero =>
    have hts : ts = [] := List.eq_nil_of_length_eq_zero (by omega)
    cases hchain
    refine ⟨[], rfl, by simpa using hleft, fun s hs => ?_⟩
    rw [hts] at hs
    rw [List.head?_eq_none_iff.1 hs]
    rfl
  | succ n ih =>
    rw [chain] at hchain
    cases hk : eat? k ts with
    | none =>
      rw [hk] at hchain
      cases hchain
      refine ⟨[], rfl, by simpa using hleft, fun s hs => ?_⟩
      exact chain_of_eat?_eq_none (eat?_eq_none_of_head? hs hk) _ _
    | some us =>
      obtain ⟨t, rfl, ht⟩ := eat?_eq_some_iff.1 hk
      rw [hk] at hchain
      obtain ⟨⟨right, vs⟩, hright, hrest⟩ := Except.bind_eq_ok_iff.1 hchain
      obtain ⟨mid, rfl, hmid, hagain⟩ := h.ok hright
      have hvs : vs.length ≤ n := by
        rw [List.length_cons, List.length_append] at hn
        omega
      obtain ⟨front, rfl, hfront, hchain⟩ := ih hvs hrest (hjoin hleft ht hmid)
      refine ⟨t :: (mid ++ front), by simp, ?_, fun s hs => ?_⟩
      · rw [List.append_assoc, List.cons_append] at hfront
        exact hfront
      · have hhead : (front ++ s).head? = (front ++ r).head? := head?_append_congr front hs
        show chain k join other (t :: (mid ++ front ++ s)).length left (t :: (mid ++ front ++ s)) = _
        rw [chain_cons hother ht (by rw [List.append_assoc]; exact hagain (front ++ s) hhead)]
        exact hchain s hs

theorem Tracks.chain_error (h : Tracks one other P)
    (hother : ∀ ts f rest, other ts = .ok (f, rest) → rest <:+ ts)
    (hjoin : ∀ {ts us t f g}, Q ts f → t.keyword? = some k → P us g → Q (ts ++ t :: us) (join f g))
    {n : Nat} {ts r : List Token} {left : Filter} {fault : Fault}
    (hchain : chain k join one n left ts = .error (fault, r)) {taken : List Token}
    (hleft : Q taken left) :
    FailsAt (fun us => chain k join other us.length left us)
      (fun front => Viable Q (taken ++ front)) ts fault r := by
  induction n generalizing ts left taken with
  | zero => cases hchain
  | succ n ih =>
    rw [chain] at hchain
    cases hk : eat? k ts with
    | none =>
      rw [hk] at hchain
      cases hchain
    | some us =>
      obtain ⟨t, rfl, ht⟩ := eat?_eq_some_iff.1 hk
      rw [hk] at hchain
      rcases Except.bind_eq_error_iff.1 hchain with hright | ⟨⟨right, vs⟩, hright, hrest⟩
      · -- the condition after the keyword
        refine (h.error hright).behind [t] (fun us e he => ?_) (fun front hfront => ?_)
        · show chain k join other (us.length + 1) left (t :: us) = _
          rw [chain, eat?_cons _ ht]
          show (other us >>= _) = _
          rw [he]
          rfl
        · obtain ⟨more, g, hg⟩ := hfront
          exact ⟨more, join left g, by simpa using hjoin hleft ht hg⟩
      · -- a later round
        obtain ⟨mid, rfl, hmid, hagain⟩ := h.ok hright
        obtain ⟨front, rfl, hfront, hchain⟩ := ih hrest (hjoin hleft ht hmid)
        refine ⟨t :: (mid ++ front), by simp, ?_, fun hfault s hs => ?_⟩
        · simpa using hfront
        · have hhead : (front ++ s).head? = (front ++ r).head? := head?_append_congr front hs
          show chain k join other (t :: (mid ++ front ++ s)).length left (t :: (mid ++ front ++ s)) = _
          rw [chain_cons hother ht (by rw [List.append_assoc]; exact hagain (front ++ s) hhead)]
          exact hchain hfault s hs

/-- **Chains keep track.** -/
theorem Tracks.chained (h : Tracks one other P)
    (hother : ∀ ts f rest, other ts = .ok (f, rest) → rest <:+ ts)
    (hone : ∀ {ts f}, P ts f → Q ts f)
    (hjoin : ∀ {ts us t f g}, Q ts f → t.keyword? = some k → P us g → Q (ts ++ t :: us) (join f g)) :
    Tracks (chained k join one) (chained k join other) Q where
  ok {ts f r} hchained := by
    obtain ⟨⟨left, us⟩, hleft, hchain⟩ := Except.bind_eq_ok_iff.1 hchained
    obtain ⟨mid, rfl, hmid, hagain⟩ := h.ok hleft
    obtain ⟨front, rfl, hfront, hrounds⟩ := h.chain_ok hother hjoin (Nat.le_refl _) hchain (hone hmid)
    refine ⟨mid ++ front, (List.append_assoc _ _ _).symm, hfront, fun s hs => ?_⟩
    have hhead : (front ++ s).head? = (front ++ r).head? := head?_append_congr front hs
    rw [List.append_assoc]
    exact Except.bind_eq_ok_iff.2 ⟨_, hagain (front ++ s) hhead, hrounds s hs⟩
  error {ts fault r} hchained := by
    rcases Except.bind_eq_error_iff.1 hchained with hleft | ⟨⟨left, us⟩, hleft, hchain⟩
    · refine (h.error hleft).behind [] (fun us e he => ?_) (fun front hfront => ?_)
      · exact Except.bind_eq_error_iff.2 (.inl he)
      · obtain ⟨more, f, hf⟩ := hfront
        exact ⟨more, f, hone hf⟩
    · obtain ⟨mid, rfl, hmid, hagain⟩ := h.ok hleft
      obtain ⟨front, rfl, hfront, hrounds⟩ := h.chain_error hother hjoin hchain (hone hmid)
      refine ⟨mid ++ front, (List.append_assoc _ _ _).symm, hfront, fun hfault s hs => ?_⟩
      have hhead : (front ++ s).head? = (front ++ r).head? := head?_append_congr front hs
      rw [List.append_assoc]
      exact Except.bind_eq_error_iff.2 (.inr ⟨_, hagain (front ++ s) hhead, hrounds hfault s hs⟩)

end Chain

/-! ## Nesting -/

theorem Tracks.conjunction {d d' : Nat}
    (h : Tracks (unary d) (unary d') (DerivesWithin d .unary)) :
    Tracks (conjunction (unary d)) (conjunction (unary d')) (DerivesWithin d .conjunction) :=
  h.chained suffix_of_unary (fun ⟨n, hn, hf⟩ => ⟨n, hn, .unary hf⟩)
    (fun ⟨m, hm, hf⟩ ht ⟨n, hn, hg⟩ => ⟨max m n, Nat.max_le.2 ⟨hm, hn⟩, .and hf ht hg⟩)

theorem Tracks.disjunction {d d' : Nat}
    (h : Tracks (unary d) (unary d') (DerivesWithin d .unary)) :
    Tracks (disjunction (unary d)) (disjunction (unary d')) (DerivesWithin d .disjunction) :=
  h.conjunction.chained suffix_of_conjunction (fun ⟨n, hn, hf⟩ => ⟨n, hn, .conjunction hf⟩)
    (fun ⟨m, hm, hf⟩ ht ⟨n, hn, hg⟩ => ⟨max m n, Nat.max_le.2 ⟨hm, hn⟩, .or hf ht hg⟩)

/-- A unary condition is read again in front of anything, and with more levels of nesting left. -/
theorem unary_again {d d' : Nat} (hd : d ≤ d') {ts r : List Token} {f : Filter}
    (h : unary d ts = .ok (f, r)) : ∃ front, ts = front ++ r ∧ DerivesWithin d .unary front f
      ∧ ∀ s, s.head? = r.head? → unary d' (front ++ s) = .ok (f, s) := by
  obtain ⟨front, rfl, n, hn, hf⟩ := front_of_unary h
  exact ⟨front, rfl, ⟨n, hn, hf⟩, fun s _ => leadsTo_of_derives hf (Nat.le_trans hn hd) s⟩

/-- A predicate that goes wrong goes wrong for every reader of unary conditions. -/
theorem failsAt_unary_of_predicate {ts r : List Token} {fault : Fault}
    (hnot : eat? .not_ ts = none) (hopening : ts.head? ≠ some .opening)
    (h : predicate ts = .error (fault, r)) (d d' : Nat) :
    FailsAt (unary d') (Viable (DerivesWithin d .unary)) ts fault r := by
  obtain ⟨front, rfl, ⟨more, f, hf⟩, hagain⟩ := failsAt_predicate h
  refine ⟨front, rfl, ⟨more, f, 0, Nat.zero_le d, .predicate hf⟩, fun hfault s hs => ?_⟩
  have hhead : (front ++ s).head? = (front ++ r).head? := head?_append_congr front hs
  rw [unary_of_head? (eat?_eq_none_of_head? hhead hnot) (by rw [hhead]; exact hopening)]
  exact hagain hfault s hs

theorem unary_not {t : Token} (ht : t.keyword? = some .not_) (d : Nat) (ts : List Token) :
    unary (d + 1) (t :: ts) = unary d ts >>= fun p => .ok (.not p.1, p.2) := by
  conv_lhs => unfold unary
  rw [eat?_cons _ ht]

theorem unary_opening (d : Nat) (ts : List Token) :
    unary (d + 1) (.opening :: ts) = disjunction (unary d) ts >>= fun p =>
      expect .closing .expectedClosing p.2 >>= fun us => .ok (p.1, us) :=
  rfl

/-- What goes wrong in a group: the condition inside, or its end. -/
theorem failsAt_group {d d' : Nat} (h : Tracks (unary d) (unary d') (DerivesWithin d .unary))
    {ts r : List Token} {fault : Fault}
    (hgroup : unary (d + 1) (.opening :: ts) = .error (fault, r)) :
    FailsAt (unary (d' + 1)) (Viable (DerivesWithin (d + 1) .unary)) (.opening :: ts) fault r := by
  have hend : ∀ {us f}, DerivesWithin d .disjunction us f →
      DerivesWithin (d + 1) .unary (.opening :: (us ++ [.closing])) f :=
    fun ⟨n, hn, hf⟩ => ⟨n + 1, Nat.succ_le_succ hn, .group hf⟩
  rw [unary_opening] at hgroup
  rcases Except.bind_eq_error_iff.1 hgroup with hinner | ⟨⟨f, us⟩, hinner, hclosing⟩
  · refine (h.disjunction.error hinner).behind [.opening] (fun us e he => ?_) (fun front hfront => ?_)
    · exact Except.bind_eq_error_iff.2 (.inl he)
    · obtain ⟨more, f, hf⟩ := hfront
      exact ⟨more ++ [.closing], f, by simpa using hend hf⟩
  · rcases Except.bind_eq_error_iff.1 hclosing with hclosing | ⟨_, _, hok⟩
    · obtain ⟨front, rfl, hf, hagain⟩ := h.disjunction.ok hinner
      obtain ⟨_, rfl, rfl, hfails⟩ := failsAt_expect hclosing
      refine ⟨.opening :: front, rfl, ⟨[.closing], f, hend hf⟩, fun hfault s hs => ?_⟩
      show unary (d' + 1) (.opening :: (front ++ s)) = _
      rw [unary_opening, hagain s hs]
      show (expect .closing .expectedClosing ([] ++ s) >>= _) = _
      rw [hfails hfault s hs]
      rfl
    · cases hok

/-- **Unary conditions keep track**, whatever further levels of nesting the second reader has.
Induction on the levels that the first one has left. -/
theorem tracks_unary {d d' : Nat} (hd : d ≤ d') :
    Tracks (unary d) (unary d') (DerivesWithin d .unary) := by
  induction d generalizing d' with
  | zero =>
    refine ⟨unary_again hd, fun {ts fault r} h => ?_⟩
    unfold unary at h
    split at h
    · cases h
      exact ⟨[], rfl, ⟨_, _, 0, Nat.le_refl 0, .predicate isPredicate_null⟩,
        fun hfault => absurd rfl hfault⟩
    · rename_i hstart
      rw [Bool.or_eq_true, not_or] at hstart
      exact failsAt_unary_of_predicate (by simpa using hstart.1) (by simpa using hstart.2) h 0 d'
  | succ d ih =>
    obtain ⟨d', rfl⟩ : ∃ e, d' = e + 1 := ⟨d' - 1, by omega⟩
    have inner := ih (Nat.le_of_succ_le_succ hd)
    refine ⟨unary_again hd, fun {ts fault r} h => ?_⟩
    cases hnot : eat? .not_ ts with
    | some us =>
      obtain ⟨t, rfl, ht⟩ := eat?_eq_some_iff.1 hnot
      rw [unary_not ht] at h
      rcases Except.bind_eq_error_iff.1 h with h | ⟨_, _, h⟩
      · refine (inner.error h).behind [t] (fun vs e he => ?_) (fun front hfront => ?_)
        · show unary (d' + 1) (t :: vs) = _
          rw [unary_not ht]
          exact Except.bind_eq_error_iff.2 (.inl he)
        · obtain ⟨more, f, n, hn, hf⟩ := hfront
          exact ⟨more, .not f, n + 1, Nat.succ_le_succ hn, .not ht hf⟩
      · cases h
    | none =>
      by_cases hopening : ts.head? = some .opening
      · obtain ⟨us, rfl⟩ := List.head?_eq_some_iff.1 hopening
        exact failsAt_group inner h
      · rw [unary_of_head? hnot hopening] at h
        exact failsAt_unary_of_predicate hnot hopening h (d + 1) (d' + 1)

/-! ## Whole conditions -/

/-- **The reader of whole conditions stops at the first token that no condition has there**, or at the
end of the tokens if only that is wrong. What it has taken is the beginning of a text it accepts; and
unless it was stopped by the limit on nesting, no condition of the grammar, however deep it nests,
begins with what it has taken and goes on with that token. -/
theorem ofTokens_error {ts r : List Token} {fault : Fault} (h : ofTokens ts = .error (fault, r)) :
    ∃ front, ts = front ++ r ∧ (∃ rest f, ofTokens (front ++ rest) = .ok f)
      ∧ (fault ≠ .nestedTooDeeply → ∀ s n f, s.head? = r.head? →
          ¬ Derives .disjunction n (front ++ s) f) := by
  have tracks : ∀ n, Tracks (disjunction (unary maxNesting)) (disjunction (unary (max maxNesting n)))
      (DerivesWithin maxNesting .disjunction) :=
    fun n => (tracks_unary (Nat.le_max_left maxNesting n)).disjunction
  -- a derivation of any depth is read to its end with enough levels of nesting
  have hread : ∀ {us n f}, Derives .disjunction n us f →
      disjunction (unary (max maxNesting n)) us = .ok (f, []) := fun {us n f} hd =>
    disjunction_eq_ok_iff.2 ⟨n, Nat.le_max_right maxNesting n, hd⟩
  rcases Except.bind_eq_error_iff.1 h with hcondition | ⟨⟨f, us⟩, hcondition, htrailing⟩
  · obtain ⟨front, rfl, ⟨more, f, hf⟩, _⟩ := (tracks 0).error hcondition
    refine ⟨front, rfl, ⟨more, f, ofTokens_eq_ok_iff.2 hf⟩, fun hfault s n g hs hg => ?_⟩
    obtain ⟨front', hfront, _, hagain⟩ := (tracks n).error hcondition
    rw [← List.append_cancel_right hfront] at hagain
    have hfails := hagain hfault s hs
    rw [hread hg] at hfails
    cases hfails
  · -- a whole condition was read, and something is left
    obtain ⟨front, rfl, hf, _⟩ := (tracks 0).ok hcondition
    cases us with
    | nil => cases htrailing
    | cons t us =>
      cases htrailing
      refine ⟨front, rfl, ⟨[], f, ofTokens_eq_ok_iff.2 (by rwa [List.append_nil])⟩,
        fun _ s n g hs hg => ?_⟩
      obtain ⟨front', hfront, _, hagain⟩ := (tracks n).ok hcondition
      rw [← List.append_cancel_right hfront] at hagain
      have hleft := hagain s hs
      rw [hread hg] at hleft
      cases hleft
      cases hs

end QueryTemplate.Filter
