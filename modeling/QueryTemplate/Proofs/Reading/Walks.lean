import QueryTemplate.Proofs.Reading.Cursor

/-!
# Walks over tokens

What a program with a cursor does is said against a reader of `Filter.Parse`: wherever it starts in
bounds with some tokens left, it ends as the reader does with these tokens (`Walker.Mirrors`). The
cursor stands for the tokens that are left, and the fault of a reader is at the token where the
cursor stands then.

* **`Tokenized.getElem?_tokens`**, **`Tokenized.sliceFrom?_offset`**: at a place in bounds there is
  a token, or the end, and the text can be sliced where it starts.
* **`Walker.Mirrors.bind`**: programs one after the other mirror the readers one after the other, so
  what a larger program does follows from the rules of its parts, `Walker.mirrors_…`, and none of
  them is looked into again.
* **`Walker.mirrors_enter`**, **`Walker.mirrors_leave`**: a rule has the depth before and the depth
  after it.
-/

namespace QueryTemplate.Filter

/-! ## Walks in bounds -/

/-- At a token or at the end, and no deeper than conditions may nest. -/
def Cursor.InBounds (tokens : List Spanned) (c : Cursor) : Prop :=
  c.index < tokens.length ∧ c.depth ≤ maxNesting

/-- In bounds all the way. -/
def Walk.InBounds (tokens : List Spanned) (w : Walk) : Prop :=
  ∀ c ∈ w.trail, c.InBounds tokens

/-- A text that can be cut into tokens, with them. -/
structure Tokenized where
  text : String
  lexemes : List Lexeme
  lex_eq : lex text.toList = .ok lexemes

namespace Tokenized

/-- The tokens with their offsets, and the end. -/
def tokens (t : Tokenized) : List Spanned :=
  spansWithEnd t.text t.lexemes

/-- Where the text starts of which the last `n` tokens are left. -/
def offset (t : Tokenized) (n : Nat) : Nat :=
  Text.byteLength t.text.toList - Text.byteLength (lastStart t.lexemes n)

/-- A fault at a token, or at the end, given by the tokens from it on. -/
def errorAt (t : Tokenized) (fault : Fault) (ts : List Token) : TextError :=
  faultAt t.text.toList fault (lastStart t.lexemes ts.length)

variable (t : Tokenized)

theorem length_tokens : t.tokens.length = t.lexemes.length + 1 := by
  simp [tokens, spansWithEnd, spans]

/-- At a place in bounds is the first of the tokens that are left, or the end. -/
theorem getElem?_tokens {i : Nat} (hi : i ≤ t.lexemes.length) :
    t.tokens[i]?
      = some ⟨((t.lexemes.map Lexeme.token).drop i).head?, t.offset (t.lexemes.length - i)⟩ := by
  unfold tokens spansWithEnd offset lastStart
  rw [Nat.sub_sub_self hi]
  rcases Nat.lt_or_eq_of_le hi with hlt | rfl
  · rw [List.getElem?_append_left (by simpa [spans] using hlt), List.drop_eq_getElem_cons hlt,
      List.drop_eq_getElem_cons (by simpa using hlt)]
    simp [spans, hlt]
  · simp [spans, endOf, Text.byteLength_toList]

/-- A token starts with a character, so the text can be sliced there. -/
theorem sliceFrom?_offset {n : Nat} (hn : n ≤ t.lexemes.length) :
    Text.sliceFrom? t.text (t.offset n) = some (String.ofList (lastStart t.lexemes n)) := by
  have hplace := List.mem_of_getElem? (getElem?_places hn)
  exact (Text.slice_of_suffix (suffix_of_mem_places t.lex_eq hplace)).2.2

end Tokenized

namespace Walker

/-! ## Walks and readers -/

/-- What a reader gives, or the fault that it finds with the tokens from it on. -/
abbrev Outcome := Except (Fault × List Token)

/-- In bounds all the way, now at such a depth, and with these tokens left. -/
structure Faces (t : Tokenized) (depth : Nat) (ts : List Token) (w : Walk) : Prop where
  bounds : w.InBounds t.tokens
  depth_eq : w.now.depth = depth
  left : (t.lexemes.map Lexeme.token).drop w.now.index = ts

/-- A program has ended as a reader does: with the same result where the same tokens are left, or
with the same fault at the same token. -/
inductive Agrees (t : Tokenized) (depth : Nat) {α : Type} :
    Outcome (α × List Token) → Option (Except TextError α × Walk) → Prop
  | ok {a : α} {rest : List Token} {w : Walk} (h : Faces t depth rest w) :
      Agrees t depth (.ok (a, rest)) (some (.ok a, w))
  | error {fault : Fault} {rest : List Token} {w : Walk} (h : w.InBounds t.tokens) :
      Agrees t depth (.error (fault, rest)) (some (.error (t.errorAt fault rest), w))

/-- Wherever it starts in bounds at the first depth with these tokens left, a program ends as a
reader does, at the second depth if it returns anything. -/
def Mirrors (t : Tokenized) (before after : Nat) {α : Type} (m : Walker α) (ts : List Token)
    (read : Outcome (α × List Token)) : Prop :=
  ∀ w, Faces t before ts w → Agrees t after read (m w)

section Rules

variable {α β : Type} {t : Tokenized} {d d' d'' : Nat} {ts rest : List Token}

theorem Faces.index_le {w : Walk} (h : Faces t d ts w) : w.now.index ≤ t.lexemes.length := by
  have hlt := (h.bounds w.now List.mem_cons_self).1
  rw [t.length_tokens] at hlt
  exact Nat.le_of_lt_succ hlt

theorem Faces.depth_le {w : Walk} (h : Faces t d ts w) : d ≤ maxNesting :=
  h.depth_eq ▸ (h.bounds w.now List.mem_cons_self).2

theorem Faces.length_eq {w : Walk} (h : Faces t d ts w) :
    t.lexemes.length - w.now.index = ts.length := by
  rw [← h.left, List.length_drop, List.length_map]

/-- Going to another place in bounds. -/
theorem Faces.moveTo {w : Walk} (h : Faces t d ts w) {i : Nat} (hi : i ≤ t.lexemes.length)
    (hleft : (t.lexemes.map Lexeme.token).drop i = rest) (hd : d' ≤ maxNesting) :
    Faces t d' rest ⟨⟨i, d'⟩, w.trail⟩ := by
  have hlt : i < t.tokens.length := by
    rw [t.length_tokens]
    exact Nat.lt_succ_of_le hi
  exact ⟨List.forall_mem_cons.2 ⟨⟨hlt, hd⟩, h.bounds⟩, rfl, hleft⟩

theorem Mirrors.pure (a : α) : Mirrors t d d (pure a) ts (.ok (a, ts)) :=
  fun _ hw => .ok hw

theorem Mirrors.bind {m : Walker α} {k : α → Walker β} {read : Outcome (α × List Token)}
    {next : α × List Token → Outcome (β × List Token)} (hm : Mirrors t d d' m ts read)
    (hk : ∀ a rest, read = .ok (a, rest) → Mirrors t d' d'' (k a) rest (next (a, rest))) :
    Mirrors t d d'' (m >>= k) ts (read >>= next) := by
  intro w hw
  have hmw := hm w hw
  generalize hrun : m w = ended at hmw
  cases hmw with
  | ok hfaces =>
    rw [bind_of_ok hrun]
    exact hk _ _ rfl _ hfaces
  | error hbounds =>
    rw [bind_of_error hrun]
    exact .error hbounds

/-- Behind a program that is known to return. -/
theorem Mirrors.seq {m : Walker α} {k : α → Walker β} {a : α}
    {read : Outcome (β × List Token)} (hm : Mirrors t d d' m ts (.ok (a, rest)))
    (hk : Mirrors t d' d'' (k a) rest read) : Mirrors t d d'' (m >>= k) ts read := by
  show Mirrors t d d'' (m >>= k) ts ((.ok (a, rest) : Outcome (α × List Token)) >>= fun _ => read)
  refine hm.bind fun _ _ h => ?_
  cases h
  exact hk

/-- Behind a program that is known to fail. -/
theorem Mirrors.fails {m : Walker α} {k : α → Walker β} {failure : Fault × List Token}
    (hm : Mirrors t d d m ts (.error failure)) : Mirrors t d d' (m >>= k) ts (.error failure) := by
  show Mirrors t d d' (m >>= k) ts
    ((.error failure : Outcome (α × List Token)) >>= fun _ => .error failure)
  refine hm.bind fun _ _ h => ?_
  cases h

end Rules

/-! ## Tokens -/

section Tokens

variable {α : Type} {t : Tokenized} {d d' : Nat} {ts : List Token}

theorem mirrors_current :
    Mirrors t d d (current t.tokens) ts (.ok (⟨ts.head?, t.offset ts.length⟩, ts)) := by
  intro w hw
  have hget := t.getElem?_tokens hw.index_le
  rw [hw.length_eq, hw.left] at hget
  have hrun : current t.tokens w = some (.ok ⟨ts.head?, t.offset ts.length⟩, w) := by
    unfold current
    rw [here_bind, hget]
    rfl
  rw [hrun]
  exact .ok hw

theorem mirrors_peek : Mirrors t d d (peek t.tokens) ts (.ok (ts.head?, ts)) :=
  mirrors_current.seq (.pure _)

theorem mirrors_advance {u : Token} :
    Mirrors t d d (advance t.tokens) (u :: ts) (.ok ((), ts)) := by
  refine mirrors_peek.seq fun w hw => ?_
  have hnext : (t.lexemes.map Lexeme.token).drop (w.now.index + 1) = ts := by
    rw [← List.tail_drop, hw.left, List.tail_cons]
  have hlt : w.now.index + 1 ≤ t.lexemes.length := by
    have hlength := hw.length_eq
    rw [List.length_cons] at hlength
    omega
  have hmove := hw.moveTo hlt hnext hw.depth_le
  rw [← hw.depth_eq] at hmove ⊢
  exact .ok hmove

theorem mirrors_fail (fault : Fault) :
    Mirrors t d d' (fail t.text t.tokens fault : Walker α) ts (.error (fault, ts)) := by
  intro w hw
  have hlength : ts.length ≤ t.lexemes.length := hw.length_eq ▸ Nat.sub_le _ _
  have hslice := t.sliceFrom?_offset hlength
  refine mirrors_current.seq (fun w hw => ?_) w hw
  simp only [hslice]
  exact .error hw.bounds

theorem decide_keyword?_head? (k : Keyword) (ts : List Token) :
    decide (ts.head?.bind Token.keyword? = some k) = (eat? k ts).isSome := by
  cases ts with
  | nil => rfl
  | cons u ts =>
    rw [List.head?_cons, Option.bind_some, eat?]
    split <;> simp [*]

theorem mirrors_atKeyword (k : Keyword) :
    Mirrors t d d (atKeyword t.tokens k) ts (.ok ((eat? k ts).isSome, ts)) := by
  rw [← decide_keyword?_head?]
  exact mirrors_peek.seq (.pure _)

theorem mirrors_eatKeyword_of_some {k : Keyword} {rest : List Token} (h : eat? k ts = some rest) :
    Mirrors t d d (eatKeyword t.tokens k) ts (.ok (true, rest)) := by
  refine (mirrors_atKeyword k).seq ?_
  rw [h]
  obtain ⟨u, rfl, -⟩ := eat?_eq_some_iff.1 h
  exact mirrors_advance.seq (.pure _)

theorem mirrors_eatKeyword_of_none {k : Keyword} (h : eat? k ts = none) :
    Mirrors t d d (eatKeyword t.tokens k) ts (.ok (false, ts)) := by
  refine (mirrors_atKeyword k).seq ?_
  rw [h]
  exact .pure _

/-- The reader of a token returns nothing but the tokens behind it, so the rule is for what comes
next. -/
theorem mirrors_expect (u : Token) (fault : Fault) {k : Walker α}
    {next : List Token → Outcome (α × List Token)}
    (hk : ∀ rest, Filter.expect u fault ts = .ok rest → Mirrors t d d' k rest (next rest)) :
    Mirrors t d d' (do expect t.text t.tokens u fault; k) ts
      (Filter.expect u fault ts >>= next) := by
  have hfail {vs : List Token} (hne : ¬ vs.head? = some u) :
      Mirrors t d d (expect t.text t.tokens u fault) vs (.error (fault, vs)) := by
    refine mirrors_peek.seq ?_
    rw [if_neg hne]
    exact mirrors_fail fault
  cases ts with
  | nil => exact .fails (hfail (by simp))
  | cons v ts =>
    by_cases h : v = u
    · have htake : Mirrors t d d (expect t.text t.tokens u fault) (v :: ts) (.ok ((), ts)) := by
        refine mirrors_peek.seq ?_
        rw [List.head?_cons, if_pos (congrArg some h)]
        exact mirrors_advance
      have hread : Filter.expect u fault (v :: ts) = .ok ts := expect_eq_ok_iff.2 (by rw [h])
      rw [hread]
      exact htake.seq (hk ts hread)
    · rw [Filter.expect, if_neg h]
      exact .fails (hfail (by simpa using h))

theorem mirrors_operand : Mirrors t d d (operand t.text t.tokens) ts (Filter.operand ts) := by
  refine mirrors_peek.seq ?_
  cases ts with
  | nil => exact mirrors_fail _
  | cons u ts =>
    rw [List.head?_cons, Filter.operand]
    dsimp only
    cases ofToken u with
    | ok o => exact mirrors_advance.seq (.pure o)
    | error fault => exact mirrors_fail fault

end Tokens

/-! ## Nesting -/

section Nesting

variable {t : Tokenized} {d : Nat} {ts : List Token}

theorem mirrors_enter (hd : d < maxNesting) :
    Mirrors t d (d + 1) (enter t.text t.tokens) ts (.ok ((), ts)) := by
  intro w hw
  have hrun : enter t.text t.tokens w = some (.ok (), ⟨⟨w.now.index, d + 1⟩, w.trail⟩) := by
    unfold enter
    rw [here_bind, hw.depth_eq, if_neg (Nat.not_le_of_lt hd)]
    rfl
  rw [hrun]
  exact .ok (hw.moveTo hw.index_le hw.left hd)

theorem mirrors_enter_of_deep :
    Mirrors t maxNesting d (enter t.text t.tokens) ts (.error (.nestedTooDeeply, ts)) := by
  intro w hw
  have hrun : enter t.text t.tokens w = fail t.text t.tokens .nestedTooDeeply w := by
    unfold enter
    rw [here_bind, hw.depth_eq, if_pos (Nat.le_refl _)]
  rw [hrun]
  exact mirrors_fail _ w hw

theorem mirrors_leave : Mirrors t (d + 1) d leave ts (.ok ((), ts)) := by
  intro w hw
  have hrun : leave w = some (.ok (), ⟨⟨w.now.index, d⟩, w.trail⟩) := by
    unfold leave
    rw [here_bind, hw.depth_eq]
    rfl
  rw [hrun]
  exact .ok (hw.moveTo hw.index_le hw.left (Nat.le_of_succ_le hw.depth_le))

end Nesting

end Walker

end QueryTemplate.Filter
