import QueryTemplate.Proofs.Sql.Words

/-!
# Brackets in expressions

What stands inside of brackets does not matter to what stands outside. The words of some forms are brackets as
well: `CASE` up to its `END`, and `BETWEEN` up to the `AND` that belongs to it. What is open after a token is a
state (`Opened`), and a text is read through with it from left to right.

* **`FreeOf`**: tokens whose brackets match and of which none of a kind stands outside of all brackets; with
  **`FreeOf.append`** for texts one after the other and **`not_freeOf`** where such a token stands.
* **`split_last`**, **`split_first`**: the last and the first token of a kind outside of all brackets are where
  they are in one way only.
-/

namespace QueryTemplate.Sql

/-! ## What is open -/

def Symbol.opensBracket (s : Symbol) : Bool :=
  s ∈ [.opening, .openingSquare, .openingCurly]

/-- The number of open brackets after a token. Fails where none is closed. -/
def afterBracket (n : Nat) : Token → Option Nat
  | .symbol s =>
    if s.opensBracket then some (n + 1)
    else if s.closesBracket then if n = 0 then none else some (n - 1)
    else some n
  | _ => some n

/-- `Nested ts`: all brackets match. -/
def Nested (ts : List Token) : Prop :=
  ts.foldlM afterBracket 0 = some 0

/-- The words that enclose what stands between them and a later one: `CASE` up to `END`, and `BETWEEN` up to
the `AND` that belongs to it. -/
inductive Opener
  | case
  | between
  deriving DecidableEq, Repr

/-- The words that are open after a keyword, the last one first. -/
def afterKeyword : List Opener → Keyword → Option (List Opener)
  | words, .CASE => some (.case :: words)
  | words, .BETWEEN => some (.between :: words)
  | .case :: words, .END => some words
  | _, .END => none
  | .between :: words, .AND => some words
  | words, _ => some words

/-- What is open around a token: words, and brackets inside of all of them. -/
structure Opened where
  words : List Opener
  brackets : Nat
  deriving DecidableEq, Repr

/-- What is open after a token. Inside of brackets only brackets count, since all words that are open there
end in front of the bracket that closes them. Fails where something is closed that is not open, and at a
token of the kind `stop` where nothing is open. -/
def afterToken (stop : Token → Bool) : Opened → Token → Option Opened
  | ⟨words, brackets + 1⟩, t => (afterBracket (brackets + 1) t).map (⟨words, ·⟩)
  | ⟨words, 0⟩, .word name (some k) =>
    if words = [] ∧ stop (.word name (some k)) then none else (afterKeyword words k).map (⟨·, 0⟩)
  | ⟨words, 0⟩, t => do
    let brackets ← afterBracket 0 t
    if words = [] ∧ brackets = 0 ∧ stop t then none else return ⟨words, brackets⟩

/-- What is open after some tokens. -/
def afterTokens (stop : Token → Bool) (o : Opened) (ts : List Token) : Option Opened :=
  ts.foldlM (afterToken stop) o

/-- `FreeOf stop ts`: all that is opened is closed, and no token of the kind `stop` stands outside of it. -/
def FreeOf (stop : Token → Bool) (ts : List Token) : Prop :=
  afterTokens stop ⟨[], 0⟩ ts = some ⟨[], 0⟩

instance (stop : Token → Bool) (ts : List Token) : Decidable (FreeOf stop ts) :=
  inferInstanceAs (Decidable (_ = _))

/-- All that is opened is closed. -/
abbrev Balanced (ts : List Token) : Prop :=
  FreeOf (fun _ => false) ts

/-! ## Tokens that are free of a kind -/

variable {stop stop' : Token → Bool} {ts us : List Token} {t : Token}

theorem afterTokens_append (o : Opened) (ts us : List Token) :
    afterTokens stop o (ts ++ us) = (afterTokens stop o ts).bind fun o => afterTokens stop o us :=
  List.foldlM_append

theorem FreeOf.append (ht : FreeOf stop ts) (hu : FreeOf stop us) : FreeOf stop (ts ++ us) := by
  unfold FreeOf
  rw [afterTokens_append, ht]
  exact hu

theorem afterToken_mono (h : ∀ t, stop t = true → stop' t = true) {o o' : Opened}
    (hafter : afterToken stop' o t = some o') : afterToken stop o t = some o' := by
  unfold afterToken at hafter ⊢
  split at hafter
  · exact hafter
  · split at hafter
    · cases hafter
    · rename_i hstop
      rw [if_neg fun hs => hstop ⟨hs.1, h _ hs.2⟩]
      exact hafter
  · obtain ⟨brackets, hbrackets, hafter⟩ := Option.bind_eq_some_iff.1 hafter
    refine Option.bind_eq_some_iff.2 ⟨brackets, hbrackets, ?_⟩
    split at hafter
    · cases hafter
    · rename_i hstop
      rw [if_neg fun hs => hstop ⟨hs.1, hs.2.1, h _ hs.2.2⟩]
      exact hafter

theorem afterTokens_mono (h : ∀ t, stop t = true → stop' t = true) {o o' : Opened}
    (hafter : afterTokens stop' o ts = some o') : afterTokens stop o ts = some o' := by
  induction ts generalizing o with
  | nil => exact hafter
  | cons t ts ih =>
    obtain ⟨next, hnext, hrest⟩ := Option.bind_eq_some_iff.1 hafter
    exact Option.bind_eq_some_iff.2 ⟨next, afterToken_mono h hnext, ih hrest⟩

/-- Free of more is free of less. -/
theorem FreeOf.mono (hts : FreeOf stop' ts) (h : ∀ t, stop t = true → stop' t = true) :
    FreeOf stop ts :=
  afterTokens_mono h hts

theorem FreeOf.balanced (h : FreeOf stop ts) : Balanced ts :=
  h.mono nofun

theorem afterBracket_of_afterToken {o o' : Opened} (h : afterToken stop o t = some o') :
    afterBracket o.brackets t = some o'.brackets := by
  unfold afterToken at h
  split at h
  · obtain ⟨n, hn, rfl⟩ := Option.map_eq_some_iff.1 h
    exact hn
  · split at h
    · cases h
    · obtain ⟨words, -, rfl⟩ := Option.map_eq_some_iff.1 h
      rfl
  · obtain ⟨n, hn, h⟩ := Option.bind_eq_some_iff.1 h
    split at h
    · cases h
    · cases h
      exact hn

theorem afterBrackets_of_afterTokens {o o' : Opened} (h : afterTokens stop o ts = some o') :
    ts.foldlM afterBracket o.brackets = some o'.brackets := by
  induction ts generalizing o with
  | nil =>
    cases h
    rfl
  | cons t ts ih =>
    obtain ⟨next, hnext, hrest⟩ := Option.bind_eq_some_iff.1 h
    exact Option.bind_eq_some_iff.2 ⟨_, afterBracket_of_afterToken hnext, ih hrest⟩

theorem FreeOf.nested (h : FreeOf stop ts) : Nested ts :=
  afterBrackets_of_afterTokens h

theorem afterBracket_succ {n n' : Nat} (h : afterBracket n t = some n') :
    afterBracket (n + 1) t = some (n' + 1) := by
  unfold afterBracket at h ⊢
  split at h
  · split at h
    · cases h
      rw [if_pos ‹_›]
    · rw [if_neg ‹_›]
      split at h
      · split at h
        · cases h
        · cases h
          rw [if_pos ‹_›, if_neg (Nat.succ_ne_zero n)]
          congr 1
          omega
      · cases h
        rw [if_neg ‹_›]
  · cases h
    rfl

/-- Inside of a bracket, every token may stand. -/
theorem afterTokens_inside {n n' : Nat} (words : List Opener) (h : ts.foldlM afterBracket n = some n') :
    afterTokens stop ⟨words, n + 1⟩ ts = some ⟨words, n' + 1⟩ := by
  induction ts generalizing n with
  | nil =>
    cases h
    rfl
  | cons t ts ih =>
    obtain ⟨next, hnext, hrest⟩ := Option.bind_eq_some_iff.1 h
    refine Option.bind_eq_some_iff.2 ⟨⟨words, next + 1⟩, ?_, ih hrest⟩
    rw [afterToken, afterBracket_succ hnext, Option.map_some]

/-- Parentheses around tokens hide what stands in them. -/
theorem Nested.parenthesized (h : Nested ts) :
    FreeOf stop (.symbol .opening :: (ts ++ [.symbol .closing])) := by
  show afterTokens stop ⟨[], 1⟩ (ts ++ [.symbol .closing]) = some ⟨[], 0⟩
  rw [afterTokens_append, afterTokens_inside [] h]
  rfl

/-- Whether a token opens nothing, and closes nothing where nothing is open. -/
def Token.isPlain : Token → Bool
  | .symbol s => !s.opensBracket && !s.closesBracket
  | .word _ (some k) => k ∉ [.CASE, .END, .BETWEEN]
  | _ => true

theorem afterToken_of_plain (h : t.isPlain = true) :
    afterToken stop ⟨[], 0⟩ t = if stop t then none else some ⟨[], 0⟩ := by
  cases t with
  | symbol s =>
    simp only [Token.isPlain, Bool.and_eq_true, Bool.not_eq_true'] at h
    simp [afterToken, afterBracket, h.1, h.2]
  | word name keyword =>
    cases keyword with
    | none => simp [afterToken, afterBracket]
    | some k =>
      have hk : k ≠ .CASE ∧ k ≠ .END ∧ k ≠ .BETWEEN := by simpa [Token.isPlain] using h
      have hafter : afterKeyword [] k = some [] := by
        unfold afterKeyword
        split <;> simp_all
      simp [afterToken, hafter]
  | _ => simp [afterToken, afterBracket]

theorem FreeOf.cons (ht : t.isPlain = true) (hstop : stop t = false) (hts : FreeOf stop ts) :
    FreeOf stop (t :: ts) := by
  refine Option.bind_eq_some_iff.2 ⟨⟨[], 0⟩, ?_, hts⟩
  rw [afterToken_of_plain ht, hstop]
  rfl

theorem not_freeOf (hts : Balanced ts) (ht : t.isPlain = true) (hstop : stop t = true) :
    ¬ FreeOf stop (ts ++ t :: us) := by
  intro h
  obtain ⟨o, ho, hrest⟩ := Option.bind_eq_some_iff.1 ((afterTokens_append ⟨[], 0⟩ ts _).symm.trans h)
  have hnone : some ⟨[], 0⟩ = some o := hts.symm.trans (afterTokens_mono (fun _ hs => by cases hs) ho)
  cases hnone
  obtain ⟨next, hnext, _⟩ := Option.bind_eq_some_iff.1 hrest
  rw [afterToken_of_plain ht, if_pos hstop] at hnext
  cases hnext

theorem Balanced.of_append (hts : Balanced ts) (h : Balanced (ts ++ us)) : Balanced us := by
  have hafter : afterTokens _ ⟨[], 0⟩ (ts ++ us) = some ⟨[], 0⟩ := h
  rw [afterTokens_append, show afterTokens _ ⟨[], 0⟩ ts = some ⟨[], 0⟩ from hts] at hafter
  exact hafter

theorem Balanced.of_cons (ht : t.isPlain = true) (h : Balanced (t :: ts)) : Balanced ts := by
  obtain ⟨next, hnext, hrest⟩ := Option.bind_eq_some_iff.1 h
  rw [afterToken_of_plain ht] at hnext
  cases hnext
  exact hrest

/-! ## Splitting -/

theorem cases_of_append_cons_eq {a b a' b' : List Token} {t t' : Token}
    (h : a ++ t :: b = a' ++ t' :: b') :
    (a = a' ∧ t = t' ∧ b = b') ∨ (∃ m, a' = a ++ t :: m ∧ b = m ++ t' :: b')
      ∨ ∃ m, a = a' ++ t' :: m ∧ b' = m ++ t :: b := by
  rcases List.append_eq_append_iff.1 h with ⟨m, rfl, hm⟩ | ⟨m, rfl, hm⟩
  · cases m with
    | nil =>
      cases hm
      exact .inl ⟨by simp, rfl, rfl⟩
    | cons u m =>
      cases hm
      exact .inr (.inl ⟨m, rfl, rfl⟩)
  · cases m with
    | nil =>
      cases hm
      exact .inl ⟨by simp, rfl, rfl⟩
    | cons u m =>
      cases hm
      exact .inr (.inr ⟨m, rfl, rfl⟩)

/-- Tokens have one last token of a kind outside of all brackets. -/
theorem split_last {a b a' b' : List Token} {t t' : Token} (ha : Balanced a) (ha' : Balanced a')
    (ht : t.isPlain = true) (ht' : t'.isPlain = true) (hstop : stop t = true) (hstop' : stop t' = true)
    (hb : FreeOf stop b) (hb' : FreeOf stop b') (h : a ++ t :: b = a' ++ t' :: b') :
    a = a' ∧ t = t' ∧ b = b' := by
  rcases cases_of_append_cons_eq h with heq | ⟨m, rfl, rfl⟩ | ⟨m, rfl, rfl⟩
  · exact heq
  · exact absurd hb (not_freeOf ((ha.of_append ha').of_cons ht) ht' hstop')
  · exact absurd hb' (not_freeOf ((ha'.of_append ha).of_cons ht') ht hstop)

/-- Tokens have one first token of a kind outside of all brackets. -/
theorem split_first {a b a' b' : List Token} {t t' : Token} (ha : FreeOf stop a)
    (ha' : FreeOf stop a') (ht : t.isPlain = true) (ht' : t'.isPlain = true) (hstop : stop t = true)
    (hstop' : stop t' = true) (h : a ++ t :: b = a' ++ t' :: b') : a = a' ∧ t = t' ∧ b = b' := by
  rcases cases_of_append_cons_eq h with heq | ⟨m, rfl, rfl⟩ | ⟨m, rfl, rfl⟩
  · exact heq
  · exact absurd ha' (not_freeOf ha.balanced ht hstop)
  · exact absurd ha (not_freeOf ha'.balanced ht' hstop')

end QueryTemplate.Sql
