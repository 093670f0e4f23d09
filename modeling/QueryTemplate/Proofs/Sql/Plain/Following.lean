import QueryTemplate.Proofs.Sql.Plain.Grammar
import QueryTemplate.Proofs.Sql.Running

/-!
# What follows an expression

Where an expression ends depends on what stands behind it. All that can stand there is put in one order,
such that what ends an expression ends everything in it as well: first the ends of queries, then the
clauses of a query from the last to the first, then what ends a part of a clause, words, and the operators
from the loosest to the tightest.

* **`Follows`**: what comes next is in this order no later than a level.
-/

namespace QueryTemplate.Sql

open Reader Running

/-! ## The order -/

/-- The place of a keyword in the order; those that never stand behind an expression come last. -/
def Keyword.grip : Keyword → Nat
  | .LIMIT | .OFFSET => 1
  | .ORDER => 2
  | .UNION | .EXCEPT => 3
  | .INTERSECT => 4
  | .HAVING => 5
  | .GROUP => 6
  | .WHERE => 7
  | .FROM => 8
  | .JOIN | .CROSS | .NATURAL | .INNER | .LEFT | .RIGHT | .FULL => 10
  | .ON | .USING => 11
  | .NULLS => 12
  | .ASC | .DESC => 13
  | .AS | .ELSE | .END | .FOR | .THEN | .WHEN => soft
  | .ESCAPE => 139
  | .FILTER | .IGNORE | .OVER | .PRECISION | .RESPECT | .ROW | .ROWS | .TO | .UNSIGNED | .VARYING | .WITH
  | .WITHIN | .WITHOUT => 1000
  | _ => aliased

/-- The place of a token that is no operator. -/
def Token.grip : Token → Nat
  | .symbol .closing | .symbol .semicolon => 0
  | .symbol .comma => 9
  | .word ⟨s, none⟩ (some k) => if Keyword.ofCapitals? (Keyword.inCapitals s) = some k then k.grip else 1000
  | .word _ none => aliased
  | _ => 1000

/-- The place of what the tokens start with. -/
def grip (ts : List Token) : Nat :=
  if nextLevel ts = 0 then (ts.head?.map Token.grip).getD 0 else 100 + 2 * nextLevel ts

/-- What comes next may stand behind an expression, and comes no later than `e`. -/
structure Follows (e : Nat) (ts : List Token) : Prop where
  grip_le : grip ts ≤ e
  grip_lt : grip ts < 1000

/-- A keyword that is no operator. -/
def Keyword.quiet (k : Keyword) : Bool :=
  k.operator? = none && k ≠ .IS && k ≠ .NOT && k.testLevel = 0

/-! ## What may follow -/

theorem Follows.mono {e f : Nat} {ts : List Token} (h : Follows e ts) (hef : e ≤ f) : Follows f ts :=
  ⟨Nat.le_trans h.grip_le hef, h.grip_lt⟩

theorem nextLevel_quiet {k : Keyword} (hk : k.quiet = true) (name : Ident) (ts : List Token) :
    nextLevel (.word name (some k) :: ts) = 0 := by
  obtain ⟨⟨⟨hop, his⟩, hnot⟩, htest⟩ : ((k.operator? = none ∧ k ≠ .IS) ∧ k ≠ .NOT) ∧ k.testLevel = 0 := by
    simpa [Keyword.quiet] using hk
  simp [nextLevel, Token.operator?, hop, htest]

@[simp] theorem follows_nil {e : Nat} : Follows e [] :=
  ⟨Nat.zero_le e, by decide⟩

@[simp] theorem follows_closing {e : Nat} {ts : List Token} : Follows e (.symbol .closing :: ts) :=
  ⟨Nat.zero_le e, Nat.zero_lt_succ _⟩

@[simp] theorem follows_semicolon {e : Nat} {ts : List Token} : Follows e (.symbol .semicolon :: ts) :=
  ⟨Nat.zero_le e, Nat.zero_lt_succ _⟩

theorem follows_comma_iff {e : Nat} {ts : List Token} :
    Follows e (.symbol .comma :: ts) ↔ 9 ≤ e :=
  ⟨fun h => h.grip_le, fun h => ⟨h, by change 9 < 1000; decide⟩⟩

@[simp] theorem follows_comma {ts : List Token} : Follows soft (.symbol .comma :: ts) :=
  follows_comma_iff.2 (by decide)

/-- The keyword may stand behind an expression that something up to `e` may follow. -/
def Keyword.ends (e : Nat) (k : Keyword) : Bool :=
  k.quiet && k.grip ≤ e && k.grip < 1000

theorem follows_keyword {k : Keyword} {e : Nat} {s : String}
    (hs : Keyword.ofCapitals? (Keyword.inCapitals s) = some k) (hk : k.ends e = true) (ts : List Token) :
    Follows e (.word ⟨s, none⟩ (some k) :: ts) := by
  simp only [Keyword.ends, Bool.and_eq_true, decide_eq_true_eq] at hk
  have hgrip : grip (.word ⟨s, none⟩ (some k) :: ts) = k.grip := by
    simp [grip, nextLevel_quiet hk.1.1, Token.grip, hs]
  exact ⟨hgrip ▸ hk.1.2, hgrip ▸ hk.2⟩

/-- An operator, or the first word of a test, at a level. -/
theorem follows_of_nextLevel {e l : Nat} {ts : List Token} (h : nextLevel ts = l) (hl : 0 < l ∧ l ≤ 50)
    (hle : 100 + 2 * l ≤ e) : Follows e ts := by
  have hgrip : grip ts = 100 + 2 * l := by
    rw [grip, h, if_neg (by omega)]
  constructor <;> omega

/-! ## What does not follow -/

namespace Follows

variable {e : Nat} {ts : List Token}

/-- Only the operators up to a level follow. -/
theorem nextLevel_le (h : Follows e ts) {l : Nat} (hl : e ≤ 101 + 2 * l) : nextLevel ts ≤ l := by
  have hle := h.grip_le
  unfold grip at hle
  split at hle <;> omega

theorem startsWith_period (h : Follows e ts) : startsWith .period ts = false := by
  have hlt := h.grip_lt
  rcases ts with _ | ⟨t, ts⟩
  · rfl
  rw [startsWith_cons, decide_eq_false_iff_not]
  rintro rfl
  exact absurd hlt (by simp [grip, nextLevel, Token.operator?, Symbol.operator?, Token.grip])

theorem startsWith_opening (h : Follows e ts) : startsWith .opening ts = false := by
  have hlt := h.grip_lt
  rcases ts with _ | ⟨t, ts⟩
  · rfl
  rw [startsWith_cons, decide_eq_false_iff_not]
  rintro rfl
  exact absurd hlt (by simp [grip, nextLevel, Token.operator?, Symbol.operator?, Token.grip])

theorem startsWith_comma (h : Follows e ts) (he : e < 9) : startsWith .comma ts = false := by
  have hle := h.grip_le
  rcases ts with _ | ⟨t, ts⟩
  · rfl
  rw [startsWith_cons, decide_eq_false_iff_not]
  rintro rfl
  exact absurd he (Nat.not_lt.2 hle)

theorem exists_word_of_keyword? {k : Keyword} (h : keyword? ts = some k) :
    ∃ name us, ts = .word name (some k) :: us := by
  unfold keyword? at h
  split at h
  · exact ⟨_, _, by rw [h]⟩
  · cases h

/-- No keyword follows that comes later. -/
theorem keyword?_ne (h : Follows e ts) {k : Keyword} (hk : k.quiet = true)
    (hlate : e < k.grip ∨ 1000 ≤ k.grip) : keyword? ts ≠ some k := by
  intro hkey
  obtain ⟨⟨s, quote⟩, us, rfl⟩ := exists_word_of_keyword? hkey
  have hle := h.grip_le
  have hlt := h.grip_lt
  simp only [grip, nextLevel_quiet hk, if_pos, List.head?_cons, Option.map_some, Option.getD_some] at hle hlt
  cases quote with
  | some quote => exact absurd hlt (by simp [Token.grip])
  | none =>
    rw [Token.grip] at hle hlt
    split at hle <;> split at hlt <;> omega

/-- No words follow that go on with a call. -/
theorem keyword?_callTails (h : Follows e ts) : (keyword? ts).any Keyword.callTails.contains = false := by
  rw [Option.any_eq_false]
  intro k hk
  rw [Bool.eq_false_iff, Ne, List.contains_iff_mem]
  intro hmem
  have hall : ∀ k ∈ Keyword.callTails, k.quiet = true ∧ 1000 ≤ k.grip := by decide
  exact h.keyword?_ne (hall k hmem).1 (.inr (hall k hmem).2) hk

/-- Texts, numbers and placeholders do not follow. -/
theorem head_eq (h : Follows e ts) :
    ts = [] ∨ (∃ s us, ts = .symbol s :: us) ∨ ∃ name k us, ts = .word name k :: us := by
  have hlt := h.grip_lt
  rcases ts with _ | ⟨_ | _ | _ | _ | _ | _, ts⟩
  · exact .inl rfl
  · exact .inr (.inr ⟨_, _, _, rfl⟩)
  case cons.symbol => exact .inr (.inl ⟨_, _, rfl⟩)
  all_goals exact absurd hlt (Nat.lt_irrefl _)

/-- Where no label follows, words that follow are keywords. -/
theorem head_eq_of_lt (h : Follows e ts) (he : e < aliased) :
    ts = [] ∨ (∃ s us, ts = .symbol s :: us) ∨ ∃ s k us, ts = .word ⟨s, none⟩ (some k) :: us
      ∧ Keyword.ofCapitals? (Keyword.inCapitals s) = some k ∧ k.grip ≤ e := by
  obtain rfl | hsymbol | ⟨⟨s, quote⟩, k, us, rfl⟩ := h.head_eq
  · exact .inl rfl
  · exact .inr (.inl hsymbol)
  · refine .inr (.inr ?_)
    have hle := h.grip_le
    have hlt := h.grip_lt
    have hlevel : nextLevel (.word ⟨s, quote⟩ k :: us) = 0 := by
      have := h.nextLevel_le (l := 0) (by unfold aliased at he; omega)
      omega
    simp only [grip, hlevel, if_pos, List.head?_cons, Option.map_some, Option.getD_some] at hle hlt
    cases k with
    | none => exact absurd he (Nat.not_lt.2 (by cases quote <;> exact hle))
    | some k =>
      cases quote with
      | some quote => exact absurd hlt (Nat.lt_irrefl _)
      | none =>
        rw [Token.grip] at hle hlt
        split at hle
        · exact ⟨s, k, us, rfl, ‹_›, hle⟩
        · exact absurd hlt (by rw [if_neg ‹_›]; decide)

/-- Nothing that can be a text follows where no label does. -/
theorem take_text? (h : Follows e ts) (he : e < aliased) : take Token.text? ts = .error .malformed := by
  obtain rfl | ⟨s, us, rfl⟩ | ⟨s, k, us, rfl, hs, -⟩ := h.head_eq_of_lt he
  · rfl
  · rfl
  · simp [Token.text?, Keyword.isKeyword, hs]

/-- A word that is no keyword. -/
theorem take_capitals (h : Follows e ts) (he : e < aliased) {words : List String}
    (hwords : words.all (Keyword.ofCapitals? · = none) = true) :
    take (fun t => t.capitals?.filter words.contains) ts = .error .malformed := by
  obtain rfl | ⟨s, us, rfl⟩ | ⟨s, k, us, rfl, hs, -⟩ := h.head_eq_of_lt he
  · rfl
  · rfl
  · have hword : Keyword.inCapitals s ∉ words := by
      intro hmem
      have hnone := List.all_eq_true.1 hwords _ hmem
      simp [hs] at hnone
    simp [Token.capitals?, Option.filter, hword]

end Follows

end QueryTemplate.Sql
