import QueryTemplate.Proofs.Reading.Offsets

/-!
# Reading with a cursor

The readers of `Filter.Parse` hand the tokens that are left from one to the next. Here the same is
written as a program that keeps the tokens in one array and moves a cursor over it, with a counter
of the levels of nesting it is in. Nothing in the types of such a program keeps the cursor inside
the array, the counter from going below zero, or a slice of the text on a character boundary. So it
may get stuck, and then it has neither a result nor an error (`Walker.stuck`).

Nor do the types say that it ends, as its loops and recursions stop only if the cursor gets on. The
readers end because they have fewer tokens left each time. The program has a clock instead, which
loses a tick with every condition and every round of a loop, and is stuck when none is left. A
program that returns on one clock returns the same on every clock with more ticks
(`Walker.extends_combinations`, `run_of_le`), so the program ends if it returns on some clock.

What a walk over the tokens does is recorded with it: every place the cursor has been at, and how
deep it was there. That the program never gets stuck and reads what the readers read is shown in
`Proofs.Reading.Bounds`.
-/

namespace QueryTemplate.Filter

/-- A place in the tokens of a text, and how many `NOT`s and groups it is in. -/
structure Cursor where
  index : Nat
  depth : Nat
  deriving DecidableEq, Repr

/-- Where a program is, and where it has been before, the latest first. -/
structure Walk where
  now : Cursor
  before : List Cursor
  deriving DecidableEq, Repr

/-- Every place of a walk. -/
def Walk.trail (w : Walk) : List Cursor :=
  w.now :: w.before

/-- A program that walks over tokens: it returns something or a syntax error, unless it is stuck. -/
abbrev Walker := ExceptT TextError (StateT Walk Option)

namespace Walker

variable {α : Type}

/-- Nothing is returned, neither a result nor an error. -/
def stuck : Walker α :=
  fun _ => none

/-- Where the program is. -/
def here : Walker Cursor :=
  fun w => some (.ok w.now, w)

/-- Goes to another place. -/
def moveTo (c : Cursor) : Walker Unit :=
  fun w => some (.ok (), ⟨c, w.trail⟩)

variable (text : String) (tokens : List Spanned)

/-! ## Tokens -/

/-- The token at the cursor, or the end. -/
def current : Walker Spanned := do
  match tokens[(← here).index]? with
  | some s => return s
  | none => stuck

/-- The token at the cursor; none at the end. -/
def peek : Walker (Option Token) :=
  return (← current tokens).token

/-- Goes on to the next token, unless the cursor is at the end. -/
def advance : Walker Unit := do
  if (← peek tokens).isSome then
    let c ← here
    moveTo { c with index := c.index + 1 }

/-- A fault at the cursor, with the text sliced there. -/
def fail (fault : Fault) : Walker α := do
  let position := (← current tokens).position
  match Text.sliceFrom? text position with
  | some remainder => throw ⟨position, remainder, fault⟩
  | none => stuck

/-- Whether the token at the cursor is a keyword. -/
def atKeyword (k : Keyword) : Walker Bool :=
  return (← peek tokens).bind Token.keyword? = some k

/-- Passes a keyword if it is at the cursor. -/
def eatKeyword (k : Keyword) : Walker Bool := do
  if ← atKeyword tokens k then
    advance tokens
    return true
  else
    return false

/-- Requires a token at the cursor. -/
def expect (t : Token) (fault : Fault) : Walker Unit := do
  if (← peek tokens) = some t then
    advance tokens
  else
    fail text tokens fault

/-! ## Nesting -/

/-- Goes a level deeper, if the nesting is not as deep as it may be. -/
def enter : Walker Unit := do
  let c ← here
  if maxNesting ≤ c.depth then
    fail text tokens .nestedTooDeeply
  else
    moveTo { c with depth := c.depth + 1 }

/-- Goes a level up. -/
def leave : Walker Unit := do
  let c ← here
  match c.depth with
  | 0 => stuck
  | depth + 1 => moveTo { c with depth := depth }

/-! ## Predicates -/

/-- Reads an operand. -/
def operand : Walker Operand := do
  match ← peek tokens with
  | none => fail text tokens .expectedOperand
  | some t =>
    match ofToken t with
    | .ok o =>
      advance tokens
      return o
    | .error fault => fail text tokens fault

/-- Reads on while there is a comma, and puts each item behind those already read. -/
def furtherItems : Nat → List Operand → Walker (List Operand)
  | 0, _ => stuck
  | clock + 1, items => do
    if (← peek tokens) = some .comma then
      advance tokens
      let o ← operand text tokens
      furtherItems clock (items ++ [o])
    else
      return items

/-- Reads the items of a list and the parentheses around them. -/
def itemList (clock : Nat) : Walker (List Operand) := do
  expect text tokens .opening .expectedListStart
  let o ← operand text tokens
  let items ← furtherItems text tokens clock [o]
  expect text tokens .closing .expectedListEnd
  return items

/-- Reads what follows `IS` after an operand. -/
def nullTest (left : Operand) : Walker Filter := do
  let negated ← eatKeyword tokens .not_
  if ← eatKeyword tokens .null then
    return .isNull left negated
  else
    fail text tokens .expectedNull

/-- Reads `LIKE` or `IN` and what follows it after an operand. -/
def membership (clock : Nat) (left : Operand) (negated : Bool) : Walker Filter := do
  if ← eatKeyword tokens .like then
    let right ← operand text tokens
    return .compare left (if negated then .notLike else .like) right
  else if ← eatKeyword tokens .in_ then
    let items ← itemList text tokens clock
    return .isIn left items negated
  else
    fail text tokens (if negated then .expectedLikeOrIn else .expectedComparison)

/-- Reads a comparison, a test for null, or a test for membership in a list. -/
def predicate (clock : Nat) : Walker Filter := do
  let left ← operand text tokens
  match ← peek tokens with
  | some (.op o) =>
    advance tokens
    let right ← operand text tokens
    return .compare left o right
  | _ =>
    if ← eatKeyword tokens .is_ then
      nullTest text tokens left
    else
      let negated ← eatKeyword tokens .not_
      membership text tokens clock left negated

/-! ## Combinations -/

mutual

/-- Reads conjunctions joined by `OR`. -/
def disjunction : Nat → Walker Filter
  | 0 => stuck
  | clock + 1 => do
    let left ← conjunction clock
    furtherDisjuncts clock left

/-- Reads on while there is an `OR`, and joins from the left. -/
def furtherDisjuncts : Nat → Filter → Walker Filter
  | 0, _ => stuck
  | clock + 1, left => do
    if ← eatKeyword tokens .or_ then
      let right ← conjunction clock
      furtherDisjuncts clock (.or left right)
    else
      return left

/-- Reads conditions joined by `AND`. -/
def conjunction : Nat → Walker Filter
  | 0 => stuck
  | clock + 1 => do
    let left ← unary clock
    furtherConjuncts clock left

/-- Reads on while there is an `AND`, and joins from the left. -/
def furtherConjuncts : Nat → Filter → Walker Filter
  | 0, _ => stuck
  | clock + 1, left => do
    if ← eatKeyword tokens .and_ then
      let right ← unary clock
      furtherConjuncts clock (.and left right)
    else
      return left

/-- Reads a negation, a group or a predicate. -/
def unary : Nat → Walker Filter
  | 0 => stuck
  | clock + 1 => do
    if ← atKeyword tokens .not_ then
      enter text tokens
      advance tokens
      let inner ← unary clock
      leave
      return .not inner
    else if (← peek tokens) = some .opening then
      enter text tokens
      advance tokens
      let inner ← disjunction clock
      expect text tokens .closing .expectedClosing
      leave
      return inner
    else
      predicate text tokens clock

end

/-- The filter that all the tokens make up. -/
def whole (clock : Nat) : Walker Filter := do
  let f ← disjunction text tokens clock
  if (← peek tokens).isSome then
    fail text tokens .trailingInput
  else
    return f

/-! ## Running -/

section Running

variable {α β : Type} {m : Walker α} {k : α → Walker β} {w w' : Walk}

theorem here_bind (k : Cursor → Walker β) (w : Walk) : (here >>= k) w = k w.now w :=
  rfl

theorem bind_of_ok {a : α} (h : m w = some (.ok a, w')) : (m >>= k) w = k a w' := by
  show (m w).bind _ = _
  rw [h]
  rfl

theorem bind_of_error {e : TextError} (h : m w = some (.error e, w')) :
    (m >>= k) w = some (.error e, w') := by
  show (m w).bind _ = _
  rw [h]
  rfl

end Running

/-! ## Ticks -/

/-- A program that returns whatever another one returns, and maybe something where that is stuck. -/
def Extends {α : Type} (m m' : Walker α) : Prop :=
  ∀ w ended, m w = some ended → m' w = some ended

section Extends

variable {α β : Type} {m m' : Walker α} {k k' : α → Walker β}

theorem Extends.refl (m : Walker α) : Extends m m :=
  fun _ _ h => h

theorem Extends.bind (hm : Extends m m') (hk : ∀ a, Extends (k a) (k' a)) :
    Extends (m >>= k) (m' >>= k') := by
  intro w ended h
  cases hrun : m w with
  | none =>
    have hnone : (m >>= k) w = none := by
      show (m w).bind _ = none
      rw [hrun]
      rfl
    rw [hnone] at h
    cases h
  | some result =>
    obtain ⟨result, w'⟩ := result
    have hrun' := hm w _ hrun
    cases result with
    | error e =>
      rw [bind_of_error hrun] at h
      rw [bind_of_error hrun']
      exact h
    | ok a =>
      rw [bind_of_ok hrun] at h
      rw [bind_of_ok hrun']
      exact hk a w' ended h

theorem Extends.seq (hk : ∀ a, Extends (k a) (k' a)) : Extends (m >>= k) (m >>= k') :=
  (Extends.refl m).bind hk

theorem Extends.ite {p : Prop} [Decidable p] {n n' : Walker α} (hm : Extends m m')
    (hn : Extends n n') : Extends (if p then m else n) (if p then m' else n') := by
  split
  · exact hm
  · exact hn

end Extends

section Ticks

variable {text : String} {tokens : List Spanned} {a b : Nat}

theorem exists_tick {n clock : Nat} (h : n < clock) : ∃ ticks, clock = ticks + 1 :=
  Nat.exists_eq_add_one_of_ne_zero (Nat.ne_zero_of_lt h)

theorem extends_furtherItems (hab : a ≤ b) (items : List Operand) :
    Extends (furtherItems text tokens a items) (furtherItems text tokens b items) := by
  induction a generalizing b items with
  | zero => exact fun _ _ h => by cases h
  | succ a ih =>
    obtain ⟨b, rfl⟩ := exists_tick hab
    rw [furtherItems, furtherItems]
    have hmore := ih (Nat.le_of_succ_le_succ hab)
    exact .seq fun _ => .ite (.seq fun _ => .seq fun _ => hmore _) (.refl _)

theorem extends_itemList (hab : a ≤ b) :
    Extends (itemList text tokens a) (itemList text tokens b) :=
  .seq fun _ => .seq fun _ => (extends_furtherItems hab _).bind fun _ => .refl _

theorem extends_membership (hab : a ≤ b) (left : Operand) (negated : Bool) :
    Extends (membership text tokens a left negated) (membership text tokens b left negated) :=
  .seq fun _ => .ite (.refl _)
    (.seq fun _ => .ite ((extends_itemList hab).bind fun _ => .refl _) (.refl _))

theorem extends_predicate (hab : a ≤ b) :
    Extends (predicate text tokens a) (predicate text tokens b) := by
  refine .seq fun _ => .seq fun t? => ?_
  split
  · exact .refl _
  · exact .seq fun _ => .ite (.refl _) (.seq fun _ => extends_membership hab _ _)

theorem extends_combinations (hab : a ≤ b) :
    Extends (disjunction text tokens a) (disjunction text tokens b)
    ∧ (∀ left, Extends (furtherDisjuncts text tokens a left) (furtherDisjuncts text tokens b left))
    ∧ Extends (conjunction text tokens a) (conjunction text tokens b)
    ∧ (∀ left, Extends (furtherConjuncts text tokens a left) (furtherConjuncts text tokens b left))
    ∧ Extends (unary text tokens a) (unary text tokens b) := by
  induction a generalizing b with
  | zero =>
    have hstuck {m : Walker Filter} : Extends stuck m := fun _ _ h => by cases h
    exact ⟨hstuck, fun _ => hstuck, hstuck, fun _ => hstuck, hstuck⟩
  | succ a ih =>
    obtain ⟨b, rfl⟩ := exists_tick hab
    obtain ⟨hor, hors, hand, hands, hunary⟩ := ih (Nat.le_of_succ_le_succ hab)
    refine ⟨?_, fun left => ?_, ?_, fun left => ?_, ?_⟩
    · rw [disjunction, disjunction]
      exact hand.bind hors
    · rw [furtherDisjuncts, furtherDisjuncts]
      exact .seq fun _ => .ite (hand.bind fun _ => hors _) (.refl _)
    · rw [conjunction, conjunction]
      exact hunary.bind hands
    · rw [furtherConjuncts, furtherConjuncts]
      exact .seq fun _ => .ite (hunary.bind fun _ => hands _) (.refl _)
    · rw [unary, unary]
      refine .seq fun _ => .ite ?_ (.seq fun _ => .ite ?_ ?_)
      · exact .seq fun _ => .seq fun _ => hunary.bind fun _ => .refl _
      · exact .seq fun _ => .seq fun _ => hor.bind fun _ => .refl _
      · exact extends_predicate (Nat.le_of_succ_le_succ hab)

theorem extends_whole (hab : a ≤ b) : Extends (whole text tokens a) (whole text tokens b) :=
  (extends_combinations hab).1.bind fun _ => .refl _

end Ticks

end Walker

/--
Reads a filter with a cursor from the first token on. What is returned, if the program does not get
stuck, comes with every place the cursor has been at, which is none where the text cannot be cut
into tokens.
-/
def run (clock : Nat) (text : String) : Option (Except TextError Filter × List Cursor) :=
  match scan text 0 text.toList with
  | none => none
  | some (.error e) => some (.error e, [])
  | some (.ok tokens) =>
    (Walker.whole text tokens clock ⟨⟨0, 0⟩, []⟩).map fun (result, w) => (result, w.trail)

/-- **More ticks make no difference** to a program that has had enough of them. -/
theorem run_of_le {a b : Nat} (hab : a ≤ b) {text : String}
    {ended : Except TextError Filter × List Cursor} (h : run a text = some ended) :
    run b text = some ended := by
  unfold run at h ⊢
  split at h
  · cases h
  · exact h
  · obtain ⟨⟨result, w⟩, hwhole, rfl⟩ := Option.map_eq_some_iff.1 h
    simp only
    rw [Walker.extends_whole hab _ _ hwhole]
    rfl

end QueryTemplate.Filter
