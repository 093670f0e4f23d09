import QueryTemplate.Proofs.Layout
import QueryTemplate.Proofs.Lexing
import QueryTemplate.Proofs.Grammar

/-!
# Spelled-out layouts

The layout of a tree with its operands spelled out is filter text. It derives the tree it comes from:
the parentheses of the writer are those that the grammar needs.

* **`spelled_literal`**, **`spelled_field`**: the operands that are one token when spelled out.
* **`Spells`** pairs the text of a condition with its derivation. Each rule of the grammar is one
  lemma about it, with the blanks, keywords and parentheses that the writer puts there.
* **`spells_layout`** puts the rules together along the tree.
-/

namespace QueryTemplate

/-! ## Operands and parts -/

/-- How an operand is spelled in filter text. -/
def Operand.spelling : Operand → List Char
  | .literal v => v.literal.toList
  | .param name => ':' :: name.toList
  | .field name => name.toList

/-- How a part of a layout is spelled in filter text. -/
def Mark.spelling : Mark → List Char
  | .operand o => o.spelling
  | .verbatim text => text.toList

/-- Whether a value is a floating point number. -/
def Value.isFloat : Value → Bool
  | .float _ => true
  | _ => false

namespace Filter

/-- An operand whose spelling is one token that stands for it. -/
def Spelled (o : Operand) : Prop :=
  ∃ t, Scans o.spelling [t] ∧ Stands t o

/-- `Spells cs level f`: the text `cs` derives the tree `f` at a level. -/
def Spells (cs : List Char) (level : Level) (f : Filter) : Prop :=
  ∃ ts n, Scans cs ts ∧ Derives level n ts f

/-! ### Operands -/

theorem scans_null : Scans "NULL".toList [.word "NULL"] :=
  show Scans ('N' :: ['U', 'L', 'L']) _ from scans_word ⟨rfl, fun _ => rfl⟩ rfl

theorem scans_true : Scans "true".toList [.word "true"] :=
  show Scans ('t' :: ['r', 'u', 'e']) _ from scans_word ⟨rfl, fun _ => rfl⟩ rfl

theorem scans_false : Scans "false".toList [.word "false"] :=
  show Scans ('f' :: ['a', 'l', 's', 'e']) _ from scans_word ⟨rfl, fun _ => rfl⟩ rfl

theorem spelled_literal {v : Value} (h : v.isFloat = false) : Spelled (.literal v) := by
  cases v with
  | null => exact ⟨.word "NULL", scans_null, .null rfl⟩
  | integer n => exact ⟨_, scans_integer n, .number _⟩
  | float x => cases h
  | text s =>
    refine ⟨.text s, ?_, .text s⟩
    have hspelling : ("'" ++ String.ofList (Value.doubleQuotes s.toList) ++ "'").toList
        = '\'' :: (Value.doubleQuotes s.toList ++ ['\'']) := by
      rw [String.toList_append, String.toList_append,
        String.toList_ofList (l := Value.doubleQuotes s.toList)]
      rfl
    show Scans ("'" ++ String.ofList (Value.doubleQuotes s.toList) ++ "'").toList _
    rw [hspelling]
    exact scans_text s
  | boolean b =>
    cases b with
    | true => exact ⟨.word "true", scans_true, .true_ rfl⟩
    | false => exact ⟨.word "false", scans_false, .false_ rfl⟩

theorem spelled_field {name : String} (h : IsName name) : Spelled (.field name) :=
  ⟨.word name, scans_name h, .field h.not_keyword⟩

/-! ### Texts between operands -/

def opTokens : CompareOp → List Token
  | .like => [.word "LIKE"]
  | .notLike => [.word "NOT", .word "LIKE"]
  | op => [.op op]

theorem separates_op (op : CompareOp) : Separates (" " ++ op.sql ++ " ").toList (opTokens op) := by
  refine ⟨fun _ => by cases op <;> rfl, fun rest us h => ?_⟩
  -- a blank, a token and a blank; `NOT LIKE` is two tokens
  cases op with
  | notLike => exact .blank rfl (.token rfl rfl (.blank rfl (.token rfl rfl (.blank rfl h))))
  | _ => exact .blank rfl (.token rfl rfl (.blank rfl h))

theorem isPredicate_op (op : CompareOp) {t u : Token} {l r : Operand} (hl : Stands t l)
    (hr : Stands u r) : IsPredicate (t :: (opTokens op ++ [u])) (.compare l op r) := by
  cases op with
  | like => exact .like hl rfl hr
  | notLike => exact .notLike hl rfl rfl hr
  | _ => exact .compare _ hl hr

theorem separates_and : Separates " AND ".toList [.word "AND"] :=
  ⟨fun _ => rfl, fun _ _ h => .blank rfl (.token rfl rfl (.blank rfl h))⟩

theorem separates_or : Separates " OR ".toList [.word "OR"] :=
  ⟨fun _ => rfl, fun _ _ h => .blank rfl (.token rfl rfl (.blank rfl h))⟩

theorem separates_comma : Separates ", ".toList [.comma] :=
  ⟨fun _ => rfl, fun _ _ h => .token rfl rfl (.blank rfl h)⟩

theorem separates_closing : Separates ")".toList [.closing] :=
  ⟨fun _ => rfl, fun _ _ h => .token rfl rfl h⟩

theorem separates_in : Separates " IN (".toList [.word "IN", .opening] :=
  ⟨fun _ => rfl, fun _ _ h => .blank rfl (.token rfl rfl (.blank rfl (.token rfl rfl h)))⟩

theorem separates_notIn : Separates " NOT IN (".toList [.word "NOT", .word "IN", .opening] :=
  ⟨fun _ => rfl, fun _ _ h => .blank rfl (.token rfl rfl (.blank rfl (.token rfl rfl
    (.blank rfl (.token rfl rfl h)))))⟩

theorem separates_is : Separates " IS ".toList [.word "IS"] :=
  ⟨fun _ => rfl, fun _ _ h => .blank rfl (.token rfl rfl (.blank rfl h))⟩

theorem separates_isNot : Separates " IS NOT ".toList [.word "IS", .word "NOT"] :=
  ⟨fun _ => rfl, fun _ _ h => .blank rfl (.token rfl rfl (.blank rfl (.token rfl rfl
    (.blank rfl h))))⟩

theorem opens_opening : Opens "(".toList [.opening] :=
  fun _ _ h => .token rfl rfl h

theorem opens_not : Opens "NOT (".toList [.word "NOT", .opening] :=
  fun _ _ h => .token rfl rfl (.blank rfl (.token rfl rfl h))

/-! ### Conditions -/

namespace Spells

variable {cs ds : List Char} {f g : Filter}

theorem and (hf : Spells cs .conjunction f) (hg : Spells ds .unary g) :
    Spells (cs ++ (" AND ".toList ++ ds)) .conjunction (.and f g) := by
  obtain ⟨ts, m, hts, hf⟩ := hf
  obtain ⟨us, n, hus, hg⟩ := hg
  exact ⟨_, _, hts.separate separates_and hus, .and hf rfl hg⟩

theorem or (hf : Spells cs .disjunction f) (hg : Spells ds .conjunction g) :
    Spells (cs ++ (" OR ".toList ++ ds)) .disjunction (.or f g) := by
  obtain ⟨ts, m, hts, hf⟩ := hf
  obtain ⟨us, n, hus, hg⟩ := hg
  exact ⟨_, _, hts.separate separates_or hus, .or hf rfl hg⟩

theorem scans_closed {p : List Char} {ts us : List Token} (hp : Opens p ts) (hcs : Scans cs us) :
    Scans (p ++ (cs ++ ")".toList)) (ts ++ (us ++ [.closing])) :=
  hp.append (hcs.separate separates_closing scans_nil)

theorem group (hf : Spells cs .disjunction f) :
    Spells ("(".toList ++ (cs ++ ")".toList)) .unary f := by
  obtain ⟨ts, n, hts, hf⟩ := hf
  exact ⟨_, _, scans_closed opens_opening hts, .group hf⟩

theorem not (hf : Spells cs .disjunction f) :
    Spells ("NOT (".toList ++ (cs ++ ")".toList)) .unary (.not f) := by
  obtain ⟨ts, n, hts, hf⟩ := hf
  exact ⟨_, _, scans_closed opens_not hts, .not rfl (.group hf)⟩

theorem conjunction (hf : Spells cs .unary f) : Spells cs .conjunction f := by
  obtain ⟨ts, n, hts, hf⟩ := hf
  exact ⟨ts, n, hts, .unary hf⟩

theorem disjunction {level : Level} (hf : Spells cs level f) : Spells cs .disjunction f := by
  obtain ⟨ts, n, hts, hf⟩ := hf
  cases level with
  | disjunction => exact ⟨ts, n, hts, hf⟩
  | conjunction => exact ⟨ts, n, hts, .conjunction hf⟩
  | unary => exact ⟨ts, n, hts, .conjunction (.unary hf)⟩

end Spells

/-- The level of the conditions that a tree is derived as without parentheses around it. -/
def level : Filter → Level
  | .and _ _ => .conjunction
  | .or _ _ => .disjunction
  | _ => .unary

/-- How the parts of a layout are spelled, one after the other. -/
def spell (ms : List Mark) : List Char :=
  ms.flatMap Mark.spelling

theorem spell_operand (o : Operand) : spell [.operand o] = o.spelling :=
  List.append_nil o.spelling

theorem spell_append (ms ns : List Mark) : spell (ms ++ ns) = spell ms ++ spell ns :=
  List.flatMap_append

theorem Spells.wrapped {f : Filter} (h : Spells (spell f.layout) .disjunction f) :
    Spells (spell (Mark.wrap true f.layout)) .unary f := by
  have hspell : spell (Mark.wrap true f.layout)
      = "(".toList ++ (spell f.layout ++ ")".toList) := by
    show "(".toList ++ spell (f.layout ++ [.verbatim ")"]) = _
    rw [spell_append]
    rfl
  rw [hspell]
  exact h.group

/-- On the left of `AND`, and on the right of `OR`, the writer puts disjunctions in parentheses. -/
theorem Spells.conjunct {f : Filter} (h : Spells (spell f.layout) f.level f) :
    Spells (spell (Mark.wrap f.isOr f.layout)) .conjunction f := by
  cases f with
  | or left right => exact h.wrapped.conjunction
  | and left right => exact h
  | compare left op right => exact h.conjunction
  | isIn o items negated => exact h.conjunction
  | isNull o negated => exact h.conjunction
  | not inner => exact h.conjunction

/-- On the right of `AND` it puts both kinds of chains in parentheses. -/
theorem Spells.factor {f : Filter} (h : Spells (spell f.layout) f.level f) :
    Spells (spell (Mark.wrap (f.isAnd || f.isOr) f.layout)) .unary f := by
  cases f with
  | or left right => exact h.disjunction.wrapped
  | and left right => exact h.disjunction.wrapped
  | compare left op right => exact h
  | isIn o items negated => exact h
  | isNull o negated => exact h
  | not inner => exact h

theorem scans_items {o : Operand} {os : List Operand} (h : ∀ x ∈ o :: os, Spelled x) :
    ∃ ts, Scans (o.spelling ++ spell (Mark.moreItems os)) ts ∧ ItemList ts (o :: os) := by
  induction os generalizing o with
  | nil =>
    obtain ⟨t, hscan, ht⟩ := h o List.mem_cons_self
    rw [← spell_operand o] at hscan
    exact ⟨[t], hscan, .single ht⟩
  | cons next os ih =>
    obtain ⟨t, hscan, ht⟩ := h o List.mem_cons_self
    obtain ⟨ts, hscans, hts⟩ := ih fun x hx => h x (List.mem_cons_of_mem _ hx)
    exact ⟨_, hscan.separate separates_comma hscans, .cons ht hts⟩

theorem scans_membership {o item : Operand} {items : List Operand} {t : Token} {us ts : List Token}
    {text : String} (ho : Scans o.spelling [t]) (hsep : Separates text.toList us)
    (hitems : Scans (item.spelling ++ spell (Mark.moreItems items)) ts) :
    Scans (spell (.operand o :: .verbatim text :: .operand item
        :: (Mark.moreItems items ++ [.verbatim ")"])))
      (t :: (us ++ (ts ++ [.closing]))) := by
  have hspell : spell (.operand o :: .verbatim text :: .operand item
        :: (Mark.moreItems items ++ [.verbatim ")"]))
      = o.spelling ++ (text.toList
        ++ ((item.spelling ++ spell (Mark.moreItems items)) ++ ")".toList)) := by
    show o.spelling ++ (text.toList
      ++ (item.spelling ++ spell (Mark.moreItems items ++ [.verbatim ")"]))) = _
    rw [spell_append, List.append_assoc item.spelling]
    rfl
  rw [hspell]
  exact ho.separate hsep (hitems.separate separates_closing scans_nil)

/-- **The layout of a tree derives the tree**, at the level of its root. Induction on the tree; the
texts between operands are single keywords and signs, and the parentheses of the writer lift an
operand of `AND` and `OR` to the level that the grammar has there. -/
theorem spells_layout {f : Filter} (hlists : f.hasEmptyList = false)
    (h : ∀ o ∈ f.operands, Spelled o) : Spells (spell f.layout) f.level f := by
  induction f with
  | compare left op right =>
    obtain ⟨t, ht, hleft⟩ := h left (by simp [operands])
    obtain ⟨u, hu, hright⟩ := h right (by simp [operands])
    -- the last part of a layout has the empty text after it
    rw [← spell_operand right] at hu
    exact ⟨_, 0, ht.separate (separates_op op) hu, .predicate (isPredicate_op op hleft hright)⟩
  | isIn o items negated =>
    cases items with
    | nil =>
      -- the one condition that no text derives
      cases hlists
    | cons item items =>
      obtain ⟨t, ht, hleft⟩ := h o List.mem_cons_self
      obtain ⟨ts, hts, hitems⟩ := scans_items fun x hx => h x (List.mem_cons_of_mem _ hx)
      cases negated with
      | true =>
        exact ⟨_, 0, scans_membership ht separates_notIn hts,
          .predicate (.notIn hleft rfl rfl hitems)⟩
      | false =>
        exact ⟨_, 0, scans_membership ht separates_in hts, .predicate (.isIn hleft rfl hitems)⟩
  | isNull o negated =>
    obtain ⟨t, ht, hleft⟩ := h o List.mem_cons_self
    cases negated with
    | true =>
      exact ⟨[t, .word "IS", .word "NOT", .word "NULL"], 0,
        ht.separate separates_isNot scans_null, .predicate (.isNotNull hleft rfl rfl rfl)⟩
    | false =>
      exact ⟨[t, .word "IS", .word "NULL"], 0, ht.separate separates_is scans_null,
        .predicate (.isNull hleft rfl rfl)⟩
  | and left right ihl ihr =>
    obtain ⟨hl, hr⟩ := Bool.or_eq_false_iff.1 hlists
    have hleft := ihl hl fun o ho => h o (List.mem_append_left _ ho)
    have hright := ihr hr fun o ho => h o (List.mem_append_right _ ho)
    show Spells (spell (Mark.wrap left.isOr left.layout ++ .verbatim " AND "
      :: Mark.wrap (right.isAnd || right.isOr) right.layout)) _ _
    rw [spell_append]
    exact hleft.conjunct.and hright.factor
  | or left right ihl ihr =>
    obtain ⟨hl, hr⟩ := Bool.or_eq_false_iff.1 hlists
    have hleft := ihl hl fun o ho => h o (List.mem_append_left _ ho)
    have hright := ihr hr fun o ho => h o (List.mem_append_right _ ho)
    show Spells (spell (left.layout ++ .verbatim " OR " :: Mark.wrap right.isOr right.layout)) _ _
    rw [spell_append]
    exact hleft.disjunction.or hright.conjunct
  | not inner ih =>
    -- the parentheses after `NOT` are there whatever the inner tree is
    have hinner := ih hlists h
    show Spells ("NOT (".toList ++ spell (inner.layout ++ [.verbatim ")"])) _ _
    rw [spell_append]
    exact hinner.disjunction.not

end Filter

end QueryTemplate
