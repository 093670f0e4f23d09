import QueryTemplate.Filter.Parse
import QueryTemplate.Proofs.Except

/-!
# The grammar of filters

What a filter text may look like, written down as a grammar on tokens and apart from any reader:

* a disjunction is a conjunction, or a disjunction, `OR` and a conjunction;
* a conjunction is a unary condition, or a conjunction, `AND` and a unary condition;
* a unary condition is `NOT` and a unary condition, a disjunction in parentheses, or a predicate.

The two chains are written with the recursion on the left, so the trees they build lean to the left.
A derivation carries the number of `NOT`s and groups around its innermost point.
-/

namespace QueryTemplate.Filter

/-! ## Operands, lists and predicates -/

/-- `Stands t o`: the token `t` stands for the operand `o`. Three of the nine keywords are literals,
the other six stand for nothing, and every other word names a field. -/
inductive Stands : Token → Operand → Prop where
  | text (s : String) : Stands (.text s) (.literal (.text s))
  | number (v : Value) : Stands (.number v) (.literal v)
  | param (name : String) : Stands (.param name) (.param name)
  | true_ {t : Token} (h : t.keyword? = some .true_) : Stands t (.literal (.boolean true))
  | false_ {t : Token} (h : t.keyword? = some .false_) : Stands t (.literal (.boolean false))
  | null {t : Token} (h : t.keyword? = some .null) : Stands t (.literal .null)
  | field {word : String} (h : Keyword.ofWord? word = none) : Stands (.word word) (.field word)

/-- One operand or more, with commas between them. -/
inductive ItemList : List Token → List Operand → Prop where
  | single {t : Token} {o : Operand} (h : Stands t o) : ItemList [t] [o]
  | cons {t : Token} {o : Operand} {ts : List Token} {os : List Operand}
      (h : Stands t o) (rest : ItemList ts os) : ItemList (t :: .comma :: ts) (o :: os)

/-- The predicates: a comparison, `[NOT] LIKE`, `[NOT] IN` with a list, `IS [NOT] NULL`. -/
inductive IsPredicate : List Token → Filter → Prop where
  | compare {t u : Token} {l r : Operand} (o : CompareOp) (hl : Stands t l) (hr : Stands u r) :
      IsPredicate [t, .op o, u] (.compare l o r)
  | like {t k u : Token} {l r : Operand} (hl : Stands t l) (hk : k.keyword? = some .like)
      (hr : Stands u r) : IsPredicate [t, k, u] (.compare l .like r)
  | notLike {t n k u : Token} {l r : Operand} (hl : Stands t l) (hn : n.keyword? = some .not_)
      (hk : k.keyword? = some .like) (hr : Stands u r) :
      IsPredicate [t, n, k, u] (.compare l .notLike r)
  | isIn {t k : Token} {l : Operand} {ts : List Token} {os : List Operand} (hl : Stands t l)
      (hk : k.keyword? = some .in_) (items : ItemList ts os) :
      IsPredicate (t :: k :: .opening :: (ts ++ [.closing])) (.isIn l os false)
  | notIn {t n k : Token} {l : Operand} {ts : List Token} {os : List Operand} (hl : Stands t l)
      (hn : n.keyword? = some .not_) (hk : k.keyword? = some .in_) (items : ItemList ts os) :
      IsPredicate (t :: n :: k :: .opening :: (ts ++ [.closing])) (.isIn l os true)
  | isNull {t i z : Token} {l : Operand} (hl : Stands t l) (hi : i.keyword? = some .is_)
      (hz : z.keyword? = some .null) : IsPredicate [t, i, z] (.isNull l false)
  | isNotNull {t i n z : Token} {l : Operand} (hl : Stands t l) (hi : i.keyword? = some .is_)
      (hn : n.keyword? = some .not_) (hz : z.keyword? = some .null) :
      IsPredicate [t, i, n, z] (.isNull l true)

/-! ## Conditions -/

/-- The levels of conditions, from the loosest to the tightest. -/
inductive Level
  | disjunction
  | conjunction
  | unary
  deriving DecidableEq, Repr

/-- `Derives level n ts f`: the tokens `ts` derive the tree `f` at a level, and `n` is the greatest
number of `NOT`s and groups around any point of the derivation. A group leaves no node. -/
inductive Derives : Level → Nat → List Token → Filter → Prop where
  | predicate {ts : List Token} {f : Filter} (h : IsPredicate ts f) : Derives .unary 0 ts f
  | not {t : Token} {n : Nat} {ts : List Token} {f : Filter} (ht : t.keyword? = some .not_)
      (inner : Derives .unary n ts f) : Derives .unary (n + 1) (t :: ts) (.not f)
  | group {n : Nat} {ts : List Token} {f : Filter} (inner : Derives .disjunction n ts f) :
      Derives .unary (n + 1) (.opening :: (ts ++ [.closing])) f
  | unary {n : Nat} {ts : List Token} {f : Filter} (inner : Derives .unary n ts f) :
      Derives .conjunction n ts f
  | and {t : Token} {m n : Nat} {ts us : List Token} {f g : Filter}
      (left : Derives .conjunction m ts f) (ht : t.keyword? = some .and_)
      (right : Derives .unary n us g) :
      Derives .conjunction (max m n) (ts ++ t :: us) (.and f g)
  | conjunction {n : Nat} {ts : List Token} {f : Filter} (inner : Derives .conjunction n ts f) :
      Derives .disjunction n ts f
  | or {t : Token} {m n : Nat} {ts us : List Token} {f g : Filter}
      (left : Derives .disjunction m ts f) (ht : t.keyword? = some .or_)
      (right : Derives .conjunction n us g) :
      Derives .disjunction (max m n) (ts ++ t :: us) (.or f g)

/-- `DerivesWithin limit level ts f`: a derivation of `f` from `ts` exists no point of which lies
inside more than `limit` `NOT`s and groups. -/
def DerivesWithin (limit : Nat) (level : Level) (ts : List Token) (f : Filter) : Prop :=
  ∃ n ≤ limit, Derives level n ts f

/-- Every level of nesting takes a token, so a text nests less deep than it is long. -/
theorem Derives.nesting_lt_length {level : Level} {n : Nat} {ts : List Token} {f : Filter}
    (h : Derives level n ts f) : n < ts.length := by
  induction h with
  | predicate h => cases h <;> simp
  | not _ _ ih => simpa using ih
  | group _ ih =>
    rw [List.length_cons, List.length_append]
    omega
  | unary _ ih => exact ih
  | conjunction _ ih => exact ih
  | and _ _ _ ihl ihr =>
    rw [List.length_append, List.length_cons]
    omega
  | or _ _ _ ihl ihr =>
    rw [List.length_append, List.length_cons]
    omega

end QueryTemplate.Filter
