import QueryTemplate.Filter.Json
import QueryTemplate.Proofs.Json.Text
import QueryTemplate.Proofs.Spelling

/-!
# Filters as JSON are read back

Values are written without a mark of their kind, so a value is read back only if no other kind has its
document: texts are strings whatever they look like, and integers are numbers that 64 bits hold. Only floating
point numbers are left out here, since those that are not finite are written as null.

* **`Value.ofJson?_toJson`**, **`Operand.ofJson?_toJson`**: the leaves of a filter.
* **`bind_both`**: parts that are read one after the other are read where the deeper of them fits.
* **`Filter.ofJson?_toJson`**: so a filter is read exactly where its document fits.
* **`Filter.json_text_reads_back`**: and from its text, which no other filter has.
-/

namespace QueryTemplate

open QueryTemplate.Number

/-! ## Values -/

namespace Json

open QueryTemplate.Filter (toList_toString_int isDigit_of_mem_toDigits splitSign_toDigits)

theorem le_ofDigitChars (ds : List Char) (n : Nat) : n ≤ Nat.ofDigitChars 10 ds n := by
  induction ds generalizing n with
  | nil => exact Nat.le_refl _
  | cons d ds ih =>
    rw [Nat.ofDigitChars_cons]
    exact Nat.le_trans (by omega) (ih _)

/-- Digits that make up less than 64 bits can hold are all appended. -/
theorem extend_eq {ds : List Char} {s : Nat} (h : Nat.ofDigitChars 10 ds s < UInt64.size) :
    extend s ds = (Nat.ofDigitChars 10 ds s, []) := by
  induction ds generalizing s with
  | nil => rfl
  | cons d ds ih =>
    rw [Nat.ofDigitChars_cons] at h ⊢
    have hlonger := Nat.lt_of_le_of_lt (le_ofDigitChars ds _) h
    rw [extend]
    simp only [hlonger, if_true, ih h]

theorem extend_toDigits {n : Nat} (h : n < UInt64.size) : extend 0 (Nat.toDigits 10 n) = (n, []) := by
  have hn : Nat.ofDigitChars 10 (Nat.toDigits 10 n) 0 = n := Nat.ofDigitChars_toDigits (by decide) (by decide)
  rw [extend_eq (by rwa [hn]), hn]

theorem spanDigits_toDigits (n : Nat) : spanDigits (Nat.toDigits 10 n) = (Nat.toDigits 10 n, []) := by
  simpa using spanDigits_append (fun _ => isDigit_of_mem_toDigits (n := n)) follows_nil

theorem numeral?_toString (n : Int64) : numeral? (toString n.toInt) = some (.integer n.toInt) := by
  have hlow : -9223372036854775808 ≤ n.toInt := n.minValue_le_toInt
  have hhigh : n.toInt ≤ 9223372036854775807 := n.toInt_le
  have hsize : UInt64.size = 18446744073709551616 := rfl
  have htext := toList_toString_int n.toInt
  by_cases h : 0 ≤ n.toInt
  · have hvalue : ((n.toInt.toNat : Nat) : Int) = n.toInt := Int.toNat_of_nonneg h
    have hextend := extend_toDigits (n := n.toInt.toNat) (by omega)
    rw [if_pos h] at htext
    simp only [numeral?, htext, splitSign_toDigits, spanDigits_toDigits, hextend, hvalue]
    simp
  · have hvalue : -(((-n.toInt).toNat : Nat) : Int) = n.toInt := by omega
    have hextend := extend_toDigits (n := (-n.toInt).toNat) (by omega)
    have hrange : 0 < (-n.toInt).toNat ∧ (-n.toInt).toNat ≤ 0x8000000000000000 := by omega
    rw [if_neg h] at htext
    simp only [numeral?, htext, splitSign, spanDigits_toDigits, hextend, hvalue, hrange]
    simp

end Json

theorem Value.ofJson?_toJson {v : Value} (h : v.isFloat = false) : ofJson? v.toJson = some v := by
  cases v with
  | float x => cases h
  | integer n =>
    have hrange : Int64.minValue.toInt ≤ n.toInt ∧ n.toInt ≤ Int64.maxValue.toInt :=
      ⟨n.minValue_le_toInt, n.toInt_le⟩
    simp only [toJson, ofJson?, Json.numeral?_toString, if_pos hrange, Int64.ofInt_toInt]
  | _ => rfl

theorem Value.whole_toJson {v : Value} (h : v.isFloat = false) : v.toJson.Whole := by
  cases v with
  | null => exact .null
  | integer n => exact .integer n.toInt
  | float x => cases h
  | text s => exact .text s
  | boolean b => exact .bool b

theorem CompareOp.ofJson?_name (op : CompareOp) (room : Nat) : ofJson? room (.text op.name) = some op := by
  cases op <;> rfl

theorem Operand.ofJson?_toJson {o : Operand} (h : ∀ v, o = .literal v → v.isFloat = false) (room : Nat) :
    ofJson? room o.toJson = if 1 ≤ room then some o else none := by
  cases room with
  | zero => cases o <;> rfl
  | succ room =>
    cases o with
    | literal v =>
      show (Value.ofJson? v.toJson).map _ = _
      rw [Value.ofJson?_toJson (h v rfl)]
      rfl
    | param name => rfl
    | field name => rfl

/-- Two parts are read where both fit. -/
theorem bind_both {α β γ : Type} (f : α → β → γ) {x : Option α} {y : Option β} {a : α} {b : β} {m n room : Nat}
    (hx : x = if m ≤ room then some a else none) (hy : y = if n ≤ room then some b else none) :
    (do some (f (← x) (← y))) = if max m n ≤ room then some (f a b) else none := by
  subst hx hy
  by_cases hm : m ≤ room
  · by_cases hn : n ≤ room
    · rw [if_pos hm, if_pos hn, if_pos (Nat.max_le.2 ⟨hm, hn⟩)]
      rfl
    · rw [if_pos hm, if_neg hn, if_neg fun h => hn (Nat.max_le.1 h).2]
      rfl
  · rw [if_neg hm, if_neg fun h => hm (Nat.max_le.1 h).1]
    rfl

theorem Value.nesting_toJson (v : Value) : v.toJson.nesting = 0 := by
  cases v with
  | float x =>
    rw [toJson]
    split <;> rfl
  | _ => rfl

namespace Operand

theorem nesting_toJson (o : Operand) : o.toJson.nesting = 1 := by
  cases o with
  | literal v => simp [toJson, Json.nesting, Json.nestingMembers, Value.nesting_toJson]
  | param name => rfl
  | field name => rfl

theorem mapM_ofJson? {os : List Operand} (h : ∀ v, .literal v ∈ os → v.isFloat = false) (room : Nat) :
    (os.map toJson).mapM (ofJson? room)
      = if Json.nestingItems (os.map toJson) ≤ room then some os else none := by
  induction os with
  | nil => rfl
  | cons o os ih =>
    have ho := ofJson?_toJson (fun v hv => h v (hv ▸ List.mem_cons_self)) room
    have hos := ih fun v hv => h v (List.mem_cons_of_mem _ hv)
    rw [List.map_cons, List.mapM_cons, Json.nestingItems, nesting_toJson]
    exact bind_both List.cons ho hos

end Operand

theorem Operand.whole_toJson {o : Operand} (h : ∀ v, o = .literal v → v.isFloat = false) : o.toJson.Whole := by
  cases o with
  | literal v => exact .object (List.forall_mem_singleton.2 (Value.whole_toJson (h v rfl)))
  | param name => exact .object (List.forall_mem_singleton.2 (.text name))
  | field name => exact .object (List.forall_mem_singleton.2 (.text name))

/-! ## Filters -/

namespace Filter

/-- None of the literals is a floating point number. -/
def Exact (f : Filter) : Prop :=
  ∀ v, .literal v ∈ f.operands → v.isFloat = false

/-! ### How deep they nest -/

theorem nesting_compare (left : Operand) (op : CompareOp) (right : Operand) :
    (toJson (.compare left op right)).nesting = 3 := by
  simp [toJson, Json.nesting, Json.nestingMembers, Operand.nesting_toJson]

theorem nesting_isIn (o : Operand) (items : List Operand) (negated : Bool) :
    (toJson (.isIn o items negated)).nesting = Json.nestingItems (items.map Operand.toJson) + 3 := by
  simp only [toJson, Json.nesting, Json.nestingMembers, Operand.nesting_toJson]
  omega

theorem nesting_isNull (o : Operand) (negated : Bool) : (toJson (.isNull o negated)).nesting = 3 := by
  simp [toJson, Json.nesting, Json.nestingMembers, Operand.nesting_toJson]

theorem nesting_and (left right : Filter) :
    (toJson (.and left right)).nesting = max left.toJson.nesting right.toJson.nesting + 2 := by
  simp [toJson, Json.nesting, Json.nestingMembers, Json.nestingItems]

theorem nesting_or (left right : Filter) :
    (toJson (.or left right)).nesting = max left.toJson.nesting right.toJson.nesting + 2 := by
  simp [toJson, Json.nesting, Json.nestingMembers, Json.nestingItems]

theorem nesting_not (inner : Filter) : (toJson (.not inner)).nesting = inner.toJson.nesting + 1 := by
  simp [toJson, Json.nesting, Json.nestingMembers]

theorem three_le_nesting (f : Filter) : 3 ≤ f.toJson.nesting := by
  cases f with
  | compare left op right => exact (nesting_compare left op right).ge
  | isIn o items negated =>
    rw [nesting_isIn]
    omega
  | isNull o negated => exact (nesting_isNull o negated).ge
  | and left right =>
    have := three_le_nesting left
    rw [nesting_and]
    omega
  | or left right =>
    have := three_le_nesting left
    rw [nesting_or]
    omega
  | not inner =>
    have := three_le_nesting inner
    rw [nesting_not]
    omega

/-! ### Reading -/

/-- The object of a filter is read where it fits, if what is in it is read where that fits. -/
theorem ofJson?_eq_ite {f : Filter} {depth : Nat} (hdepth : f.toJson.nesting = depth + 2)
    (h : ∀ room, ofJson? (room + 2) f.toJson = if depth ≤ room then some f else none) (room : Nat) :
    ofJson? room f.toJson = if f.toJson.nesting ≤ room then some f else none := by
  rw [hdepth]
  rcases room with _ | _ | room
  · rw [if_neg (by omega)]
    cases f <;> rfl
  · rw [if_neg (by omega)]
    cases f <;> rfl
  · rw [h]
    simp

/-- **A filter is read from its document exactly where that fits**, by induction on the tree. -/
theorem ofJson?_toJson {f : Filter} (h : f.Exact) (room : Nat) :
    ofJson? room f.toJson = if f.toJson.nesting ≤ room then some f else none := by
  induction f generalizing room with
  | compare left op right =>
    refine ofJson?_eq_ite (nesting_compare left op right) (fun room => ?_) room
    have hleft := Operand.ofJson?_toJson (o := left) (fun v hv => h v (by simp [operands, hv])) room
    have hright := Operand.ofJson?_toJson (o := right) (fun v hv => h v (by simp [operands, hv])) room
    show (do some (Filter.compare (← Operand.ofJson? room left.toJson) (← CompareOp.ofJson? room (.text op.name))
      (← Operand.ofJson? room right.toJson))) = _
    rw [CompareOp.ofJson?_name]
    exact bind_both (fun l r => compare l op r) hleft hright
  | isIn o items negated =>
    refine ofJson?_eq_ite (nesting_isIn o items negated) (fun room => ?_) room
    have ho := Operand.ofJson?_toJson (o := o) (fun v hv => h v (by simp [operands, hv])) room
    have hliterals : ∀ v, .literal v ∈ items → v.isFloat = false := fun v hv =>
      h v (by simp [operands, hv])
    have hitems := Operand.mapM_ofJson? hliterals (room - 1)
    rcases room with _ | room
    · -- there is no room for the list itself
      rfl
    · show (do some (Filter.isIn (← Operand.ofJson? (room + 1) o.toJson)
        (← (items.map Operand.toJson).mapM (Operand.ofJson? room)) negated)) = _
      have ho : Operand.ofJson? (room + 1) o.toJson = if 0 ≤ room then some o else none := by
        rw [ho, if_pos (by omega), if_pos (Nat.zero_le _)]
      rw [Nat.add_sub_cancel] at hitems
      simp only [Nat.add_le_add_iff_right]
      rw [← Nat.zero_max (Json.nestingItems _)]
      exact bind_both (fun o items => isIn o items negated) ho hitems
  | isNull o negated =>
    refine ofJson?_eq_ite (nesting_isNull o negated) (fun room => ?_) room
    have ho := Operand.ofJson?_toJson (o := o) (fun v hv => h v (by simp [operands, hv])) room
    show (do some (Filter.isNull (← Operand.ofJson? room o.toJson) (← Json.bool? (.bool negated)))) = _
    rw [ho]
    split <;> rfl
  | and left right ihl ihr =>
    refine ofJson?_eq_ite (nesting_and left right) (fun room => ?_) room
    have hleft := ihl (fun v hv => h v (by simp [operands, hv])) room
    have hright := ihr (fun v hv => h v (by simp [operands, hv])) room
    show (do some (Filter.and (← ofJson? room left.toJson) (← ofJson? room right.toJson))) = _
    exact bind_both Filter.and hleft hright
  | or left right ihl ihr =>
    refine ofJson?_eq_ite (nesting_or left right) (fun room => ?_) room
    have hleft := ihl (fun v hv => h v (by simp [operands, hv])) room
    have hright := ihr (fun v hv => h v (by simp [operands, hv])) room
    show (do some (Filter.or (← ofJson? room left.toJson) (← ofJson? room right.toJson))) = _
    exact bind_both Filter.or hleft hright
  | not inner ih =>
    have hinner := three_le_nesting inner
    have hdepth : (Filter.not inner).toJson.nesting = inner.toJson.nesting - 1 + 2 := by
      rw [nesting_not]
      omega
    refine ofJson?_eq_ite hdepth (fun room => ?_) room
    show (ofJson? (room + 1) inner.toJson).map Filter.not = _
    rw [ih h]
    by_cases hroom : inner.toJson.nesting ≤ room + 1
    · rw [if_pos hroom, if_pos (by omega)]
      rfl
    · rw [if_neg hroom, if_neg (by omega)]
      rfl

/-! ### Texts -/

theorem whole_toJson {f : Filter} (h : f.Exact) : f.toJson.Whole := by
  have hrecord {key : String} {x : Json} (hx : x.Whole) : (Json.object [(key, x)]).Whole :=
    .object (List.forall_mem_singleton.2 hx)
  have hpair {key : String} {x y : Json} (hx : x.Whole) (hy : y.Whole) :
      (Json.object [(key, .array [x, y])]).Whole :=
    hrecord (.array (List.forall_mem_cons.2 ⟨hx, List.forall_mem_singleton.2 hy⟩))
  induction f with
  | compare left op right =>
    have hleft := Operand.whole_toJson (o := left) fun v hv => h v (by simp [operands, hv])
    have hright := Operand.whole_toJson (o := right) fun v hv => h v (by simp [operands, hv])
    refine hrecord (.object ?_)
    simp [hleft, hright, Json.Whole.text]
  | isIn o items negated =>
    have ho := Operand.whole_toJson (o := o) fun v hv => h v (by simp [operands, hv])
    have hitems : (Json.array (items.map Operand.toJson)).Whole := by
      refine .array (List.forall_mem_map.2 fun item hitem => Operand.whole_toJson fun v hv => h v ?_)
      exact List.mem_cons_of_mem _ (hv ▸ hitem)
    refine hrecord (.object ?_)
    simp [ho, hitems, Json.Whole.bool]
  | isNull o negated =>
    have ho := Operand.whole_toJson (o := o) fun v hv => h v (by simp [operands, hv])
    refine hrecord (.object ?_)
    simp [ho, Json.Whole.bool]
  | and left right ihl ihr =>
    exact hpair (ihl fun v hv => h v (List.mem_append_left _ hv)) (ihr fun v hv => h v (List.mem_append_right _ hv))
  | or left right ihl ihr =>
    exact hpair (ihl fun v hv => h v (List.mem_append_left _ hv)) (ihr fun v hv => h v (List.mem_append_right _ hv))
  | not inner ih => exact hrecord (ih h)

theorem readJson?_compact {f : Filter} (h : f.Exact) :
    readJson? f.toJson.compact = if f.toJson.nesting ≤ Json.maxNesting then some f else none := by
  rw [readJson?, Json.read?_compact (whole_toJson h), Option.bind_some, ofJson?_toJson h]

/-- Without a bound on the nesting every filter is read from its document, so documents differ as filters do. -/
theorem toJson_injective {f g : Filter} (hf : f.Exact) (hg : g.Exact) (h : f.toJson = g.toJson) : f = g := by
  have hread := ofJson?_toJson hf g.toJson.nesting
  rw [h, ofJson?_toJson hg, if_pos (Nat.le_refl _), if_pos (Nat.le_refl _)] at hread
  exact (Option.some.inj hread).symm

/-- **The JSON text of a filter loses nothing.** A filter without floating point numbers is read back from its
text if the text nests no deeper than what is read may, and is not read at all if it does. No other such filter
has the same text, however deep they nest. -/
theorem json_text_reads_back {f : Filter} (hf : f.Exact) :
    readJson? f.toJson.compact = (if f.toJson.nesting ≤ Json.maxNesting then some f else none)
      ∧ ∀ g : Filter, g.Exact → g.toJson.compact = f.toJson.compact → g = f :=
  ⟨readJson?_compact hf, fun _ hg h =>
    toJson_injective hg hf (Json.compact_injective (whole_toJson hg) (whole_toJson hf) h)⟩

/-- Texts that look like other values, or like JSON, and both ends of the integers. -/
theorem json_text_reads_back_lookalikes :
    let f : Filter :=
      .and
        (.isIn (.field "a\"b\\") [.literal (.text "null"), .literal .null, .literal (.text "-1"),
          .literal (.integer (-9223372036854775808)), .literal (.integer 9223372036854775807)] true)
        (.not (.compare (.param "\x01") .notLike (.literal (.text "\x7b\"Field\":true\x7d\n"))))
    f.Exact ∧ f.toJson.nesting = 6
      ∧ f.toJson.compact = "\x7b\"And\":[\x7b\"In\":\x7b\"operand\":\x7b\"Field\":\"a\\\"b\\\\\"\x7d,\"list\":["
        ++ "\x7b\"Literal\":\"null\"\x7d,\x7b\"Literal\":null\x7d,\x7b\"Literal\":\"-1\"\x7d,"
        ++ "\x7b\"Literal\":-9223372036854775808\x7d,\x7b\"Literal\":9223372036854775807\x7d],\"negated\":true\x7d\x7d,"
        ++ "\x7b\"Not\":\x7b\"Compare\":\x7b\"left\":\x7b\"Param\":\"\\u0001\"\x7d,\"op\":\"NotLike\","
        ++ "\"right\":\x7b\"Literal\":\"\x7b\\\"Field\\\":true\x7d\\n\"\x7d\x7d\x7d\x7d]\x7d"
      ∧ readJson? f.toJson.compact = some f := by
  intro f
  have hf : f.Exact := by
    intro v hv
    simp only [f, operands, List.mem_append, List.mem_cons, List.not_mem_nil, or_false, Operand.literal.injEq,
      reduceCtorEq, false_or] at hv
    rcases hv with (rfl | rfl | rfl | rfl | rfl) | rfl <;> rfl
  have hnesting : f.toJson.nesting = 6 := rfl
  refine ⟨hf, hnesting, by decide +kernel, ?_⟩
  rw [(json_text_reads_back hf).1, hnesting]
  rfl

end Filter

end QueryTemplate
