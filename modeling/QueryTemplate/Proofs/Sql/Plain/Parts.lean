import QueryTemplate.Proofs.Sql.Plain.Operations

/-!
# Parts of expressions are read

The rules for the parts that expressions and queries share are right: names, lists, the branches of a case,
arguments and windows, orders and types.

* **`isList_one`**, **`isList_more`**: lists, whatever they are of.
* **`each_list`**, **`each_branches`**, **`each_window`**, **`each_dataType`**: the larger rules.
-/

namespace QueryTemplate.Sql

open Reader Running RulePiece

/-! ## Names and lists -/

theorem each_path {qs : List RulePiece} (r : Rule .path qs) : Each Means qs IsPath := by
  cases r with
  | pathEnd =>
    refine ⟨.inl rfl, [], rfl, fun name => ?_⟩
    rw [String.append_empty]
    exact String.intercalate_singleton ..
  | pathPart =>
    rintro _ _ ⟨rfl, rfl⟩ _ _ ⟨name, k, -, rfl, rfl, -⟩ us x ⟨-, parts, rfl, hparts⟩
    refine ⟨.inr ⟨_, rfl⟩, (name, k) :: parts, by simp [pathTokens], fun first => ?_⟩
    rw [Symbol.sign, String.append_empty, ← hparts name]
    exact intercalate_cons _ _ (List.cons_ne_nil _ _)

theorem each_name {qs : List RulePiece} (r : Rule .name qs) :
    Each Means qs (Yields ident Ident.written fun _ => True) := by
  cases r
  rintro _ _ ⟨name, k, -, rfl, rfl, -⟩
  exact ⟨name, by rw [String.append_empty], fun rest _ => by simp [ident, Token.ident?]⟩

section Lists

variable {α : Type} {r : Reader α} {write : α → String} {stop : List Token → Prop} {ts us : List Token}
  {x y : String}

theorem areListed_one {a : α} (h : ∀ rest, stop rest → r (ts ++ rest) = .ok (a, rest)) :
    AreListed r stop ts [a] := by
  intro N hN rest hrest hcomma
  obtain ⟨N, rfl⟩ := Nat.exists_eq_add_one_of_ne_zero (Nat.ne_zero_of_lt hN)
  simp [listAtMost, h rest hrest, hcomma]

theorem AreListed.cons {a : α} {as : List α} (h : ∀ rest, stop rest → r (ts ++ rest) = .ok (a, rest))
    (hcomma : ∀ us, stop (.symbol .comma :: us)) (hus : AreListed r stop us as) :
    AreListed r stop (ts ++ .symbol .comma :: us) (a :: as) := by
  intro N hN rest hrest hend
  obtain ⟨N, rfl⟩ := Nat.exists_eq_add_one_of_ne_zero (Nat.ne_zero_of_lt hN)
  rw [List.length_append, List.length_cons] at hN
  simp [listAtMost, h _ (hcomma (us ++ rest)), hus N (by omega) rest hrest hend]

theorem isList_one (h : Yields r write stop ts x) : IsList r write stop ts x := by
  obtain ⟨a, rfl, hread⟩ := h
  exact ⟨[a], List.cons_ne_nil _ _, String.intercalate_singleton .., areListed_one hread⟩

theorem isList_more (h : Yields r write stop ts x) (hcomma : ∀ us, stop (.symbol .comma :: us))
    (hmore : IsList r write stop us y) : IsList r write stop (ts ++ .symbol .comma :: us) (x ++ (", " ++ y)) := by
  obtain ⟨a, rfl, hread⟩ := h
  obtain ⟨vs, hvs, rfl, hmore⟩ := hmore
  exact ⟨a :: vs, List.cons_ne_nil _ _, intercalate_cons _ _ (by simpa using hvs), .cons hread hcomma hmore⟩

end Lists

theorem Heads.append {ts : List Token} (h : Heads ts) (us : List Token) : Heads (ts ++ us) := by
  constructor
  · exact fun rest => List.append_assoc .. ▸ h.closing _
  · exact fun rest => List.append_assoc .. ▸ h.period _
  · exact fun hk rest => List.append_assoc .. ▸ h.keyword_ne hk _

theorem each_list {k : Kind} {qs : List RulePiece} (r : Rule (.list k) qs) : Each Means qs (Means (.list k)) := by
  cases r with
  | one =>
    intro us x hus
    rw [Each, List.append_nil, String.append_empty]
    cases k with
    | expr n l e s => exact ⟨hus.fronts.heads, fun _ => isList_one ⟨x, rfl, hus.reads⟩⟩
    | argument n | groupItem n => exact ⟨hus.1, isList_one hus.2⟩
    | orderTerm n => exact isList_one hus
    | item n => exact ⟨hus.1, isList_one hus.2⟩
    | source n => exact isList_one hus
    | name => exact isList_one hus
    | _ => trivial
  | more =>
    rintro us x hus _ _ ⟨rfl, rfl⟩ vs y hvs
    rw [Each, List.append_nil, String.append_empty]
    change Means (.list k) (us ++ .symbol .comma :: vs) (x ++ ("," ++ (" " ++ y)))
    rw [comma_append]
    cases k with
    | expr n l e s =>
      exact ⟨hus.fronts.heads.append _,
        fun he => isList_more ⟨x, rfl, hus.reads⟩ (fun _ => follows_comma_iff.2 he) (hvs.2 he)⟩
    | argument n | groupItem n => exact ⟨hus.1.append _, isList_more hus.2 (fun _ => follows_comma) hvs.2⟩
    | orderTerm n => exact isList_more hus (fun _ => follows_comma_iff.2 (Nat.le_refl 9)) hvs
    | item n => exact ⟨hus.1.append _, isList_more hus.2 (fun _ => follows_comma_iff.2 (Nat.le_refl 9)) hvs.2⟩
    | source n => exact isList_more hus (fun _ => ⟨follows_comma_iff.2 (Nat.le_refl 9), by simp⟩) hvs
    | name => exact isList_more hus (fun _ => trivial) hvs
    | _ => trivial

theorem each_clause {n : Nat} {k : Keyword} {qs : List RulePiece} (r : Rule (.clause n k) qs) :
    Each Means qs (IsClause n k) := by
  cases r with
  | clauseNone => exact .inl ⟨rfl, rfl⟩
  | clauseSome =>
    rintro _ _ ⟨⟨s, rfl, hs⟩, rfl⟩ us x hus
    exact .inr ⟨s, us, x, by rw [List.append_nil], hs, by rw [String.append_empty], hus⟩

theorem each_branches {n : Nat} {qs : List RulePiece} (r : Rule (.branches n) qs) :
    Each Means qs (IsBranches n) := by
  cases r with
  | branch =>
    rintro _ _ ⟨⟨s, rfl, hs⟩, rfl⟩ us x hus _ _ ⟨⟨s', rfl, hs'⟩, rfl⟩ vs y hvs
    refine ⟨s, _, rfl, hs, ["WHEN", x, "THEN", y], by simp [Keyword.spelling, Keyword.table], ?_⟩
    intro N hN rest hrest
    obtain ⟨N, rfl⟩ := Nat.exists_eq_add_one_of_ne_zero (Nat.ne_zero_of_lt hN)
    simp [branchesAtMost, Below.anyExpr, hus.reads, follows_keyword (e := soft) hs' rfl, hvs.reads, hrest.1, hrest.2]
  | branches =>
    rintro _ _ ⟨⟨s, rfl, hs⟩, rfl⟩ us x hus _ _ ⟨⟨s', rfl, hs'⟩, rfl⟩ vs y hvs _ _ ⟨s'', ws, rfl, hs'', parts, rfl, hws⟩
    refine ⟨s, _, rfl, hs, ["WHEN", x, "THEN", y] ++ parts, by simp [Keyword.spelling, Keyword.table], ?_⟩
    intro N hN rest hrest
    obtain ⟨N, rfl⟩ := Nat.exists_eq_add_one_of_ne_zero (Nat.ne_zero_of_lt hN)
    have hmore := hws N (by simp at hN; omega) rest hrest
    simp [branchesAtMost, Below.anyExpr, hus.reads, follows_keyword (e := soft) hs' rfl, hvs.reads,
      follows_keyword (e := soft) hs'' rfl, hmore]

theorem exists_cons_of_startsWith {s : Symbol} {ts : List Token} (h : startsWith s ts = true) :
    ∃ us, ts = .symbol s :: us := by
  rcases ts with _ | ⟨t, us⟩
  · cases h
  · exact ⟨us, by simpa using h⟩

/-! ## Arguments and windows -/

theorem each_argument {n : Nat} {qs : List RulePiece} (r : Rule (.argument n) qs) :
    Each Means qs (Means (.argument n)) := by
  cases r with
  | argument =>
    intro us x hus
    rw [Each, List.append_nil, String.append_empty]
    refine ⟨hus.fronts.heads, x, rfl, fun rest hrest => ?_⟩
    simp [argument, hus.fronts.starless _ hrest.startsWith_period, Below.anyExpr, hus.reads, hrest]
  | argumentStar =>
    rintro _ _ ⟨rfl, rfl⟩
    exact ⟨⟨by simp, by simp, by simp⟩, "*", rfl, fun rest _ => by simp [argument, star]⟩
  | argumentTable =>
    rintro _ _ ⟨name, k, -, rfl, rfl, hk, -⟩ _ _ ⟨rfl, rfl⟩ _ _ ⟨rfl, rfl⟩
    have hmarks : ∀ k ∈ Keyword.marks, k ∈ Keyword.reserved := by decide
    refine ⟨⟨by simp, by simp, fun hmark _ => hk _ (hmarks _ hmark)⟩, name.written ++ ".*", by simp, fun rest _ => ?_⟩
    simp [argument, star, ident, Token.ident?, starAtMost]

theorem window_eq (b : Below) : window b = do
    if ← acceptWord .OVER then
      if startsWith .opening (← get) then
        let text ← parens (partition b)
        return ["OVER", parenthesized text]
      else return ["OVER", (← ident).written]
    else return [] :=
  rfl

theorem each_window {n : Nat} {qs : List RulePiece} (r : Rule (.window n) qs) :
    Each Means qs (Means (.window n)) := by
  cases r with
  | noWindow =>
    refine ⟨fun e rest hrest => hrest.endsArguments, fun _ => id, fun e => ⟨[], rfl, fun rest hrest => ?_⟩⟩
    have hover := hrest.keyword?_ne (k := .OVER) rfl (.inr (by decide))
    simp [window, hover]
  | namedWindow =>
    rintro _ _ ⟨⟨s, rfl, hs⟩, rfl⟩ _ _ ⟨name, k, -, rfl, rfl, -⟩
    refine ⟨fun _ _ _ => ⟨rfl, rfl⟩, fun _ _ => rfl, fun e => ⟨["OVER", name.written], ?_, fun rest _ => ?_⟩⟩
    · simp [Keyword.spelling, Keyword.table]
    · simp [window, ident, Token.ident?]
  | window =>
    rintro _ _ ⟨⟨s, rfl, hs⟩, rfl⟩ _ _ ⟨rfl, rfl⟩ us _ ⟨x, rfl, hus⟩ _ _ ⟨rfl, rfl⟩
    refine ⟨fun _ _ _ => ⟨rfl, rfl⟩, fun _ _ => rfl, fun e => ⟨["OVER", "(" ++ (x ++ ")")], ?_, fun rest _ => ?_⟩⟩
    · simp [Keyword.spelling, Keyword.table]
    · simp [window_eq, hus (.symbol .closing :: rest)]

theorem each_order {n : Nat} {qs : List RulePiece} (r : Rule (.order n) qs) :
    Each Means qs (Means (.order n)) := by
  cases r with
  | noOrder =>
    refine ⟨fun _ _ _ => id, [], rfl, fun rest hrest => ?_⟩
    have horder := hrest.keyword?_ne (k := .ORDER) rfl (.inl (by decide))
    simp [orderTerms, horder]
  | order =>
    rintro _ _ ⟨⟨s, rfl, hs⟩, rfl⟩ _ _ ⟨⟨s', rfl, hs'⟩, rfl⟩ us _ hus
    obtain ⟨vs, hne, rfl, hvs⟩ := IsList.reads hus
    refine ⟨fun f _ hf _ => (follows_keyword hs rfl _).mono hf, vs, ?_, fun rest hrest => ?_⟩
    · have hby : "ORDER BY" = "ORDER" ++ (" " ++ "BY") := rfl
      simp [orderText, clause, hne, hby, Keyword.spelling, Keyword.table, String.append_assoc, -String.reduceAppend]
    · simp [orderTerms, hvs rest (hrest.mono (by decide)) (hrest.startsWith_comma (by decide)), -run_list]

/-- Reads where values that are missing come in an order. -/
def nullsOrder : Reader (List String) := do
  if ← acceptWords [.NULLS, .FIRST] then pure ["NULLS FIRST"]
  else do
    if ← acceptWords [.NULLS, .LAST] then pure ["NULLS LAST"] else pure []

theorem orderTerm_eq (b : Below) : orderTerm b = do
    let key ← b.anyExpr
    let direction ← acceptOneOf [(.ASC, "ASC"), (.DESC, "DESC")]
    let nulls ← nullsOrder
    return spaced (key :: direction.toList ++ nulls) := by
  simp only [orderTerm, nullsOrder, bind_assoc]
  refine bind_congr fun key => bind_congr fun direction => bind_congr fun first => ?_
  cases first with
  | true => rfl
  | false =>
    simp only [Bool.false_eq_true, if_false, bind_assoc]
    refine bind_congr fun last => ?_
    cases last <;> rfl

theorem reads_direction {ds : List Keyword} {ts : List Token} (hds : ds = [] ∨ ds = [.ASC] ∨ ds = [.DESC])
    (hts : AreKeywords ts ds) : (∀ rest, Follows 12 rest → Follows soft (ts ++ rest))
      ∧ Yields (acceptOneOf [(.ASC, "ASC"), (.DESC, "DESC")]) (fun d : Option String => trailing d.toList)
        (Follows 12) ts (trailing (ds.map Keyword.spelling)) := by
  rcases hds with rfl | rfl | rfl
  · cases hts
    refine ⟨fun rest hrest => hrest.mono (by decide), none, rfl, fun rest hrest => ?_⟩
    simp [hrest.keyword?_ne (k := .ASC) rfl (.inl (by decide)), hrest.keyword?_ne (k := .DESC) rfl (.inl (by decide))]
  · obtain _ | ⟨⟨s, rfl, hs⟩, hts⟩ := hts
    cases hts
    exact ⟨fun rest _ => follows_keyword hs rfl rest, some "ASC", rfl, fun rest _ => by simp⟩
  · obtain _ | ⟨⟨s, rfl, hs⟩, hts⟩ := hts
    cases hts
    exact ⟨fun rest _ => follows_keyword hs rfl rest, some "DESC", rfl, fun rest _ => by simp⟩

theorem reads_nulls {ns : List Keyword} {ts : List Token}
    (hns : ns = [] ∨ ns = [.NULLS, .FIRST] ∨ ns = [.NULLS, .LAST]) (hts : AreKeywords ts ns) :
    (∀ rest, Follows 9 rest → Follows 12 (ts ++ rest))
      ∧ Yields nullsOrder trailing (Follows 9) ts (trailing (ns.map Keyword.spelling)) := by
  rcases hns with rfl | rfl | rfl
  · cases hts
    refine ⟨fun rest hrest => hrest.mono (by decide), [], rfl, fun rest hrest => ?_⟩
    simp [nullsOrder, hrest.keyword?_ne (k := .NULLS) rfl (.inl (by decide))]
  · obtain _ | ⟨⟨s, rfl, hs⟩, _ | ⟨⟨s', rfl, -⟩, hts⟩⟩ := hts
    cases hts
    exact ⟨fun rest _ => follows_keyword hs rfl _, ["NULLS FIRST"], rfl, fun rest _ => by simp [nullsOrder]⟩
  · obtain _ | ⟨⟨s, rfl, hs⟩, _ | ⟨⟨s', rfl, -⟩, hts⟩⟩ := hts
    cases hts
    exact ⟨fun rest _ => follows_keyword hs rfl _, ["NULLS LAST"], rfl, fun rest _ => by simp [nullsOrder]⟩

theorem each_orderTerm {n : Nat} {qs : List RulePiece} (r : Rule (.orderTerm n) qs) :
    Each Means qs (Means (.orderTerm n)) := by
  cases r with | orderTerm hdirection hnulls =>
  intro us x hus
  rw [keys, List.flatMap_append, ← List.append_nil (_ ++ _), List.append_assoc]
  refine each_keys fun ts hts => each_keys fun vs hvs => ?_
  obtain ⟨hfollows, direction, hdirection, hts⟩ := reads_direction hdirection hts
  obtain ⟨hfollows', nulls, hnulls, hvs⟩ := reads_nulls hnulls hvs
  refine ⟨x ++ (trailing direction.toList ++ trailing nulls), ?_, fun rest hrest => ?_⟩
  · rw [← hdirection, ← hnulls, String.append_empty, id]
  · have hrest' := hfollows' rest hrest
    simp [orderTerm_eq, Below.anyExpr, hus.reads, hfollows _ hrest', hts _ hrest', hvs _ hrest]

theorem each_partition {n : Nat} {qs : List RulePiece} (r : Rule (.partition n) qs) :
    Each Means qs (Means (.partition n)) := by
  have hpartition : "PARTITION BY" = "PARTITION" ++ (" " ++ "BY") := rfl
  have horder : "ORDER BY" = "ORDER" ++ (" " ++ "BY") := rfl
  cases r with
  | wholePartition =>
    refine ⟨"", rfl, fun rest hrest => ?_⟩
    obtain ⟨rest, rfl⟩ := exists_cons_of_startsWith hrest
    simp [partition, orderTerms, clause, spaced]
  | partition =>
    rintro _ _ ⟨⟨s, rfl, hs⟩, rfl⟩ _ _ ⟨⟨s', rfl, hs'⟩, rfl⟩ us _ ⟨-, hus⟩ vs _ ⟨hlets, ws, rfl, hws⟩
    obtain ⟨items, -, rfl, hitems⟩ := (hus (by decide)).reads
    refine ⟨_, rfl, fun rest hrest => ?_⟩
    obtain ⟨rest, rfl⟩ := exists_cons_of_startsWith hrest
    have hread := hitems (vs ++ .symbol .closing :: rest) (hlets _ _ (by decide) follows_closing)
      ((hlets 2 _ (Nat.le_refl _) follows_closing).startsWith_comma (by decide))
    have hmore := hws (.symbol .closing :: rest) follows_closing
    simp [partition, Below.anyExpr, hread, hmore, orderText, -run_list, clause, hpartition, horder,
      Keyword.spelling, Keyword.table, String.append_assoc, -String.reduceAppend]
  | orderedPartition =>
    rintro _ _ ⟨⟨s, rfl, hs⟩, rfl⟩ _ _ ⟨⟨s', rfl, hs'⟩, rfl⟩ us _ hus
    obtain ⟨items, hne, rfl, hitems⟩ := IsList.reads hus
    refine ⟨_, rfl, fun rest hrest => ?_⟩
    obtain ⟨rest, rfl⟩ := exists_cons_of_startsWith hrest
    have hread := hitems (.symbol .closing :: rest) follows_closing rfl
    simp [partition, orderTerms, hread, hne, -run_list, clause, horder, Keyword.spelling, Keyword.table,
      String.append_assoc, -String.reduceAppend]

/-! ## Types -/

theorem dataType_known {t : Token} {x y : String} {shape : TypeShape} {ts rest : List Token}
    (ht : t.knownType? = some (x, shape)) (htail : typeTail shape ts = .ok (y, rest)) :
    dataType (t :: ts) = .ok (x ++ y, rest) := by
  simp [dataType, knownType, ht, htail]

theorem size_eq {t : Token} {x : String} (h : t.count?.map toString = some x) (ts : List Token) :
    size (t :: ts) = .ok (x, ts) := by
  simp [size, h]

theorem exists_number_of_count? {t : Token} {x : String} (h : t.count?.map toString = some x) :
    ∃ digits long, t = .number digits long := by
  cases t with
  | number digits long => exact ⟨digits, long, rfl⟩
  | _ => cases h

theorem each_dataType {qs : List RulePiece} (r : Rule .dataType qs) :
    Each Means qs (Yields dataType id (Follows anything)) := by
  cases r with
  | type =>
    rintro t x ⟨-, -, shape, -, ht⟩
    exact ⟨x ++ "", rfl, fun rest hrest => dataType_known ht (hrest.typeTail_eq shape)⟩
  | typeInterval =>
    rintro _ _ ⟨⟨s, rfl, hs⟩, rfl⟩
    have ht : Token.knownType? (.word ⟨s, none⟩ (some .INTERVAL)) = some ("INTERVAL", .plain) := by
      simp only [Token.knownType?, Token.capitals?, ← Keyword.spelling_eq hs]
      rfl
    exact ⟨"INTERVAL" ++ "", rfl, fun rest _ => dataType_known ht rfl⟩
  | typeSized =>
    rintro t x ⟨-, -, shape, hshape, ht⟩ _ _ ⟨rfl, rfl⟩ u y hu _ _ ⟨rfl, rfl⟩
    have hsize := size_eq hu
    obtain ⟨digits, long, rfl⟩ := exists_number_of_count? hu
    refine ⟨x ++ ("(" ++ (y ++ ")")), by simp, fun rest hrest => dataType_known ht ?_⟩
    have hno (k : Keyword) (hk : k.quiet = true) (hlast : 1000 ≤ k.grip) := hrest.keyword?_ne hk (.inr hlast)
    simp only [List.mem_cons, List.not_mem_nil, or_false] at hshape
    rcases hshape with rfl | rfl | rfl | rfl | rfl | rfl | rfl <;>
      simp [typeTail, optionalParens, textLength, precisionAndScale, timeZone, Token.capitals?, Token.lengthUnit?,
        hsize, hno .UNSIGNED rfl (by decide), hno .WITH rfl (by decide), hno .WITHOUT rfl (by decide)]
  | typeScaled =>
    rintro t x ⟨-, -, shape, hshape, ht⟩ _ _ ⟨rfl, rfl⟩ u y hu _ _ ⟨rfl, rfl⟩ v z hv _ _ ⟨rfl, rfl⟩
    obtain rfl := List.mem_singleton.1 hshape
    refine ⟨x ++ ("(" ++ (y ++ ("," ++ (z ++ ")")))), by simp, fun rest hrest => dataType_known ht ?_⟩
    simp [typeTail, optionalParens, precisionAndScale, size_eq hu, size_eq hv, String.append_assoc]
  | typeZone hk =>
    rintro t x ⟨-, -, shape, hshape, ht⟩ _ _ ⟨⟨s, rfl, -⟩, rfl⟩ _ _ ⟨⟨s', rfl, -⟩, rfl⟩ _ _ ⟨⟨s'', rfl, -⟩, rfl⟩
    obtain rfl := List.mem_singleton.1 hshape
    refine ⟨_, rfl, fun rest hrest => dataType_known ht ?_⟩
    rcases hk with rfl | rfl <;> simp [typeTail, optionalParens, timeZone, Keyword.spelling, Keyword.table]
  | typePrecision =>
    rintro t x ⟨-, -, shape, hshape, ht⟩ _ _ ⟨⟨s, rfl, -⟩, rfl⟩
    obtain rfl := List.mem_singleton.1 hshape
    refine ⟨_, rfl, fun rest hrest => dataType_known ht ?_⟩
    simp [typeTail, Keyword.spelling, Keyword.table]
  | typeUser =>
    rintro _ _ ⟨name, k, -, rfl, rfl, hk, htypes⟩ us x ⟨-, parts, rfl, hparts⟩
    refine ⟨name.written ++ x, by rw [String.append_empty, id], fun rest hrest => ?_⟩
    have hno : Token.knownType? (.word name k) = none :=
      Option.eq_none_iff_forall_not_mem.2 fun type h => absurd (htypes _ _ h) List.not_mem_nil
    have hpath := furtherParts_eq parts _ hrest.startsWith_period
    have hother : k.any Keyword.otherTypes.contains = false := by
      rw [Option.any_eq_false]
      exact fun l hl => by simpa using fun hmem => hk l hmem hl
    simp [dataType, userType, hno, hother, hpath, hparts, hrest.startsWith_opening]

end QueryTemplate.Sql
