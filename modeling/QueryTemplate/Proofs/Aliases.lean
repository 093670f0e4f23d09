import QueryTemplate.Alias
import QueryTemplate.Proofs.Splitting

/-!
# Aliases read back

A column alias is the name of its column and a tag, and quote marks may stand around the alias and around the
name. What it is read as does not depend on them.

* **`decode_tagged`**, **`decode_untagged`**: what is read depends on whether there is an underscore.
* **`decode_written`**: a name with the tag of a type is read as the name and the type.
* **`decode_eq_error_iff`**: an alias is refused exactly if it has an underscore and no tag behind the last one.
* **`name_prefix_of_decode`**: a name without marks in front of it is what the alias starts with.
* **`bare_of_decode`**: no name that is read starts or ends with a mark.
* **`decoding_undoes_encoding`**: all of it together.
-/

namespace QueryTemplate.Alias

open Text

/-! ## Quote marks -/

/-- Any number of quote marks. -/
def Marks (cs : List Char) : Prop :=
  ∀ c ∈ cs, isQuoteMark c = true

theorem marks_nil : Marks [] := nofun

/-- A text that neither starts nor ends with a quote mark. -/
def Bare (cs : List Char) : Prop :=
  Trimmed isQuoteMark cs

/-! ## The name and the tag -/

/-- A tag has no underscore, and neither that nor a tag has quote marks. -/
theorem tag_plain (type : ValueType) :
    '_' ∉ type.tag.toList ∧ ∀ c ∈ '_' :: type.tag.toList, isQuoteMark c = false := by
  have hmarks : ('_' :: type.tag.toList).all (fun c => !isQuoteMark c) = true := by cases type <;> decide
  refine ⟨by cases type <;> decide, fun c hc => ?_⟩
  simpa using List.all_eq_true.1 hmarks c hc

/-- What stands in front of the tag. -/
theorem isPrefix_split (cs : List Char) : (split cs).1 <+: cs := by
  unfold split
  cases hlast : splitLast '_' cs with
  | none => exact List.prefix_rfl
  | some parts =>
    rw [splitLast_eq_some hlast]
    exact List.prefix_append _ _

theorem name_of_decode {raw name : String} {type : ValueType} (h : decode raw = .ok (name, type)) :
    name = String.ofList (unquote (split (unquote raw.toList)).1) := by
  unfold decode at h
  generalize split (unquote raw.toList) = parts at h ⊢
  dsimp only at h
  split at h
  · exact (Prod.mk.inj (Except.ok.inj h)).1.symm
  · cases h

/-- The name in an alias is part of the alias. -/
theorem name_subset_of_decode {raw name : String} {type : ValueType} (h : decode raw = .ok (name, type)) :
    name.toList ⊆ raw.toList := by
  rw [name_of_decode h, String.toList_ofList]
  exact List.Subset.trans (trimBoth_subset _ _)
    (List.Subset.trans (isPrefix_split _).subset (trimBoth_subset _ _))

/-- Of an alias that no mark stands in front of, the name is a front. -/
theorem name_prefix_of_decode {raw name : String} {type : ValueType} (h : decode raw = .ok (name, type))
    (hraw : ∀ c ∈ raw.toList.head?, isQuoteMark c = false) : name.toList <+: raw.toList := by
  have hfront : (split (unquote raw.toList)).1 <+: raw.toList := (isPrefix_split _).trans (isPrefix_trimBoth hraw)
  rw [name_of_decode h, String.toList_ofList]
  refine .trans (isPrefix_trimBoth fun c hc => hraw c ?_) hfront
  -- a front starts as the whole does
  obtain ⟨tail, htail⟩ := List.head?_eq_some_iff.1 (Option.mem_def.1 hc)
  obtain ⟨back, hback⟩ := hfront
  rw [htail] at hback
  exact List.head?_eq_some_iff.2 ⟨tail ++ back, hback.symm⟩

/-- No name that is read starts or ends with a quote mark. -/
theorem bare_of_decode {raw name : String} {type : ValueType} (h : decode raw = .ok (name, type)) :
    Bare name.toList := by
  rw [name_of_decode h, String.toList_ofList]
  exact trimmed_trimBoth _

theorem decode_tagged {raw : String} {front tag : List Char} (hraw : unquote raw.toList = front ++ '_' :: tag)
    (htag : '_' ∉ tag) : decode raw = (ValueType.ofTag? (String.ofList tag)).elim
      (.error (.unsupportedType (String.ofList tag))) fun type => .ok (String.ofList (unquote front), type) := by
  have hsplit : split (unquote raw.toList) = (front, tag) := by
    rw [hraw, split, splitLast_append htag]
    rfl
  rw [decode, hsplit]
  dsimp only
  cases ValueType.ofTag? (String.ofList tag) <;> rfl

/-- An alias without an underscore is the name of a column of type `object`. -/
theorem decode_untagged {raw : String} (h : '_' ∉ unquote raw.toList) :
    decode raw = .ok (String.ofList (unquote (unquote raw.toList)), .object) := by
  have hsplit : split (unquote raw.toList) = (unquote raw.toList, ValueType.object.tag.toList) := by
    rw [split, splitLast_of_not_mem h]
    rfl
  rw [decode, hsplit]
  rfl

/-! ## Written aliases -/

/-- An alias ends with its tag, so it is bare if its name does not start with a mark. -/
theorem bare_tagged {front : List Char} (type : ValueType) (h : ∀ c ∈ front.head?, isQuoteMark c = false) :
    Bare (front ++ '_' :: type.tag.toList) := by
  obtain ⟨-, hplain⟩ := tag_plain type
  constructor
  · cases front with
    | nil => exact fun c hc => hplain c (List.mem_of_mem_head? hc)
    | cons d front => exact h
  · intro c hc
    obtain ⟨d, hlast⟩ := Option.isSome_iff_exists.1 (List.getLast?_isSome.2 (List.cons_ne_nil '_' type.tag.toList))
    rw [List.getLast?_append, hlast] at hc
    cases hc
    exact hplain _ (List.mem_of_getLast? hlast)

/-- **A name with a tag is read as what it was written for**, with any marks around the alias and behind the
name. -/
theorem decode_written (type : ValueType) {name before between after : List Char} (hname : Bare name)
    (hbefore : Marks before) (hbetween : Marks between) (hafter : Marks after) :
    decode (String.ofList (before ++ (name ++ (between ++ ('_' :: type.tag.toList ++ after)))))
      = .ok (String.ofList name, type) := by
  -- without a name, the marks behind it are marks around the alias
  have hfront : ∃ outer front, Marks outer ∧ Bare (front ++ '_' :: type.tag.toList) ∧ unquote front = name ∧
      before ++ (name ++ between) = outer ++ front := by
    cases name with
    | nil =>
      have hmarks : Marks (before ++ between) := List.forall_mem_append.2 ⟨hbefore, hbetween⟩
      exact ⟨before ++ between, [], hmarks, bare_tagged type nofun, rfl, by simp⟩
    | cons c name =>
      have hread : unquote (c :: name ++ between) = c :: name :=
        trimBoth_eq_iff.2 ⟨hname, [], between, marks_nil, hbetween, rfl⟩
      exact ⟨before, c :: name ++ between, hbefore, bare_tagged type hname.1, hread, rfl⟩
  obtain ⟨outer, front, houter, hbare, hread, hwritten⟩ := hfront
  have hraw : unquote (String.ofList (before ++ (name ++ (between ++ ('_' :: type.tag.toList ++ after))))).toList
      = front ++ '_' :: type.tag.toList := by
    refine trimBoth_eq_iff.2 ⟨hbare, outer, after, houter, hafter, ?_⟩
    have hall := congrArg (· ++ ('_' :: type.tag.toList ++ after)) hwritten
    simpa using hall
  rw [decode_tagged hraw (tag_plain type).1, String.ofList_toList, ValueType.ofTag?_eq_some_iff.2 rfl,
    Option.elim_some, hread]

/-! ## Refused aliases -/

/-- **An alias is refused exactly if** it has an underscore, once the marks around it are dropped, and what
stands behind the last one is no tag. -/
theorem decode_eq_error_iff {raw : String} {e : Error} : decode raw = .error e ↔
    ∃ front tag, unquote raw.toList = front ++ '_' :: tag ∧ '_' ∉ tag
      ∧ (∀ type : ValueType, type.tag ≠ String.ofList tag) ∧ e = .unsupportedType (String.ofList tag) := by
  have hnone {tag : List Char} : ValueType.ofTag? (String.ofList tag) = none
      ↔ ∀ type : ValueType, type.tag ≠ String.ofList tag := by
    simp only [Option.eq_none_iff_forall_ne_some, ne_eq, ValueType.ofTag?_eq_some_iff]
  constructor
  · intro h
    by_cases hmem : '_' ∈ unquote raw.toList
    · obtain ⟨front, tag, hraw, htag⟩ := exists_last_of_mem hmem
      rw [decode_tagged hraw htag] at h
      cases htype : ValueType.ofTag? (String.ofList tag) with
      | some type => simp [htype] at h
      | none =>
        simp only [htype, Option.elim_none, Except.error.injEq] at h
        exact ⟨front, tag, hraw, htag, hnone.1 htype, h.symm⟩
    · simp [decode_untagged hmem] at h
  · rintro ⟨front, tag, hraw, htag, htype, rfl⟩
    rw [decode_tagged hraw htag, hnone.2 htype, Option.elim_none]

/-- **Decoding undoes encoding.** A name that neither starts nor ends with a quote mark is read back with the
type of its tag, whatever marks stand in front of it, behind it and behind the tag. What is refused is what has,
between the marks around it, a last underscore with no tag behind it, and no name that is read starts or ends with
a mark. -/
theorem decoding_undoes_encoding :
    (∀ (name before between after : String) (type : ValueType), Bare name.toList → Marks before.toList →
      Marks between.toList → Marks after.toList →
        decode (before ++ name ++ between ++ "_" ++ type.tag ++ after) = .ok (name, type))
      ∧ (∀ (raw : String) (e : Error), decode raw = .error e ↔
          ∃ before front tag after, Marks before ∧ Marks after ∧ Bare (front ++ '_' :: tag)
            ∧ raw.toList = before ++ (front ++ '_' :: tag ++ after) ∧ '_' ∉ tag
            ∧ (∀ type : ValueType, type.tag ≠ String.ofList tag) ∧ e = .unsupportedType (String.ofList tag))
      ∧ ∀ (raw name : String) (type : ValueType), decode raw = .ok (name, type) → Bare name.toList := by
  refine ⟨?_, fun raw e => ?_, fun raw name type => bare_of_decode⟩
  · intro name before between after type hname hbefore hbetween hafter
    have hread := decode_written type hname hbefore hbetween hafter
    rw [String.ofList_toList] at hread
    rw [← hread]
    simp [String.append_assoc]
  · rw [decode_eq_error_iff]
    constructor
    · rintro ⟨front, tag, hraw, h⟩
      obtain ⟨hbare, before, after, hbefore, hafter, hwhole⟩ := trimBoth_eq_iff.1 hraw
      exact ⟨before, front, tag, after, hbefore, hafter, hbare, hwhole, h⟩
    · rintro ⟨before, front, tag, after, hbefore, hafter, hbare, hwhole, h⟩
      exact ⟨front, tag, trimBoth_eq_iff.2 ⟨hbare, before, after, hbefore, hafter, hwhole⟩, h⟩

/-- A name with marks and underscores of its own, in marks of all kinds. -/
theorem decoding_undoes_encoding_mixed :
    Bare "net_'x_int".toList ∧ Marks "\"`".toList ∧ Marks "'\"".toList ∧ Marks "`".toList
      ∧ decode "\"`net_'x_int'\"_decimal`" = .ok ("net_'x_int", .decimal) := by
  have hname : Bare "net_'x_int".toList := by unfold Bare; decide
  have hmarks {cs : List Char} (h : cs.all isQuoteMark = true) : Marks cs := List.all_eq_true.1 h
  have hbefore : Marks "\"`".toList := hmarks (by decide)
  have hbetween : Marks "'\"".toList := hmarks (by decide)
  have hafter : Marks "`".toList := hmarks (by decide)
  exact ⟨hname, hbefore, hbetween, hafter,
    decoding_undoes_encoding.1 "net_'x_int" "\"`" "'\"" "`" .decimal hname hbefore hbetween hafter⟩

end QueryTemplate.Alias
