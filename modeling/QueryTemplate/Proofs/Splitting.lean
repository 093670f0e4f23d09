import Mathlib.Data.List.TakeWhile
import QueryTemplate.Text.Basic

/-!
# Cutting text apart

What cutting at separators, into words, at the last separator and at both ends makes of a text that was put
together from its parts. Each is settled by one equation, for a separator that stands anywhere in the text.

* **`splitWhen_append`**: a text is cut at every separator.
* **`words_append`**: the words of a text are those in front of a blank and those behind it.
* **`splitLast_append`**: the last separator is the one with none behind it.
* **`trimBoth_eq_iff`**: trimming leaves what stands between, up to its own first and last characters.
-/

namespace QueryTemplate.Text

variable {p : Char → Bool}

/-! ## Segments -/

/-- There is one segment more than separators. -/
theorem splitWhen_ne_nil (cs : List Char) : splitWhen p cs ≠ [] := by
  cases cs with
  | nil => exact List.cons_ne_nil _ _
  | cons c cs =>
    unfold splitWhen
    split
    · exact List.cons_ne_nil _ _
    · split <;> exact List.cons_ne_nil _ _

/-- Without a separator there is nothing to cut. -/
theorem splitWhen_of_not {cs : List Char} (h : ∀ c ∈ cs, p c = false) : splitWhen p cs = [cs] := by
  induction cs with
  | nil => rfl
  | cons c cs ih =>
    have hc : p c = false := h c List.mem_cons_self
    have hcs : splitWhen p cs = [cs] := ih fun d hd => h d (List.mem_cons_of_mem c hd)
    rw [splitWhen, hc, hcs]
    rfl

/-- **A text is cut at every separator.** Induction on the text in front of one. -/
theorem splitWhen_append {sep : Char} (hsep : p sep = true) (front rest : List Char) :
    splitWhen p (front ++ sep :: rest) = splitWhen p front ++ splitWhen p rest := by
  induction front with
  | nil => simp [splitWhen, hsep]
  | cons c front ih =>
    rw [List.cons_append, splitWhen, splitWhen, ih]
    cases p c with
    | true => rfl
    | false =>
      -- the character belongs to the first segment of the front, which has one
      cases hfront : splitWhen p front with
      | nil => exact absurd hfront (splitWhen_ne_nil front)
      | cons s segments => rfl

/-! ## Words -/

/-- No blank is a capital. -/
theorem toLower_of_isBlank {c : Char} (h : isBlank c = true) : c.toLower = c := by
  have hcapital : ¬('A'.val ≤ c.val ∧ c.val ≤ 'Z'.val) := by
    intro hcapital
    have hlow : 65 ≤ c.toNat := hcapital.1
    have hhigh : c.toNat ≤ 90 := hcapital.2
    have hspace : c ≠ ' ' := by
      intro hspace
      rw [hspace] at hlow
      exact absurd hlow (by decide)
    simp [isBlank, inRanges, blankRanges, hspace] at h
    omega
  exact dif_neg hcapital

/-- **The words in front of a blank and those behind it.** -/
theorem words_append {b : Char} (hb : isBlank b = true) (front rest : List Char) :
    words (front ++ b :: rest) = words front ++ words rest := by
  rw [words, splitWhen_append hb, List.filter_append]
  rfl

theorem words_of_blanks {blanks : List Char} (h : ∀ b ∈ blanks, isBlank b = true) :
    words blanks = [] := by
  induction blanks with
  | nil => rfl
  | cons b blanks ih =>
    have hb : isBlank b = true := h b List.mem_cons_self
    have hmore : words blanks = [] := ih fun c hc => h c (List.mem_cons_of_mem b hc)
    show words ([] ++ b :: blanks) = []
    rw [words_append hb, hmore]
    rfl

/-- Blanks in front of a text belong to no word. -/
theorem words_blanks_append {blanks : List Char} (h : ∀ b ∈ blanks, isBlank b = true)
    (cs : List Char) : words (blanks ++ cs) = words cs := by
  induction blanks with
  | nil => rfl
  | cons b blanks ih =>
    have hb : isBlank b = true := h b List.mem_cons_self
    show words ([] ++ b :: (blanks ++ cs)) = words cs
    rw [words_append hb]
    exact ih fun c hc => h c (List.mem_cons_of_mem b hc)

/-- Neither do blanks behind it. -/
theorem words_append_blanks {blanks : List Char} (h : ∀ b ∈ blanks, isBlank b = true)
    (cs : List Char) : words (cs ++ blanks) = words cs := by
  cases blanks with
  | nil => rw [List.append_nil]
  | cons b blanks =>
    have hb : isBlank b = true := h b List.mem_cons_self
    have hmore := words_of_blanks fun c hc => h c (List.mem_cons_of_mem b hc)
    rw [words_append hb, hmore, List.append_nil]

theorem words_of_word {word : List Char} (hne : word ≠ []) (h : ∀ c ∈ word, isBlank c = false) :
    words word = [word] := by
  rw [words, splitWhen_of_not h]
  simp [hne]

/-! ## The last separator -/

theorem splitLast_eq_some {sep : Char} {cs front back : List Char}
    (h : splitLast sep cs = some (front, back)) : cs = front ++ sep :: back := by
  induction cs generalizing front with
  | nil => cases h
  | cons c cs ih =>
    unfold splitLast at h
    split at h
    · cases h
      exact congrArg (c :: ·) (ih ‹_›)
    · split at h
      · rename_i hc
        cases h
        rw [hc]
        rfl
      · cases h

theorem splitLast_of_not_mem {sep : Char} {cs : List Char} (h : sep ∉ cs) : splitLast sep cs = none := by
  cases hsplit : splitLast sep cs with
  | none => rfl
  | some parts => exact absurd (splitLast_eq_some hsplit ▸ List.mem_append_right _ List.mem_cons_self) h

/-- **The last separator** is the one with none behind it. -/
theorem splitLast_append {sep : Char} {front back : List Char} (h : sep ∉ back) :
    splitLast sep (front ++ sep :: back) = some (front, back) := by
  induction front with
  | nil => simp [splitLast, splitLast_of_not_mem h]
  | cons c front ih => simp [splitLast, ih]

/-- A text with a separator has a last one. -/
theorem exists_last_of_mem {sep : Char} {cs : List Char} (h : sep ∈ cs) :
    ∃ front back, cs = front ++ sep :: back ∧ sep ∉ back := by
  induction cs with
  | nil => cases h
  | cons c cs ih =>
    by_cases hmore : sep ∈ cs
    · obtain ⟨front, back, rfl, hback⟩ := ih hmore
      exact ⟨c :: front, back, rfl, hback⟩
    · have hc : sep = c := (List.mem_cons.1 h).resolve_right hmore
      exact ⟨[], cs, by rw [hc]; rfl, hmore⟩

/-! ## Trimming -/

theorem trimBoth_subset (p : Char → Bool) (cs : List Char) : trimBoth p cs ⊆ cs := by
  intro c hc
  have hc := (List.dropWhile_sublist _).mem (List.mem_reverse.1 hc)
  exact (List.dropWhile_sublist _).mem (List.mem_reverse.1 hc)

/-- A text that neither starts nor ends with a character of the class. -/
def Trimmed (p : Char → Bool) (cs : List Char) : Prop :=
  (∀ c ∈ cs.head?, p c = false) ∧ ∀ c ∈ cs.getLast?, p c = false

instance (p : Char → Bool) (cs : List Char) : Decidable (Trimmed p cs) :=
  decidable_of_iff (cs.head?.all (fun c => !p c) = true ∧ cs.getLast?.all (fun c => !p c) = true) (by
    simp [Trimmed, Option.all_eq_true])

theorem trimmed_of_not {cs : List Char} (h : ∀ c ∈ cs, p c = false) : Trimmed p cs :=
  ⟨fun c hc => h c (List.mem_of_mem_head? hc), fun c hc => h c (List.mem_of_getLast? hc)⟩

theorem dropWhile_of_head? {cs : List Char} (h : ∀ c ∈ cs.head?, p c = false) : cs.dropWhile p = cs := by
  cases cs with
  | nil => rfl
  | cons c cs => exact List.dropWhile_cons_of_neg (by simp [h c rfl])

theorem head?_dropWhile (cs : List Char) : ∀ c ∈ (cs.dropWhile p).head?, p c = false := by
  intro c hc
  have hfirst := List.head?_dropWhile_not p cs
  rw [Option.mem_def.1 hc] at hfirst
  exact hfirst

/-- Where there is nothing to drop in front, trimming leaves a front of the text. -/
theorem isPrefix_trimBoth {cs : List Char} (h : ∀ c ∈ cs.head?, p c = false) : trimBoth p cs <+: cs := by
  have hback : cs.reverse.dropWhile p <:+ cs.reverse := List.dropWhile_suffix _
  rw [trimBoth, dropWhile_of_head? h, trimRight, ← List.reverse_suffix, List.reverse_reverse]
  exact hback

/-- What stands between characters of the class is left, if it neither starts nor ends with one. -/
theorem trimBoth_append {before core after : List Char} (hcore : Trimmed p core)
    (hbefore : ∀ c ∈ before, p c = true) (hafter : ∀ c ∈ after, p c = true) :
    trimBoth p (before ++ (core ++ after)) = core := by
  have hend : trimRight p (core ++ after) = core := by
    have hlast : ∀ c ∈ core.reverse.head?, p c = false := by
      rw [List.head?_reverse]
      exact hcore.2
    rw [trimRight, List.reverse_append, List.dropWhile_append_of_pos fun c hc => hafter c (List.mem_reverse.1 hc),
      dropWhile_of_head? hlast, List.reverse_reverse]
  rw [trimBoth, List.dropWhile_append_of_pos hbefore]
  cases core with
  | nil =>
    rw [List.nil_append, List.dropWhile_eq_nil_iff.2 hafter]
    rfl
  | cons c core =>
    have hstart : ((c :: core) ++ after).dropWhile p = (c :: core) ++ after := dropWhile_of_head? hcore.1
    rw [hstart, hend]

/-- **Trimming** leaves what stands between characters of the class and neither starts nor ends with one. -/
theorem trimBoth_eq_iff {cs core : List Char} : trimBoth p cs = core ↔ Trimmed p core ∧
    ∃ before after, (∀ c ∈ before, p c = true) ∧ (∀ c ∈ after, p c = true) ∧ cs = before ++ (core ++ after) := by
  constructor
  · rintro rfl
    have hback : cs.dropWhile p = trimBoth p cs ++ ((cs.dropWhile p).reverse.takeWhile p).reverse := by
      rw [trimBoth, trimRight, ← List.reverse_append, List.takeWhile_append_dropWhile, List.reverse_reverse]
    refine ⟨⟨?_, ?_⟩, cs.takeWhile p, ((cs.dropWhile p).reverse.takeWhile p).reverse, ?_, ?_, ?_⟩
    · intro c hc
      have hfirst : c ∈ (cs.dropWhile p).head? := by rw [hback, List.head?_append, Option.mem_def.1 hc]; rfl
      exact head?_dropWhile cs c hfirst
    · rw [trimBoth, trimRight, List.getLast?_reverse]
      exact head?_dropWhile _
    · exact fun c hc => List.mem_takeWhile_imp hc
    · exact fun c hc => List.mem_takeWhile_imp (List.mem_reverse.1 hc)
    · rw [← hback, List.takeWhile_append_dropWhile]
  · rintro ⟨hcore, before, after, hbefore, hafter, rfl⟩
    exact trimBoth_append hcore hbefore hafter

theorem trimmed_trimBoth (cs : List Char) : Trimmed p (trimBoth p cs) :=
  (trimBoth_eq_iff.1 rfl).1

end QueryTemplate.Text
