import Mathlib.Data.List.Forall2
import QueryTemplate.Proofs.Splitting
import QueryTemplate.SortKey

/-!
# Sort lists read back

A sort list may be written in many ways: with blanks around each of its parts, with the directions in any mix
of cases, and without the direction of an ascending key. `Writes` says what a segment for a sort key looks
like, and however its segments are written, a list is read as the keys that they are written for.

* **`words_of_writes`**: the words of a segment are the field and, if it is there, the direction.
* **`ofWords_of_writes`**: so a segment is read as its key, whatever the field is called.
* **`splitWhen_joinSegments`**: no segment has a comma, so a text is cut where its segments meet.
* **`parse_written`**: the whole list, by induction along the segments.
-/

namespace QueryTemplate.SortKey

/-! ## What a sort list looks like -/

/-- A name that can stand in a sort list: not empty, without blanks and without commas. -/
def IsWord (name : String) : Prop :=
  name ≠ "" ∧ ∀ c ∈ name.toList, Text.isBlank c = false ∧ c ≠ ','

instance (name : String) : Decidable (IsWord name) :=
  decidable_of_iff (name ≠ "" ∧ (name.toList.all fun c => !Text.isBlank c && c ≠ ',') = true) (by simp [IsWord])

/-- Any number of blanks. -/
def Blanks (cs : List Char) : Prop :=
  ∀ c ∈ cs, Text.isBlank c = true

/-- The segments that stand for a sort key. -/
inductive Writes : SortKey → List Char → Prop where
  /-- The field and its direction, in any mix of cases. -/
  | full (key : SortKey) (before gap word after : List Char) (hbefore : Blanks before)
      (hgap : Blanks gap) (hne : gap ≠ [])
      (hword : Text.lower (String.ofList word) = Text.lower key.direction.sql)
      (hafter : Blanks after) : Writes key (before ++ (key.field.toList ++ (gap ++ (word ++ after))))
  /-- The field alone, which is ascending then. -/
  | bare (field : String) (before after : List Char) (hbefore : Blanks before)
      (hafter : Blanks after) : Writes ⟨field, .ascending⟩ (before ++ (field.toList ++ after))

/-! ## One segment -/

/-- The letters of a direction are no blanks and no commas, in whatever case they are. -/
theorem letters_of_lower {word : List Char} {d : Direction}
    (h : Text.lower (String.ofList word) = Text.lower d.sql) :
    word ≠ [] ∧ ∀ c ∈ word, Text.isBlank c = false ∧ c ≠ ',' := by
  have hmap : word.map Char.toLower = (Text.lower d.sql).toList := by
    rw [← h, Text.lower, String.toList_ofList, String.toList_ofList]
  constructor
  · intro hnil
    rw [hnil] at hmap
    cases d <;> cases hmap
  · intro c hc
    have hletter : c.toLower ∈ (Text.lower d.sql).toList := hmap ▸ List.mem_map_of_mem hc
    have hall : ((Text.lower d.sql).toList.all fun e => !Text.isBlank e && e ≠ ',') = true := by
      cases d <;> decide
    have hplain : ∀ e ∈ (Text.lower d.sql).toList, Text.isBlank e = false ∧ e ≠ ',' := by
      simpa using hall
    -- neither a blank nor a comma has a small letter of its own
    constructor
    · cases hblank : Text.isBlank c with
      | false => rfl
      | true =>
        rw [Text.toLower_of_isBlank hblank] at hletter
        exact hblank.symm.trans (hplain c hletter).1
    · intro hcomma
      rw [hcomma] at hletter
      exact (hplain ',' hletter).2 rfl

/-- The words of a segment are the field and the direction, or the field alone if that is ascending. -/
theorem words_of_writes {key : SortKey} {segment : List Char} (hfield : IsWord key.field)
    (h : Writes key segment) :
    (∃ word, Text.words segment = [key.field.toList, word]
        ∧ Text.lower (String.ofList word) = Text.lower key.direction.sql)
      ∨ Text.words segment = [key.field.toList] ∧ key.direction = .ascending := by
  have hne : key.field.toList ≠ [] := fun hnil => hfield.1 (String.toList_eq_nil_iff.1 hnil)
  have hname : Text.words key.field.toList = [key.field.toList] :=
    Text.words_of_word hne fun c hc => (hfield.2 c hc).1
  cases h with
  | full _ before gap word after hbefore hgap hgapne hword hafter =>
    have hletters := letters_of_lower hword
    have hdirection : Text.words word = [word] :=
      Text.words_of_word hletters.1 fun c hc => (hletters.2 c hc).1
    -- the first blank of the gap ends the field
    obtain ⟨b, gap, rfl⟩ := List.exists_cons_of_ne_nil hgapne
    have hb : Text.isBlank b = true := hgap b List.mem_cons_self
    have hmore : Blanks gap := fun c hc => hgap c (List.mem_cons_of_mem b hc)
    left
    exists word
    constructor
    · rw [Text.words_blanks_append hbefore, List.cons_append, Text.words_append hb,
        Text.words_blanks_append hmore, Text.words_append_blanks hafter, hname, hdirection]
      rfl
    · exact hword
  | bare field before after hbefore hafter =>
    right
    constructor
    · rw [Text.words_blanks_append hbefore, Text.words_append_blanks hafter]
      exact hname
    · rfl

/-- **A segment is read as the key that it is written for.** -/
theorem ofWords_of_writes {key : SortKey} {segment : List Char} (hfield : IsWord key.field)
    (h : Writes key segment) : ofWords (Text.words segment) = .ok key := by
  obtain ⟨field, direction⟩ := key
  rcases words_of_writes hfield h with ⟨word, hwords, hword⟩ | ⟨hwords, hdirection⟩
  · have hasc : Text.lower "ASC" = "asc" := by decide
    have hdesc : Text.lower "DESC" = "desc" := by decide
    rw [hwords]
    cases direction with
    | ascending =>
      have hlower : Text.lower (String.ofList word) = "asc" := hword.trans hasc
      simp [ofWords, hlower]
    | descending =>
      have hlower : Text.lower (String.ofList word) = "desc" := hword.trans hdesc
      simp [ofWords, hlower]
  · have hascending : direction = .ascending := hdirection
    rw [hwords, hascending]
    simp [ofWords]

theorem comma_not_mem_of_writes {key : SortKey} {segment : List Char} (hfield : IsWord key.field)
    (h : Writes key segment) : ∀ c ∈ segment, c ≠ ',' := by
  have hblanks {cs : List Char} (hcs : Blanks cs) : ∀ c ∈ cs, c ≠ ',' := by
    intro c hc hcomma
    have hblank := hcs c hc
    rw [hcomma] at hblank
    cases hblank
  intro c hc
  cases h with
  | full _ _ _ _ _ hbefore hgap _ hword hafter =>
    simp only [List.mem_append] at hc
    rcases hc with hc | hc | hc | hc | hc
    · exact hblanks hbefore c hc
    · exact (hfield.2 c hc).2
    · exact hblanks hgap c hc
    · exact ((letters_of_lower hword).2 c hc).2
    · exact hblanks hafter c hc
  | bare _ _ _ hbefore hafter =>
    simp only [List.mem_append] at hc
    rcases hc with hc | hc | hc
    · exact hblanks hbefore c hc
    · exact (hfield.2 c hc).2
    · exact hblanks hafter c hc

/-! ## Lists -/

/-- A text is cut where its segments meet. -/
theorem splitWhen_joinSegments {segments : List (List Char)} (hne : segments ≠ [])
    (h : ∀ s ∈ segments, ∀ c ∈ s, c ≠ ',') :
    Text.splitWhen (· = ',') (joinSegments segments) = segments := by
  induction segments with
  | nil => exact absurd rfl hne
  | cons s segments ih =>
    have hs : Text.splitWhen (· = ',') s = [s] :=
      Text.splitWhen_of_not fun c hc => decide_eq_false (h s List.mem_cons_self c hc)
    cases segments with
    | nil => exact hs
    | cons t segments =>
      have hmore := ih (List.cons_ne_nil t segments) fun u hu => h u (List.mem_cons_of_mem s hu)
      show Text.splitWhen (· = ',') (s ++ ',' :: joinSegments (t :: segments)) = _
      rw [Text.splitWhen_append (by simp), hs, hmore]
      rfl

/-- What is read of a list, with each segment in its turn, and that no segment has a comma. -/
theorem ofSegments_of_writes {keys : List SortKey} {segments : List (List Char)}
    (hfields : ∀ key ∈ keys, IsWord key.field) (h : List.Forall₂ Writes keys segments) :
    ofSegments segments = .ok keys ∧ ∀ s ∈ segments, ∀ c ∈ s, c ≠ ',' := by
  induction h with
  | nil => exact ⟨rfl, nofun⟩
  | @cons key segment keys segments hwrites _ ih =>
    have hkey := hfields key List.mem_cons_self
    obtain ⟨hread, hcommas⟩ := ih fun k hk => hfields k (List.mem_cons_of_mem key hk)
    constructor
    · rw [ofSegments, ofWords_of_writes hkey hwrites, hread]
      rfl
    · intro s hs
      rcases List.mem_cons.1 hs with hs | hs
      · rw [hs]
        exact comma_not_mem_of_writes hkey hwrites
      · exact hcommas s hs

/-- A segment has a word, so a list with a key in front is not blank. -/
theorem all_isBlank_eq_false {key : SortKey} {segment : List Char} (hfield : IsWord key.field)
    (h : Writes key segment) (rest : List (List Char)) :
    (joinSegments (segment :: rest)).all Text.isBlank = false := by
  have hwords : Text.words segment ≠ [] := by
    rcases words_of_writes hfield h with ⟨_, hwords, _⟩ | ⟨hwords, _⟩ <;> simp [hwords]
  have hfront : segment ⊆ joinSegments (segment :: rest) := by
    cases rest with
    | nil => exact List.Subset.refl _
    | cons t rest => exact List.subset_append_left _ _
  cases hall : (joinSegments (segment :: rest)).all Text.isBlank with
  | false => rfl
  | true =>
    have hblanks : ∀ c ∈ segment, Text.isBlank c = true :=
      fun c hc => List.all_eq_true.1 hall c (hfront hc)
    exact absurd (Text.words_of_blanks hblanks) hwords

/-- **Sort lists read back.** However the segments of the keys are written, with whatever blanks and cases
and with or without the direction of an ascending key, the text in which commas join them is read as the
keys. Fields may have any names of one word, those of the directions among them. -/
theorem parse_written {keys : List SortKey} {segments : List (List Char)}
    (hfields : ∀ key ∈ keys, IsWord key.field) (h : List.Forall₂ Writes keys segments) :
    parse (String.ofList (joinSegments segments)) = .ok keys := by
  obtain ⟨hread, hcommas⟩ := ofSegments_of_writes hfields h
  unfold parse
  rw [String.toList_ofList]
  cases h with
  | nil => rfl
  | @cons key segment keys segments hwrites _ =>
    have hblank := all_isBlank_eq_false (hfields key List.mem_cons_self) hwrites segments
    have hcut := splitWhen_joinSegments (List.cons_ne_nil segment segments) hcommas
    simp only [hblank, hcut, hread]
    rfl

/-- A field called `desc`, one called `ASC` that is written alone, and blanks beyond ASCII. -/
theorem parse_written_directions :
    let keys : List SortKey := [⟨"desc", .descending⟩, ⟨"ASC", .ascending⟩, ⟨"größe", .ascending⟩]
    (∀ key ∈ keys, IsWord key.field)
      ∧ List.Forall₂ Writes keys
        ["desc \n dEsC ".toList, "\u3000ASC".toList, " größe ASC\u00a0".toList]
      ∧ parse "desc \n dEsC ,\u3000ASC, größe ASC\u00a0" = .ok keys := by
  intro keys
  have hfields : ∀ key ∈ keys, IsWord key.field := by
    have hall : (keys.all fun key => IsWord key.field) = true := by decide +kernel
    simpa using hall
  have hblanks {cs : List Char} (h : cs.all Text.isBlank = true) : Blanks cs := List.all_eq_true.1 h
  have hwrites : List.Forall₂ Writes keys
      ["desc \n dEsC ".toList, "\u3000ASC".toList, " größe ASC\u00a0".toList] :=
    .cons (.full ⟨"desc", .descending⟩ [] [' ', '\n', ' '] "dEsC".toList [' '] (hblanks rfl) (hblanks rfl) nofun
        rfl (hblanks rfl))
      (.cons (.bare "ASC" ['\u3000'] [] (hblanks rfl) (hblanks rfl))
        (.cons (.full ⟨"größe", .ascending⟩ [' '] [' '] "ASC".toList ['\u00a0'] (hblanks rfl) (hblanks rfl) nofun
          rfl (hblanks rfl)) .nil))
  have htext : String.ofList (joinSegments
      ["desc \n dEsC ".toList, "\u3000ASC".toList, " größe ASC\u00a0".toList])
      = "desc \n dEsC ,\u3000ASC, größe ASC\u00a0" := by
    decide +kernel
  have hparse := parse_written hfields hwrites
  rw [htext] at hparse
  exact ⟨hfields, hwrites, hparse⟩

end QueryTemplate.SortKey
