import Mathlib.Data.List.Basic
import QueryTemplate.Criteria
import QueryTemplate.Proofs.Except
import QueryTemplate.Proofs.Slices
import QueryTemplate.Proofs.Splitting

/-!
# Faults of sort lists

A sort list that cannot be read has a first segment at fault, and the error points at the start of it. The
place is found segment by segment: a running offset counts the bytes of the segments that were read, each with
the comma behind it, and where one is at fault the remainder is sliced off the text (`SortKey.scan`).

* **`SortKey.IsKey`**: the segments that stand for a key; `ofWords_eq_error_iff` says what is wrong with any other.
* **`SortKey.ofSegments_eq_error_iff`**: the first segment at fault is reported, with the text from it on.
* **`SortKey.scan_eq_place`**: the running offset is where the segment starts, so it can be sliced at.
* **`sort_faults_located`**: which texts are refused, where the error points, and what criteria make of it.
-/

namespace QueryTemplate

namespace SortKey

/-! ## One segment -/

/-- The segments that stand for a key: one word, or one word and a direction in any mix of cases. -/
def IsKey (segment : List Char) : Prop :=
  ∃ field, Text.words segment = [field]
    ∨ ∃ direction, Text.words segment = [field, direction]
        ∧ Text.lower (String.ofList direction) ∈ ["asc", "desc"]

/-- What is wrong with a segment that stands for no key: there is no field, or more than a key has. -/
def segmentFault (segment : List Char) : Fault :=
  if Text.words segment = [] then .expectedSortField else .expectedSortDirection

/-- **A segment is refused exactly if it stands for no key.** -/
theorem ofWords_eq_error_iff {segment : List Char} {fault : Fault} :
    ofWords (Text.words segment) = .error fault ↔ ¬IsKey segment ∧ fault = segmentFault segment := by
  unfold IsKey segmentFault
  rw [eq_comm (a := fault)]
  rcases Text.words segment with _ | ⟨field, _ | ⟨direction, _ | ⟨word, more⟩⟩⟩
  · simp [ofWords]
  · simp [ofWords]
  · by_cases hasc : Text.lower (String.ofList direction) = "asc"
    · simp [ofWords, hasc]
    by_cases hdesc : Text.lower (String.ofList direction) = "desc"
    · simp [ofWords, hdesc]
    · simp [ofWords, hasc, hdesc]
  · simp [ofWords]

theorem isKey_of_ofWords {segment : List Char} {key : SortKey} (h : ofWords (Text.words segment) = .ok key) :
    IsKey segment := by
  by_contra hkey
  have herror := ofWords_eq_error_iff.2 ⟨hkey, rfl⟩
  rw [h] at herror
  cases herror

/-! ## The first segment at fault -/

/-- **The first segment at fault is reported**, with the text from its start on. -/
theorem ofSegments_eq_error_iff {segments : List (List Char)} {fault : Fault} {rest : List Char} :
    ofSegments segments = .error (fault, rest) ↔ ∃ before s after, segments = before ++ s :: after
      ∧ (∀ b ∈ before, IsKey b) ∧ ¬IsKey s ∧ fault = segmentFault s ∧ rest = joinSegments (s :: after) := by
  induction segments with
  | nil => simp [ofSegments]
  | cons s segments ih =>
    unfold ofSegments
    cases hread : ofWords (Text.words s) with
    | error fault' =>
      obtain ⟨hs, rfl⟩ := ofWords_eq_error_iff.1 hread
      dsimp only
      constructor
      · rintro ⟨⟩
        exact ⟨[], s, segments, rfl, nofun, hs, rfl, rfl⟩
      · rintro ⟨before, s', after, hsegments, hbefore, -, rfl, rfl⟩
        -- this segment is at fault, so none in front of the reported one can be it
        cases before with
        | nil =>
          cases hsegments
          rfl
        | cons b before =>
          cases hsegments
          exact absurd (hbefore s List.mem_cons_self) hs
    | ok key =>
      have hs : IsKey s := isKey_of_ofWords hread
      have hmap : (ofSegments segments).map (key :: ·) = .error (fault, rest)
          ↔ ofSegments segments = .error (fault, rest) := by
        cases ofSegments segments <;> simp [Except.map]
      dsimp only
      rw [hmap, ih]
      constructor
      · rintro ⟨before, s', after, rfl, hbefore, h⟩
        exact ⟨s :: before, s', after, rfl, List.forall_mem_cons.2 ⟨hs, hbefore⟩, h⟩
      · rintro ⟨before, s', after, hsegments, hbefore, hs', h⟩
        cases before with
        | nil =>
          cases hsegments
          exact absurd hs hs'
        | cons b before =>
          cases hsegments
          exact ⟨before, s', after, rfl, fun c hc => hbefore c (List.mem_cons_of_mem s hc), hs', h⟩

theorem isKey_of_ofSegments {segments : List (List Char)} {keys : List SortKey}
    (h : ofSegments segments = .ok keys) : ∀ s ∈ segments, IsKey s := by
  induction segments generalizing keys with
  | nil => exact nofun
  | cons s segments ih =>
    unfold ofSegments at h
    cases hread : ofWords (Text.words s) with
    | error fault => simp [hread] at h
    | ok key =>
      cases hmore : ofSegments segments with
      | error e => simp [hread, hmore, Except.map] at h
      | ok more => exact List.forall_mem_cons.2 ⟨isKey_of_ofWords hread, ih hmore⟩

/-! ## The running offset -/

/-- The text that segments take up in front of others, each with the comma behind it. -/
def taken (before : List (List Char)) : List Char :=
  before.flatMap fun segment => segment ++ [',']

theorem joinSegments_append (before : List (List Char)) (s : List Char) (after : List (List Char)) :
    joinSegments (before ++ s :: after) = taken before ++ joinSegments (s :: after) := by
  induction before with
  | nil => rfl
  | cons b before ih =>
    have hcomma : joinSegments (b :: (before ++ s :: after)) = b ++ ',' :: joinSegments (before ++ s :: after) := by
      cases before <;> rfl
    rw [List.cons_append, hcomma, ih]
    simp [taken]

/-- Segments that were cut apart at commas make up the text again. -/
theorem joinSegments_splitWhen (cs : List Char) : joinSegments (Text.splitWhen (· = ',') cs) = cs := by
  induction cs with
  | nil => rfl
  | cons c cs ih =>
    unfold Text.splitWhen
    cases hcut : Text.splitWhen (· = ',') cs with
    | nil => exact absurd hcut (Text.splitWhen_ne_nil cs)
    | cons s segments =>
      rw [hcut] at ih
      by_cases hc : c = ','
      · rw [if_pos (decide_eq_true hc), hc, ← ih]
        rfl
      · have hfirst : joinSegments ((c :: s) :: segments) = c :: joinSegments (s :: segments) := by
          cases segments <;> rfl
        rw [if_neg (by simpa using hc), hfirst, ih]

/-- Reads segments as a program does that keeps no more than an offset: it counts the bytes of the segments that
were read, each with its comma, and slices the remainder off the text. Nothing if a slice is out of range. -/
def scan (text : String) : Nat → List (List Char) → Option (Except TextError (List SortKey))
  | _, [] => some (.ok [])
  | offset, s :: rest =>
    match ofWords (Text.words s) with
    | .error fault => (Text.sliceFrom? text offset).map fun remainder => .error ⟨offset, remainder, fault⟩
    | .ok key => (scan text (offset + (Text.byteLength s + 1)) rest).map (·.map (key :: ·))

/-- The error for a fault of a segment: it is placed where its remainder starts. -/
def place (cs : List Char) (fault : Fault × List Char) : TextError :=
  ⟨Text.byteLength cs - Text.byteLength fault.2, String.ofList fault.2, fault.1⟩

/-- **The offset is where the next segment starts**, so a slice there is in range and has the segments that are
left. Induction along the segments: one that was read joins the front with its comma. -/
theorem scan_eq_place {text : String} {front : List Char} {segments : List (List Char)}
    (h : text.toList = front ++ joinSegments segments) :
    scan text (Text.byteLength front) segments = some ((ofSegments segments).mapError (place text.toList)) := by
  induction segments generalizing front with
  | nil => rfl
  | cons s segments ih =>
    unfold scan ofSegments
    cases hread : ofWords (Text.words s) with
    | error fault =>
      have htext : text = String.ofList front ++ String.ofList (joinSegments (s :: segments)) := by
        rw [← String.ofList_append, ← h, String.ofList_toList]
      have hslice : Text.sliceFrom? text (Text.byteLength front)
          = some (String.ofList (joinSegments (s :: segments))) := by
        rw [htext, ← Text.utf8ByteSize_ofList, Text.sliceFrom?_append]
      simp only [hslice, Option.map_some, Except.mapError, place]
      rw [h, Text.byteLength_append, Nat.add_sub_cancel]
    | ok key =>
      cases segments with
      | nil => rfl
      | cons t segments =>
        have hmore : text.toList = (front ++ (s ++ [','])) ++ joinSegments (t :: segments) := by
          simpa [joinSegments] using h
        have hoffset : Text.byteLength (front ++ (s ++ [','])) = Text.byteLength front + (Text.byteLength s + 1) := by
          simp [show ','.utf8Size = 1 from rfl]
        dsimp only
        rw [← hoffset, ih hmore]
        cases ofSegments (t :: segments) <;> rfl

/-! ## Sort lists -/

/-- The segments of a sort list. -/
def segmentsOf (text : String) : List (List Char) :=
  Text.splitWhen (· = ',') text.toList

theorem parse_eq_place {text : String} (h : text.toList.all Text.isBlank = false) :
    parse text = (ofSegments (segmentsOf text)).mapError (place text.toList) := by
  unfold parse segmentsOf
  simp only [h]
  cases ofSegments (Text.splitWhen (· = ',') text.toList) <;> rfl

/-- **A sort list is read as the offset finds it**, and no slice is out of range. -/
theorem scan_eq_parse {text : String} (h : text.toList.all Text.isBlank = false) :
    scan text 0 (segmentsOf text) = some (parse text) := by
  have hwhole : text.toList = [] ++ joinSegments (segmentsOf text) := (joinSegments_splitWhen text.toList).symm
  rw [parse_eq_place h]
  exact scan_eq_place hwhole

/-- The error lies at the start of the segment `s`, which is the first one that stands for no key. -/
structure IsAt (text : String) (e : TextError) (before : List (List Char)) (s : List Char)
    (after : List (List Char)) : Prop where
  segments : segmentsOf text = before ++ s :: after
  keys : ∀ b ∈ before, IsKey b
  noKey : ¬IsKey s
  fault : e.fault = segmentFault s
  position : e.position = (String.ofList (taken before)).utf8ByteSize
  remainder : text = String.ofList (taken before) ++ e.remainder

theorem eq_append_of_segmentsOf {text : String} {before : List (List Char)} {s : List Char}
    {after : List (List Char)} (h : segmentsOf text = before ++ s :: after) :
    text = String.ofList (taken before) ++ String.ofList (joinSegments (s :: after)) := by
  rw [← String.ofList_append, ← joinSegments_append, ← h, segmentsOf, joinSegments_splitWhen, String.ofList_toList]

theorem place_of_segmentsOf {text : String} {before : List (List Char)} {s : List Char}
    {after : List (List Char)} (h : segmentsOf text = before ++ s :: after) :
    place text.toList (segmentFault s, joinSegments (s :: after))
      = ⟨(String.ofList (taken before)).utf8ByteSize, String.ofList (joinSegments (s :: after)), segmentFault s⟩ := by
  have hbytes := congrArg (fun t => Text.byteLength t.toList) (eq_append_of_segmentsOf h)
  simp only [String.toList_append, String.toList_ofList, Text.byteLength_append] at hbytes
  rw [place, hbytes, Text.utf8ByteSize_ofList, Nat.add_sub_cancel]

/-- **Where a sort list is refused**: at the start of its first segment that stands for no key. -/
theorem parse_eq_error_iff {text : String} (h : text.toList.all Text.isBlank = false) {e : TextError} :
    parse text = .error e ↔ ∃ before s after, IsAt text e before s after := by
  rw [parse_eq_place h]
  constructor
  · intro herror
    cases hread : ofSegments (segmentsOf text) with
    | ok keys => simp [hread, Except.mapError] at herror
    | error fault =>
      obtain ⟨fault, rest⟩ := fault
      obtain ⟨before, s, after, hsegments, hkeys, hs, rfl, rfl⟩ := ofSegments_eq_error_iff.1 hread
      rw [hread, Except.mapError, place_of_segmentsOf hsegments] at herror
      cases herror
      exact ⟨before, s, after, hsegments, hkeys, hs, rfl, rfl, eq_append_of_segmentsOf hsegments⟩
  · rintro ⟨before, s, after, hsegments, hkeys, hs, hfault, hposition, htext⟩
    have hread := ofSegments_eq_error_iff.2 ⟨before, s, after, hsegments, hkeys, hs, rfl, rfl⟩
    have hrest : String.ofList (joinSegments (s :: after)) = e.remainder :=
      (String.append_right_inj _).1 ((eq_append_of_segmentsOf hsegments).symm.trans htext)
    rw [hread, Except.mapError, place_of_segmentsOf hsegments, hrest, ← hfault, ← hposition]

theorem exists_parse_eq_error_iff {text : String} (h : text.toList.all Text.isBlank = false) :
    (∃ e, parse text = .error e) ↔ ∃ s ∈ segmentsOf text, ¬IsKey s := by
  constructor
  · rintro ⟨e, he⟩
    obtain ⟨before, s, after, hat⟩ := (parse_eq_error_iff h).1 he
    have hmem : s ∈ segmentsOf text := by simp [hat.segments]
    exact ⟨s, hmem, hat.noKey⟩
  · rintro ⟨s, hs, hkey⟩
    rw [parse_eq_place h]
    cases hread : ofSegments (segmentsOf text) with
    | ok keys => exact absurd (isKey_of_ofSegments hread s hs) hkey
    | error fault => exact ⟨_, rfl⟩

/-- **The place of an error is in range**: it is a character boundary, and a slice there is the remainder. -/
theorem IsAt.inRange {text : String} {e : TextError} {before : List (List Char)} {s : List Char}
    {after : List (List Char)} (h : IsAt text e before s after) :
    e.position ≤ text.utf8ByteSize ∧ (⟨e.position⟩ : String.Pos.Raw).IsValid text
      ∧ Text.sliceFrom? text e.position = some e.remainder := by
  rw [h.position, h.remainder]
  refine ⟨?_, ?_, Text.sliceFrom?_append _ _⟩
  · rw [String.utf8ByteSize_append]
    exact Nat.le_add_right _ _
  · exact String.Pos.Raw.isValid_iff_exists_append.2 ⟨_, _, rfl, rfl⟩

/-- **Faults of sort lists.** A text that is not blank is refused exactly if a segment of it stands for no key.
The error is at the byte where the first such segment starts, with the text from there on; that place is a
character boundary of the text, and no slice that is taken with the running offset is out of range. Criteria pass
the error on; the keys of a text without one come behind those that are there. -/
theorem sort_faults_located (text : String) (c : Criteria) :
    (text.toList.all Text.isBlank = false →
      ((∃ e, parse text = .error e) ↔ ∃ s ∈ segmentsOf text, ¬IsKey s)
        ∧ (∀ e, parse text = .error e →
            (∃ before s after, IsAt text e before s after)
              ∧ e.position ≤ text.utf8ByteSize ∧ (⟨e.position⟩ : String.Pos.Raw).IsValid text
              ∧ Text.sliceFrom? text e.position = some e.remainder)
        ∧ scan text 0 (segmentsOf text) = some (parse text))
      ∧ (∀ e, parse text = .error e → c.apply (.orderByText text) = .error (.text e))
      ∧ ∀ keys, parse text = .ok keys → c.apply (.orderByText text) = .ok { c with sorts := c.sorts ++ keys } := by
  refine ⟨fun h => ⟨exists_parse_eq_error_iff h, ?_, scan_eq_parse h⟩, ?_, ?_⟩
  · intro e he
    obtain ⟨before, s, after, hat⟩ := (parse_eq_error_iff h).1 he
    exact ⟨⟨before, s, after, hat⟩, hat.inRange⟩
  · intro e he
    simp only [Criteria.apply, he]
  · intro keys hkeys
    simp only [Criteria.apply, hkeys]

/-- A segment of blanks behind one with letters of two bytes. -/
theorem sort_faults_located_umlaut :
    let text := "größe DESC, , x"
    let e : TextError := ⟨13, " , x", .expectedSortField⟩
    text.toList.all Text.isBlank = false ∧ parse text = .error e
      ∧ (∃ s ∈ segmentsOf text, ¬IsKey s) ∧ (∃ before s after, IsAt text e before s after)
      ∧ Criteria.apply {} (.orderByText text) = .error (.text e) := by
  intro text e
  have hblank : text.toList.all Text.isBlank = false := by decide +kernel
  have herror : parse text = .error e := by decide +kernel
  obtain ⟨hread, hcriteria, -⟩ := sort_faults_located text {}
  obtain ⟨hrefused, hplace, -⟩ := hread hblank
  exact ⟨hblank, herror, hrefused.1 ⟨e, herror⟩, (hplace e herror).1, hcriteria e herror⟩

end SortKey

end QueryTemplate
