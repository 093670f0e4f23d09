import QueryTemplate.Text.Basic

/-!
# Slices

Errors point into a text by a byte offset, and what they show of the text is sliced off at it. A slice is in
range only where a character starts, or at the end.

* **`Text.sliceFrom?_append`**: a text can be sliced at the byte length of anything that it starts with.
* **`Text.slice_of_suffix`**: so it can be sliced where any end of it starts, which leaves that end.
-/

namespace QueryTemplate.Text

theorem utf8ByteSize_ofList (cs : List Char) : (String.ofList cs).utf8ByteSize = byteLength cs := by
  induction cs with
  | nil => rfl
  | cons c cs ih =>
    rw [String.ofList_cons, String.utf8ByteSize_append, ih, String.utf8ByteSize_singleton, byteLength_cons]

theorem byteLength_toList (text : String) : byteLength text.toList = text.utf8ByteSize := by
  rw [← utf8ByteSize_ofList, String.ofList_toList]

/-- The text from a byte offset on; nothing if the offset is no character boundary of the text. -/
def sliceFrom? (text : String) (offset : Nat) : Option String :=
  if h : (⟨offset⟩ : String.Pos.Raw).IsValid text then some (text.sliceFrom (text.pos ⟨offset⟩ h)).copy
  else none

/-- **A text can be sliced at the byte length of what it starts with**, and the rest of it is left. -/
theorem sliceFrom?_append (front rest : String) : sliceFrom? (front ++ rest) front.utf8ByteSize = some rest := by
  have hvalid : (⟨front.utf8ByteSize⟩ : String.Pos.Raw).IsValid (front ++ rest) :=
    String.Pos.Raw.isValid_iff_exists_append.2 ⟨front, rest, rfl, rfl⟩
  have hsplits : ((front ++ rest).pos _ hvalid).Splits front rest := ⟨rfl, rfl⟩
  rw [sliceFrom?, dif_pos hvalid, hsplits.copy_sliceFrom_eq]

/-- **Where an end of a text starts** is in range, a character boundary, and the place to slice that end off. -/
theorem slice_of_suffix {text : String} {rest : List Char} (h : rest <:+ text.toList) :
    byteLength text.toList - byteLength rest ≤ text.utf8ByteSize
      ∧ (⟨byteLength text.toList - byteLength rest⟩ : String.Pos.Raw).IsValid text
      ∧ sliceFrom? text (byteLength text.toList - byteLength rest) = some (String.ofList rest) := by
  obtain ⟨front, hfront⟩ := h
  have htext : text = String.ofList front ++ String.ofList rest := by
    rw [← String.ofList_append, hfront, String.ofList_toList]
  have hoffset : byteLength text.toList - byteLength rest = (String.ofList front).utf8ByteSize := by
    rw [← hfront, byteLength_append, Nat.add_sub_cancel, utf8ByteSize_ofList]
  rw [hoffset, htext]
  refine ⟨?_, ?_, sliceFrom?_append _ _⟩
  · rw [String.utf8ByteSize_append]
    exact Nat.le_add_right _ _
  · exact String.Pos.Raw.isValid_iff_exists_append.2 ⟨_, _, rfl, rfl⟩

end QueryTemplate.Text
