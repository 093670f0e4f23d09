import QueryTemplate.Text.CharClass

/-!
# Text as a list of characters

Measuring, trimming, splitting and padding. Positions in error messages count UTF-8 bytes
(`byteLength`), widths count characters.
-/

namespace QueryTemplate.Text

/-- The number of bytes of the UTF-8 encoding. -/
def byteLength (cs : List Char) : Nat :=
  cs.foldr (fun c n => c.utf8Size + n) 0

@[simp] theorem byteLength_nil : byteLength [] = 0 := rfl

@[simp] theorem byteLength_cons (c : Char) (cs : List Char) :
    byteLength (c :: cs) = c.utf8Size + byteLength cs := rfl

@[simp] theorem byteLength_append (xs ys : List Char) :
    byteLength (xs ++ ys) = byteLength xs + byteLength ys := by
  induction xs with
  | nil => simp
  | cons c xs ih => simp [ih, Nat.add_assoc]

/-- ASCII capitals become small letters, every other character stays. -/
def lower (s : String) : String :=
  String.ofList (s.toList.map Char.toLower)

/-! ## Trimming -/

/-- Drops the characters of the class at the end. -/
def trimRight (p : Char → Bool) (cs : List Char) : List Char :=
  (cs.reverse.dropWhile p).reverse

/-- Drops the characters of the class at both ends. -/
def trimBoth (p : Char → Bool) (cs : List Char) : List Char :=
  trimRight p (cs.dropWhile p)

/-- The text without the blanks at both ends. -/
def trim (s : String) : String :=
  String.ofList (trimBoth isBlank s.toList)

/-! ## Splitting -/

/-- Cuts at every character of the class, which is dropped; there is one segment more than cuts. -/
def splitWhen (p : Char → Bool) : List Char → List (List Char)
  | [] => [[]]
  | c :: cs =>
    if p c then [] :: splitWhen p cs
    else match splitWhen p cs with
      | [] => [[c]]
      | s :: ss => (c :: s) :: ss

/-- The maximal runs of characters that are not blank. -/
def words (cs : List Char) : List (List Char) :=
  (splitWhen isBlank cs).filter fun w => !w.isEmpty

/-- The parts before and after the first separator. -/
def splitFirst (sep : Char) : List Char → Option (List Char × List Char)
  | [] => none
  | c :: cs =>
    if c = sep then some ([], cs)
    else (splitFirst sep cs).map fun (a, b) => (c :: a, b)

/-- The parts before and after the last separator. -/
def splitLast (sep : Char) : List Char → Option (List Char × List Char)
  | [] => none
  | c :: cs =>
    match splitLast sep cs with
    | some (a, b) => some (c :: a, b)
    | none => if c = sep then some ([], cs) else none

/-! ## Padding -/

/-- Where padded text stands in its column. -/
inductive Align
  | left
  | center
  | right
  deriving DecidableEq, Repr

/--
Fills `s` with `fill` up to `width` characters. A centred text whose padding is odd has the
smaller half on its left.
-/
def pad (align : Align) (fill : Char) (width : Nat) (s : String) : String :=
  let missing := width - s.length
  let before := match align with
    | .left => 0
    | .center => missing / 2
    | .right => missing
  String.ofList (List.replicate before fill) ++ s
    ++ String.ofList (List.replicate (missing - before) fill)

/-- The first `n` characters. -/
def truncate (n : Nat) (s : String) : String :=
  String.ofList (s.toList.take n)

end QueryTemplate.Text
