import QueryTemplate.Filter.Basic

/-!
# Filters as JSON

A node or an operand is an object with one member, whose key names the kind; the sides of `And` and
`Or` are an array of two, all other parts are members of an object or, in the same order, items of
an array. Values are written plainly.

Reading has a bound on how many arrays and objects may nest. Members with other keys are skipped,
whatever they hold.
-/

namespace QueryTemplate

/-! ## Writing -/

/-- The name of a comparison in documents. -/
def CompareOp.name : CompareOp → String
  | .eq => "Eq"
  | .notEq => "NotEq"
  | .gt => "Gt"
  | .gtEq => "GtEq"
  | .lt => "Lt"
  | .ltEq => "LtEq"
  | .like => "Like"
  | .notLike => "NotLike"

/-- An operand as an object with one member. -/
def Operand.toJson : Operand → Json
  | .literal v => .object [("Literal", v.toJson)]
  | .param name => .object [("Param", .text name)]
  | .field name => .object [("Field", .text name)]

/-- A filter as an object with one member. -/
def Filter.toJson : Filter → Json
  | .compare left op right =>
    .object [("Compare",
      .object [("left", left.toJson), ("op", .text op.name), ("right", right.toJson)])]
  | .isIn operand items negated =>
    .object [("In",
      .object [("operand", operand.toJson), ("list", .array (items.map Operand.toJson)),
        ("negated", .bool negated)])]
  | .isNull operand negated =>
    .object [("IsNull", .object [("operand", operand.toJson), ("negated", .bool negated)])]
  | .and left right => .object [("And", .array [left.toJson, right.toJson])]
  | .or left right => .object [("Or", .array [left.toJson, right.toJson])]
  | .not inner => .object [("Not", inner.toJson)]

/-! ## Reading -/

/-- How many arrays and objects may nest in a document that is read as a filter. -/
def Json.maxNesting : Nat := 127

/-- A comparison, by its name or as the key of an object with the value null. -/
def CompareOp.ofJson? (room : Nat) : Json → Option CompareOp
  | .text name => all.find? fun o => o.name = name
  | .object [(name, .null)] => if room = 0 then none else all.find? fun o => o.name = name
  | _ => none

/-- An operand, where `room` more arrays and objects may nest. -/
def Operand.ofJson? (room : Nat) : Json → Option Operand
  | .object [(key, x)] =>
    if room = 0 then none
    else match key, x with
      | "Literal", x => (Value.ofJson? x).map .literal
      | "Param", .text name => some (.param name)
      | "Field", .text name => some (.field name)
      | _, _ => none
  | _ => none

/-- Whether a document is one of the two truth values. -/
def Json.bool? : Json → Option Bool
  | .bool b => some b
  | _ => none

/-- The items of an array, where `room` more arrays and objects may nest. -/
def Json.items? (room : Nat) : Json → Option (List Json)
  | .array items => if room = 0 then none else some items
  | _ => none

/-- A filter, where `room` more arrays and objects may nest. -/
def Filter.ofJson? : (room : Nat) → Json → Option Filter
  | room + 2, .object [(key, x)] =>
    match key with
    | "Compare" => do
      match ← x.parts? ["left", "op", "right"] with
      | [left, op, right] =>
        some (.compare (← Operand.ofJson? room left) (← CompareOp.ofJson? room op)
          (← Operand.ofJson? room right))
      | _ => none
    | "In" => do
      match ← x.parts? ["operand", "list", "negated"] with
      | [operand, items, negated] =>
        let items ← items.items? room
        some (.isIn (← Operand.ofJson? room operand)
          (← items.mapM (Operand.ofJson? (room - 1))) (← negated.bool?))
      | _ => none
    | "IsNull" => do
      match ← x.parts? ["operand", "negated"] with
      | [operand, negated] => some (.isNull (← Operand.ofJson? room operand) (← negated.bool?))
      | _ => none
    | "And" =>
      match x with
      | .array [left, right] => do
        some (.and (← Filter.ofJson? room left) (← Filter.ofJson? room right))
      | _ => none
    | "Or" =>
      match x with
      | .array [left, right] => do
        some (.or (← Filter.ofJson? room left) (← Filter.ofJson? room right))
      | _ => none
    | "Not" => (Filter.ofJson? (room + 1) x).map .not
    | _ => none
  | _, _ => none

/-- Reads the JSON text of a filter. -/
def Filter.readJson? (text : String) : Option Filter :=
  (Json.read? text).bind (Filter.ofJson? Json.maxNesting)

end QueryTemplate
