import ShellConfig.Json.Token

/-!
Reading JSON values. The pieces of a text are taken one by one; what has been begun and not ended
yet waits on a stack, so the depth of a value is bounded by nothing but its text.
-/

set_option autoImplicit false

namespace ShellConfig
namespace Json

/-- A value that has begun and waits for one of its parts. The parts it has are in reverse order. -/
inductive Frame where
  /-- A list that waits for an item. -/
  | array (items : List Json)
  /-- An object that waits for the value of a field. -/
  | object (fields : List (JsonText × Json)) (name : JsonText)

/-- What is read next. -/
inductive Expected where
  /-- A value. -/
  | value
  /-- The first item of a list, or its end. -/
  | firstItem
  /-- The name of the first field of an object, or its end. -/
  | firstField
  /-- The name of a field after other fields. -/
  | field (fields : List (JsonText × Json))
  /-- The colon after the name of a field. -/
  | colon (fields : List (JsonText × Json)) (name : JsonText)
  /-- What follows a value. -/
  | after (value : Json)

/-- What is expected, and what waits. -/
abbrev Reading : Type := Expected × List Frame

/-- Begins a value. -/
def beginValue (token : JsonToken) (stack : List Frame) : Option Reading :=
  match token with
  | .null => some (.after .null, stack)
  | .bool value => some (.after (.bool value), stack)
  | .number digits => some (.after (.number digits), stack)
  | .string text => some (.after (.string text), stack)
  | .openBracket => some (.firstItem, stack)
  | .openBrace => some (.firstField, stack)
  | .closeBracket | .closeBrace | .comma | .colon => none

/-- Takes one piece. -/
def advance (token : JsonToken) : Reading → Option Reading
  | (.value, stack) => beginValue token stack
  | (.firstItem, stack) =>
    if token = .closeBracket then some (.after (.array []), stack)
    else beginValue token (.array [] :: stack)
  | (.firstField, stack) =>
    match token with
    | .closeBrace => some (.after (.object []), stack)
    | .string name => some (.colon [] name, stack)
    | _ => none
  | (.field fields, stack) =>
    match token with
    | .string name => some (.colon fields name, stack)
    | _ => none
  | (.colon fields name, stack) =>
    if token = .colon then some (.value, .object fields name :: stack) else none
  | (.after value, .array items :: stack) =>
    match token with
    | .comma => some (.value, .array (value :: items) :: stack)
    | .closeBracket => some (.after (.array (value :: items).reverse), stack)
    | _ => none
  | (.after value, .object fields name :: stack) =>
    match token with
    | .comma => some (.field ((name, value) :: fields), stack)
    | .closeBrace => some (.after (.object ((name, value) :: fields).reverse), stack)
    | _ => none
  | (.after _, []) => none

/-- Takes all pieces. In the end one value is left and nothing waits. -/
def ofTokens? (reading : Reading) : List JsonToken → Option Json
  | [] =>
    match reading with
    | (.after value, []) => some value
    | _ => none
  | token :: rest =>
    match advance token reading with
    | some next => ofTokens? next rest
    | none => none

/-- The value that a text stands for. -/
def parse? (text : String) : Option Json :=
  match JsonToken.tokens? text.toList with
  | some tokens => ofTokens? (.value, []) tokens
  | none => none

end Json
end ShellConfig
