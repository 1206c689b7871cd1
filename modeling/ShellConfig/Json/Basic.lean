/-!
JSON values, and how they are written. Objects keep the order of their fields, and keep fields that
are repeated. Numbers are kept as they are written, since nothing here counts with them.
-/

set_option autoImplicit false

namespace ShellConfig

/-- The text of a JSON string. An escape can name half of a surrogate pair without the other half,
and then the string stands for no text. -/
abbrev JsonText : Type := Option String

/-- A JSON value. -/
inductive Json where
  /-- The value `null`. -/
  | null
  /-- A truth value. -/
  | bool (value : Bool)
  /-- A number as it is written. -/
  | number (digits : String)
  /-- A string. -/
  | string (text : JsonText)
  /-- A list of values. -/
  | array (items : List Json)
  /-- Fields with their values. -/
  | object (fields : List (JsonText × Json))

namespace Json

/-- A list of strings. -/
def ofStrings (texts : List String) : Json := .array (texts.map fun text => .string (some text))

/-- The texts of a list of strings. -/
def strings? : Json → Option (List String)
  | .array items => items.mapM fun item =>
    match item with
    | .string text => text
    | _ => none
  | _ => none

/-! ## Writing -/

/-- A character as it is written between the quotes of a string. -/
def stringChar (c : Char) : List Char :=
  if c = '"' then ['\\', '"']
  else if c = '\\' then ['\\', '\\']
  else if c = '\x08' then ['\\', 'b']
  else if c = '\x0c' then ['\\', 'f']
  else if c = '\n' then ['\\', 'n']
  else if c = '\r' then ['\\', 'r']
  else if c = '\t' then ['\\', 't']
  else if c.toNat < 0x20 then
    ['\\', 'u', '0', '0', Nat.digitChar (c.toNat / 16), Nat.digitChar (c.toNat % 16)]
  else [c]

/-- A string as it is written. -/
def stringText : JsonText → String
  | some text => String.ofList ('"' :: text.toList.flatMap stringChar ++ ['"'])
  | none => "\"\\ud800\""

/-- How values are laid out: on one line, or with the parts of each on lines of their own, two
spaces further in than the line on which it begins. -/
inductive Layout where
  /-- On one line, without blanks. -/
  | compact
  /-- On many lines, the first of which is so many steps in. -/
  | indented (depth : Nat)

namespace Layout

/-- The layout of the parts of a value. -/
def inner : Layout → Layout
  | compact => compact
  | indented depth => indented (depth + 1)

/-- What begins a line. -/
def lineStart : Layout → String
  | compact => ""
  | indented depth => "\n" ++ String.ofList (List.replicate (2 * depth) ' ')

/-- What stands between the name of a field and its value. -/
def colon : Layout → String
  | compact => ":"
  | indented _ => ": "

/-- The parts of a value between its brackets. -/
def bracket (layout : Layout) (opening closing : String) (parts : List String) : String :=
  if parts.isEmpty then opening ++ closing
  else
    opening ++ layout.inner.lineStart
      ++ String.intercalate ("," ++ layout.inner.lineStart) parts
      ++ layout.lineStart ++ closing

end Layout

mutual

/-- A value as it is written. -/
def print (layout : Layout) : Json → String
  | .null => "null"
  | .bool true => "true"
  | .bool false => "false"
  | .number digits => digits
  | .string text => stringText text
  | .array items => layout.bracket "[" "]" (printItems layout.inner items)
  | .object fields => layout.bracket "\x7b" "\x7d" (printFields layout.inner fields)

/-- The items of a list as they are written. -/
def printItems (layout : Layout) : List Json → List String
  | [] => []
  | item :: rest => print layout item :: printItems layout rest

/-- The fields of an object as they are written. -/
def printFields (layout : Layout) : List (JsonText × Json) → List String
  | [] => []
  | (name, value) :: rest =>
    (stringText name ++ layout.colon ++ print layout value) :: printFields layout rest

end

/-- A value on one line. -/
def compactText (value : Json) : String := value.print .compact

/-- A value on many lines. -/
def indentedText (value : Json) : String := value.print (.indented 0)

end Json

end ShellConfig
