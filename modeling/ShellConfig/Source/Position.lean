/-!
Places in a text. A position counts lines and columns from 1, columns in characters, and knows its
distance from the beginning of the text in UTF-8 bytes. Main statements: advancing over `left ++
right` is advancing over `left` and then over `right`, and the position of an offset is the one
reached by advancing over the whole characters before it.
-/

set_option autoImplicit false

namespace ShellConfig

/-- A place in a text. -/
structure Position where
  /-- The number of the line, from 1. -/
  line : Nat
  /-- The number of the character in its line, from 1. -/
  column : Nat
  /-- The number of bytes before the place. -/
  offset : Nat
deriving DecidableEq

namespace Position

/-- The beginning of a text. -/
def start : Position := ⟨1, 1, 0⟩

instance : Inhabited Position := ⟨start⟩

/-- The place after one more character: a line feed begins a line, any other one takes a column. -/
def advance (position : Position) (c : Char) : Position :=
  if c = '\n' then ⟨position.line + 1, 1, position.offset + c.utf8Size⟩
  else ⟨position.line, position.column + 1, position.offset + c.utf8Size⟩

/-- The place after more characters. -/
def advanceBy (position : Position) (text : List Char) : Position := text.foldl advance position

/-- The longest run of whole characters at the front of the text that takes at most so many bytes.
-/
def charsWithin : Nat → List Char → List Char
  | _, [] => []
  | bytes, c :: rest =>
    if c.utf8Size ≤ bytes then c :: charsWithin (bytes - c.utf8Size) rest else []

/-- The place of a byte offset. An offset beyond the end stands for the end, and one inside a
character for the beginning of that character. -/
def ofOffset (text : String) (offset : Nat) : Position :=
  start.advanceBy (charsWithin offset text.toList)

/-- The place as messages show it. -/
def display (position : Position) : String :=
  toString position.line ++ ":" ++ toString position.column

@[simp] theorem advanceBy_nil (position : Position) : position.advanceBy [] = position := rfl

@[simp] theorem advanceBy_cons (position : Position) (c : Char) (rest : List Char) :
    position.advanceBy (c :: rest) = (position.advance c).advanceBy rest := rfl

theorem advanceBy_append (position : Position) (left right : List Char) :
    position.advanceBy (left ++ right) = (position.advanceBy left).advanceBy right :=
  List.foldl_append

@[simp] theorem offset_advance (position : Position) (c : Char) :
    (position.advance c).offset = position.offset + c.utf8Size := by
  unfold advance
  split <;> rfl

/-- The text begins with the characters within any number of bytes. -/
theorem charsWithin_append_drop (bytes : Nat) (text : List Char) :
    charsWithin bytes text ++ text.drop (charsWithin bytes text).length = text := by
  induction text generalizing bytes with
  | nil => simp [charsWithin]
  | cons c rest ih =>
    rw [charsWithin]
    split
    · simp [ih]
    · simp

end Position

/-- A place in a named text. -/
structure Location where
  /-- The name of the text: a file's path, or a name given to text that has no file. -/
  source : String
  /-- The place in it. -/
  position : Position
deriving DecidableEq

namespace Location

instance : Inhabited Location := ⟨⟨"", Position.start⟩⟩

/-- The place of a byte offset in a named text. -/
def ofOffset (source text : String) (offset : Nat) : Location :=
  ⟨source, Position.ofOffset text offset⟩

/-- The place as messages show it. -/
def display (location : Location) : String :=
  location.source ++ ":" ++ location.position.display

end Location

end ShellConfig
