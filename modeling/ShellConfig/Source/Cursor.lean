import ShellConfig.Source.Position

/-!
A cursor over a text. The text lies in three parts: what has been handed out, the lexeme that is
being gathered, and what is still to come. The first seam is the commit point, the second is where
the cursor stands. No operation changes the text (`text_take`, `text_advance`, `text_retreat`,
`text_commit`), so both seams always lie between whole characters, and only `commit` moves the
commit point.
-/

set_option autoImplicit false

namespace ShellConfig

/-- What a reader finds at the front of a text. -/
structure Match (α : Type) where
  /-- The number of characters that belong to it. -/
  length : Nat
  /-- What they mean. -/
  value : α
deriving DecidableEq

/-- A way to read something off the front of a text. -/
abbrev Reader (α : Type) : Type := List Char → Option (Match α)

/-- A text, and how far it has been read and handed out. -/
structure Cursor where
  /-- The text before the commit point. -/
  passed : String
  /-- The text from the commit point to where the cursor stands. -/
  lexeme : String
  /-- The text from there on. -/
  rest : List Char
  /-- The number of characters that the last step took, which `retreat` gives back. -/
  width : Nat

namespace Cursor

/-- The cursor at the beginning of a text. -/
def ofText (text : String) : Cursor := ⟨"", "", text.toList, 0⟩

/-- The whole text. -/
def text (cursor : Cursor) : String :=
  cursor.passed ++ cursor.lexeme ++ String.ofList cursor.rest

/-- The byte offset of the commit point. -/
def start (cursor : Cursor) : Nat := cursor.passed.utf8ByteSize

/-- The byte offset at which the cursor stands. -/
def offset (cursor : Cursor) : Nat := cursor.start + cursor.lexeme.utf8ByteSize

/-- The next character. -/
def peek (cursor : Cursor) : Option Char := cursor.rest.head?

/-- Moves the cursor over so many characters, or to the end. -/
def take (cursor : Cursor) (length : Nat) : Cursor :=
  { cursor with
    lexeme := cursor.lexeme ++ String.ofList (cursor.rest.take length)
    rest := cursor.rest.drop length
    width := min length cursor.rest.length }

/-- Moves the cursor over the next character and returns it. -/
def advance (cursor : Cursor) : Option Char × Cursor := (cursor.peek, cursor.take 1)

/-- Moves the cursor back over what the last step took, but not beyond the commit point. Only one
step is remembered. -/
def retreat (cursor : Cursor) : Cursor :=
  let gathered := cursor.lexeme.toList
  let kept := gathered.length - cursor.width
  { cursor with
    lexeme := String.ofList (gathered.take kept)
    rest := gathered.drop kept ++ cursor.rest
    width := 0 }

/-- Reads something and moves over it. A reader that finds nothing moves nothing. -/
def match? {α : Type} (cursor : Cursor) (reader : Reader α) : Option (α × Cursor) :=
  (reader cursor.rest).map fun found => (found.value, cursor.take found.length)

/-- The lexeme, and the cursor with the commit point moved up to it. -/
def commit (cursor : Cursor) : String × Cursor :=
  (cursor.lexeme, { cursor with passed := cursor.passed ++ cursor.lexeme, lexeme := "" })

/-- The place of a byte offset in the text. -/
def positionOf (cursor : Cursor) (offset : Nat) : Position :=
  Position.ofOffset cursor.text offset

/-! ## The text stays -/

theorem text_ofText (text : String) : (ofText text).text = text := by
  simp [ofText, Cursor.text]

@[simp] theorem text_take (cursor : Cursor) (length : Nat) :
    (cursor.take length).text = cursor.text := by
  unfold take text
  simp only [String.append_assoc]
  rw [← String.ofList_append, List.take_append_drop]

@[simp] theorem text_advance (cursor : Cursor) : cursor.advance.2.text = cursor.text :=
  text_take cursor 1

@[simp] theorem text_retreat (cursor : Cursor) : cursor.retreat.text = cursor.text := by
  apply String.ext
  simp only [retreat, text, String.toList_append, String.toList_ofList]
  rw [List.append_assoc, ← List.append_assoc (List.take _ _), List.take_append_drop,
    ← List.append_assoc]

@[simp] theorem text_commit (cursor : Cursor) : cursor.commit.2.text = cursor.text := by
  simp [commit, text]

@[simp] theorem start_take (cursor : Cursor) (length : Nat) :
    (cursor.take length).start = cursor.start := rfl

@[simp] theorem start_retreat (cursor : Cursor) : cursor.retreat.start = cursor.start := rfl

theorem start_commit (cursor : Cursor) : cursor.commit.2.start = cursor.offset := by
  simp [commit, start, offset]

@[simp] theorem offset_commit (cursor : Cursor) : cursor.commit.2.offset = cursor.offset := by
  simp [commit, start, offset]

theorem start_le_offset (cursor : Cursor) : cursor.start ≤ cursor.offset :=
  Nat.le_add_right _ _

end Cursor

end ShellConfig
