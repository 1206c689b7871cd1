import ShellConfig.Text.Blank

/-!
Words as they are written in a configuration text. A bare word stands for itself; any other word is
put in single quotes, between which nothing is special but the closing quote, so a quote in the word
closes the quotes, is written after a backslash, and opens them again.
-/

set_option autoImplicit false

namespace ShellConfig

/-- Whether the character stands for itself outside quotes and ends no word. -/
def isBareChar (c : Char) : Bool :=
  !(c = '\\' || c = '\'' || c = '"' || c = '$' || c = '#' || isBlank c)

/-- Whether the word can be written as it is. -/
def isBareWord (word : String) : Bool := !word.toList.isEmpty && word.toList.all isBareChar

/-- A character as it is written between single quotes. -/
def escapeChar (c : Char) : List Char := if c = '\'' then ['\'', '\\', '\'', '\''] else [c]

/-- A word as it is written. -/
def escape (word : String) : String :=
  if isBareWord word then word
  else String.ofList ('\'' :: word.toList.flatMap escapeChar ++ ['\''])

/-- The words of a line as they are written, one space apart. -/
def escapeLine (words : List String) : String := String.intercalate " " (words.map escape)

theorem escape_eq_self_of_isBareWord {word : String} (h : isBareWord word) : escape word = word :=
  if_pos h

example : escape "it's" = "'it'\\''s'" := by decide +kernel
example : escapeLine ["a b", "", "c"] = "'a b' '' c" := by decide +kernel

end ShellConfig
