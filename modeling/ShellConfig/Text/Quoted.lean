import ShellConfig.Text.Combining
import ShellConfig.Text.Printable

/-!
The quoted form in which messages show a name: in double quotes, with what cannot be shown as it is
written as an escape. A quoted text is always one line, and shows no character that a terminal would
hide or merge with its neighbour.
-/

set_option autoImplicit false

namespace ShellConfig

/-- The escape that gives a character by its code point, in lower case and without padding. -/
def codePointEscape (c : Char) : List Char :=
  ['\\', 'u', '\x7b'] ++ Nat.toDigits 16 c.toNat ++ ['\x7d']

/-- A character as the quoted form shows it. -/
def quotedChar (c : Char) : List Char :=
  if c = '\x00' then ['\\', '0']
  else if c = '\t' then ['\\', 't']
  else if c = '\r' then ['\\', 'r']
  else if c = '\n' then ['\\', 'n']
  else if c = '\\' then ['\\', '\\']
  else if c = '"' then ['\\', '"']
  else if isCombining c then codePointEscape c
  else if isPrintable c then [c]
  else codePointEscape c

/-- The text in double quotes, with escapes. -/
def quoted (text : String) : String :=
  String.ofList ('"' :: text.toList.flatMap quotedChar ++ ['"'])

example : quoted "it's \"é\"\n\u200b" = "\"it's \\\"é\\\"\\n\\u\x7b200b\x7d\"" := by decide +kernel

end ShellConfig
