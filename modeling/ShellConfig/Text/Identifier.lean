import ShellConfig.Text.Letter
import ShellConfig.Text.Number

/-!
Identifiers: a letter or an underscore, and then any run of letters, numbers and underscores. They
are the names that an assignment can give a value to.
-/

set_option autoImplicit false

namespace ShellConfig

/-- Whether an identifier can begin with the character. -/
def isIdentifierStart (c : Char) : Bool := c = '_' || isLetter c

/-- Whether an identifier can go on with the character. -/
def isIdentifierRest (c : Char) : Bool := c = '_' || isLetter c || isNumber c

/-- Whether the characters form one identifier. -/
def isIdentifierText : List Char → Bool
  | [] => false
  | c :: rest => isIdentifierStart c && rest.all isIdentifierRest

/-- Whether the name is an identifier. -/
def isIdentifier (name : String) : Bool := isIdentifierText name.toList

theorem isIdentifierRest_of_start {c : Char} (h : isIdentifierStart c) : isIdentifierRest c := by
  simp only [isIdentifierStart, isIdentifierRest, Bool.or_eq_true] at h ⊢
  exact .inl h

end ShellConfig
