import ShellConfig.Config.Word
import ShellConfig.Line.Reference
import ShellConfig.Source.Cursor
import ShellConfig.Text.Identifier

/-!
The pieces from which a configuration text is built, each as a reader for the front of the text. A
line ends with `\n` or `\r\n`; a `\r` alone ends nothing. The beginning of a line may be empty;
every other piece has at least one character (`Consumes`).
-/

set_option autoImplicit false

namespace ShellConfig
namespace Token

/-- The reader takes at least one character, and so finds nothing at the end of a text. -/
def Consumes {α : Type} (reader : Reader α) : Prop :=
  ∀ (text : List Char) (found : Match α),
    reader text = some found → 0 < found.length ∧ text ≠ []

/-! ## Runs of characters -/

/-- The number of characters in the line ends at the front of the text. -/
def lineEndsLength : List Char → Nat
  | '\n' :: rest => lineEndsLength rest + 1
  | '\r' :: '\n' :: rest => lineEndsLength rest + 2
  | _ => 0

/-- The number of characters in the blanks and line ends at the front of the text. -/
def blankLinesLength : List Char → Nat
  | [] => 0
  | '\n' :: rest => blankLinesLength rest + 1
  | '\r' :: '\n' :: rest => blankLinesLength rest + 2
  | c :: rest => if isInlineBlank c then blankLinesLength rest + 1 else 0

/-- The number of characters in the blanks and joined lines at the front of the text. A backslash
before a line end joins two lines. -/
def separatorLength : List Char → Nat
  | [] => 0
  | '\\' :: '\n' :: rest => separatorLength rest + 2
  | '\\' :: '\r' :: '\n' :: rest => separatorLength rest + 3
  | c :: rest => if isInlineBlank c then separatorLength rest + 1 else 0

/-- A run of at least one character of a class. -/
def run (accepts : Char → Bool) : Reader String := fun text =>
  match text.takeWhile accepts with
  | [] => none
  | found => some ⟨found.length, String.ofList found⟩

/-- The text before the first closing character, if there is one. -/
def upTo (closing : Char) (text : List Char) : Option (List Char) :=
  if closing ∈ text then some (text.takeWhile (· ≠ closing)) else none

/-! ## The beginning of a line -/

/-- The sign at the front of the text, if there is one. -/
def assignmentSign : List Char → List Char
  | '+' :: _ => ['+']
  | '?' :: _ => ['?']
  | _ => []

/-- The name and sign of an assignment, with its `=` and the blanks around it. -/
def assignment : Reader (String × String)
  | [] => none
  | c :: rest =>
    if isIdentifierStart c then
      let tail := rest.takeWhile isIdentifierRest
      let afterName := rest.dropWhile isIdentifierRest
      let gap := afterName.takeWhile isPlainBlank
      let afterGap := afterName.dropWhile isPlainBlank
      let sign := assignmentSign afterGap
      match afterGap.drop sign.length with
      | '=' :: values =>
        some ⟨1 + tail.length + gap.length + sign.length + 1
            + (values.takeWhile isPlainBlank).length,
          (String.ofList (c :: tail), String.ofList sign)⟩
      | _ => none
    else none

/-- Blanks and empty lines, and then the name and sign of an assignment if there is one. -/
def lineBeginning (text : List Char) : Match (Option (String × String)) :=
  let blanks := blankLinesLength text
  match assignment (text.drop blanks) with
  | some found => ⟨blanks + found.length, some found.value⟩
  | none => ⟨blanks, none⟩

/-! ## Within a line -/

/-- Text that stands for itself outside quotes. -/
def bareText : Reader String := run isBareChar

/-- Whether the character stands for itself between double quotes. -/
def isQuotedChar (c : Char) : Bool := !(c = '\\' || c = '"' || c = '$')

/-- Text that stands for itself between double quotes. -/
def quotedText : Reader String := run isQuotedChar

/-- Blanks and joined lines. -/
def separator : Reader Unit := fun text =>
  match separatorLength text with
  | 0 => none
  | length => some ⟨length, ()⟩

/-- A backslash and the character that it makes literal, or none if it joins two lines. -/
def escaped : Reader (Option Char)
  | '\\' :: '\n' :: _ => some ⟨2, none⟩
  | '\\' :: '\r' :: '\n' :: _ => some ⟨3, none⟩
  | '\\' :: c :: _ => some ⟨2, some c⟩
  | _ => none

/-- A text between single quotes. -/
def singleQuoted : Reader String
  | '\'' :: rest => (upTo '\'' rest).map fun body => ⟨body.length + 2, String.ofList body⟩
  | _ => none

/-- One double quote. -/
def doubleQuote : Reader Unit
  | '"' :: _ => some ⟨1, ()⟩
  | _ => none

/-- Two double quotes with nothing between them. -/
def emptyQuotes : Reader Unit
  | '"' :: '"' :: _ => some ⟨2, ()⟩
  | _ => none

/-- Whether the character is a name of a variable by itself. -/
def isSpecialName (c : Char) : Bool := c.isDigit || "-#!$%&*+,.:;<=>?@^_/|~".toList.contains c

/-- A reference: a dollar sign and a special name, an identifier, or a text between braces. -/
def reference : Reader Reference
  | '$' :: c :: rest =>
    if isSpecialName c then some ⟨2, .plain (String.singleton c)⟩
    else if isIdentifierStart c then
      let tail := rest.takeWhile isIdentifierRest
      some ⟨tail.length + 2, .plain (String.ofList (c :: tail))⟩
    else if c = '{' then
      (upTo '}' rest).map fun body => ⟨body.length + 3, .braced (String.ofList body)⟩
    else none
  | _ => none

/-! ## The end of a line -/

/-- A comment, with the line ends after it. -/
def comment : Reader Unit
  | '#' :: rest =>
    let body := rest.takeWhile (· ≠ '\n')
    some ⟨1 + body.length + lineEndsLength (rest.drop body.length), ()⟩
  | _ => none

/-- Line ends. -/
def lineEnds : Reader Unit := fun text =>
  match lineEndsLength text with
  | 0 => none
  | length => some ⟨length, ()⟩

/-! ## Progress -/

theorem consumes_run (accepts : Char → Bool) : Consumes (run accepts) := by
  intro text found h
  unfold run at h
  split at h
  · simp at h
  · next taken hne =>
    obtain rfl := Option.some.inj h
    have hpos : text.takeWhile accepts ≠ [] := hne
    refine ⟨List.length_pos_iff.2 hpos, ?_⟩
    rintro rfl
    simp at hpos

theorem consumes_separator : Consumes separator := by
  intro text found h
  unfold separator at h
  split at h
  · simp at h
  · next length hne =>
    obtain rfl := Option.some.inj h
    refine ⟨Nat.pos_of_ne_zero hne, ?_⟩
    rintro rfl
    exact hne rfl

theorem consumes_lineEnds : Consumes lineEnds := by
  intro text found h
  unfold lineEnds at h
  split at h
  · simp at h
  · next length hne =>
    obtain rfl := Option.some.inj h
    refine ⟨Nat.pos_of_ne_zero hne, ?_⟩
    rintro rfl
    exact hne rfl

theorem consumes_escaped : Consumes escaped := by
  intro text found h
  unfold escaped at h
  split at h <;> simp_all <;> subst h <;> simp

theorem consumes_singleQuoted : Consumes singleQuoted := by
  intro text found h
  unfold singleQuoted at h
  split at h
  · obtain ⟨body, -, rfl⟩ := Option.map_eq_some_iff.1 h
    simp
  · simp at h

theorem consumes_doubleQuote : Consumes doubleQuote := by
  intro text found h
  unfold doubleQuote at h
  split at h <;> simp_all
  subst h
  simp

theorem consumes_emptyQuotes : Consumes emptyQuotes := by
  intro text found h
  unfold emptyQuotes at h
  split at h <;> simp_all
  subst h
  simp

theorem consumes_reference : Consumes reference := by
  intro text found h
  unfold reference at h
  split at h
  · refine ⟨?_, by simp⟩
    split at h
    · obtain rfl := Option.some.inj h
      simp
    · split at h
      · obtain rfl := Option.some.inj h
        simp
      · split at h
        · obtain ⟨body, -, rfl⟩ := Option.map_eq_some_iff.1 h
          simp
        · simp at h
  · simp at h

theorem consumes_comment : Consumes comment := by
  intro text found h
  unfold comment at h
  split at h
  · obtain rfl := Option.some.inj h
    refine ⟨?_, by simp⟩
    simp only
    omega
  · simp at h

end Token
end ShellConfig
