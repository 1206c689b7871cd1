import ShellConfig.Source.Cursor

/-!
Patterns: small regular expressions with numbered groups, as readers for a cursor. The ways in
which a pattern can match the front of a text are ordered, a run of characters from the longest to
the empty one and an alternative before the next, and the reader takes the first.
-/

set_option autoImplicit false

namespace ShellConfig

/-- A regular expression that is tried at the front of a text. -/
inductive Pattern where
  /-- Nothing at all. -/
  | empty
  /-- One character of a class. -/
  | one (accepts : Char → Bool)
  /-- Any number of characters of a class, the more the better. -/
  | run (accepts : Char → Bool)
  /-- One pattern and then another. -/
  | seq (first second : Pattern)
  /-- One pattern, or else another. -/
  | either (first second : Pattern)
  /-- A pattern whose text is remembered under a number, from 1. -/
  | group (index : Nat) (inner : Pattern)

namespace Pattern

/-- One character or more of a class. -/
def some (accepts : Char → Bool) : Pattern := .seq (.one accepts) (.run accepts)

/-- The pattern if it matches, else nothing. -/
def optional (pattern : Pattern) : Pattern := .either pattern .empty

/-- One given character. -/
def exactly (c : Char) : Pattern := .one (· = c)

/-- One way to match: the number of characters, and the texts of the groups that took part. -/
structure Outcome where
  /-- The number of characters. -/
  length : Nat
  /-- The remembered texts under their numbers. -/
  groups : List (Nat × String)

/-- All ways to match the front of the text, the preferred one first. -/
def outcomes : Pattern → List Char → List Outcome
  | .empty, _ => [⟨0, []⟩]
  | .one accepts, text => if text.head?.any accepts then [⟨1, []⟩] else []
  | .run accepts, text =>
    (List.range ((text.takeWhile accepts).length + 1)).reverse.map fun length => ⟨length, []⟩
  | .seq first second, text =>
    (first.outcomes text).flatMap fun before =>
      (second.outcomes (text.drop before.length)).map fun after =>
        ⟨before.length + after.length, before.groups ++ after.groups⟩
  | .either first second, text => first.outcomes text ++ second.outcomes text
  | .group index inner, text =>
    (inner.outcomes text).map fun outcome =>
      ⟨outcome.length, (index, String.ofList (text.take outcome.length)) :: outcome.groups⟩

/-- The greatest number of a group. -/
def groupCount : Pattern → Nat
  | .empty | .one _ | .run _ => 0
  | .seq first second | .either first second => max first.groupCount second.groupCount
  | .group index inner => max index inner.groupCount

/-- Reads the preferred match. Its value lists the whole text and then the groups in order, without
a text for those that took no part. -/
def reader (pattern : Pattern) : Reader (List (Option String)) := fun text =>
  (pattern.outcomes text).head?.map fun outcome =>
    ⟨outcome.length,
      Option.some (String.ofList (text.take outcome.length)) ::
        (List.range pattern.groupCount).map fun index => outcome.groups.lookup (index + 1)⟩

example : (reader (.seq (.group 1 (some Char.isLower)) (exactly '='))) "key=v".toList =
    Option.some ⟨4, [Option.some "key=", Option.some "key"]⟩ := by decide +kernel

end Pattern

end ShellConfig
