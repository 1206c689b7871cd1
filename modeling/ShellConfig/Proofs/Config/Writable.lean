import ShellConfig.Config.Serialize
import ShellConfig.Proofs.Quoting.Assignment
import ShellConfig.Proofs.Quoting.Escape

/-!
The configurations that can be written. A line can only be written if it is not empty and its escaped
form begins neither a directive nor an assignment; a variable, if its name is an identifier. Main
statements: evaluating the text of one variable sets it (`readLines_assignmentText`), and evaluating
the text of a line that can be written receives it (`readLines_escapeLine`).
-/

set_option autoImplicit false

namespace ShellConfig

/-- A line whose escaped form does not look like something else. -/
structure WritableLine (words : List String) : Prop where
  nonempty : words ≠ []
  noDirective : ∀ first ∈ words.head?, ¬ (isBareWord first ∧ first.toList.head? = some '.')
  noAssignment : ¬ Token.BeginsAssignment (escapeLine words).toList

/-- A configuration whose text describes it. -/
structure Config.Writable (config : Config) : Prop where
  names : ∀ name ∈ config.names, isIdentifier name
  lines : ∀ words ∈ config.lines, WritableLine words

/-! ## The first character of a line -/

theorem isBlank_of_isBareChar {c : Char} (h : isBareChar c) : isBlank c = false := by
  simp only [isBareChar, Bool.not_eq_true', Bool.or_eq_false_iff] at h
  exact h.2

/-- An escaped word begins with no blank, and begins with a dot just if it is a bare word that
does. -/
theorem head_escape (word : String) : ∃ c rest, (escape word).toList = c :: rest ∧
    isBlank c = false ∧ (c = '.' ↔ isBareWord word ∧ word.toList.head? = some '.') := by
  unfold escape
  split
  · next h =>
    obtain ⟨hne, hbare⟩ := isBareWord_iff.1 h
    cases hchars : word.toList with
    | nil => exact absurd hchars hne
    | cons c rest =>
      have hc : isBareChar c := hbare c (by rw [hchars]; exact List.mem_cons_self)
      exact ⟨c, rest, rfl, isBlank_of_isBareChar hc, by simp [h]⟩
  · next h =>
    exact ⟨'\'', _, String.toList_ofList, by decide, by simp [h]⟩

theorem head_escapeLine (word : String) (words : List String) :
    ∃ c rest, (escapeLine (word :: words)).toList = c :: rest ∧ isBlank c = false ∧
      (c = '.' ↔ isBareWord word ∧ word.toList.head? = some '.') := by
  obtain ⟨c, rest, hescape, hc⟩ := head_escape word
  exact ⟨c, _, by rw [escapeLine_cons, hescape, List.cons_append], hc⟩

/-! ## One piece -/

section
variable {scope : Scope} (hscope : scope.IgnoresPositions) (session : Session)
include hscope

theorem Scope.readLines_assignmentText {name : String} (hname : isIdentifier name)
    (values : List String) :
    scope.readLines (Config.assignmentText name values).toList session =
      Outcome.unplaced (.ok (), { session with config := session.config.set name values }) := by
  have hread := (WrittenLine.ofWords [] values).readLines_assignment hscope hname session
  rw [WrittenLine.text_ofWords, WrittenLine.values_ofWords, List.flatMap_nil, List.nil_append,
    String.ofList_toList] at hread
  exact hread

theorem Scope.readLines_escapeLine {words : List String} (h : WritableLine words) :
    scope.readLines (escapeLine words).toList session =
      Outcome.unplaced
        (.ok (), { session with config := session.config.receiveLine words }) := by
  rcases words with _ | ⟨word, words⟩
  · exact absurd rfl h.nonempty
  · obtain ⟨c, rest, htext, hblank, hdot⟩ := head_escapeLine word words
    have hc : c ≠ '.' := fun heq => h.noDirective word rfl (hdot.1 heq)
    have hnone := h.noAssignment
    rw [htext] at hnone
    have hline := WrittenLine.text_ofWords [] (word :: words)
    rw [List.flatMap_nil, List.nil_append] at hline
    rw [htext, readLines_of_not_isBlank hscope hblank hnone, if_neg hc, ← htext, ← hline]
    refine (WrittenLine.ofWords [] (word :: words)).read_line hscope ?_
    rw [WrittenLine.values_ofWords]
    rfl

end

end ShellConfig
