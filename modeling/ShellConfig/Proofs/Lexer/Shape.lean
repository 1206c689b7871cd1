import ShellConfig.Proofs.Config.Shape
import ShellConfig.Proofs.Correspondence
import ShellConfig.Proofs.Lexer.LineStarts

/-!
Scans of one text into configurations of one shape. They are at the same place of the text, in words
and lines that differ in their texts only (`Lexer.SameShape`), and so take the same steps
(`Lexer.relates_sameStep`) until a line is a directive, which is given the words themselves. A text
of which no line is one (`HasDirective`) is therefore scanned alike from its beginning to its end
(`Scope.relates_evaluate`).
-/

set_option autoImplicit false

namespace ShellConfig
open Correspondence

/-- A line of the text is a directive, whatever the session is. -/
def HasDirective (text : String) : Prop :=
  ∃ lexer, Lexer.Occurs text .beginOfLine lexer ∧ lexer.beginLine.pending = .directive

/-- A text without a dot has no directive. -/
theorem HasDirective.dot_mem {text : String} (h : HasDirective text) : '.' ∈ text.toList := by
  obtain ⟨lexer, hoccurs, hp⟩ := h
  obtain ⟨tail, hbegins⟩ := hoccurs.dot_of_beginLine hp
  rw [hoccurs.beginLine.text_eq_append, hbegins.rest, String.toList_append, String.toList_ofList]
  exact List.mem_append_right _ (List.mem_cons_self ..)

namespace Lexer

theorem Occurs.pending_ne {text : String} {mode : Mode} {lexer : Lexer}
    (htext : ¬ HasDirective text) (h : Occurs text mode lexer) : lexer.pending ≠ .directive := by
  induction h with
  | start => exact nofun
  | @step scope mode next lexer after session last hoccurs hstep ih =>
    obtain ⟨rfl, -, rfl, -⟩ | ⟨-, -, rfl, -⟩ | ⟨read, hm, -, hread, -⟩ | ⟨-, -, hread⟩ |
      ⟨reader, -, -, hread⟩ := step_cases hstep
    · exact fun hp => htext ⟨lexer, hoccurs, hp⟩
    · exact ih
    · exact (cursor_of_reads hm hread).2 ▸ ih
    · exact (cursor_of_readReference hread).2 ▸ ih
    · obtain ⟨length, rfl, -⟩ := cursor_of_readLineEnd hread
      exact nofun

/-! ## States of one shape -/

/-- The scans are at one place, with a word begun in both or in none, and as many words before
it. -/
structure SameShape (left right : Lexer) : Prop where
  cursor : left.cursor = right.cursor
  quote : left.quote = right.quote
  word : left.word.isSome = right.word.isSome
  line : left.line.length = right.line.length
  lineStart : left.lineStart = right.lineStart
  pending : left.pending = right.pending

section
variable {left right : Lexer} (h : left.SameShape right)
include h

theorem SameShape.take (length : Nat) : (left.take length).SameShape (right.take length) :=
  { h with cursor := by rw [Lexer.take, Lexer.take, h.cursor] }

theorem SameShape.addText (start : Nat) (text other : String) :
    (left.addText start text).SameShape (right.addText start other) :=
  { h with
    word := rfl
    lineStart := by rw [Lexer.addText, Lexer.addText, h.lineStart] }

/-- There are as many words on both lines when the current one is completed. -/
theorem SameShape.length_line :
    (left.line ++ left.word.toList).length = (right.line ++ right.word.toList).length := by
  have hword := h.word
  rw [List.length_append, List.length_append, h.line]
  cases hleft : left.word <;> cases hright : right.word <;> simp_all

theorem SameShape.endWord : left.endWord.SameShape right.endWord :=
  { h with
    word := rfl
    line := h.length_line }

theorem SameShape.addWords (start : Nat) {words others : List String}
    (hlength : words.length = others.length) :
    (left.addWords start words).SameShape (right.addWords start others) where
  cursor := h.cursor
  quote := h.quote
  word := rfl
  line := by
    have hline := h.length_line
    rw [Lexer.addWords, Lexer.addWords]
    simp only [List.length_append] at hline ⊢
    rw [hline, hlength]
  lineStart := by rw [Lexer.addWords, Lexer.addWords, h.lineStart]
  pending := h.pending

theorem SameShape.clearLine : left.clearLine.SameShape right.clearLine :=
  ⟨h.cursor, h.quote, rfl, rfl, rfl, rfl⟩

theorem SameShape.beginLine : left.beginLine.SameShape right.beginLine := by
  have hnext := h.take (Token.lineBeginning right.cursor.rest).length
  have hpeek := congrArg Cursor.peek hnext.cursor
  unfold Lexer.beginLine
  rw [h.cursor]
  simp only
  cases (Token.lineBeginning right.cursor.rest).value with
  | some found => exact { hnext with pending := rfl }
  | none =>
    simp only [hpeek]
    split
    · exact { hnext with pending := rfl }
    · exact hnext

end

/-! ## Pieces -/

/-- Two pieces are read to states of one shape, or fail alike. -/
def SamePiece : Except LexFailure Lexer → Except LexFailure Lexer → Prop
  | .ok left, .ok right => left.SameShape right
  | .error failure, .error other => failure = other
  | _, _ => False

section
variable {left right : Lexer}

theorem failure_eq (h : left.cursor = right.cursor) (fault : LexFault) :
    left.failure fault = right.failure fault := by rw [failure, failure, h]

theorem SameShape.reads (h : left.SameShape right) {mode : Mode}
    {read : Lexer → Except LexFailure Lexer} (hm : mode.reads? = some read) :
    SamePiece (read left) (read right) := by
  obtain ⟨found, other, hleft, hright, hshape⟩ | ⟨failure, hleft, hright⟩ :=
    reads_both hm h.cursor h.quote h.take (fun length start text => (h.take length).addText _ _ _)
      (fun length => (h.take length).endWord) (fun quote => { h.take 1 with quote := rfl })
  · rw [hleft, hright]
    exact hshape
  · rw [hleft, hright]
    exact Eq.refl failure

theorem SameShape.nextMode (h : left.SameShape right) : left.nextMode = right.nextMode := by
  rw [nextMode_eq, nextMode_eq, h.cursor, h.quote]

end

end Lexer

/-! ## Steps -/

/-- Evaluations with the same errors and warnings, whose configurations have grown alike from two
given ones. -/
def Correspondence.alike (left right : Config) : Correspondence where
  errors := Eq
  sessions s t := Config.GrowAlike left right s.config t.config ∧ s.warnings = t.warnings

namespace Lexer

section
variable {scope : Scope} {first second : Config} {left right : Lexer} {s t : Session} {mode : Mode}
  (hs : (alike first second).sessions s t)
include hs

theorem relates_samePiece {cursor : Cursor} {found other : Except LexFailure Lexer}
    (hpiece : SamePiece found other) :
    (alike first second).Relates (Continues fun _ => SameShape)
      (scope.continueIn cursor mode found, s) (scope.continueIn cursor mode other, t) := by
  rcases found with failure | found <;> rcases other with failure' | other
  · exact ⟨congrArg (fun failure => scope.lexError cursor failure) hpiece, hs⟩
  · exact hpiece.elim
  · exact hpiece.elim
  · exact ⟨⟨rfl, hpiece⟩, hs⟩

variable (h : left.SameShape right)
include h

/-- Where a variable is not set, it is not set in the other configuration either; and where it is,
it is as many words. -/
theorem relates_sameReference :
    (alike first second).Relates SameShape (left.readReference scope s)
      (right.readReference scope t) := by
  have hquotes : left.inQuotes = right.inQuotes := congrArg Option.isSome h.quote
  rw [readReference_eq, readReference_eq, h.cursor, hquotes]
  cases Token.reference right.cursor.rest with
  | none =>
    rw [failure_eq h.cursor]
    exact ⟨rfl, hs⟩
  | some found =>
    have hnext := h.take found.length
    have halike := Config.expand_alike hs.1.shape found.value right.inQuotes
    simp only
    cases hleft : s.config.expand found.value right.inQuotes <;>
      cases hright : t.config.expand found.value right.inQuotes <;>
      rw [hleft, hright] at halike
    case undefined.undefined =>
      have hplace :
          left.locate scope right.cursor.start = right.locate scope right.cursor.start := by
        rw [locate, locate, h.cursor]
      have hunset : (alike first second).RelatesUnits
          (scope.undefinedVariable found.value.name (right.locate scope right.cursor.start) s)
          (scope.undefinedVariable found.value.name (right.locate scope right.cursor.start) t) := by
        unfold Scope.undefinedVariable
        cases scope.undefined with
        | warn => exact ⟨trivial, hs.1, congrArg (· ++ _) hs.2⟩
        | refuse => exact ⟨rfl, hs⟩
      rw [hplace]
      exact hunset.map fun _ _ _ => hnext
    case joined.joined => exact ⟨hnext.addText _ _ _, hs⟩
    case words.words => exact ⟨hnext.addWords _ halike, hs⟩
    all_goals exact halike.elim

/-- A line that is no directive asks for nothing but its operation. -/
theorem relates_sameLine (hp : left.pending ≠ .directive) :
    (alike first second).RelatesUnits (left.endLine scope s) (right.endLine scope t) := by
  rw [endLine_eq, endLine_eq, called?_eq_none hp, called?_eq_none (h.pending ▸ hp)]
  refine ⟨trivial, ?_, hs.2⟩
  have hgrow := left.pending.growAlike_apply hs.1 h.endWord.line
  unfold applied
  rwa [h.pending] at hgrow ⊢

theorem relates_sameLineEnd (hp : left.pending ≠ .directive) (reader : Reader Unit) :
    (alike first second).Relates SameShape (left.readLineEnd scope reader s)
      (right.readLineEnd scope reader t) := by
  rw [readLineEnd_eq, readLineEnd_eq, h.cursor]
  cases reader right.cursor.rest with
  | none =>
    rw [failure_eq h.cursor]
    exact ⟨rfl, hs⟩
  | some found =>
    have hline : (alike first second).RelatesUnits ((left.take found.length).endLine scope s)
        ((right.take found.length).endLine scope t) := relates_sameLine hs (h.take _) hp
    exact hline.map fun _ _ _ => (h.take found.length).clearLine

/-- Scans of one shape take one step, if no directive is carried out in it. -/
theorem relates_sameStep (hp : left.pending ≠ .directive) :
    (alike first second).Relates (Continues fun _ => SameShape) (step scope mode left s)
      (step scope mode right t) := by
  have hreads {read : Lexer → Except LexFailure Lexer} (hm : mode.reads? = some read) :
      (alike first second).Relates (Continues fun _ => SameShape) (step scope mode left s)
        (step scope mode right t) := by
    rw [step_of_reads hm, step_of_reads hm, h.cursor]
    exact relates_samePiece hs (h.reads hm)
  cases mode with
  | beginOfLine => exact ⟨⟨rfl, h.beginLine⟩, hs⟩
  | dispatch =>
    simp only [step, h.nextMode, h.cursor]
    cases right.nextMode with
    | ok next => exact ⟨⟨rfl, h⟩, hs⟩
    | error failure => exact ⟨rfl, hs⟩
  | bareText | quotedText | whiteSpace | backslash | singleQuoted | doubleQuote =>
    exact hreads rfl
  | reference => exact (relates_sameReference hs h).map fun _ _ hnext => ⟨rfl, hnext⟩
  | comment | lineBreak =>
    rw [step_of_ends rfl, step_of_ends rfl]
    exact (relates_sameLineEnd hs h hp _).map fun _ _ hnext => ⟨rfl, hnext⟩
  | finish => exact (relates_sameLine hs h hp).map fun _ _ _ => trivial

end

end Lexer

/-- A text without directives does the same to configurations of one shape. The induction is on the
run of one scan; that its states occur in the scan of the text keeps them from being directives. -/
theorem Scope.relates_evaluate {scope : Scope} {text : String} {first second : Config}
    {s t : Session} (htext : ¬ HasDirective text) (hs : (alike first second).sessions s t) :
    (alike first second).RelatesUnits (scope.evaluate text s) (scope.evaluate text t) := by
  have hstep : ∀ mode left right s t,
      Lexer.Occurs text mode left ∧ left.SameShape right → (alike first second).sessions s t →
        (alike first second).Relates
          (Continues fun mode left right => Lexer.Occurs text mode left ∧ left.SameShape right)
          (Lexer.step scope mode left s) (Lexer.step scope mode right t) := by
    intro mode left right s t ⟨hoccurs, hshape⟩ hs
    have hrelates : (alike first second).Relates (Continues fun _ => Lexer.SameShape)
        (Lexer.step scope mode left s) (Lexer.step scope mode right t) :=
      Lexer.relates_sameStep hs hshape (hoccurs.pending_ne htext)
    cases hleft : Lexer.step scope mode left s with
    | mk result last =>
      cases hright : Lexer.step scope mode right t with
      | mk other finish =>
        rw [hleft, hright] at hrelates
        rcases result with _ | _ | ⟨next, after⟩ <;> rcases other with _ | _ | ⟨mode', found⟩ <;>
          try exact hrelates
        obtain ⟨⟨rfl, hnext⟩, hlast⟩ := hrelates
        exact ⟨⟨rfl, hoccurs.step hleft, hnext⟩, hlast⟩
  exact run_relates hstep ⟨.start, rfl, rfl, rfl, rfl, rfl, rfl⟩ hs

end ShellConfig
