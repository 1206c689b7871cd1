import ShellConfig.Proofs.Lexer.Coupling
import ShellConfig.Proofs.Lexer.Returns
import ShellConfig.Proofs.Source.Positions

/-!
The scan of a text beside that of the text with returns before its line feeds. Both go through the
same states, up to the returns in what they have read and in what is to come
(`Lexer.WithReturns`), and corresponding places have the same line and column
(`unmeasured_withReturns`). So the two evaluations differ in byte offsets only
(`Scope.relates_withReturns`).
-/

set_option autoImplicit false

namespace ShellConfig
open Correspondence

/-! ## Positions without byte offsets -/

def Position.unmeasured (position : Position) : Position := { position with offset := 0 }

def Location.unmeasured (location : Location) : Location :=
  ⟨location.source, location.position.unmeasured⟩

def Warning.unmeasured (warning : Warning) : Warning :=
  ⟨warning.name, warning.location.unmeasured⟩

/-- The error without the byte offset of its place. The cause of a directive that gave up is kept as
it is. -/
def Error.unmeasured : Error → Error
  | .lexical fault location => .lexical fault location.unmeasured
  | .directive fault location => .directive fault location.unmeasured
  | .file path location fault => .file path (location.map Location.unmeasured) fault

/-- The evaluations differ in byte offsets only. -/
def sameLines : Coupling where
  errors left right := left.unmeasured = right.unmeasured
  sessions s t := s.config = t.config ∧
    s.warnings.map Warning.unmeasured = t.warnings.map Warning.unmeasured
  places here there := here.unmeasured = there.unmeasured
  excused _ := False
  places_refl _ := rfl
  config_eq hs := hs.1
  update _ hs := ⟨rfl, hs.2⟩
  warn name hs hplaces := by
    refine ⟨hs.1, ?_⟩
    simp only [Session.warn, List.map_append, hs.2, List.map_cons, List.map_nil,
      Warning.unmeasured, hplaces]
  lexical fault hplaces := congrArg (Error.lexical fault) hplaces
  directive fault _ hplaces := congrArg (Error.directive fault) hplaces
  file path fault hplaces := congrArg (fun place => Error.file path (some place) fault) hplaces

namespace Position

theorem unmeasured_advanceBy {position other : Position}
    (h : position.unmeasured = other.unmeasured) (text : List Char) :
    (position.advanceBy (withReturns text)).unmeasured = (other.advanceBy text).unmeasured := by
  induction text generalizing position other with
  | nil => exact h
  | cons c text ih =>
    simp only [unmeasured, Position.mk.injEq, and_true] at h
    by_cases hc : c = '\n'
    · subst hc
      exact ih (by simp [advance, unmeasured, h.1])
    · rw [withReturns_cons hc]
      exact ih (by simp [advance, unmeasured, hc, h.1, h.2])

end Position

/-- The place of an offset when returns have been put before the line feeds. -/
def offsetWithReturns (text : String) (offset : Nat) : Nat :=
  (String.ofList (withReturns (Position.charsWithin offset text.toList))).utf8ByteSize

theorem offsetWithReturns_append (before after : String) :
    offsetWithReturns (before ++ after) before.utf8ByteSize =
      (String.ofList (withReturns before.toList)).utf8ByteSize := by
  have h := Position.charsWithin_append before.toList after.toList 0
  rw [String.ofList_toList, Nat.add_zero, Position.charsWithin_zero, List.append_nil] at h
  rw [offsetWithReturns, String.toList_append, h]

/-- A place keeps its line and its column. -/
theorem unmeasured_withReturns (source text : String) (offset : Nat) :
    (Location.ofOffset source text offset).unmeasured =
      (Location.ofOffset source (String.ofList (withReturns text.toList))
        (offsetWithReturns text offset)).unmeasured := by
  have hsplit := Position.charsWithin_append_drop offset text.toList
  have hoffset := Position.ofOffset_append
    (String.ofList (withReturns (Position.charsWithin offset text.toList)))
    (String.ofList (withReturns
      (text.toList.drop (Position.charsWithin offset text.toList).length)))
  rw [← String.ofList_append, ← withReturns_append, hsplit, String.toList_ofList] at hoffset
  refine congrArg (Location.mk source) ?_
  change (Position.ofOffset text offset).unmeasured = (Position.ofOffset _ _).unmeasured
  rw [offsetWithReturns, hoffset, Position.ofOffset, Position.unmeasured_advanceBy rfl]

/-! ## States that differ in returns -/

/-- Whether the mode reads no text in quotes. -/
def Mode.isUnquoted : Mode → Bool
  | .quotedText | .singleQuoted | .doubleQuote => false
  | _ => true

theorem Mode.isUnquoted_outsideQuotes {c : Char} (hsingle : c ≠ '\'') (hdouble : c ≠ '"') :
    (Mode.outsideQuotes c).isUnquoted := by
  unfold Mode.outsideQuotes
  rw [if_neg hsingle, if_neg hdouble]
  repeat' split
  all_goals rfl

namespace Lexer

/-- The right scan is where the left one is, in the text with returns before its line feeds. No
quote is open, and the text before the cursor has been handed out. -/
structure WithReturns (left right : Lexer) : Prop where
  passed : right.cursor.passed = String.ofList (withReturns left.cursor.passed.toList)
  lexeme : left.cursor.lexeme = "" ∧ right.cursor.lexeme = ""
  rest : right.cursor.rest = withReturns left.cursor.rest
  safe : ReturnSafe left.cursor.rest
  quote : left.quote = none ∧ right.quote = none
  word : left.word = right.word
  line : left.line = right.line
  pending : left.pending = right.pending
  lineStart : right.lineStart = left.lineStart.map (offsetWithReturns left.cursor.text)

theorem text_take (lexer : Lexer) (length : Nat) :
    (lexer.take length).cursor.text = lexer.cursor.text := by
  simp [take]

/-- Both pieces are read, or both are missing at one place of the text. -/
def PieceWithReturns (text : String) : Except LexFailure Lexer → Except LexFailure Lexer → Prop
  | .ok left, .ok right => left.WithReturns right
  | .error failure, .error other =>
    other = ⟨failure.fault, offsetWithReturns text failure.offset⟩
  | _, _ => False

def SameState (mode : Mode) (left right : Lexer) : Prop :=
  mode.isUnquoted ∧ left.WithReturns right

section
variable {left right : Lexer} (h : left.WithReturns right)
include h

namespace WithReturns

theorem text : right.cursor.text = String.ofList (withReturns left.cursor.text.toList) := by
  rw [Cursor.text, Cursor.text, h.passed, h.rest, h.lexeme.1, h.lexeme.2]
  simp

theorem start : right.cursor.start = offsetWithReturns left.cursor.text left.cursor.start := by
  rw [Cursor.start, Cursor.start, h.passed, Cursor.text, String.append_assoc,
    offsetWithReturns_append]

theorem offset : right.cursor.offset = offsetWithReturns left.cursor.text left.cursor.offset := by
  have hempty : ("" : String).utf8ByteSize = 0 := rfl
  rw [Cursor.offset, Cursor.offset, h.lexeme.1, h.lexeme.2, hempty, Nat.add_zero, Nat.add_zero,
    h.start]

theorem take (length : Nat) : (left.take length).WithReturns
    (right.take (withReturns (left.cursor.rest.take length)).length) where
  passed := by
    change right.cursor.passed ++ (right.cursor.lexeme ++ String.ofList _) =
      String.ofList (withReturns (left.cursor.passed ++
        (left.cursor.lexeme ++ String.ofList (left.cursor.rest.take length))).toList)
    rw [h.passed, h.rest, h.lexeme.1, h.lexeme.2, take_withReturns]
    simp
  lexeme := ⟨rfl, rfl⟩
  rest := by
    change right.cursor.rest.drop _ = _
    rw [h.rest]
    exact drop_withReturns _ _
  safe := h.safe.suffix (List.drop_suffix _ _)
  quote := h.quote
  word := h.word
  line := h.line
  pending := h.pending
  lineStart := by
    rw [text_take]
    exact h.lineStart

theorem addText {start place : Nat} (hstart : place = offsetWithReturns left.cursor.text start)
    (text : String) : (left.addText start text).WithReturns (right.addText place text) :=
  { h with
    word := congrArg (fun word : Option String => some (word.getD "" ++ text)) h.word
    lineStart := by
      change some (right.lineStart.getD place) = some _
      rw [h.lineStart, hstart, Option.getD_map]
      rfl }

theorem addWords {start place : Nat} (hstart : place = offsetWithReturns left.cursor.text start)
    (words : List String) : (left.addWords start words).WithReturns (right.addWords place words) :=
  { h with
    word := rfl
    line := by simp only [Lexer.addWords, h.word, h.line]
    lineStart := by
      change some (right.lineStart.getD place) = some _
      rw [h.lineStart, hstart, Option.getD_map]
      rfl }

theorem endWord : left.endWord.WithReturns right.endWord :=
  { h with
    word := rfl
    line := by simp only [Lexer.endWord, h.word, h.line] }

theorem clearLine : left.clearLine.WithReturns right.clearLine :=
  { h with word := rfl, line := rfl, pending := rfl, lineStart := rfl }

theorem peek (c : Char) (hc : c ≠ '\r' ∧ c ≠ '\n') :
    right.cursor.peek = some c ↔ left.cursor.peek = some c := by
  rw [Cursor.peek, Cursor.peek, h.rest]
  rcases left.cursor.rest with _ | ⟨d, rest⟩
  · rfl
  · by_cases hd : d = '\n'
    · subst hd
      simp [hc.1.symm, hc.2.symm]
    · rw [withReturns_cons hd]
      rfl

theorem beginLine : left.beginLine.WithReturns right.beginLine := by
  have hbeginning := Token.lineBeginning_withReturns h.safe.noReturn
  rw [← h.rest] at hbeginning
  have htake := h.take (Token.lineBeginning left.cursor.rest).length
  have hdot := htake.peek '.' (by decide)
  simp only [Lexer.beginLine, hbeginning]
  cases (Token.lineBeginning left.cursor.rest).value with
  | some found => exact { htake with pending := rfl }
  | none =>
    simp only [hdot]
    split
    · exact { htake with pending := rfl }
    · exact htake

theorem nextMode : ∃ mode, left.nextMode = .ok mode ∧ right.nextMode = .ok mode ∧
    mode.isUnquoted := by
  have hsingle := h.safe.noSingleQuote
  have hdouble := h.safe.noDoubleQuote
  rw [nextMode_eq, nextMode_eq, h.quote.1, h.quote.2, h.rest]
  generalize left.cursor.rest = rest at hsingle hdouble
  rcases rest with _ | ⟨c, rest⟩
  · exact ⟨.finish, rfl, rfl, rfl⟩
  · rw [List.mem_cons, not_or] at hsingle hdouble
    refine ⟨.outsideQuotes c, rfl, ?_, Mode.isUnquoted_outsideQuotes (Ne.symm hsingle.1)
      (Ne.symm hdouble.1)⟩
    by_cases hc : c = '\n'
    · subst hc
      rfl
    · rw [withReturns_cons hc]

theorem failure (fault : LexFault) : right.failure fault =
    ⟨fault, offsetWithReturns left.cursor.text (left.failure fault).offset⟩ :=
  congrArg (LexFailure.mk fault) h.offset

theorem readPiece {α : Type} {reader : Reader α} {fault : LexFault} {use other : α → Lexer → Lexer}
    (hrespects : Token.Respects reader left.cursor.rest)
    (huse : ∀ value length, (use value (left.take length)).WithReturns
      (other value (right.take (withReturns (left.cursor.rest.take length)).length))) :
    PieceWithReturns left.cursor.text (left.readPiece reader fault use)
      (right.readPiece reader fault other) := by
  rw [readPiece_eq, readPiece_eq, h.rest, hrespects]
  cases reader left.cursor.rest with
  | none => exact h.failure fault
  | some found => exact huse found.value found.length

/-- A piece is read in both texts, or is missing in both at one place. -/
theorem reads {mode : Mode} {read : Lexer → Except LexFailure Lexer} (hm : mode.reads? = some read)
    (hmode : mode.isUnquoted) : PieceWithReturns left.cursor.text (read left) (read right) := by
  have hadded (text : String) (length : Nat) :
      ((left.take length).addText left.cursor.start text).WithReturns
        ((right.take (withReturns (left.cursor.rest.take length)).length).addText
          right.cursor.start text) := by
    refine (h.take _).addText ?_ _
    rw [Lexer.text_take, h.start]
  cases mode with
  | bareText =>
    cases hm
    exact h.readPiece (Token.respects_run (by decide) (by decide) _) hadded
  | whiteSpace =>
    cases hm
    exact h.readPiece (Token.respects_separator h.safe.noReturn) fun _ length =>
      (h.take length).endWord
  | backslash =>
    cases hm
    have hleft : left.inQuotes = false := by rw [inQuotes, h.quote.1]; rfl
    have hright : right.inQuotes = false := by rw [inQuotes, h.quote.2]; rfl
    refine h.readPiece (Token.respects_escaped h.safe.noReturn) ?_
    rintro (_ | c) length
    · change WithReturns (if left.inQuotes then _ else _) (if right.inQuotes then _ else _)
      rw [hleft, hright]
      exact (h.take length).endWord
    · exact hadded (String.singleton c) length
  | quotedText | singleQuoted | doubleQuote => cases hmode
  | beginOfLine | dispatch | reference | comment | lineBreak | finish => cases hm

theorem respects_ends {mode : Mode} {reader : Reader Unit} (hm : mode.ends? = some reader) :
    Token.Respects reader left.cursor.rest := by
  cases mode <;> cases hm
  case comment => exact Token.respects_comment h.safe.noReturn
  case lineBreak => exact Token.respects_lineEnds h.safe.noReturn

/-- Both scans end a line, or neither does. -/
theorem ended? (mode : Mode) : (left.ended? mode = none ∧ right.ended? mode = none) ∨
    ∃ ended other here there, left.ended? mode = some (ended, here) ∧
      right.ended? mode = some (other, there) ∧ ended.WithReturns other ∧
      Continues SameState here there := by
  have hends {reader : Reader Unit} (hm : mode.ends? = some reader) :
      (left.ended? mode = none ∧ right.ended? mode = none) ∨
      ∃ ended other here there, left.ended? mode = some (ended, here) ∧
        right.ended? mode = some (other, there) ∧ ended.WithReturns other ∧
        Continues SameState here there := by
    rw [ended?_of_ends hm, ended?_of_ends hm, h.rest, h.respects_ends hm]
    cases reader left.cursor.rest with
    | none => exact .inl ⟨rfl, rfl⟩
    | some found =>
      have htake := h.take found.length
      exact .inr ⟨_, _, _, _, rfl, rfl, htake, rfl, rfl, htake.clearLine⟩
  cases mode with
  | finish => exact .inr ⟨_, _, _, _, rfl, rfl, h, trivial⟩
  | comment | lineBreak => exact hends rfl
  | beginOfLine | dispatch | bareText | quotedText | whiteSpace | backslash | singleQuoted
  | doubleQuote | reference => exact .inl ⟨rfl, rfl⟩

theorem called? : right.called? = left.called? := by
  unfold Lexer.called?
  rw [← h.pending, ← h.endWord.line]

theorem applied (config : Config) : right.applied config = left.applied config := by
  unfold Lexer.applied
  rw [← h.pending, ← h.endWord.line]

theorem lineOffset : right.lineOffset = offsetWithReturns left.cursor.text left.lineOffset := by
  rw [Lexer.lineOffset, Lexer.lineOffset, h.lineStart, h.start, Option.getD_map]

end WithReturns

/-! ## Steps -/

variable {scope : Scope} {mode : Mode} {s t : Session} (hs : sameLines.sessions s t)

theorem WithReturns.locate (scope : Scope) (offset : Nat) : sameLines.places (left.locate scope offset)
    (right.locate scope (offsetWithReturns left.cursor.text offset)) := by
  rw [Lexer.locate, Lexer.locate, h.text]
  exact unmeasured_withReturns scope.source left.cursor.text offset

theorem WithReturns.lexError (failure : LexFailure) :
    sameLines.errors (scope.lexError left.cursor failure) (scope.lexError right.cursor
      ⟨failure.fault, offsetWithReturns left.cursor.text failure.offset⟩) :=
  sameLines.lexical failure.fault (h.locate scope failure.offset)

include hs

theorem WithReturns.readReference : sameLines.Relates WithReturns
    (left.readReference scope s) (right.readReference scope t) := by
  have hleft : left.inQuotes = false := by rw [inQuotes, h.quote.1]; rfl
  have hright : right.inQuotes = false := by rw [inQuotes, h.quote.2]; rfl
  rw [readReference_eq, readReference_eq, h.rest, Token.respects_reference h.safe, hleft, hright,
    sameLines.config_eq hs]
  cases Token.reference left.cursor.rest with
  | none =>
    rw [Option.map_none, h.failure]
    exact ⟨h.lexError _, hs⟩
  | some found =>
    have htake := h.take found.length
    have hstart : right.cursor.start =
        offsetWithReturns (left.take found.length).cursor.text left.cursor.start := by
      rw [Lexer.text_take, h.start]
    simp only [Option.map_some]
    cases t.config.expand found.value false with
    | joined text => exact ⟨htake.addText hstart text, hs⟩
    | words values => exact ⟨htake.addWords hstart values, hs⟩
    | undefined =>
      have hplaces : sameLines.places (left.locate scope left.cursor.start)
          (right.locate scope right.cursor.start) := by
        rw [h.start]
        exact h.locate scope _
      have hunset : sameLines.RelatesUnits
          (scope.undefinedVariable found.value.name (left.locate scope left.cursor.start) s)
          (scope.undefinedVariable found.value.name (right.locate scope right.cursor.start) t) := by
        unfold Scope.undefinedVariable
        cases scope.undefined with
        | warn => exact ⟨trivial, sameLines.warn _ hs hplaces⟩
        | refuse => exact ⟨sameLines.lexical _ hplaces, hs⟩
      exact hunset.map fun _ _ _ => htake

/-- The scans take one step, with the same effect. -/
theorem WithReturns.step (hmode : mode.isUnquoted)
    (hperform : ∀ call here there s t, sameLines.places here there → sameLines.sessions s t →
      sameLines.RelatesUnits (scope.perform call here s) (scope.perform call there t)) :
    sameLines.Relates (Continues SameState) (Lexer.step scope mode left s)
      (Lexer.step scope mode right t) := by
  obtain ⟨hleft, hright⟩ | ⟨ended, other, here, there, hleft, hright, hended, hcontinues⟩ :=
    h.ended? mode
  · obtain ⟨hfinish, hends⟩ := ended?_eq_none hleft
    have hreads {read : Lexer → Except LexFailure Lexer} (hm : mode.reads? = some read) :
        sameLines.Relates (Continues SameState) (Lexer.step scope mode left s)
          (Lexer.step scope mode right t) := by
      have hpiece := h.reads hm hmode
      rw [step_of_reads hm, step_of_reads hm]
      revert hpiece
      rcases read left with failure | next <;> rcases read right with failure' | next' <;>
        intro hpiece
      · obtain rfl : failure' = _ := hpiece
        exact ⟨h.lexError failure, hs⟩
      · exact hpiece.elim
      · exact hpiece.elim
      · exact ⟨⟨rfl, rfl, hpiece⟩, hs⟩
    have hlineEnd {reader : Reader Unit} (hm : mode.ends? = some reader) :
        sameLines.Relates (Continues SameState) (Lexer.step scope mode left s)
          (Lexer.step scope mode right t) := by
      have hother := (ended?_eq_none hright).2 reader hm
      rw [step_of_ends hm, step_of_ends hm, Evaluation.map, Evaluation.map, readLineEnd_eq,
        readLineEnd_eq, hends reader hm, hother, h.failure]
      exact ⟨h.lexError _, hs⟩
    cases mode with
    | beginOfLine => exact ⟨⟨rfl, rfl, h.beginLine⟩, hs⟩
    | dispatch =>
      obtain ⟨next, hnext, hother, hunquoted⟩ := h.nextMode
      simp only [Lexer.step, hnext, hother]
      exact ⟨⟨rfl, hunquoted, h⟩, hs⟩
    | reference => exact (h.readReference hs).map fun _ _ hnext => ⟨rfl, rfl, hnext⟩
    | bareText | whiteSpace | backslash | quotedText | singleQuoted | doubleQuote =>
      exact hreads rfl
    | comment | lineBreak => exact hlineEnd rfl
    | finish => exact absurd rfl hfinish
  · have hcalled := hended.called?
    cases hcall : ended.called? with
    | none =>
      rw [step_of_applied hleft hcall, step_of_applied hright (hcalled.trans hcall),
        hended.applied, sameLines.config_eq hs]
      exact ⟨hcontinues, sameLines.update _ hs⟩
    | some call =>
      rw [step_of_called hleft hcall, step_of_called hright (hcalled.trans hcall),
        hended.lineOffset]
      have hrelates := hperform call _ _ s t (hended.locate scope ended.lineOffset) hs
      exact hrelates.map fun _ _ _ => hcontinues

end
end Lexer

/-- A text and the same text with returns before its line feeds are evaluated alike. The induction
is on the run of the first one. -/
theorem Scope.relates_withReturns {scope : Scope} {text : String} {s t : Session}
    (htext : ReturnSafe text.toList) (hs : sameLines.sessions s t)
    (hperform : ∀ call here there s t, sameLines.places here there → sameLines.sessions s t →
      sameLines.RelatesUnits (scope.perform call here s) (scope.perform call there t)) :
    sameLines.RelatesUnits (scope.evaluate text s)
      (scope.evaluate (String.ofList (withReturns text.toList)) t) := by
  have hstep : ∀ mode left right s t, Lexer.SameState mode left right → sameLines.sessions s t →
      sameLines.Relates (Continues Lexer.SameState) (Lexer.step scope mode left s)
        (Lexer.step scope mode right t) :=
    fun _ _ _ _ _ hstate hs => hstate.2.step hs hstate.1 hperform
  have hstart : (Lexer.ofText text).WithReturns
      (Lexer.ofText (String.ofList (withReturns text.toList))) :=
    { passed := rfl, lexeme := ⟨rfl, rfl⟩, rest := String.toList_ofList, safe := htext,
      quote := ⟨rfl, rfl⟩, word := rfl, line := rfl, pending := rfl, lineStart := rfl }
  exact run_relates hstep ⟨rfl, hstart⟩ hs

end ShellConfig
