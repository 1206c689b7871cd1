import ShellConfig.Proofs.Lexer.Ends
import ShellConfig.Proofs.Lexer.Lines
import Mathlib.Logic.Relation

/-!
Scans between their steps. A run comes from scan to scan (`Scan.Reaches`), and one that fails does
so in the step after some scan (`Scan.exists_of_run_error`). A state occurs in the scan of a text
(`Lexer.Occurs`) if steps lead to it, whatever the session and the directives are; such a state
holds the whole text, has committed to all that it has read, and remembers no place beyond its
cursor. It is in a line (`Lexer.InLine`), and perhaps between double quotes (`Lexer.InQuotesOf`).
-/

set_option autoImplicit false

namespace ShellConfig

/-- A scan between two steps. -/
structure Scan where
  mode : Mode
  lexer : Lexer
  session : Session

namespace Scan

/-- The scan of a text that begins. -/
def start (text : String) (session : Session) : Scan := ⟨.beginOfLine, .ofText text, session⟩

def step (scope : Scope) (scan : Scan) : Outcome Continuation :=
  Lexer.step scope scan.mode scan.lexer scan.session

def run (scope : Scope) (scan : Scan) : Outcome Unit :=
  Lexer.run scope scan.mode scan.lexer scan.session

/-- The second scan is one step ahead of the first one. -/
def Next (scope : Scope) (scan next : Scan) : Prop :=
  scan.step scope = (.ok (some (next.mode, next.lexer)), next.session)

/-- Steps lead from the first scan to the second one. -/
def Reaches (scope : Scope) : Scan → Scan → Prop := Relation.ReflTransGen (Next scope)

section
variable {scope : Scope} {scan other : Scan} {session : Session}

theorem evaluate_eq_run (scope : Scope) (text : String) (session : Session) :
    scope.evaluate text session = (start text session).run scope := rfl

theorem run_eq_of_reaches (h : Reaches scope scan other) : scan.run scope = other.run scope := by
  induction h with
  | refl => rfl
  | tail _ hnext ih => rw [ih]; exact Lexer.run_of_step hnext

/-- A run that fails does so in the step after some scan. -/
theorem exists_of_run_error {error : Error} (h : scan.run scope = (.error error, session)) :
    ∃ last, Reaches scope scan last ∧ last.step scope = (.error error, session) := by
  obtain ⟨mode, lexer, before⟩ := scan
  change Lexer.run scope mode lexer before = _ at h
  fun_induction Lexer.run scope mode lexer before with
  | case1 mode lexer before next after middle hstep ih =>
    obtain ⟨last, hreaches, hlast⟩ := ih h
    have hnext : Next scope ⟨mode, lexer, before⟩ ⟨next, after, middle⟩ := hstep
    exact ⟨last, hreaches.head hnext, hlast⟩
  | case2 mode lexer before middle hstep => cases h
  | case3 mode lexer before found middle hstep =>
    obtain ⟨he, rfl⟩ := Prod.mk.inj h
    obtain rfl := Except.error.inj he
    exact ⟨⟨mode, lexer, before⟩, .refl, hstep⟩

end

end Scan

namespace Lexer

/-! ## Places in a step -/

section
variable {scope : Scope} {mode next : Mode} {lexer after : Lexer} {session last : Session}

theorem cursor_beginLine (lexer : Lexer) :
    lexer.beginLine.cursor =
      (lexer.take (Token.lineBeginning lexer.cursor.rest).length).cursor := by
  unfold beginLine
  simp only
  split
  · rfl
  · split <;> rfl

/-- A step moves over characters or not at all. -/
theorem cursor_of_step (h : step scope mode lexer session = (.ok (some (next, after)), last)) :
    after.cursor = lexer.cursor ∨ ∃ length, after.cursor = (lexer.take length).cursor := by
  obtain ⟨-, -, rfl, -⟩ | ⟨-, -, rfl, -⟩ | ⟨read, hm, -, hread, -⟩ | ⟨-, -, hread⟩ |
    ⟨reader, -, -, hread⟩ := step_cases h
  · exact .inr ⟨_, cursor_beginLine lexer⟩
  · exact .inl rfl
  · exact .inr (cursor_of_reads hm hread).1
  · exact .inr (cursor_of_readReference hread).1
  · obtain ⟨length, rfl, -⟩ := cursor_of_readLineEnd hread
    exact .inr ⟨length, rfl⟩

/-- After a step the mode tells of the state what it told before. -/
theorem fits_of_step (hfits : lexer.Fits mode)
    (h : step scope mode lexer session = (.ok (some (next, after)), last)) : after.Fits next := by
  obtain ⟨rfl, rfl, -, -⟩ | ⟨rfl, hm, rfl, -⟩ | ⟨read, hm, rfl, -, -⟩ | ⟨rfl, rfl, -⟩ |
    ⟨reader, hm, rfl, hread⟩ := step_cases h
  · trivial
  · exact fits_of_nextMode hm
  · trivial
  · trivial
  · exact reading_of_readLineEnd (inQuotes_of_ends hm (nextMode_of_ends hm hfits)) hread

theorem marks_of_readText {reader : Reader String} {what : String}
    (h : lexer.readText reader what = .ok after) :
    after.lineStart = some lexer.lineOffset ∧ after.quote = lexer.quote := by
  obtain ⟨found, -, rfl⟩ := readPiece_eq_ok h
  exact ⟨rfl, rfl⟩

/-- A piece marks the line's first word and an opening quote at its own place or not at all. -/
theorem marks_of_reads {read : Lexer → Except LexFailure Lexer} (hm : mode.reads? = some read)
    (h : read lexer = .ok after) :
    (after.lineStart = lexer.lineStart ∨ after.lineStart = some lexer.lineOffset) ∧
      (after.quote = lexer.quote ∨ after.quote = none ∨
        (mode = .doubleQuote ∧ lexer.quote = none ∧ after.quote = some lexer.cursor.start)) := by
  obtain ⟨length, text, rfl⟩ | ⟨length, rfl | rfl⟩ | ⟨quote, rfl, hquote⟩ := reads_cases hm h
  · exact ⟨.inr rfl, .inl rfl⟩
  · exact ⟨.inl rfl, .inl rfl⟩
  · exact ⟨.inl rfl, .inl rfl⟩
  · refine ⟨.inl rfl, .inr ?_⟩
    obtain rfl | ⟨hmode, hquotes, rfl⟩ := hquote
    · exact .inl rfl
    · exact .inr ⟨hmode, quote_eq_none hquotes, rfl⟩

theorem marks_of_readReference (h : lexer.readReference scope session = (.ok after, last)) :
    (after.lineStart = lexer.lineStart ∨ after.lineStart = some lexer.lineOffset) ∧
      after.quote = lexer.quote := by
  obtain ⟨found, -, rfl⟩ := eq_resolve_of_readReference h
  cases session.config.expand found.value lexer.inQuotes with
  | undefined => exact ⟨.inl rfl, rfl⟩
  | joined text => exact ⟨.inr rfl, rfl⟩
  | words values => exact ⟨.inr rfl, rfl⟩

theorem marks_beginLine (lexer : Lexer) :
    lexer.beginLine.lineStart = lexer.lineStart ∧ lexer.beginLine.quote = lexer.quote := by
  unfold beginLine
  simp only
  split
  · exact ⟨rfl, rfl⟩
  · split <;> exact ⟨rfl, rfl⟩

/-- The places that a state remembers were there before the step, or are where the step begins. -/
theorem marks_of_step (h : step scope mode lexer session = (.ok (some (next, after)), last)) :
    (∀ offset, after.lineStart = some offset →
      lexer.lineStart = some offset ∨ lexer.lineStart = none ∧ offset = lexer.cursor.start) ∧
    (∀ offset, after.quote = some offset → lexer.quote = some offset ∨
      mode = .doubleQuote ∧ lexer.quote = none ∧ offset = lexer.cursor.start) := by
  have hline (hmark : after.lineStart = lexer.lineStart ∨ after.lineStart = some lexer.lineOffset)
      (offset : Nat) (ho : after.lineStart = some offset) :
      lexer.lineStart = some offset ∨
        lexer.lineStart = none ∧ offset = lexer.cursor.start := by
    obtain hmark | hmark := hmark
    · exact .inl (hmark ▸ ho)
    · rw [hmark] at ho
      unfold lineOffset at ho
      cases hs : lexer.lineStart with
      | none => rw [hs] at ho; exact .inr ⟨rfl, (Option.some.inj ho).symm⟩
      | some found => rw [hs] at ho; exact .inl ho
  obtain ⟨-, -, rfl, -⟩ | ⟨-, -, rfl, -⟩ | ⟨read, hm, -, hread, -⟩ | ⟨-, -, hread⟩ |
    ⟨reader, -, -, hread⟩ := step_cases h
  · obtain ⟨hl, hq⟩ := marks_beginLine lexer
    exact ⟨hline (.inl hl), fun offset ho => .inl (hq ▸ ho)⟩
  · exact ⟨fun offset ho => .inl ho, fun offset ho => .inl ho⟩
  · obtain ⟨hl, hq⟩ := marks_of_reads hm hread
    refine ⟨hline hl, fun offset ho => ?_⟩
    obtain hq | hq | ⟨hmode, hnone, hq⟩ := hq
    · exact .inl (hq ▸ ho)
    · rw [hq] at ho; cases ho
    · rw [hq] at ho
      exact .inr ⟨hmode, hnone, (Option.some.inj ho).symm⟩
  · obtain ⟨hl, hq⟩ := marks_of_readReference hread
    exact ⟨hline hl, fun offset ho => .inl (hq ▸ ho)⟩
  · obtain ⟨length, rfl, -⟩ := cursor_of_readLineEnd hread
    exact ⟨fun offset ho => (nomatch ho), fun offset ho => .inl ho⟩

end

end Lexer

/-- A scope in which directives do nothing. -/
def Scope.idle : Scope := ⟨"", .warn, fun _ _ session => (.ok (), session)⟩

namespace Lexer

theorem exists_endLine_idle (lexer : Lexer) (session : Session) :
    ∃ last, lexer.endLine .idle session = (.ok (), last) := by
  rw [endLine_eq]
  split <;> exact ⟨_, rfl⟩

/-! ## States that occur -/

/-- The states in which the scan of a text can be, whatever the session and the directives are. -/
inductive Occurs (text : String) : Mode → Lexer → Prop
  | start : Occurs text .beginOfLine (.ofText text)
  | step {scope : Scope} {mode next : Mode} {lexer after : Lexer} {session last : Session}
    (h : Occurs text mode lexer)
    (hstep : Lexer.step scope mode lexer session = (.ok (some (next, after)), last)) :
    Occurs text next after

/-- Steps lead from the first state to the other one, and what is asked for holds after each of them,
whatever the session and the directives are. -/
inductive Since (kept : Mode → Lexer → Prop) (mode : Mode) (lexer : Lexer) : Mode → Lexer → Prop
  | refl : Since kept mode lexer mode lexer
  | step {scope : Scope} {here next : Mode} {found after : Lexer} {session last : Session}
    (h : Since kept mode lexer here found)
    (hstep : Lexer.step scope here found session = (.ok (some (next, after)), last))
    (hkept : kept next after) : Since kept mode lexer next after

/-- The state is in the line that begins with the first one: no other line has begun since. -/
def InLine (first : Lexer) : Mode → Lexer → Prop :=
  Since (fun mode _ => mode ≠ .beginOfLine) .beginOfLine first

/-- The state is between the double quotes of which the first state reads the one that opens: it has
been open since. -/
def InQuotesOf (opening : Lexer) : Mode → Lexer → Prop :=
  Since (fun _ lexer => lexer.inQuotes = true) .doubleQuote opening

section
variable {text : String} {mode : Mode} {lexer : Lexer}

theorem Occurs.of_reaches {scope : Scope} {session : Session} {scan : Scan}
    (h : Scan.Reaches scope (.start text session) scan) : Occurs text scan.mode scan.lexer := by
  induction h with
  | refl => exact .start
  | tail _ hnext ih => exact ih.step hnext

theorem Occurs.text_eq (h : Occurs text mode lexer) : lexer.cursor.text = text := by
  induction h with
  | start => exact Cursor.text_ofText text
  | step _ hstep ih =>
    obtain hc | ⟨length, hc⟩ := cursor_of_step hstep
    · rw [hc, ih]
    · rw [hc, take, Cursor.text_commit, Cursor.text_take, ih]

theorem Occurs.lexeme_eq (h : Occurs text mode lexer) : lexer.cursor.lexeme = "" := by
  induction h with
  | start => rfl
  | step _ hstep ih =>
    obtain hc | ⟨length, hc⟩ := cursor_of_step hstep
    · rw [hc, ih]
    · rw [hc]
      rfl

/-- The text is what has been read and what is still to come. -/
theorem Occurs.text_eq_append (h : Occurs text mode lexer) :
    text = lexer.cursor.passed ++ String.ofList lexer.cursor.rest := by
  have htext := h.text_eq
  rw [Cursor.text, h.lexeme_eq, String.append_empty] at htext
  exact htext.symm

theorem Occurs.offset_eq (h : Occurs text mode lexer) :
    lexer.cursor.offset = lexer.cursor.start := by
  rw [Cursor.offset, h.lexeme_eq]
  rfl

theorem start_le_of_step {scope : Scope} {mode next : Mode} {lexer after : Lexer}
    {session last : Session}
    (hstep : step scope mode lexer session = (.ok (some (next, after)), last)) :
    lexer.cursor.start ≤ after.cursor.start := by
  obtain hc | ⟨length, hc⟩ := cursor_of_step hstep
  · exact Nat.le_of_eq (congrArg Cursor.start hc.symm)
  · rw [hc, take, Cursor.start_commit, Cursor.offset, Cursor.start_take]
    exact Nat.le_add_right _ _

theorem Occurs.fits (h : Occurs text mode lexer) : lexer.Fits mode := by
  induction h with
  | start => rfl
  | step _ hstep ih => exact fits_of_step ih hstep

theorem Occurs.lineStart_le (h : Occurs text mode lexer) :
    ∀ offset, lexer.lineStart = some offset → offset ≤ lexer.cursor.start := by
  induction h with
  | start => exact fun _ ho => nomatch ho
  | step _ hstep ih =>
    intro offset ho
    obtain hbefore | ⟨-, rfl⟩ := (marks_of_step hstep).1 offset ho
    · exact Nat.le_trans (ih offset hbefore) (start_le_of_step hstep)
    · exact start_le_of_step hstep

end

end Lexer
end ShellConfig
