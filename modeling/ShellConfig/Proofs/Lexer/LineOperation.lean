import Mathlib.Logic.ExistsUnique
import ShellConfig.Proofs.Config.Operations
import ShellConfig.Proofs.Lexer.Announcement
import ShellConfig.Proofs.Lexer.LineStarts

/-!
One operation for each line, at its end. The steps of a line are those from its beginning to the one
that closes it (`Scan.InLine`). None of them changes the configuration before the last one, which
does what the beginning of the line announced (`Scan.CarriesOutOne`). Main statement: every scan of
every text is in such a line (`Scan.lineByLine`).
-/

set_option autoImplicit false

namespace ShellConfig

/-- Whether a line is closed in this mode. -/
def Mode.closesLine : Mode → Bool
  | .comment | .lineBreak | .finish => true
  | _ => false

namespace Lexer

theorem eq_resolve_of_step {scope : Scope} {next : Mode} {lexer after : Lexer}
    {session last : Session}
    (h : step scope .reference lexer session = (.ok (some (next, after)), last)) :
    ∃ found, Token.reference lexer.cursor.rest = some found ∧
      after = lexer.resolve found.length (session.config.expand found.value lexer.inQuotes) := by
  simp only [step] at h
  obtain ⟨_, hread, heq⟩ := Evaluation.map_eq_ok h
  obtain ⟨-, rfl⟩ := Prod.mk.inj (Option.some.inj heq)
  exact eq_resolve_of_readReference hread

theorem ended?_of_not_closesLine {mode : Mode} (lexer : Lexer) (h : mode.closesLine = false) :
    lexer.ended? mode = none := by
  cases mode <;> first | rfl | cases h

theorem closesLine_of_ended {mode : Mode} {lexer : Lexer} (h : (lexer.ended? mode).isSome) :
    mode.closesLine := by
  cases mode <;> first | rfl | cases h

section
variable {text : String} {mode : Mode} {lexer ended : Lexer} {continuation : Continuation}

/-- A line is closed unless all that comes is a return that ends none. -/
theorem Occurs.ended?_of_closesLine (h : Occurs text mode lexer) (hmode : mode.closesLine) :
    (lexer.ended? mode).isSome ∨ mode = .lineBreak ∧
      ∃ tail, lexer.cursor.rest = '\r' :: tail ∧ tail.head? ≠ some '\n' := by
  have hfits := h.fits
  cases mode with
  | finish => exact .inl rfl
  | comment =>
    obtain ⟨c, tail, hrest, hc⟩ := exists_accepts_of_nextMode hfits (by decide)
    obtain rfl : c = '#' := of_decide_eq_true hc
    left
    rw [ended?_of_ends rfl, hrest]
    rfl
  | lineBreak =>
    obtain ⟨c, tail, hrest, hc⟩ := exists_accepts_of_nextMode hfits (by decide)
    have hcases : c = '\r' ∨ c = '\n' := by simpa [Mode.accepts] using hc
    cases hf : Token.lineEnds lexer.cursor.rest with
    | some found =>
      left
      rw [ended?_of_ends rfl, hf]
      rfl
    | none =>
      rw [hrest] at hf
      obtain ⟨rfl, hhead⟩ := Token.lineEnds_eq_none hcases hf
      exact .inr ⟨rfl, tail, hrest, hhead⟩
  | beginOfLine | dispatch | bareText | quotedText | whiteSpace | backslash | singleQuoted
  | doubleQuote | reference => cases hmode

/-- Closing a line changes neither its words nor what is to be done with them. -/
theorem line_of_ended (h : lexer.ended? mode = some (ended, continuation)) :
    ended.endWord.line = lexer.endWord.line ∧ ended.pending = lexer.pending := by
  obtain ⟨-, rfl, -⟩ | ⟨reader, found, -, -, rfl, -⟩ := ended?_cases h
  · exact ⟨rfl, rfl⟩
  · exact ⟨rfl, rfl⟩

theorem step_eq_error_of_return {scope : Scope} {tail : List Char} (session : Session)
    (hrest : lexer.cursor.rest = '\r' :: tail) (hhead : tail.head? ≠ some '\n') :
    ∃ error, step scope .lineBreak lexer session = (.error error, session) := by
  have hnone : Token.lineEnds lexer.cursor.rest = none := by
    rw [hrest, Token.lineEnds, Token.lineEndsLength]
    · rfl
    · intro rest heq
      exact absurd (List.cons.inj heq).1 (by decide)
    · intro rest heq
      obtain ⟨-, rfl⟩ := List.cons.inj heq
      exact hhead rfl
  rw [step_of_ends rfl, Evaluation.map, readLineEnd_eq, hnone]
  exact ⟨_, rfl⟩

end

end Lexer

namespace Scan
open Lexer

/-! ## The steps of a line -/

section
variable {scope : Scope} {text : String} {session : Session} {first scan : Scan}

/-- What is to be done with the line is found at its beginning, and stays. -/
theorem InLine.pending_eq (h : InLine scope first scan) (hplain : first.lexer.pending = .plain) :
    scan = first ∨ scan.mode ≠ .beginOfLine ∧
      scan.lexer.pending = Token.announced first.lexer.cursor.rest := by
  induction h with
  | begins => exact .inl rfl
  | @step scan next hline hnext hmode ih =>
    refine .inr ⟨hmode, ?_⟩
    have hkept (hsame : next.lexer.pending = scan.lexer.pending)
        (hnot : scan.mode ≠ .beginOfLine) :
        next.lexer.pending = Token.announced first.lexer.cursor.rest := by
      obtain rfl | ⟨-, hpending⟩ := ih
      · exact absurd hline.begins_mode hnot
      · rw [hsame, hpending]
    obtain ⟨hbegin, -, hlexer, -⟩ | ⟨hdispatch, -, hlexer, -⟩ | ⟨read, hm, -, hread, -⟩ |
      ⟨hreference, -, hread⟩ | ⟨reader, -, hbegins, -⟩ := step_cases hnext
    · obtain rfl | ⟨hnot, -⟩ := ih
      · rw [hlexer, pending_beginLine hplain]
      · exact absurd hbegin hnot
    · exact hkept (congrArg Lexer.pending hlexer) (by rw [hdispatch]; decide)
    · refine hkept (cursor_of_reads hm hread).2 ?_
      intro hbegin
      rw [hbegin] at hm
      cases hm
    · exact hkept (cursor_of_readReference hread).2 (by rw [hreference]; decide)
    · exact absurd hbegins hmode

end

/-! ## The operation of a line -/

/-- What happens at a scan in the line that the first one begins. -/
structure CarriesOutOne (scope : Scope) (first scan : Scan) : Prop where
  /-- Nothing is left of the line before. -/
  fresh : first.lexer.reading = .fresh first.lexer.cursor.rest
  announces : ∃! operation, Token.Announces first.lexer.cursor.rest operation
  config : scan.session.config = first.session.config
  unchanged : scan.mode.closesLine = false →
    (scan.step scope).2.config = first.session.config
  /-- References see the values from before the line. -/
  resolves : ∀ next, scan.mode = .reference → Next scope scan next →
    ∃ found, Token.reference scan.lexer.cursor.rest = some found ∧
      next.lexer = scan.lexer.resolve found.length
        (first.session.config.expand found.value scan.lexer.inQuotes)
  /-- At its end the line does what it announced, unless a return that ends no line is there. -/
  closes : ∀ operation, scan.mode.closesLine → operation ≠ .directive →
    Token.Announces first.lexer.cursor.rest operation →
    (∃ continuation config,
      scan.step scope = (.ok continuation, { scan.session with config }) ∧
        operation.Effect scan.lexer.endWord.line first.session.config config) ∨
    (scan.mode = .lineBreak ∧
      (∃ tail, scan.lexer.cursor.rest = '\r' :: tail ∧ tail.head? ≠ some '\n') ∧
      ∃ error, scan.step scope = (.error error, scan.session))

/-- In the scan of a text each line carries out one operation, and does so at its end. -/
structure LineByLine (scope : Scope) (text : String) (session : Session) : Prop where
  inLine : ∀ scan, Reaches scope (start text session) scan →
    ∃ first, Reaches scope (start text session) first ∧ InLine scope first scan
  carriesOutOne : ∀ first scan, Reaches scope (start text session) first →
    InLine scope first scan → CarriesOutOne scope first scan

section
variable {scope : Scope} {text : String} {session : Session} {first scan : Scan}

theorem pending_of_closes (hfirst : Reaches scope (start text session) first)
    (hline : InLine scope first scan) (hmode : scan.mode.closesLine) :
    scan.lexer.pending = Token.announced first.lexer.cursor.rest := by
  have hfits := (Occurs.of_reaches hfirst).fits
  rw [hline.begins_mode] at hfits
  obtain rfl | ⟨-, hpending⟩ := hline.pending_eq (congrArg Reading.pending hfits)
  · rw [hline.begins_mode] at hmode
    cases hmode
  · exact hpending

theorem closes_line (hfirst : Reaches scope (start text session) first)
    (hline : InLine scope first scan) (hmode : scan.mode.closesLine) {operation : Operation}
    (hannounces : Token.Announces first.lexer.cursor.rest operation)
    (hne : operation ≠ .directive) :
    (∃ continuation config,
      scan.step scope = (.ok continuation, { scan.session with config }) ∧
        operation.Effect scan.lexer.endWord.line first.session.config config) ∨
    (scan.mode = .lineBreak ∧
      (∃ tail, scan.lexer.cursor.rest = '\r' :: tail ∧ tail.head? ≠ some '\n') ∧
      ∃ error, scan.step scope = (.error error, scan.session)) := by
  have hpending : scan.lexer.pending = operation := by
    rw [pending_of_closes hfirst hline hmode, Token.announces_iff.1 hannounces]
  obtain hsome | ⟨hbreak, tail, hrest, hhead⟩ :=
    (Occurs.of_reaches (hfirst.trans hline.reaches)).ended?_of_closesLine hmode
  · left
    obtain ⟨⟨ended, continuation⟩, hended⟩ := Option.isSome_iff_exists.1 hsome
    obtain ⟨hwords, hsame⟩ := line_of_ended hended
    have hnone : ended.called? = none := called?_eq_none (by rw [hsame, hpending]; exact hne)
    refine ⟨continuation, _, step_of_applied hended hnone, ?_⟩
    rw [applied, hsame, hpending, hwords, hline.config_eq]
    exact operation.effect_apply _ _
  · right
    obtain ⟨mode, lexer, before⟩ := scan
    obtain rfl : mode = .lineBreak := hbreak
    exact ⟨rfl, ⟨tail, hrest, hhead⟩, step_eq_error_of_return before hrest hhead⟩

theorem carriesOutOne (hfirst : Reaches scope (start text session) first)
    (hline : InLine scope first scan) : CarriesOutOne scope first scan where
  fresh := by
    have hfits := (Occurs.of_reaches hfirst).fits
    rwa [hline.begins_mode] at hfits
  announces := ⟨_, Token.announces_announced _, fun _ h => Token.announces_iff.1 h⟩
  config := hline.config_eq
  unchanged hmode := by
    rw [← hline.config_eq]
    exact config_of_not_ended (ended?_of_not_closesLine _ hmode)
  resolves next hmode hnext := by
    obtain ⟨mode, lexer, before⟩ := scan
    obtain rfl : mode = .reference := hmode
    rw [← hline.config_eq]
    exact eq_resolve_of_step hnext
  closes operation hmode hne hannounces := closes_line hfirst hline hmode hannounces hne

theorem lineByLine (scope : Scope) (text : String) (session : Session) :
    LineByLine scope text session where
  inLine _ hreaches := exists_inLine hreaches
  carriesOutOne _ _ hfirst hline := carriesOutOne hfirst hline

end

end Scan
end ShellConfig
