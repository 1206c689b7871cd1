import ShellConfig.Proofs.Lexer.Faults

/-!
How long a scan takes, and what its states do. A scan ends in a number of steps (`Scan.EndsIn`),
which is at most its weight and one more (`Scan.EndsIn.le_weight`). A mode that the next character
chooses reads something, ends the text, or shows a fault that is its own (`Scan.Progress`). Main
statement: `Scope.progresses`, for the scan of a whole text.
-/

set_option autoImplicit false

namespace ShellConfig

namespace Scan

/-! ## Counting steps -/

/-- The scan ends with an outcome, in so many steps. -/
inductive EndsIn (scope : Scope) : Nat → Scan → Outcome Unit → Prop
  | done {scan : Scan} {last : Session} (h : scan.step scope = (.ok none, last)) :
    EndsIn scope 1 scan (.ok (), last)
  | failed {scan : Scan} {error : Error} {last : Session}
    (h : scan.step scope = (.error error, last)) : EndsIn scope 1 scan (.error error, last)
  | next {count : Nat} {scan next : Scan} {outcome : Outcome Unit} (h : Next scope scan next)
    (hrest : EndsIn scope count next outcome) : EndsIn scope (count + 1) scan outcome

section
variable {scope : Scope} {scan : Scan} {count : Nat} {outcome : Outcome Unit}

theorem exists_endsIn (scope : Scope) (scan : Scan) :
    ∃ count, EndsIn scope count scan (scan.run scope) := by
  obtain ⟨mode, lexer, session⟩ := scan
  change ∃ count, EndsIn scope count _ (Lexer.run scope mode lexer session)
  fun_induction Lexer.run scope mode lexer session with
  | case1 mode lexer before next after middle hstep ih =>
    obtain ⟨count, hcount⟩ := ih
    have hnext : Next scope ⟨mode, lexer, before⟩ ⟨next, after, middle⟩ := hstep
    exact ⟨count + 1, .next hnext hcount⟩
  | case2 mode lexer before middle hstep => exact ⟨1, .done hstep⟩
  | case3 mode lexer before found middle hstep => exact ⟨1, .failed hstep⟩

theorem EndsIn.le_weight (h : EndsIn scope count scan outcome) :
    count ≤ scan.lexer.weight scan.mode + 1 := by
  induction h with
  | done | failed => exact Nat.le_add_left _ _
  | next hnext _ ih =>
    have hlt := Lexer.weight_lt_of_step hnext
    omega

theorem weight_start (text : String) (session : Session) :
    (start text session).lexer.weight (start text session).mode = 3 * text.length + 2 := rfl

end

end Scan

/-! ## Faults of a mode -/

/-- The mode can show the fault. -/
inductive Mode.Shows : Mode → LexFault → Prop
  | danglingBackslash : Shows .backslash .danglingBackslash
  | unterminatedSingleQuote : Shows .singleQuoted .unterminatedSingleQuote
  | invalidReference : Shows .reference .invalidReference
  | undefinedVariable (name : String) : Shows .reference (.undefinedVariable name)
  | invalidLineBreak : Shows .lineBreak .invalidLineBreak

namespace Lexer

section
variable {mode : Mode} {lexer : Lexer} {failure : LexFailure} {policy : UndefinedPolicy}
  {config : Config}

/-- A piece that cannot be read shows the fault of its mode, or none that has a name. -/
theorem fault_of_reads {read : Lexer → Except LexFailure Lexer} (hm : mode.reads? = some read)
    (h : read lexer = .error failure) :
    mode.Shows failure.fault ∨ ∃ what, failure.fault = .invalid what := by
  cases mode <;> cases hm
  case bareText =>
    obtain ⟨-, rfl⟩ := readPiece_eq_error h
    exact .inr ⟨_, rfl⟩
  case quotedText =>
    obtain ⟨-, rfl⟩ := readPiece_eq_error h
    exact .inr ⟨_, rfl⟩
  case whiteSpace =>
    obtain ⟨-, rfl⟩ := readPiece_eq_error h
    exact .inr ⟨_, rfl⟩
  case backslash =>
    obtain ⟨-, rfl⟩ := readPiece_eq_error h
    exact .inl .danglingBackslash
  case singleQuoted =>
    obtain ⟨-, rfl⟩ := readPiece_eq_error h
    exact .inl .unterminatedSingleQuote
  case doubleQuote =>
    rw [readDoubleQuote_eq] at h
    split at h
    · cases h
    · cases h
    · cases h
    · exact .inr ⟨_, by rw [← Except.error.inj h]; rfl⟩

/-- A mode that the next character chose shows only faults of its own: the piece that it reads
begins with this character. -/
theorem Fails.shows (h : Fails policy config lexer mode failure)
    (hmode : lexer.nextMode = .ok mode) : mode.Shows failure.fault := by
  cases h with
  | choice => exact absurd rfl (nextMode_ne hmode).2
  | piece hm h =>
    obtain hown | ⟨what, hinvalid⟩ := fault_of_reads hm h
    · exact hown
    · -- A fault without a name shows nowhere in a mode that was chosen.
      obtain ⟨-, -, hshows⟩ := shows_of_reads hm hmode h
      rw [hinvalid] at hshows
      exact hshows.elim
  | reference => exact .invalidReference
  | undefined => exact .undefinedVariable _
  | lineEnd hm h =>
    obtain ⟨c, tail, hr, hc⟩ := exists_accepts_of_nextMode hmode (by rintro rfl; cases hm)
    cases mode <;> cases hm
    · obtain rfl : c = '#' := by simpa [Mode.accepts] using hc
      rw [hr] at h
      cases h
    · exact .invalidLineBreak

theorem consumes_of_ends {reader : Reader Unit} (hm : mode.ends? = some reader) :
    Token.Consumes reader := by
  cases mode <;> cases hm
  case comment => exact Token.consumes_comment
  case lineBreak => exact Token.consumes_lineEnds

end

end Lexer

/-! ## Progress -/

namespace Scan

/-- What a state does in a mode that the next character chose. -/
inductive Progress (scope : Scope) (scan : Scan) : Prop
  /-- It reads characters, and the scan goes on behind them. -/
  | reads {next : Scan} {read : List Char} (h : Next scope scan next) (hread : read ≠ [])
    (hrest : scan.lexer.cursor.rest = read ++ next.lexer.cursor.rest)
  /-- It reads the characters that end a line, and the directive of the line fails. -/
  | directive {ended : Lexer} {continuation : Continuation} {call : DirectiveCall}
    {read : List Char} {error : Error} {last : Session}
    (h : scan.step scope = (.error error, last))
    (hended : scan.lexer.ended? scan.mode = some (ended, continuation))
    (hcall : ended.called? = some call)
    (hperform : scope.perform call (ended.locate scope ended.lineOffset) scan.session =
      (.error error, last))
    (hread : read ≠ []) (hrest : scan.lexer.cursor.rest = read ++ ended.cursor.rest)
  /-- It is at the end of the text. -/
  | finish (hmode : scan.mode = .finish) (hrest : scan.lexer.cursor.rest = [])
  /-- It shows a fault of its mode, and has no effect. -/
  | fails {failure : LexFailure} (hshows : scan.mode.Shows failure.fault)
    (h : scan.step scope = (.error (scope.lexError scan.lexer.cursor failure), scan.session))

section
variable {scope : Scope} {scan chosen next : Scan} {mode : Mode} {lexer : Lexer}
  {session last : Session} {error : Error}

theorem exists_read_of_next (hmode : lexer.nextMode = .ok mode)
    (h : Next scope ⟨mode, lexer, session⟩ next) :
    ∃ read, read ≠ [] ∧ lexer.cursor.rest = read ++ next.lexer.cursor.rest := by
  obtain ⟨read, hread⟩ := Lexer.rest_of_step h
  have hlt := Lexer.weight_lt_of_step h
  simp only [Lexer.weight, Lexer.rank_of_nextMode hmode] at hlt
  refine ⟨read, ?_, hread.symm⟩
  -- A chosen mode has rank 0, so the weight can fall only with the text to come.
  rintro rfl
  rw [← hread, List.nil_append] at hlt
  omega

theorem progress_of_nextMode (scope : Scope) (session : Session)
    (hmode : lexer.nextMode = .ok mode) : Progress scope ⟨mode, lexer, session⟩ := by
  rcases hstep : step scope ⟨mode, lexer, session⟩ with ⟨error | continuation, last⟩
  · obtain ⟨failure, hfails, rfl, rfl⟩ | ⟨ended, continuation, call, hended, hcall, hperform⟩ :=
      Lexer.step_error_cases hstep
    · exact .fails (hfails.shows hmode) hstep
    · obtain ⟨rfl, -, -⟩ | ⟨reader, found, hm, hf, hafter, -⟩ := Lexer.ended?_cases hended
      · exact .finish rfl (Lexer.nextMode_eq_finish hmode).2
      · obtain ⟨hpos, hne⟩ := Lexer.consumes_of_ends hm _ _ hf
        have hread : lexer.cursor.rest.take found.length ≠ [] := by
          rw [Ne, List.take_eq_nil_iff]
          exact fun h => h.elim (Nat.ne_of_gt hpos) hne
        have hrest : ended.cursor.rest = lexer.cursor.rest.drop found.length := by rw [hafter]; rfl
        exact .directive hstep hended hcall hperform hread
          (by rw [hrest, List.take_append_drop])
  · cases continuation with
    | none =>
      obtain ⟨rfl, -⟩ := Lexer.step_eq_none hstep
      exact .finish rfl (Lexer.nextMode_eq_finish hmode).2
    | some next =>
      obtain ⟨after, rest⟩ := next
      have hnext : Next scope ⟨mode, lexer, session⟩ ⟨after, rest, last⟩ := hstep
      obtain ⟨read, hread, hrest⟩ := exists_read_of_next hmode hnext
      exact .reads hnext hread hrest

theorem progress_of_next (hmode : scan.mode = .dispatch) (h : Next scope scan chosen) :
    Progress scope chosen := by
  obtain ⟨mode, lexer, session⟩ := scan
  obtain rfl : mode = .dispatch := hmode
  obtain ⟨hm, -⟩ | ⟨-, hnext, hlexer, -⟩ | ⟨read, hm, -⟩ | ⟨hm, -⟩ | ⟨reader, hm, -⟩ :=
    Lexer.step_cases h
  · cases hm
  · rw [← hlexer] at hnext
    exact progress_of_nextMode scope chosen.session hnext
  · cases hm
  · cases hm
  · cases hm

/-- Where no mode can be chosen, the text ends between double quotes. -/
theorem unterminated_of_step (hmode : scan.mode = .dispatch)
    (h : scan.step scope = (.error error, last)) :
    scan.lexer.cursor.rest = [] ∧ ∃ offset, scan.lexer.quote = some offset ∧
      error = scope.lexError scan.lexer.cursor ⟨.unterminatedDoubleQuote, offset⟩ := by
  obtain ⟨mode, lexer, session⟩ := scan
  obtain rfl : mode = .dispatch := hmode
  obtain ⟨⟨fault, offset⟩, hfails, rfl, -⟩ | ⟨ended, continuation, call, hended, -⟩ :=
    Lexer.step_error_cases h
  · cases hfails with
    | choice h =>
      obtain ⟨rfl, hquote, hrest⟩ := Lexer.nextMode_eq_error h
      exact ⟨hrest, offset, hquote, rfl⟩
    | piece hm => cases hm
    | lineEnd hm => cases hm
  · cases hended

end

end Scan

/-- The scan of a text ends, in a number of steps that the length of the text bounds, and each of
its steps reads characters, ends the text, looks at the next character or fails for a reason that
has a name. The steps of a text that a directive evaluates are not counted. -/
structure Scope.Progresses (scope : Scope) (text : String) (session : Session) : Prop where
  ends : ∃ count, Scan.EndsIn scope count (.start text session) (scope.evaluate text session)
  bounded : ∀ count outcome, Scan.EndsIn scope count (.start text session) outcome →
    count ≤ 3 * text.length + 3
  chosen : ∀ scan chosen, Scan.Reaches scope (.start text session) scan → scan.mode = .dispatch →
    Scan.Next scope scan chosen → chosen.Progress scope
  choice : ∀ scan error last, Scan.Reaches scope (.start text session) scan →
    scan.mode = .dispatch → scan.step scope = (.error error, last) →
    scan.lexer.cursor.rest = [] ∧ ∃ offset, scan.lexer.quote = some offset ∧
      error = scope.lexError scan.lexer.cursor ⟨.unterminatedDoubleQuote, offset⟩

theorem Scope.progresses (scope : Scope) (text : String) (session : Session) :
    scope.Progresses text session where
  ends := Scan.exists_endsIn scope _
  bounded count outcome h := by
    have hle := h.le_weight
    rw [Scan.weight_start] at hle
    exact hle
  chosen scan chosen _ hmode h := Scan.progress_of_next hmode h
  choice scan error last _ hmode h := Scan.unterminated_of_step hmode h

end ShellConfig
