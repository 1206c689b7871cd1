import ShellConfig.Proofs.Lexer.Characters
import ShellConfig.Proofs.Lexer.Scan

/-!
What is wrong with a text, and where it shows. Every fault says something of the text from its
place on (`LexFault.ShowsAt`). A failure names the place of the cursor, or that of the double quote
which is open at the end of the text (`Fails.shows_cases`). So it shows in the state in which the step
fails or in the one that read the open quote (`LexFault.ShowsIn`, `Occurs.shows_of_fails`).
-/

set_option autoImplicit false

namespace ShellConfig

/-! ## Pieces and their first characters -/

/-- Whether a piece of the text that is read in this mode begins with the character. -/
def Mode.accepts : Mode → Char → Bool
  | .bareText, c => isBareChar c
  | .quotedText, c => Token.isQuotedChar c
  | .whiteSpace, c => isInlineBlank c
  | .backslash, c => c = '\\'
  | .singleQuoted, c => c = '\''
  | .doubleQuote, c => c = '"'
  | .reference, c => c = '$'
  | .comment, c => c = '#'
  | .lineBreak, c => c = '\r' || c = '\n'
  | .beginOfLine, _ | .dispatch, _ | .finish, _ => false

theorem Mode.accepts_insideQuotes (c : Char) : (insideQuotes c).accepts c = true := by
  unfold insideQuotes
  repeat' split
  all_goals simp_all [accepts, Token.isQuotedChar]

theorem Mode.accepts_outsideQuotes (c : Char) : (outsideQuotes c).accepts c = true := by
  unfold outsideQuotes
  repeat' split
  all_goals simp_all [accepts, isBareChar, isInlineBlank]

namespace Token

theorem run_eq_none {accepts : Char → Bool} {c : Char} {tail : List Char}
    (h : run accepts (c :: tail) = none) : accepts c = false := by
  unfold run at h
  split at h
  · next hnil =>
    by_cases hc : accepts c
    · rw [List.takeWhile_cons_of_pos hc] at hnil
      cases hnil
    · simpa using hc
  · cases h

theorem separator_eq_none {c : Char} {tail : List Char} (h : separator (c :: tail) = none) :
    isInlineBlank c = false := by
  by_cases hc : isInlineBlank c
  · rw [separator, separatorLength_blank hc] at h
    cases h
  · simpa using hc

theorem escaped_eq_none {tail : List Char} (h : escaped ('\\' :: tail) = none) : tail = [] := by
  cases tail with
  | nil => rfl
  | cons c tail => unfold escaped at h; split at h <;> simp_all

theorem singleQuoted_eq_none {tail : List Char} (h : singleQuoted ('\'' :: tail) = none) :
    '\'' ∉ tail := by
  intro hm
  rw [singleQuoted, upTo, if_pos hm] at h
  cases h

theorem lineEnds_eq_none {c : Char} {tail : List Char} (hc : c = '\r' ∨ c = '\n')
    (h : lineEnds (c :: tail) = none) : c = '\r' ∧ tail.head? ≠ some '\n' := by
  obtain rfl | rfl := hc
  · refine ⟨rfl, fun hhead => ?_⟩
    obtain ⟨rest, rfl⟩ := List.head?_eq_some_iff.1 hhead
    rw [lineEnds, lineEndsLength_return] at h
    cases h
  · rw [lineEnds, lineEndsLength] at h
    cases h

/-- What comes after a double quote that is never closed: text, literal characters and references
up to the end. -/
inductive Unclosed : List Char → Prop
  | nil : Unclosed []
  | text {text : List Char} {found : Match String} (h : quotedText text = some found)
    (hrest : Unclosed (text.drop found.length)) : Unclosed text
  | escaped {text : List Char} {found : Match (Option Char)} (h : escaped text = some found)
    (hrest : Unclosed (text.drop found.length)) : Unclosed text
  | reference {text : List Char} {found : Match Reference} (h : reference text = some found)
    (hrest : Unclosed (text.drop found.length)) : Unclosed text

end Token

/-! ## Faults -/

/-- What a fault says of the state at its place. -/
def LexFault.ShowsAt (mode : Mode) (lexer : Lexer) : LexFault → Prop
  | unterminatedSingleQuote => ∃ tail, lexer.cursor.rest = '\'' :: tail ∧ '\'' ∉ tail
  | unterminatedDoubleQuote => mode = .doubleQuote ∧ lexer.inQuotes = false ∧
    ∃ tail, lexer.cursor.rest = '"' :: tail ∧ Token.Unclosed tail
  | invalidReference => ∃ tail, lexer.cursor.rest = '$' :: tail ∧
    Token.reference lexer.cursor.rest = none
  | invalidLineBreak => ∃ tail, lexer.cursor.rest = '\r' :: tail ∧ tail.head? ≠ some '\n'
  | danglingBackslash => lexer.cursor.rest = ['\\']
  | invalid _ => False
  | undefinedVariable name => ∃ tail found, lexer.cursor.rest = '$' :: tail ∧
    Token.reference lexer.cursor.rest = some found ∧ found.value.name = name

/-- In which state a fault shows that a step has found: where the text ends between double quotes in
the one that read the quote which is still open, and otherwise in the step's own. -/
def LexFault.ShowsIn (mode : Mode) (lexer : Lexer) (shown : Mode) (place : Lexer) :
    LexFault → Prop
  | unterminatedDoubleQuote =>
    lexer.cursor.rest = [] ∧ shown = .doubleQuote ∧ place.InQuotesOf mode lexer
  | _ => shown = mode ∧ place = lexer

namespace Lexer

section
variable {mode : Mode} {lexer : Lexer} {failure : LexFailure}

/-- In a mode that was chosen by the next character there is one, and the piece begins with it. -/
theorem exists_accepts_of_nextMode (h : lexer.nextMode = .ok mode) (hne : mode ≠ .finish) :
    ∃ c tail, lexer.cursor.rest = c :: tail ∧ mode.accepts c = true := by
  rw [nextMode_eq] at h
  cases hr : lexer.cursor.rest with
  | nil =>
    rw [hr] at h
    cases hq : lexer.quote <;> rw [hq] at h
    · exact absurd (Except.ok.inj h).symm hne
    · cases h
  | cons c tail =>
    rw [hr] at h
    cases hq : lexer.quote <;> rw [hq] at h <;> obtain rfl := Except.ok.inj h
    · exact ⟨c, tail, rfl, Mode.accepts_outsideQuotes c⟩
    · exact ⟨c, tail, rfl, Mode.accepts_insideQuotes c⟩

theorem mode_of_quote {offset : Nat} (hquote : lexer.quote = some offset)
    (h : lexer.nextMode = .ok mode) :
    mode = .backslash ∨ mode = .reference ∨ mode = .doubleQuote ∨ mode = .quotedText := by
  rw [nextMode_eq, hquote] at h
  cases hr : lexer.cursor.rest with
  | nil => rw [hr] at h; cases h
  | cons c tail =>
    rw [hr] at h
    obtain rfl := Except.ok.inj h
    unfold Mode.insideQuotes
    repeat' split
    all_goals simp

theorem nextMode_eq_error (h : lexer.nextMode = .error failure) :
    failure.fault = .unterminatedDoubleQuote ∧ lexer.quote = some failure.offset ∧
      lexer.cursor.rest = [] := by
  rw [nextMode_eq] at h
  cases hq : lexer.quote <;> cases hr : lexer.cursor.rest <;> rw [hq, hr] at h <;> cases h
  exact ⟨rfl, rfl, rfl⟩

/-- Of the pieces that need nothing but the text, a single quote and a backslash can fail. -/
theorem shows_of_reads {read : Lexer → Except LexFailure Lexer} (hm : mode.reads? = some read)
    (hmode : lexer.nextMode = .ok mode) (h : read lexer = .error failure) :
    failure.fault ≠ .unterminatedDoubleQuote ∧ failure.offset = lexer.cursor.offset ∧
      failure.fault.ShowsAt mode lexer := by
  have hne : mode ≠ .finish := by rintro rfl; cases hm
  obtain ⟨c, tail, hr, hc⟩ := exists_accepts_of_nextMode hmode hne
  have hrun {accepts : Char → Bool} (hc : accepts c = true)
      (hf : Token.run accepts lexer.cursor.rest = none) : False := by
    rw [hr] at hf
    rw [Token.run_eq_none hf] at hc
    cases hc
  cases mode <;> cases hm
  case bareText => exact (hrun hc (readPiece_eq_error h).1).elim
  case quotedText => exact (hrun hc (readPiece_eq_error h).1).elim
  case whiteSpace =>
    obtain ⟨hf, -⟩ := readPiece_eq_error h
    rw [hr] at hf
    rw [Mode.accepts, Token.separator_eq_none hf] at hc
    cases hc
  case backslash =>
    obtain rfl : c = '\\' := by simpa [Mode.accepts] using hc
    obtain ⟨hf, rfl⟩ := readPiece_eq_error h
    rw [hr] at hf
    have hlast : lexer.cursor.rest = ['\\'] := by rw [hr, Token.escaped_eq_none hf]
    exact ⟨by rintro ⟨⟩, rfl, hlast⟩
  case singleQuoted =>
    obtain rfl : c = '\'' := by simpa [Mode.accepts] using hc
    obtain ⟨hf, rfl⟩ := readPiece_eq_error h
    rw [hr] at hf
    exact ⟨by rintro ⟨⟩, rfl, tail, hr, Token.singleQuoted_eq_none hf⟩
  case doubleQuote =>
    obtain rfl : c = '"' := by simpa [Mode.accepts] using hc
    rw [readDoubleQuote_eq, hr] at h
    split at h
    · cases h
    · cases h
    · cases h
    · next hcloses _ hopens =>
      cases hq : lexer.inQuotes
      · exact (hopens _ hq rfl).elim
      · exact (hcloses _ hq rfl).elim

end

section
variable {text : String} {mode : Mode} {lexer : Lexer} {policy : UndefinedPolicy}
  {config : Config} {failure : LexFailure}

/-- A failure shows at the cursor, or is that the text ends between double quotes. -/
theorem Fails.shows_cases (h : Fails policy config lexer mode failure)
    (hoccurs : Occurs text mode lexer) :
    (failure.fault ≠ .unterminatedDoubleQuote ∧ failure.offset = lexer.cursor.start ∧
      failure.fault.ShowsAt mode lexer) ∨
    (failure.fault = .unterminatedDoubleQuote ∧ lexer.quote = some failure.offset ∧
      lexer.cursor.rest = []) := by
  have hfits := hoccurs.fits
  cases h with
  | choice h => exact .inr (nextMode_eq_error h)
  | piece hm h =>
    obtain ⟨hfault, hoffset, hshows⟩ := shows_of_reads hm (nextMode_of_reads hm hfits) h
    exact .inl ⟨hfault, hoffset.trans hoccurs.offset_eq, hshows⟩
  | reference h =>
    obtain ⟨c, tail, hr, hc⟩ := exists_accepts_of_nextMode hfits (by decide)
    obtain rfl : c = '$' := by simpa [Mode.accepts] using hc
    exact .inl ⟨by rintro ⟨⟩, hoccurs.offset_eq, tail, hr, h⟩
  | undefined h =>
    obtain ⟨c, tail, hr, hc⟩ := exists_accepts_of_nextMode hfits (by decide)
    obtain rfl : c = '$' := by simpa [Mode.accepts] using hc
    exact .inl ⟨by rintro ⟨⟩, rfl, tail, _, hr, h, rfl⟩
  | lineEnd hm h =>
    have hmode := nextMode_of_ends hm hfits
    refine .inl ⟨by rintro ⟨⟩, hoccurs.offset_eq, ?_⟩
    obtain ⟨c, tail, hr, hc⟩ := exists_accepts_of_nextMode hmode (by rintro rfl; cases hm)
    rw [hr] at h
    cases mode <;> cases hm
    · obtain rfl : c = '#' := by simpa [Mode.accepts] using hc
      cases h
    · have hc : c = '\r' ∨ c = '\n' := by simpa [Mode.accepts] using hc
      obtain ⟨rfl, hhead⟩ := Token.lineEnds_eq_none hc h
      exact ⟨tail, hr, hhead⟩

/-! ## The double quote that is open -/

theorem unclosed_of_reads {read : Lexer → Except LexFailure Lexer} {after : Lexer} {offset : Nat}
    (hm : mode.reads? = some read) (hmode : lexer.nextMode = .ok mode)
    (hquote : lexer.quote = some offset) (hafter : after.quote = some offset)
    (h : read lexer = .ok after) (hrest : Token.Unclosed after.cursor.rest) :
    Token.Unclosed lexer.cursor.rest := by
  have hquotes : lexer.inQuotes = true := by rw [inQuotes, hquote]; rfl
  obtain rfl | rfl | rfl | rfl := mode_of_quote hquote hmode <;> cases hm
  · obtain ⟨⟨length, _ | c⟩, hf, rfl⟩ := readPiece_eq_ok h
    · change Token.Unclosed (if lexer.inQuotes then _ else _ : Lexer).cursor.rest at hrest
      rw [if_pos hquotes] at hrest
      exact .escaped hf hrest
    · exact .escaped hf hrest
  · rw [readDoubleQuote_eq, hquotes] at h
    split at h
    · obtain rfl := Except.ok.inj h
      cases hafter
    · next hfalse _ => cases hfalse
    · next hfalse _ => cases hfalse
    · cases h
  · obtain ⟨found, hf, rfl⟩ := readPiece_eq_ok h
    exact .text hf hrest

theorem rest_of_readReference {scope : Scope} {after : Lexer} {session last : Session}
    {found : Match Reference} (hf : Token.reference lexer.cursor.rest = some found)
    (h : lexer.readReference scope session = (.ok after, last)) :
    after.cursor.rest = lexer.cursor.rest.drop found.length := by
  rw [readReference_eq, hf] at h
  simp only at h
  split at h
  · rw [← Except.ok.inj (Prod.mk.inj h).1]
    rfl
  · rw [← Except.ok.inj (Prod.mk.inj h).1]
    rfl
  · obtain ⟨_, -, rfl⟩ := Evaluation.map_eq_ok h
    rfl

theorem rest_of_opening {after : Lexer} {tail : List Char} (hquotes : lexer.inQuotes = false)
    (hr : lexer.cursor.rest = '"' :: tail) (h : lexer.readDoubleQuote = .ok after)
    (hafter : after.inQuotes = true) : after.cursor.rest = tail := by
  rw [readDoubleQuote_eq, hquotes, hr] at h
  split at h
  · next htrue _ => cases htrue
  · obtain rfl := Except.ok.inj h
    have hfalse : lexer.inQuotes = true := hafter
    rw [hquotes] at hfalse
    cases hfalse
  · obtain rfl := Except.ok.inj h
    change lexer.cursor.rest.drop 1 = tail
    rw [hr]
    rfl
  · cases h

/-- An open double quote has been read where none was open, and what has been read since then does
not close it. -/
theorem Occurs.opening (h : Occurs text mode lexer) :
    ∀ offset, lexer.quote = some offset → ∃ opening tail,
      Occurs text .doubleQuote opening ∧ opening.InQuotesOf mode lexer ∧
      opening.inQuotes = false ∧ opening.cursor.start = offset ∧ opening.cursor.rest = '"' :: tail ∧
      (Token.Unclosed lexer.cursor.rest → Token.Unclosed tail) := by
  induction h with
  | start => exact fun _ ho => nomatch ho
  | @step scope mode next lexer after session last hoccurs hstep ih =>
    intro offset ho
    have hfits := hoccurs.fits
    have hopen : after.inQuotes = true := by rw [inQuotes, ho]; rfl
    -- The quote was open before the step, or the step opens it.
    obtain hbefore | ⟨rfl, hnone, rfl⟩ := (marks_of_step hstep).2 offset ho
    · obtain ⟨opening, tail, hopening, hregion, hq, hstart, hrest, htail⟩ := ih offset hbefore
      refine ⟨opening, tail, hopening, hregion.step hstep hopen, hq, hstart, hrest,
        fun hunclosed => htail ?_⟩
      have hquotes : lexer.inQuotes = true := by rw [inQuotes, hbefore]; rfl
      obtain ⟨rfl, -, -, -⟩ | ⟨-, -, rfl, -⟩ | ⟨read, hm, -, hread, -⟩ | ⟨rfl, -, hread⟩ |
        ⟨reader, hm, -, -⟩ := step_cases hstep
      · have hfalse : lexer.inQuotes = false := congrArg Reading.inQuotes hfits
        rw [hquotes] at hfalse
        cases hfalse
      · exact hunclosed
      · exact unclosed_of_reads hm (nextMode_of_reads hm hfits) hbefore ho hread hunclosed
      · have hr := hread
        rw [readReference_eq] at hr
        cases hf : Token.reference lexer.cursor.rest with
        | none => rw [hf] at hr; cases hr
        | some found => exact .reference hf (rest_of_readReference hf hread ▸ hunclosed)
      · have hfalse := inQuotes_of_ends hm (nextMode_of_ends hm hfits)
        rw [hquotes] at hfalse
        cases hfalse
    · obtain ⟨c, tail, hr, hc⟩ := exists_accepts_of_nextMode hfits (by decide)
      obtain rfl : c = '"' := by simpa [Mode.accepts] using hc
      have hquotes : lexer.inQuotes = false := by rw [inQuotes, hnone]; rfl
      have hread : lexer.readDoubleQuote = .ok after := by
        rw [step_of_reads rfl] at hstep
        exact (continueIn_eq_ok (Prod.mk.inj hstep).1).2
      have hrest := rest_of_opening hquotes hr hread hopen
      exact ⟨lexer, tail, hoccurs, .step .refl hstep hopen, hquotes, rfl, hr,
        fun hunclosed => hrest ▸ hunclosed⟩

/-- A failure shows at a place that the scan has come to. -/
theorem Occurs.shows_of_fails (hoccurs : Occurs text mode lexer)
    (h : Fails policy config lexer mode failure) :
    ∃ shown place, Occurs text shown place ∧ place.cursor.start = failure.offset ∧
      failure.fault.ShowsIn mode lexer shown place ∧ failure.fault.ShowsAt shown place := by
  obtain ⟨hfault, hoffset, hshows⟩ | ⟨hfault, hquote, hrest⟩ := h.shows_cases hoccurs
  · refine ⟨mode, lexer, hoccurs, hoffset.symm, ?_, hshows⟩
    unfold LexFault.ShowsIn
    split
    · next heq => exact absurd heq hfault
    · exact ⟨rfl, rfl⟩
  · obtain ⟨opening, tail, hopening, hregion, hq, hstart, hr, hunclosed⟩ :=
      hoccurs.opening _ hquote
    refine ⟨.doubleQuote, opening, hopening, hstart, ?_, ?_⟩
    · rw [hfault]
      exact ⟨hrest, rfl, hregion⟩
    · rw [hfault]
      exact ⟨rfl, hq, tail, hr, hunclosed (hrest ▸ .nil)⟩

end

end Lexer
end ShellConfig
