import ShellConfig.Proofs.Lexer.Steps

/-!
Where a step can end a line or fail. A line that ends either calls a directive (`called?`) or
applies its operation (`endLine_eq`), and a step that ends no line leaves the configuration and
asks nothing of the directives (`step_of_not_ended`); where it resolves no reference either, it asks
for nothing but the text (`step_of_text`). A step fails where a piece of the text cannot be read
(`Fails`) or where the directive of a line does (`step_error_cases`).
-/

set_option autoImplicit false

namespace ShellConfig

theorem Evaluation.eq_error_of_map {α β : Type} {f : α → β} {evaluation : Evaluation α}
    {session last : Session} {error : Error}
    (h : Evaluation.map f evaluation session = (.error error, last)) :
    evaluation session = (.error error, last) := by
  unfold Evaluation.map at h
  rcases he : evaluation session with ⟨found | value, middle⟩ <;> rw [he] at h
  · obtain ⟨hfound, rfl⟩ := Prod.mk.inj h
    rw [Except.error.inj hfound]
  · cases h

namespace Lexer

/-! ## The end of a line -/

/-- The directive that the line calls when it ends in this state. -/
def called? (lexer : Lexer) : Option DirectiveCall :=
  match lexer.pending with
  | .directive => DirectiveCall.ofWords? lexer.endWord.line
  | _ => none

/-- The offset of the line's first word, to which its directive belongs. -/
def lineOffset (lexer : Lexer) : Nat := lexer.lineStart.getD lexer.cursor.start

/-- What the line makes of the configuration when it ends in this state and calls no directive. -/
def applied (lexer : Lexer) (config : Config) : Config :=
  (lexer.pending.apply lexer.endWord.line config).1

/-- The state in which the line ends, if it does so in this mode, and how the scan goes on then. -/
def ended? (lexer : Lexer) : Mode → Option (Lexer × Continuation)
  | .finish => some (lexer, none)
  | mode => mode.ends?.bind fun reader => (reader lexer.cursor.rest).map fun found =>
    (lexer.take found.length, some (.beginOfLine, (lexer.take found.length).clearLine))

section
variable {scope : Scope} {mode next : Mode} {lexer after ended : Lexer} {session last : Session}
  {continuation : Continuation}

theorem called?_eq_some {call : DirectiveCall} (h : lexer.called? = some call) :
    lexer.pending = .directive ∧ DirectiveCall.ofWords? lexer.endWord.line = some call := by
  unfold called? at h
  split at h
  · next hp => exact ⟨hp, h⟩
  · cases h

theorem called?_eq_none (h : lexer.pending ≠ .directive) : lexer.called? = none := by
  unfold called?
  cases hp : lexer.pending with
  | directive => exact absurd hp h
  | plain | set | append | setIfUnset => rfl

theorem endLine_eq (scope : Scope) (lexer : Lexer) (session : Session) :
    lexer.endLine scope session = match lexer.called? with
      | some call => scope.perform call (lexer.locate scope lexer.lineOffset) session
      | none => (.ok (), { session with config := lexer.applied session.config }) := by
  unfold endLine called? applied lineOffset
  cases lexer.pending with
  | directive =>
    simp only [Operation.apply]
    cases DirectiveCall.ofWords? lexer.endWord.line <;> rfl
  | plain | set | append | setIfUnset => rfl

theorem ended?_of_ends {reader : Reader Unit} (h : mode.ends? = some reader) :
    lexer.ended? mode = (reader lexer.cursor.rest).map fun found =>
      (lexer.take found.length, some (.beginOfLine, (lexer.take found.length).clearLine)) := by
  cases mode <;> cases h <;> rfl

/-- A line ends at the end of the text, or with the line end or comment that is read there. -/
theorem ended?_cases (h : lexer.ended? mode = some (ended, continuation)) :
    (mode = .finish ∧ ended = lexer ∧ continuation = none) ∨
    ∃ reader found, mode.ends? = some reader ∧ reader lexer.cursor.rest = some found ∧
      ended = lexer.take found.length ∧ continuation = some (.beginOfLine, ended.clearLine) := by
  have hends {reader : Reader Unit} (hm : mode.ends? = some reader) :
      ∃ found, reader lexer.cursor.rest = some found ∧ ended = lexer.take found.length ∧
        continuation = some (.beginOfLine, ended.clearLine) := by
    rw [ended?_of_ends hm, Option.map_eq_some_iff] at h
    obtain ⟨found, hf, he⟩ := h
    obtain ⟨rfl, rfl⟩ := Prod.mk.inj he
    exact ⟨found, hf, rfl, rfl⟩
  cases mode with
  | finish =>
    obtain ⟨rfl, rfl⟩ := Prod.mk.inj (Option.some.inj h)
    exact .inl ⟨rfl, rfl, rfl⟩
  | comment | lineBreak =>
    obtain ⟨found, hfound⟩ := hends rfl
    exact .inr ⟨_, found, rfl, hfound⟩
  | beginOfLine | dispatch | bareText | quotedText | whiteSpace | backslash | singleQuoted
  | doubleQuote | reference => cases h

/-- What is read in a mode that ends no line. -/
theorem ended?_eq_none (h : lexer.ended? mode = none) :
    mode ≠ .finish ∧ ∀ reader, mode.ends? = some reader → reader lexer.cursor.rest = none := by
  refine ⟨?_, fun reader hm => ?_⟩
  · rintro rfl
    cases h
  · rw [ended?_of_ends hm, Option.map_eq_none_iff] at h
    exact h

/-! ## Steps -/

/-- The step at the end of a line does what the line asks for. -/
theorem step_of_ended (h : lexer.ended? mode = some (ended, continuation)) :
    step scope mode lexer session =
      Evaluation.map (fun _ => continuation) (ended.endLine scope) session := by
  obtain ⟨rfl, rfl, rfl⟩ | ⟨reader, found, hm, hf, rfl, rfl⟩ := ended?_cases h
  · rfl
  · rw [step_of_ends hm, Evaluation.map, readLineEnd_eq, hf]
    simp only [Evaluation.map]
    cases (lexer.take found.length).endLine scope session with
    | mk result last => cases result <;> rfl

theorem step_of_called {call : DirectiveCall} (h : lexer.ended? mode = some (ended, continuation))
    (hc : ended.called? = some call) :
    step scope mode lexer session = Evaluation.map (fun _ => continuation)
      (scope.perform call (ended.locate scope ended.lineOffset)) session := by
  rw [step_of_ended h, Evaluation.map, Evaluation.map, endLine_eq, hc]

theorem step_of_applied (h : lexer.ended? mode = some (ended, continuation))
    (hc : ended.called? = none) :
    step scope mode lexer session =
      (.ok continuation, { session with config := ended.applied session.config }) := by
  rw [step_of_ended h, Evaluation.map, endLine_eq, hc]
  rfl

/-- A step that neither ends a line nor resolves a reference asks for nothing but the text. -/
theorem step_of_text (h : lexer.ended? mode = none) (hmode : mode ≠ .reference) :
    ∃ result : Except LexFailure Continuation, ∀ scope session,
      step scope mode lexer session =
        (result.mapError (scope.lexError lexer.cursor), session) := by
  obtain ⟨hfinish, hends⟩ := ended?_eq_none h
  have hreads {read : Lexer → Except LexFailure Lexer} (hm : mode.reads? = some read) :
      ∃ result : Except LexFailure Continuation, ∀ scope session,
        step scope mode lexer session =
          (result.mapError (scope.lexError lexer.cursor), session) := by
    refine ⟨(read lexer).map fun next => some (.dispatch, next), fun scope session => ?_⟩
    rw [step_of_reads hm]
    cases read lexer <;> rfl
  have hlineEnd {reader : Reader Unit} (hm : mode.ends? = some reader) :
      ∃ result : Except LexFailure Continuation, ∀ scope session,
        step scope mode lexer session =
          (result.mapError (scope.lexError lexer.cursor), session) := by
    refine ⟨.error (lexer.failure .invalidLineBreak), fun scope session => ?_⟩
    rw [step_of_ends hm, Evaluation.map, readLineEnd_eq, hends _ hm]
    rfl
  cases mode with
  | beginOfLine => exact ⟨.ok (some (.dispatch, lexer.beginLine)), fun _ _ => rfl⟩
  | dispatch =>
    refine ⟨lexer.nextMode.map fun next => some (next, lexer), fun scope session => ?_⟩
    simp only [step]
    cases lexer.nextMode <;> rfl
  | bareText | quotedText | whiteSpace | backslash | singleQuoted | doubleQuote => exact hreads rfl
  | comment | lineBreak => exact hlineEnd rfl
  | reference => exact absurd rfl hmode
  | finish => exact absurd rfl hfinish

/-- A step that ends no line has nothing to do with the directives. -/
theorem step_of_not_ended (h : lexer.ended? mode = none)
    (perform : DirectiveCall → Location → Evaluation Unit) :
    step scope mode lexer session = step { scope with perform } mode lexer session := by
  by_cases hmode : mode = .reference
  · subst hmode
    rfl
  · obtain ⟨result, hstep⟩ := step_of_text h hmode
    rw [hstep, hstep]
    rfl

theorem config_of_not_ended (h : lexer.ended? mode = none) :
    (step scope mode lexer session).2.config = session.config := by
  by_cases hmode : mode = .reference
  · subst hmode
    exact config_readReference scope lexer session
  · obtain ⟨result, hstep⟩ := step_of_text h hmode
    rw [hstep]

/-- A step to the beginning of a line ends one, and any other step that goes on ends none. -/
theorem ended?_of_step (h : step scope mode lexer session = (.ok (some (next, after)), last)) :
    (next = .beginOfLine ∧ ∃ ended, lexer.ended? mode = some (ended, some (next, after)) ∧
      after = ended.clearLine) ∨
    (next ≠ .beginOfLine ∧ lexer.ended? mode = none) := by
  obtain ⟨rfl, rfl, -, -⟩ | ⟨rfl, hm, -, -⟩ | ⟨read, hm, rfl, -, -⟩ | ⟨rfl, rfl, -⟩ |
    ⟨reader, hm, rfl, hread⟩ := step_cases h
  · exact .inr ⟨by decide, rfl⟩
  · exact .inr ⟨(nextMode_ne hm).1, rfl⟩
  · exact .inr ⟨by decide, by cases mode <;> cases hm <;> rfl⟩
  · exact .inr ⟨by decide, rfl⟩
  · rw [readLineEnd_eq] at hread
    cases hf : reader lexer.cursor.rest with
    | none => rw [hf] at hread; cases hread
    | some found =>
      rw [hf] at hread
      obtain ⟨_, -, rfl⟩ := Evaluation.map_eq_ok hread
      refine .inl ⟨rfl, lexer.take found.length, ?_, rfl⟩
      rw [ended?_of_ends hm, hf]
      rfl

theorem expand_eq_undefined_iff {config : Config} {reference : Reference} {inQuotes : Bool} :
    config.expand reference inQuotes = .undefined ↔ config.get? reference.name = none := by
  unfold Config.expand
  cases config.get? reference.name <;> cases inQuotes <;> simp

/-- A step that ends no line can only add a warning, about a reference to a variable that is not
set. -/
theorem session_of_not_ended (h : lexer.ended? mode = none)
    (hstep : step scope mode lexer session = (.ok (some (next, after)), last)) :
    last = session ∨ mode = .reference ∧ ∃ found, Token.reference lexer.cursor.rest = some found ∧
      session.config.get? found.value.name = none ∧
      last = session.warn ⟨found.value.name, lexer.locate scope lexer.cursor.start⟩ := by
  obtain ⟨-, -, -, rfl⟩ | ⟨-, -, -, rfl⟩ | ⟨read, -, -, -, rfl⟩ | ⟨rfl, -, hread⟩ |
    ⟨reader, hm, rfl, -⟩ := step_cases hstep
  · exact .inl rfl
  · exact .inl rfl
  · exact .inl rfl
  · rw [readReference_eq] at hread
    cases hf : Token.reference lexer.cursor.rest with
    | none => rw [hf] at hread; cases hread
    | some found =>
      rw [hf] at hread
      simp only at hread
      split at hread
      · exact .inl (Prod.mk.inj hread).2.symm
      · exact .inl (Prod.mk.inj hread).2.symm
      · next hexpand =>
        obtain ⟨_, hwarn, -⟩ := Evaluation.map_eq_ok hread
        unfold Scope.undefinedVariable at hwarn
        split at hwarn
        · exact .inr ⟨rfl, found, rfl, expand_eq_undefined_iff.1 hexpand,
            (Prod.mk.inj hwarn).2.symm⟩
        · cases hwarn
  · obtain ⟨-, ended, hended, -⟩ | ⟨hne, -⟩ := ended?_of_step hstep
    · rw [hended] at h
      cases h
    · exact absurd rfl hne

end

/-! ## Failures -/

/-- What is wrong with a text at a state of its scan: nothing can be read there, or a reference
names a variable that is not set and has to be. -/
inductive Fails (policy : UndefinedPolicy) (config : Config) (lexer : Lexer) :
    Mode → LexFailure → Prop
  /-- The text ends between double quotes. -/
  | choice {failure : LexFailure} (h : lexer.nextMode = .error failure) :
    Fails policy config lexer .dispatch failure
  /-- A piece does not come to its end. -/
  | piece {mode : Mode} {read : Lexer → Except LexFailure Lexer} {failure : LexFailure}
    (hm : mode.reads? = some read) (h : read lexer = .error failure) :
    Fails policy config lexer mode failure
  /-- A dollar sign begins no reference. -/
  | reference (h : Token.reference lexer.cursor.rest = none) :
    Fails policy config lexer .reference (lexer.failure .invalidReference)
  /-- A reference names a variable that is not set. -/
  | undefined {found : Match Reference} (h : Token.reference lexer.cursor.rest = some found)
    (hundefined : config.get? found.value.name = none) (hpolicy : policy = .refuse) :
    Fails policy config lexer .reference
      ⟨.undefinedVariable found.value.name, lexer.cursor.start⟩
  /-- A line end is none. -/
  | lineEnd {mode : Mode} {reader : Reader Unit} (hm : mode.ends? = some reader)
    (h : reader lexer.cursor.rest = none) :
    Fails policy config lexer mode (lexer.failure .invalidLineBreak)

section
variable {scope : Scope} {mode : Mode} {lexer : Lexer} {session last : Session} {error : Error}

theorem fails_of_readReference
    (h : lexer.readReference scope session = (.error error, last)) :
    ∃ failure, Fails scope.undefined session.config lexer .reference failure ∧
      error = scope.lexError lexer.cursor failure ∧ last = session := by
  rw [readReference_eq] at h
  cases hf : Token.reference lexer.cursor.rest with
  | none =>
    rw [hf] at h
    obtain ⟨he, rfl⟩ := Prod.mk.inj h
    exact ⟨_, .reference hf, (Except.error.inj he).symm, rfl⟩
  | some found =>
    rw [hf] at h
    simp only at h
    cases hx : session.config.expand found.value lexer.inQuotes with
    | joined text => rw [hx] at h; cases h
    | words values => rw [hx] at h; cases h
    | undefined =>
      rw [hx] at h
      simp only [Evaluation.map, Scope.undefinedVariable] at h
      cases hp : scope.undefined with
      | warn => rw [hp] at h; cases h
      | refuse =>
        rw [hp] at h
        obtain ⟨he, rfl⟩ := Prod.mk.inj h
        exact ⟨_, .undefined hf (expand_eq_undefined_iff.1 hx) rfl, (Except.error.inj he).symm,
          rfl⟩

/-- A step fails because the text is wrong, and then has no effect, or because the directive of the
line that ends does. -/
theorem step_error_cases (h : step scope mode lexer session = (.error error, last)) :
    (∃ failure, Fails scope.undefined session.config lexer mode failure ∧
      error = scope.lexError lexer.cursor failure ∧ last = session) ∨
    ∃ ended continuation call, lexer.ended? mode = some (ended, continuation) ∧
      ended.called? = some call ∧
      scope.perform call (ended.locate scope ended.lineOffset) session = (.error error, last) := by
  cases hended : lexer.ended? mode with
  | some found =>
    obtain ⟨ended, continuation⟩ := found
    cases hc : ended.called? with
    | none => rw [step_of_applied hended hc] at h; cases h
    | some call =>
      rw [step_of_called hended hc] at h
      exact .inr ⟨ended, continuation, call, rfl, hc, Evaluation.eq_error_of_map h⟩
  | none =>
    left
    obtain ⟨hfinish, hends⟩ := ended?_eq_none hended
    have hreads {read : Lexer → Except LexFailure Lexer} (hm : mode.reads? = some read) :
        ∃ failure, Fails scope.undefined session.config lexer mode failure ∧
          error = scope.lexError lexer.cursor failure ∧ last = session := by
      rw [step_of_reads hm] at h
      obtain ⟨he, rfl⟩ := Prod.mk.inj h
      cases hr : read lexer with
      | ok found => rw [hr] at he; cases he
      | error failure =>
        rw [hr] at he
        exact ⟨failure, .piece hm hr, (Except.error.inj he).symm, rfl⟩
    have hlineEnd {reader : Reader Unit} (hm : mode.ends? = some reader) :
        ∃ failure, Fails scope.undefined session.config lexer mode failure ∧
          error = scope.lexError lexer.cursor failure ∧ last = session := by
      have hread := hends reader hm
      rw [step_of_ends hm, Evaluation.map, readLineEnd_eq, hread] at h
      obtain ⟨he, rfl⟩ := Prod.mk.inj h
      exact ⟨_, .lineEnd hm hread, (Except.error.inj he).symm, rfl⟩
    cases mode with
    | beginOfLine => cases h
    | dispatch =>
      simp only [step] at h
      split at h
      · cases h
      · next failure hm =>
        obtain ⟨he, rfl⟩ := Prod.mk.inj h
        exact ⟨failure, .choice hm, (Except.error.inj he).symm, rfl⟩
    | reference => exact fails_of_readReference (Evaluation.eq_error_of_map h)
    | bareText | quotedText | whiteSpace | backslash | singleQuoted | doubleQuote =>
      exact hreads rfl
    | comment | lineBreak => exact hlineEnd rfl
    | finish => exact absurd rfl hfinish

end

end Lexer
end ShellConfig
