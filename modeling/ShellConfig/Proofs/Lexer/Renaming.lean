import ShellConfig.Proofs.Correspondence
import ShellConfig.Proofs.Lexer.Ends

/-!
Texts and files under other names. The scan of a text looks at its name only to say where something
is. So where the directive of a line does the same under other names, a step does
(`Lexer.step_renamed`): in its error and its warnings each name and path is another one, and all
else is equal.
-/

set_option autoImplicit false

namespace ShellConfig

/-! ## Other names -/

/-- The location in the text of another name. -/
def Location.renamed (names : String → String) (location : Location) : Location :=
  ⟨names location.source, location.position⟩

def Warning.renamed (names : String → String) (warning : Warning) : Warning :=
  ⟨warning.name, warning.location.renamed names⟩

/-- The fault with another path, if it tells one. The cause of a directive that gave up is kept as it
is. -/
def DirectiveFault.renamed (names : String → String) : DirectiveFault → DirectiveFault
  | .includeCycle path => .includeCycle (names path)
  | fault => fault

/-- The error with other names of texts and paths of files. -/
def Error.renamed (names : String → String) : Error → Error
  | .lexical fault location => .lexical fault (location.renamed names)
  | .directive fault location => .directive (fault.renamed names) (location.renamed names)
  | .file path location fault =>
    .file (names path) (location.map (Location.renamed names)) fault

def Session.renamed (names : String → String) (session : Session) : Session :=
  { session with warnings := session.warnings.map (Warning.renamed names) }

def Outcome.renamed {α : Type} (names : String → String) : Outcome α → Outcome α
  | (result, session) => (result.mapError (Error.renamed names), session.renamed names)

section
variable {names : String → String}

@[simp] theorem Session.config_renamed (session : Session) :
    (session.renamed names).config = session.config := rfl

theorem Session.renamed_warn (session : Session) (name : String) (location : Location) :
    (session.warn ⟨name, location⟩).renamed names =
      (session.renamed names).warn ⟨name, location.renamed names⟩ := by
  simp [renamed, warn, Warning.renamed]

theorem Outcome.renamed_map {α β : Type} {f : α → β} {left right : Evaluation α} {s t : Session}
    (h : right t = Outcome.renamed names (left s)) :
    Evaluation.map f right t = Outcome.renamed names (Evaluation.map f left s) := by
  rw [Evaluation.map, Evaluation.map, h]
  rcases left s with ⟨error | value, last⟩ <;> rfl

/-! ## Steps -/

variable {here there : Scope} (hundefined : there.undefined = here.undefined)
  (hsource : there.source = names here.source)

include hsource in
theorem Lexer.locate_renamed (lexer : Lexer) (offset : Nat) :
    lexer.locate there offset = (lexer.locate here offset).renamed names := by
  rw [locate, hsource]
  rfl

include hsource in
theorem Scope.lexError_renamed {α : Type} (cursor : Cursor) (failure : LexFailure)
    (session : Session) :
    ((.error (there.lexError cursor failure), session.renamed names) : Outcome α) =
      Outcome.renamed names (.error (here.lexError cursor failure), session) := by
  rw [lexError, hsource]
  rfl

include hundefined hsource in
theorem Lexer.readReference_renamed (lexer : Lexer) (session : Session) :
    lexer.readReference there (session.renamed names) =
      Outcome.renamed names (lexer.readReference here session) := by
  rw [readReference_eq, readReference_eq, Session.config_renamed]
  split
  · exact Scope.lexError_renamed hsource _ _ _
  · split
    · rfl
    · rfl
    · refine Outcome.renamed_map ?_
      rw [locate_renamed hsource]
      unfold Scope.undefinedVariable
      rw [hundefined]
      cases here.undefined with
      | warn => exact congrArg (Prod.mk _) (Session.renamed_warn session _ _).symm
      | refuse => rfl

include hundefined hsource in
/-- A step under another name does the same, if a directive does so where it ends a line. -/
theorem Lexer.step_renamed {lexer : Lexer} {mode : Mode} {session : Session}
    (hperform : ∀ ended continuation call, lexer.ended? mode = some (ended, continuation) →
      ended.called? = some call → ∀ location : Location,
        there.perform call (location.renamed names) (session.renamed names) =
          Outcome.renamed names (here.perform call location session)) :
    Lexer.step there mode lexer (session.renamed names) =
      Outcome.renamed names (Lexer.step here mode lexer session) := by
  cases hended : lexer.ended? mode with
  | some found =>
    obtain ⟨ended, continuation⟩ := found
    cases hcall : ended.called? with
    | none =>
      rw [step_of_applied hended hcall, step_of_applied hended hcall]
      rfl
    | some call =>
      rw [step_of_called hended hcall, step_of_called hended hcall, locate_renamed hsource]
      exact Outcome.renamed_map (hperform ended continuation call hended hcall _)
  | none =>
    by_cases hmode : mode = .reference
    · subst hmode
      exact Outcome.renamed_map (readReference_renamed hundefined hsource _ _)
    · obtain ⟨result, hstep⟩ := step_of_text hended hmode
      rw [hstep, hstep]
      cases result with
      | ok continuation => rfl
      | error failure => exact Scope.lexError_renamed hsource _ _ _

end

end ShellConfig
