import ShellConfig.Proofs.Interpreter.Evaluator

/-!
Evaluation with and without undefined variables. An interpreter that refuses them and one that
warns of them do the same up to the first reference to a variable that is not set. There the one
gives up, and the other has its first warning, which stays (`CutAt`). A step either agrees or is
cut (`Lexer.cutAt_step`), and once a run is cut it stays so, because warnings are only added
(`Scope.KeepsWarnings`). Main statement: `Interpreter.strict_cutsAtFirstUndefined`.
-/

set_option autoImplicit false

namespace ShellConfig

/-! ## Warnings stay -/

/-- The outcome has the warnings of the session, and maybe more after them. -/
def Session.StaysIn {α : Type} (session : Session) (outcome : Outcome α) : Prop :=
  session.warnings <+: outcome.2.warnings

theorem Session.StaysIn.of_eq {α : Type} {session : Session} {outcome : Outcome α}
    (h : outcome.2.warnings = session.warnings) : session.StaysIn outcome :=
  ⟨[], by rw [List.append_nil, h]⟩

theorem Session.StaysIn.map {α β : Type} {f : α → β} {evaluation : Evaluation α} {session : Session}
    (h : session.StaysIn (evaluation session)) :
    session.StaysIn (Evaluation.map f evaluation session) := by
  unfold Session.StaysIn at *
  rw [Evaluation.map]
  exact h

/-- The directives of the scope take no warning back. -/
def Scope.KeepsWarnings (scope : Scope) : Prop :=
  ∀ (call : DirectiveCall) (location : Location) (session : Session),
    session.StaysIn (scope.perform call location session)

/-- An evaluation of texts that takes no warning back. -/
def TextEvaluation.KeepsWarnings (evaluation : TextEvaluation) : Prop :=
  ∀ (active : List Identity) (source text : String) (session : Session),
    session.StaysIn (evaluation active source text session)

namespace Lexer
variable {scope : Scope} (hscope : scope.KeepsWarnings) (mode : Mode) (lexer : Lexer)
  (session : Session)
include hscope

theorem staysIn_step :
    session.StaysIn (step scope mode lexer session) := by
  cases hended : lexer.ended? mode with
  | some found =>
    obtain ⟨ended, continuation⟩ := found
    cases hcall : ended.called? with
    | none =>
      rw [step_of_applied hended hcall]
      exact List.prefix_refl _
    | some call =>
      rw [step_of_called hended hcall]
      exact Session.StaysIn.map (hscope call _ session)
  | none =>
    rcases hstep : step scope mode lexer session with ⟨error | _ | ⟨next, after⟩, last⟩
    · obtain ⟨-, -, -, rfl⟩ | ⟨ended, continuation, call, hsome, -⟩ := step_error_cases hstep
      · exact List.prefix_refl _
      · rw [hended] at hsome
        cases hsome
    · obtain ⟨rfl, -⟩ := step_eq_none hstep
      cases hended
    · obtain rfl | ⟨-, found, -, -, rfl⟩ := session_of_not_ended hended hstep
      · exact List.prefix_refl _
      · exact List.prefix_append _ _

theorem staysIn_run :
    session.StaysIn (run scope mode lexer session) := by
  fun_induction run scope mode lexer session with
  | case1 mode lexer session next after last hstep ih =>
    have hstays := staysIn_step hscope mode lexer session
    rw [hstep] at hstays
    exact List.IsPrefix.trans hstays ih
  | case2 mode lexer session last hstep =>
    have hstays := staysIn_step hscope mode lexer session
    rw [hstep] at hstays
    exact hstays
  | case3 mode lexer session error last hstep =>
    have hstays := staysIn_step hscope mode lexer session
    rw [hstep] at hstays
    exact hstays

theorem staysIn_run_of_step :
    (step scope mode lexer session).2.StaysIn (run scope mode lexer session) := by
  cases hstep : step scope mode lexer session with
  | mk result last =>
    rcases result with error | _ | ⟨next, after⟩
    · rw [run_of_step_error hstep]
      exact List.prefix_refl _
    · rw [run_of_step_none hstep]
      exact List.prefix_refl _
    · rw [run_of_step hstep]
      exact staysIn_run hscope next after last

end Lexer

namespace Interpreter
variable {interpreter : Interpreter} {files : FileTree} {nested : TextEvaluation}

theorem keepsWarnings_scope (hnested : nested.KeepsWarnings) (active : List Identity)
    (source : String) :
    (interpreter.scope files nested active source).KeepsWarnings := by
  intro call location session
  rw [perform_scope]
  cases hopened : interpreter.opened? files active source call with
  | some found =>
    obtain ⟨path, identity, text⟩ := found
    rw [perform_of_opened hopened]
    exact hnested _ _ _ _
  | none =>
    exact .of_eq (perform_of_not_opened_cases hopened nested location session).1

theorem keepsWarnings_included (interpreter : Interpreter) (files : FileTree) (number : Nat) :
    (interpreter.included files number).KeepsWarnings := by
  induction number with
  | zero => exact fun _ _ _ _ => List.prefix_refl _
  | succ number ih =>
    intro active source text session
    rw [included, evaluate_eq]
    exact Lexer.staysIn_run (keepsWarnings_scope ih active source) _ _ session

end Interpreter

/-! ## Outcomes that are cut -/

/-- The outcomes are the same and bring no new warning, or the first one is the error about a
variable of which the second one warns first. -/
inductive CutAt {α : Type} (session : Session) : Outcome α → Outcome α → Prop
  | agree {outcome : Outcome α} (h : outcome.2.warnings = session.warnings) :
    CutAt session outcome outcome
  | cut {name : String} {location : Location} {last : Session} {outcome : Outcome α}
    (h : (session.warn ⟨name, location⟩).StaysIn outcome) :
    CutAt session (.error (.lexical (.undefinedVariable name) location), last) outcome

theorem CutAt.map {α β : Type} {f : α → β} {strict warning : Evaluation α} {session : Session}
    (h : CutAt session (strict session) (warning session)) :
    CutAt session (Evaluation.map f strict session) (Evaluation.map f warning session) := by
  rw [Evaluation.map, Evaluation.map]
  generalize strict session = left at h
  generalize warning session = right at h
  cases h with
  | agree h => exact .agree h
  | cut h => exact .cut h

theorem CutAt.of_same {α : Type} {session middle : Session} {left right : Outcome α}
    (h : CutAt middle left right) (hsame : middle.warnings = session.warnings) :
    CutAt session left right := by
  cases h with
  | agree h => exact .agree (h.trans hsame)
  | cut h =>
    refine .cut ?_
    unfold Session.StaysIn Session.warn at *
    rw [← hsame]
    exact h

namespace Lexer
variable {refusing warning : DirectiveCall → Location → Evaluation Unit}
  (hperform : ∀ call location session,
    CutAt session (refusing call location session) (warning call location session))
  (source : String) (mode : Mode) (lexer : Lexer) (session : Session)

theorem cutAt_undefinedVariable (name : String) (location : Location) :
    CutAt session (Scope.undefinedVariable ⟨source, .refuse, refusing⟩ name location session)
      (Scope.undefinedVariable ⟨source, .warn, warning⟩ name location session) := by
  have hstays : (session.warn ⟨name, location⟩).StaysIn
      (Scope.undefinedVariable ⟨source, .warn, warning⟩ name location session) :=
    List.prefix_refl _
  exact .cut hstays

theorem cutAt_readReference :
    CutAt session (lexer.readReference ⟨source, .refuse, refusing⟩ session)
      (lexer.readReference ⟨source, .warn, warning⟩ session) := by
  rw [readReference_eq, readReference_eq]
  cases hf : Token.reference lexer.cursor.rest with
  | none => exact .agree rfl
  | some found =>
    cases hx : session.config.expand found.value lexer.inQuotes with
    | joined text =>
      simp only [hx]
      exact .agree rfl
    | words values =>
      simp only [hx]
      exact .agree rfl
    | undefined =>
      simp only [hx]
      exact CutAt.map (cutAt_undefinedVariable source session _ _)

include hperform in
theorem cutAt_step :
    CutAt session (step ⟨source, .refuse, refusing⟩ mode lexer session)
      (step ⟨source, .warn, warning⟩ mode lexer session) := by
  cases hended : lexer.ended? mode with
  | some found =>
    obtain ⟨ended, continuation⟩ := found
    cases hcall : ended.called? with
    | none =>
      rw [step_of_applied hended hcall, step_of_applied hended hcall]
      exact .agree rfl
    | some call =>
      rw [step_of_called hended hcall, step_of_called hended hcall]
      exact CutAt.map (hperform call _ session)
  | none =>
    by_cases hmode : mode = .reference
    · subst hmode
      exact CutAt.map (cutAt_readReference source lexer session)
    · obtain ⟨result, hstep⟩ := step_of_text hended hmode
      rw [hstep, hstep]
      exact .agree rfl

include hperform in
/-- The runs agree, or are cut at the first reference to a variable that is not set. The induction
is on the run that refuses it; the warnings of the other one stay to its end. -/
theorem cutAt_run (hkeeps : Scope.KeepsWarnings ⟨source, .warn, warning⟩) :
    CutAt session (run ⟨source, .refuse, refusing⟩ mode lexer session)
      (run ⟨source, .warn, warning⟩ mode lexer session) := by
  fun_induction run ⟨source, .refuse, refusing⟩ mode lexer session with
  | case1 mode lexer session next after middle hstep ih =>
    have hcut := cutAt_step hperform source mode lexer session
    generalize hright : step ⟨source, .warn, warning⟩ mode lexer session = right at hcut
    rw [hstep] at hcut
    cases hcut with
    | agree hsame =>
      rw [run_of_step hright]
      exact ih.of_same hsame
  | case2 mode lexer session middle hstep =>
    have hcut := cutAt_step hperform source mode lexer session
    generalize hright : step ⟨source, .warn, warning⟩ mode lexer session = right at hcut
    rw [hstep] at hcut
    cases hcut with
    | agree hsame =>
      rw [run_of_step_none hright]
      exact .agree hsame
  | case3 mode lexer session error middle hstep =>
    have hcut := cutAt_step hperform source mode lexer session
    generalize hright : step ⟨source, .warn, warning⟩ mode lexer session = right at hcut
    rw [hstep] at hcut
    cases hcut with
    | agree hsame =>
      rw [run_of_step_error hright]
      exact .agree hsame
    | cut hstays =>
      have hrun := staysIn_run_of_step hkeeps mode lexer session
      rw [hright] at hrun
      exact .cut (List.IsPrefix.trans hstays hrun)

end Lexer

/-! ## Whole evaluations -/

/-- The evaluations of texts agree or are cut. -/
def TextEvaluation.CutBy (strict warning : TextEvaluation) : Prop :=
  ∀ (active : List Identity) (source text : String) (session : Session),
    CutAt session (strict active source text session) (warning active source text session)

namespace Interpreter
variable (interpreter : Interpreter) (files : FileTree)

/-- The interpreter with a policy of its own for undefined variables. -/
def withPolicy (undefined : UndefinedPolicy) : Interpreter := { interpreter with undefined }

section
variable {interpreter files} {strict warning : TextEvaluation} (hnested : strict.CutBy warning)
  {active : List Identity} {source path : String} {session : Session}
include hnested

theorem cutAt_openFile (location : Option Location) :
    CutAt session (openFile files strict active path location session)
      (openFile files warning active path location session) := by
  unfold openFile
  cases files.openText path with
  | error fault => exact .agree rfl
  | ok found => exact hnested _ _ _ _

theorem cutAt_perform (call : DirectiveCall) (location : Location) (session : Session) :
    CutAt session
      ((interpreter.withPolicy .refuse).perform files strict active source call location session)
      ((interpreter.withPolicy .warn).perform files warning active source call location
        session) := by
  have hsame (nested : TextEvaluation) :
      (interpreter.withPolicy .refuse).perform files nested active source =
        (interpreter.withPolicy .warn).perform files nested active source := rfl
  rw [hsame]
  cases hopened : (interpreter.withPolicy .warn).opened? files active source call with
  | some found =>
    obtain ⟨path, identity, text⟩ := found
    rw [perform_of_opened hopened, perform_of_opened hopened]
    exact hnested _ _ _ _
  | none =>
    rw [perform_of_not_opened hopened strict warning]
    exact .agree (perform_of_not_opened_cases hopened warning location session).1

theorem cutBy_scope (hkeeps : warning.KeepsWarnings) (active : List Identity) (source text : String)
    (session : Session) :
    CutAt session
      (((interpreter.withPolicy .refuse).scope files strict active source).evaluate text session)
      (((interpreter.withPolicy .warn).scope files warning active source).evaluate text session) :=
  Lexer.cutAt_run (cutAt_perform hnested) source _ _ session
    (keepsWarnings_scope hkeeps active source)

end

theorem cutBy_included (number : Nat) :
    ((interpreter.withPolicy .refuse).included files number).CutBy
      ((interpreter.withPolicy .warn).included files number) := by
  induction number with
  | zero => exact fun _ _ _ _ => .agree rfl
  | succ number ih =>
    intro active source text session
    rw [included, included, evaluate_eq, evaluate_eq]
    exact cutBy_scope ih (keepsWarnings_included _ files number) active source text session

theorem cutBy_evaluate (number : Nat) :
    ((interpreter.withPolicy .refuse).evaluate files number).CutBy
      ((interpreter.withPolicy .warn).evaluate files number) :=
  cutBy_included interpreter files (number + 1)

/-- The answer of an evaluation that refuses undefined variables beside that of one that warns of
them. -/
structure CutsAtFirstUndefined (strict warning : Except Error (List Warning) × Config) : Prop where
  /-- The one succeeds if the other does so without a warning, and only then. -/
  succeeds : (∃ warnings, strict.1 = .ok warnings) ↔ warning.1 = .ok []
  config : (∃ warnings, strict.1 = .ok warnings) → strict.2 = warning.2
  /-- Any other error is that of both. -/
  otherError : ∀ error after, strict = (.error error, after) →
    (∀ name location, error ≠ .lexical (.undefinedVariable name) location) →
      warning = (.error error, after)
  /-- What the one refuses is what the other warns of first, unless it fails later on. -/
  undefined : ∀ name location after,
    strict = (.error (.lexical (.undefinedVariable name) location), after) →
      (∃ warnings, warning.1 = .ok (⟨name, location⟩ :: warnings)) ∨
        ∃ error, warning.1 = .error error

theorem cutsAtFirstUndefined_outcome {strict warning : Evaluation Unit} {config : Config}
    (h : CutAt (.ofConfig config) (strict (.ofConfig config)) (warning (.ofConfig config))) :
    CutsAtFirstUndefined (outcome strict config) (outcome warning config) := by
  unfold outcome
  generalize strict (.ofConfig config) = left at h
  generalize warning (.ofConfig config) = right at h
  cases h with
  | agree h =>
    rcases left with ⟨error | value, last⟩
    · exact ⟨⟨fun ⟨_, h⟩ => (nomatch h), fun h => nomatch h⟩, fun _ => rfl, fun _ _ h _ => h,
        fun _ _ _ _ => .inr ⟨error, rfl⟩⟩
    · have hnone : last.warnings = [] := h
      exact ⟨⟨fun _ => congrArg Except.ok hnone, fun _ => ⟨_, rfl⟩⟩, fun _ => rfl,
        fun _ _ h _ => h, fun _ _ _ h => nomatch (Prod.mk.inj h).1⟩
  | @cut name location last right h =>
    obtain ⟨more, hmore⟩ :
      ∃ more, ([⟨name, location⟩] : List Warning) ++ more = right.2.warnings := h
    rcases right with ⟨error | value, after⟩
    · refine ⟨⟨fun ⟨_, h⟩ => (nomatch h), fun h => nomatch h⟩, fun ⟨_, h⟩ => (nomatch h),
        fun found config hfound hother => ?_, fun _ _ _ _ => .inr ⟨error, rfl⟩⟩
      exact absurd (Except.error.inj (Prod.mk.inj hfound).1).symm (hother name location)
    · refine ⟨⟨fun ⟨_, h⟩ => (nomatch h), fun hnone => ?_⟩, fun ⟨_, h⟩ => (nomatch h),
        fun found config hfound hother => ?_, fun name' location' config hfound => .inl ⟨more, ?_⟩⟩
      · have hnil : after.warnings = [] := Except.ok.inj hnone
        rw [hnil] at hmore
        cases hmore
      · exact absurd (Except.error.inj (Prod.mk.inj hfound).1).symm (hother name location)
      · obtain ⟨hname, rfl⟩ := Error.lexical.inj (Except.error.inj (Prod.mk.inj hfound).1)
        obtain rfl := LexFault.undefinedVariable.inj hname
        exact congrArg Except.ok hmore.symm

/-- Refusing undefined variables is warning of them up to the first one. -/
theorem strict_cutsAtFirstUndefined (entry : Entry) (config : Config) :
    CutsAtFirstUndefined ((interpreter.withPolicy .refuse).answer files entry config)
      ((interpreter.withPolicy .warn).answer files entry config) := by
  cases entry with
  | text source text =>
    exact cutsAtFirstUndefined_outcome
      (cutBy_evaluate interpreter files interpreter.maxIncludeDepth [] source text
        (.ofConfig config))
  | file path =>
    exact cutsAtFirstUndefined_outcome
      (cutAt_openFile (cutBy_evaluate interpreter files interpreter.maxIncludeDepth) none)

end Interpreter

end ShellConfig
