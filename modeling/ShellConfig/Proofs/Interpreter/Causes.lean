import ShellConfig.Proofs.Causes
import ShellConfig.Proofs.Interpreter.Evaluator

/-!
The causes of the errors of an evaluation. The system's own faults have no causes
(`FileTree.causes_of_openText`). So where the handlers of directives give up for no other reasons
than plain texts and errors of the kind defined here, the errors of every evaluation are of this
kind too (`Interpreter.selfCaused_of_answer`), and tell their causes.
-/

set_option autoImplicit false

namespace ShellConfig

/-! ## Causes -/

/-- The cause is a plain text or an error of which all causes are such. -/
def Cause.SelfCaused : Cause → Prop
  | .text _ causes => causes = []
  | .error failed => failed.SelfCaused

theorem Error.selfCaused_failed {cause : Cause} (h : cause.SelfCaused) (name : String)
    (location : Location) : SelfCaused (.directive (.failed name cause) location) := by
  cases cause with
  | text message causes =>
    obtain rfl : causes = [] := h
    exact .failedText name message location
  | error failed => exact .failed name location h

/-- The handlers give up for no other causes. -/
def Directives.SelfCaused (directives : Directives) : Prop :=
  ∀ name handler config arguments cause, directives.find? name = some handler →
    (handler config name arguments).2 = some cause → cause.SelfCaused

namespace FileTree
variable {files : FileTree} {fault : FileFault}

theorem causes_of_walk {fits : Place → Bool} {place : Place} {pieces : List String}
    (h : files.walk fits place pieces = .error fault) : fault.causes = [] := by
  induction pieces generalizing place with
  | nil => cases h
  | cons piece rest ih =>
    rw [walk] at h
    split at h
    · exact Except.error.inj h ▸ rfl
    · exact Except.error.inj h ▸ rfl
    · split at h
      · exact ih h
      · split at h
        · exact Except.error.inj h ▸ rfl
        · split at h
          · exact Except.error.inj h ▸ rfl
          · exact ih h

theorem causes_of_locate {path : String} (h : files.locate path = .error fault) :
    fault.causes = [] := by
  unfold locate at h
  split at h
  · next found hfound =>
    obtain rfl := Except.error.inj h
    unfold pathFault? at hfound
    repeat' split at hfound
    all_goals cases hfound <;> rfl
  · exact causes_of_walk h

theorem causes_of_textAt {place : Place} (h : files.textAt place = .error fault) :
    fault.causes = [] := by
  unfold textAt at h
  split at h
  · exact Except.error.inj h ▸ rfl
  · exact Except.error.inj h ▸ rfl
  · split at h
    · cases h
    · exact Except.error.inj h ▸ rfl

/-- A fault of the system has no causes. -/
theorem causes_of_openText {path : String} (h : files.openText path = .error fault) :
    fault.causes = [] := by
  unfold openText at h
  split at h
  · next found hlocate => exact Except.error.inj h ▸ causes_of_locate hlocate
  · split at h
    · next found htext => exact Except.error.inj h ▸ causes_of_textAt htext
    · cases h

end FileTree

/-! ## Evaluations -/

/-- What fails does so with an error of this kind. -/
def Evaluation.SelfCaused {α : Type} (evaluation : Evaluation α) : Prop :=
  ∀ session error, (evaluation session).1 = .error error → error.SelfCaused

/-- The errors of a scan are those of its text and of the directives that it calls. -/
theorem Scope.selfCaused_run {scope : Scope}
    (h : ∀ call location, Evaluation.SelfCaused (scope.perform call location)) (mode : Mode)
    (lexer : Lexer) : Evaluation.SelfCaused (Lexer.run scope mode lexer) := by
  intro session error herror
  fun_induction Lexer.run scope mode lexer session with
  | case1 mode lexer session next after middle hstep ih => exact ih herror
  | case2 mode lexer session middle hstep => cases herror
  | case3 mode lexer session found middle hstep =>
    obtain rfl := Except.error.inj herror
    obtain ⟨failure, -, rfl, -⟩ | ⟨ended, continuation, call, -, -, hperform⟩ :=
      Lexer.step_error_cases hstep
    · exact .lexical _ _
    · exact h call _ session found (by rw [hperform])

namespace Interpreter
variable {interpreter : Interpreter} {files : FileTree}

theorem selfCaused_openFile {nested : TextEvaluation}
    (hnested : ∀ active path text, Evaluation.SelfCaused (nested active path text))
    (active : List Identity) (path : String) (location : Option Location) :
    Evaluation.SelfCaused (openFile files nested active path location) := by
  intro session error herror
  unfold openFile at herror
  split at herror
  · next fault hopen =>
    obtain rfl := Except.error.inj herror
    exact .file path location (FileTree.causes_of_openText hopen)
  · exact hnested _ _ _ session error herror

theorem selfCaused_perform (hdirectives : interpreter.directives.SelfCaused)
    {nested : TextEvaluation}
    (hnested : ∀ active path text, Evaluation.SelfCaused (nested active path text))
    (active : List Identity) (source : String) (call : DirectiveCall) (location : Location) :
    Evaluation.SelfCaused (interpreter.perform files nested active source call location) := by
  intro session error herror
  have hplain {fault : DirectiveFault}
      (h : (.error (.directive fault location) : Except Error Unit) = .error error)
      (hfault : ∀ name cause, fault ≠ .failed name cause) : error.SelfCaused :=
    Except.error.inj h ▸ .directive location hfault
  unfold perform at herror
  split at herror
  · split at herror
    · unfold includeFile at herror
      split at herror
      · exact hplain herror nofun
      · split at herror
        · exact hplain herror nofun
        · exact selfCaused_openFile hnested active _ _ session error herror
    · exact hplain herror nofun
  · split at herror
    · exact hplain herror nofun
    · next handler hfind =>
      split at herror
      · cases herror
      · next config cause hhandler =>
        rw [← Except.error.inj herror]
        exact Error.selfCaused_failed
          (hdirectives _ handler session.config _ cause hfind (by rw [hhandler])) _ _

theorem selfCaused_evaluate (files : FileTree)
    (hdirectives : interpreter.directives.SelfCaused) (number : Nat) (active : List Identity)
    (source text : String) :
    Evaluation.SelfCaused (interpreter.evaluate files number active source text) := by
  induction number generalizing active source text with
  | zero =>
    have hnested (active : List Identity) (path text : String) :
        Evaluation.SelfCaused (interpreter.included files 0 active path text) :=
      fun _ _ herror => nomatch herror
    rw [evaluate_eq]
    exact Scope.selfCaused_run
      (fun call => selfCaused_perform hdirectives hnested active source call) _ _
  | succ number ih =>
    rw [evaluate_eq]
    exact Scope.selfCaused_run
      (fun call => selfCaused_perform hdirectives ih active source call) _ _

/-- The errors of an evaluation have plain texts and one another as causes, if those of the handlers
do. -/
theorem selfCaused_of_answer (hdirectives : interpreter.directives.SelfCaused) {entry : Entry}
    {config after : Config} {error : Error}
    (h : interpreter.answer files entry config = (.error error, after)) : error.SelfCaused := by
  have hevaluate := selfCaused_evaluate files hdirectives interpreter.maxIncludeDepth
  cases entry with
  | text source text =>
    obtain ⟨warnings, hresult⟩ := outcome_eq_error h
    exact hevaluate [] source text _ error (by rw [hresult])
  | file path =>
    have hloaded : outcome (openFile files (interpreter.evaluate files interpreter.maxIncludeDepth)
        [] path none) config = (.error error, after) := h
    obtain ⟨warnings, hresult⟩ := outcome_eq_error hloaded
    exact selfCaused_openFile hevaluate [] path none _ error (by rw [hresult])

end Interpreter
end ShellConfig
