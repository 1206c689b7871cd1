import ShellConfig.Proofs.Interpreter.Locations
import ShellConfig.Proofs.Lexer.Progress

/-!
Progress of a whole evaluation. Every text that is evaluated, that of an included file too, is
scanned in a number of steps that its own length bounds, and no evaluation ends with a fault
without a name, which stands for a piece that the next character promised and that is not there.
Main statement: `steadyProgress`.
-/

set_option autoImplicit false

namespace ShellConfig
namespace Evaluator

variable (interpreter : Interpreter) (files : FileTree)

/-- What is invalid at a place shows nothing there, so no error of an evaluation reports it. -/
theorem error_ne_invalid {entry : Entry} {config after : Config} {error : Error}
    (h : interpreter.answer files entry config = (.error error, after)) (what : String)
    (location : Location) : error ≠ .lexical (.invalid what) location := by
  rintro rfl
  obtain ⟨last, hreaches, -, -, hanswer⟩ := reaches_answer interpreter files entry config
  have hlocated := (traced_of_reaches hreaches).error _ (error_of_answer (hanswer.trans h))
  obtain ⟨frame, mode, lexer, shown, place, hlocates⟩ := hlocated
  exact hlocates.showsAt

/-- The steps of an interpreter that has some files at hand. Every text is evaluated in a scope as
here (`Interpreter.evaluate_eq`). -/
structure SteadyProgress : Prop where
  /-- Whichever files are open, whatever the text is called, and however the files that it includes
  are evaluated. -/
  texts : ∀ (nested : TextEvaluation) (active : List Identity) (source text : String)
    (session : Session), (interpreter.scope files nested active source).Progresses text session
  errors : ∀ entry config error after,
    interpreter.answer files entry config = (.error error, after) →
      ∀ what location, error ≠ .lexical (.invalid what) location

theorem steadyProgress : SteadyProgress interpreter files where
  texts _ _ _ text session := Scope.progresses _ text session
  errors _ _ _ _ h := error_ne_invalid interpreter files h

end Evaluator
end ShellConfig
