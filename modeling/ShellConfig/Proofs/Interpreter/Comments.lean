import ShellConfig.Proofs.Interpreter.Composition
import ShellConfig.Proofs.Lexer.Comments

/-!
Comments at the end of a text. Main statement: where a text that is evaluated to its end may end, a
comment changes neither the configuration nor the warnings (`evalNamed_commented`).
-/

set_option autoImplicit false

namespace ShellConfig
namespace Interpreter

theorem evalNamed_commented (interpreter : Interpreter) (files : FileTree)
    (source text comment : String) {config after : Config} {warnings : List Warning}
    (hcomment : '\n' ∉ comment.toList)
    (h : interpreter.evalNamed files source text config = (.ok warnings, after)) :
    interpreter.evalNamed files source (text ++ "#" ++ comment) config = (.ok warnings, after) := by
  have htext : text ++ "#" ++ comment = text ++ String.ofList ('#' :: comment.toList) := by
    rw [← String.toList_inj]
    simp
  have hevaluate := outcome_eq_ok h
  rw [evaluate_eq_topScope] at hevaluate
  have hcommented := Scope.evaluate_append_comment hcomment hevaluate
  rw [evalNamed, outcome, evaluate_eq_topScope, htext, hcommented]
  rfl

/-- The text ends with a literal carriage return, and the comment holds a quote of either kind. -/
theorem evalNamed_commented_quotes :
    '\n' ∉ " it's \"$NAME \\ = \r.gone".toList ∧
      standard.evalNamed .empty "main" "NAME = $UNSET a\\\r" .empty =
        (.ok [⟨"UNSET", ⟨"main", ⟨1, 8, 7⟩⟩⟩], Config.empty.set "NAME" ["a\r"]) ∧
      standard.evalNamed .empty "main"
        ("NAME = $UNSET a\\\r" ++ "#" ++ " it's \"$NAME \\ = \r.gone") .empty =
        (.ok [⟨"UNSET", ⟨"main", ⟨1, 8, 7⟩⟩⟩], Config.empty.set "NAME" ["a\r"]) := by
  have hcomment : '\n' ∉ " it's \"$NAME \\ = \r.gone".toList := by decide +kernel
  have hresult : standard.evalNamed .empty "main" "NAME = $UNSET a\\\r" .empty =
      (.ok [⟨"UNSET", ⟨"main", ⟨1, 8, 7⟩⟩⟩], Config.empty.set "NAME" ["a\r"]) :=
    eq_ok_of_toOption (by decide +kernel) (by decide +kernel)
  exact ⟨hcomment, hresult, evalNamed_commented standard .empty "main" _ _ hcomment hresult⟩

end Interpreter
end ShellConfig
