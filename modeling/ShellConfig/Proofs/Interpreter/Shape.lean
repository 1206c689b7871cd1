import ShellConfig.Proofs.Interpreter.Composition
import ShellConfig.Proofs.Lexer.Shape

/-!
Values do not influence what a text does. A text without directives ends in the same way for
configurations of one shape, whatever their values are, and leaves configurations of one shape
(`Interpreter.evalNamed_sameShape`).
-/

set_option autoImplicit false

namespace ShellConfig
open Correspondence

namespace Interpreter

theorem alike_outcome {first second : Config} {left right : Evaluation Unit}
    (h : (alike first second).RelatesUnits (left (.ofConfig first)) (right (.ofConfig second))) :
    (outcome left first).1 = (outcome right second).1 ∧
      Config.GrowAlike first second (outcome left first).2 (outcome right second).2 := by
  unfold outcome
  revert h
  rcases left (.ofConfig first) with ⟨error | value, s⟩ <;>
    rcases right (.ofConfig second) with ⟨other | value', t⟩ <;> intro h
  · exact ⟨congrArg Except.error h.1, h.2.1⟩
  · exact h.elim
  · exact h.elim
  · exact ⟨congrArg Except.ok h.2.2, h.2.1⟩

/-- Evaluating a text without directives into two configurations of one shape gives the same
warnings or the same error at the same place, and configurations of one shape. As many lines are
added, with as many words on each of them. -/
theorem evalNamed_sameShape (interpreter : Interpreter) (files : FileTree) (source : String)
    {text : String} {left right : Config} (htext : ¬ HasDirective text)
    (h : left.SameShape right) :
    let here := interpreter.evalNamed files source text left
    let there := interpreter.evalNamed files source text right
    here.1 = there.1 ∧ here.2.SameShape there.2 ∧
      ∃ added more, here.2.lines = left.lines ++ added ∧ there.2.lines = right.lines ++ more ∧
        added.map List.length = more.map List.length := by
  intro here there
  have hsession : (alike left right).sessions (.ofConfig left) (.ofConfig right) :=
    ⟨.refl h, rfl⟩
  have hrelates : (alike left right).RelatesUnits
      (interpreter.evaluate files interpreter.maxIncludeDepth [] source text (.ofConfig left))
      (interpreter.evaluate files interpreter.maxIncludeDepth [] source text
        (.ofConfig right)) := by
    rw [evaluate_eq]
    exact Scope.relates_evaluate htext hsession
  obtain ⟨hresult, hgrow⟩ := alike_outcome hrelates
  exact ⟨hresult, hgrow.shape, hgrow.lines⟩

/-- The values are full of signs that would mean something in a text, and the text ends in a
fault. -/
theorem evalNamed_sameShape_signs :
    let text := "COPY = $LIST \"${LIST}\" $UNSET\n$LIST x$LIST $$\nCOPY ?= a 'b"
    let left := (Config.empty.set "LIST" ["'", "$COPY # \n.gone"]).set "$" [""]
    let right := (Config.empty.set "LIST" ["a", "b"]).set "$" ["="]
    let here := standard.evalNamed .empty "main" text left
    let there := standard.evalNamed .empty "main" text right
    ¬ HasDirective text ∧ left.SameShape right ∧
      here.2.lines = [["'", "$COPY # \n.gone", "x", "'", "$COPY # \n.gone", ""]] ∧
      here.1 = there.1 ∧ here.2.SameShape there.2 := by
  intro text left right here there
  have htext : ¬ HasDirective text := fun h => absurd h.dot_mem (by decide +kernel)
  have hempty : Config.empty.SameShape .empty := ⟨rfl, fun _ => rfl⟩
  have hshape : left.SameShape right := by
    refine Config.SameShape.set (hempty.set "LIST" ?_) "$" ?_ <;> rfl
  obtain ⟨hresult, hafter, -⟩ := evalNamed_sameShape standard .empty "main" htext hshape
  exact ⟨htext, hshape, by decide +kernel, hresult, hafter⟩

end Interpreter
end ShellConfig
