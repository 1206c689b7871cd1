import ShellConfig.Proofs.Interpreter.Composition
import ShellConfig.Proofs.Interpreter.Coupling
import ShellConfig.Proofs.Lexer.LineEndings

/-!
Line feeds with and without returns. A text without quotes and braced references is evaluated in
the same way when each of its line feeds gets a return before it
(`Interpreter.evalNamed_withReturns`): only the byte offsets of places change.
-/

set_option autoImplicit false

namespace ShellConfig
open Correspondence

namespace Interpreter

/-- The warnings or the error of an evaluation, apart from byte offsets. -/
def unmeasuredResult (result : Except Error (List Warning)) : Except Error (List Warning) :=
  (result.mapError Error.unmeasured).map (List.map Warning.unmeasured)

theorem isOk_unmeasuredResult (result : Except Error (List Warning)) :
    (unmeasuredResult result).isOk = result.isOk := by
  cases result <;> rfl

variable (interpreter : Interpreter) (files : FileTree)

theorem sameLines_outcome {config : Config} {left right : Evaluation Unit}
    (h : sameLines.RelatesUnits (left (.ofConfig config)) (right (.ofConfig config))) :
    (outcome left config).2 = (outcome right config).2 ∧
      unmeasuredResult (outcome left config).1 = unmeasuredResult (outcome right config).1 := by
  unfold outcome
  revert h
  rcases left (.ofConfig config) with ⟨error | value, s⟩ <;>
    rcases right (.ofConfig config) with ⟨other | value', t⟩ <;> intro h
  · exact ⟨h.2.1, congrArg Except.error h.1⟩
  · exact h.elim
  · exact h.elim
  · exact ⟨h.2.1, congrArg Except.ok h.2.2⟩

/-- A text without returns, quotes and braced references, and the same text with a return before
each of its line feeds, give one configuration, and up to byte offsets the same warnings or the same
error. -/
theorem evalNamed_withReturns (source : String) {text : String} (htext : ReturnSafe text.toList)
    (config : Config) :
    let here := interpreter.evalNamed files source text config
    let there :=
      interpreter.evalNamed files source (String.ofList (withReturns text.toList)) config
    here.2 = there.2 ∧ (here.1.isOk ↔ there.1.isOk) ∧
      unmeasuredResult here.1 = unmeasuredResult there.1 := by
  intro here there
  have hsession : sameLines.sessions (.ofConfig config) (.ofConfig config) := ⟨rfl, rfl⟩
  have hsurrounds : sameLines.Surrounds (interpreter.topScope files source)
      (interpreter.topScope files source) := by
    have hjoins : sameLines.Joins files Eq interpreter interpreter :=
      sameLines.joins_self (fun fault _ _ hplaces => congrArg (Error.directive fault) hplaces) _ _
    exact hjoins.scope (hjoins.included _) rfl (fun _ => rfl) fun _ _ => rfl
  have hrelates : sameLines.RelatesUnits
      (interpreter.evaluate files interpreter.maxIncludeDepth [] source text (.ofConfig config))
      (interpreter.evaluate files interpreter.maxIncludeDepth [] source
        (String.ofList (withReturns text.toList)) (.ofConfig config)) := by
    rw [evaluate_eq_topScope]
    refine Scope.relates_withReturns htext hsession fun call here there s t hplaces hs => ?_
    exact (hsurrounds.perform call here there s t hplaces hs).resolve_left
      fun ⟨_, _, hexcused⟩ => hexcused
  obtain ⟨hconfig, hresult⟩ := sameLines_outcome hrelates
  have hsame : unmeasuredResult here.1 = unmeasuredResult there.1 := hresult
  refine ⟨hconfig, ?_, hsame⟩
  rw [← isOk_unmeasuredResult here.1, ← isOk_unmeasuredResult there.1, hsame]

/-- A joined line, a comment and an empty line stand before a reference to a variable that is not
set. -/
theorem evalNamed_withReturns_joined :
    let text := "A = x \\\n y # note\n\nB ?= a$UNSET\n"
    let here := standard.evalNamed .empty "main" text .empty
    let there :=
      standard.evalNamed .empty "main" (String.ofList (withReturns text.toList)) .empty
    ReturnSafe text.toList ∧
      here.1.toOption = some [⟨"UNSET", ⟨"main", ⟨4, 7, 25⟩⟩⟩] ∧
      there.1.toOption = some [⟨"UNSET", ⟨"main", ⟨4, 7, 28⟩⟩⟩] ∧
      here.2 = there.2 ∧ unmeasuredResult here.1 = unmeasuredResult there.1 := by
  intro text here there
  have htext : ReturnSafe text.toList :=
    ⟨by decide +kernel, by decide +kernel, by decide +kernel, by decide +kernel⟩
  obtain ⟨hconfig, -, hresult⟩ := evalNamed_withReturns standard .empty "main" htext .empty
  exact ⟨htext, by decide +kernel, by decide +kernel, hconfig, hresult⟩

end Interpreter
end ShellConfig
