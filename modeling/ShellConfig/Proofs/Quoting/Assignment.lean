import ShellConfig.Proofs.Interpreter.Composition
import ShellConfig.Proofs.Lexer.LineBeginning
import ShellConfig.Proofs.Quoting.Words

/-!
Lines that give a variable its values. Every way of writing a list of values is read as these values
(`evalNamed_assignment`).
-/

set_option autoImplicit false

namespace ShellConfig

/-- The line that gives a variable its values in a written form. -/
theorem WrittenLine.readLines_assignment {scope : Scope} (hscope : scope.IgnoresPositions)
    {name : String} (hname : isIdentifier name) (line : WrittenLine) (session : Session) :
    scope.readLines (name ++ " = " ++ String.ofList line.text).toList session =
      Outcome.unplaced
        (.ok (), { session with config := session.config.set name line.values }) := by
  rw [Scope.readLines_set hscope hname]
  exact line.read_line hscope rfl

/-- Every way of writing a list of values gives a variable these values, and changes nothing
else. -/
theorem Interpreter.evalNamed_assignment (interpreter : Interpreter) (files : FileTree)
    (source : String) {name : String} (hname : isIdentifier name) (line : WrittenLine)
    (config : Config) :
    interpreter.evalNamed files source (name ++ " = " ++ String.ofList line.text) config =
      (.ok [], config.set name line.values) := by
  obtain ⟨nested, hscope, heval⟩ :=
    evaluate_eq_scope interpreter files interpreter.maxIncludeDepth [] source
  have hread := line.readLines_assignment hscope hname (.ofConfig config)
  have hresult := evalNamed_of_readLines heval (config.set name line.values) hread
  rwa [String.ofList_toList] at hresult

/-- The four styles of quoting in one word, an empty word, and lines that are joined between double
quotes and between words. -/
theorem Interpreter.evalNamed_assignment_styles :
    isIdentifier "NAME" ∧
      standard.evalNamed .empty "main"
        ("NAME" ++ " = " ++ "a\"\\\n \\\"\"'b c'\\#\\\r\n\t\"\"") .empty =
        (.ok [], Config.empty.set "NAME" ["a \"b c#", ""]) := by
  have hname : isIdentifier "NAME" := by decide
  let first : WrittenWord :=
    ⟨[.bare ['a'] (by decide) (List.forall_mem_singleton.2 (by decide)),
      .double [.joined .lineFeed, .plain ' ' (by decide), .escaped '"' (by decide) (by decide)],
      .single ['b', ' ', 'c'] (by decide),
      .escaped '#' (by decide) (by decide)], ⟨_, List.mem_cons_self, rfl⟩⟩
  let second : WrittenWord := ⟨[.double []], ⟨_, List.mem_cons_self, rfl⟩⟩
  let line : WrittenLine :=
    ⟨[], [(first, [.joined .returnLineFeed, .blank '\t' (by decide)]), (second, [])], by simp⟩
  have htext : String.ofList line.text = "a\"\\\n \\\"\"'b c'\\#\\\r\n\t\"\"" := by
    decide +kernel
  have hvalues : line.values = ["a \"b c#", ""] := by decide +kernel
  rw [← htext, ← hvalues]
  exact ⟨hname, evalNamed_assignment standard .empty "main" hname line .empty⟩

end ShellConfig
