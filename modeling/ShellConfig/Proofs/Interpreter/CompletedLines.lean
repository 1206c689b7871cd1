import ShellConfig.Proofs.Interpreter.Opening
import ShellConfig.Proofs.Lexer.Cut
import ShellConfig.Proofs.Lexer.LineStarts

/-!
What a text with a fault in it does before the fault shows. Its lines up to the faulty one are
carried out as if they were the whole text, and the faulty one is not begun: main statements
`Scope.exists_completed`, and `Interpreter.evalNamed_completedLines` for whole evaluations.
-/

set_option autoImplicit false

namespace ShellConfig

namespace Scope
variable {scope : Scope} {text : String} {session last : Session} {error : Error}

/-- A directive of the text ends in the error when it is carried out. -/
def DirectiveFails (scope : Scope) (text : String) (session : Session) (error : Error) : Prop :=
  ∃ scan ended continuation call last, Scan.Reaches scope (.start text session) scan ∧
    scan.lexer.ended? scan.mode = some (ended, continuation) ∧ ended.called? = some call ∧
    scope.perform call (ended.locate scope ended.lineOffset) scan.session = (.error error, last)

/-- A run that no directive fails ends at a fault of the text. -/
theorem exists_fails (h : scope.evaluate text session = (.error error, last))
    (hown : ¬ scope.DirectiveFails text session error) :
    ∃ scan failure, Scan.Reaches scope (.start text session) scan ∧
      Lexer.Fails scope.undefined scan.session.config scan.lexer scan.mode failure ∧
      error = .lexical failure.fault (Location.ofOffset scope.source text failure.offset) ∧
      last = scan.session := by
  rw [Scan.evaluate_eq_run] at h
  obtain ⟨scan, hreaches, hstep⟩ := Scan.exists_of_run_error h
  obtain ⟨failure, hfails, rfl, rfl⟩ | ⟨ended, continuation, call, hended, hcall, hperform⟩ :=
    Lexer.step_error_cases hstep
  · refine ⟨scan, failure, hreaches, hfails, ?_, rfl⟩
    rw [lexError, (Lexer.Occurs.of_reaches hreaches).text_eq]
  · exact absurd ⟨scan, ended, continuation, call, last, hreaches, hended, hcall, hperform⟩ hown

/-- Where a fault shows, a front part of the text is complete: it ends with a line or is empty, its
own evaluation succeeds with the configuration at the fault, and the fault does not come before its
end. -/
theorem exists_completed {scan : Scan} {failure : LexFailure}
    (hrun : scope.evaluate text session = (.error error, last))
    (hreaches : Scan.Reaches scope (.start text session) scan)
    (hfails : Lexer.Fails scope.undefined scan.session.config scan.lexer scan.mode failure) :
    ∃ front back completed, text = front ++ back ∧ EndsLine front.toList ∧
      scope.evaluate front session = (.ok (), completed) ∧
      completed.config = scan.session.config ∧ front.utf8ByteSize ≤ failure.offset := by
  have hoccurs := Lexer.Occurs.of_reaches hreaches
  obtain ⟨first, hwithin⟩ := Scan.exists_within hreaches
  have hfirst := Lexer.Occurs.of_reaches hwithin.reaches
  rw [hwithin.begins] at hfirst
  have hcompleted := Scan.evaluate_passed hwithin.reaches hwithin.begins
  refine ⟨first.lexer.cursor.passed, String.ofList first.lexer.cursor.rest, first.session,
    hfirst.text_eq_append, ?_, hcompleted, hwithin.config, ?_⟩
  · refine hfirst.passed_of_beginOfLine.resolve_right fun hrest => ?_
    -- A run from the end of the text would succeed.
    have hblank : Token.blankLinesLength first.lexer.cursor.rest =
        first.lexer.cursor.rest.length := by rw [hrest]; rfl
    have hok := Lexer.run_blank scope first.session hfirst.fits hblank
    rw [Scan.evaluate_eq_run, Scan.run_eq_of_reaches hwithin.reaches, Scan.run, hwithin.begins, hok]
      at hrun
    cases hrun
  · obtain ⟨-, hoffset, -⟩ | ⟨-, hquote, -⟩ := hfails.shows_cases hoccurs
    · exact hoffset ▸ hwithin.start_le
    · exact hwithin.quote_ge _ hquote

end Scope

namespace Interpreter
variable {interpreter : Interpreter} {files : FileTree}

/-- A directive that ends in a fault of a text has opened a file. -/
theorem exists_openText_of_perform {nested : TextEvaluation} {active : List Identity}
    {source : String}
    {call : DirectiveCall} {here location : Location} {session last : Session} {fault : LexFault}
    (h : interpreter.perform files nested active source call here session =
      (.error (.lexical fault location), last)) :
    ∃ path identity text, files.openText path = .ok (identity, text) := by
  cases hopened : interpreter.opened? files active source call with
  | some found =>
    obtain ⟨path, identity, text⟩ := found
    obtain ⟨argument, -, -, -, -, hopen⟩ := opened?_eq_some hopened
    exact ⟨path, identity, text, hopen⟩
  | none =>
    obtain ⟨_, hfails⟩ | ⟨_, _, hfails⟩ :=
      (perform_of_not_opened_cases hopened nested here session).2 _ (congrArg Prod.fst h)
    · cases hfails
    · cases hfails

/-- When a text has a fault that shows in it, and in no file that it includes, its lines before the
faulty one are carried out as if they were the whole text, and nothing else is. -/
theorem evalNamed_completedLines {source text : String} {config after : Config} {fault : LexFault}
    {location : Location}
    (h : interpreter.evalNamed files source text config = (.error (.lexical fault location), after))
    (hown : ¬ (interpreter.topScope files source).DirectiveFails text (.ofConfig config)
      (.lexical fault location)) :
    ∃ front back, text = front ++ back ∧ EndsLine front.toList ∧
      (∃ warnings, interpreter.evalNamed files source front config = (.ok warnings, after)) ∧
      front.utf8ByteSize ≤ location.position.offset := by
  have heval : interpreter.evaluate files interpreter.maxIncludeDepth [] source =
      (interpreter.topScope files source).evaluate := evaluate_eq interpreter files _ _ _
  obtain ⟨warnings, hrun⟩ := outcome_eq_error h
  rw [heval] at hrun
  obtain ⟨scan, failure, hreaches, hfails, herror, hlast⟩ := Scope.exists_fails hrun hown
  obtain ⟨front, back, completed, rfl, hends, hfront, hconfig, hoffset⟩ :=
    Scope.exists_completed hrun hreaches hfails
  refine ⟨front, back, rfl, hends, ⟨completed.warnings, ?_⟩, ?_⟩
  · have hafter : completed.config = after := by rw [hconfig, ← hlast]
    rw [evalNamed, outcome, heval, hfront, ← hafter]
    rfl
  · obtain ⟨-, rfl⟩ := Error.lexical.inj herror
    exact Position.le_offset_ofOffset front back hoffset

/-- The fault of a text and its place, for a result that is one. -/
def lexical? : Except Error (List Warning) → Option (LexFault × Location)
  | .error (.lexical fault location) => some (fault, location)
  | _ => none

theorem eq_error_of_lexical? {result : Except Error (List Warning) × Config} {fault : LexFault}
    {location : Location} {config : Config} (h : lexical? result.1 = some (fault, location))
    (hconfig : result.2 = config) : result = (.error (.lexical fault location), config) := by
  rcases result with ⟨error | warnings, after⟩
  · cases error with
    | lexical found place =>
      obtain ⟨rfl, rfl⟩ := Prod.mk.inj (Option.some.inj h)
      rw [← hconfig]
    | directive => cases h
    | file => cases h
  · cases h

/-- The faulty line is the second one, which goes on over a line end. -/
theorem evalNamed_completedLines_undefined :
    let strict : Interpreter := { undefined := .refuse }
    let text := "NAME = a\nLIST = b \\\n c $NAME $UNSET d"
    strict.evalNamed .empty "main" text .empty =
        (.error (.lexical (.undefinedVariable "UNSET") ⟨"main", ⟨3, 10, 29⟩⟩),
          Config.empty.set "NAME" ["a"]) ∧
      ∃ front back, text = front ++ back ∧ EndsLine front.toList ∧
        (∃ warnings, strict.evalNamed .empty "main" front .empty =
          (.ok warnings, Config.empty.set "NAME" ["a"])) ∧ front.utf8ByteSize ≤ 29 := by
  intro strict text
  have herror : strict.evalNamed .empty "main" text .empty =
      (.error (.lexical (.undefinedVariable "UNSET") ⟨"main", ⟨3, 10, 29⟩⟩),
        Config.empty.set "NAME" ["a"]) :=
    eq_error_of_lexical? (by decide +kernel) (by decide +kernel)
  have hown : ¬ (strict.topScope .empty "main").DirectiveFails text (.ofConfig .empty)
      (.lexical (.undefinedVariable "UNSET") ⟨"main", ⟨3, 10, 29⟩⟩) := by
    rintro ⟨scan, ended, continuation, call, last, -, -, -, hperform⟩
    rw [topScope, perform_scope] at hperform
    obtain ⟨path, identity, found, hopen⟩ := exists_openText_of_perform hperform
    obtain ⟨fault, hnone⟩ := FileTree.openText_empty path
    rw [hnone] at hopen
    cases hopen
  exact ⟨herror, evalNamed_completedLines herror hown⟩

end Interpreter
end ShellConfig
