import ShellConfig.Interpreter
import ShellConfig.Proofs.Lexer.Lines

/-!
Evaluation line by line. No directive looks at the place of its line, so an interpreter's scopes
ignore positions (`ignoresPositions_perform`), and a text that is evaluated to its end can be cut at
a line feed (`evalNamed_append_lineFeed`).
-/

set_option autoImplicit false

namespace ShellConfig
open Correspondence

/-- An evaluation of texts to which the warnings of earlier texts make no difference. -/
def TextEvaluation.IgnoresEarlier (evaluation : TextEvaluation) : Prop :=
  ∀ (earlier : List Warning) (active : List Identity) (source text : String) (s t : Session),
    (apart earlier).sessions s t →
      (apart earlier).RelatesUnits (evaluation active source text s)
        (evaluation active source text t)

namespace Interpreter

section
variable {interpreter : Interpreter} {files : FileTree} {nested : TextEvaluation}
  {active : List Identity} {source path : String} {here there : Location} {earlier : List Warning}
  {s t : Session}

/-! ## Directives and places -/

theorem relates_openFile (hnested : nested.IgnoresEarlier) (hl : here.source = there.source)
    (hs : (apart earlier).sessions s t) :
    (apart earlier).RelatesUnits (openFile files nested active path (some here) s)
      (openFile files nested active path (some there) t) := by
  unfold openFile
  cases files.openText path with
  | error fault => exact ⟨by simp [apart, Error.unplaced, Location.unplaced, hl], hs⟩
  | ok found => exact hnested earlier (active ++ [found.1]) path found.2 s t hs

theorem relates_includeFile (hnested : nested.IgnoresEarlier) (hl : here.source = there.source)
    (hs : (apart earlier).sessions s t) :
    (apart earlier).RelatesUnits (interpreter.includeFile files nested active path here s)
      (interpreter.includeFile files nested active path there t) := by
  unfold includeFile
  split
  · exact ⟨by simp [apart, Error.unplaced, Location.unplaced, hl], hs⟩
  · split
    · exact ⟨by simp [apart, Error.unplaced, Location.unplaced, hl], hs⟩
    · exact relates_openFile hnested hl hs

theorem relates_perform (hnested : nested.IgnoresEarlier) (call : DirectiveCall)
    (hl : here.source = there.source) (hs : (apart earlier).sessions s t) :
    (apart earlier).RelatesUnits (interpreter.perform files nested active source call here s)
      (interpreter.perform files nested active source call there t) := by
  have hplace : here.unplaced = there.unplaced := by simp [Location.unplaced, hl]
  unfold perform
  split
  · split
    · exact relates_includeFile hnested hl hs
    · exact ⟨by simp [apart, Error.unplaced, hplace], hs⟩
  · cases interpreter.directives.find? call.name with
    | none => exact ⟨by simp [apart, Error.unplaced, hplace], hs⟩
    | some handler =>
      simp only [hs.1]
      rcases handler t.config call.name call.arguments with ⟨config, _ | cause⟩
      · exact ⟨trivial, rfl, hs.2⟩
      · exact ⟨by simp [apart, Error.unplaced, hplace], rfl, hs.2⟩

end

variable (interpreter : Interpreter) (files : FileTree)

/-- The scope in which the interpreter evaluates a text. -/
def scope (nested : TextEvaluation) (active : List Identity) (source : String) : Scope :=
  ⟨source, interpreter.undefined, interpreter.perform files nested active source⟩

@[simp] theorem perform_scope (nested : TextEvaluation) (active : List Identity) (source : String) :
    (interpreter.scope files nested active source).perform =
      interpreter.perform files nested active source := rfl

theorem ignoresPositions_scope {nested : TextEvaluation} (hnested : nested.IgnoresEarlier)
    (active : List Identity) (source : String) :
    (interpreter.scope files nested active source).IgnoresPositions :=
  fun _ call _ _ _ _ hl hs => relates_perform hnested call hl hs

theorem ignoresEarlier_evaluateWith {nested : TextEvaluation} (hnested : nested.IgnoresEarlier) :
    (interpreter.evaluateWith files nested).IgnoresEarlier := fun _ active source _ _ _ hs =>
  Lexer.run_apart (ignoresPositions_scope interpreter files hnested active source) .beginOfLine rfl
    hs

theorem ignoresEarlier_evaluate (closed : Nat) :
    (interpreter.evaluate files closed).IgnoresEarlier := by
  induction closed with
  | zero => exact ignoresEarlier_evaluateWith interpreter files fun _ _ _ _ _ _ hs => ⟨trivial, hs⟩
  | succ closed ih => exact ignoresEarlier_evaluateWith interpreter files ih

/-- How the files that a text includes are evaluated, when so many can still be opened. -/
def included : Nat → TextEvaluation
  | 0 => fun _ _ _ session => (.ok (), session)
  | closed + 1 => interpreter.evaluate files closed

theorem evaluate_eq (closed : Nat) (active : List Identity) (source : String) :
    interpreter.evaluate files closed active source =
      (interpreter.scope files (interpreter.included files closed) active source).evaluate := by
  cases closed <;> rfl

theorem ignoresEarlier_included (number : Nat) :
    (interpreter.included files number).IgnoresEarlier := by
  cases number with
  | zero => exact fun _ _ _ _ _ _ hs => ⟨trivial, hs⟩
  | succ closed => exact ignoresEarlier_evaluate interpreter files closed

/-- An evaluation of the interpreter is that of one of its scopes. -/
theorem evaluate_eq_scope (closed : Nat) (active : List Identity) (source : String) :
    ∃ nested : TextEvaluation, (interpreter.scope files nested active source).IgnoresPositions ∧
      interpreter.evaluate files closed active source =
        (interpreter.scope files nested active source).evaluate :=
  ⟨_, ignoresPositions_scope interpreter files (ignoresEarlier_included interpreter files closed)
    active source, evaluate_eq interpreter files closed active source⟩

/-- The scope of a whole evaluation. -/
def topScope (interpreter : Interpreter) (files : FileTree) (source : String) : Scope :=
  interpreter.scope files (interpreter.included files interpreter.maxIncludeDepth) [] source

@[simp] theorem perform_topScope (source : String) : (interpreter.topScope files source).perform =
    interpreter.perform files (interpreter.included files interpreter.maxIncludeDepth) [] source :=
  rfl

theorem evaluate_eq_topScope (source : String) :
    interpreter.evaluate files interpreter.maxIncludeDepth [] source =
      (interpreter.topScope files source).evaluate :=
  evaluate_eq interpreter files interpreter.maxIncludeDepth [] source

theorem ignoresPositions_topScope (source : String) :
    (interpreter.topScope files source).IgnoresPositions :=
  ignoresPositions_scope interpreter files (ignoresEarlier_included interpreter files _) [] source

/-! ## Texts line by line -/

/-- The warnings or the error of an evaluation, apart from positions. -/
def unplacedResult (result : Except Error (List Warning)) : Except Error (List Warning) :=
  (result.mapError Error.unplaced).map (List.map Warning.unplaced)

/-- A result that can be computed: its parts have decidable equality, but errors have not. -/
theorem eq_ok_of_toOption {result : Except Error (List Warning) × Config}
    {warnings : List Warning} {config : Config} (h : result.1.toOption = some warnings)
    (hconfig : result.2 = config) : result = (.ok warnings, config) := by
  rcases result with ⟨error | found, after⟩
  · cases h
  · exact Prod.ext (congrArg Except.ok (Option.some.inj h)) hconfig

theorem outcome_eq_ok {evaluation : Evaluation Unit} {config after : Config}
    {warnings : List Warning} (h : outcome evaluation config = (.ok warnings, after)) :
    evaluation (.ofConfig config) = (.ok (), ⟨after, warnings⟩) := by
  unfold outcome at h
  rcases he : evaluation (.ofConfig config) with ⟨result, session⟩
  rw [he] at h
  cases result with
  | error error => cases (Prod.mk.inj h).1
  | ok value =>
    obtain ⟨hw, rfl⟩ := Prod.mk.inj h
    rw [← Except.ok.inj hw]

theorem outcome_eq_error {evaluation : Evaluation Unit} {config after : Config} {error : Error}
    (h : outcome evaluation config = (.error error, after)) :
    ∃ warnings, evaluation (.ofConfig config) = (.error error, ⟨after, warnings⟩) := by
  unfold outcome at h
  rcases he : evaluation (.ofConfig config) with ⟨result, session⟩
  rw [he] at h
  cases result with
  | ok value => cases (Prod.mk.inj h).1
  | error found =>
    obtain ⟨hfound, rfl⟩ := Prod.mk.inj h
    rw [Except.error.inj hfound]
    exact ⟨session.warnings, rfl⟩

theorem outcome_of_relates {left right : Evaluation Unit} {config after : Config}
    {earlier : List Warning}
    (h : (apart earlier).RelatesUnits (left (.ofConfig config)) (right (.ofConfig after))) :
    (outcome left config).2 = (outcome right after).2 ∧
      ((outcome left config).1.isOk ↔ (outcome right after).1.isOk) ∧
      unplacedResult (outcome left config).1 =
        unplacedResult ((outcome right after).1.map (earlier ++ ·)) := by
  unfold outcome
  revert h
  rcases left (.ofConfig config) with ⟨_ | _, s⟩ <;>
    rcases right (.ofConfig after) with ⟨_ | _, t⟩ <;> intro h
  · obtain ⟨he, hc, -⟩ := h
    refine ⟨hc, Iff.rfl, ?_⟩
    exact congrArg Except.error he
  · exact h.elim
  · exact h.elim
  · obtain ⟨-, hc, hw⟩ := h
    refine ⟨hc, Iff.rfl, ?_⟩
    exact congrArg Except.ok hw

section
variable {interpreter : Interpreter} {files : FileTree} {source : String} {scope : Scope}
  {text : List Char} {config : Config}
  (heval : interpreter.evaluate files interpreter.maxIncludeDepth [] source = scope.evaluate)
include heval

theorem exists_warnings_of_readLines {last : Session}
    (h : scope.readLines text (.ofConfig config) = Outcome.unplaced (.ok (), last)) :
    ∃ warnings,
      interpreter.evalNamed files source (String.ofList text) config = (.ok warnings, last.config) ∧
        warnings.map Warning.unplaced = last.warnings.map Warning.unplaced := by
  obtain ⟨finish, hfinish, hsession⟩ := Outcome.eq_ok_of_unplaced h
  obtain ⟨hconfig, hwarnings⟩ := Session.unplaced_eq_iff.1 hsession
  refine ⟨finish.warnings, ?_, hwarnings⟩
  rw [evalNamed, outcome, heval, hfinish, ← hconfig]
  rfl

theorem evalNamed_of_readLines (after : Config)
    (h : scope.readLines text (.ofConfig config) = Outcome.unplaced (.ok (), .ofConfig after)) :
    interpreter.evalNamed files source (String.ofList text) config = (.ok [], after) := by
  obtain ⟨warnings, hresult, hwarnings⟩ := exists_warnings_of_readLines heval h
  rw [hresult, List.map_eq_nil_iff.1 hwarnings]
  rfl

end

/-- When a text is evaluated to its end, a text after a line feed is evaluated as if it came next on
its own: the configuration is the same, and apart from positions so is the error, or the warnings
are those of both texts. -/
theorem evalNamed_append_lineFeed (source : String) {first second : String}
    {config after : Config} {warnings : List Warning} (hcr : first.toList.getLast? ≠ some '\r')
    (h : interpreter.evalNamed files source first config = (.ok warnings, after)) :
    let joined := interpreter.evalNamed files source (first ++ "\n" ++ second) config
    let rest := interpreter.evalNamed files source second after
    joined.2 = rest.2 ∧ (joined.1.isOk ↔ rest.1.isOk) ∧
      unplacedResult joined.1 = unplacedResult (rest.1.map (warnings ++ ·)) := by
  obtain ⟨nested, hscope, heval⟩ :=
    evaluate_eq_scope interpreter files interpreter.maxIncludeDepth [] source
  generalize interpreter.scope files nested [] source = scope at hscope heval
  have hfirst := outcome_eq_ok h
  have htail : ¬ ['\r'] <:+ first.toList := fun h => hcr (Token.return_suffix_iff.1 h)
  have hjoined : Outcome.unplaced
      (scope.evaluate (first ++ "\n" ++ second) (.ofConfig config)) =
      Outcome.unplaced (scope.evaluate second ⟨after, warnings⟩) := by
    rw [heval, ← String.ofList_toList (s := first)] at hfirst
    have happend := Scope.evaluate_append_lineFeed second.toList hscope htail hfirst
    have htext : String.ofList (first.toList ++ '\n' :: second.toList) =
        first ++ "\n" ++ second := by
      rw [← String.toList_inj]
      simp
    rwa [Scope.readLines, Scope.readLines, htext, String.ofList_toList] at happend
  have hrest : (apart warnings).RelatesUnits (scope.evaluate second ⟨after, warnings⟩)
      (scope.evaluate second (.ofConfig after)) :=
    Lexer.run_apart hscope .beginOfLine rfl ⟨rfl, by simp [Session.ofConfig]⟩
  simp only [evalNamed, heval]
  exact outcome_of_relates (hrest.of_unplaced hjoined)

/-- The first text refers to a variable that is not set, and the second one fails after it has
changed a variable. -/
theorem evalNamed_append_comment :
    "NAME = a $UNSET # done".toList.getLast? ≠ some '\r' ∧
      standard.evalNamed .empty "main" "NAME = a $UNSET # done" .empty =
        (.ok [⟨"UNSET", ⟨"main", ⟨1, 10, 9⟩⟩⟩], Config.empty.set "NAME" ["a"]) ∧
      (standard.evalNamed .empty "main"
        ("NAME = a $UNSET # done" ++ "\n" ++ "NAME += b\n.gone") .empty).2 =
        (Config.empty.set "NAME" ["a"]).append "NAME" ["b"] := by
  have hlast : "NAME = a $UNSET # done".toList.getLast? ≠ some '\r' := by decide +kernel
  have hfirst : standard.evalNamed .empty "main" "NAME = a $UNSET # done" .empty =
      (.ok [⟨"UNSET", ⟨"main", ⟨1, 10, 9⟩⟩⟩], Config.empty.set "NAME" ["a"]) :=
    eq_ok_of_toOption (by decide +kernel) (by decide +kernel)
  have hsecond : (standard.evalNamed .empty "main" "NAME += b\n.gone"
      (Config.empty.set "NAME" ["a"])).2 = (Config.empty.set "NAME" ["a"]).append "NAME" ["b"] := by
    decide +kernel
  exact ⟨hlast, hfirst,
    (evalNamed_append_lineFeed standard .empty "main" hlast hfirst).1.trans hsecond⟩

end Interpreter
end ShellConfig
