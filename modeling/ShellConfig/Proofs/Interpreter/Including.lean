import ShellConfig.Proofs.Interpreter.Coupling
import ShellConfig.Proofs.Interpreter.Evaluator
import ShellConfig.Proofs.Interpreter.Loading

/-!
Including a file beside loading it. A text that no file holds includes a file with the effect of
loading it: the configuration is the same, and the warnings come after those that were there
(`Interpreter.perform_include_of_load`). Where the file cannot be loaded the error is the same, unless
it is about the file itself; then it tells the place of the include
(`Interpreter.perform_include_of_load_error`).
-/

set_option autoImplicit false

namespace ShellConfig
open Correspondence

/-- An error about a file that no line includes, told at the place of a line that does. Any other
error stays as it is. -/
def Error.includedAt (location : Location) : Error → Error
  | .file path none fault => .file path (some location) fault
  | error => error

theorem Error.includedAt_of_location {error : Error} (h : error.location?.isSome)
    (location : Location) : error.includedAt location = error := by
  cases error with
  | file path place fault =>
    obtain ⟨found, rfl⟩ := Option.isSome_iff_exists.1 h
    rfl
  | lexical | directive => rfl

/-- The left evaluation had some warnings before, and nothing else differs. All errors tell their
places. -/
def Coupling.warnedBefore (earlier : List Warning) : Coupling where
  errors left right := left = right ∧ right.location?.isSome
  sessions s t := s.config = t.config ∧ s.warnings = earlier ++ t.warnings
  places := Eq
  excused _ := False
  places_refl _ := rfl
  config_eq hs := hs.1
  update _ hs := ⟨rfl, hs.2⟩
  warn name hs hplaces := by
    subst hplaces
    refine ⟨hs.1, ?_⟩
    simp only [Session.warn, hs.2, List.append_assoc]
  lexical fault hplaces := ⟨congrArg (Error.lexical fault) hplaces, rfl⟩
  directive fault _ hplaces := ⟨congrArg (Error.directive fault) hplaces, rfl⟩
  file path fault hplaces :=
    ⟨congrArg (fun place => Error.file path (some place) fault) hplaces, rfl⟩

namespace Interpreter
variable (interpreter : Interpreter) (files : FileTree)

theorem relates_warnedBefore (closed : Nat) (active : List Identity) (source text : String)
    (session : Session) :
    (Coupling.warnedBefore session.warnings).RelatesUnits
      (interpreter.evaluate files closed active source text session)
      (interpreter.evaluate files closed active source text (.ofConfig session.config)) := by
  have hjoins : (Coupling.warnedBefore session.warnings).Joins files Eq interpreter interpreter :=
    (Coupling.warnedBefore session.warnings).joins_self
      (fun fault _ _ hplaces => ⟨congrArg (Error.directive fault) hplaces, rfl⟩) _ _
  have hfollows := hjoins.included (closed + 1) active active source text session
    (.ofConfig session.config) rfl ⟨rfl, (List.append_nil _).symm⟩
  exact hfollows.resolve_left fun ⟨_, _, hexcused⟩ => hexcused

variable {interpreter files} {source path : String}

/-- An evaluation of a text that fails tells the place. -/
theorem location_of_evaluate {closed : Nat} {active : List Identity} {text : String} {error : Error}
    {config : Config} {last : Session}
    (h : interpreter.evaluate files closed active source text (.ofConfig config) =
      (.error error, last)) : error.location?.isSome := by
  have hrelates := relates_warnedBefore interpreter files closed active source text
    (.ofConfig config)
  rw [show Session.ofConfig (Session.ofConfig config).config = .ofConfig config from rfl, h]
    at hrelates
  exact hrelates.1.2

/-- A file that cannot be loaded is told without a place, and any error in a text with one. -/
theorem location_of_load {error : Error} {config after : Config}
    (h : interpreter.load files path config = (.error error, after)) :
    error.location?.isSome ∨ ∃ fault, error = .file path none fault := by
  obtain ⟨warnings, hloaded⟩ := outcome_eq_error h
  simp only [openFile] at hloaded
  cases hopen : files.openText path with
  | error fault =>
    rw [hopen] at hloaded
    obtain ⟨herror, -⟩ := Prod.mk.inj hloaded
    exact .inr ⟨fault, (Except.error.inj herror).symm⟩
  | ok found =>
    rw [hopen] at hloaded
    exact .inl (location_of_evaluate hloaded)

section
variable (hdepth : 0 < interpreter.maxIncludeDepth) (hsource : Path.resolve source path = path)
  (location : Location) (session : Session)
include hdepth hsource

/-- Nothing is open beside the text, so a file that it includes is opened as if it were loaded. -/
theorem perform_include_eq :
    interpreter.perform files (interpreter.included files interpreter.maxIncludeDepth) [] source
        ⟨DirectiveCall.includeName, [path]⟩ location session =
      openFile files (interpreter.evaluate files interpreter.maxIncludeDepth) [] path
        (some location) session := by
  have haccepted : interpreter.refused? files [] path = none :=
    (refused?_eq_none_iff interpreter files [] path).2
      ⟨hdepth, isActive_eq_false_iff.2 List.not_mem_nil⟩
  rw [perform_include, hsource, includeFile_eq, haccepted]
  simp only [openFile]
  cases hopen : files.openText path with
  | error fault => rfl
  | ok found =>
    obtain ⟨identity, text⟩ := found
    have hevaluate : interpreter.included files interpreter.maxIncludeDepth ([] ++ [identity]) =
        interpreter.evaluate files interpreter.maxIncludeDepth ([] ++ [identity]) :=
      Evaluator.included_eq_evaluate interpreter files [] (Nat.le_add_right _ _) hdepth identity
    simp only [hevaluate]

theorem perform_include_of_load {warnings : List Warning} {config : Config}
    (h : interpreter.load files path session.config = (.ok warnings, config)) :
    interpreter.perform files (interpreter.included files interpreter.maxIncludeDepth) [] source
        ⟨DirectiveCall.includeName, [path]⟩ location session =
      (.ok (), ⟨config, session.warnings ++ warnings⟩) := by
  have hloaded := outcome_eq_ok h
  rw [perform_include_eq hdepth hsource]
  simp only [openFile] at hloaded ⊢
  cases hopen : files.openText path with
  | error fault =>
    rw [hopen] at hloaded
    cases hloaded
  | ok found =>
    have hrelates := relates_warnedBefore interpreter files interpreter.maxIncludeDepth
      ([] ++ [found.1]) path found.2 session
    rw [hopen] at hloaded
    simp only at hloaded ⊢
    rw [hloaded] at hrelates
    revert hrelates
    rcases interpreter.evaluate files interpreter.maxIncludeDepth ([] ++ [found.1]) path found.2
      session with ⟨error | value, last⟩ <;> intro hrelates
    · exact hrelates.elim
    · obtain ⟨-, hconfig, hwarnings⟩ := hrelates
      exact Prod.ext rfl (by rw [← show last.config = config from hconfig, ← hwarnings])

theorem perform_include_of_load_error {error : Error} {config : Config}
    (h : interpreter.load files path session.config = (.error error, config)) :
    ∃ last, interpreter.perform files (interpreter.included files interpreter.maxIncludeDepth) []
        source ⟨DirectiveCall.includeName, [path]⟩ location session =
      (.error (error.includedAt location), last) := by
  obtain ⟨warnings, hloaded⟩ := outcome_eq_error h
  rw [perform_include_eq hdepth hsource]
  simp only [openFile] at hloaded ⊢
  cases hopen : files.openText path with
  | error fault =>
    rw [hopen] at hloaded
    obtain ⟨herror, -⟩ := Prod.mk.inj hloaded
    exact ⟨session, by rw [← Except.error.inj herror]; rfl⟩
  | ok found =>
    have hrelates := relates_warnedBefore interpreter files interpreter.maxIncludeDepth
      ([] ++ [found.1]) path found.2 session
    rw [hopen] at hloaded
    simp only at hloaded ⊢
    rw [hloaded] at hrelates
    revert hrelates
    rcases interpreter.evaluate files interpreter.maxIncludeDepth ([] ++ [found.1]) path found.2
      session with ⟨other | value, last⟩ <;> intro hrelates
    · obtain ⟨rfl, hlocation⟩ : other = error ∧ _ := hrelates.1
      exact ⟨last, by rw [Error.includedAt_of_location hlocation]⟩
    · exact hrelates.elim

end
end Interpreter
end ShellConfig
